import Beachhead.DomainSpec

/-!
# What the domain pattern matches

The middle class of the pattern contains the characters of its ends and the dot,
so the engine has to give characters back. The text `Settled` says when it gives
back none of them: the longest candidate then ends exactly at the last letter or
digit of the run.
-/
namespace Beachhead.DomainSpec
open Regex Regex.Pattern

/-- The name matches `[a-zA-Z0-9][a-zA-Z0-9.-]+[a-zA-Z0-9]` in full. -/
def IsDomain (d : Text) : Prop := NAME_PAT.fullMatch d = true

instance (d : Text) : Decidable (IsDomain d) := inferInstanceAs (Decidable (_ = true))

/-- No letter or digit continues the run of name characters at the head of `r`. -/
def Settled (r : Text) : Prop := ∀ c ∈ r.takeWhile inner, alnum c = false

def TAIL_PAT : Pattern := .seq (.many inner) (.cls alnum)

theorem inner_of_alnum {c : Char} (h : alnum c) : inner c := by simp [inner, h]

private theorem not_alnum_dot : alnum '.' = false := by decide
private theorem not_inner_colon : inner ':' = false := by decide

theorem not_whitespace_of_inner {c : Char} (h : inner c) : Text.isWhitespace c = false := by
  simp only [inner, alnum, Bool.or_eq_true, Bool.and_eq_true, decide_eq_true_eq, beq_iff_eq,
    Char.le_def, UInt32.le_iff_toNat_le] at h
  have hn : 45 ≤ c.toNat ∧ c.toNat ≤ 122 := by
    rcases h with (((h | h) | h) | rfl) | rfl
    · exact ⟨le_trans (by decide) h.1, le_trans h.2 (by decide)⟩
    · exact ⟨le_trans (by decide) h.1, le_trans h.2 (by decide)⟩
    · exact ⟨le_trans (by decide) h.1, le_trans h.2 (by decide)⟩
    · decide
    · decide
  simp only [Text.isWhitespace, Bool.or_eq_false_iff, Bool.and_eq_false_iff,
    decide_eq_false_iff_not, beq_eq_false_iff_ne]
  omega

theorem settled_nil : Settled [] := by simp [Settled]

theorem settled_colon (p : Text) : Settled (':' :: p) := by simp [Settled, not_inner_colon]

theorem Settled.cons_dot {r : Text} (h : Settled r) : Settled ('.' :: r) := by
  have hd : inner '.' := by decide
  intro c hc
  rw [List.takeWhile_cons_of_pos hd, List.mem_cons] at hc
  rcases hc with rfl | hc
  · exact not_alnum_dot
  · exact h c hc

private theorem Settled.head {c : Char} {r : Text} (h : Settled (c :: r)) : alnum c = false := by
  by_contra hc
  rw [Bool.not_eq_false] at hc
  have hm : c ∈ (c :: r).takeWhile inner := by
    rw [List.takeWhile_cons_of_pos (inner_of_alnum hc)]
    exact List.mem_cons_self
  exact absurd (h c hm) (by simp [hc])

private theorem Settled.cls {r : Text} (h : Settled r) : (Pattern.cls alnum).paths r = [] := by
  cases r with
  | nil => rfl
  | cons c r => simp [paths, h.head]

private theorem tail_paths_cons (c : Char) (s : Text) : TAIL_PAT.paths (c :: s) =
    if inner c then (TAIL_PAT.paths s).map (Path.cons c) ++
      ((Pattern.cls alnum).paths s).map (Path.append ⟨[c], [], s⟩) else [] := by
  by_cases hc : inner c
  · simp only [TAIL_PAT, paths, manyPaths, hc, if_true, List.flatMap_append, List.flatMap_map,
      List.map_flatMap, List.map_map, List.flatMap_singleton]
    rfl
  · simp [TAIL_PAT, paths, manyPaths, hc]

private theorem Settled.tail {r : Text} (h : Settled r) : TAIL_PAT.paths r = [] := by
  induction r with
  | nil => rfl
  | cons c r ih =>
    by_cases hc : inner c
    · have hr : Settled r := fun a ha => h a (by simp [hc, ha])
      simp [tail_paths_cons, ih hr, hr.cls]
    · simp [tail_paths_cons, hc]

/-- Giving characters back stops at the last letter or digit of the run. -/
theorem tail_head {x : Text} (hx : x ≠ []) (hi : ∀ c ∈ x, inner c) {b : Char} (hb : alnum b)
    {r : Text} (hr : Settled r) :
    TAIL_PAT.matchAt (x ++ b :: r) = some ⟨x ++ [b], [], r⟩ := by
  induction x with
  | nil => exact absurd rfl hx
  | cons c x ih =>
    have hc : inner c := hi c (by simp)
    rw [matchAt, List.cons_append, tail_paths_cons, if_pos hc]
    cases x with
    | nil =>
      have hbr : TAIL_PAT.paths (b :: r) = [] := by simp [tail_paths_cons, hr.tail, hr.cls]
      simp [hbr, paths, hb, Path.append]
    | cons e x =>
      have hrec := ih (by simp) (fun a ha => hi a (List.mem_cons_of_mem c ha))
      rw [List.head?_append, List.head?_map, ← matchAt, hrec]
      rfl

private theorem tail_mem {s : Text} {m : Path} (hm : m ∈ TAIL_PAT.paths s) : ∃ x b,
    m = ⟨x ++ [b], [], m.rest⟩ ∧ x ≠ [] ∧ (∀ c ∈ x, inner c) ∧ alnum b := by
  induction s generalizing m with
  | nil => simp [TAIL_PAT, paths, manyPaths] at hm
  | cons c s ih =>
    by_cases hc : inner c
    · rw [tail_paths_cons, if_pos hc, List.mem_append, List.mem_map, List.mem_map] at hm
      rcases hm with ⟨n, hn, rfl⟩ | ⟨n, hn, rfl⟩
      · obtain ⟨x, b, hxb, -, hi, hb⟩ := ih hn
        refine ⟨c :: x, b, ?_, by simp, by simpa [hc] using hi, hb⟩
        rw [hxb]
        rfl
      · cases s with
        | nil => simp [paths] at hn
        | cons b s =>
          by_cases hb : alnum b
          · obtain rfl : n = ⟨[b], [], s⟩ := by simpa [paths, hb] using hn
            exact ⟨[c], b, rfl, by simp, by simpa using hc, hb⟩
          · simp [paths, hb] at hn
    · simp [tail_paths_cons, hc] at hm

private theorem name_paths_cons (a : Char) (s : Text) : NAME_PAT.paths (a :: s) =
    if alnum a then (TAIL_PAT.paths s).map (Path.cons a) else [] := by
  by_cases ha : alnum a
  · simp [NAME_PAT, TAIL_PAT, paths, ha, Path.cons, Path.append]
  · simp [NAME_PAT, paths, ha]

theorem name_mem {s : Text} {m : Path} (hm : m ∈ NAME_PAT.paths s) : ∃ a x b,
    m = ⟨a :: x ++ [b], [], m.rest⟩ ∧ alnum a ∧ x ≠ [] ∧ (∀ c ∈ x, inner c) ∧ alnum b := by
  cases s with
  | nil => simp [NAME_PAT, paths] at hm
  | cons a s =>
    by_cases ha : alnum a
    · rw [name_paths_cons, if_pos ha, List.mem_map] at hm
      obtain ⟨n, hn, rfl⟩ := hm
      obtain ⟨x, b, hxb, hx, hi, hb⟩ := tail_mem hn
      refine ⟨a, x, b, ?_, ha, hx, hi, hb⟩
      rw [hxb]
      rfl
    · simp [name_paths_cons, ha] at hm

theorem name_head {a : Char} (ha : alnum a) {x : Text} (hx : x ≠ []) (hi : ∀ c ∈ x, inner c)
    {b : Char} (hb : alnum b) {r : Text} (hr : Settled r) :
    NAME_PAT.matchAt (a :: x ++ b :: r) = some ⟨a :: x ++ [b], [], r⟩ := by
  rw [matchAt, List.cons_append, name_paths_cons, if_pos ha, List.head?_map, ← matchAt,
    tail_head hx hi hb hr]
  rfl

theorem isDomain_iff (d : Text) : IsDomain d ↔ ∃ a x b,
    d = a :: x ++ [b] ∧ alnum a ∧ x ≠ [] ∧ (∀ c ∈ x, inner c) ∧ alnum b := by
  constructor
  · intro h
    simp only [IsDomain, fullMatch, List.any_eq_true, List.isEmpty_iff] at h
    obtain ⟨m, hm, hr⟩ := h
    obtain ⟨a, x, b, hmx, hrest⟩ := name_mem hm
    refine ⟨a, x, b, ?_, hrest⟩
    have hs := paths_split hm
    rw [hmx, hr, List.append_nil] at hs
    exact hs
  · rintro ⟨a, x, b, rfl, ha, hx, hi, hb⟩
    have hh := name_head ha hx hi hb settled_nil
    simp only [IsDomain, fullMatch, List.any_eq_true, List.isEmpty_iff]
    exact ⟨_, List.mem_of_head? hh, rfl⟩

theorem IsDomain.inner {d : Text} (h : IsDomain d) : ∀ c ∈ d, inner c := by
  obtain ⟨a, x, b, rfl, ha, -, hi, hb⟩ := (isDomain_iff d).mp h
  intro c hc
  simp only [List.cons_append, List.mem_cons, List.mem_append, List.not_mem_nil, or_false] at hc
  rcases hc with rfl | hc | rfl
  · exact inner_of_alnum ha
  · exact hi c hc
  · exact inner_of_alnum hb

/-- A name ends in a letter or digit, so only the optional final dot is chopped off. -/
theorem IsDomain.chopEnd {d : Text} (h : IsDomain d) : Text.chopEnd '.' d = d := by
  obtain ⟨a, x, b, rfl, -, -, -, hb⟩ := (isDomain_iff d).mp h
  have hne : b ≠ '.' := by
    rintro rfl
    exact absurd hb (by decide)
  have hl : (a :: x ++ [b]).getLast? = some b := List.getLast?_concat
  rw [Text.chopEnd, hl, if_neg (by simpa using hne)]

theorem chopEnd_dot (d : Text) : Text.chopEnd '.' (d ++ ['.']) = d := by
  simp [Text.chopEnd]

end Beachhead.DomainSpec
