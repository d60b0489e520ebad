import Beachhead.DomainPattern
import Mathlib.Tactic.Linarith

/-!
# The parser, one whitespace-separated token at a time

No class of the pattern accepts white space, so the scan of a text is the scan of
its tokens. Inside a token it finds the DOMAIN part when that is a well formed
name, and otherwise whatever piece of the token happens to look like one.
-/
namespace Beachhead.DomainSpec
open Regex Regex.Pattern

theorem DS_PAT_avoids : DS_PAT.Avoids Text.isWhitespace := by
  have hin (c : Char) (hc : Text.isWhitespace c) : inner c = false := by
    by_contra h
    rw [Bool.not_eq_false] at h
    exact absurd hc (by simp [not_whitespace_of_inner h])
  have hal (c : Char) (hc : Text.isWhitespace c) : alnum c = false := by
    have h := hin c hc
    simp only [inner, Bool.or_eq_false_iff] at h
    exact h.1.1
  refine ⟨⟨⟨hal, hin, hal⟩, ?_⟩, ?_, ?_⟩
  · intro c hc
    exact beq_eq_false_iff_ne.mpr (by rintro rfl; exact absurd hc (by decide))
  · intro c hc
    exact beq_eq_false_iff_ne.mpr (by rintro rfl; exact absurd hc (by decide))
  · intro c hc
    simp [hc]

/-- The optional final dot of a name. -/
def IsDot (dot : Text) : Prop := dot = [] ∨ dot = ['.']

/-- The name is what group 1 captured without the dot. -/
theorem capturedName_eq {c : Captures} {d dot : Text} (hd : IsDomain d) (hdot : IsDot dot)
    (h : c.lookup 1 = some (d ++ dot)) : capturedName c = d := by
  rw [capturedName, h, Option.getD_some]
  rcases hdot with rfl | rfl
  · rw [List.append_nil, hd.chopEnd]
  · exact chopEnd_dot d

private theorem dot_mem {s : Text} {m : Path} (hm : m ∈ (Pattern.opt (.cls (· == '.'))).paths s) :
    m.groups = [] ∧ IsDot m.taken := by
  rw [paths, List.mem_append, List.mem_singleton] at hm
  rcases hm with hm | rfl
  · cases s with
    | nil => simp [paths] at hm
    | cons c s =>
      by_cases hc : c = '.'
      · obtain rfl : m = ⟨['.'], [], s⟩ := by simpa [paths, hc] using hm
        exact ⟨rfl, Or.inr rfl⟩
      · simp [paths, hc] at hm
  · exact ⟨rfl, Or.inl rfl⟩

/-- The parameters, if they take part in a match, have no white space. -/
theorem params_mem {s : Text} {m : Path} (hm : m ∈ (Pattern.opt (.group 2 (.seq (.cls (· == ':'))
      (.group 3 (.many fun c => !Text.isWhitespace c))))).paths s) :
    ∀ g, m.groups.lookup 3 = some g → ∀ c ∈ g, Text.isWhitespace c = false := by
  intro g hg
  rw [paths, List.mem_append, List.mem_singleton] at hm
  obtain hm | rfl := hm
  · cases s with
    | nil => simp [paths] at hm
    | cons a s =>
      by_cases ha : a = ':'
      · simp only [paths, ha, beq_self_eq_true, if_true, List.flatMap_singleton, List.map_map,
          List.mem_map] at hm
        obtain ⟨n, hn, rfl⟩ := hm
        obtain ⟨-, hgroups, hclass⟩ := manyPaths_split _ hn
        simp [Path.append, Path.capture, hgroups] at hg
        simpa [← hg] using hclass
      · simp [paths, ha] at hm
  · simp at hg

/-- Every match starts with a name and at most one dot, captured as group 1. -/
theorem DS_PAT_mem {s : Text} {m : Path} (hm : m ∈ DS_PAT.paths s) : ∃ d dot,
    IsDomain d ∧ IsDot dot ∧ m.groups.lookup 1 = some (d ++ dot) ∧ d <+: m.taken ∧
      ∀ g, m.groups.lookup 3 = some g → ∀ c ∈ g, Text.isWhitespace c = false := by
  rw [DS_PAT, paths, List.mem_flatMap] at hm
  obtain ⟨x, hx, hm⟩ := hm
  obtain ⟨w, hw, rfl⟩ := List.mem_map.mp hm
  simp only [paths, List.mem_flatMap, List.mem_map] at hx
  obtain ⟨y, ⟨n, hn, z, hz, rfl⟩, rfl⟩ := hx
  obtain ⟨a, e, b, hne, ha, he, hi, hb⟩ := name_mem hn
  obtain ⟨hgroups, hdot⟩ := dot_mem hz
  have hparams := params_mem hw
  rw [hne]
  refine ⟨a :: e ++ [b], z.taken, ?_, hdot, ?_, ?_, ?_⟩
  · exact (isDomain_iff _).mpr ⟨a, e, b, rfl, ha, he, hi, hb⟩
  · simp [Path.append, Path.capture, hgroups]
  · exact ⟨z.taken ++ w.taken, by simp [Path.append, Path.capture]⟩
  · simpa [Path.append, Path.capture, hgroups, List.lookup_cons] using hparams

theorem DS_PAT_proper : DS_PAT.Proper := by
  intro s m hm
  obtain ⟨d, dot, hd, -, -, ⟨t, ht⟩, -⟩ := DS_PAT_mem hm
  obtain ⟨a, x, b, rfl, -⟩ := (isDomain_iff d).mp hd
  rw [← ht]
  simp

/-- A captured name is well formed and a piece of the text. -/
theorem captures_mem {raw : Text} {c : Captures} (hc : c ∈ DS_PAT.capturesIter raw) :
    IsDomain (capturedName c) ∧ capturedName c <:+: raw ∧
      ∀ g, c.lookup 3 = some g → ∀ a ∈ g, Text.isWhitespace a = false := by
  obtain ⟨t, m, ht, hm, rfl⟩ := mem_capturesIter hc
  obtain ⟨d, dot, hd, hdot, hname, htaken, hparams⟩ := DS_PAT_mem hm
  have hsplit : t = m.taken ++ m.rest := paths_split hm
  have hmatch : m.taken <+: t := ⟨m.rest, hsplit.symm⟩
  rw [capturedName_eq hd hdot hname]
  exact ⟨hd, (htaken.trans hmatch).isInfix.trans ht.isInfix, hparams⟩

private theorem fqdn_match {d dot r : Text} (hd : IsDomain d) (hdot : IsDot dot) (hr : Settled r)
    (hr' : r.head? ≠ some '.') :
    (Pattern.seq NAME_PAT (.opt (.cls (· == '.')))).matchAt (d ++ (dot ++ r)) =
      some ⟨d ++ dot, [], r⟩ := by
  obtain ⟨a, x, b, rfl, ha, hx, hi, hb⟩ := (isDomain_iff d).mp hd
  have hs : Settled (dot ++ r) := by
    rcases hdot with rfl | rfl
    · exact hr
    · exact hr.cons_dot
  have hname := name_head ha hx hi hb hs
  have hopt : (Pattern.opt (.cls (· == '.'))).matchAt (dot ++ r) = some ⟨dot, [], r⟩ := by
    rcases hdot with rfl | rfl
    · apply matchAt_opt_none
      cases r with
      | nil => rfl
      | cons c r => simpa [paths] using hr'
    · exact matchAt_opt (matchAt_cls (by rfl) r)
  rw [List.append_assoc, List.singleton_append]
  exact matchAt_seq hname hopt

/-- A token without parameters, possibly with a dangling colon. -/
theorem capturesIter_bare {d dot r : Text} (hd : IsDomain d) (hdot : IsDot dot)
    (hr : r = [] ∨ r = [':']) :
    DS_PAT.capturesIter (d ++ (dot ++ r)) = [[(1, d ++ dot)]] := by
  have hs : Settled r := by
    rcases hr with rfl | rfl
    · exact settled_nil
    · exact settled_colon []
  have hf := fqdn_match hd hdot hs (by rcases hr with rfl | rfl <;> simp)
  have hnone : (Pattern.group 2 (.seq (.cls (· == ':'))
      (.group 3 (.many fun c => !Text.isWhitespace c)))).paths r = [] := by
    rcases hr with rfl | rfl <;> rfl
  have hm := matchAt_seq (matchAt_group 1 hf) (matchAt_opt_none hnone)
  rw [capturesIter_some DS_PAT_proper hm]
  rcases hr with rfl | rfl <;> rfl

theorem capturesIter_params {d dot p : Text} (hd : IsDomain d) (hdot : IsDot dot) (hp : p ≠ [])
    (hw : ∀ c ∈ p, Text.isWhitespace c = false) :
    DS_PAT.capturesIter (d ++ (dot ++ ':' :: p)) = [[(1, d ++ dot), (3, p), (2, ':' :: p)]] := by
  have hf := fqdn_match hd hdot (settled_colon p) (by simp)
  have hmany := matchAt_many_all (p := fun c => !Text.isWhitespace c) hp (by simpa using hw)
  have hcolon := matchAt_cls (p := (· == ':')) (c := ':') rfl p
  have hparams := matchAt_opt (matchAt_group 2 (matchAt_seq hcolon (matchAt_group 3 hmany)))
  rw [capturesIter_some DS_PAT_proper (matchAt_seq (matchAt_group 1 hf) hparams)]
  rfl

end Beachhead.DomainSpec
