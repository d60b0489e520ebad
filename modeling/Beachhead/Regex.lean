import Mathlib.Data.List.Basic

/-!
# Leftmost-first matching with captures

A pattern is run as a backtracking matcher: `paths` lists every way to match at
one position, in the order in which a backtracking engine tries them, so the
match an engine reports is the head of the list. Repetition is only over single
character classes. `capturesIter` is the usual left-to-right scan for
non-overlapping matches.
-/
namespace Beachhead.Regex

inductive Pattern where
  | cls (p : Char → Bool)
  | many (p : Char → Bool)
  | seq (a b : Pattern)
  | opt (a : Pattern)
  | group (i : ℕ) (a : Pattern)

/-- The text of each capture group that took part in a match. -/
abbrev Captures := List (ℕ × List Char)

/-- One way to match at a position: the matched text, its groups and what follows. -/
structure Path where
  taken : List Char
  groups : Captures
  rest : List Char
  deriving DecidableEq

namespace Path

def cons (c : Char) (m : Path) : Path := ⟨c :: m.taken, m.groups, m.rest⟩

def append (m n : Path) : Path := ⟨m.taken ++ n.taken, m.groups ++ n.groups, n.rest⟩

def capture (i : ℕ) (m : Path) : Path := ⟨m.taken, m.groups ++ [(i, m.taken)], m.rest⟩

/-- The same match, seen in a longer text. -/
def extend (u : List Char) (m : Path) : Path := ⟨m.taken, m.groups, m.rest ++ u⟩

end Path

namespace Pattern

/-- Greedy repetition: the longest run of the class comes first. -/
def manyPaths (p : Char → Bool) : List Char → List Path
  | [] => []
  | c :: s => if p c then (manyPaths p s).map (Path.cons c) ++ [⟨[c], [], s⟩] else []

def paths : Pattern → List Char → List Path
  | cls _, [] => []
  | cls p, c :: s => if p c then [⟨[c], [], s⟩] else []
  | many p, s => manyPaths p s
  | seq a b, s => (paths a s).flatMap fun m => (paths b m.rest).map m.append
  | opt a, s => paths a s ++ [⟨[], [], s⟩]
  | group i a, s => (paths a s).map (Path.capture i)

/-- The match reported at the start of `s`. -/
def matchAt (p : Pattern) (s : List Char) : Option Path := (p.paths s).head?

/-- `k` is the number of characters that still belong to the last match. -/
def scan (p : Pattern) : ℕ → List Char → List Captures
  | _, [] => []
  | k + 1, _ :: s => scan p k s
  | 0, c :: s => match p.matchAt (c :: s) with
    | none => scan p 0 s
    | some m => m.groups :: scan p (m.taken.length - 1) s

/-- Non-overlapping matches from left to right, for a pattern without empty matches. -/
def capturesIter (p : Pattern) (s : List Char) : List Captures := scan p 0 s

/-- Some match starts in the text. -/
def isMatch (p : Pattern) (s : List Char) : Bool := !(p.capturesIter s).isEmpty

/-- The pattern matches the whole text. -/
def fullMatch (p : Pattern) (s : List Char) : Bool := (p.paths s).any (·.rest.isEmpty)

def replaceScan (p : Pattern) (r : List Char) : ℕ → List Char → List Char
  | _, [] => []
  | k + 1, _ :: s => replaceScan p r k s
  | 0, c :: s => match p.matchAt (c :: s) with
    | none => c :: replaceScan p r 0 s
    | some m => r ++ replaceScan p r (m.taken.length - 1) s

def replaceAll (p : Pattern) (r s : List Char) : List Char := replaceScan p r 0 s

/-- No match is empty. -/
def Proper (p : Pattern) : Prop := ∀ s, ∀ m ∈ p.paths s, m.taken ≠ []

/-- No class of the pattern accepts a character of `q`. -/
def Avoids (q : Char → Bool) : Pattern → Prop
  | cls p | many p => ∀ c, q c → p c = false
  | seq a b => Avoids q a ∧ Avoids q b
  | opt a | group _ a => Avoids q a

theorem manyPaths_split (p : Char → Bool) {s : List Char} {m : Path} (hm : m ∈ manyPaths p s) :
    s = m.taken ++ m.rest ∧ m.groups = [] ∧ ∀ c ∈ m.taken, p c := by
  induction s generalizing m with
  | nil => simp [manyPaths] at hm
  | cons c s ih =>
    by_cases hc : p c
    · simp only [manyPaths, hc, if_true, List.mem_append, List.mem_map, List.mem_singleton] at hm
      rcases hm with ⟨n, hn, rfl⟩ | rfl
      · obtain ⟨hs, hgroups, hp⟩ := ih hn
        refine ⟨by simpa [Path.cons] using hs, hgroups, ?_⟩
        simpa [Path.cons, hc] using hp
      · simp [hc]
    · simp [manyPaths, hc] at hm

theorem paths_split {p : Pattern} {s : List Char} {m : Path} (hm : m ∈ p.paths s) :
    s = m.taken ++ m.rest := by
  induction p generalizing s m with
  | cls p =>
    cases s with
    | nil => simp [paths] at hm
    | cons c s =>
      by_cases hc : p c <;> simp [paths, hc] at hm
      simp [hm]
  | many p => exact (manyPaths_split p hm).1
  | seq a b iha ihb =>
    simp only [paths, List.mem_flatMap, List.mem_map] at hm
    obtain ⟨x, hx, y, hy, rfl⟩ := hm
    simp only [Path.append, List.append_assoc, ← ihb hy, ← iha hx]
  | opt a ih =>
    simp only [paths, List.mem_append, List.mem_singleton] at hm
    rcases hm with hm | rfl
    · exact ih hm
    · rfl
  | group i a ih =>
    simp only [paths, List.mem_map] at hm
    obtain ⟨x, hx, rfl⟩ := hm
    have hs := ih hx
    rwa [Path.capture]

/-- A match never looks past a character that no class accepts. -/
theorem manyPaths_extend {q p : Char → Bool} (h : ∀ c, q c → p c = false) (t : List Char) {c : Char}
    (u : List Char) (hc : q c) :
    manyPaths p (t ++ c :: u) = (manyPaths p t).map (Path.extend (c :: u)) := by
  induction t with
  | nil => simp [manyPaths, h c hc]
  | cons a t ih =>
    by_cases ha : p a
    · simp [manyPaths, ha, ih, Path.extend, Path.cons, Function.comp_def]
    · simp [manyPaths, ha]

theorem paths_extend {q : Char → Bool} {p : Pattern} (h : p.Avoids q) (t : List Char) {c : Char}
    (u : List Char) (hc : q c) :
    p.paths (t ++ c :: u) = (p.paths t).map (Path.extend (c :: u)) := by
  induction p generalizing t with
  | cls p =>
    cases t with
    | nil => simp [paths, h c hc]
    | cons a t => by_cases ha : p a <;> simp [paths, ha, Path.extend]
  | many p => exact manyPaths_extend h t u hc
  | seq a b iha ihb =>
    simp only [paths, iha h.1, List.flatMap_map, List.map_flatMap, List.map_map]
    congr 1
    funext m
    simp [Path.extend, ihb h.2, Path.append, Function.comp_def]
  | opt a ih => simp [paths, ih h, Path.extend]
  | group i a ih => simp [paths, ih h, Path.extend, Path.capture, Function.comp_def]

theorem matchAt_extend {q : Char → Bool} {p : Pattern} (h : p.Avoids q) (t : List Char) {c : Char}
    (u : List Char) (hc : q c) :
    p.matchAt (t ++ c :: u) = (p.matchAt t).map (Path.extend (c :: u)) := by
  simp [matchAt, paths_extend h t u hc, List.head?_map]

theorem matchAt_split {p : Pattern} {s : List Char} {m : Path} (hm : p.matchAt s = some m) :
    s = m.taken ++ m.rest := paths_split (List.mem_of_head? hm)

theorem matchAt_taken {p : Pattern} (hp : p.Proper) {s : List Char} {m : Path}
    (hm : p.matchAt s = some m) : m.taken ≠ [] := hp s m (List.mem_of_head? hm)

theorem matchAt_seq {a b : Pattern} {s : List Char} {m n : Path} (hm : a.matchAt s = some m)
    (hn : b.matchAt m.rest = some n) : (seq a b).matchAt s = some (m.append n) := by
  obtain ⟨l, hl⟩ := List.head?_eq_some_iff.mp hm
  obtain ⟨l', hl'⟩ := List.head?_eq_some_iff.mp hn
  simp [matchAt, paths, hl, hl']

theorem matchAt_group {a : Pattern} {s : List Char} {m : Path} (i : ℕ) (hm : a.matchAt s = some m) :
    (group i a).matchAt s = some (m.capture i) := by
  rw [matchAt, paths, List.head?_map, ← matchAt, hm, Option.map_some]

theorem matchAt_opt {a : Pattern} {s : List Char} {m : Path} (hm : a.matchAt s = some m) :
    (opt a).matchAt s = some m := by
  rw [matchAt, paths, List.head?_append, ← matchAt, hm, Option.some_or]

theorem matchAt_opt_none {a : Pattern} {s : List Char} (h : a.paths s = []) :
    (opt a).matchAt s = some ⟨[], [], s⟩ := by
  simp [matchAt, paths, h]

theorem matchAt_cls {p : Char → Bool} {c : Char} (hc : p c) (s : List Char) :
    (cls p).matchAt (c :: s) = some ⟨[c], [], s⟩ := by
  simp [matchAt, paths, hc]

theorem matchAt_many_all {p : Char → Bool} {s : List Char} (hs : s ≠ []) (h : ∀ c ∈ s, p c) :
    (many p).matchAt s = some ⟨s, [], []⟩ := by
  induction s with
  | nil => exact absurd rfl hs
  | cons c s ih =>
    have hc : p c := h c (by simp)
    cases s with
    | nil => simp [matchAt, paths, manyPaths, hc]
    | cons d s =>
      have hrec : (manyPaths p (d :: s)).head? = some ⟨d :: s, [], []⟩ :=
        ih (by simp) (fun a ha => h a (List.mem_cons_of_mem c ha))
      rw [matchAt, paths, manyPaths, if_pos hc, List.head?_append, List.head?_map, hrec]
      rfl

theorem scan_skip (p : Pattern) (k : ℕ) (s : List Char) : scan p k s = scan p 0 (s.drop k) := by
  induction k generalizing s with
  | zero => rfl
  | succ k ih =>
    cases s with
    | nil => rfl
    | cons c s => exact ih s

@[simp] theorem capturesIter_nil (p : Pattern) : p.capturesIter [] = [] := rfl

theorem mem_scan {p : Pattern} {k : ℕ} {s : List Char} {c : Captures} (hc : c ∈ scan p k s) :
    ∃ t m, t <:+ s ∧ m ∈ p.paths t ∧ m.groups = c := by
  induction s generalizing k with
  | nil => cases k <;> simp [scan] at hc
  | cons a s ih =>
    have hrest (k : ℕ) (h : c ∈ scan p k s) :
        ∃ t m, t <:+ a :: s ∧ m ∈ p.paths t ∧ m.groups = c := by
      obtain ⟨t, m, ht, hm⟩ := ih h
      exact ⟨t, m, ht.trans (List.suffix_cons a s), hm⟩
    cases k with
    | succ k => exact hrest k hc
    | zero =>
      cases hm : p.matchAt (a :: s) with
      | none =>
        simp only [scan, hm] at hc
        exact hrest 0 hc
      | some m =>
        simp only [scan, hm, List.mem_cons] at hc
        obtain rfl | hc := hc
        · exact ⟨a :: s, m, List.suffix_rfl, List.mem_of_head? hm, rfl⟩
        · exact hrest _ hc

/-- What the scan reports are the groups of matches that start somewhere in the text. -/
theorem mem_capturesIter {p : Pattern} {s : List Char} {c : Captures}
    (hc : c ∈ p.capturesIter s) : ∃ t m, t <:+ s ∧ m ∈ p.paths t ∧ m.groups = c := mem_scan hc

theorem capturesIter_none {p : Pattern} {c : Char} {s : List Char} (h : p.matchAt (c :: s) = none) :
    p.capturesIter (c :: s) = p.capturesIter s := by
  simp [capturesIter, scan, h]

theorem capturesIter_some {p : Pattern} (hp : p.Proper) {s : List Char} {m : Path}
    (h : p.matchAt s = some m) : p.capturesIter s = m.groups :: p.capturesIter m.rest := by
  have hs := matchAt_split h
  have ht := matchAt_taken hp h
  obtain ⟨c, t, hct⟩ := List.exists_cons_of_ne_nil ht
  rw [hct, List.cons_append] at hs
  subst hs
  have hk : scan p (m.taken.length - 1) (t ++ m.rest) = scan p 0 m.rest := by
    rw [scan_skip, hct, List.length_cons, Nat.add_sub_cancel, List.drop_left]
  simp only [capturesIter, scan, h, hk]

/-- The scan of a text with a separator is the scan of both sides. -/
theorem capturesIter_sep {q : Char → Bool} {p : Pattern} (hp : p.Proper) (h : p.Avoids q)
    (t : List Char) {c : Char} (u : List Char) (hc : q c) :
    p.capturesIter (t ++ c :: u) = p.capturesIter t ++ p.capturesIter u := by
  induction hn : t.length using Nat.strongRecOn generalizing t with
  | ind n ih =>
    have hx := matchAt_extend h t u hc
    cases hm : p.matchAt t with
    | some m =>
      rw [hm] at hx
      have hlt : m.rest.length < n := by
        have hlen := congrArg List.length (matchAt_split hm)
        have hpos := List.length_pos_iff.mpr (matchAt_taken hp hm)
        rw [List.length_append] at hlen
        omega
      rw [capturesIter_some hp hx, capturesIter_some hp hm, List.cons_append, ← ih _ hlt _ rfl]
      rfl
    | none =>
      rw [hm] at hx
      cases t with
      | nil => simpa using capturesIter_none hx
      | cons a t =>
        rw [List.cons_append] at hx ⊢
        rw [capturesIter_none hx, capturesIter_none hm]
        exact ih t.length (by simp [← hn]) t rfl

theorem capturesIter_splitOnP {q : Char → Bool} {p : Pattern} (hp : p.Proper) (h : p.Avoids q)
    (s : List Char) : p.capturesIter s = (s.splitOnP q).flatMap p.capturesIter := by
  induction hn : s.length using Nat.strongRecOn generalizing s with
  | ind n ih =>
    by_cases hs : ∀ c ∈ s, q c = false
    · simp [List.splitOnP_eq_singleton hs]
    · simp only [not_forall, Bool.not_eq_false] at hs
      obtain ⟨c, hmem, hc⟩ := hs
      obtain ⟨t, u, rfl⟩ := List.append_of_mem hmem
      simp only [List.length_append, List.length_cons] at hn
      rw [capturesIter_sep hp h t u hc, List.splitOnP_append_cons t u hc, List.flatMap_append,
        ← ih t.length (by omega) t rfl, ← ih u.length (by omega) u rfl]

/-- Replacing the matches of a single class by a character acts on each character. -/
theorem replaceAll_cls (p : Char → Bool) (r : Char) (s : List Char) :
    (cls p).replaceAll [r] s = s.map fun c => if p c then r else c := by
  rw [replaceAll]
  induction s with
  | nil => rfl
  | cons c s ih =>
    by_cases hc : p c
    · rw [replaceScan, matchAt_cls hc]
      simp [ih, hc]
    · have hnone : (cls p).matchAt (c :: s) = none := by simp [matchAt, paths, hc]
      rw [replaceScan, hnone]
      simp [ih, hc]

end Pattern
end Beachhead.Regex
