import Mathlib.Data.List.Basic
import Mathlib.Data.List.Induction
import Mathlib.Tactic.Common

/-!
# Machines that refuse letters

A machine goes from state to state as it reads letters, and it can refuse a letter.
A word is read if no letter of it is refused. What a machine has read so far is related
to its state by an invariant that every step keeps.
-/
namespace Beachhead.Machine

variable {σ α : Type*} {step : σ → α → Option σ} {q r : σ} {u v : List α} {a : α}

/-- The state after the word, if no letter of it is refused. -/
def read (step : σ → α → Option σ) (q : σ) (word : List α) : Option σ := word.foldlM step q

theorem read_append : read step q (u ++ v) = (read step q u).bind fun p => read step p v :=
  List.foldlM_append

theorem read_append_of_eq {p : σ} (h : read step q u = some p) :
    read step q (u ++ v) = read step p v := by rw [read_append, h, Option.bind_some]

theorem read_singleton : read step q [a] = step q a := by simp [read]

theorem read_cons {p : σ} (h : step q a = some p) : read step q (a :: v) = read step p v := by
  rw [read, List.foldlM_cons, h]
  rfl

theorem read_concat {p : σ} (h : read step q u = some p) (ha : step p a = some r) :
    read step q (u ++ [a]) = some r := by rw [read_append_of_eq h, read_singleton, ha]

/-- The states around a letter of a word that is read. -/
theorem read_middle (h : read step q (u ++ a :: v) = some r) :
    ∃ p p', read step q u = some p ∧ step p a = some p' ∧ read step p' v = some r := by
  obtain ⟨p, hu, hrest⟩ := Option.bind_eq_some_iff.mp (read_append.symm.trans h)
  rw [read, List.foldlM_cons] at hrest
  obtain ⟨p', ha, hv⟩ := Option.bind_eq_some_iff.mp hrest
  exact ⟨p, p', hu, ha, hv⟩

/-- What holds at the start and is kept by every step holds of the letters read so far and
the state that they lead to. -/
theorem read_invariant {I : List α → σ → Prop} (h : I [] q)
    (hstep : ∀ u p a r, I u p → step p a = some r → I (u ++ [a]) r) :
    read step q u = some r → I u r := by
  induction u using List.reverseRecOn generalizing r with
  | nil =>
    intro hread
    obtain rfl := Option.some.inj hread
    exact h
  | append_singleton u a ih =>
    intro hread
    obtain ⟨p, p', hu, ha, hp'⟩ := read_middle hread
    obtain rfl := Option.some.inj hp'
    exact hstep u p a p' (ih hu) ha

/-- Nothing is read in a state that refuses every letter. -/
theorem read_refusing (hq : ∀ a, step q a = none) (h : read step q v = some r) : v = [] := by
  cases v with
  | nil => rfl
  | cons a v =>
    obtain ⟨p, p', hp, ha, -⟩ := read_middle (u := []) h
    obtain rfl := Option.some.inj hp
    rw [hq a] at ha
    cases ha

end Beachhead.Machine
