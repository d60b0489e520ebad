import Mathlib.Data.List.Basic
import Mathlib.Tactic.Common

/-!
# Facts and their causes

A log of entries leads from world to world. If what holds after an entry held before it
or was caused by it, then what holds at any later moment held at the earlier one or was
caused in between.
-/
namespace Beachhead.Causation

variable {ω ε φ : Type*} {after : ε → ω} {holds : ω → φ → Prop} {causes : ε → φ → Prop}

/-- What holds in `w'` held in `w` or was caused by one of the entries. -/
def Justified (holds : ω → φ → Prop) (causes : ε → φ → Prop) (w : ω) (entries : List ε)
    (w' : ω) : Prop :=
  ∀ f, holds w' f → holds w f ∨ ∃ E ∈ entries, causes E f

/-- A log from one world to another, each entry of which accounts for what it changes. -/
inductive Chained (after : ε → ω) (holds : ω → φ → Prop) (causes : ε → φ → Prop) :
    ω → List ε → ω → Prop
  | nil (w : ω) : Chained after holds causes w [] w
  | cons {w w' : ω} {E : ε} {entries : List ε} :
    Justified holds causes w [E] (after E) → Chained after holds causes (after E) entries w' →
      Chained after holds causes w (E :: entries) w'

theorem Justified.trans {w w' w'' : ω} {entries entries' : List ε}
    (h : Justified holds causes w entries w') (h' : Justified holds causes w' entries' w'') :
    Justified holds causes w (entries ++ entries') w'' := by
  intro f hf
  obtain hf | ⟨E, hE, hcause⟩ := h' f hf
  · obtain hf | ⟨E, hE, hcause⟩ := h f hf
    · exact .inl hf
    · exact .inr ⟨E, List.mem_append_left _ hE, hcause⟩
  · exact .inr ⟨E, List.mem_append_right _ hE, hcause⟩

theorem Chained.justified {w w' : ω} {entries : List ε}
    (h : Chained after holds causes w entries w') : Justified holds causes w entries w' := by
  induction h with
  | nil w => exact fun _ hf => .inl hf
  | cons hE _ ih => exact hE.trans ih

theorem Chained.append {w w' w'' : ω} {entries entries' : List ε}
    (h : Chained after holds causes w entries w')
    (h' : Chained after holds causes w' entries' w'') :
    Chained after holds causes w (entries ++ entries') w'' := by
  induction h with
  | nil w => exact h'
  | cons hE _ ih => exact .cons hE (ih h')

/-- A moment in a log splits it. -/
theorem Chained.split {w w' : ω} {u v : List ε} {E : ε}
    (h : Chained after holds causes w (u ++ E :: v) w') :
    Chained after holds causes w (u ++ [E]) (after E) ∧
      Chained after holds causes (after E) v w' := by
  induction u generalizing w with
  | nil =>
    cases h with
    | cons hE hrest => exact ⟨.cons hE (.nil _), hrest⟩
  | cons E' u ih =>
    cases h with
    | cons hE hrest =>
      obtain ⟨hbefore, hafter⟩ := ih hrest
      exact ⟨.cons hE hbefore, hafter⟩

end Beachhead.Causation
