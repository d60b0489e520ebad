import Mathlib.Logic.Function.Basic
import Mathlib.Data.List.Nodup

/-!
# Maps under assignment

A map from `α` to `β` that is only ever assigned to, and a store that represents
it: each assigned entry is stored in encoded form under its own key, and every
other key of the store keeps the value it had at the start.
-/
namespace Beachhead.LastWrite

variable {α β κ ν : Type*} [DecidableEq α]

def assign (r : α → Option β) (p : α × β) : α → Option β := Function.update r p.1 (some p.2)

def run (r : α → Option β) (ps : List (α × β)) : α → Option β := ps.foldl assign r

/-- The value of the last entry with the given name. -/
def last (ps : List (α × β)) (a : α) : Option β := (ps.reverse.find? (·.1 = a)).map Prod.snd

theorem last_append (ps qs : List (α × β)) (a : α) :
    last (ps ++ qs) a = (last qs a).or (last ps a) := by
  simp only [last, List.reverse_append, List.find?_append]
  cases (qs.reverse.find? (·.1 = a)) <;> rfl

theorem run_eq_last (r : α → Option β) (ps : List (α × β)) (a : α) :
    run r ps a = (last ps a).or (r a) := by
  induction ps generalizing r with
  | nil => rfl
  | cons p ps ih =>
    have hcons : p :: ps = [p] ++ ps := rfl
    have hp : assign r p a = (last [p] a).or (r a) := by
      by_cases h : p.1 = a
      · subst h
        simp [assign, last]
      · simp [assign, last, h, Function.update_of_ne (Ne.symm h)]
    rw [hcons, last_append, Option.or_assoc, ← hp, ← ih]
    rfl

theorem last_isSome {ps : List (α × β)} {a : α} (h : a ∈ ps.map Prod.fst) :
    ∃ b, last ps a = some b := by
  obtain ⟨p, hp, rfl⟩ := List.mem_map.mp h
  have hsome : (ps.reverse.find? (·.1 = p.1)).isSome := by
    rw [List.find?_isSome]
    exact ⟨p, by simpa using hp, by simp⟩
  obtain ⟨q, hq⟩ := Option.isSome_iff_exists.mp hsome
  exact ⟨q.2, by simp [last, hq]⟩

theorem last_of_not_mem {ps : List (α × β)} {a : α} (h : a ∉ ps.map Prod.fst) :
    last ps a = none := by
  have hnone : ps.reverse.find? (·.1 = a) = none := by
    rw [List.find?_eq_none]
    intro p hp hpa
    exact h (List.mem_map.mpr ⟨p, by simpa using hp, by simpa using hpa⟩)
  rw [last, hnone, Option.map_none]

theorem mem_of_last {ps : List (α × β)} {a : α} {b : β} (h : last ps a = some b) :
    (a, b) ∈ ps := by
  obtain ⟨p, hp, rfl⟩ := Option.map_eq_some_iff.mp h
  have ha : p.1 = a := by simpa using List.find?_some hp
  rw [← ha]
  simpa using List.mem_of_find?_eq_some hp

theorem last_of_nodup {ps : List (α × β)} (hps : (ps.map Prod.fst).Nodup) {a : α} {b : β}
    (h : (a, b) ∈ ps) : last ps a = some b := by
  obtain ⟨b', hb'⟩ : ∃ b', last ps a = some b' := last_isSome (List.mem_map_of_mem h)
  have heq := List.inj_on_of_nodup_map hps (mem_of_last hb') h rfl
  rw [hb', (Prod.mk.inj heq).2]

/-- `obs` represents the map `r` over the store `base`. -/
structure Represents (base obs : κ → Option ν) (key : α → κ) (enc : α → β → ν)
    (r : α → Option β) : Prop where
  written : ∀ a b, r a = some b → obs (key a) = some (enc a b)
  unwritten : ∀ k, (∀ a, r a ≠ none → k ≠ key a) → obs k = base k

omit [DecidableEq α] in
theorem represents_empty (base : κ → Option ν) (key : α → κ) (enc : α → β → ν) :
    Represents base base key enc fun _ => none :=
  ⟨by simp, fun _ _ => rfl⟩

/-- Storing one entry under its key is an assignment to the represented map. -/
theorem Represents.assign {base obs obs' : κ → Option ν} {key : α → κ} {enc : α → β → ν}
    {r : α → Option β} (h : Represents base obs key enc r) (hkey : Function.Injective key)
    {a : α} {b : β} (hself : obs' (key a) = some (enc a b))
    (hother : ∀ k, k ≠ key a → obs' k = obs k) :
    Represents base obs' key enc (assign r (a, b)) := by
  constructor
  · intro c d hc
    by_cases hca : c = a
    · subst hca
      obtain rfl : b = d := by simpa [LastWrite.assign] using hc
      exact hself
    · rw [LastWrite.assign, Function.update_of_ne hca] at hc
      rw [hother _ fun hk => hca (hkey hk), h.written c d hc]
  · intro k hk
    have hka : k ≠ key a := hk a (by simp [LastWrite.assign])
    rw [hother k hka]
    refine h.unwritten k fun c hc => hk c ?_
    by_cases hca : c = a
    · simp [LastWrite.assign, hca]
    · rwa [LastWrite.assign, Function.update_of_ne hca]

end Beachhead.LastWrite
