import Mathlib.Algebra.Group.Basic
import Mathlib.Data.List.Forall2

/-!
# Loops that push until they fail

A loop that pushes to a vector and leaves with the first error has an outcome: its
result and the values it pushed. Outcomes one after the other form a monoid, in which
nothing follows a failure.
-/
namespace Beachhead

@[ext] structure Outcome (ε β : Type*) where
  result : Except ε Unit
  pushed : List β

namespace Outcome

variable {ε β α : Type*}

instance : One (Outcome ε β) := ⟨⟨.ok (), []⟩⟩

/-- The second loop only runs if the first one succeeded. -/
instance : Mul (Outcome ε β) where
  mul x y := match x.result with
    | .ok () => ⟨y.result, x.pushed ++ y.pushed⟩
    | .error e => ⟨.error e, x.pushed⟩

@[simp] theorem one_result : (1 : Outcome ε β).result = .ok () := rfl

@[simp] theorem one_pushed : (1 : Outcome ε β).pushed = [] := rfl

theorem mul_of_ok {x y : Outcome ε β} (h : x.result = .ok ()) :
    x * y = ⟨y.result, x.pushed ++ y.pushed⟩ := by
  obtain ⟨_, pushed⟩ := x
  cases h
  rfl

theorem mul_of_error {x y : Outcome ε β} {e : ε} (h : x.result = .error e) : x * y = x := by
  obtain ⟨_, pushed⟩ := x
  cases h
  rfl

instance : Monoid (Outcome ε β) where
  one_mul _ := rfl
  mul_one x := by
    cases h : x.result with
    | error e => exact mul_of_error h
    | ok u =>
      rw [mul_of_ok h, one_result, one_pushed, List.append_nil, ← h]
  mul_assoc x y z := by
    cases hx : x.result with
    | error e => rw [mul_of_error hx, mul_of_error hx, mul_of_error hx]
    | ok u =>
      have hxy : x * y = ⟨y.result, x.pushed ++ y.pushed⟩ := mul_of_ok hx
      have hxyz : x * (y * z) = ⟨(y * z).result, x.pushed ++ (y * z).pushed⟩ := mul_of_ok hx
      cases hy : y.result with
      | error e =>
        have hyz : y * z = y := mul_of_error hy
        rw [hxyz, hxy, hyz]
        exact mul_of_error hy
      | ok u =>
        have hyz : y * z = ⟨z.result, y.pushed ++ z.pushed⟩ := mul_of_ok hy
        rw [hxyz, hxy, hyz, ← List.append_assoc]
        exact mul_of_ok hy

/-- What the loop does to a vector: its result and the vector it leaves. -/
def pushTo (x : Outcome ε β) (v : List β) : Except ε Unit × List β := (x.result, v ++ x.pushed)

theorem one_pushTo (v : List β) : (1 : Outcome ε β).pushTo v = (.ok (), v) := by
  simp [pushTo]

/-- The second loop runs on the vector that the first one left. -/
theorem mul_pushTo_ok {x y : Outcome ε β} {v w : List β} (h : x.pushTo v = (.ok (), w)) :
    (x * y).pushTo v = y.pushTo w := by
  obtain ⟨hresult, rfl⟩ := Prod.mk.inj h
  rw [mul_of_ok hresult, pushTo, pushTo, List.append_assoc]

theorem mul_pushTo_error {x y : Outcome ε β} {v w : List β} {e : ε}
    (h : x.pushTo v = (.error e, w)) : (x * y).pushTo v = (.error e, w) := by
  rw [mul_of_error (Prod.mk.inj h).1, h]

/-- One pass of a loop: push the value, or fail and push nothing. -/
def ofExcept : Except ε β → Outcome ε β
  | .ok b => ⟨.ok (), [b]⟩
  | .error e => ⟨.error e, []⟩

/-- The loop over a list. -/
def collect (f : α → Except ε β) (l : List α) : Outcome ε β := (l.map fun a => ofExcept (f a)).prod

@[simp] theorem collect_nil (f : α → Except ε β) : collect f [] = 1 := rfl

theorem collect_cons (f : α → Except ε β) (a : α) (l : List α) :
    collect f (a :: l) = ofExcept (f a) * collect f l := by
  rw [collect, List.map_cons, List.prod_cons, collect]

theorem collect_append (f : α → Except ε β) (l m : List α) :
    collect f (l ++ m) = collect f l * collect f m := by
  rw [collect, List.map_append, List.prod_append, collect, collect]

theorem collect_cons_ok {f : α → Except ε β} {a : α} {b : β} (h : f a = .ok b) (l : List α) :
    collect f (a :: l) = ⟨(collect f l).result, b :: (collect f l).pushed⟩ := by
  rw [collect_cons, h]
  rfl

theorem collect_cons_error {f : α → Except ε β} {a : α} {e : ε} (h : f a = .error e)
    (l : List α) : collect f (a :: l) = ⟨.error e, []⟩ := by
  rw [collect_cons, h]
  rfl

/-- Every value pushed comes from an element of the list, on success and on failure. -/
theorem mem_collect {f : α → Except ε β} {l : List α} {b : β} (hb : b ∈ (collect f l).pushed) :
    ∃ a ∈ l, f a = .ok b := by
  induction l with
  | nil => simp at hb
  | cons a l ih =>
    cases h : f a with
    | error e => simp [collect_cons_error h] at hb
    | ok c =>
      rw [collect_cons_ok h, List.mem_cons] at hb
      obtain rfl | hb := hb
      · exact ⟨a, List.mem_cons_self, h⟩
      · obtain ⟨a', ha', hf⟩ := ih hb
        exact ⟨a', List.mem_cons_of_mem a ha', hf⟩

/-- The loop succeeds exactly if every pass does, and then pushes their values. -/
theorem collect_eq_ok_iff {f : α → Except ε β} {l : List α} {out : List β} :
    collect f l = ⟨.ok (), out⟩ ↔ List.Forall₂ (fun a b => f a = .ok b) l out := by
  induction l generalizing out with
  | nil =>
    rw [List.forall₂_nil_left_iff]
    constructor
    · intro h
      exact (congrArg pushed h).symm
    · intro h
      rw [h]
      rfl
  | cons a l ih =>
    cases h : f a with
    | error e =>
      constructor
      · intro hout
        rw [collect_cons_error h] at hout
        cases hout
      · intro hout
        obtain ⟨b, m, hb, -, -⟩ := List.forall₂_cons_left_iff.mp hout
        rw [h] at hb
        cases hb
    | ok b =>
      rw [collect_cons_ok h, List.forall₂_cons_left_iff]
      constructor
      · intro hout
        obtain ⟨hresult, rfl⟩ := Outcome.mk.inj hout
        exact ⟨b, _, h, ih.mp (Outcome.ext hresult rfl), rfl⟩
      · intro hout
        obtain ⟨b', m, hb, hm, rfl⟩ := hout
        obtain rfl : b = b' := Except.ok.inj (h.symm.trans hb)
        rw [ih.mpr hm]

theorem collect_error_iff {f : α → Except ε β} {l : List α} :
    (∃ e, (collect f l).result = .error e) ↔ ∃ a ∈ l, ∃ e, f a = .error e := by
  induction l with
  | nil => simp
  | cons a l ih =>
    rw [List.exists_mem_cons_iff, ← ih]
    cases h : f a with
    | error e => simp [collect_cons_error h]
    | ok b => simp [collect_cons_ok h]

end Outcome
end Beachhead
