import Beachhead.Program
import Mathlib.Data.List.Forall2
import Mathlib.Data.Option.Basic

/-!
# Two programs that do the same

Two programs act on states of different types. One simulates the other along a relation of
the states if from related states both return with related values or both stop for the same
reason, and the states at the end are related again.
-/
namespace Beachhead.Program

variable {ε σ τ α α' β β' : Type}

/-- Two ends of the same kind, with related values and related states. -/
inductive SameEnd (S : σ → τ → Prop) (V : α → α' → Prop) :
    EStateM.Result ε σ α → EStateM.Result ε τ α' → Prop where
  | ok {a : α} {a' : α'} {s : σ} {t : τ} (value : V a a') (state : S s t) :
      SameEnd S V (.ok a s) (.ok a' t)
  | error {s : σ} {t : τ} (e : ε) (state : S s t) : SameEnd S V (.error e s) (.error e t)

/-- From states related by `S` the programs end in the same way, with values related by `V`. -/
def Simulates (S : σ → τ → Prop) (V : α → α' → Prop) (x : EStateM ε σ α) (y : EStateM ε τ α') :
    Prop := ∀ s t, S s t → SameEnd S V (x s) (y t)

variable {S : σ → τ → Prop} {V V' : α → α' → Prop} {W : β → β' → Prop}
  {x : EStateM ε σ α} {y : EStateM ε τ α'} {s : σ} {t : τ}

theorem SameEnd.mono (h : SameEnd S V (x s) (y t)) (hV : ∀ a a', V a a' → V' a a') :
    SameEnd S V' (x s) (y t) := by
  generalize x s = r at h ⊢
  generalize y t = r' at h ⊢
  cases h with
  | ok value state => exact .ok (hV _ _ value) state
  | error e state => exact .error e state

theorem SameEnd.bind {f : α → EStateM ε σ β} {g : α' → EStateM ε τ β'}
    (h : SameEnd S V (x s) (y t)) (hf : ∀ a a', V a a' → Simulates S W (f a) (g a')) :
    SameEnd S W ((x >>= f) s) ((y >>= g) t) := by
  generalize hx : x s = r at h
  generalize hy : y t = r' at h
  cases h with
  | ok value state =>
    rw [bind_ok hx, bind_ok hy]
    exact hf _ _ value _ _ state
  | error e state =>
    rw [bind_error hx, bind_error hy]
    exact .error e state

/-- The states at the end are related. -/
theorem SameEnd.finalState (h : SameEnd S V (x s) (y t)) :
    S (finalState x s) (finalState y t) := by
  unfold Program.finalState
  generalize x s = r at h ⊢
  generalize y t = r' at h ⊢
  cases h with
  | ok value state => exact state
  | error e state => exact state

theorem Simulates.pure {a : α} {a' : α'} (h : V a a') :
    Simulates S V (Pure.pure a : EStateM ε σ α) (Pure.pure a' : EStateM ε τ α') :=
  fun _ _ hS => .ok h hS

theorem Simulates.throw (e : ε) :
    Simulates S V (MonadExcept.throw e : EStateM ε σ α) (MonadExcept.throw e : EStateM ε τ α') :=
  fun _ _ hS => .error e hS

theorem Simulates.get :
    Simulates S S (MonadState.get : EStateM ε σ σ) (MonadState.get : EStateM ε τ τ) :=
  fun _ _ hS => .ok hS hS

theorem Simulates.bind {f : α → EStateM ε σ β} {g : α' → EStateM ε τ β'} (h : Simulates S V x y)
    (hf : ∀ a a', V a a' → Simulates S W (f a) (g a')) : Simulates S W (x >>= f) (y >>= g) :=
  fun s t hS => (h s t hS).bind hf

/-- A step that only the first program makes. -/
theorem Simulates.left {f : α → EStateM ε σ β} {z : EStateM ε τ β'} {P : α → Prop}
    (hx : ∀ s t, S s t → ∃ a s', x s = .ok a s' ∧ P a ∧ S s' t)
    (hf : ∀ a, P a → Simulates S W (f a) z) : Simulates S W (x >>= f) z := by
  intro s t hS
  obtain ⟨a, s', hok, ha, hS'⟩ := hx s t hS
  rw [bind_ok hok]
  exact hf a ha s' t hS'

/-- Loops over lists whose elements are related in order. -/
theorem Simulates.foldlM {f : β → α → EStateM ε σ β} {g : β' → α' → EStateM ε τ β'}
    (hf : ∀ b b' a a', W b b' → V a a' → Simulates S W (f b a) (g b' a')) {all : List α}
    {all' : List α'} (hall : List.Forall₂ V all all') {b : β} {b' : β'} (hb : W b b') :
    Simulates S W (all.foldlM f b) (all'.foldlM g b') := by
  induction hall generalizing b b' with
  | nil => exact Simulates.pure hb
  | cons h _ ih =>
    rw [List.foldlM_cons, List.foldlM_cons]
    exact (hf _ _ _ _ hb h).bind fun _ _ hb' => ih hb'

/-- Loops whose passes leave at the same time. -/
theorem Simulates.loop {pass : EStateM ε σ (Option α)} {pass' : EStateM ε τ (Option α')}
    (h : Simulates S (Option.Rel V) pass pass') (unfinished : ε) (n : ℕ) :
    Simulates S V (loop unfinished pass n) (loop unfinished pass' n) := by
  induction n with
  | zero => exact Simulates.throw unfinished
  | succ n ih =>
    refine h.bind fun r r' hr => ?_
    cases hr with
    | some ha => exact Simulates.pure ha
    | none => exact ih

end Beachhead.Program
