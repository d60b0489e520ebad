import Mathlib.Order.Defs.Unbundled
import Mathlib.Data.List.Basic

/-!
# Programs that can stop

A program acts on a state and returns a value, or stops for a reason in `ε`. A
triple is about one run from one state and has a postcondition for each of the
two ends. A relation that holds along a program relates the state at the start to
the state at the end, whichever end it is.
-/
namespace Beachhead.Program

variable {ε σ α β : Type}

/-- Run from `s`, `x` returns with `Q` or stops with `E`. -/
def Triple (x : EStateM ε σ α) (s : σ) (Q : α → σ → Prop) (E : ε → σ → Prop) : Prop :=
  match x s with
  | .ok a s' => Q a s'
  | .error e s' => E e s'

/-- `loop { .. }` with at most the given number of passes; a pass gives the value to
leave with, if it leaves. -/
def loop (unfinished : ε) (pass : EStateM ε σ (Option α)) : ℕ → EStateM ε σ α
  | 0 => throw unfinished
  | n + 1 => do
    match ← pass with
    | some a => pure a
    | none => loop unfinished pass n

theorem bind_error {x : EStateM ε σ α} {f : α → EStateM ε σ β} {s s' : σ} {e : ε}
    (h : x s = .error e s') : (x >>= f) s = .error e s' := by
  have hbind : (x >>= f) s = EStateM.bind x f s := rfl
  rw [hbind, EStateM.bind, h]

/-- The state at the end, whichever end it is. -/
def finalState (x : EStateM ε σ α) (s : σ) : σ :=
  match x s with
  | .ok _ s' => s'
  | .error _ s' => s'

/-- Why the program stops, if it does. -/
def stop? (x : EStateM ε σ α) (s : σ) : Option ε :=
  match x s with
  | .ok _ _ => none
  | .error e _ => some e

theorem eq_error_of_stop? {x : EStateM ε σ α} {s : σ} {e : ε} (h : stop? x s = some e) :
    x s = .error e (finalState x s) := by
  unfold stop? at h
  unfold finalState
  cases hx : x s with
  | ok a s' =>
    rw [hx] at h
    cases h
  | error e' s' =>
    rw [hx] at h
    rw [Option.some.inj h]

theorem bind_ok {x : EStateM ε σ α} {f : α → EStateM ε σ β} {s s' : σ} {a : α}
    (h : x s = .ok a s') : (x >>= f) s = f a s' := by
  have hbind : (x >>= f) s = EStateM.bind x f s := rfl
  rw [hbind, EStateM.bind, h]

section
variable {x : EStateM ε σ α} {s : σ} {Q Q' : α → σ → Prop} {E E' : ε → σ → Prop}

theorem Triple.ok {a : α} {s' : σ} (hx : x s = .ok a s') (h : Q a s') : Triple x s Q E := by
  rw [Triple, hx]
  exact h

theorem Triple.error {e : ε} {s' : σ} (hx : x s = .error e s') (h : E e s') :
    Triple x s Q E := by
  rw [Triple, hx]
  exact h

theorem Triple.of_ok {a : α} {s' : σ} (h : Triple x s Q E) (hx : x s = .ok a s') : Q a s' := by
  rw [Triple, hx] at h
  exact h

theorem Triple.of_error {e : ε} {s' : σ} (h : Triple x s Q E) (hx : x s = .error e s') :
    E e s' := by
  rw [Triple, hx] at h
  exact h

theorem Triple.finalState {P : σ → Prop} (h : Triple x s (fun _ => P) fun _ => P) :
    P (finalState x s) := by
  unfold Triple at h
  unfold Program.finalState
  cases hx : x s with
  | ok a s' =>
    rw [hx] at h
    exact h
  | error e s' =>
    rw [hx] at h
    exact h

theorem Triple.finalState_eq :
    Triple x s (fun _ s' => Program.finalState x s = s')
      fun _ s' => Program.finalState x s = s' := by
  unfold Triple Program.finalState
  cases x s with
  | ok a s' => rfl
  | error e s' => rfl

theorem Triple.mono (h : Triple x s Q E) (hQ : ∀ a s', Q a s' → Q' a s')
    (hE : ∀ e s', E e s' → E' e s') : Triple x s Q' E' := by
  unfold Triple at h ⊢
  cases hx : x s with
  | ok a s' =>
    rw [hx] at h
    exact hQ a s' h
  | error e s' =>
    rw [hx] at h
    exact hE e s' h

theorem Triple.mono_error (h : Triple x s Q E) (hE : ∀ e s', E e s' → E' e s') :
    Triple x s Q E' :=
  h.mono (fun _ _ h' => h') hE

theorem Triple.and (h : Triple x s Q E) (h' : Triple x s Q' E') :
    Triple x s (fun a s' => Q a s' ∧ Q' a s') (fun e s' => E e s' ∧ E' e s') := by
  unfold Triple at h h' ⊢
  cases hx : x s with
  | ok a s' =>
    rw [hx] at h h'
    exact ⟨h, h'⟩
  | error e s' =>
    rw [hx] at h h'
    exact ⟨h, h'⟩

theorem Triple.trivial : Triple x s (fun _ _ => True) fun _ _ => True := by
  unfold Triple
  cases x s with
  | ok a s' => exact True.intro
  | error e s' => exact True.intro

theorem Triple.pure {a : α} (h : Q a s) : Triple (Pure.pure a : EStateM ε σ α) s Q E := h

theorem Triple.throw {e : ε} (h : E e s) : Triple (MonadExcept.throw e : EStateM ε σ α) s Q E := h

theorem Triple.bind {f : α → EStateM ε σ β} {R : β → σ → Prop} (h : Triple x s Q E)
    (hf : ∀ a s', Q a s' → Triple (f a) s' R E) : Triple (x >>= f) s R E := by
  unfold Triple at h ⊢
  cases hx : x s with
  | ok a s' =>
    rw [hx] at h
    rw [bind_ok hx]
    exact hf a s' h
  | error e s' =>
    rw [hx] at h
    rw [bind_error hx]
    exact h

theorem Triple.bind_ok {f : α → EStateM ε σ β} {R : β → σ → Prop} {a : α} {s' : σ}
    (hx : x s = .ok a s') (h : Triple (f a) s' R E) : Triple (x >>= f) s R E := by
  rw [Triple, Program.bind_ok hx]
  exact h

theorem Triple.ite {c : Prop} [Decidable c] {y : EStateM ε σ α} (hx : c → Triple x s Q E)
    (hy : ¬c → Triple y s Q E) : Triple (if c then x else y) s Q E := by
  split
  · exact hx ‹_›
  · exact hy ‹_›

/-- A loop over a list, with an invariant about what is done so far. -/
theorem Triple.foldlM {f : β → α → EStateM ε σ β} {I : List α → β → σ → Prop} (all : List α)
    (hf : ∀ done a rest b s', all = done ++ a :: rest → I done b s' →
      Triple (f b a) s' (I (done ++ [a])) E) {b : β} (h : I [] b s) :
    Triple (all.foldlM f b) s (I all) E := by
  suffices main : ∀ rest done b s', all = done ++ rest → I done b s' →
      Triple (rest.foldlM f b) s' (I all) E from main all [] b s rfl h
  intro rest
  induction rest with
  | nil =>
    intro done b s' hall hI
    rw [List.append_nil] at hall
    subst hall
    exact Triple.pure hI
  | cons a rest ih =>
    intro done b s' hall hI
    rw [List.foldlM_cons]
    refine (hf done a rest b s' hall hI).bind fun b' s'' hI' => ?_
    exact ih (done ++ [a]) b' s'' (by simp [hall]) hI'

/-- A pass that does not leave keeps the invariant. -/
theorem Triple.loop {unfinished : ε} {pass : EStateM ε σ (Option α)} {I : σ → Prop}
    (hpass : ∀ s', I s' → Triple pass s' (fun r s'' => match r with
      | some a => Q a s''
      | none => I s'') E)
    (hstop : ∀ s', I s' → E unfinished s') (n : ℕ) (h : I s) :
    Triple (loop unfinished pass n) s Q E := by
  induction n generalizing s with
  | zero => exact Triple.throw (hstop s h)
  | succ n ih =>
    refine (hpass s h).bind fun r s' hr => ?_
    cases r with
    | some a => exact Triple.pure hr
    | none => exact ih hr

/-- An invariant that a pass keeps unless it stops. -/
theorem Triple.loop_kept {unfinished : ε} {pass : EStateM ε σ (Option α)} {I : σ → Prop}
    (hpass : ∀ s', I s' → Triple pass s' (fun _ => I) E) (hstop : ∀ s', I s' → E unfinished s')
    (n : ℕ) (h : I s) : Triple (Program.loop unfinished pass n) s (fun _ => I) E :=
  Triple.loop (I := I)
    (fun s' h' => (hpass s' h').mono (fun r _ h'' => by cases r <;> exact h'') fun _ _ h'' => h'')
    hstop n h

/-- An invariant that a pass keeps, whichever way it ends. -/
theorem Triple.loop_invariant {unfinished : ε} {pass : EStateM ε σ (Option α)} {I : σ → Prop}
    (hpass : ∀ s', I s' → Triple pass s' (fun _ => I) fun _ => I) (n : ℕ) (h : I s) :
    Triple (Program.loop unfinished pass n) s (fun _ => I) fun _ => I :=
  Triple.loop_kept hpass (fun _ h' => h') n h

/-- An invariant about the number of passes that the loop has made. -/
theorem Triple.loop_counted {unfinished : ε} {pass : EStateM ε σ (Option α)} {I : ℕ → σ → Prop}
    {n : ℕ} (hpass : ∀ k s', I k s' → Triple pass s' (fun r s'' => match r with
      | some a => Q a s''
      | none => I (k + 1) s'') E)
    (hstop : ∀ s', I n s' → E unfinished s') (h : I 0 s) :
    Triple (Program.loop unfinished pass n) s Q E := by
  suffices main : ∀ left k s', k + left = n → I k s' →
      Triple (Program.loop unfinished pass left) s' Q E from main n 0 s (Nat.zero_add n) h
  intro left
  induction left with
  | zero =>
    intro k s' hk hI
    rw [Nat.add_zero] at hk
    subst hk
    exact Triple.throw (hstop s' hI)
  | succ left ih =>
    intro k s' hk hI
    refine (hpass k s' hI).bind fun r s'' hr => ?_
    cases r with
    | some a => exact Triple.pure hr
    | none => exact ih (k + 1) s'' (by omega) hr

end

/-- `R` relates the state before to the state after, however the program ends. -/
def Along (R : σ → σ → Prop) (x : EStateM ε σ α) : Prop :=
  ∀ s, Triple x s (fun _ => R s) (fun _ => R s)

theorem Along.pure {R : σ → σ → Prop} [Std.Refl R] (a : α) :
    Along R (Pure.pure a : EStateM ε σ α) := fun s => Triple.pure (refl s)

theorem Along.throw {R : σ → σ → Prop} [Std.Refl R] (e : ε) :
    Along R (MonadExcept.throw e : EStateM ε σ α) := fun s => Triple.throw (refl s)

theorem Along.get {R : σ → σ → Prop} [Std.Refl R] :
    Along R (MonadState.get : EStateM ε σ σ) := fun s => refl (r := R) s

section
variable {R : σ → σ → Prop} [IsTrans σ R]

theorem Along.after {x : EStateM ε σ α} {s₀ s : σ} (hx : Along R x) (h : R s₀ s) :
    Triple x s (fun _ => R s₀) (fun _ => R s₀) :=
  (hx s).mono (fun _ _ h' => IsTrans.trans _ _ _ h h') fun _ _ h' => IsTrans.trans _ _ _ h h'

theorem Along.bind {x : EStateM ε σ α} {f : α → EStateM ε σ β} (hx : Along R x)
    (hf : ∀ a, Along R (f a)) : Along R (x >>= f) := fun s =>
  (hx s).bind fun a _ h => (hf a).after h

variable [Std.Refl R]

theorem Along.foldlM {f : β → α → EStateM ε σ β} (all : List α) (hf : ∀ a b, Along R (f b a))
    (b : β) : Along R (all.foldlM f b) := fun s =>
  Triple.foldlM (I := fun _ _ => R s) all (fun _ a _ b _ _ h => (hf a b).after h) (refl s)

theorem Along.loop {unfinished : ε} {pass : EStateM ε σ (Option α)} (hpass : Along R pass)
    (n : ℕ) : Along R (loop unfinished pass n) := fun s =>
  Triple.loop_invariant (I := R s) (fun _ h => hpass.after h) n (refl s)

end
/-- An assumption about the end of a program that carries back to its start. -/
theorem Triple.assuming {A : σ → Prop} {x : EStateM ε σ α} {s : σ} {Q : α → σ → Prop}
    {E : ε → σ → Prop} (hA : Along (fun s s' => A s' → A s) x) (h : A s → Triple x s Q E) :
    Triple x s (fun a s' => A s' → Q a s') fun e s' => A s' → E e s' := by
  have hback := hA s
  cases hx : x s with
  | ok a s' => exact Triple.ok hx fun hs' => (h (hback.of_ok hx hs')).of_ok hx
  | error e s' => exact Triple.error hx fun hs' => (h (hback.of_error hx hs')).of_error hx

end Beachhead.Program
