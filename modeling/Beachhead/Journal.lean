import Beachhead.Simulation

/-!
# Programs that keep a journal

A program acts on a state and writes lines into a journal beside it. The lines do not change
what it does: without them it is a program on the state alone.
-/
namespace Beachhead.Program

variable {ε σ ℓ α β β' : Type}

/-- The program writes no line. -/
def silent (x : EStateM ε σ α) : EStateM ε (σ × List ℓ) α := fun s =>
  match x s.1 with
  | .ok a t => .ok a (t, s.2)
  | .error e t => .error e (t, s.2)

def log (line : ℓ) : EStateM ε (σ × List ℓ) Unit := fun s => .ok () (s.1, s.2 ++ [line])

/-- The state beside the journal. -/
def Erases (s : σ × List ℓ) (t : σ) : Prop := s.1 = t

theorem silent_ok {x : EStateM ε σ α} {s t : σ} {a : α} (h : x s = .ok a t) (lines : List ℓ) :
    silent x (s, lines) = .ok a (t, lines) := by
  simp only [silent, h]

theorem Triple.silent {x : EStateM ε σ α} {s : σ} {lines : List ℓ} {Q : α → σ → Prop}
    {E : ε → σ → Prop} (h : Triple x s Q E) :
    Triple (Program.silent x) (s, lines) (fun a s' => s'.2 = lines ∧ Q a s'.1)
      fun e s' => s'.2 = lines ∧ E e s'.1 := by
  rw [Triple, Program.silent]
  rw [Triple] at h
  cases hx : x s with
  | ok a t =>
    rw [hx] at h
    exact ⟨rfl, h⟩
  | error e t =>
    rw [hx] at h
    exact ⟨rfl, h⟩

theorem Simulates.silent (x : EStateM ε σ α) :
    Simulates (Erases (ℓ := ℓ)) Eq (Program.silent x) x := by
  rintro ⟨s, lines⟩ t rfl
  rw [Program.silent]
  cases hx : x s with
  | ok a t => exact .ok rfl rfl
  | error e t => exact .error e rfl

/-- A line is not seen by the program without the journal. -/
theorem Simulates.log {W : β → β' → Prop} {line : ℓ} {f : Unit → EStateM ε (σ × List ℓ) β}
    {z : EStateM ε σ β'} (h : Simulates Erases W (f ()) z) :
    Simulates Erases W (Program.log line >>= f) z :=
  Simulates.left (P := fun _ => True) (fun _ _ hS => ⟨(), _, rfl, trivial, hS⟩) fun _ _ => h

theorem Simulates.log_last (line : ℓ) : Simulates (Erases (σ := σ)) Eq
    (Program.log (ε := ε) line) (Pure.pure ()) :=
  fun _ _ hS => .ok rfl hS

/-- What holds of a program without the journal holds of the program with it. -/
theorem Simulates.triple {x : EStateM ε (σ × List ℓ) α} {y : EStateM ε σ α}
    (h : Simulates Erases Eq x y) {s : σ} (lines : List ℓ) {Q : α → σ → Prop} {E : ε → σ → Prop}
    (hy : Triple y s Q E) : Triple x (s, lines) (fun a s' => Q a s'.1) fun e s' => E e s'.1 := by
  have hend := h (s, lines) s rfl
  rw [Triple] at hy ⊢
  generalize x (s, lines) = r at hend ⊢
  generalize y s = r' at hend hy
  cases hend with
  | ok value state =>
    subst value state
    exact hy
  | error e state =>
    subst state
    exact hy

end Beachhead.Program
