import Beachhead.Coverage
import Beachhead.SteadyClock

/-!
# The watchdog is fed in time

The deadline that the loop of `wait` wakes up for is the time of the last ping plus
45% of the interval, and every iteration pings before and after its work. So the time
since the last ping never exceeds the longer of the two.
-/
namespace Beachhead.Companion
open Program Coverage

variable {ω : Type} {config : Config} {env : Environment ω} {clock : ω → ℤ}

/-- A notification that carries the 'alive' ping. -/
def IsAlive (event : Event) : Prop :=
  ∃ status result, event = .notify (aliveEntries status) result

/-- The moments of the 'alive' pings. -/
def pings (clock : ω → ℤ) (trace : List (Entry ω)) : Set ℤ :=
  {t | ∃ E ∈ trace, IsAlive E.event ∧ clock E.before = t}

/-- The moments at which iterations start. -/
def starts (clock : ω → ℤ) (trace : List (Entry ω)) : Set ℤ :=
  {t | ∃ E ∈ trace, E.event.isIteration = true ∧ clock E.before = t}

/-- The pings cover the time from the start of any iteration until now. -/
def Covered (clock : ω → ℤ) (B : ℤ) (ctx : Context ω) : Prop :=
  ∀ a ∈ starts clock ctx.trace, Covers (pings clock ctx.trace) B a (clock ctx.world)

/-- The next deadline is `W` after a ping and has not passed. -/
structure Fed (clock : ω → ℤ) (B W : ℤ) (ctx : Context ω) : Prop where
  covered : Covered clock B ctx
  deadline : ∃ p ∈ pings clock ctx.trace, ctx.nextWatchdog = some (p + W) ∧
    p ≤ clock ctx.world ∧ clock ctx.world ≤ p + W

private theorem pings_mono {trace trace' : List (Entry ω)} (h : trace <+: trace') :
    pings clock trace ⊆ pings clock trace' := by
  rintro t ⟨E, hE, halive, ht⟩
  exact ⟨E, h.subset hE, halive, ht⟩

private theorem starts_append {ctx ctx' : Context ω} {new : List (Entry ω)}
    (htrace : ctx'.trace = ctx.trace ++ new) (hnew : ∀ E ∈ new, E.event.isIteration = false) :
    starts clock ctx'.trace ⊆ starts clock ctx.trace := by
  rintro t ⟨E, hE, hiteration, ht⟩
  rw [htrace] at hE
  obtain hE | hE := List.mem_append.mp hE
  · exact ⟨E, hE, hiteration, ht⟩
  · rw [hnew E hE] at hiteration
    cases hiteration

private theorem starts_quiet {ctx ctx' : Context ω} (h : Quiet ctx ctx') :
    starts clock ctx'.trace ⊆ starts clock ctx.trace := by
  obtain ⟨new, htrace, hnew⟩ := h
  exact starts_append htrace fun E hE => (hnew E hE).1

/-- Time may pass until `B` after a ping. -/
theorem Covered.advance {B p : ℤ} {ctx ctx' : Context ω} (h : Covered clock B ctx)
    (hstarts : starts clock ctx'.trace ⊆ starts clock ctx.trace)
    (hpings : pings clock ctx.trace ⊆ pings clock ctx'.trace) (hp : p ∈ pings clock ctx.trace)
    (hle : p ≤ clock ctx.world) (hB : clock ctx'.world ≤ p + B) : Covered clock B ctx' :=
  fun a ha => ((h a (hstarts ha)).mono hpings le_rfl).append
    (covers_of_mark (hpings hp) hle hB)

private theorem Covered.still {B : ℤ} {ctx ctx' : Context ω} (h : Covered clock B ctx)
    (hquiet : Quiet ctx ctx') (hclock : clock ctx'.world = clock ctx.world) :
    Covered clock B ctx' := by
  intro a ha
  rw [hclock]
  exact (h a (starts_quiet hquiet ha)).mono (pings_mono hquiet.grows) le_rfl

private theorem Fed.selected {B W : ℤ} {refreshTimeout : Receiver ω} {ctx ctx' : Context ω}
    (h : Fed clock B W ctx) (hWB : W ≤ B) (h' : Selected clock refreshTimeout ctx ctx') :
    Covered clock B ctx' := by
  obtain ⟨p, hp, hnext, hle, hW⟩ := h.deadline
  have hdue : clock ctx'.world ≤ p + W := h'.watchdog _ hnext hW
  exact h.covered.advance (starts_quiet h'.quiet) (pings_mono h'.quiet.grows) hp hle (by omega)

private theorem Fed.still {B W : ℤ} {ctx ctx' : Context ω} (h : Fed clock B W ctx)
    (h' : Still clock ctx ctx') : Fed clock B W ctx' := by
  obtain ⟨p, hp, hnext, hle, hW⟩ := h.deadline
  refine ⟨h.covered.still h'.quiet h'.clock, p, pings_mono h'.quiet.grows hp, ?_, ?_, ?_⟩
  · rw [h'.nextWatchdog, hnext]
  · rwa [h'.clock]
  · rwa [h'.clock]

private theorem pinged_clock (h : Steady env clock) (status : Text) (ctx : Context ω) :
    clock (pinged env status ctx).world = clock ctx.world :=
  (h.notify _ _).trans (h.now ctx.world)

private theorem pinged_quiet (status : Text) (ctx : Context ω) :
    Quiet ctx (pinged env status ctx) :=
  (quiet_record ctx _ rfl rfl).trans (quiet_record _ _ rfl rfl)

private theorem pinged_mem (h : Steady env clock) (status : Text) (ctx : Context ω) :
    clock ctx.world ∈ pings clock (pinged env status ctx).trace :=
  ⟨_, List.mem_append_right _ (List.mem_singleton_self _), ⟨status, _, rfl⟩, h.now ctx.world⟩

section
variable {dog : UInt64} {B : ℤ}

theorem watchdogTimeout_nonneg (dog : UInt64) : 0 ≤ watchdogTimeout dog := by
  rw [watchdogTimeout, Duration.microseconds]
  omega

/-- A ping feeds the watchdog, also where an iteration starts at the same moment. -/
theorem notifyStatus_fed (h : Steady env clock) (hsystemd : config.systemd = true)
    (hdog : config.watchdogMicroseconds = some dog) (hB : 0 ≤ B) (status : Text)
    {ctx : Context ω} (hctx : ∀ a ∈ starts clock ctx.trace,
      a = clock ctx.world ∨ Covers (pings clock ctx.trace) B a (clock ctx.world)) :
    Triple (notifyStatus config env status) ctx
      (fun _ ctx' => Fed clock B (watchdogTimeout dog) ctx' ∧
        clock ctx'.world ∈ pings clock ctx'.trace) fun _ => Covered clock B := by
  have hmem := pinged_mem h status ctx
  have hclock := pinged_clock h status ctx
  have hcovered : Covered clock B (pinged env status ctx) := by
    intro a ha
    obtain rfl | hcovers := hctx a (starts_quiet (pinged_quiet status ctx) ha)
    · exact covers_of_mark hmem le_rfl (by omega)
    · rw [hclock]
      exact hcovers.mono (pings_mono (pinged_quiet status ctx).grows) le_rfl
  have hW := watchdogTimeout_nonneg dog
  refine notifyStatus_triple hsystemd hdog (fun _ => ?_) fun _ => hcovered
  refine ⟨⟨hcovered, clock ctx.world, hmem, ?_, hclock.ge, ?_⟩, ?_⟩
  · rw [h.reading]
  · dsimp only
    omega
  · dsimp only
    rwa [hclock]

/-- A wait keeps the pings covering, whichever alarms and signals interrupt it. -/
theorem wait_covered (h : Steady env clock) (hsystemd : config.systemd = true)
    (hdog : config.watchdogMicroseconds = some dog) (hWB : watchdogTimeout dog ≤ B)
    (passes : ℕ) {ctx : Context ω} (hctx : Fed clock B (watchdogTimeout dog) ctx) :
    Triple (wait config env passes) ctx (fun _ => Covered clock B) fun _ => Covered clock B := by
  have hB : 0 ≤ B := (watchdogTimeout_nonneg dog).trans hWB
  cases hr : config.refreshSeconds with
  | none =>
    have hmark : Still clock ctx (ctx.record .wait ctx.world) := still_record rfl rfl rfl
    rw [wait, hr]
    exact Triple.bind_ok (a := ()) rfl (Triple.pure (hctx.still hmark).covered)
  | some r =>
    refine wait_steady h hr (fun ctx' h' => (hctx.still h').covered)
      fun refreshTimeout ctx₁ h₁ _ => ?_
    refine Triple.loop (I := Fed clock B (watchdogTimeout dog)) (E := fun _ => Covered clock B)
      (fun ctx' h' => ?_)
      (fun _ h' => h'.covered) passes (hctx.still h₁)
    refine waitPass_steady h (fun _ ctx'' h'' => h'.selected hWB h'')
      (fun _ ctx'' h'' => h'.selected hWB h'') fun ctx'' h'' => ?_
    exact (notifyStatus_fed h hsystemd hdog hB _ fun a ha =>
      .inr (h'.selected hWB h'' a ha)).mono (fun _ _ h => h.1) fun _ _ h => h

theorem endIteration_covered (h : Steady env clock) (hsystemd : config.systemd = true)
    (hdog : config.watchdogMicroseconds = some dog) (hWB : watchdogTimeout dog ≤ B)
    (errors : List CompanionError) (passes : ℕ) {ctx : Context ω} (hctx : Covered clock B ctx) :
    Triple (endIteration config env errors passes) ctx (fun _ => Covered clock B)
      fun _ => Covered clock B := by
  have hB : 0 ≤ B := (watchdogTimeout_nonneg dog).trans hWB
  refine (notifyStatus_fed h hsystemd hdog hB _ fun a ha => .inr (hctx a ha)).bind
    fun _ ctx₁ h₁ => ?_
  refine (wait_covered h hsystemd hdog hWB passes h₁.1).bind fun again ctx₂ h₂ => ?_
  refine Triple.ite (fun _ => Triple.pure h₂) fun _ => ?_
  refine Triple.bind (((notifyStopping_along (quiet_waits env).toAlongPings ctx₂).and
    (notifyStopping_along (clock_pings h) ctx₂)).mono (fun _ ctx' h' => h₂.still h'.1 h'.2)
    fun _ ctx' h' => h₂.still h'.1 h'.2) fun _ ctx₃ h₃ => ?_
  exact Triple.ite (fun _ => Triple.pure h₃) fun _ => Triple.pure h₃

/-- An iteration keeps the pings covering if its work is done in time. -/
theorem iteration_covered (h : Steady env clock) (hsystemd : config.systemd = true)
    (hdog : config.watchdogMicroseconds = some dog) (hWB : watchdogTimeout dog ≤ B) {D : ℤ}
    (hDB : D ≤ B) (explicit : List Text) (passes : ℕ) {ctx : Context ω}
    (hctx : Covered clock B ctx) :
    Triple (iteration config env explicit passes) ctx
      (fun _ ctx' => WorkBound clock D ctx'.trace → Covered clock B ctx')
      fun _ ctx' => WorkBound clock D ctx'.trace → Covered clock B ctx' := by
  have hB : 0 ≤ B := (watchdogTimeout_nonneg dog).trans hWB
  have hstart : ∀ a ∈ starts clock (ctx.record .iteration ctx.world).trace, a = clock ctx.world ∨
      Covers (pings clock (ctx.record .iteration ctx.world).trace) B a (clock ctx.world) := by
    rintro a ⟨E, hE, hiteration, ha⟩
    obtain hE | hE := List.mem_append.mp hE
    · exact .inr ((hctx a ⟨E, hE, hiteration, ha⟩).mono
        (pings_mono (extends_record ctx _ _)) le_rfl)
    · rw [List.mem_singleton.mp hE] at ha
      exact .inl ha.symm
  refine iteration_triple ((notifyStatus_fed h hsystemd hdog hB _ hstart).mono_error
    fun _ _ h _ => h) fun ctx₂ h₂ => ?_
  have hworked : WorkBound clock D (worked config env explicit ctx₂).trace →
      Covered clock B (worked config env explicit ctx₂) := by
    intro hD
    have htime := hD _ (List.mem_append_right _ (List.mem_singleton_self _)) rfl
    obtain ⟨new, htrace, hnew, -⟩ := worked_new config env explicit ctx₂
    have hgrows : Extends ctx₂ (worked config env explicit ctx₂) := ⟨new, htrace.symm⟩
    exact h₂.1.covered.advance (starts_append htrace hnew) (pings_mono hgrows) h₂.2 le_rfl
      (htime.trans (by dsimp only; omega))
  refine Triple.assuming ?_ fun hD => endIteration_covered h hsystemd hdog hWB _ passes
    (hworked hD)
  exact fun ctx' => (endIteration_along (extends_waits env) _ passes ctx').mono
    (fun _ _ h => WorkBound.back h) fun _ _ h => WorkBound.back h

theorem run_covered (h : Steady env clock) (hsystemd : config.systemd = true)
    (hdog : config.watchdogMicroseconds = some dog) (hWB : watchdogTimeout dog ≤ B) {D : ℤ}
    (hDB : D ≤ B) (explicit : List Text) (n passes : ℕ) (w : ω) :
    Triple (run config env explicit n passes) (start w)
      (fun _ ctx => WorkBound clock D ctx.trace → Covered clock B ctx)
      fun _ ctx => WorkBound clock D ctx.trace → Covered clock B ctx := by
  refine run_invariant (fun ctx hquiet _ a ha => ?_) fun ctx hctx => ?_
  · obtain ⟨E, hE, -⟩ := starts_quiet hquiet ha
    cases hE
  have hback : Along (fun ctx ctx' => WorkBound clock D ctx'.trace → WorkBound clock D ctx.trace)
      (iteration config env explicit passes) := fun ctx =>
    (iteration_along (extends_run env) explicit passes ctx).mono (fun _ _ h => WorkBound.back h)
      fun _ _ h => WorkBound.back h
  exact (Triple.assuming hback fun hD =>
    iteration_covered h hsystemd hdog hWB hDB explicit passes (hctx hD)).mono
    (fun _ _ h' hD => h' hD hD) fun _ _ h' hD => h' hD hD

end

/-- From the start of the first iteration to the end of the run, the time since the last
'alive' ping is at most the longer of the work of an iteration and 45% of the interval. -/
theorem watchdog_fed {ω : Type} (config : Config) (env : Environment ω) (clock : ω → ℤ)
    (h : Steady env clock) (hsystemd : config.systemd = true) (dog : UInt64)
    (hdog : config.watchdogMicroseconds = some dog) (D : ℤ) (explicit : List Text)
    (n passes : ℕ) (w : ω)
    (hD : ∀ E ∈ (finalState (run config env explicit n passes) (start w)).trace,
      E.event = .work → clock E.after ≤ clock E.before + D) :
    ∀ t, (∃ E ∈ (finalState (run config env explicit n passes) (start w)).trace,
        E.event = .iteration ∧ clock E.before ≤ t) →
      t ≤ clock (finalState (run config env explicit n passes) (start w)).world →
      ∃ P ∈ (finalState (run config env explicit n passes) (start w)).trace,
        IsAlive P.event ∧ clock P.before ≤ t ∧
        t - clock P.before ≤ max D (Duration.microseconds (9 * dog.toNat / 20)) ∧
        (D < Duration.microseconds dog.toNat →
          t - clock P.before ≤ Duration.microseconds dog.toNat) := by
  intro t ht hend
  obtain ⟨E, hE, hevent, hEt⟩ := ht
  have hcovered := (run_covered h hsystemd hdog (le_max_right D _) (le_max_left D _) explicit n
    passes w).finalState hD
  have hmem : clock E.before ∈
      starts clock (finalState (run config env explicit n passes) (start w)).trace :=
    ⟨E, hE, by rw [hevent]; rfl, rfl⟩
  obtain ⟨p, ⟨P, hP, halive, rfl⟩, hPt, htP⟩ := hcovered _ hmem t hEt hend
  have hW : watchdogTimeout dog ≤ Duration.microseconds dog.toNat := by
    simp only [watchdogTimeout, Duration.microseconds]
    omega
  refine ⟨P, hP, halive, hPt, ?_, fun hdog => ?_⟩
  · rw [← watchdogTimeout]
    omega
  · have := max_le hdog.le hW
    omega

/-- One second of watchdog interval and two seconds between refreshes. -/
def watched : Config :=
  { Config.default with
    refreshSeconds := some 2, systemd := true, watchdogMicroseconds := some 1000000 }

/-- The inspection of the one container takes 0.3 seconds. -/
def watchedEnvironment : Environment (ℤ × Unit) :=
  timedEnvironment ⟨fun w _ => (.ok (), w)⟩ 300000000 ⟨"10.0.0.2".toList, [], true⟩

theorem watchdog_fed_watched :
    ∃ P ∈ (finalState (run watched watchedEnvironment ["web".toList] 2 10) (start (0, ()))).trace,
      IsAlive P.event ∧ P.before.1 ≤ 2000000000 ∧
      2000000000 - P.before.1 ≤ max 300000000 (Duration.microseconds (9 * 1000000 / 20)) ∧
      (300000000 < Duration.microseconds 1000000 →
        2000000000 - P.before.1 ≤ Duration.microseconds 1000000) :=
  watchdog_fed watched watchedEnvironment Prod.fst
    (timedEnvironment_steady (fun _ _ => le_rfl) (by decide)) rfl 1000000 rfl 300000000
    ["web".toList] 2 10 (0, ()) (by decide +kernel) 2000000000 (by decide +kernel)
    (by decide +kernel)

/-- Alarms are noticed when they are due. -/
def Noticed (env : Environment ω) (clock : ω → ℤ) : Prop :=
  ∀ w refresh watchdog receiver, receiver = refresh ∨ receiver = watchdog →
    ∀ t, dueAt clock w receiver = some t → clock (env.select w refresh watchdog).2 ≤ max (clock w) t

/-- From the start of the first iteration on, the last 'alive' ping is never longer ago than `B`. -/
def FedWithin (clock : ω → ℤ) (B : ℤ) (ctx : Context ω) : Prop :=
  ∀ t, (∃ E ∈ ctx.trace, E.event = .iteration ∧ clock E.before ≤ t) → t ≤ clock ctx.world →
    ∃ P ∈ ctx.trace, IsAlive P.event ∧ clock P.before ≤ t ∧ t - clock P.before ≤ B

/-- The service manager takes two seconds to accept a 'Waiting' notification. -/
def slowEnvironment : Environment (ℤ × Unit) :=
  { watchedEnvironment with
    notify := fun w entries =>
      (.ok (), (if entries = aliveEntries "Waiting".toList then w.1 + 2000000000 else w.1, w.2)) }

private theorem slowEnvironment_forward : Forward slowEnvironment Prod.fst where
  reading _ := rfl
  now _ := le_rfl
  notify w entries := by
    simp only [slowEnvironment]
    split
    · omega
    · exact le_rfl
  poll _ := le_rfl
  enumerate _ := le_rfl
  inspect w _ := by
    change w.1 ≤ w.1 + 300000000
    omega
  publish _ _ := le_rfl
  select := selectFirst_le

def slowRun : Context (ℤ × Unit) :=
  finalState (run watched slowEnvironment ["web".toList] 2 10) (start (0, ()))

/-- A notification with an entry for the watchdog. -/
def pingsWatchdog : Event → Bool
  | .notify entries _ => (entries.map Prod.fst).contains STATE_WATCHDOG
  | _ => false

private theorem pingsWatchdog_of_isAlive {event : Event} (h : IsAlive event) :
    pingsWatchdog event = true := by
  obtain ⟨status, result, rfl⟩ := h
  rfl

/-- While the first 'Waiting' notification is accepted, the last ping is 1.9 seconds ago. -/
theorem slowRun_notFed {B : ℤ} (hB : B < 1900000000) : ¬FedWithin Prod.fst B slowRun := by
  intro hfed
  have hstart : ∃ E ∈ slowRun.trace, E.event = .iteration ∧ E.before.1 ≤ 2200000000 := by
    decide +kernel
  have hend : 2200000000 ≤ slowRun.world.1 := by decide +kernel
  have hlast : ∀ P ∈ slowRun.trace, pingsWatchdog P.event = true → P.before.1 ≤ 2200000000 →
      P.before.1 ≤ 300000000 := by
    decide +kernel
  obtain ⟨P, hP, halive, hbefore, hrecent⟩ := hfed 2200000000 hstart hend
  have hold := hlast P hP (pingsWatchdog_of_isAlive halive) hbefore
  omega

/-- With notifications that take time neither bound holds, although the clock does not go back,
alarms are noticed when due and the work takes less than the interval. -/
theorem not_watchdog_fed_slow :
    Forward slowEnvironment Prod.fst ∧ Noticed slowEnvironment Prod.fst ∧
    WorkBound Prod.fst 300000000 slowRun.trace ∧ 300000000 < Duration.microseconds 1000000 ∧
    ¬FedWithin Prod.fst (max 300000000 (watchdogTimeout 1000000)) slowRun ∧
    ¬FedWithin Prod.fst (Duration.microseconds 1000000) slowRun := by
  have hwork : ∀ E ∈ slowRun.trace, E.event = .work → E.after.1 ≤ E.before.1 + 300000000 := by
    decide +kernel
  exact ⟨slowEnvironment_forward, selectFirst_due, hwork, by decide,
    slowRun_notFed (by decide), slowRun_notFed (by decide)⟩

end Beachhead.Companion
