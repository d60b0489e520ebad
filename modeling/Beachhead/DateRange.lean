import Beachhead.Verdict
import Beachhead.WaitEvents

/-!
# The range of dates

Dates end with the year 262143, long before a date that is 2^63 microseconds away. The
date additions of a status notification only bound the interval of the watchdog by the
range of `i64`, so a run panics exactly when an interval leads from a reading of the clock
past the last date. Nothing else in the arithmetic of deadlines panics or wraps.
-/
namespace Beachhead

namespace DateTime

/-- The years from 1970 to 9999. -/
def PresentEra (t : ℤ) : Prop := startOfYear 1970 ≤ t ∧ t < startOfYear 10000

/-- The whole microseconds from `t` to the last date. -/
def microsecondsLeft (t : ℤ) : ℤ := (overflow - 1 - t) / 1000

theorem add_microseconds_lt_iff (t n : ℤ) :
    t + Duration.microseconds n < overflow ↔ n ≤ microsecondsLeft t := by
  rw [microsecondsLeft, Duration.microseconds]
  omega

private theorem PresentEra.bounds {t : ℤ} (h : PresentEra t) :
    0 ≤ microsecondsLeft t ∧ microsecondsLeft t < 2 ^ 63 - 1 := by
  have hstart : startOfYear 1970 = 0 := by decide
  have hend : startOfYear 10000 < overflow := by decide
  have hrange : overflow < 1000 * (2 ^ 63 - 1) := by decide
  obtain ⟨hge, hlt⟩ := h
  rw [microsecondsLeft]
  omega

/-- An interval of 32 bits in seconds does not lead past the last date. -/
theorem PresentEra.add_seconds {t : ℤ} (h : PresentEra t) (r : UInt32) :
    t + Duration.seconds r.toNat < overflow := by
  have hr : r.toNat < 2 ^ 32 := r.toNat_lt
  have hend : startOfYear 10000 + 1000000000 * 2 ^ 32 < overflow := by decide
  obtain ⟨-, hlt⟩ := h
  rw [Duration.seconds]
  omega

end DateTime

/-- A conversion that does not wrap. -/
theorem toInt_toInt64 (x : UInt64) (h : x.toNat < 2 ^ 63) : x.toInt64.toInt = x.toNat := by
  rw [Int64.toInt, UInt64.toBitVec_toInt64, BitVec.toInt_eq_toNat_of_lt]
  · rfl
  · rw [UInt64.toNat_toBitVec]
    omega

namespace Event

/-- A notification that carries the 'alive' ping. -/
def isPing : Event → Bool
  | .notify entries _ => (Companion.STATE_WATCHDOG, "1".toList) ∈ entries
  | _ => false

end Event

namespace Companion
open Program DateTime

variable {ω : Type} {config : Config} {env : Environment ω} {dog : UInt64}

/-- `read_systemd_config`, with the result of `daemon::watchdog_enabled`. -/
def readSystemdConfig (watchdogEnabled : Except IoError UInt64) (config : Config) :
    Except IoError Config :=
  if config.systemd then
    match watchdogEnabled with
    | .ok dog =>
      if dog = 0 then .ok { config with watchdogMicroseconds := none }
      else .ok { config with watchdogMicroseconds := some dog }
    | .error e => .error e
  else .ok config

private theorem readSystemdConfig_watched {config₀ : Config} (hsystemd : config₀.systemd = true)
    (hdog : dog ≠ 0) (h : readSystemdConfig (.ok dog) config₀ = .ok config) :
    config.systemd = true ∧ config.watchdogMicroseconds = some dog := by
  rw [readSystemdConfig, if_pos hsystemd] at h
  rw [if_neg hdog] at h
  obtain rfl := Except.ok.inj h
  exact ⟨hsystemd, rfl⟩

/-- The last reading so far, and the readings that were the last before a ping. -/
def trackReading (s : Option ℤ × List ℤ) (event : Event) : Option ℤ × List ℤ :=
  if event.isPing then (s.1, s.2 ++ s.1.toList) else (event.reading?.or s.1, s.2)

/-- The readings from which a status notification sets a deadline. -/
def deadlineReadings (events : List Event) : List ℤ := (events.foldl trackReading (none, [])).2

/-- From `t`, the interval of the watchdog does not lead past the last date, as far as it is
added to `t`: all of it for the message about the deadlines, and 45% of it for the deadline. -/
def Fits (debugEnabled : Bool) (dog : UInt64) (t : ℤ) : Prop :=
  if debugEnabled then (dog.toNat : ℤ) ≤ microsecondsLeft t
  else 9 * dog.toNat / 20 ≤ microsecondsLeft t

instance (debugEnabled : Bool) (dog : UInt64) (t : ℤ) : Decidable (Fits debugEnabled dog t) :=
  inferInstanceAs (Decidable (if debugEnabled then (dog.toNat : ℤ) ≤ microsecondsLeft t
    else 9 * dog.toNat / 20 ≤ microsecondsLeft t))

/-- In the present era the bound of `i64` is past the last date, so it bounds nothing. -/
theorem datesInRange_iff (debugEnabled : Bool) (dog : UInt64) {t : ℤ} (h : PresentEra t) :
    DatesInRange debugEnabled dog t ↔ Fits debugEnabled dog t := by
  have hleft := h.bounds
  rw [DatesInRange, watchdogTimeout, add_microseconds_lt_iff, add_microseconds_lt_iff, Fits]
  cases debugEnabled with
  | false => simp
  | true =>
    -- the date in the message is the later one, so the deadline itself adds nothing
    rw [if_pos rfl]
    constructor
    · intro h
      have hmessage := h.1 rfl
      omega
    · intro h
      exact ⟨fun _ => by omega, by omega⟩

private theorem foldl_trackReading (s : Option ℤ × List ℤ) {new : List Event}
    (h : ∀ e ∈ new, e.isPing = false) : (new.foldl trackReading s).2 = s.2 := by
  induction new generalizing s with
  | nil => rfl
  | cons e new ih =>
    obtain ⟨he, hnew⟩ := List.forall_mem_cons.mp h
    rw [List.foldl_cons, ih _ hnew, trackReading, he]
    rfl

/-- Only a ping adds to the readings. -/
theorem deadlineReadings_append (events : List Event) {new : List Event}
    (h : ∀ e ∈ new, e.isPing = false) :
    deadlineReadings (events ++ new) = deadlineReadings events := by
  rw [deadlineReadings, List.foldl_append, foldl_trackReading _ h, deadlineReadings]

private theorem isPing_alive (status : Text) (result : Except IoError Unit) :
    (Event.notify (aliveEntries status) result).isPing = true := by
  simp [Event.isPing, aliveEntries]

private theorem deadlineReadings_ping (events : List Event) (t : ℤ) (status : Text)
    (result : Except IoError Unit) :
    deadlineReadings (events ++ pingEvents t status result) = deadlineReadings events ++ [t] := by
  have hping : (Event.notify (aliveEntries status) result).isPing = true :=
    isPing_alive status result
  rw [deadlineReadings, List.foldl_append, pingEvents, List.foldl_cons, List.foldl_cons,
    List.foldl_nil, trackReading, if_pos hping]
  rfl

/-- The interval of the watchdog fits at every reading that a deadline was set from. -/
def Ranged (debugEnabled : Bool) (dog : UInt64) (ctx : Context ω) : Prop :=
  ∀ t ∈ deadlineReadings ctx.events, Fits debugEnabled dog t

/-- No ping was sent. -/
def Unpinged (ctx ctx' : Context ω) : Prop :=
  ∃ new, ctx'.events = ctx.events ++ new ∧ ∀ e ∈ new, e.isPing = false

/-- A program stops with a panic where an interval does not fit, and only there. -/
def Checked (env : Environment ω) (dog : UInt64) (e : Stop) (ctx : Context ω) : Prop :=
  e = .panic ↔ ¬Ranged env.debugEnabled dog ctx

private theorem Unpinged.ranged {debugEnabled : Bool} {ctx ctx' : Context ω} (h : Unpinged ctx ctx')
    (hctx : Ranged debugEnabled dog ctx) : Ranged debugEnabled dog ctx' := by
  obtain ⟨new, hnew, hsilent⟩ := h
  rw [Ranged, hnew, deadlineReadings_append _ hsilent]
  exact hctx

instance : Std.Refl (@Unpinged ω) := ⟨fun _ => ⟨[], by simp⟩⟩

instance : IsTrans (Context ω) Unpinged where
  trans ctx ctx' ctx'' := by
    rintro ⟨new, hnew, hsilent⟩ ⟨new', hnew', hsilent'⟩
    exact ⟨new ++ new', by rw [hnew', hnew, List.append_assoc],
      List.forall_mem_append.mpr ⟨hsilent, hsilent'⟩⟩

private theorem unpinged_record (ctx : Context ω) {event : Event} (w : ω)
    (h : event.isPing = false) : Unpinged ctx (ctx.record event w) :=
  ⟨[event], ctx.events_record event w, List.forall_mem_singleton.mpr h⟩

private theorem passEvents_silent (t : ℤ) (deadline : Option ℤ) (wake : Wake) :
    ∀ e ∈ passEvents t deadline wake, e.isPing = false := by
  cases deadline with
  | none => simp [passEvents, armedFor, Event.isPing]
  | some deadline =>
    rw [passEvents, armedFor]
    split
    · simp [Event.isPing]
    · simp [Event.isPing]

private theorem unpinged_work (env : Environment ω) : AlongWork env Unpinged where
  refl := inferInstance
  trans := inferInstance
  enumerate := along_call fun ctx => unpinged_record ctx _ rfl
  inspect _ := along_call fun ctx => unpinged_record ctx _ rfl
  publish _ := along_call fun ctx => unpinged_record ctx _ rfl

private theorem Ranged.unfinished {ctx : Context ω} (h : Ranged env.debugEnabled dog ctx) :
    Checked env dog .unfinished ctx :=
  ⟨nofun, fun h' => absurd h h'⟩

theorem new_unpinged (ctx : Context ω) :
    ∃ ctx', new config env ctx = .ok () ctx' ∧ Unpinged ctx ctx' := by
  rw [new]
  split
  · exact ⟨_, rfl, unpinged_record ctx _ rfl⟩
  · exact ⟨ctx, rfl, refl ctx⟩

theorem notifyStopping_unpinged (ctx : Context ω) :
    ∃ ctx', notifyStopping config env ctx = .ok () ctx' ∧ Unpinged ctx ctx' := by
  rw [notifyStopping]
  split
  · exact ⟨_, rfl, unpinged_record ctx _ rfl⟩
  · exact ⟨ctx, rfl, refl ctx⟩

section
variable (hera : ∀ w, PresentEra (env.now w).1) (hsystemd : config.systemd = true)
  (hdog : config.watchdogMicroseconds = some dog)
include hera hsystemd hdog

/-- A status notification panics if and only if the interval does not fit at its reading. -/
theorem notifyStatus_ranged (status : Text) {ctx : Context ω}
    (hctx : Ranged env.debugEnabled dog ctx) :
    Triple (notifyStatus config env status) ctx (fun _ => Ranged env.debugEnabled dog)
      (Checked env dog) := by
  obtain ⟨result, hevents⟩ : ∃ result, (pinged env status ctx).events =
      ctx.events ++ pingEvents (env.now ctx.world).1 status result := events_pinged status ctx
  have hreadings : deadlineReadings (pinged env status ctx).events =
      deadlineReadings ctx.events ++ [(env.now ctx.world).1] := by
    rw [hevents, deadlineReadings_ping]
  have hrange := datesInRange_iff env.debugEnabled dog (hera ctx.world)
  refine notifyStatus_triple hsystemd hdog (fun hin t ht => ?_)
    fun hout => ⟨fun _ h => hout (hrange.mpr (h _ ?_)), fun _ => rfl⟩
  · have ht : t ∈ deadlineReadings (pinged env status ctx).events := ht
    rw [hreadings] at ht
    obtain ht | ht := List.mem_append.mp ht
    · exact hctx t ht
    · rw [List.mem_singleton.mp ht]
      exact hrange.mp hin
  · rw [hreadings]
    exact List.mem_append_right _ (List.mem_singleton_self _)

theorem wait_ranged (passes : ℕ) {ctx : Context ω} (hctx : Ranged env.debugEnabled dog ctx) :
    Triple (wait config env passes) ctx (fun _ => Ranged env.debugEnabled dog)
      (Checked env dog) := by
  cases hr : config.refreshSeconds with
  | none =>
    rw [wait, hr]
    exact Triple.bind_ok (call_eq _ _ ctx)
      (Triple.pure ((unpinged_record ctx _ rfl).ranged hctx))
  | some r =>
    -- the sum of a reading and the refresh interval is a date, so a wait panics in no other
    -- place than a ping of its loop
    have hadd := (hera ctx.world).add_seconds r
    refine wait_started hr (fun ctx' hpanic _ => absurd hadd (not_lt.mpr hpanic))
      fun refreshTimeout ctx₁ _ _ hstart => ?_
    have hctx₁ : Ranged env.debugEnabled dog ctx₁ :=
      Unpinged.ranged ⟨_, hstart, by simp [startEvents, Event.isPing]⟩ hctx
    refine Triple.loop (fun ctx' h' => ?_) (fun ctx' h' => h'.unfinished) passes hctx₁
    refine waitPass_triple (fun sig ctx'' hevents => ?_) (fun t wake again ctx'' hevents => ?_)
      fun t ctx'' hevents => ?_
    · exact Unpinged.ranged ⟨_, hevents, by simp [Event.isPing]⟩ h'
    · exact Unpinged.ranged ⟨_, hevents, passEvents_silent _ _ _⟩ h'
    · exact notifyStatus_ranged hera hsystemd hdog _
        (Unpinged.ranged ⟨_, hevents, passEvents_silent _ _ _⟩ h')

theorem endIteration_ranged (errors : List CompanionError) (passes : ℕ) {ctx : Context ω}
    (hctx : Ranged env.debugEnabled dog ctx) :
    Triple (endIteration config env errors passes) ctx (fun _ => Ranged env.debugEnabled dog)
      (Checked env dog) := by
  refine (notifyStatus_ranged hera hsystemd hdog _ hctx).bind fun _ ctx₁ h₁ => ?_
  refine (wait_ranged hera hsystemd hdog passes h₁).bind fun again ctx₂ h₂ => ?_
  refine Triple.ite (fun _ => Triple.pure h₂) fun _ => ?_
  obtain ⟨ctx₃, hstopping, hsilent⟩ : ∃ ctx₃, notifyStopping config env ctx₂ = .ok () ctx₃ ∧
    Unpinged ctx₂ ctx₃ := notifyStopping_unpinged ctx₂
  have h₃ := hsilent.ranged h₂
  exact Triple.bind_ok hstopping
    (Triple.ite (fun _ => Triple.pure h₃) fun _ => Triple.pure h₃)

theorem iteration_ranged (explicit : List Text) (passes : ℕ) {ctx : Context ω}
    (hctx : Ranged env.debugEnabled dog ctx) :
    Triple (iteration config env explicit passes) ctx (fun _ => Ranged env.debugEnabled dog)
      (Checked env dog) := by
  have hstart : Ranged env.debugEnabled dog (ctx.record .iteration ctx.world) :=
    (unpinged_record ctx _ rfl).ranged hctx
  refine iteration_triple (notifyStatus_ranged hera hsystemd hdog _ hstart) fun ctx₁ h₁ => ?_
  have hrefreshed : Unpinged ctx₁ (refreshed config env explicit ctx₁) :=
    refreshed_along (unpinged_work env) explicit ctx₁
  have hworked : Unpinged (refreshed config env explicit ctx₁) (worked config env explicit ctx₁) :=
    ⟨[.work], by simp [worked, Context.events, Context.note], by simp [Event.isPing]⟩
  exact endIteration_ranged hera hsystemd hdog _ passes
    (hworked.ranged (hrefreshed.ranged h₁))

/-- A run panics if and only if it set a deadline at a reading at which the interval does not
fit. -/
theorem run_ranged (explicit : List Text) (n passes : ℕ) (w : ω) :
    Triple (run config env explicit n passes) (start w)
      (fun _ => Ranged env.debugEnabled dog) (Checked env dog) := by
  have hstart : Ranged env.debugEnabled dog (start w) := fun t ht => by cases ht
  obtain ⟨ctx, hnew, hsilent⟩ : ∃ ctx, new config env (start w) = .ok () ctx ∧
    Unpinged (start w) ctx := new_unpinged _
  obtain ⟨result, ctx₁, hready, hctx₁⟩ : ∃ result ctx₁, notify env readyEntries ctx =
      .ok result ctx₁ ∧ Unpinged ctx ctx₁ := ⟨_, _, rfl, unpinged_record ctx _ rfl⟩
  have hranged : Ranged env.debugEnabled dog ctx₁ := hctx₁.ranged (hsilent.ranged hstart)
  refine Triple.bind_ok hnew ?_
  rw [if_pos hsystemd]
  apply Triple.bind_ok hready
  cases result with
  | error e => exact Triple.pure hranged
  | ok u =>
    exact Triple.loop_kept (fun ctx' h' => iteration_ranged hera hsystemd hdog explicit passes h')
      (fun ctx' h' => h'.unfinished) n hranged

end

def panics {α : Type} (x : CompanionM ω α) (ctx : Context ω) : Bool :=
  match x ctx with
  | .error .panic _ => true
  | _ => false

/-- No date addition of a run leads past the last date, no conversion to `i64` wraps, and a
duration is only unwrapped where it is not negative. -/
structure DeadlinesHold (config : Config) (env : Environment ω) (explicit : List Text)
    (n passes : ℕ) (w : ω) (dog : UInt64) : Prop where
  additions : panics (run config env explicit n passes) (start w) = false
  timeout : Duration.microseconds (UInt64.ofNat (9 * dog.toNat / 20)).toInt64.toInt =
    watchdogTimeout dog
  message : Duration.microseconds (min dog Int64.maxValue.toUInt64).toInt64.toInt =
    Duration.microseconds (min dog.toNat (2 ^ 63 - 1))
  refresh : ∀ r, config.refreshSeconds = some r →
    Duration.seconds r.toUInt64.toInt64.toInt = Duration.seconds r.toNat
  unwrap : ∀ t deadline desc (ctx : Context ω),
    panics (deadlineToAlarmClock t deadline desc) ctx = false

private theorem timeout_toInt64 (dog : UInt64) :
    Duration.microseconds (UInt64.ofNat (9 * dog.toNat / 20)).toInt64.toInt =
      watchdogTimeout dog := by
  have hdog : dog.toNat < 2 ^ 64 := dog.toNat_lt
  have hsize : UInt64.size = 2 ^ 64 := rfl
  have hsmall : (UInt64.ofNat (9 * dog.toNat / 20)).toNat = 9 * dog.toNat / 20 :=
    UInt64.toNat_ofNat_of_lt' (by omega)
  rw [toInt_toInt64 _ (by omega), hsmall, watchdogTimeout]
  rfl

private theorem message_toInt64 (dog : UInt64) :
    Duration.microseconds (min dog Int64.maxValue.toUInt64).toInt64.toInt =
      Duration.microseconds (min dog.toNat (2 ^ 63 - 1)) := by
  have hmax : Int64.maxValue.toUInt64.toNat = 2 ^ 63 - 1 := rfl
  have hmin : (min dog Int64.maxValue.toUInt64).toNat = min dog.toNat (2 ^ 63 - 1) := by
    change (if dog ≤ Int64.maxValue.toUInt64 then dog else Int64.maxValue.toUInt64).toNat = _
    by_cases h : dog ≤ Int64.maxValue.toUInt64
    · have hle := UInt64.le_iff_toNat_le.mp h
      rw [if_pos h]
      omega
    · have hlt := mt UInt64.le_iff_toNat_le.mpr h
      rw [if_neg h]
      omega
  rw [toInt_toInt64 _ (by omega), hmin, Nat.cast_min]
  rfl

theorem refresh_toInt64 (r : UInt32) :
    Duration.seconds r.toUInt64.toInt64.toInt = Duration.seconds r.toNat := by
  have hr : r.toNat < 2 ^ 32 := r.toNat_lt
  rw [toInt_toInt64 _ (by rw [UInt32.toNat_toUInt64]; omega), UInt32.toNat_toUInt64]

theorem deadlineToAlarmClock_panics (t : ℤ) (deadline : Option ℤ) (desc : Text)
    (ctx : Context ω) : panics (deadlineToAlarmClock t deadline desc) ctx = false := by
  obtain ⟨receiver, ctx', hok, -⟩ := deadlineToAlarmClock_ok t deadline desc ctx
  rw [panics, hok]

/-- On a clock that shows the present era the arithmetic of deadlines holds in a run if and only
if, at every reading from which a status notification set a deadline, the interval of the
watchdog fits before the last date. -/
theorem deadlinesHold_iff {ω : Type} (env : Environment ω)
    (hera : ∀ w, PresentEra (env.now w).1) (config₀ config : Config)
    (hsystemd : config₀.systemd = true) (dog : UInt64) (hdog : dog ≠ 0)
    (hconfig : readSystemdConfig (.ok dog) config₀ = .ok config) (explicit : List Text)
    (n passes : ℕ) (w : ω) :
    DeadlinesHold config env explicit n passes w dog ↔
      ∀ t ∈ deadlineReadings (finalState (run config env explicit n passes) (start w)).events,
        Fits env.debugEnabled dog t := by
  obtain ⟨hon, hwatched⟩ := readSystemdConfig_watched hsystemd hdog hconfig
  have hrun : Triple (run config env explicit n passes) (start w)
      (fun _ => Ranged env.debugEnabled dog) (Checked env dog) :=
    run_ranged hera hon hwatched explicit n passes w
  have hpanics : panics (run config env explicit n passes) (start w) = false ↔
      Ranged env.debugEnabled dog (finalState (run config env explicit n passes) (start w)) := by
    rw [panics, finalState]
    cases hx : run config env explicit n passes (start w) with
    | ok result ctx => simpa using hrun.of_ok hx
    | error e ctx =>
      have hchecked : e = .panic ↔ ¬Ranged env.debugEnabled dog ctx := hrun.of_error hx
      cases e with
      | panic => simpa using hchecked
      | unfinished => simpa using hchecked
  constructor
  · intro h
    exact hpanics.mp h.additions
  · intro h
    exact ⟨hpanics.mpr h, timeout_toInt64 dog, message_toInt64 dog,
      fun r _ => refresh_toInt64 r, deadlineToAlarmClock_panics⟩

/-- The clock shows the start of 2024. -/
def datedEnvironment (debugEnabled : Bool) : Environment Unit :=
  { fixedEnvironment dbMissing with
    now := fun w => (startOfYear 2024, w), debugEnabled := debugEnabled }

private theorem datedEnvironment_era (debugEnabled : Bool) (w : Unit) :
    PresentEra ((datedEnvironment debugEnabled).now w).1 := by
  have hdate : startOfYear 1970 ≤ startOfYear 2024 ∧ startOfYear 2024 < startOfYear 10000 := by
    decide
  exact hdate

def unsupervised : Config := { Config.default with systemd := true }

def supervised (dog : UInt64) : Config := { unsupervised with watchdogMicroseconds := some dog }

theorem deadlinesHold_iff_supervised :
    DeadlinesHold (supervised 30000000) (datedEnvironment true) ["web".toList] 1 1 () 30000000 :=
  (deadlinesHold_iff (datedEnvironment true) (datedEnvironment_era true) unsupervised
    (supervised 30000000) rfl 30000000 (by decide) rfl ["web".toList] 1 1 ()).mpr
    (by decide +kernel)

/-- The message about the deadlines panics at the bound to which it clamps the interval, and
the deadline itself panics at the longest intervals. -/
theorem not_deadlinesHold_long :
    ¬DeadlinesHold (supervised 9223372036854775807) (datedEnvironment true) ["web".toList] 1 1 ()
      9223372036854775807 ∧
    ¬DeadlinesHold (supervised 18446744073709551614) (datedEnvironment false) ["web".toList] 1 1
      () 18446744073709551614 := by
  constructor
  · exact fun h => absurd h.additions (by decide +kernel)
  · exact fun h => absurd h.additions (by decide +kernel)

end Companion
end Beachhead
