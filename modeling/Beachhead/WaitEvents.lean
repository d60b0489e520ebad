import Beachhead.SteadyClock

/-!
# The events of a wait

What the calls of a status notification, of a pass of the loop of `wait` and of the
start of `wait` add to the trace, for any clock. Turning a deadline into an alarm never
panics: a deadline that has passed is ruled out before the duration is converted.
-/
namespace Beachhead

/-- What `Local::now` returned. -/
def Event.reading? : Event → Option ℤ
  | .now t => some t
  | _ => none

namespace Context
variable {ω : Type}

def events (ctx : Context ω) : List Event := ctx.trace.map Entry.event

@[simp] theorem events_record (ctx : Context ω) (event : Event) (w : ω) :
    (ctx.record event w).events = ctx.events ++ [event] := by
  simp [events, record, note]

end Context

namespace Companion
open Program

variable {ω : Type} {config : Config} {env : Environment ω}

/-- The alarm that is armed for a deadline at the reading `t`. -/
def armedFor (desc : Text) (t : ℤ) : Option ℤ → List Event
  | some deadline => if deadline < t then [] else [.after desc (deadline - t)]
  | none => []

/-- The events of a pass that finds no signal, until it wakes up. -/
def passEvents (t : ℤ) (deadline : Option ℤ) (wake : Wake) : List Event :=
  ([.waitPass, .poll none, .now t] : List Event) ++ armedFor "watchdog".toList t deadline ++
    [.woke wake]

/-- The events of a status notification at the reading `t`. -/
def pingEvents (t : ℤ) (status : Text) (result : Except IoError Unit) : List Event :=
  [.now t, .notify (aliveEntries status) result]

/-- The events of the start of a wait at the reading `s`. -/
def startEvents (r : UInt32) (s : ℤ) : List Event :=
  ([.wait, .now s] : List Event) ++ [.after "refresh".toList (Duration.seconds r.toNat)]

theorem deadlineToAlarmClock_ok (t : ℤ) (deadline : Option ℤ) (desc : Text) (ctx : Context ω) :
    ∃ receiver ctx', deadlineToAlarmClock t deadline desc ctx = .ok receiver ctx' ∧
      ctx'.events = ctx.events ++ armedFor desc t deadline := by
  cases deadline with
  | none => exact ⟨.kept, ctx, rfl, by simp [armedFor]⟩
  | some deadline =>
    by_cases h : deadline < t
    · refine ⟨.closed, ctx, ?_, by simp [armedFor, h]⟩
      rw [deadlineToAlarmClock, if_pos h]
      rfl
    · exact ⟨_, _, deadlineToAlarmClock_after (by omega) desc ctx, by simp [armedFor, h]⟩

theorem events_pinged (status : Text) (ctx : Context ω) : ∃ result,
    (pinged env status ctx).events = ctx.events ++ pingEvents (env.now ctx.world).1 status result :=
  ⟨(env.notify (env.now ctx.world).2 (aliveEntries status)).1, by simp [pinged, pingEvents]⟩

/-- A pass ends at a signal, or it reads the clock, arms the alarm of the watchdog, blocks and
acts on the branch that was taken. -/
theorem waitPass_triple {refreshTimeout : Receiver ω} {ctx : Context ω}
    {Q : Option Bool → Context ω → Prop} {E : Stop → Context ω → Prop}
    (hsignal : ∀ sig ctx', ctx'.events = ctx.events ++ [.waitPass, .poll (some sig)] →
      Q (some false) ctx')
    (hleave : ∀ t wake again ctx',
      ctx'.events = ctx.events ++ passEvents t ctx.nextWatchdog wake → Q (some again) ctx')
    (hping : ∀ t ctx', ctx'.events = ctx.events ++ passEvents t ctx.nextWatchdog .watchdog →
      Triple (notifyStatus config env "Waiting".toList) ctx' (fun _ => Q none) E) :
    Triple (waitPass config env refreshTimeout) ctx Q E := by
  apply Triple.bind_ok (call_eq _ _ ctx)
  apply Triple.bind_ok (poll_eq ctx)
  cases hpoll : (env.poll ctx.world).1 with
  | some sig => exact Triple.pure (hsignal sig _ (by simp [polled, hpoll]))
  | none =>
    refine Triple.bind_ok (call_eq env.now .now (polled env ctx)) (Triple.bind_ok rfl ?_)
    obtain ⟨watchdogTimeout, ctx₁, hclock, hevents⟩ := deadlineToAlarmClock_ok
      (env.now (polled env ctx).world).1 ctx.nextWatchdog "watchdog".toList
      ((polled env ctx).record (.now (env.now (polled env ctx).world).1)
        (env.now (polled env ctx).world).2)
    have hselect (wake : Wake) (w : ω) : (ctx₁.record (.woke wake) w).events =
        ctx.events ++ passEvents (env.now (polled env ctx).world).1 ctx.nextWatchdog wake := by
      simp [hevents, polled, hpoll, passEvents]
    apply Triple.bind_ok hclock
    apply Triple.bind_ok (call_eq (env.select · refreshTimeout watchdogTimeout) .woke ctx₁)
    cases (env.select ctx₁.world refreshTimeout watchdogTimeout).1 with
    | signal sig => exact Triple.pure (hleave _ _ false _ (hselect _ _))
    | refresh => exact Triple.pure (hleave _ _ true _ (hselect _ _))
    | watchdog => exact (hping _ _ (hselect _ _)).bind fun _ _ h => Triple.pure h

/-- In refresh mode a wait reads the clock, adds the refresh interval and arms an alarm for the
sum, which is due after the interval. -/
theorem wait_started {r : UInt32} (hr : config.refreshSeconds = some r) {passes : ℕ}
    {ctx : Context ω} {Q : Bool → Context ω → Prop} {E : Stop → Context ω → Prop}
    (hpanic : ∀ ctx', DateTime.overflow ≤ (env.now ctx.world).1 + Duration.seconds r.toNat →
      ctx'.events = ctx.events ++ [.wait, .now (env.now ctx.world).1] → E .panic ctx')
    (hloop : ∀ refreshTimeout ctx',
      (env.now ctx.world).1 + Duration.seconds r.toNat < DateTime.overflow →
      ctx'.nextWatchdog = ctx.nextWatchdog →
      ctx'.events = ctx.events ++ startEvents r (env.now ctx.world).1 →
      Triple (loop .unfinished (waitPass config env refreshTimeout) passes) ctx' Q E) :
    Triple (wait config env passes) ctx Q E := by
  have hseconds : 0 ≤ Duration.seconds r.toNat := by
    rw [Duration.seconds]
    omega
  have hread : now env (ctx.record .wait ctx.world) = .ok (env.now ctx.world).1
      ((ctx.record .wait ctx.world).record (.now (env.now ctx.world).1) (env.now ctx.world).2) :=
    rfl
  rw [wait, hr]
  refine Triple.bind_ok (call_eq _ _ ctx) (Triple.bind_ok hread ?_)
  by_cases hrange : (env.now ctx.world).1 + Duration.seconds r.toNat < DateTime.overflow
  · refine Triple.bind_ok (addDuration_ok hrange _) ?_
    refine Triple.bind_ok (deadlineToAlarmClock_after (by omega) _ _) ?_
    exact hloop _ _ hrange rfl (by simp [startEvents])
  · exact Triple.error (bind_error (addDuration_panic hrange _))
      (hpanic _ (by omega) (by simp))

end Companion
end Beachhead
