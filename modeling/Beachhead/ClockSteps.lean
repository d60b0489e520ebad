import Beachhead.WaitEvents
import Beachhead.Watchdog

/-!
# Steps of the clock

A status notification stores the deadline of the watchdog as a date, and each pass of the
loop of `wait` turns it back into a duration with a reading of its own. So an alarm is
longer than 45% of the interval exactly when the clock was stepped back in between. The
refresh alarm is made from one reading.
-/
namespace Beachhead

namespace Event

/-- How long an alarm is armed for. -/
def alarm? (desc : Text) : Event → Option ℤ
  | .after desc' remaining => if desc' = desc then some remaining else none
  | _ => none

end Event

namespace Companion
open Program

variable {ω : Type} {config : Config} {env : Environment ω} {W p : ℤ}

def readings (events : List Event) : List ℤ := events.filterMap Event.reading?

def alarms (desc : Text) (events : List Event) : List ℤ := events.filterMap (Event.alarm? desc)

/-- The events of the calls of `x` from `ctx`. -/
def newEvents {α : Type} (x : CompanionM ω α) (ctx : Context ω) : List Event :=
  (finalState x ctx).events.drop ctx.events.length

/-- The readings are in turn one that a deadline is set from and one that an alarm is armed
from. No step back of the clock lies between the two. -/
def NotSteppedBack : List ℤ → Prop
  | set :: armed :: rest => set ≤ armed ∧ NotSteppedBack rest
  | _ => True

instance decidableNotSteppedBack : DecidablePred NotSteppedBack
  | [] => isTrue trivial
  | [_] => isTrue trivial
  | _ :: _ :: rest => @instDecidableAnd _ _ _ (decidableNotSteppedBack rest)

/-- The alarms of one wait do not show any step of the clock: the refresh alarm is armed once,
for the refresh interval, and no alarm of the watchdog is longer than 45% of its interval. -/
structure AlarmsInTime (r : UInt32) (dog : UInt64) (events : List Event) : Prop where
  refresh : alarms "refresh".toList events = [Duration.seconds r.toNat]
  watchdog : ∀ d ∈ alarms "watchdog".toList events, d ≤ Duration.microseconds (9 * dog.toNat / 20)
  interval : ∀ d ∈ alarms "watchdog".toList events, d ≤ Duration.microseconds dog.toNat

private theorem readings_append (events events' : List Event) :
    readings (events ++ events') = readings events ++ readings events' :=
  List.filterMap_append

private theorem alarms_append (desc : Text) (events events' : List Event) :
    alarms desc (events ++ events') = alarms desc events ++ alarms desc events' :=
  List.filterMap_append

private theorem readings_armedFor (desc : Text) (t : ℤ) (deadline : Option ℤ) :
    readings (armedFor desc t deadline) = [] := by
  cases deadline with
  | none => rfl
  | some deadline =>
    rw [armedFor]
    split
    · rfl
    · rfl

private theorem alarms_after (desc : Text) (remaining : ℤ) :
    alarms desc [.after desc remaining] = [remaining] := by
  have halarm : Event.alarm? desc (.after desc remaining) = some remaining := if_pos rfl
  rw [alarms, List.filterMap_cons_some halarm, List.filterMap_nil]

private theorem alarms_after_ne {desc desc' : Text} (h : desc' ≠ desc) (remaining : ℤ) :
    alarms desc [.after desc' remaining] = [] := by
  have halarm : Event.alarm? desc (.after desc' remaining) = none := if_neg h
  rw [alarms, List.filterMap_cons_none halarm, List.filterMap_nil]

private theorem alarms_armedFor (desc : Text) (t deadline : ℤ) :
    alarms desc (armedFor desc t (some deadline)) =
      if deadline < t then [] else [deadline - t] := by
  rw [armedFor]
  split
  · rfl
  · exact alarms_after desc _

private theorem alarms_armedFor_ne {desc desc' : Text} (h : desc' ≠ desc) (t : ℤ)
    (deadline : Option ℤ) : alarms desc (armedFor desc' t deadline) = [] := by
  cases deadline with
  | none => rfl
  | some deadline =>
    rw [armedFor]
    split
    · rfl
    · exact alarms_after_ne h _

private theorem readings_passEvents (t : ℤ) (deadline : Option ℤ) (wake : Wake) :
    readings (passEvents t deadline wake) = [t] := by
  rw [passEvents, readings_append, readings_append, readings_armedFor]
  rfl

private theorem alarms_passEvents (desc : Text) (t : ℤ) (deadline : Option ℤ) (wake : Wake) :
    alarms desc (passEvents t deadline wake) =
      alarms desc (armedFor "watchdog".toList t deadline) := by
  have hstart : alarms desc [.waitPass, .poll none, .now t] = [] := rfl
  have hend : alarms desc [.woke wake] = [] := rfl
  rw [passEvents, alarms_append, alarms_append, hstart, hend, List.nil_append, List.append_nil]

/-- The events of the rest of a wait, from a deadline that was set at the reading `p`. -/
structure Guarded (W p : ℤ) (events : List Event) : Prop where
  refresh : alarms "refresh".toList events = []
  watchdog : (∀ d ∈ alarms "watchdog".toList events, d ≤ W) ↔
    NotSteppedBack (p :: readings events)

private theorem guarded_of_silent {events : List Event} (hreadings : readings events = [])
    (halarms : ∀ desc, alarms desc events = []) : Guarded W p events where
  refresh := halarms _
  watchdog := by
    rw [halarms, hreadings]
    exact ⟨fun _ => trivial, fun _ d hd => by cases hd⟩

private theorem guarded_nil (W p : ℤ) : Guarded W p [] := guarded_of_silent rfl fun _ => rfl

private theorem watchdog_ne_refresh : "watchdog".toList ≠ "refresh".toList := by decide

/-- An alarm for a deadline is too long if and only if it is armed before the reading at which
the deadline was set. -/
theorem armedFor_le_iff (hW : 0 ≤ W) (p t : ℤ) :
    (∀ d ∈ alarms "watchdog".toList (armedFor "watchdog".toList t (some (p + W))), d ≤ W) ↔
      p ≤ t := by
  rw [alarms_armedFor]
  split
  · exact ⟨fun _ => by omega, fun _ d hd => by cases hd⟩
  · rw [List.forall_mem_singleton]
    omega

private theorem guarded_passEvents (hW : 0 ≤ W) (p t : ℤ) (wake : Wake) :
    Guarded W p (passEvents t (some (p + W)) wake) where
  refresh := by rw [alarms_passEvents, alarms_armedFor_ne watchdog_ne_refresh]
  watchdog := by
    rw [alarms_passEvents, readings_passEvents, armedFor_le_iff hW]
    exact (and_iff_left trivial).symm

/-- A pass that ends with a ping hands over to the deadline that the ping sets. -/
theorem Guarded.ping (hW : 0 ≤ W) (p t : ℤ) {p' : ℤ} {status : Text}
    {result : Except IoError Unit} {rest : List Event} (h : Guarded W p' rest) :
    Guarded W p (passEvents t (some (p + W)) .watchdog ++ pingEvents p' status result ++ rest) where
  refresh := by
    rw [alarms_append, alarms_append, (guarded_passEvents hW p t _).refresh, h.refresh]
    rfl
  watchdog := by
    have hping : alarms "watchdog".toList (pingEvents p' status result) = [] := rfl
    have hread : readings (pingEvents p' status result) = [p'] := rfl
    rw [alarms_append, alarms_append, hping, List.append_nil, List.forall_mem_append,
      readings_append, readings_append, readings_passEvents, hread, alarms_passEvents,
      armedFor_le_iff hW, h.watchdog]
    rfl

/-- The events since `ctx` are guarded, for a deadline that was set at the reading `p`. -/
def GuardedFrom (W p : ℤ) (ctx ctx' : Context ω) : Prop :=
  ∃ new, ctx'.events = ctx.events ++ new ∧ Guarded W p new

/-- The last ping was at the reading `p'`, and the events since `ctx` are guarded if the ones
that follow are. -/
structure Rearmed (W p p' : ℤ) (ctx ctx' : Context ω) : Prop where
  nextWatchdog : ctx'.nextWatchdog = some (p' + W)
  events : ∃ new, ctx'.events = ctx.events ++ new ∧
    ∀ rest, Guarded W p' rest → Guarded W p (new ++ rest)

private theorem Rearmed.guardedFrom {ctx ctx' ctx'' : Context ω} {p' : ℤ} {new : List Event}
    (h : Rearmed W p p' ctx ctx') (hnew : ctx''.events = ctx'.events ++ new)
    (hguarded : Guarded W p' new) : GuardedFrom W p ctx ctx'' := by
  obtain ⟨old, hold, hrest⟩ := h.events
  exact ⟨old ++ new, by rw [hnew, hold, List.append_assoc], hrest new hguarded⟩

private theorem Rearmed.next {ctx ctx' ctx'' : Context ω} {p' p'' : ℤ} {new : List Event}
    (h : Rearmed W p p' ctx ctx') (hnext : ctx''.nextWatchdog = some (p'' + W))
    (hnew : ctx''.events = ctx'.events ++ new)
    (hguarded : ∀ rest, Guarded W p'' rest → Guarded W p' (new ++ rest)) :
    Rearmed W p p'' ctx ctx'' := by
  obtain ⟨old, hold, hrest⟩ := h.events
  refine ⟨hnext, old ++ new, by rw [hnew, hold, List.append_assoc], fun rest h' => ?_⟩
  rw [List.append_assoc]
  exact hrest _ (hguarded rest h')

section
variable {dog : UInt64}

/-- A ping of the loop sets the next deadline, or its date addition panics. -/
theorem ping_rearmed (hsystemd : config.systemd = true)
    (hdog : config.watchdogMicroseconds = some dog) {ctx ctx' ctx'' : Context ω} {p' t : ℤ}
    (h : Rearmed (watchdogTimeout dog) p p' ctx ctx') (hpass : ctx''.events =
      ctx'.events ++ passEvents t (some (p' + watchdogTimeout dog)) .watchdog) :
    Triple (notifyStatus config env "Waiting".toList) ctx''
      (fun _ ctx₁ => ∃ p₁, Rearmed (watchdogTimeout dog) p p₁ ctx ctx₁)
      fun _ => GuardedFrom (watchdogTimeout dog) p ctx := by
  obtain ⟨hop, hevents, hrest⟩ : ∃ hop,
      (pinged env "Waiting".toList ctx'').events = ctx'.events ++ hop ∧
      ∀ rest, Guarded (watchdogTimeout dog) (env.now ctx''.world).1 rest →
        Guarded (watchdogTimeout dog) p' (hop ++ rest) := by
    obtain ⟨result, hevents⟩ : ∃ result, (pinged env "Waiting".toList ctx'').events =
        ctx''.events ++ pingEvents (env.now ctx''.world).1 "Waiting".toList result :=
      events_pinged _ _
    rw [hpass, List.append_assoc] at hevents
    exact ⟨_, hevents, fun rest h => h.ping (watchdogTimeout_nonneg dog) p' t⟩
  refine notifyStatus_triple hsystemd hdog (fun _ => ⟨_, h.next rfl hevents hrest⟩) fun _ => ?_
  -- the ping was sent, so its reading counts, but no pass follows it
  have hlast : Guarded (watchdogTimeout dog) p' (hop ++ []) := hrest [] (guarded_nil _ _)
  rw [List.append_nil] at hlast
  exact h.guardedFrom hevents hlast

/-- However many passes ping, the events of the loop are guarded. -/
theorem loop_guarded (hsystemd : config.systemd = true)
    (hdog : config.watchdogMicroseconds = some dog) (refreshTimeout : Receiver ω) (passes : ℕ)
    {ctx : Context ω} (h : ctx.nextWatchdog = some (p + watchdogTimeout dog)) :
    Triple (loop .unfinished (waitPass config env refreshTimeout) passes) ctx
      (fun _ => GuardedFrom (watchdogTimeout dog) p ctx)
      fun _ => GuardedFrom (watchdogTimeout dog) p ctx := by
  have hstart : Rearmed (watchdogTimeout dog) p p ctx ctx :=
    ⟨h, [], (List.append_nil _).symm, fun _ h => h⟩
  refine Triple.loop (I := fun ctx' => ∃ p', Rearmed (watchdogTimeout dog) p p' ctx ctx')
    (fun ctx' h' => ?_) (fun ctx' h' => ?_) passes ⟨p, hstart⟩
  · obtain ⟨p', h'⟩ := h'
    refine waitPass_triple (fun sig ctx'' hevents => ?_) (fun t wake again ctx'' hevents => ?_)
      fun t ctx'' hevents => ?_
    · exact h'.guardedFrom hevents (guarded_of_silent rfl fun _ => rfl)
    · rw [h'.nextWatchdog] at hevents
      exact h'.guardedFrom hevents (guarded_passEvents (watchdogTimeout_nonneg dog) p' t wake)
    · rw [h'.nextWatchdog] at hevents
      exact ping_rearmed hsystemd hdog h' hevents
  · obtain ⟨p', h'⟩ := h'
    exact h'.guardedFrom (List.append_nil _).symm (guarded_nil _ _)

/-- The events of a wait that starts at the reading `s`, with a deadline that was set at the
reading `p`. -/
inductive Waited (r : UInt32) (W s p : ℤ) : List Event → Prop
  | panicked : DateTime.overflow ≤ s + Duration.seconds r.toNat →
      Waited r W s p [.wait, .now s]
  | started {rest : List Event} : s + Duration.seconds r.toNat < DateTime.overflow →
      Guarded W p rest → Waited r W s p (startEvents r s ++ rest)

theorem wait_waited (hsystemd : config.systemd = true)
    (hdog : config.watchdogMicroseconds = some dog) {r : UInt32}
    (hr : config.refreshSeconds = some r) (passes : ℕ) {ctx : Context ω}
    (h : ctx.nextWatchdog = some (p + watchdogTimeout dog)) :
    Waited r (watchdogTimeout dog) (env.now ctx.world).1 p
      (newEvents (wait config env passes) ctx) := by
  obtain ⟨new, hnew, hwaited⟩ : ∃ new,
      (finalState (wait config env passes) ctx).events = ctx.events ++ new ∧
      Waited r (watchdogTimeout dog) (env.now ctx.world).1 p new := by
    refine Triple.finalState (P := fun ctx' : Context ω => ∃ new,
      ctx'.events = ctx.events ++ new ∧ Waited r (watchdogTimeout dog) _ p new) ?_
    refine wait_started hr (fun ctx' hrange hevents => ⟨_, hevents, .panicked hrange⟩)
      fun refreshTimeout ctx₁ hrange hnext hstart => ?_
    have hguarded : Triple (loop .unfinished (waitPass config env refreshTimeout) passes) ctx₁
        (fun _ => GuardedFrom (watchdogTimeout dog) p ctx₁)
        fun _ => GuardedFrom (watchdogTimeout dog) p ctx₁ :=
      loop_guarded hsystemd hdog refreshTimeout passes (hnext.trans h)
    have hend (ctx' : Context ω) (h' : GuardedFrom (watchdogTimeout dog) p ctx₁ ctx') :
        ∃ new, ctx'.events = ctx.events ++ new ∧
          Waited r (watchdogTimeout dog) (env.now ctx.world).1 p new := by
      obtain ⟨rest, hrest, hguarded⟩ := h'
      exact ⟨_, by rw [hrest, hstart, List.append_assoc], .started hrange hguarded⟩
    exact hguarded.mono (fun _ => hend) fun _ => hend
  rwa [newEvents, hnew, List.drop_left]

private theorem alarms_startEvents (r : UInt32) (s : ℤ) :
    alarms "refresh".toList (startEvents r s) = [Duration.seconds r.toNat] ∧
      alarms "watchdog".toList (startEvents r s) = [] := by
  have hnone (desc : Text) : alarms desc [.wait, .now s] = [] := rfl
  constructor
  · rw [startEvents, alarms_append, hnone, alarms_after, List.nil_append]
  · rw [startEvents, alarms_append, hnone, alarms_after_ne watchdog_ne_refresh.symm,
      List.nil_append]

theorem Waited.inTime_iff {r : UInt32} {s : ℤ} {events : List Event}
    (h : Waited r (watchdogTimeout dog) s p events) : AlarmsInTime r dog events ↔
      s + Duration.seconds r.toNat < DateTime.overflow ∧
        NotSteppedBack (p :: (readings events).tail) := by
  cases h with
  | panicked hrange =>
    refine ⟨fun halarms => ?_, fun hin => by omega⟩
    have hnone : alarms "refresh".toList [.wait, .now s] = [] := rfl
    have hone := halarms.refresh
    rw [hnone] at hone
    cases hone
  | @started rest hrange hguarded =>
    obtain ⟨hrefresh, hwatchdog⟩ := alarms_startEvents r s
    have hreadings : (readings (startEvents r s ++ rest)).tail = readings rest := rfl
    have hrest : alarms "watchdog".toList (startEvents r s ++ rest) =
        alarms "watchdog".toList rest := by rw [alarms_append, hwatchdog, List.nil_append]
    rw [hreadings, ← hguarded.watchdog, ← hrest]
    constructor
    · intro h
      exact ⟨hrange, h.watchdog⟩
    · rintro ⟨-, hle⟩
      refine ⟨?_, hle, fun d hd => (hle d hd).trans (watchdogTimeout_le dog)⟩
      rw [alarms_append, hrefresh, hguarded.refresh, List.append_nil]

end

/-- Whatever the clock shows and however often a wait pings, its alarms are as long as they
should be if and only if the end of the refresh interval is a date and the clock was never
stepped back between the reading of a ping and the reading of the pass that follows it. -/
theorem alarmsInTime_iff {ω : Type} (config : Config) (env : Environment ω) (r : UInt32)
    (hr : config.refreshSeconds = some r) (hsystemd : config.systemd = true) (dog : UInt64)
    (hdog : config.watchdogMicroseconds = some dog) (status : Text) (passes : ℕ)
    (ctx ctx' : Context ω) (hping : notifyStatus config env status ctx = .ok () ctx') :
    AlarmsInTime r dog (newEvents (wait config env passes) ctx') ↔
      (env.now ctx'.world).1 + Duration.seconds r.toNat < DateTime.overflow ∧
        NotSteppedBack ((env.now ctx.world).1 ::
          (readings (newEvents (wait config env passes) ctx')).tail) := by
  have hdeadline : Triple (notifyStatus config env status) ctx
      (fun _ ctx' => ctx'.nextWatchdog = some ((env.now ctx.world).1 + watchdogTimeout dog))
      fun _ _ => True := notifyStatus_triple hsystemd hdog (fun _ => rfl) fun _ => trivial
  exact (wait_waited hsystemd hdog hr passes (hdeadline.of_ok hping)).inTime_iff

/-- A world that is the readings of the clock that are still to come. A wait is woken up by the
watchdog as long as there are any. -/
def scriptedEnvironment : Environment (List ℤ) where
  inspector := ⟨fun w names => ((.ok (), names), w), fun w name => (.error (.shiplift ⟨name⟩), w)⟩
  publisher := ⟨fun w _ => (.ok (), w)⟩
  now w := (w.headD 0, w.tail)
  notify w _ := (.ok (), w)
  poll w := (none, w)
  select w _ _ := (if w.isEmpty then .refresh else .watchdog, w)
  drain _ entries := entries
  drain_perm _ _ := .refl _
  debugEnabled := true

/-- The state in which the wait of an iteration starts. -/
def beforeWait (ts : List ℤ) : Context (List ℤ) :=
  { pinged scriptedEnvironment "Waiting".toList (start ts) with
    nextWatchdog := some (ts.headD 0 + watchdogTimeout 1000000) }

theorem beforeWait_ok (ts : List ℤ) (h : DatesInRange true 1000000 (ts.headD 0)) :
    notifyStatus watched scriptedEnvironment "Waiting".toList (start ts) =
      .ok () (beforeWait ts) := by
  rw [notifyStatus_eq rfl rfl]
  exact if_pos h

/-- Two pings, the second one after the clock was set forward by a minute. -/
def steppedForward : List ℤ :=
  [0, 0, 1000, Duration.seconds 60, Duration.seconds 60 + 1000, Duration.seconds 61,
    Duration.seconds 61 + 1000]

theorem alarmsInTime_iff_steppedForward : AlarmsInTime 2 1000000
    (newEvents (wait watched scriptedEnvironment 3) (beforeWait steppedForward)) :=
  (alarmsInTime_iff watched scriptedEnvironment 2 rfl rfl 1000000 rfl "Waiting".toList 3
    (start steppedForward) (beforeWait steppedForward) (beforeWait_ok _ (by decide))).mpr
    ⟨by decide +kernel, by decide +kernel⟩

/-- The clock is set back by an hour between the start of the wait and its first pass, which
arms the alarm of the watchdog for more than an hour. -/
theorem not_alarmsInTime_steppedBack :
    notifyStatus watched scriptedEnvironment "Waiting".toList
      (start [Duration.seconds 3600, Duration.seconds 3600, 0]) =
      .ok () (beforeWait [Duration.seconds 3600, Duration.seconds 3600, 0]) ∧
    ¬AlarmsInTime 2 1000000 (newEvents (wait watched scriptedEnvironment 3)
      (beforeWait [Duration.seconds 3600, Duration.seconds 3600, 0])) := by
  refine ⟨beforeWait_ok _ (by decide), fun h => ?_⟩
  have hlong : Duration.seconds 3600 + Duration.microseconds 450000 ≤
      Duration.microseconds 1000000 := h.interval _ (by decide +kernel)
  exact absurd hlong (by decide)

end Companion
end Beachhead
