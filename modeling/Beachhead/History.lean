import Beachhead.Refresh

/-!
# The trace of a run

What holds along every call of a part of the program holds along that part. The
trace of a run falls into a part before the first iteration and one segment for
each iteration, and only the work of an iteration has calls about containers.
-/
namespace Beachhead.Companion
open Program

variable {ω : Type} {config : Config} {env : Environment ω}

/-- `R` holds along the calls of a status notification. -/
structure AlongPings (env : Environment ω) (R : Context ω → Context ω → Prop) : Prop where
  refl : Std.Refl R
  trans : IsTrans (Context ω) R
  now : Along R (now env)
  notify : ∀ entries, Along R (call (env.notify · entries) (.notify entries))
  setNextWatchdog : ∀ t, Along R (setNextWatchdog (ω := ω) t)

/-- `R` holds along the calls of the loop of `wait`. -/
structure AlongWaits (env : Environment ω) (R : Context ω → Context ω → Prop) : Prop
    extends AlongPings env R where
  wait : Along R (mark (ω := ω) .wait)
  waitPass : Along R (mark (ω := ω) .waitPass)
  poll : Along R (call env.poll .poll)
  after : ∀ desc remaining,
    Along R (call (fun w : ω => (Receiver.after w remaining, w)) fun _ => .after desc remaining)
  select : ∀ refresh watchdog, Along R (call (env.select · refresh watchdog) .woke)

/-- `R` holds along the calls of the work of an iteration. -/
structure AlongWork (env : Environment ω) (R : Context ω → Context ω → Prop) : Prop where
  refl : Std.Refl R
  trans : IsTrans (Context ω) R
  enumerate : Along R (call (env.inspector.enumerate · []) fun r => .enumerate r.2 r.1)
  inspect : ∀ name, Along R (call (env.inspector.inspect · name) (.inspect name))
  publish : ∀ publication,
    Along R (call (env.publisher.publish · publication) (.publish publication))

/-- `R` holds along the calls and the marks of a run. -/
structure AlongRun (env : Environment ω) (R : Context ω → Context ω → Prop) : Prop
    extends AlongWaits env R, AlongWork env R where
  iteration : Along R (mark (ω := ω) .iteration)
  work : ∀ ctx before, R ctx (ctx.note ⟨.work, before, ctx.world⟩)

/-- The world in which the initial notification is sent. -/
def readyWorld (config : Config) (env : Environment ω) (w : ω) : ω :=
  if config.watchdogMicroseconds.isSome then (env.now w).2 else w

/-- The initial notification fails. -/
def ReadyFails (config : Config) (env : Environment ω) (w : ω) (err : IoError) : Prop :=
  config.systemd = true ∧ (env.notify (readyWorld config env w) readyEntries).1 = .error err

section
variable {R : Context ω → Context ω → Prop}

theorem notify_along (h : AlongPings env R) (entries : List (Text × Text)) :
    Along R (notify env entries) :=
  have := h.refl
  have := h.trans
  (h.notify entries).bind fun _ => Along.pure _

theorem addDuration_along [Std.Refl R] (t : ℤ) (d : ℤ) :
    Along R (addDuration (ω := ω) t d) := by
  rw [addDuration]
  cases DateTime.add? t d with
  | some t' => exact Along.pure t'
  | none => exact Along.throw Stop.panic

theorem debugDeadlines_along [Std.Refl R] [IsTrans (Context ω) R] (t : ℤ) (dog : UInt64) :
    Along R (debugDeadlines env t dog) := by
  rw [debugDeadlines]
  split
  · exact (addDuration_along _ _).bind fun _ => (addDuration_along _ _).bind fun _ => Along.pure _
  · exact Along.pure _

theorem notifyStatus_along (h : AlongPings env R) (status : Text) :
    Along R (notifyStatus config env status) := by
  have := h.refl
  have := h.trans
  rw [notifyStatus]
  split
  · refine h.now.bind fun t => (notify_along h _).bind fun _ => ?_
    cases config.watchdogMicroseconds with
    | none => exact Along.pure _
    | some dog =>
      exact (debugDeadlines_along t dog).bind fun _ =>
        (addDuration_along t _).bind fun t' => h.setNextWatchdog t'
  · exact Along.pure _

theorem notifyStopping_along (h : AlongPings env R) : Along R (notifyStopping config env) := by
  have := h.refl
  have := h.trans
  rw [notifyStopping]
  split
  · exact (notify_along h _).bind fun _ => Along.pure _
  · exact Along.pure _

theorem new_along (h : AlongPings env R) : Along R (new config env) := by
  have := h.refl
  have := h.trans
  rw [new]
  split
  · exact h.now.bind fun t => h.setNextWatchdog t
  · exact Along.pure _

theorem deadlineToAlarmClock_along [Std.Refl R] [IsTrans (Context ω) R]
    (h : ∀ desc remaining, Along R
      (call (fun w : ω => (Receiver.after w remaining, w)) fun _ => .after desc remaining))
    (t : ℤ) (deadline : Option ℤ) (desc : Text) :
    Along R (deadlineToAlarmClock (ω := ω) t deadline desc) := by
  cases deadline with
  | none => exact Along.pure _
  | some deadline =>
    rw [deadlineToAlarmClock]
    split
    · exact Along.pure _
    · have hstd : Along R (toStd (ω := ω) (deadline - t)) := by
        rw [toStd]
        split
        · exact Along.throw _
        · exact Along.pure _
      exact hstd.bind fun remaining => h desc remaining

theorem waitPass_along (h : AlongWaits env R) (refreshTimeout : Receiver ω) :
    Along R (waitPass config env refreshTimeout) := by
  have := h.refl
  have := h.trans
  refine h.waitPass.bind fun _ => h.poll.bind fun sig => ?_
  cases sig with
  | some sig => exact Along.pure _
  | none =>
    refine h.now.bind fun t => Along.get.bind fun ctx => ?_
    refine (deadlineToAlarmClock_along h.after _ _ _).bind fun watchdogTimeout => ?_
    refine (h.select _ _).bind fun wake => ?_
    cases wake with
    | signal sig => exact Along.pure _
    | refresh => exact Along.pure _
    | watchdog => exact (notifyStatus_along h.toAlongPings _).bind fun _ => Along.pure _

theorem wait_along (h : AlongWaits env R) (passes : ℕ) : Along R (wait config env passes) := by
  have := h.refl
  have := h.trans
  refine h.wait.bind fun _ => ?_
  cases config.refreshSeconds with
  | none => exact Along.pure _
  | some refreshSeconds =>
    refine h.now.bind fun t => (addDuration_along _ _).bind fun nextRefresh => ?_
    refine (deadlineToAlarmClock_along h.after _ _ _).bind fun refreshTimeout => ?_
    exact Along.loop (waitPass_along h refreshTimeout) passes

/-- In refresh mode a wait is its loop, from a state in which only the alarm was armed. -/
theorem wait_triple [Std.Refl R] [IsTrans (Context ω) R] (hnow : Along R (now env))
    (hafter : ∀ desc remaining, Along R
      (call (fun w : ω => (Receiver.after w remaining, w)) fun _ => .after desc remaining))
    {r : UInt32} (hr : config.refreshSeconds = some r) {passes : ℕ} {ctx : Context ω}
    {Q : Bool → Context ω → Prop} {E : Stop → Context ω → Prop}
    (hpanic : ∀ e ctx', R (ctx.record .wait ctx.world) ctx' → E e ctx')
    (hloop : ∀ refreshTimeout ctx', R (ctx.record .wait ctx.world) ctx' →
      Triple (loop .unfinished (waitPass config env refreshTimeout) passes) ctx' Q E) :
    Triple (wait config env passes) ctx Q E := by
  have hmarked : mark .wait ctx = .ok () (ctx.record .wait ctx.world) := rfl
  rw [wait, hr]
  apply Triple.bind_ok hmarked
  refine Triple.bind ((hnow _).mono_error hpanic) fun t ctx₁ h₁ => ?_
  refine Triple.bind (((addDuration_along t _).after h₁).mono_error hpanic)
    fun nextRefresh ctx₂ h₂ => ?_
  exact Triple.bind (((deadlineToAlarmClock_along hafter _ _ _).after h₂).mono_error hpanic)
    fun refreshTimeout ctx₃ h₃ => hloop refreshTimeout ctx₃ h₃

theorem refreshContainer_along (h : AlongWork env R) (errors : List CompanionError)
    (name : Pending Text) : Along R (refreshContainer config env errors name) := by
  have := h.refl
  have := h.trans
  rw [refreshContainer]
  refine Along.bind ((h.inspect _).bind fun _ => Along.pure _) fun result => ?_
  cases result with
  | error e => exact Along.pure _
  | ok inspection =>
    dsimp only
    split
    · exact Along.pure _
    · split
      · exact Along.pure _
      · refine Along.bind ((h.publish _).bind fun _ => Along.pure _) fun result => ?_
        cases result with
        | error e => exact Along.pure _
        | ok u => exact Along.pure _

theorem refresh_along (h : AlongWork env R) (explicit : List Text) :
    Along R (refresh config env explicit) := by
  have := h.refl
  have := h.trans
  have hadd (index) : Along R (addEnumerated config env index) := by
    rw [addEnumerated]
    split
    · exact h.enumerate.bind fun _ => Along.pure _
    · exact Along.pure _
  have henum : Along R (enumerate config env explicit) :=
    (hadd _).bind fun r => (Along.get.bind fun _ => Along.pure _).bind fun _ => Along.pure _
  exact henum.bind fun r =>
    Along.foldlM _ (fun name errors => refreshContainer_along h errors name) _

theorem endIteration_along (h : AlongWaits env R) (errors : List CompanionError) (passes : ℕ) :
    Along R (endIteration config env errors passes) := by
  have := h.refl
  have := h.trans
  refine (notifyStatus_along h.toAlongPings _).bind fun _ => ?_
  refine (wait_along h passes).bind fun again => ?_
  split
  · exact Along.pure _
  · refine (notifyStopping_along h.toAlongPings).bind fun _ => ?_
    split
    · exact Along.pure _
    · exact Along.pure _

theorem new_ok (ctx : Context ω) :
    ∃ ctx', new config env ctx = .ok () ctx' ∧ ctx'.world = readyWorld config env ctx.world := by
  rw [new, readyWorld]
  split
  · exact ⟨_, rfl, rfl⟩
  · exact ⟨ctx, rfl, rfl⟩

variable (config) in
/-- A run fails with the initial notification, or it is its loop. -/
theorem run_cases (h : AlongPings env R) (explicit : List Text) (iterations passes : ℕ)
    (ctx : Context ω) :
    (∃ err ctx', ReadyFails config env ctx.world err ∧ R ctx ctx' ∧
      (∃ entry ∈ ctx'.trace, entry.event = .notify readyEntries (.error err)) ∧
      run config env explicit iterations passes ctx = .ok (.error [.systemd err]) ctx') ∨
    (∀ err, ¬ReadyFails config env ctx.world err) ∧ ∃ ctx', R ctx ctx' ∧
      run config env explicit iterations passes ctx =
        iterate config env explicit iterations passes ctx' := by
  have := h.trans
  obtain ⟨ctx', hctx', hworld⟩ : ∃ ctx', new config env ctx = .ok () ctx' ∧
    ctx'.world = readyWorld config env ctx.world := new_ok ctx
  have hnew : R ctx ctx' := (new_along h ctx).of_ok hctx'
  have hnotify : notify env readyEntries ctx' =
      .ok ((env.notify ctx'.world readyEntries).1.mapError .systemd)
        (ctx'.record (.notify readyEntries (env.notify ctx'.world readyEntries).1)
          (env.notify ctx'.world readyEntries).2) := rfl
  have hctx := ((notify_along h readyEntries).after hnew).of_ok hnotify
  rw [run, bind_ok hctx']
  by_cases hsystemd : config.systemd
  · rw [if_pos hsystemd, bind_ok hnotify]
    cases hresult : (env.notify ctx'.world readyEntries).1 with
    | error err =>
      rw [hresult] at hctx
      rw [hworld] at hresult
      exact .inl ⟨err, _, ⟨hsystemd, hresult⟩, hctx,
        ⟨_, List.mem_append_right _ (List.mem_singleton_self _), rfl⟩, rfl⟩
    | ok u =>
      rw [hresult] at hctx
      refine .inr ⟨fun err hfails => ?_, _, hctx, rfl⟩
      rw [hworld, hfails.2] at hresult
      cases hresult
  · rw [if_neg hsystemd]
    exact .inr ⟨fun err hfails => hsystemd hfails.1, ctx', hnew, rfl⟩

/-- A run is its loop, from a state that only the initial notification was sent in. -/
theorem run_triple (h : AlongPings env R) {explicit : List Text} {iterations passes : ℕ}
    {ctx : Context ω} {Q : Except (List CompanionError) Unit → Context ω → Prop}
    {E : Stop → Context ω → Prop}
    (hready : ∀ err ctx', R ctx ctx' →
      (∃ entry ∈ ctx'.trace, entry.event = .notify readyEntries (.error err)) →
      Q (.error [.systemd err]) ctx')
    (hloop : ∀ ctx', R ctx ctx' → Triple (iterate config env explicit iterations passes) ctx' Q E) :
    Triple (run config env explicit iterations passes) ctx Q E := by
  obtain ⟨err, ctx', -, hctx, hsent, hrun⟩ | ⟨-, ctx', hctx, hrun⟩ :=
    run_cases config h explicit iterations passes ctx
  · exact Triple.ok hrun (hready err ctx' hctx hsent)
  · rw [Triple, hrun]
    exact hloop ctx' hctx

end

theorem along_call {R : Context ω → Context ω → Prop} {α : Type} {op : ω → α × ω}
    {event : α → Event}
    (h : ∀ ctx, R ctx (ctx.record (event (op ctx.world).1) (op ctx.world).2)) :
    Along R (call op event) := h

/-- A relation that holds along every call that is not about containers. -/
theorem waits_of_record (env : Environment ω) {R : Context ω → Context ω → Prop} [Std.Refl R]
    [IsTrans (Context ω) R]
    (hset : ∀ (ctx : Context ω) (t : ℤ), R ctx { ctx with nextWatchdog := some t })
    (h : ∀ (ctx : Context ω) (event : Event) (w : ω), event.isIteration = false →
      event.isContainer = false → R ctx (ctx.record event w)) : AlongWaits env R where
  refl := inferInstance
  trans := inferInstance
  now := along_call fun ctx => h ctx _ _ rfl rfl
  notify _ := along_call fun ctx => h ctx _ _ rfl rfl
  setNextWatchdog t ctx := hset ctx t
  wait := along_call fun ctx => h ctx _ _ rfl rfl
  waitPass := along_call fun ctx => h ctx _ _ rfl rfl
  poll := along_call fun ctx => h ctx _ _ rfl rfl
  after _ _ := along_call fun ctx => h ctx _ _ rfl rfl
  select _ _ := along_call fun ctx => h ctx _ _ rfl rfl

/-- Refreshing the containers relates the context before to the context after. -/
theorem refreshed_along {R : Context ω → Context ω → Prop} (h : AlongWork env R)
    (explicit : List Text) (ctx : Context ω) : R ctx (refreshed config env explicit ctx) :=
  (refresh_along h explicit ctx).of_ok (refresh_eq explicit ctx)

theorem iteration_along {R : Context ω → Context ω → Prop} (h : AlongRun env R)
    (explicit : List Text) (passes : ℕ) : Along R (iteration config env explicit passes) := by
  have := h.refl
  have := h.trans
  have hwork : Along R (span .work (refresh config env explicit)) := fun ctx =>
    Triple.ok (work_eq explicit ctx)
      (IsTrans.trans _ _ _ (refreshed_along h.toAlongWork explicit ctx) (h.work _ _))
  exact h.iteration.bind fun _ => (notifyStatus_along h.toAlongPings _).bind fun _ =>
    hwork.bind fun errors => endIteration_along h.toAlongWaits errors passes

/-- A relation that holds along all calls relates the start of a run to its end. -/
theorem finalState_along {R : Context ω → Context ω → Prop} (config : Config) (h : AlongRun env R)
    (explicit : List Text) (n passes : ℕ) (w : ω) :
    R (start w) (finalState (run config env explicit n passes) (start w)) := by
  have := h.refl
  have := h.trans
  refine Triple.finalState (run_triple h.toAlongPings (fun _ _ hctx _ => hctx) fun _ hctx => ?_)
  exact (Along.loop (iteration_along h explicit passes) n).after hctx

/-- The trace only grows. -/
def Extends (ctx ctx' : Context ω) : Prop := ctx.trace <+: ctx'.trace

instance : Std.Refl (@Extends ω) := ⟨fun _ => List.prefix_rfl⟩

instance : IsTrans (Context ω) Extends := ⟨fun _ _ _ => List.IsPrefix.trans⟩

private theorem extends_note (ctx : Context ω) (entry : Entry ω) : Extends ctx (ctx.note entry) :=
  List.prefix_append _ _

theorem extends_record (ctx : Context ω) (event : Event) (w : ω) :
    Extends ctx (ctx.record event w) := List.prefix_append _ _

theorem extends_waits (env : Environment ω) : AlongWaits env Extends :=
  waits_of_record env (fun _ _ => List.prefix_rfl) fun ctx event w _ _ => extends_record ctx event w

private theorem extends_work (env : Environment ω) : AlongWork env Extends where
  refl := inferInstance
  trans := inferInstance
  enumerate := along_call fun ctx => extends_record ctx _ _
  inspect _ := along_call fun ctx => extends_record ctx _ _
  publish _ := along_call fun ctx => extends_record ctx _ _

theorem extends_run (env : Environment ω) : AlongRun env Extends where
  __ := extends_waits env
  __ := extends_work env
  iteration := along_call fun ctx => extends_record ctx _ _
  work ctx _ := extends_note ctx _

/-- An iteration is its first notification, its work and its end. -/
theorem iteration_triple {explicit : List Text} {passes : ℕ} {ctx : Context ω}
    {Q : Option (Except (List CompanionError) Unit) → Context ω → Prop}
    {M : Context ω → Prop} {E : Stop → Context ω → Prop}
    (hstart : Triple (notifyStatus config env "Refreshing".toList)
      (ctx.record .iteration ctx.world) (fun _ => M) E)
    (hend : ∀ ctx₁, M ctx₁ →
      Triple (endIteration config env (workErrors config env explicit ctx₁) passes)
        (worked config env explicit ctx₁) Q E) :
    Triple (iteration config env explicit passes) ctx Q E := by
  refine Triple.bind_ok (a := ()) rfl (hstart.bind fun _ ctx₁ h₁ => ?_)
  exact Triple.bind_ok (work_eq explicit ctx₁) (hend ctx₁ h₁)

/-- The context after a status notification was sent. -/
def pinged (env : Environment ω) (status : Text) (ctx : Context ω) : Context ω :=
  let t := env.now ctx.world
  let r := env.notify t.2 (aliveEntries status)
  (ctx.record (.now t.1) t.2).record (.notify (aliveEntries status) r.1) r.2

/-- The context after a pass of the loop of `wait` asked for signals. -/
def polled (env : Environment ω) (ctx : Context ω) : Context ω :=
  (ctx.record .waitPass ctx.world).record (.poll (env.poll ctx.world).1) (env.poll ctx.world).2

theorem poll_eq (ctx : Context ω) : call env.poll .poll (ctx.record .waitPass ctx.world) =
    .ok (env.poll ctx.world).1 (polled env ctx) := rfl

/-- With a watchdog a status notification ends in the panic of a date addition, or
sets the next deadline. -/
inductive PingOutcome (config : Config) (env : Environment ω) (status : Text) (ctx : Context ω) :
    EStateM.Result Stop (Context ω) Unit → Prop
  | silent : config.systemd = false → PingOutcome config env status ctx (.ok () ctx)
  | unwatched : config.systemd = true → config.watchdogMicroseconds = none →
      PingOutcome config env status ctx (.ok () (pinged env status ctx))
  | panicked : config.systemd = true → config.watchdogMicroseconds.isSome →
      PingOutcome config env status ctx (.error .panic (pinged env status ctx))
  | watched (dog : UInt64) : config.systemd = true → config.watchdogMicroseconds = some dog →
      PingOutcome config env status ctx (.ok ()
        { pinged env status ctx with
          nextWatchdog := some ((env.now ctx.world).1 + watchdogTimeout dog) })

theorem addDuration_eq (t : ℤ) (d : ℤ) (ctx : Context ω) : addDuration t d ctx =
    if t + d < DateTime.overflow then .ok (t + d) ctx else .error .panic ctx := by
  rw [addDuration, DateTime.add?]
  split
  · rfl
  · rfl

theorem addDuration_ok {t d : ℤ} (h : t + d < DateTime.overflow) (ctx : Context ω) :
    addDuration t d ctx = .ok (t + d) ctx := by rw [addDuration_eq, if_pos h]

theorem addDuration_panic {t d : ℤ} (h : ¬t + d < DateTime.overflow) (ctx : Context ω) :
    addDuration t d ctx = .error .panic ctx := by rw [addDuration_eq, if_neg h]

theorem watchdogTimeout_le (dog : UInt64) :
    watchdogTimeout dog ≤ Duration.microseconds dog.toNat := by
  rw [watchdogTimeout, Duration.microseconds, Duration.microseconds]
  omega

/-- The dates that a status notification computes at the reading `t` are in range. -/
def DatesInRange (debugEnabled : Bool) (dog : UInt64) (t : ℤ) : Prop :=
  (debugEnabled = true →
    t + Duration.microseconds (min dog.toNat (2 ^ 63 - 1)) < DateTime.overflow) ∧
  t + watchdogTimeout dog < DateTime.overflow

instance (debugEnabled : Bool) (dog : UInt64) (t : ℤ) :
    Decidable (DatesInRange debugEnabled dog t) := inferInstanceAs (Decidable (_ ∧ _))

private theorem le_of_not_datesInRange {debugEnabled : Bool} {dog : UInt64} {t : ℤ}
    (h : ¬DatesInRange debugEnabled dog t) :
    DateTime.overflow ≤ t + Duration.microseconds dog.toNat := by
  have htimeout : watchdogTimeout dog ≤ Duration.microseconds dog.toNat := watchdogTimeout_le dog
  have hclamped : Duration.microseconds (min dog.toNat (2 ^ 63 - 1)) ≤
      Duration.microseconds dog.toNat := by
    rw [Duration.microseconds, Duration.microseconds]
    omega
  rw [DatesInRange, not_and_or] at h
  obtain h | h := h
  · have hrange := (Classical.not_imp.mp h).2
    omega
  · omega

private theorem debugDeadlines_ok {t : ℤ} {dog : UInt64} (h : DatesInRange env.debugEnabled dog t)
    (ctx : Context ω) : debugDeadlines env t dog ctx = .ok () ctx := by
  rw [debugDeadlines]
  split
  · rw [bind_ok (addDuration_ok (h.1 ‹_›) ctx), bind_ok (addDuration_ok h.2 ctx)]
    rfl
  · rfl

private theorem debugDeadlines_panic {t : ℤ} {dog : UInt64} (hdebug : env.debugEnabled = true)
    (h : ¬DatesInRange env.debugEnabled dog t) (ctx : Context ω) :
    debugDeadlines env t dog ctx = .error .panic ctx := by
  rw [debugDeadlines, if_pos hdebug]
  by_cases hmessage :
    t + Duration.microseconds (min dog.toNat (2 ^ 63 - 1)) < DateTime.overflow
  · rw [bind_ok (addDuration_ok hmessage ctx),
      bind_error (addDuration_panic (fun htimeout => h ⟨fun _ => hmessage, htimeout⟩) ctx)]
  · rw [bind_error (addDuration_panic hmessage ctx)]

/-- The next deadline is set, or one of the date additions panics. -/
theorem resetDeadline_eq (t : ℤ) (dog : UInt64) (ctx : Context ω) :
    (do debugDeadlines env t dog
        setNextWatchdog (← addDuration t (watchdogTimeout dog)) : CompanionM ω Unit) ctx =
      if DatesInRange env.debugEnabled dog t then
        .ok () { ctx with nextWatchdog := some (t + watchdogTimeout dog) }
      else .error .panic ctx := by
  by_cases h : DatesInRange env.debugEnabled dog t
  · rw [if_pos h, bind_ok (debugDeadlines_ok h ctx), bind_ok (addDuration_ok h.2 ctx)]
    rfl
  · rw [if_neg h]
    by_cases hdebug : env.debugEnabled = true
    · exact bind_error (debugDeadlines_panic hdebug h ctx)
    · have hsilent : debugDeadlines env t dog ctx = .ok () ctx := by
        rw [debugDeadlines, if_neg hdebug]
        rfl
      have htimeout : ¬t + watchdogTimeout dog < DateTime.overflow :=
        fun htimeout => h ⟨fun hon => absurd hon hdebug, htimeout⟩
      rw [bind_ok hsilent, bind_error (addDuration_panic htimeout ctx)]

/-- With a watchdog a status notification sets the next deadline, or it panics. -/
theorem notifyStatus_eq {dog : UInt64} (hsystemd : config.systemd = true)
    (hdog : config.watchdogMicroseconds = some dog) (status : Text) (ctx : Context ω) :
    notifyStatus config env status ctx =
      if DatesInRange env.debugEnabled dog (env.now ctx.world).1 then
        .ok () { pinged env status ctx with
          nextWatchdog := some ((env.now ctx.world).1 + watchdogTimeout dog) }
      else .error .panic (pinged env status ctx) := by
  have hnow : now env ctx = .ok (env.now ctx.world).1
      (ctx.record (.now (env.now ctx.world).1) (env.now ctx.world).2) := rfl
  have hnotify : notify env (aliveEntries status)
      (ctx.record (.now (env.now ctx.world).1) (env.now ctx.world).2) =
      .ok _ (pinged env status ctx) := rfl
  rw [notifyStatus, if_pos hsystemd, bind_ok hnow, bind_ok hnotify, hdog]
  exact resetDeadline_eq _ _ _

theorem notifyStatus_triple {dog : UInt64} (hsystemd : config.systemd = true)
    (hdog : config.watchdogMicroseconds = some dog) {status : Text} {ctx : Context ω}
    {Q : Unit → Context ω → Prop} {E : Stop → Context ω → Prop}
    (hset : DatesInRange env.debugEnabled dog (env.now ctx.world).1 →
      Q () { pinged env status ctx with
        nextWatchdog := some ((env.now ctx.world).1 + watchdogTimeout dog) })
    (hpanic : ¬DatesInRange env.debugEnabled dog (env.now ctx.world).1 →
      E .panic (pinged env status ctx)) : Triple (notifyStatus config env status) ctx Q E := by
  by_cases h : DatesInRange env.debugEnabled dog (env.now ctx.world).1
  · exact Triple.ok (by rw [notifyStatus_eq hsystemd hdog, if_pos h]) (hset h)
  · exact Triple.error (by rw [notifyStatus_eq hsystemd hdog, if_neg h]) (hpanic h)

theorem notifyStatus_outcome (status : Text) (ctx : Context ω) :
    PingOutcome config env status ctx (notifyStatus config env status ctx) := by
  by_cases hsystemd : config.systemd
  · cases hdog : config.watchdogMicroseconds with
    | none =>
      have hpinged : notifyStatus config env status ctx = .ok () (pinged env status ctx) := by
        rw [notifyStatus, if_pos hsystemd, hdog]
        rfl
      rw [hpinged]
      exact .unwatched hsystemd hdog
    | some dog =>
      rw [notifyStatus_eq hsystemd hdog]
      split
      · exact .watched dog hsystemd hdog
      · exact .panicked hsystemd (by simp [hdog])
  · rw [notifyStatus, if_neg hsystemd]
    exact .silent (by simpa using hsystemd)

/-- The clock showed a time from which the interval of the watchdog leads out of the range
of dates. -/
def OutOfRange (config : Config) (ctx : Context ω) : Prop :=
  config.systemd = true ∧ ∃ dog, config.watchdogMicroseconds = some dog ∧
    ∃ E ∈ ctx.trace, ∃ t, E.event = .now t ∧
      DateTime.overflow ≤ t + Duration.microseconds dog.toNat

/-- Only the panic of a date addition ends a status notification early. -/
theorem notifyStatus_panic (status : Text) (ctx : Context ω) :
    Triple (notifyStatus config env status) ctx (fun _ _ => True)
      fun e ctx' => e = .panic ∧ OutOfRange config ctx' := by
  have h : PingOutcome config env status ctx (notifyStatus config env status ctx) :=
    notifyStatus_outcome status ctx
  unfold Triple
  generalize hresult : notifyStatus config env status ctx = result at h ⊢
  cases h with
  | silent => trivial
  | unwatched => trivial
  | panicked hsystemd hdog =>
    obtain ⟨dog, hdog⟩ := Option.isSome_iff_exists.mp hdog
    rw [notifyStatus_eq hsystemd hdog] at hresult
    split at hresult
    · cases hresult
    · have hreading : ⟨.now (env.now ctx.world).1, ctx.world, (env.now ctx.world).2⟩ ∈
          (pinged env status ctx).trace :=
        List.mem_append_left _ (List.mem_append_right _ List.mem_cons_self)
      exact ⟨rfl, hsystemd, dog, hdog, _, hreading, _, rfl, le_of_not_datesInRange ‹_›⟩
  | watched => trivial

/-- No iteration starts and no container is handled. -/
def Quiet (ctx ctx' : Context ω) : Prop :=
  ∃ new, ctx'.trace = ctx.trace ++ new ∧
    ∀ E ∈ new, E.event.isIteration = false ∧ E.event.isContainer = false

theorem Quiet.refl (ctx : Context ω) : Quiet ctx ctx := ⟨[], by simp⟩

theorem Quiet.trans {ctx ctx' ctx'' : Context ω} (h : Quiet ctx ctx') (h' : Quiet ctx' ctx'') :
    Quiet ctx ctx'' := by
  obtain ⟨new, htrace, hnew⟩ := h
  obtain ⟨new', htrace', hnew'⟩ := h'
  refine ⟨new ++ new', by rw [htrace', htrace, List.append_assoc], ?_⟩
  exact List.forall_mem_append.mpr ⟨hnew, hnew'⟩

theorem Quiet.grows {ctx ctx' : Context ω} (h : Quiet ctx ctx') : Extends ctx ctx' := by
  obtain ⟨new, htrace, -⟩ := h
  exact ⟨new, htrace.symm⟩

theorem quiet_record (ctx : Context ω) (w : ω) {event : Event} (h : event.isIteration = false)
    (h' : event.isContainer = false) : Quiet ctx (ctx.record event w) :=
  ⟨[⟨event, ctx.world, w⟩], rfl, by simp [h, h']⟩

instance : Std.Refl (@Quiet ω) := ⟨Quiet.refl⟩

instance : IsTrans (Context ω) Quiet := ⟨fun _ _ _ => Quiet.trans⟩

theorem quiet_waits (env : Environment ω) : AlongWaits env Quiet :=
  waits_of_record env (fun ctx _ => Quiet.refl ctx)
    fun ctx _ w hiteration hcontainer => quiet_record ctx w hiteration hcontainer

theorem notifyStatus_quiet (status : Text) (ctx : Context ω) :
    Triple (notifyStatus config env status) ctx (fun _ => Quiet ctx)
      fun e ctx' => Quiet ctx ctx' ∧ e = .panic ∧ OutOfRange config ctx' :=
  ((notifyStatus_along (quiet_waits env).toAlongPings status ctx).and
    (notifyStatus_panic status ctx)).mono (fun _ _ h => h.1) fun _ _ h => h

/-- What holds before the first iteration and is kept by every iteration holds of the run. -/
theorem run_invariant {I : Context ω → Prop} {explicit : List Text} {n passes : ℕ} {w : ω}
    (hstart : ∀ ctx, Quiet (start w) ctx → I ctx)
    (hiteration : ∀ ctx, I ctx →
      Triple (iteration config env explicit passes) ctx (fun _ => I) fun _ => I) :
    Triple (run config env explicit n passes) (start w) (fun _ => I) fun _ => I :=
  run_triple (quiet_waits env).toAlongPings (fun _ ctx hquiet _ => hstart ctx hquiet)
    fun ctx hquiet => Triple.loop_invariant hiteration n (hstart ctx hquiet)

/-- The entries of each iteration, without the one that starts it. -/
def iterations (trace : List (Entry ω)) : List (List (Entry ω)) :=
  (trace.splitOnP fun E => E.event.isIteration).tail

theorem iterations_append {trace body : List (Entry ω)} {m : Entry ω}
    (hm : m.event.isIteration = true) (hbody : ∀ E ∈ body, E.event.isIteration = false) :
    iterations (trace ++ m :: body) = iterations trace ++ [body] := by
  rw [iterations, List.splitOnP_append_cons (p := fun E : Entry ω => E.event.isIteration) _ _ hm,
    List.splitOnP_eq_singleton hbody, List.tail_append_of_ne_nil (List.splitOnP_ne_nil _ _),
    iterations]

theorem iterations_eq_nil {trace : List (Entry ω)}
    (h : ∀ E ∈ trace, E.event.isIteration = false) : iterations trace = [] := by
  rw [iterations, List.splitOnP_eq_singleton h, List.tail_cons]

def containerEvents (entries : List (Entry ω)) : List Event :=
  (entries.map Entry.event).filter Event.isContainer

theorem containerEvents_append (entries entries' : List (Entry ω)) :
    containerEvents (entries ++ entries') =
      containerEvents entries ++ containerEvents entries' := by
  rw [containerEvents, List.map_append, List.filter_append, containerEvents, containerEvents]

theorem containerEvents_quiet {entries : List (Entry ω)}
    (h : ∀ E ∈ entries, E.event.isContainer = false) : containerEvents entries = [] := by
  simpa [containerEvents] using h

theorem Quiet.containerEvents {ctx ctx' : Context ω} (h : Quiet ctx ctx') :
    Companion.containerEvents ctx'.trace = Companion.containerEvents ctx.trace := by
  obtain ⟨new, htrace, hnew⟩ := h
  rw [htrace, containerEvents_append, containerEvents_quiet fun E hE => (hnew E hE).2,
    List.append_nil]

private theorem Asked.events_isContainer (asked : Asked) :
    ∀ e ∈ asked.events, e.isContainer = true ∧ e.isIteration = false := by
  cases asked with
  | none => simp [Asked.events]
  | some a => simp [Asked.events, Event.isContainer, Event.isIteration]

private theorem Visit.events_isContainer (v : Visit) :
    ∀ e ∈ v.events, e.isContainer = true ∧ e.isIteration = false := by
  cases h : v.published with
  | none => simp [Visit.events, h, Event.isContainer, Event.isIteration]
  | some p => simp [Visit.events, h, Event.isContainer, Event.isIteration]

/-- The calls that the work of an iteration adds to the trace. -/
theorem refreshed_new (explicit : List Text) (ctx : Context ω) :
    ∃ new, (refreshed config env explicit ctx).trace = ctx.trace ++ new ∧
      new.map Entry.event = (askStep config env ctx).1.events ++
        (visits config env explicit ctx).flatMap Visit.events := by
  obtain ⟨new, hnew⟩ : Extends ctx (refreshed config env explicit ctx) :=
    refreshed_along (extends_work env) explicit ctx
  refine ⟨new, hnew.symm, ?_⟩
  rw [← List.append_right_inj (ctx.trace.map Entry.event), ← refreshed_events, ← hnew,
    List.map_append]

private theorem work_isContainer (explicit : List Text) (ctx : Context ω) :
    ∀ e ∈ (askStep config env ctx).1.events ++
      (visits config env explicit ctx).flatMap Visit.events,
      e.isContainer = true ∧ e.isIteration = false := by
  intro e he
  obtain he | he := List.mem_append.mp he
  · exact Asked.events_isContainer _ e he
  · obtain ⟨v, -, hv⟩ := List.mem_flatMap.mp he
    exact v.events_isContainer e hv

variable (config env) in
/-- No iteration starts in the work of an iteration, whose calls are all about containers. -/
theorem worked_new (explicit : List Text) (ctx : Context ω) :
    ∃ new, (worked config env explicit ctx).trace = ctx.trace ++ new ∧
      (∀ E ∈ new, E.event.isIteration = false) ∧
      containerEvents new = (askStep config env ctx).1.events ++
        (visits config env explicit ctx).flatMap Visit.events := by
  obtain ⟨new, hnew, hevents⟩ : ∃ new, (refreshed config env explicit ctx).trace =
      ctx.trace ++ new ∧ new.map Entry.event = (askStep config env ctx).1.events ++
        (visits config env explicit ctx).flatMap Visit.events := refreshed_new explicit ctx
  have hwork : ∀ e ∈ new.map Entry.event, e.isContainer = true ∧ e.isIteration = false := by
    rw [hevents]
    exact work_isContainer explicit ctx
  have hcalls : containerEvents new = new.map Entry.event :=
    List.filter_eq_self.mpr fun e he => (hwork e he).1
  refine ⟨new ++ [⟨.work, ctx.world, (refreshed config env explicit ctx).world⟩],
    by simp [worked, Context.note, hnew], List.forall_mem_append.mpr ⟨fun E hE => ?_, ?_⟩, ?_⟩
  · exact (hwork _ (List.mem_map_of_mem hE)).2
  · simp [Event.isIteration]
  · have hlast (before after : ω) : containerEvents [⟨.work, before, after⟩] = [] := rfl
    rw [containerEvents_append, hlast, hcalls, hevents, List.append_nil]

end Beachhead.Companion
