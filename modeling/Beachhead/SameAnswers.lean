import Beachhead.Simulation
import Beachhead.WaitEvents

/-!
# Runs in environments that give the same answers

The program sees its environment only through the answers of its calls. Two environments
that act on different worlds but give the same answers in related worlds lead to runs that
make the same calls and have the same result. What is handled may differ by calls and errors
that one side leaves out, as long as nothing else depends on them.
-/
namespace Beachhead

def Event.isPublish : Event → Bool
  | .publish _ _ => true
  | _ => false

def CompanionError.isPublishing : CompanionError → Bool
  | .publishing _ => true
  | _ => false

namespace Companion
open Program

variable {ω τ : Type}

/-- The same answer, in worlds that are related again. -/
structure SameAnswer {α : Type} (S : ω → τ → Prop) (r : α × ω) (r' : α × τ) : Prop where
  answer : r.1 = r'.1
  world : S r.2 r'.2

/-- The same alarm, armed in related worlds. -/
inductive SameAlarm (S : ω → τ → Prop) : Receiver ω → Receiver τ → Prop where
  | closed : SameAlarm S .closed .closed
  | after {w : ω} {v : τ} (armed : S w v) (remaining : ℤ) :
      SameAlarm S (.after w remaining) (.after v remaining)
  | kept : SameAlarm S .kept .kept

/-- In related worlds every call gives the same answer. Publications are left open. -/
structure SameAnswers (S : ω → τ → Prop) (env : Environment ω) (env' : Environment τ) :
    Prop where
  now : ∀ w v, S w v → SameAnswer S (env.now w) (env'.now v)
  notify : ∀ w v entries, S w v → SameAnswer S (env.notify w entries) (env'.notify v entries)
  poll : ∀ w v, S w v → SameAnswer S (env.poll w) (env'.poll v)
  select : ∀ w v refresh refresh' watchdog watchdog', S w v → SameAlarm S refresh refresh' →
    SameAlarm S watchdog watchdog' →
    SameAnswer S (env.select w refresh watchdog) (env'.select v refresh' watchdog')
  enumerate : ∀ w v, S w v →
    SameAnswer S (env.inspector.enumerate w []) (env'.inspector.enumerate v [])
  inspect : ∀ w v name, S w v →
    SameAnswer S (env.inspector.inspect w name) (env'.inspector.inspect v name)
  drain : ∀ w v entries, S w v → env.drain w entries = env'.drain v entries
  debugEnabled : env.debugEnabled = env'.debugEnabled

/-- Related worlds, the same deadline, and the same calls but for those that are left out. -/
structure Mirrors (S : ω → τ → Prop) (seen : Event → Bool) (ctx : Context ω) (ctx' : Context τ) :
    Prop where
  world : S ctx.world ctx'.world
  nextWatchdog : ctx.nextWatchdog = ctx'.nextWatchdog
  events : ctx.events.filter seen = ctx'.events

/-- A result without the errors that do not count. -/
def counted (counts : CompanionError → Bool) :
    Except (List CompanionError) Unit → Except (List CompanionError) Unit
  | .ok () => .ok ()
  | .error errors =>
    if (errors.filter counts).isEmpty then .ok () else .error (errors.filter counts)

/-- The second result is the first one without the errors that do not count. A run never fails
without an error. -/
structure Reports (counts : CompanionError → Bool) (r r' : Except (List CompanionError) Unit) :
    Prop where
  counted : counted counts r = r'
  errors : r ≠ .error []

variable {S : ω → τ → Prop} {seen : Event → Bool} {counts : CompanionError → Bool}
  {env : Environment ω} {env' : Environment τ} {config : Config} {dry : Bool}

/-- If all errors count, the results are the same. -/
theorem Reports.eq {r r' : Except (List CompanionError) Unit}
    (h : Reports (fun _ => true) r r') : r = r' := by
  cases r with
  | ok u => exact h.counted
  | error errors =>
    have hcounted := h.counted
    have hnonempty : ¬errors.isEmpty = true := fun hnil =>
      h.errors (congrArg Except.error (List.isEmpty_iff.mp hnil))
    rwa [Companion.counted, List.filter_true, if_neg hnonempty] at hcounted

theorem Mirrors.record {ctx : Context ω} {ctx' : Context τ} (h : Mirrors S seen ctx ctx')
    {event : Event} (hseen : seen event = true) {w : ω} {v : τ} (hS : S w v) :
    Mirrors S seen (ctx.record event w) (ctx'.record event v) where
  world := hS
  nextWatchdog := h.nextWatchdog
  events := by
    have hevents := h.events
    simp only [Context.record, Context.note, Context.events, List.map_append, List.filter_append,
      List.map_cons, List.map_nil] at hevents ⊢
    rw [hevents, List.filter_cons_of_pos hseen, List.filter_nil]

private theorem Mirrors.note {ctx : Context ω} {ctx' : Context τ} (h : Mirrors S seen ctx ctx')
    {event : Event} (hseen : seen event = true) (before : ω) (before' : τ) :
    Mirrors S seen (ctx.note ⟨event, before, ctx.world⟩)
      (ctx'.note ⟨event, before', ctx'.world⟩) where
  world := h.world
  nextWatchdog := h.nextWatchdog
  events := by
    have hevents := h.events
    simp only [Context.note, Context.events, List.map_append, List.filter_append,
      List.map_cons, List.map_nil] at hevents ⊢
    rw [hevents, List.filter_cons_of_pos hseen, List.filter_nil]

theorem call_simulates {α : Type} {op : ω → α × ω} {op' : τ → α × τ} {event : α → Event}
    (hop : ∀ w v, S w v → SameAnswer S (op w) (op' v)) (hseen : ∀ a, seen (event a) = true) :
    Simulates (Mirrors S seen) Eq (call op event) (call op' event) := by
  intro ctx ctx' h
  obtain ⟨hanswer, hworld⟩ := hop _ _ h.world
  rw [call_eq, call_eq, ← hanswer]
  exact .ok rfl (h.record (hseen _) hworld)

theorem mark_simulates {event : Event} (hseen : seen event = true) :
    Simulates (Mirrors S seen) Eq (mark event) (mark event) :=
  call_simulates (fun _ _ h => ⟨rfl, h⟩) fun _ => hseen

theorem after_simulates (desc : Text) (remaining : ℤ)
    (hseen : seen (.after desc remaining) = true) :
    Simulates (Mirrors S seen) (SameAlarm S)
      (call (fun w : ω => (Receiver.after w remaining, w)) fun _ => .after desc remaining)
      (call (fun v : τ => (Receiver.after v remaining, v)) fun _ => .after desc remaining) := by
  intro ctx ctx' h
  exact .ok (.after h.world remaining) (h.record hseen h.world)

theorem setNextWatchdog_simulates (t : ℤ) :
    Simulates (Mirrors S seen) Eq (setNextWatchdog (ω := ω) t) (setNextWatchdog (ω := τ) t) :=
  fun _ _ h => .ok rfl ⟨h.world, rfl, h.events⟩

theorem addDuration_simulates (t d : ℤ) :
    Simulates (Mirrors S seen) Eq (addDuration (ω := ω) t d) (addDuration (ω := τ) t d) := by
  intro ctx ctx' h
  rw [addDuration_eq, addDuration_eq]
  split
  · exact .ok rfl h
  · exact .error _ h

theorem debugDeadlines_simulates (h : env.debugEnabled = env'.debugEnabled) (t : ℤ)
    (dog : UInt64) :
    Simulates (Mirrors S seen) Eq (debugDeadlines env t dog) (debugDeadlines env' t dog) := by
  rw [debugDeadlines, debugDeadlines, h]
  split
  · exact (addDuration_simulates _ _).bind fun _ _ _ =>
      (addDuration_simulates _ _).bind fun _ _ _ => Simulates.pure rfl
  · exact Simulates.pure rfl

/-- Everything but publications is seen. -/
def SeesRest (seen : Event → Bool) : Prop := ∀ e : Event, e.isPublish = false → seen e = true

theorem notify_simulates (h : SameAnswers S env env') (hseen : SeesRest seen)
    (entries : List (Text × Text)) : Simulates (Mirrors S seen)
      (fun r r' => r = r' ∧ ∃ result, r = Except.mapError .systemd result)
      (notify env entries) (notify env' entries) := by
  refine (call_simulates (fun w v hS => h.notify w v entries hS) fun _ => hseen _ rfl).bind ?_
  rintro result _ rfl
  exact Simulates.pure ⟨rfl, result, rfl⟩

theorem now_simulates (h : SameAnswers S env env') (hseen : SeesRest seen) :
    Simulates (Mirrors S seen) Eq (now env) (now env') :=
  call_simulates h.now fun _ => hseen _ rfl

theorem notifyStatus_simulates (h : SameAnswers S env env') (hseen : SeesRest seen)
    (status : Text) : Simulates (Mirrors S seen) Eq (notifyStatus config env status)
      (notifyStatus { config with dryRun := dry } env' status) := by
  rw [notifyStatus, notifyStatus]
  dsimp only
  split
  · refine (now_simulates h hseen).bind ?_
    rintro t _ rfl
    refine (notify_simulates h hseen _).bind fun _ _ _ => ?_
    cases config.watchdogMicroseconds with
    | none => exact Simulates.pure rfl
    | some dog =>
      refine (debugDeadlines_simulates h.debugEnabled t dog).bind fun _ _ _ => ?_
      refine (addDuration_simulates t _).bind ?_
      rintro deadline _ rfl
      exact setNextWatchdog_simulates deadline
  · exact Simulates.pure rfl

theorem new_simulates (h : SameAnswers S env env') (hseen : SeesRest seen) :
    Simulates (Mirrors S seen) Eq (new config env) (new { config with dryRun := dry } env') := by
  rw [new, new]
  split
  · refine (now_simulates h hseen).bind ?_
    rintro t _ rfl
    exact setNextWatchdog_simulates t
  · exact Simulates.pure rfl

theorem deadlineToAlarmClock_simulates (hseen : SeesRest seen) (t : ℤ) (deadline : Option ℤ)
    (desc : Text) : Simulates (Mirrors S seen) (SameAlarm S)
      (deadlineToAlarmClock (ω := ω) t deadline desc)
      (deadlineToAlarmClock (ω := τ) t deadline desc) := by
  cases deadline with
  | none => exact Simulates.pure .kept
  | some deadline =>
    rw [deadlineToAlarmClock, deadlineToAlarmClock]
    split
    · exact Simulates.pure .closed
    · have hstd : Simulates (Mirrors S seen) Eq (toStd (ω := ω) (deadline - t))
          (toStd (ω := τ) (deadline - t)) := by
        rw [toStd, toStd]
        split
        · exact Simulates.throw _
        · exact Simulates.pure rfl
      refine hstd.bind ?_
      rintro remaining _ rfl
      exact after_simulates desc remaining (hseen _ rfl)

variable (dry) in
theorem waitPass_simulates (h : SameAnswers S env env') (hseen : SeesRest seen)
    {refresh : Receiver ω} {refresh' : Receiver τ} (hrefresh : SameAlarm S refresh refresh') :
    Simulates (Mirrors S seen) (Option.Rel Eq) (waitPass config env refresh)
      (waitPass { config with dryRun := dry } env' refresh') := by
  rw [waitPass, waitPass]
  refine (mark_simulates (hseen _ rfl)).bind fun _ _ _ => ?_
  refine (call_simulates h.poll fun _ => hseen _ rfl).bind ?_
  rintro sig _ rfl
  cases sig with
  | some sig => exact Simulates.pure (.some rfl)
  | none =>
    refine (now_simulates h hseen).bind ?_
    rintro t _ rfl
    refine Simulates.get.bind fun ctx ctx' hctx => ?_
    rw [hctx.nextWatchdog]
    refine (deadlineToAlarmClock_simulates hseen _ _ _).bind fun watchdog watchdog' hdog => ?_
    refine (call_simulates (fun w v hS => h.select w v _ _ _ _ hS hrefresh hdog)
      fun _ => hseen _ rfl).bind ?_
    rintro wake _ rfl
    cases wake with
    | signal sig => exact Simulates.pure (.some rfl)
    | refresh => exact Simulates.pure (.some rfl)
    | watchdog => exact (notifyStatus_simulates h hseen _).bind fun _ _ _ => Simulates.pure .none

theorem wait_simulates (h : SameAnswers S env env') (hseen : SeesRest seen) (passes : ℕ) :
    Simulates (Mirrors S seen) Eq (wait config env passes)
      (wait { config with dryRun := dry } env' passes) := by
  rw [wait, wait]
  refine (mark_simulates (hseen _ rfl)).bind fun _ _ _ => ?_
  dsimp only
  cases config.refreshSeconds with
  | none => exact Simulates.pure rfl
  | some refreshSeconds =>
    refine (now_simulates h hseen).bind ?_
    rintro t _ rfl
    refine (addDuration_simulates t _).bind ?_
    rintro nextRefresh _ rfl
    refine (deadlineToAlarmClock_simulates hseen _ _ _).bind fun refresh refresh' hrefresh => ?_
    exact Simulates.loop (waitPass_simulates dry h hseen hrefresh) _ passes

theorem notifyStopping_simulates (h : SameAnswers S env env') (hseen : SeesRest seen) :
    Simulates (Mirrors S seen) Eq (notifyStopping config env)
      (notifyStopping { config with dryRun := dry } env') := by
  rw [notifyStopping, notifyStopping]
  split
  · exact (notify_simulates h hseen _).bind fun _ _ _ => Simulates.pure rfl
  · exact Simulates.pure rfl

private theorem reports_verdict (errors : List CompanionError) (refreshes : Bool) :
    Reports counts (if errors.isEmpty || refreshes then .ok () else .error errors)
      (if (errors.filter counts).isEmpty || refreshes then .ok ()
        else .error (errors.filter counts)) := by
  cases refreshes with
  | true =>
    rw [Bool.or_true, Bool.or_true, if_pos rfl, if_pos rfl]
    exact ⟨rfl, fun h => by cases h⟩
  | false =>
    rw [Bool.or_false, Bool.or_false]
    cases errors with
    | nil => exact ⟨rfl, fun h => by cases h⟩
    | cons e errors => exact ⟨by rw [if_neg (by simp), counted], fun h => by cases h⟩

private theorem leave_eq {α : Type} (c : Prop) [Decidable c] (a b : α) :
    (if c then pure (some a) else pure (some b) : CompanionM ω (Option α)) =
      pure (some (if c then a else b)) := by
  split
  · rfl
  · rfl

theorem endIteration_simulates (h : SameAnswers S env env') (hseen : SeesRest seen)
    (errors : List CompanionError) (passes : ℕ) :
    Simulates (Mirrors S seen) (Option.Rel (Reports counts))
      (endIteration config env errors passes)
      (endIteration { config with dryRun := dry } env' (errors.filter counts) passes) := by
  rw [endIteration, endIteration]
  refine (notifyStatus_simulates h hseen _).bind fun _ _ _ => ?_
  refine (wait_simulates h hseen passes).bind ?_
  rintro again _ rfl
  cases again with
  | true => exact Simulates.pure .none
  | false =>
    refine (notifyStopping_simulates h hseen).bind fun _ _ _ => ?_
    dsimp only
    rw [leave_eq, leave_eq]
    exact Simulates.pure (.some (reports_verdict errors _))

/-- Handling a container differs only by what is left out. -/
def SimulatesVisits (S : ω → τ → Prop) (seen : Event → Bool) (counts : CompanionError → Bool)
    (config : Config) (dry : Bool) (env : Environment ω) (env' : Environment τ) : Prop :=
  ∀ errors name, Simulates (Mirrors S seen) (fun errors errors' => errors.filter counts = errors')
    (refreshContainer config env errors name)
    (refreshContainer { config with dryRun := dry } env' (errors.filter counts) name)

theorem enumerate_simulates (h : SameAnswers S env env') (hseen : SeesRest seen)
    (explicit : List Text) : Simulates (Mirrors S seen)
      (fun r r' => r = r' ∧ ∃ result, r.2 = Except.mapError .inspection result)
      (enumerate config env explicit) (enumerate { config with dryRun := dry } env' explicit) := by
  have hadd (index : AList fun _ : Text => Pending Text) :
      Simulates (Mirrors S seen) Eq (addEnumerated config env index)
        (addEnumerated { config with dryRun := dry } env' index) := by
    rw [addEnumerated, addEnumerated]
    split
    · refine (call_simulates h.enumerate fun _ => hseen _ rfl).bind ?_
      rintro result _ rfl
      exact Simulates.pure rfl
    · exact Simulates.pure rfl
  have hdrain (index : AList fun _ : Text => Pending Text) :
      Simulates (Mirrors S seen) Eq (drain env index) (drain env' index) := by
    refine Simulates.get.bind fun ctx ctx' hctx => ?_
    rw [h.drain _ _ index.entries hctx.world]
    exact Simulates.pure rfl
  rw [enumerate, enumerate]
  refine (hadd _).bind ?_
  rintro r _ rfl
  refine (hdrain r.1).bind ?_
  rintro names _ rfl
  exact Simulates.pure ⟨rfl, r.2, rfl⟩

theorem refresh_simulates (h : SameAnswers S env env') (hseen : SeesRest seen)
    (hcounts : ∀ e : CompanionError, e.isPublishing = false → counts e = true)
    (hvisits : SimulatesVisits S seen counts config dry env env') (explicit : List Text) :
    Simulates (Mirrors S seen) (fun errors errors' => errors.filter counts = errors')
      (refresh config env explicit) (refresh { config with dryRun := dry } env' explicit) := by
  rw [refresh, refresh]
  refine (enumerate_simulates h hseen explicit).bind ?_
  rintro ⟨names, result⟩ _ ⟨rfl, asked, hasked⟩
  refine Simulates.foldlM (V := Eq) ?_ (List.forall₂_same.mpr fun _ _ => rfl) ?_
  · rintro errors _ name _ rfl rfl
    exact hvisits errors name
  · cases asked with
    | ok u =>
      obtain rfl : result = .ok u := hasked
      rfl
    | error e =>
      obtain rfl : result = .error (.inspection e) := hasked
      exact List.filter_cons_of_pos (hcounts _ rfl)

theorem iteration_simulates (h : SameAnswers S env env') (hseen : SeesRest seen)
    (hcounts : ∀ e : CompanionError, e.isPublishing = false → counts e = true)
    (hvisits : SimulatesVisits S seen counts config dry env env') (explicit : List Text)
    (passes : ℕ) : Simulates (Mirrors S seen) (Option.Rel (Reports counts))
      (iteration config env explicit passes)
      (iteration { config with dryRun := dry } env' explicit passes) := by
  have hwork : Simulates (Mirrors S seen) (fun errors errors' => errors.filter counts = errors')
      (span .work (refresh config env explicit))
      (span .work (refresh { config with dryRun := dry } env' explicit)) := by
    refine Simulates.get.bind fun before before' _ => ?_
    refine (refresh_simulates h hseen hcounts hvisits explicit).bind fun errors errors' he => ?_
    refine Simulates.bind (V := Eq) (fun ctx ctx' hctx => ?_) fun _ _ _ => Simulates.pure he
    exact .ok rfl (hctx.note (hseen _ rfl) _ _)
  refine (mark_simulates (hseen _ rfl)).bind fun _ _ _ => ?_
  refine (notifyStatus_simulates h hseen _).bind fun _ _ _ => ?_
  refine hwork.bind ?_
  rintro errors _ rfl
  exact endIteration_simulates h hseen errors passes

/-- A whole run differs only by what is left out. -/
theorem run_simulates (h : SameAnswers S env env') (hseen : SeesRest seen)
    (hcounts : ∀ e : CompanionError, e.isPublishing = false → counts e = true)
    (hvisits : SimulatesVisits S seen counts config dry env env') (explicit : List Text)
    (n passes : ℕ) : Simulates (Mirrors S seen) (Reports counts)
      (run config env explicit n passes)
      (run { config with dryRun := dry } env' explicit n passes) := by
  have hiterate : Simulates (Mirrors S seen) (Reports counts)
      (iterate config env explicit n passes)
      (iterate { config with dryRun := dry } env' explicit n passes) :=
    Simulates.loop (iteration_simulates h hseen hcounts hvisits explicit passes) _ n
  rw [run, run]
  refine (new_simulates h hseen).bind fun _ _ _ => ?_
  dsimp only
  split
  · refine (notify_simulates h hseen readyEntries).bind ?_
    rintro _ _ ⟨rfl, result, rfl⟩
    cases result with
    | ok u => exact hiterate
    | error err =>
      have hfilter : [CompanionError.systemd err].filter counts = [.systemd err] :=
        List.filter_cons_of_pos (hcounts _ rfl)
      exact Simulates.pure ⟨by rw [counted, hfilter]; rfl, fun h => by cases h⟩
  · exact hiterate

theorem inspectStep_mirrors (h : SameAnswers S env env') (hseen : SeesRest seen)
    {ctx : Context ω} {ctx' : Context τ} (hctx : Mirrors S seen ctx ctx') (name : Text) :
    (inspectStep env ctx name).1 = (inspectStep env' ctx' name).1 ∧
      Mirrors S seen (inspectStep env ctx name).2 (inspectStep env' ctx' name).2 := by
  obtain ⟨hanswer, hworld⟩ := h.inspect _ _ name hctx.world
  refine ⟨hanswer, ?_⟩
  rw [inspectStep, inspectStep, hanswer]
  exact hctx.record (hseen _ rfl) hworld

variable (config) in
private theorem visit_mirrors (h : SameAnswers S env env') (hseen : ∀ e, seen e = true)
    (hpublish : ∀ w v p, S w v →
      SameAnswer S (env.publisher.publish w p) (env'.publisher.publish v p))
    {ctx : Context ω} {ctx' : Context τ} (hctx : Mirrors S seen ctx ctx') (name : Pending Text) :
    (visit config env ctx name).1 = (visit config env' ctx' name).1 ∧
      Mirrors S seen (visit config env ctx name).2 (visit config env' ctx' name).2 := by
  obtain ⟨hanswer, hinspected⟩ := inspectStep_mirrors h (fun e _ => hseen e) hctx name.todo
  cases hp : publication? config (inspectStep env ctx name.todo).1 with
  | none =>
    rw [visit_none hp, visit_none (hanswer ▸ hp), hanswer]
    exact ⟨rfl, hinspected⟩
  | some p =>
    obtain ⟨hresult, hworld⟩ := hpublish _ _ p hinspected.world
    rw [visit_some hp, visit_some (hanswer ▸ hp), hanswer, publishStep, publishStep, hresult]
    exact ⟨rfl, hinspected.record (hseen _) hworld⟩

/-- In environments that give the same answers, also to publications, a run does the same. -/
theorem run_sameAnswers (h : SameAnswers S env env')
    (hpublish : ∀ w v p, S w v →
      SameAnswer S (env.publisher.publish w p) (env'.publisher.publish v p))
    (config : Config) (explicit : List Text) (n passes : ℕ) {w : ω} {v : τ} (hw : S w v) :
    SameEnd (Mirrors S fun _ => true) Eq (run config env explicit n passes (start w))
      (run config env' explicit n passes (start v)) := by
  have hvisits : SimulatesVisits S (fun _ => true) (fun _ => true) config config.dryRun env
      env' := by
    intro errors name ctx ctx' hctx
    obtain ⟨hvisit, hvisited⟩ := visit_mirrors config h (fun _ => rfl) hpublish hctx name
    rw [refreshContainer_eq, refreshContainer_eq, List.filter_true, ← hvisit]
    exact .ok (List.filter_true _) hvisited
  exact (run_simulates h (fun _ _ => rfl) (fun _ _ => rfl) hvisits explicit n passes _ _
    ⟨hw, rfl, rfl⟩).mono fun _ _ hr => hr.eq

end Companion
end Beachhead
