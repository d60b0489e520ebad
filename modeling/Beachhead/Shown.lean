import Beachhead.Convergence
import Beachhead.Logging
import Beachhead.RunErrors

/-!
# What the log shows of a run

The lines about a container say what came of its visit. What a filter at the level of warnings
lets pass are the errors that count, one line for each, and failures to reach the service
manager. Two errors are not among them: a failed enumeration, which only the debug output
shows, and a failed initial notification, which the run returns without a line.
-/
namespace Beachhead
open Companion

/-- The errors that a call leads to, but for a failed enumeration and a failed initial
notification. -/
def Event.failures (config : Config) (explicit : List Text) : Event → List CompanionError
  | .notify entries (.error e) => if entries = readyEntries then [] else [.systemd e]
  | .inspect name (.error e) =>
    if considerError config (explicit.contains name) then [.inspection e] else []
  | .inspect name (.ok inspection) =>
    if inspection.envvarPresent then []
    else if envVarError config (explicit.contains name) then [.envVarMissing name config.envvar]
    else []
  | .publish _ (.error e) => [.publishing e]
  | _ => []

/-- What the container asks to be published. -/
def Event.request? : Event → Option (Text × Publication)
  | .inspect name (.ok inspection) =>
    if inspection.envvarPresent then some (name, ⟨inspection.host, inspection.specs⟩) else none
  | _ => none

end Beachhead

namespace Beachhead.Companion
open Program

variable {ω : Type} {config : Config} {env : Environment ω}

/-- The lines about one container. -/
def Visit.lines (config : Config) (v : Visit) : List LogLine :=
  .inspecting v.name.todo :: match v.inspected with
    | .error e =>
      [.notInspected (Logged.inspectionLevel config v.name.explicit) v.name.todo (.inspection e)]
    | .ok inspection =>
      if !inspection.envvarPresent then
        [.envVarNotFound (Logged.envVarLevel config v.name.explicit) config.envvar v.name.todo]
      else if config.dryRun then [.wouldUpdate v.name.todo ⟨inspection.host, inspection.specs⟩]
      else .updating v.name.todo ⟨inspection.host, inspection.specs⟩ :: match v.published with
        | some (_, .error e) => [.notPublished v.name.todo (.publishing e)]
        | _ => []

/-- The lines about what the inspector was asked. -/
def Asked.lines : Asked → List LogLine
  | none => []
  | some (_, .error e) => [.enumerating, .enumerationFailed e]
  | some (_, .ok ()) => [.enumerating]

private theorem log_bind {α : Type} (line : LogLine) (f : Unit → LoggedM ω α) (ctx : Context ω)
    (lines : List LogLine) : (log line >>= f) (ctx, lines) = f () (ctx, lines ++ [line]) := rfl

/-- Refreshing a container writes the lines about its visit. -/
theorem refreshContainer_lines (errors : List CompanionError) (name : Pending Text)
    (ctx : Context ω) (lines : List LogLine) :
    Logged.refreshContainer config env errors name (ctx, lines) =
      .ok (errors ++ (visit config env ctx name).1.errors config)
        ((visit config env ctx name).2, lines ++ (visit config env ctx name).1.lines config) := by
  rw [Logged.refreshContainer, log_bind, bind_ok (silent_ok (inspect_eq name ctx) _)]
  cases hr : (inspectStep env ctx name.todo).1 with
  | error e =>
    rw [visit_none (by rw [hr]; rfl)]
    by_cases hc : considerError config name.explicit
    · simp [Visit.errors, Visit.lines, hr, Except.map, Except.mapError, hc, log_bind, pure,
        EStateM.pure]
    · simp [Visit.errors, Visit.lines, hr, Except.map, Except.mapError, hc, log_bind, pure,
        EStateM.pure]
  | ok inspection =>
    by_cases hpresent : inspection.envvarPresent
    · by_cases hdry : config.dryRun
      · rw [visit_none (by simp [hr, publication?, hdry])]
        simp [Visit.errors, Visit.lines, hr, Except.map, Except.mapError, hpresent, hdry, log_bind,
          toPublication, pure, EStateM.pure]
      · have hp : publication? config (inspectStep env ctx name.todo).1 =
            some ⟨inspection.host, inspection.specs⟩ := by simp [hr, publication?, hpresent, hdry]
        rw [visit_some hp]
        simp only [Except.map, Except.mapError, hpresent, Bool.not_true, Bool.false_eq_true,
          if_false, hdry, log_bind, bind_ok (silent_ok (publish_eq _ _) _), toPublication,
          Visit.errors, Visit.lines, hr, if_true]
        cases (publishStep env (inspectStep env ctx name.todo).2
          ⟨inspection.host, inspection.specs⟩).1 with
        | error e => simp [log_bind, pure, EStateM.pure]
        | ok u => simp [pure, EStateM.pure]
    · rw [visit_none (by simp [hr, publication?, hpresent])]
      by_cases hc : envVarError config name.explicit
      · simp [Visit.errors, Visit.lines, hr, Except.map, Except.mapError, hpresent, hc, log_bind,
          pure, EStateM.pure]
      · simp [Visit.errors, Visit.lines, hr, Except.map, Except.mapError, hpresent, hc, log_bind,
          pure, EStateM.pure]

theorem foldlM_refreshContainer_lines (names : List (Pending Text)) (errors : List CompanionError)
    (ctx : Context ω) (lines : List LogLine) :
    names.foldlM (Logged.refreshContainer config env) errors (ctx, lines) =
      .ok (errors ++ (visitAll config env ctx names).1.flatMap (Visit.errors config))
        ((visitAll config env ctx names).2,
          lines ++ (visitAll config env ctx names).1.flatMap (Visit.lines config)) := by
  induction names generalizing errors ctx lines with
  | nil => simp [visitAll, pure, EStateM.pure]
  | cons name names ih =>
    rw [List.foldlM_cons, bind_ok (refreshContainer_lines errors name ctx lines), ih, visitAll,
      List.flatMap_cons, List.flatMap_cons, List.append_assoc, List.append_assoc]

theorem enumerate_lines (explicit : List Text) (ctx : Context ω) (lines : List LogLine) :
    Logged.enumerate config env explicit (ctx, lines) =
      .ok (processed config env explicit ctx,
          (askStep config env ctx).1.result.mapError .inspection)
        ((askStep config env ctx).2, lines ++ (askStep config env ctx).1.lines) := by
  have hadd (index : AList fun _ : Text => Pending Text) :
      Logged.addEnumerated config env index (ctx, lines) =
        .ok ((askStep config env ctx).1.names.foldl orInsertEnumerated index,
            (askStep config env ctx).1.result)
          ((askStep config env ctx).2, lines ++ (askStep config env ctx).1.lines) := by
    rw [Logged.addEnumerated, askStep]
    by_cases hconfig : config.enumerate
    · rw [if_pos hconfig, if_pos hconfig, log_bind]
      rw [bind_ok (silent_ok
        (call_eq (env.inspector.enumerate · []) (fun r => .enumerate r.2 r.1) ctx) _)]
      generalize env.inspector.enumerate ctx.world [] = r
      obtain ⟨⟨result, found⟩, w⟩ := r
      cases result with
      | error e => simp [log_bind, Asked.lines, Asked.names, Asked.result, pure, EStateM.pure]
      | ok u => rfl
    · rw [if_neg hconfig, if_neg hconfig]
      simp [Asked.lines, Asked.names, Asked.result, pure, EStateM.pure]
  rw [Logged.enumerate, bind_ok (hadd _)]
  rfl

/-- The lines about the work of an iteration. -/
def workLines (config : Config) (env : Environment ω) (explicit : List Text) (ctx : Context ω) :
    List LogLine :=
  (askStep config env ctx).1.lines ++ .enumerated (processed config env explicit ctx) ::
    (visits config env explicit ctx).flatMap (Visit.lines config)

theorem refresh_lines (explicit : List Text) (ctx : Context ω) (lines : List LogLine) :
    Logged.refresh config env explicit (ctx, lines) =
      .ok (workErrors config env explicit ctx)
        (refreshed config env explicit ctx, lines ++ workLines config env explicit ctx) := by
  rw [Logged.refresh, bind_ok (enumerate_lines explicit ctx lines), log_bind,
    foldlM_refreshContainer_lines, workErrors, workLines, visits, refreshed, Asked.errors]
  cases (askStep config env ctx).1.result <;> simp [Except.mapError]

/-- The lines about a notification that is not the initial one. -/
def failureLines (line : CompanionError → LogLine) : Except IoError Unit → List LogLine
  | .ok () => []
  | .error e => [line (.systemd e)]

/-- What a view shows of the lines is said by the calls. -/
structure Views {β : Type} (config : Config) (explicit : List Text) (view : LogLine → List β)
    (tells : Event → List β) : Prop where
  debug : ∀ line, line.level = .debug → view line = []
  initialized : view .initialized = []
  ready : ∀ r, tells (.notify readyEntries r) = []
  status : ∀ status r,
    tells (.notify (aliveEntries status) r) = (failureLines .statusNotUpdated r).flatMap view
  stopping : ∀ r,
    tells (.notify shutdownEntries r) = (failureLines .stoppingNotUpdated r).flatMap view
  other : ∀ e : Event, e.isContainer = false → (∀ entries r, e ≠ .notify entries r) → tells e = []
  enumerate : ∀ names r, tells (.enumerate names r) = []
  visit : ∀ v : Visit, v.Faithful config → (v.name.explicit = true ↔ v.name.todo ∈ explicit) →
    (v.lines config).flatMap view = v.events.flatMap tells

section
variable {β : Type} {explicit : List Text} {view : LogLine → List β} {tells : Event → List β}

def Agrees (view : LogLine → List β) (tells : Event → List β) (s : Context ω × List LogLine) :
    Prop := s.2.flatMap view = s.1.events.flatMap tells

def KeepsAgreeing (view : LogLine → List β) (tells : Event → List β)
    (s s' : Context ω × List LogLine) : Prop := Agrees view tells s → Agrees view tells s'

/-- The calls in between say nothing. -/
def Unsaid (tells : Event → List β) (ctx ctx' : Context ω) : Prop :=
  ctx'.events.flatMap tells = ctx.events.flatMap tells

instance : Std.Refl (KeepsAgreeing (ω := ω) view tells) := ⟨fun _ => id⟩

instance : IsTrans (Context ω × List LogLine) (KeepsAgreeing view tells) :=
  ⟨fun _ _ _ h h' => h' ∘ h⟩

instance : Std.Refl (Unsaid (ω := ω) tells) := ⟨fun _ => rfl⟩

instance : IsTrans (Context ω) (Unsaid tells) := ⟨fun _ _ _ h h' => h'.trans h⟩

theorem silent_agrees {α : Type} {x : CompanionM ω α} (hx : Along (Unsaid tells) x) :
    Along (KeepsAgreeing view tells) (silent x) := by
  rintro ⟨ctx, lines⟩
  have hend {s' : Context ω × List LogLine} (h : s'.2 = lines ∧ Unsaid tells ctx s'.1) :
      KeepsAgreeing view tells (ctx, lines) s' := by
    intro hagrees
    rw [Agrees, h.1, h.2]
    exact hagrees
  exact (Triple.silent (hx ctx)).mono (fun _ _ h => hend h) fun _ _ h => hend h

theorem log_agrees {line : LogLine} (h : view line = []) :
    Along (KeepsAgreeing (ω := ω) view tells) (log line : LoggedM ω Unit) := by
  intro s hagrees
  rw [Agrees, List.flatMap_append, List.flatMap_singleton, h, List.append_nil]
  exact hagrees

private theorem call_unsaid {α : Type} {op : ω → α × ω} {event : α → Event}
    (h : ∀ a, tells (event a) = []) : Along (Unsaid tells) (call op event) :=
  along_call fun ctx => by simp [Unsaid, h]

private theorem setNextWatchdog_unsaid (t : ℤ) :
    Along (Unsaid tells) (setNextWatchdog (ω := ω) t) :=
  fun _ => rfl

private theorem now_unsaid (h : Views config explicit view tells) :
    Along (Unsaid tells) (now env) :=
  call_unsaid fun _ => h.other _ rfl fun _ _ h => by cases h

private theorem mark_unsaid (h : Views config explicit view tells) {event : Event}
    (hevent : event.isContainer = false) (hnotify : ∀ entries r, event ≠ .notify entries r) :
    Along (Unsaid tells) (mark (ω := ω) event) :=
  call_unsaid fun _ => h.other _ hevent hnotify

theorem notifyOrWarn_agrees {line : CompanionError → LogLine} {entries : List (Text × Text)}
    (h : ∀ r, tells (.notify entries r) = (failureLines line r).flatMap view) :
    Along (KeepsAgreeing view tells) (Logged.notifyOrWarn env line entries) := by
  rintro ⟨ctx, lines⟩
  have hnotify : notify env entries ctx = .ok ((env.notify ctx.world entries).1.mapError .systemd)
      (ctx.record (.notify entries (env.notify ctx.world entries).1)
        (env.notify ctx.world entries).2) := rfl
  refine Triple.bind_ok (silent_ok hnotify lines) ?_
  have htells := h (env.notify ctx.world entries).1
  have hagrees (new : List LogLine)
      (hnew : tells (.notify entries (env.notify ctx.world entries).1) = new.flatMap view) :
      KeepsAgreeing view tells (ctx, lines) (ctx.record
        (.notify entries (env.notify ctx.world entries).1) (env.notify ctx.world entries).2,
          lines ++ new) := by
    intro hagrees
    rw [Agrees] at hagrees ⊢
    rw [Context.events_record, List.flatMap_append, List.flatMap_append, hagrees,
      List.flatMap_singleton, hnew]
  cases hresult : (env.notify ctx.world entries).1 with
  | error e =>
    rw [hresult] at htells hagrees
    exact hagrees [line (.systemd e)] htells
  | ok u =>
    rw [hresult] at htells hagrees
    have hkeep := hagrees [] htells
    rw [List.append_nil] at hkeep
    exact hkeep

theorem notifyStatus_agrees (h : Views config explicit view tells) (status : Text) :
    Along (KeepsAgreeing view tells) (Logged.notifyStatus config env status) := by
  rw [Logged.notifyStatus]
  split
  · refine (silent_agrees (now_unsaid h)).bind fun t => ?_
    refine (log_agrees (h.debug _ rfl)).bind fun _ => ?_
    refine (notifyOrWarn_agrees (h.status status)).bind fun _ => ?_
    cases config.watchdogMicroseconds with
    | none => exact Along.pure _
    | some dog =>
      have hdebug : Along (KeepsAgreeing view tells) (Logged.debugDeadlines env t dog) := by
        rw [Logged.debugDeadlines]
        split
        · refine (silent_agrees (addDuration_along _ _)).bind fun timeout => ?_
          exact (silent_agrees (addDuration_along _ _)).bind fun ping =>
            log_agrees (h.debug _ rfl)
        · exact Along.pure _
      refine hdebug.bind fun _ => (silent_agrees (addDuration_along _ _)).bind fun deadline => ?_
      exact silent_agrees (setNextWatchdog_unsaid deadline)
  · exact Along.pure _

theorem deadlineToAlarmClock_agrees (h : Views config explicit view tells) (t : ℤ)
    (deadline : Option ℤ) (desc : Text) :
    Along (KeepsAgreeing view tells) (Logged.deadlineToAlarmClock (ω := ω) t deadline desc) := by
  cases deadline with
  | none => exact (log_agrees (h.debug _ rfl)).bind fun _ => Along.pure _
  | some deadline =>
    rw [Logged.deadlineToAlarmClock]
    split
    · exact (log_agrees (h.debug _ rfl)).bind fun _ => Along.pure _
    · have hstd : Along (Unsaid tells) (toStd (ω := ω) (deadline - t)) := by
        rw [toStd]
        split
        · exact Along.throw _
        · exact Along.pure _
      refine (log_agrees (h.debug _ rfl)).bind fun _ =>
        (silent_agrees hstd).bind fun remaining => ?_
      exact silent_agrees (call_unsaid fun _ => h.other _ rfl fun _ _ h => by cases h)

theorem waitPass_agrees (h : Views config explicit view tells) (refreshTimeout : Receiver ω) :
    Along (KeepsAgreeing view tells) (Logged.waitPass config env refreshTimeout) := by
  refine (silent_agrees (mark_unsaid h rfl fun _ _ h => by cases h)).bind fun _ => ?_
  refine (silent_agrees (call_unsaid fun _ => h.other _ rfl fun _ _ h => by cases h)).bind
    fun sig => ?_
  cases sig with
  | some sig => exact (log_agrees (h.debug _ rfl)).bind fun _ => Along.pure _
  | none =>
    refine (silent_agrees (now_unsaid h)).bind fun t => Along.get.bind fun s => ?_
    refine (deadlineToAlarmClock_agrees h _ _ _).bind fun watchdogTimeout => ?_
    refine (silent_agrees (call_unsaid fun _ => h.other _ rfl fun _ _ h => by cases h)).bind
      fun wake => ?_
    cases wake with
    | signal sig => exact (log_agrees (h.debug _ rfl)).bind fun _ => Along.pure _
    | refresh => exact Along.pure _
    | watchdog =>
      exact (log_agrees (h.debug _ rfl)).bind fun _ =>
        (notifyStatus_agrees h _).bind fun _ => Along.pure _

theorem endIteration_agrees (h : Views config explicit view tells)
    (errors : List CompanionError) (passes : ℕ) :
    Along (KeepsAgreeing view tells) (Logged.endIteration config env errors passes) := by
  have hwait : Along (KeepsAgreeing view tells) (Logged.wait config env passes) := by
    rw [Logged.wait]
    refine (silent_agrees (mark_unsaid h rfl fun _ _ h => by cases h)).bind fun _ => ?_
    cases config.refreshSeconds with
    | none => exact (log_agrees (h.debug _ rfl)).bind fun _ => Along.pure _
    | some refreshSeconds =>
      refine (silent_agrees (now_unsaid h)).bind fun t => ?_
      refine (silent_agrees (addDuration_along _ _)).bind fun nextRefresh => ?_
      refine (deadlineToAlarmClock_agrees h _ _ _).bind fun refreshTimeout => ?_
      exact Along.loop (waitPass_agrees h refreshTimeout) passes
  have hstopping : Along (KeepsAgreeing view tells) (Logged.notifyStopping config env) := by
    rw [Logged.notifyStopping]
    split
    · exact notifyOrWarn_agrees h.stopping
    · exact Along.pure _
  refine (notifyStatus_agrees h _).bind fun _ => hwait.bind fun again => ?_
  split
  · exact Along.pure _
  · refine hstopping.bind fun _ => ?_
    split
    · exact Along.pure _
    · exact Along.pure _

/-- The work of an iteration shows what its calls tell. -/
theorem work_agrees (h : Views config explicit view tells) :
    Along (KeepsAgreeing view tells)
      (Logged.span .work (Logged.refresh config env explicit)) := by
  rintro ⟨ctx, lines⟩
  have hrefresh : Logged.refresh config env explicit (ctx, lines) = _ :=
    refresh_lines explicit ctx lines
  have hnote : silent (modify fun ctx' : Context ω => ctx'.note ⟨.work, ctx.world, ctx'.world⟩)
      (refreshed config env explicit ctx, lines ++ workLines config env explicit ctx) =
      (.ok () (worked config env explicit ctx, lines ++ workLines config env explicit ctx) :
        EStateM.Result Stop (Context ω × List LogLine) Unit) := rfl
  have hget : (get : LoggedM ω (Context ω × List LogLine)) (ctx, lines) =
      .ok (ctx, lines) (ctx, lines) := rfl
  refine Triple.bind_ok hget (Triple.bind_ok hrefresh (Triple.bind_ok hnote ?_))
  refine Triple.pure fun hagrees => ?_
  have hask : (askStep config env ctx).1.lines.flatMap view = [] := by
    rcases (askStep config env ctx).1 with - | ⟨found, e | u⟩
    · rfl
    · simp [Asked.lines, h.debug .enumerating rfl, h.debug (.enumerationFailed e) rfl]
    · simp [Asked.lines, h.debug .enumerating rfl]
  have hasked : (askStep config env ctx).1.events.flatMap tells = [] := by
    rcases (askStep config env ctx).1 with - | ⟨found, result⟩
    · rfl
    · simp [Asked.events, h.enumerate]
  have hvisits : ((visits config env explicit ctx).flatMap (Visit.lines config)).flatMap view =
      ((visits config env explicit ctx).flatMap Visit.events).flatMap tells := by
    have hmerged : Merged ((visits config env explicit ctx).map Visit.name) explicit
        (askStep config env ctx).1.names := visits_merged explicit ctx
    rw [List.flatMap_assoc, List.flatMap_assoc]
    refine List.flatMap_congr fun v hv => h.visit v (visits_faithful explicit ctx v hv) ?_
    exact hmerged.mark v.name (List.mem_map_of_mem hv)
  have hwork : tells .work = [] := h.other _ rfl fun _ _ h => by cases h
  rw [Agrees] at hagrees ⊢
  rw [worked_context_events, workLines]
  simp only [List.flatMap_append, List.flatMap_cons, List.flatMap_nil, hagrees, hask, hasked,
    hvisits, hwork, h.debug (.enumerated _) rfl, List.nil_append, List.append_nil]

/-- Whatever a run does, the view shows what its calls tell. -/
theorem run_agrees (env : Environment ω) (h : Views config explicit view tells) (n passes : ℕ)
    (w : ω) : Agrees view tells
      (finalState (Logged.run config env explicit n passes) (start w, [])) := by
  have hiteration : Along (KeepsAgreeing view tells)
      (Logged.iteration config env explicit passes) := by
    refine (silent_agrees (mark_unsaid h rfl fun _ _ h => by cases h)).bind fun _ => ?_
    refine (log_agrees (h.debug _ rfl)).bind fun _ => ?_
    refine (notifyStatus_agrees h _).bind fun _ => ?_
    exact (work_agrees h).bind fun errors => endIteration_agrees h errors passes
  have hloop : Along (KeepsAgreeing view tells) (Logged.iterate config env explicit n passes) :=
    Along.loop hiteration n
  have hnew : Along (Unsaid tells) (new config env) := by
    rw [new]
    split
    · exact (now_unsaid h).bind fun t => setNextWatchdog_unsaid t
    · exact Along.pure _
  have hready : Along (Unsaid tells) (notify env readyEntries) :=
    (call_unsaid h.ready).bind fun _ => Along.pure _
  have hrun : Along (KeepsAgreeing view tells) (Logged.run config env explicit n passes) := by
    rw [Logged.run]
    refine (silent_agrees hnew).bind fun _ => (log_agrees h.initialized).bind fun _ => ?_
    split
    · refine (silent_agrees hready).bind fun result => ?_
      cases result with
      | error e => exact Along.pure _
      | ok u => exact hloop
    · exact hloop
  have hstart : Agrees view tells (start w, []) := rfl
  exact Triple.finalState ((hrun (start w, [])).mono (fun _ _ h => h hstart) fun _ _ h => h hstart)

end

/-- Whether the line is shown by a filter. -/
def shownAt (filter : LogLevel) (lines : List LogLine) : List LogLine :=
  lines.filter fun line => line.level.passes filter

private theorem inspectionLevel_shown (config : Config) (wasExplicit : Bool) :
    (Logged.inspectionLevel config wasExplicit).passes .warn =
      considerError config wasExplicit := by
  rw [Logged.inspectionLevel, considerError]
  split
  · rfl
  · split
    · rfl
    · rfl

private theorem envVarLevel_shown (config : Config) (wasExplicit : Bool) :
    (Logged.envVarLevel config wasExplicit).passes .warn = envVarError config wasExplicit := by
  unfold Logged.envVarLevel envVarError
  cases wasExplicit <;> cases config.missingEnvvar <;> rfl

/-- The lines of a visit that are shown with `--quiet` are about the errors that count. -/
theorem Visit.Faithful.shown {v : Visit} (h : v.Faithful config) :
    (shownAt .warn (v.lines config)).map LogLine.error? = (v.errors config).map some := by
  have hinspecting : (LogLine.inspecting v.name.todo).level.passes .warn = false := rfl
  rw [Visit.lines, Visit.errors, shownAt, List.filter_cons_of_neg (by simp [hinspecting])]
  cases hinspected : v.inspected with
  | error e =>
    have hlevel := inspectionLevel_shown config v.name.explicit
    cases hc : considerError config v.name.explicit with
    | true => simp [LogLine.level, hlevel, hc, LogLine.error?]
    | false => simp [LogLine.level, hlevel, hc]
  | ok inspection =>
    have hlevel := envVarLevel_shown config v.name.explicit
    cases hpresent : inspection.envvarPresent with
    | false =>
      cases hc : envVarError config v.name.explicit with
      | true => simp [LogLine.level, hlevel, hc, hpresent, LogLine.error?]
      | false => simp [LogLine.level, hlevel, hc, hpresent]
    | true =>
      have hupdates (p : Publication) :
          (LogLine.wouldUpdate v.name.todo p).level.passes .warn = false ∧
            (LogLine.updating v.name.todo p).level.passes .warn = false := ⟨rfl, rfl⟩
      cases hpublished : v.published with
      | none => cases config.dryRun <;> simp [hpresent, hupdates]
      | some p =>
        obtain ⟨-, -, -, hwet⟩ := h.of_published hpublished
        obtain ⟨publication, e | u⟩ := p
        · have herror :
              (LogLine.notPublished v.name.todo (.publishing e)).level.passes .warn = true := rfl
          simp [hpresent, hwet, hupdates, herror, LogLine.error?]
        · simp [hpresent, hwet, hupdates]

/-- The errors of a visit are those that its calls lead to. -/
theorem Visit.Faithful.errors_eq {v : Visit} (h : v.Faithful config) {explicit : List Text}
    (hmark : v.name.explicit = true ↔ v.name.todo ∈ explicit) :
    v.errors config = v.events.flatMap (Event.failures config explicit) := by
  have hexplicit : explicit.contains v.name.todo = v.name.explicit := by
    rw [Bool.eq_iff_iff, List.contains_iff_mem, hmark]
  rw [Visit.errors, Visit.events, List.flatMap_cons]
  cases hpublished : v.published with
  | none =>
    rw [Option.toList_none, List.map_nil, List.flatMap_nil, List.append_nil]
    cases hinspected : v.inspected with
    | error e => simp only [Event.failures, hexplicit]
    | ok inspection => simp only [Event.failures, hexplicit]
  | some p =>
    obtain ⟨inspection, hinspected, hpresent, -⟩ := h.of_published hpublished
    obtain ⟨publication, e | u⟩ := p
    · simp [hinspected, hpresent, Event.failures]
    · simp [hinspected, hpresent, Event.failures]

private theorem flatMap_ite {α β : Type} (p : α → Bool) (f : α → β) (l : List α) :
    l.flatMap (fun a => if p a then [f a] else []) = (l.filter p).map f := by
  induction l with
  | nil => rfl
  | cons a l ih =>
    cases hp : p a with
    | true => simp [hp, ih]
    | false => simp [hp, ih]

private theorem failures_other {e : Event} (hcontainer : e.isContainer = false)
    (hnotify : ∀ entries r, e ≠ .notify entries r) (explicit : List Text) :
    e.failures config explicit = [] := by
  cases e with
  | notify entries r => exact absurd rfl (hnotify entries r)
  | inspect name r | publish p r => cases hcontainer
  | _ => rfl

/-- The lines at the level of warnings. -/
theorem quiet_views (config : Config) (explicit : List Text) : Views config explicit
    (fun line => if line.level.passes .warn then [line.error?] else [])
    (fun e => (e.failures config explicit).map some) where
  debug line h := by rw [h]; rfl
  initialized := rfl
  ready r := by cases r <;> rfl
  status status r := by cases r <;> rfl
  stopping r := by cases r <;> rfl
  other e hcontainer hnotify := by rw [failures_other hcontainer hnotify, List.map_nil]
  enumerate names r := by cases r <;> rfl
  visit v hfaithful hmark := by
    have hshown := hfaithful.shown
    rw [shownAt, ← flatMap_ite, hfaithful.errors_eq hmark, List.map_flatMap] at hshown
    exact hshown

/-- The lines about updates, made or left out. -/
theorem update_views (config : Config) (explicit : List Text) : Views config explicit
    (fun line => line.update?.toList) (fun e => e.request?.toList) where
  debug line h := by
    cases line with
    | wouldUpdate name publication | updating name publication => cases h
    | _ => rfl
  initialized := rfl
  ready r := rfl
  status status r := by cases r <;> rfl
  stopping r := by cases r <;> rfl
  other e hcontainer _ := by
    cases e with
    | inspect name r => cases hcontainer
    | _ => rfl
  enumerate names r := rfl
  visit v hfaithful hmark := by
    rw [Visit.lines, Visit.events]
    cases hpublished : v.published with
    | none =>
      cases hinspected : v.inspected with
      | error e => simp [LogLine.update?, Event.request?]
      | ok inspection =>
        cases hpresent : inspection.envvarPresent with
        | false => simp [hpresent, LogLine.update?, Event.request?]
        | true => cases config.dryRun <;> simp [hpresent, LogLine.update?, Event.request?]
    | some p =>
      obtain ⟨inspection, hinspected, hpresent, hwet⟩ := hfaithful.of_published hpublished
      obtain ⟨publication, e | u⟩ := p
      · simp [hinspected, hpresent, hwet, LogLine.update?, Event.request?]
      · simp [hinspected, hpresent, hwet, LogLine.update?, Event.request?]

/-- Everything that a run writes to the log. -/
def journal (config : Config) (env : Environment ω) (explicit : List Text) (n passes : ℕ) (w : ω) :
    List LogLine := (finalState (Logged.run config env explicit n passes) (start w, [])).2

theorem run_erased (config : Config) (env : Environment ω) (explicit : List Text) (n passes : ℕ)
    (w : ω) : SameEnd Erases Eq (Logged.run config env explicit n passes (start w, []))
      (run config env explicit n passes (start w)) :=
  Logged.run_erases config env explicit n passes (start w, []) (start w) rfl

theorem journal_errors (config : Config) (env : Environment ω) (explicit : List Text)
    (n passes : ℕ) (w : ω) :
    (shownAt .warn (journal config env explicit n passes w)).map LogLine.error? =
      ((finalState (run config env explicit n passes) (start w)).events.flatMap
        (Event.failures config explicit)).map some := by
  have hagrees := run_agrees env (quiet_views config explicit) n passes w
  have hctx := (run_erased config env explicit n passes w).finalState
  rw [Erases] at hctx
  rw [Agrees, hctx, flatMap_ite] at hagrees
  rw [shownAt, List.map_flatMap]
  exact hagrees

theorem journal_updates (config : Config) (env : Environment ω) (explicit : List Text)
    (n passes : ℕ) (w : ω) :
    (journal config env explicit n passes w).filterMap LogLine.update? =
      (finalState (run config env explicit n passes) (start w)).events.filterMap
        Event.request? := by
  have hagrees := run_agrees env (update_views config explicit) n passes w
  have hctx := (run_erased config env explicit n passes w).finalState
  rw [Erases] at hctx
  rw [Agrees, hctx] at hagrees
  rw [List.filterMap_eq_flatMap_toList, List.filterMap_eq_flatMap_toList]
  exact hagrees

/-- The log lines do not change what a run does. A filter at the level of warnings shows one line
for each error that its calls lead to, in their order, but for a failed enumeration and a failed
initial notification; the lines about updates are those that
the containers ask for, whether they are made or it is a dry run. -/
theorem run_shown {ω : Type} (config : Config) (env : Environment ω) (explicit : List Text)
    (n passes : ℕ) (w : ω) :
    SameEnd Erases Eq (Logged.run config env explicit n passes (start w, []))
        (run config env explicit n passes (start w)) ∧
      (shownAt .warn (journal config env explicit n passes w)).map LogLine.error? =
        ((finalState (run config env explicit n passes) (start w)).events.flatMap
          (Event.failures config explicit)).map some ∧
      (journal config env explicit n passes w).filterMap LogLine.update? =
        (finalState (run config env explicit n passes) (start w)).events.filterMap
          Event.request? :=
  ⟨run_erased config env explicit n passes w, journal_errors config env explicit n passes w,
    journal_updates config env explicit n passes w⟩

end Beachhead.Companion
