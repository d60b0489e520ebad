import Beachhead.Machine
import Beachhead.WaitEvents

/-!
# The protocol of a run

What the service manager, the containers and the store see of a run is a word that a
small machine reads. With systemd it has to announce every status before it does what
the status says; a publication has to follow the inspection that asks for it; and a
blocking select has to follow a look at the termination signal. A run that returns has
reached a phase in which nothing more is read.
-/
namespace Beachhead.Companion
open Program Machine

inductive Phase where
  /-- READY is to be sent. -/
  | starting
  /-- READY was not taken. -/
  | failed
  /-- An iteration is to start. -/
  | ready
  /-- The status of the refresh is to be sent. -/
  | announcing
  /-- The inspector is to be asked for names. -/
  | enumerating
  /-- Containers are refreshed. What the last inspection found is to be published. -/
  | refreshing (found : Option Publication)
  /-- The status of the wait is to be sent. -/
  | closing
  /-- A wait is to start. -/
  | worked
  | waiting
  /-- A pass looks for a termination signal. -/
  | polling
  /-- A pass found none. -/
  | selecting
  /-- The watchdog is to be fed. -/
  | pinging
  /-- STOPPING is to be sent. -/
  | stopping
  | stopped
  deriving DecidableEq

namespace Phase

variable (config : Config)

def initial : Phase := if config.systemd then starting else ready

/-- The work starts: there are names to ask for, or only the ones listed explicitly. -/
def work : Phase := if config.enumerate then enumerating else refreshing none

/-- The program is told to stop, or it ran once. -/
def leave : Phase := if config.systemd then stopping else stopped

/-- The letters that a phase takes and where they lead. -/
def advance : Phase → Event → Option Phase
  | starting, .now _ => some starting
  | starting, .notify entries result =>
    if entries = readyEntries then some (if result.isOk then ready else failed) else none
  | ready, .now _ => some ready
  | ready, .iteration => some (if config.systemd then announcing else work config)
  | announcing, .now _ => some announcing
  | announcing, .notify entries _ =>
    if entries = aliveEntries "Refreshing".toList then some (work config) else none
  | enumerating, .enumerate _ _ => some (refreshing none)
  | refreshing none, .inspect _ result => some (refreshing (publication? config result))
  | refreshing (some found), .publish publication _ =>
    if publication = found then some (refreshing none) else none
  | refreshing none, .work => some (if config.systemd then closing else worked)
  | closing, .now _ => some closing
  | closing, .notify entries _ =>
    if entries = aliveEntries "Waiting".toList then some worked else none
  | worked, .wait => some (if config.refreshSeconds.isSome then waiting else leave config)
  | waiting, .now _ => some waiting
  | waiting, .after _ _ => some waiting
  | waiting, .waitPass => some polling
  | polling, .poll sig => some (if sig.isSome then leave config else selecting)
  | selecting, .now _ => some selecting
  | selecting, .after _ _ => some selecting
  | selecting, .woke (.signal _) => some (leave config)
  | selecting, .woke .refresh => some ready
  | selecting, .woke .watchdog => some (if config.systemd then pinging else waiting)
  | pinging, .now _ => some pinging
  | pinging, .notify entries _ =>
    if entries = aliveEntries "Waiting".toList then some waiting else none
  | stopping, .notify entries _ => if entries = shutdownEntries then some stopped else none
  | _, _ => none

/-- Nothing is read after the end of a run. -/
def Ended : Phase → Prop
  | stopped | failed => True
  | _ => False

end Phase

variable {ω : Type} {config : Config} {env : Environment ω} {p p' : Phase} {ctx : Context ω}

/-- The run so far is read, and leads to the phase. -/
def InPhase (config : Config) (p : Phase) (ctx : Context ω) : Prop :=
  read (Phase.advance config) (Phase.initial config) ctx.events = some p

/-- The run so far is read, and has not ended. -/
def InProgress (config : Config) (ctx : Context ω) : Prop := ∃ p, InPhase config p ctx ∧ ¬p.Ended

theorem InPhase.record (h : InPhase config p ctx) {event : Event}
    (hstep : p.advance config event = some p') (w : ω) :
    InPhase config p' (ctx.record event w) := by
  rw [InPhase, Context.events_record]
  exact read_concat h hstep

private theorem InPhase.inProgress (h : InPhase config p ctx) (hp : ¬p.Ended) :
    InProgress config ctx :=
  ⟨p, h, hp⟩

theorem InPhase.append {ctx' : Context ω} {new : List Event} (h : InPhase config p ctx)
    (hevents : ctx'.events = ctx.events ++ new)
    (hnew : read (Phase.advance config) p new = some p') : InPhase config p' ctx' := by
  rw [InPhase, hevents, read_append_of_eq h, hnew]

/-- A status notification leads from a phase in which it is to be sent to the next one. Without
systemd it is not sent. -/
theorem notifyStatus_phase {status : Text} (q : Phase) (hq : ¬q.Ended)
    (hsent : config.systemd = true → ∃ p, InPhase config p ctx ∧
      (∀ t, p.advance config (.now t) = some p) ∧
      ∀ result, p.advance config (.notify (aliveEntries status) result) = some q)
    (hsilent : config.systemd = false → InPhase config q ctx) :
    Triple (notifyStatus config env status) ctx (fun _ => InPhase config q)
      fun _ => InProgress config := by
  by_cases hsystemd : config.systemd
  · obtain ⟨p, hp, hnow, hnotify⟩ := hsent hsystemd
    have hpinged : InPhase config q (pinged env status ctx) :=
      (hp.record (hnow _) _).record (hnotify _) _
    have h : PingOutcome config env status ctx (notifyStatus config env status ctx) :=
      notifyStatus_outcome status ctx
    unfold Triple
    generalize notifyStatus config env status ctx = result at h ⊢
    cases h with
    | silent hoff => simp [hoff] at hsystemd
    | unwatched => exact hpinged
    | panicked => exact hpinged.inProgress hq
    | watched => exact hpinged
  · rw [notifyStatus, if_neg hsystemd]
    exact Triple.pure (hsilent (by simpa using hsystemd))

/-- A visit is read: what its inspection asks for is published, and nothing else. -/
theorem read_visit {v : Visit} (h : v.Faithful config) :
    read (Phase.advance config) (.refreshing none) v.events = some (.refreshing none) := by
  have hinspect : Phase.advance config (.refreshing none) (.inspect v.name.todo v.inspected) =
      some (.refreshing (publication? config v.inspected)) := rfl
  rw [Visit.events, read_cons hinspect]
  rw [Visit.Faithful] at h
  rw [← h]
  cases v.published with
  | none => rfl
  | some published => simp [read_singleton, Phase.advance]

private theorem read_visits {vs : List Visit} (h : ∀ v ∈ vs, v.Faithful config) :
    read (Phase.advance config) (.refreshing none) (vs.flatMap Visit.events) =
      some (.refreshing none) := by
  induction vs with
  | nil => rfl
  | cons v vs ih =>
    rw [List.forall_mem_cons] at h
    rw [List.flatMap_cons, read_append_of_eq (read_visit h.1), ih h.2]

/-- The work of an iteration is read from its first phase. -/
theorem InPhase.worked (h : InPhase config (Phase.work config) ctx) (explicit : List Text) :
    InPhase config (if config.systemd then .closing else .worked)
      (worked config env explicit ctx) := by
  have hasked : read (Phase.advance config) (Phase.work config) (askStep config env ctx).1.events =
      some (.refreshing none) := by
    rw [askStep, Phase.work]
    split
    · rfl
    · rfl
  have hrefreshed : InPhase config (.refreshing none) (refreshed config env explicit ctx) := by
    refine h.append (refreshed_events explicit ctx) ?_
    rw [read_append_of_eq hasked, read_visits (visits_faithful explicit ctx)]
  have hnote : (Companion.worked config env explicit ctx).events =
      (refreshed config env explicit ctx).events ++ [.work] := by
    simp [Companion.worked, Context.note, Context.events]
  exact hrefreshed.append hnote read_singleton

private theorem read_armedFor (t : ℤ) (deadline : Option ℤ) (desc : Text) :
    read (Phase.advance config) .selecting (armedFor desc t deadline) = some .selecting := by
  cases deadline with
  | none => rfl
  | some deadline =>
    rw [armedFor]
    split
    · rfl
    · rfl

/-- The phase after a wait. -/
def Phase.resume (config : Config) (again : Bool) : Phase := if again then ready else leave config

/-- A pass leaves the loop of `wait` in the phase that its answer asks for, or waits on. -/
theorem waitPass_phase {refreshTimeout : Receiver ω} (h : InPhase config .waiting ctx) :
    Triple (waitPass config env refreshTimeout) ctx
      (fun again => InPhase config (again.elim .waiting (Phase.resume config)))
      fun _ => InProgress config := by
  have hpass : InPhase config .polling (ctx.record .waitPass ctx.world) := h.record rfl _
  apply Triple.bind_ok (call_eq _ _ ctx)
  apply Triple.bind_ok (poll_eq ctx)
  have hpolled : InPhase config
      (if (env.poll ctx.world).1.isSome then .leave config else .selecting) (polled env ctx) :=
    hpass.record rfl _
  cases hpoll : (env.poll ctx.world).1 with
  | some sig =>
    rw [hpoll] at hpolled
    exact Triple.pure hpolled
  | none =>
    rw [hpoll] at hpolled
    have hnow : InPhase config .selecting ((polled env ctx).record
      (.now (env.now (polled env ctx).world).1) (env.now (polled env ctx).world).2) :=
      hpolled.record rfl _
    refine Triple.bind_ok (call_eq env.now .now (polled env ctx)) (Triple.bind_ok rfl ?_)
    obtain ⟨watchdogTimeout, ctx₁, hclock, hevents⟩ := deadlineToAlarmClock_ok
      (env.now (polled env ctx).world).1 ctx.nextWatchdog "watchdog".toList
      ((polled env ctx).record (.now (env.now (polled env ctx).world).1)
        (env.now (polled env ctx).world).2)
    have harmed : InPhase config .selecting ctx₁ := hnow.append hevents (read_armedFor _ _ _)
    apply Triple.bind_ok hclock
    apply Triple.bind_ok (call_eq (env.select · refreshTimeout watchdogTimeout) .woke ctx₁)
    cases (env.select ctx₁.world refreshTimeout watchdogTimeout).1 with
    | signal sig => exact Triple.pure (harmed.record rfl _)
    | refresh => exact Triple.pure (harmed.record rfl _)
    | watchdog =>
      refine Triple.bind (notifyStatus_phase .waiting id (fun hsystemd => ?_)
        fun hsystemd => ?_) fun _ _ h' => Triple.pure h'
      · exact ⟨.pinging, harmed.record (by simp [Phase.advance, hsystemd]) _, fun _ => rfl,
          fun _ => by simp [Phase.advance]⟩
      · exact harmed.record (by simp [Phase.advance, hsystemd]) _

theorem wait_phase (h : InPhase config .worked ctx) (passes : ℕ) :
    Triple (wait config env passes) ctx (fun again => InPhase config (Phase.resume config again))
      fun _ => InProgress config := by
  cases hr : config.refreshSeconds with
  | none =>
    rw [wait, hr]
    refine Triple.bind_ok (call_eq _ _ ctx) (Triple.pure (h.record ?_ _))
    simp [Phase.advance, hr, Phase.resume]
  | some r =>
    have hwait : Phase.advance config .worked .wait = some .waiting := by simp [Phase.advance, hr]
    refine wait_started hr (fun ctx' _ hevents => ?_) fun refreshTimeout ctx' _ _ hevents => ?_
    · have hread : InPhase config .waiting ctx' := h.append hevents (by rw [read_cons hwait]; rfl)
      exact hread.inProgress id
    · have hread : InPhase config .waiting ctx' := h.append hevents (by
        rw [startEvents, List.cons_append, read_cons hwait]
        rfl)
      refine Triple.loop (I := InPhase config .waiting) (fun ctx₁ h₁ => ?_)
        (fun ctx₁ h₁ => ?_) passes hread
      · exact (waitPass_phase h₁).mono (fun again _ h' => by cases again <;> exact h')
          fun _ _ h' => h'
      · exact h₁.inProgress id

theorem notifyStopping_phase (h : InPhase config (Phase.leave config) ctx) :
    Triple (notifyStopping config env) ctx (fun _ => InPhase config .stopped)
      fun _ => InProgress config := by
  rw [notifyStopping]
  by_cases hsystemd : config.systemd
  · have hleave : Phase.leave config = .stopping := if_pos hsystemd
    rw [hleave] at h
    rw [if_pos hsystemd]
    exact Triple.ok rfl (h.record (by simp [Phase.advance]) _)
  · have hleave : Phase.leave config = .stopped := if_neg hsystemd
    rw [hleave] at h
    rw [if_neg hsystemd]
    exact Triple.pure h

theorem endIteration_phase (errors : List CompanionError) (passes : ℕ)
    (h : InPhase config (if config.systemd then .closing else .worked) ctx) :
    Triple (endIteration config env errors passes) ctx
      (fun result => InPhase config (if result.isSome then .stopped else .ready))
      fun _ => InProgress config := by
  refine Triple.bind (notifyStatus_phase .worked id (fun hsystemd => ?_)
    fun hsystemd => ?_) fun _ ctx₁ h₁ => (wait_phase h₁ passes).bind fun again ctx₂ h₂ => ?_
  · rw [if_pos hsystemd] at h
    exact ⟨.closing, h, fun _ => rfl, fun _ => by simp [Phase.advance]⟩
  · simpa [hsystemd] using h
  · cases again with
    | true => exact Triple.pure h₂
    | false =>
      refine Triple.bind (notifyStopping_phase h₂) fun _ ctx₃ h₃ => ?_
      exact Triple.ite (fun _ => Triple.pure h₃) fun _ => Triple.pure h₃

/-- One iteration leads back to the phase in which it started, or to the end. -/
theorem iteration_phase (h : InPhase config .ready ctx) (explicit : List Text) (passes : ℕ) :
    Triple (iteration config env explicit passes) ctx
      (fun result => InPhase config (if result.isSome then .stopped else .ready))
      fun _ => InProgress config := by
  have hstart : InPhase config (if config.systemd then .announcing else .work config)
      (ctx.record .iteration ctx.world) := h.record rfl _
  refine iteration_triple (M := InPhase config (Phase.work config)) ?_ fun ctx₁ h₁ =>
    endIteration_phase _ passes (h₁.worked explicit)
  refine notifyStatus_phase _ (by rw [Phase.work]; split <;> exact id) (fun hsystemd => ?_)
    fun hsystemd => ?_
  · rw [if_pos hsystemd] at hstart
    exact ⟨.announcing, hstart, fun _ => rfl, fun _ => by simp [Phase.advance]⟩
  · simpa [hsystemd] using hstart

theorem iterate_phase (h : InPhase config .ready ctx) (explicit : List Text) (n passes : ℕ) :
    Triple (iterate config env explicit n passes) ctx (fun _ => InPhase config .stopped)
      fun _ => InProgress config := by
  refine Triple.loop (I := InPhase config .ready) (fun ctx₁ h₁ => ?_) (fun ctx₁ h₁ => ?_) n h
  · refine (iteration_phase h₁ explicit passes).mono (fun result _ h' => ?_) fun _ _ h' => h'
    cases result with
    | none => exact h'
    | some r => exact h'
  · exact h₁.inProgress id

/-- Every run follows the protocol. One that returns has stopped, or its READY was not taken;
one that is cut off or panics is in a phase in which more would be read. -/
theorem run_phase {ω : Type} (config : Config) (env : Environment ω) (explicit : List Text)
    (n passes : ℕ) (w : ω) : Triple (run config env explicit n passes) (start w)
      (fun result ctx => InPhase config .stopped ctx ∨
        InPhase config .failed ctx ∧ ∃ err, result = .error [.systemd err])
      fun _ => InProgress config := by
  have hinitial : InPhase config (Phase.initial config) (start w) := rfl
  have hnow (t : ℤ) :
      (Phase.initial config).advance config (.now t) = some (Phase.initial config) := by
    rw [Phase.initial]
    split
    · rfl
    · rfl
  have hnew : Triple (new config env) (start w) (fun _ => InPhase config (Phase.initial config))
      fun _ => InProgress config := by
    rw [new]
    refine Triple.ite (fun _ => ?_) fun _ => Triple.pure hinitial
    exact Triple.bind_ok (call_eq env.now .now _) (Triple.ok rfl (hinitial.record (hnow _) _))
  refine hnew.bind fun _ ctx h => ?_
  by_cases hsystemd : config.systemd
  · rw [if_pos hsystemd]
    rw [Phase.initial, if_pos hsystemd] at h
    have hnotify : notify env readyEntries ctx =
        .ok ((env.notify ctx.world readyEntries).1.mapError .systemd)
          (ctx.record (.notify readyEntries (env.notify ctx.world readyEntries).1)
            (env.notify ctx.world readyEntries).2) := rfl
    have hready : InPhase config
        (if (env.notify ctx.world readyEntries).1.isOk then .ready else .failed)
        (ctx.record (.notify readyEntries (env.notify ctx.world readyEntries).1)
          (env.notify ctx.world readyEntries).2) :=
      h.record (by rw [Phase.advance, if_pos rfl]) _
    apply Triple.bind_ok hnotify
    cases hresult : (env.notify ctx.world readyEntries).1 with
    | error err =>
      rw [hresult] at hready
      exact Triple.pure (.inr ⟨hready, err, rfl⟩)
    | ok u =>
      rw [hresult] at hready
      exact (iterate_phase hready explicit n passes).mono (fun _ _ h' => .inl h') fun _ _ h' => h'
  · rw [if_neg hsystemd]
    rw [Phase.initial, if_neg hsystemd] at h
    exact (iterate_phase h explicit n passes).mono (fun _ _ h' => .inl h') fun _ _ h' => h'

theorem finalState_phase (config : Config) (env : Environment ω) (explicit : List Text)
    (n passes : ℕ) (w : ω) :
    ∃ p, InPhase config p (finalState (run config env explicit n passes) (start w)) := by
  refine Triple.finalState (P := fun ctx => ∃ p, InPhase config p ctx) ?_
  refine (run_phase config env explicit n passes w).mono (fun _ ctx hctx => ?_) fun _ ctx hctx => ?_
  · obtain hstopped | ⟨hfailed, -⟩ := hctx
    · exact ⟨_, hstopped⟩
    · exact ⟨_, hfailed⟩
  · obtain ⟨p, hp, -⟩ := hctx
    exact ⟨p, hp⟩

/-- The events of every run are read by the machine of the protocol, and the run has returned
exactly when they lead to a phase in which nothing more is read. -/
theorem run_protocol {ω : Type} (config : Config) (env : Environment ω) (explicit : List Text)
    (n passes : ℕ) (w : ω) :
    ∃ p, read (Phase.advance config) (Phase.initial config)
        (finalState (run config env explicit n passes) (start w)).events = some p ∧
      (p.Ended ↔ ∃ result ctx, run config env explicit n passes (start w) = .ok result ctx) := by
  have hphase := run_phase config env explicit n passes w
  cases hrun : run config env explicit n passes (start w) with
  | ok result ctx =>
    have hfinal : finalState (run config env explicit n passes) (start w) = ctx := by
      rw [finalState, hrun]
    rw [hfinal]
    obtain hstopped | ⟨hfailed, -⟩ := hphase.of_ok hrun
    · exact ⟨_, hstopped, by simp [Phase.Ended]⟩
    · exact ⟨_, hfailed, by simp [Phase.Ended]⟩
  | error e ctx =>
    have hfinal : finalState (run config env explicit n passes) (start w) = ctx := by
      rw [finalState, hrun]
    rw [hfinal]
    obtain ⟨p, hp, hended⟩ := hphase.of_error hrun
    exact ⟨p, hp, by simp [hended]⟩

end Beachhead.Companion
