import Beachhead.History

/-!
# Every container is handled once and on its own

In every iteration each name that is listed or found is inspected once, whatever
happened to the others, and it is published once if its own inspection asks for it.
-/
namespace Beachhead.Companion
open Program

variable {ω : Type} {config : Config} {env : Environment ω}

/-- The calls about containers are the calls of one visit for each name that is listed or
found, and each visit publishes exactly what its own inspection asks for. -/
def Isolated (config : Config) (explicit : List Text) (events : List Event) : Prop :=
  ∃ (asked : Asked) (visits : List Visit),
    asked.isSome = config.enumerate ∧
    events = asked.events ++ visits.flatMap Visit.events ∧
    (visits.map fun v => v.name.todo).Nodup ∧
    (∀ name, name ∈ visits.map (fun v => v.name.todo) ↔ name ∈ explicit ∨ name ∈ asked.names) ∧
    ∀ v ∈ visits, v.Faithful config

theorem askStep_isSome (ctx : Context ω) :
    (askStep config env ctx).1.isSome = config.enumerate := by
  rw [askStep]
  split
  · simp [*]
  · simp [*]

/-- Each name that is listed or found is visited once. -/
theorem visits_names (explicit : List Text) (ctx : Context ω) :
    ((visits config env explicit ctx).map fun v => v.name.todo).Nodup ∧
    ∀ name, name ∈ (visits config env explicit ctx).map (fun v => v.name.todo) ↔
      name ∈ explicit ∨ name ∈ (askStep config env ctx).1.names := by
  have hmerged : Merged ((visits config env explicit ctx).map Visit.name) explicit
      (askStep config env ctx).1.names := visits_merged explicit ctx
  have hnames : (visits config env explicit ctx).map (fun v => v.name.todo) =
      ((visits config env explicit ctx).map Visit.name).map Pending.todo :=
    (List.map_map ..).symm
  rw [hnames]
  exact ⟨hmerged.nodup, hmerged.mem⟩

private theorem isolated_work (explicit : List Text) (ctx : Context ω) :
    Isolated config explicit ((askStep config env ctx).1.events ++
      (visits config env explicit ctx).flatMap Visit.events) :=
  ⟨_, _, askStep_isSome ctx, rfl, (visits_names explicit ctx).1, (visits_names explicit ctx).2,
    visits_faithful explicit ctx⟩

/-- The context after an iteration that started in `ctx` has one more segment. -/
def Segment (P : List Event → Prop) (ctx ctx' : Context ω) : Prop :=
  ∃ m body, ctx'.trace = ctx.trace ++ m :: body ∧ m.event.isIteration = true ∧
    (∀ E ∈ body, E.event.isIteration = false) ∧ P (containerEvents body)

theorem Segment.quiet {P : List Event → Prop} {ctx ctx' ctx'' : Context ω}
    (h : Segment P ctx ctx') (h' : Quiet ctx' ctx'') : Segment P ctx ctx'' := by
  obtain ⟨m, body, htrace, hm, hbody, hP⟩ := h
  obtain ⟨new, htrace', hnew⟩ := h'
  refine ⟨m, body ++ new, by simp [htrace', htrace], hm, ?_, ?_⟩
  · exact List.forall_mem_append.mpr ⟨hbody, fun E hE => (hnew E hE).1⟩
  · rw [containerEvents_append, containerEvents_quiet fun E hE => (hnew E hE).2, List.append_nil]
    exact hP

private theorem Segment.iterations {P : List Event → Prop} {ctx ctx' : Context ω}
    (h : Segment P ctx ctx') : ∃ body, P (containerEvents body) ∧
      iterations ctx'.trace = Companion.iterations ctx.trace ++ [body] := by
  obtain ⟨m, body, htrace, hm, hbody, hP⟩ := h
  exact ⟨body, hP, by rw [htrace, iterations_append hm hbody]⟩

section
variable {P : List Event → Prop} {explicit : List Text}

/-- After the work the segment of the iteration has the calls of the work. -/
theorem Segment.work {ctx ctx' : Context ω} (h : Segment (· = []) ctx ctx')
    (hP : P ((askStep config env ctx').1.events ++
      (visits config env explicit ctx').flatMap Visit.events)) :
    Segment P ctx (worked config env explicit ctx') := by
  obtain ⟨m, body, htrace, hm, hbody, hnil⟩ := h
  obtain ⟨new, hnew, hnew_iteration, hcalls⟩ := worked_new config env explicit ctx'
  refine ⟨m, body ++ new, by simp [hnew, htrace], hm,
    List.forall_mem_append.mpr ⟨hbody, hnew_iteration⟩, ?_⟩
  rw [containerEvents_append, hnil, hcalls, List.nil_append]
  exact hP

theorem iteration_segment (hP : ∀ ctx, P ((askStep config env ctx).1.events ++
      (visits config env explicit ctx).flatMap Visit.events)) (passes : ℕ) (ctx : Context ω) :
    Triple (iteration config env explicit passes) ctx (fun _ => Segment P ctx)
      fun e ctx' => Segment P ctx ctx' ∨ e = .panic ∧ Segment (· = []) ctx ctx' := by
  have hmark : Segment (· = []) ctx (ctx.record .iteration ctx.world) :=
    ⟨_, [], rfl, rfl, by simp, rfl⟩
  refine iteration_triple ((notifyStatus_quiet _ _).mono (fun _ _ h => hmark.quiet h)
    fun _ _ h => .inr ⟨h.2.1, hmark.quiet h.1⟩) fun ctx₁ h₁ => ?_
  have hwork : Segment P ctx (worked config env explicit ctx₁) := h₁.work (hP ctx₁)
  exact (endIteration_along (quiet_waits env) _ passes _).mono
    (fun _ ctx' h => hwork.quiet h) fun _ ctx' h => .inl (hwork.quiet h)

/-- What holds of the calls of every work holds of the calls of every iteration, unless the run
panics in the first notification of its last iteration, which then handles no container. -/
theorem run_each (hP : ∀ ctx, P ((askStep config env ctx).1.events ++
      (visits config env explicit ctx).flatMap Visit.events)) (n passes : ℕ) (w : ω) :
    Triple (run config env explicit n passes) (start w)
      (fun _ ctx => ∀ segment ∈ iterations ctx.trace, P (containerEvents segment))
      fun e ctx => (∀ segment ∈ iterations ctx.trace, P (containerEvents segment)) ∨
        e = .panic ∧ ∃ done last, iterations ctx.trace = done ++ [last] ∧
          (∀ segment ∈ done, P (containerEvents segment)) ∧ containerEvents last = [] := by
  have hstart (ctx : Context ω) (h : Quiet (start w) ctx) : ∀ segment ∈ iterations ctx.trace,
      P (containerEvents segment) := by
    obtain ⟨new, htrace, hnew⟩ := h
    rw [htrace, iterations_eq_nil fun E hE => (hnew E (by simpa [start] using hE)).1]
    simp
  have hnext (ctx ctx' : Context ω) (h : ∀ segment ∈ iterations ctx.trace,
      P (containerEvents segment)) (h' : Segment P ctx ctx') : ∀ segment ∈ iterations ctx'.trace,
      P (containerEvents segment) := by
    obtain ⟨body, hbody, hiter⟩ := h'.iterations
    rw [hiter, List.forall_mem_append]
    exact ⟨h, by simpa using hbody⟩
  refine run_triple (quiet_waits env).toAlongPings (fun _ ctx h _ => hstart ctx h) fun ctx h => ?_
  refine Triple.loop (I := fun ctx => ∀ segment ∈ iterations ctx.trace,
    P (containerEvents segment)) (fun ctx h => ?_) (fun _ h => .inl h) n (hstart ctx h)
  refine (iteration_segment hP passes ctx).mono (fun r ctx' h' => ?_) fun e ctx' h' => ?_
  · cases r with
    | none => exact hnext ctx ctx' h h'
    | some result => exact hnext ctx ctx' h h'
  · obtain h' | ⟨he, h'⟩ := h'
    · exact .inl (hnext ctx ctx' h h')
    · obtain ⟨body, hbody, hiter⟩ := h'.iterations
      exact .inr ⟨he, _, body, hiter, h, hbody⟩

end

/-- In every iteration the containers are isolated, unless the run panics in the first
notification of its last iteration, which then handles no container. -/
theorem run_segments (config : Config) (env : Environment ω) (explicit : List Text)
    (n passes : ℕ) (w : ω) :
    Triple (run config env explicit n passes) (start w)
      (fun _ ctx => ∀ segment ∈ iterations ctx.trace,
        Isolated config explicit (containerEvents segment))
      fun e ctx => (∀ segment ∈ iterations ctx.trace,
        Isolated config explicit (containerEvents segment)) ∨
        e = .panic ∧ ∃ done last, iterations ctx.trace = done ++ [last] ∧
          (∀ segment ∈ done, Isolated config explicit (containerEvents segment)) ∧
          containerEvents last = [] :=
  run_each (isolated_work explicit) n passes w

def NoPublish (ctx : Context ω) : Prop := ∀ E ∈ ctx.trace, ∀ p r, E.event ≠ .publish p r

theorem NoPublish.quiet {ctx ctx' : Context ω} (h : NoPublish ctx) (h' : Quiet ctx ctx') :
    NoPublish ctx' := by
  obtain ⟨new, htrace, hnew⟩ := h'
  rw [NoPublish, htrace, List.forall_mem_append]
  refine ⟨h, fun E hE p r hp => ?_⟩
  have hcontainer := (hnew E hE).2
  rw [hp] at hcontainer
  cases hcontainer

private theorem Visit.Faithful.dryRun {v : Visit} (h : v.Faithful config)
    (hdry : config.dryRun = true) : v.published = none := by
  rw [Visit.Faithful, publication?.eq_def] at h
  cases hv : v.inspected with
  | error e => simpa [hv] using h
  | ok inspection => simpa [hv, hdry] using h

private theorem NoPublish.work {ctx : Context ω} (h : NoPublish ctx) (hdry : config.dryRun = true)
    (explicit : List Text) : NoPublish (worked config env explicit ctx) := by
  obtain ⟨new, hnew, hevents⟩ : ∃ new, (refreshed config env explicit ctx).trace =
      ctx.trace ++ new ∧ new.map Entry.event = (askStep config env ctx).1.events ++
        (visits config env explicit ctx).flatMap Visit.events := refreshed_new explicit ctx
  rw [NoPublish, worked, Context.note, hnew]
  simp only [List.forall_mem_append]
  refine ⟨⟨h, fun E hE p r hp => ?_⟩, by simp⟩
  have hmem : E.event ∈ new.map Entry.event := List.mem_map_of_mem hE
  rw [hevents, hp] at hmem
  obtain hasked | hvisit := List.mem_append.mp hmem
  · simp [Asked.events] at hasked
  · obtain ⟨v, hv, hpublish⟩ := List.mem_flatMap.mp hvisit
    have hfaithful : v.Faithful config := visits_faithful explicit ctx v hv
    simp [Visit.events, hfaithful.dryRun hdry] at hpublish

theorem iteration_noPublish (explicit : List Text) (passes : ℕ) (hdry : config.dryRun = true)
    {ctx : Context ω} (h : NoPublish ctx) :
    Triple (iteration config env explicit passes) ctx (fun _ => NoPublish) fun _ => NoPublish := by
  have hwaits := quiet_waits env
  have hmark : NoPublish (ctx.record .iteration ctx.world) := by
    intro E hE
    obtain hE | hE := List.mem_append.mp hE
    · exact h E hE
    · rw [List.mem_singleton.mp hE]
      simp
  refine iteration_triple ((notifyStatus_along hwaits.toAlongPings _ _).mono
    (fun _ _ h => hmark.quiet h) fun _ _ h => hmark.quiet h) fun ctx₁ h₁ => ?_
  have hwork : NoPublish (worked config env explicit ctx₁) := h₁.work hdry explicit
  exact (endIteration_along hwaits _ passes _).mono (fun _ _ h => hwork.quiet h)
    fun _ _ h => hwork.quiet h

theorem run_noPublish (config : Config) (env : Environment ω) (explicit : List Text)
    (n passes : ℕ) (w : ω) (hdry : config.dryRun = true) :
    Triple (run config env explicit n passes) (start w) (fun _ => NoPublish)
      fun _ => NoPublish := by
  exact run_invariant (fun ctx h => NoPublish.quiet (by simp [NoPublish, start]) h)
    fun ctx h => iteration_noPublish explicit passes hdry h

/-- In every iteration the containers are isolated, and a dry run never publishes. The
iteration in which a run panics before its work handles no container. -/
theorem run_isolated (config : Config) (env : Environment ω) (explicit : List Text)
    (n passes : ℕ) (w : ω) :
    let program := run config env explicit n passes
    let trace := (finalState program (start w)).trace
    ((∀ segment ∈ iterations trace, Isolated config explicit (containerEvents segment)) ∨
      ∃ done last, iterations trace = done ++ [last] ∧
        (∀ segment ∈ done, Isolated config explicit (containerEvents segment)) ∧
        containerEvents last = [] ∧ ∃ ctx, program (start w) = .error .panic ctx) ∧
    (config.dryRun = true → ∀ E ∈ trace, ∀ p r, E.event ≠ .publish p r) := by
  intro program trace
  constructor
  · have h := run_segments config env explicit n passes w
    cases hx : program (start w) with
    | ok r ctx =>
      have htrace : trace = ctx.trace := by simp only [trace, finalState, hx]
      rw [htrace]
      exact .inl (h.of_ok hx)
    | error e ctx =>
      have htrace : trace = ctx.trace := by simp only [trace, finalState, hx]
      rw [htrace]
      obtain h | ⟨rfl, done, last, hiter, hdone, hlast⟩ := h.of_error hx
      · exact .inl h
      · exact .inr ⟨done, last, hiter, hdone, hlast, ctx, rfl⟩
  · exact fun hdry => (run_noPublish config env explicit n passes w hdry).finalState

end Beachhead.Companion
