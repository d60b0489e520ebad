import Beachhead.Provenance

/-!
# The store converges

While the inspector's answers do not change, every iteration publishes the same. After
the first one the store holds what the containers ask for and keeps it, whatever it held
before, in whichever order the iterations handle the containers and however often they do.
-/
namespace Beachhead.Companion
open Program RedisPublisher Causation

variable {ω : Type} {config : Config} {env : Environment ω}
  {answer : Text → Except InspectionError Inspection}
  {found : List Text × Except InspectionError Unit}

/-- The inspector always gives the same answers, also where they are errors. -/
structure Settled (env : Environment ω) (answer : Text → Except InspectionError Inspection)
    (found : List Text × Except InspectionError Unit) : Prop where
  enumerate : ∀ w, (env.inspector.enumerate w []).1 = (found.2, found.1)
  inspect : ∀ w name, (env.inspector.inspect w name).1 = answer name

/-- What every iteration is answered if it asks for names. -/
def enumerated (config : Config) (found : List Text × Except InspectionError Unit) : Asked :=
  if config.enumerate then some found else none

/-- The names that every iteration handles. -/
def handled (config : Config) (explicit : List Text)
    (found : List Text × Except InspectionError Unit) : List Text :=
  explicit ++ (enumerated config found).names

/-- One of the containers asks for the publication. -/
def Wanted (config : Config) (answer : Text → Except InspectionError Inspection)
    (names : List Text) (p : Publication) : Prop :=
  ∃ name ∈ names, publication? config (answer name) = some p

/-- No two containers ask for different specs under one host. -/
def Consistent (config : Config) (answer : Text → Except InspectionError Inspection)
    (names : List Text) : Prop :=
  ∀ p p', Wanted config answer names p → Wanted config answer names p' → p.host = p'.host → p = p'

/-- In `w'` the key of every host that is asked for has the value that is asked for, and any
other key the value that it had in `w`, unless it has expired. -/
structure Converged (K : Json.Codec) (R : Redis.Server ω) (config : Config)
    (answer : Text → Except InspectionError Inspection) (names : List Text) (w w' : ω) : Prop where
  wanted : ∀ p, Wanted config answer names p → ∀ text,
    R.stored w' (config.keyPrefix ++ p.host) = some text → text = storedText K p.host p.specs
  other : ∀ key, (∀ p, Wanted config answer names p → key ≠ config.keyPrefix ++ p.host) →
    ∀ text, R.stored w' key = some text → R.stored w key = some text

private theorem visit_inspected (h : Settled env answer found) (ctx : Context ω)
    (name : Pending Text) : (visit config env ctx name).1.inspected = answer name.todo := by
  have hanswer : (inspectStep env ctx name.todo).1 = answer name.todo := h.inspect _ _
  cases hp : publication? config (inspectStep env ctx name.todo).1 with
  | none => rw [visit_none hp, hanswer]
  | some publication => rw [visit_some hp, hanswer]

private theorem visitAll_inspected (h : Settled env answer found) (ctx : Context ω)
    (names : List (Pending Text)) :
    ∀ v ∈ (visitAll config env ctx names).1, v.inspected = answer v.name.todo := by
  induction names generalizing ctx with
  | nil => simp [visitAll]
  | cons name names ih =>
    rw [visitAll, List.forall_mem_cons]
    exact ⟨by rw [visit_inspected h, visit_name], ih _⟩

theorem asked_settled (h : Settled env answer found) (ctx : Context ω) :
    (askStep config env ctx).1 = enumerated config found := by
  rw [askStep, enumerated]
  split
  · dsimp only
    rw [h.enumerate]
  · rfl

/-- The visits of an iteration publish what is asked for. -/
theorem wanted_iff_visited (h : Settled env answer found) (explicit : List Text) (ctx : Context ω)
    (p : Publication) : Wanted config answer (handled config explicit found) p ↔
      ∃ v ∈ visits config env explicit ctx, ∃ result, v.published = some (p, result) := by
  have hnames (name : Text) : name ∈ handled config explicit found ↔
      ∃ v ∈ visits config env explicit ctx, v.name.todo = name := by
    rw [handled, List.mem_append, ← asked_settled h ctx, ← (visits_names explicit ctx).2,
      List.mem_map]
  have hpublished (v : Visit) (hv : v ∈ visits config env explicit ctx) :
      (∃ result, v.published = some (p, result)) ↔
        publication? config (answer v.name.todo) = some p := by
    have hfaithful : v.Faithful config := visits_faithful explicit ctx v hv
    rw [Visit.Faithful, visitAll_inspected h _ _ v hv] at hfaithful
    rw [← hfaithful, Option.map_eq_some_iff]
    constructor
    · rintro ⟨result, hresult⟩
      exact ⟨_, hresult, rfl⟩
    · rintro ⟨⟨p', result⟩, hresult, rfl⟩
      exact ⟨result, hresult⟩
  constructor
  · rintro ⟨name, hname, hp⟩
    obtain ⟨v, hv, rfl⟩ := (hnames name).mp hname
    exact ⟨v, hv, (hpublished v hv).mpr hp⟩
  · rintro ⟨v, hv, hp⟩
    exact ⟨v.name.todo, (hnames _).mpr ⟨v, hv, rfl⟩, (hpublished v hv).mp hp⟩

/-- Only what is asked for is published, and all of it after an iteration has done its work. -/
structure Progress (config : Config) (answer : Text → Except InspectionError Inspection)
    (names : List Text) (ctx : Context ω) : Prop where
  only : ∀ p result, .publish p result ∈ ctx.events → Wanted config answer names p
  done : .work ∈ ctx.events → ∀ p, Wanted config answer names p →
    ∃ result, .publish p result ∈ ctx.events

theorem worked_context_events (explicit : List Text) (ctx : Context ω) :
    (worked config env explicit ctx).events = ctx.events ++ ((askStep config env ctx).1.events ++
      (visits config env explicit ctx).flatMap Visit.events ++ [.work]) := by
  have hrefreshed : (refreshed config env explicit ctx).events = ctx.events ++
      ((askStep config env ctx).1.events ++
        (visits config env explicit ctx).flatMap Visit.events) := refreshed_events explicit ctx
  have hnote : (worked config env explicit ctx).events =
      (refreshed config env explicit ctx).events ++ [.work] := by
    simp [worked, Context.note, Context.events]
  rw [hnote, hrefreshed, List.append_assoc]

/-- The publications in the calls of the work. -/
theorem publish_mem_work (explicit : List Text) (ctx : Context ω) (p : Publication)
    (result : Except PublishingError Unit) :
    .publish p result ∈ (askStep config env ctx).1.events ++
      (visits config env explicit ctx).flatMap Visit.events ++ [.work] ↔
      ∃ v ∈ visits config env explicit ctx, v.published = some (p, result) := by
  have hvisit (v : Visit) : .publish p result ∈ v.events ↔ v.published = some (p, result) := by
    simp [Visit.events]
  have hasked (asked : Asked) : .publish p result ∉ asked.events := by simp [Asked.events]
  simp [List.mem_flatMap, hvisit, hasked]

variable {names : List Text}

/-- The work of an iteration publishes everything that is asked for, and nothing else. -/
theorem Progress.worked (h : Settled env answer found) (explicit : List Text) {ctx : Context ω}
    (hctx : Progress config answer (handled config explicit found) ctx) :
    Progress config answer (handled config explicit found) (worked config env explicit ctx) ∧
      ∀ p, Wanted config answer (handled config explicit found) p →
        ∃ result, .publish p result ∈ (Companion.worked config env explicit ctx).events := by
  have hdone (p : Publication) (hp : Wanted config answer (handled config explicit found) p) :
      ∃ result, .publish p result ∈ (Companion.worked config env explicit ctx).events := by
    obtain ⟨v, hv, result, hpublished⟩ := (wanted_iff_visited h explicit ctx p).mp hp
    refine ⟨result, ?_⟩
    rw [worked_context_events]
    exact List.mem_append_right _ ((publish_mem_work explicit ctx p result).mpr ⟨v, hv, hpublished⟩)
  refine ⟨⟨fun p result hmem => ?_, fun _ => hdone⟩, hdone⟩
  rw [worked_context_events] at hmem
  obtain hmem | hmem := List.mem_append.mp hmem
  · exact hctx.only p result hmem
  · obtain ⟨v, hv, hpublished⟩ := (publish_mem_work explicit ctx p result).mp hmem
    exact (wanted_iff_visited h explicit ctx p).mpr ⟨v, hv, result, hpublished⟩

/-- Nothing is published and no iteration does its work. -/
def Uneventful (ctx ctx' : Context ω) : Prop :=
  ∃ new, ctx'.events = ctx.events ++ new ∧ .work ∉ new ∧ ∀ p result, .publish p result ∉ new

private theorem uneventful_pings (env : Environment ω) : AlongPings env Uneventful where
  refl := ⟨fun ctx => ⟨[], by simp⟩⟩
  trans := ⟨fun ctx ctx' ctx'' h h' => by
    obtain ⟨new, hevents, hwork, hpublish⟩ := h
    obtain ⟨new', hevents', hwork', hpublish'⟩ := h'
    refine ⟨new ++ new', by rw [hevents', hevents, List.append_assoc], by simp [hwork, hwork'], ?_⟩
    intro p result
    simp [hpublish p result, hpublish' p result]⟩
  now := along_call fun ctx => ⟨_, Context.events_record _ _ _, by simp⟩
  notify _ := along_call fun ctx => ⟨_, Context.events_record _ _ _, by simp⟩
  setNextWatchdog _ ctx := ⟨[], by simp [Context.events]⟩

private theorem Progress.uneventful {ctx ctx' : Context ω} (hctx : Progress config answer names ctx)
    (h : Uneventful ctx ctx') : Progress config answer names ctx' := by
  obtain ⟨new, hevents, hwork, hpublish⟩ := h
  constructor
  · intro p result hmem
    rw [hevents, List.mem_append] at hmem
    exact hctx.only p result (hmem.resolve_right (hpublish p result))
  · intro hmem p hp
    rw [hevents, List.mem_append] at hmem
    obtain ⟨result, hresult⟩ := hctx.done (hmem.resolve_right hwork) p hp
    exact ⟨result, by rw [hevents]; exact List.mem_append_left _ hresult⟩

/-- What follows the work of an iteration publishes nothing. -/
theorem Progress.quiet {ctx ctx' : Context ω} (hctx : Progress config answer names ctx)
    (hdone : ∀ p, Wanted config answer names p → ∃ result, .publish p result ∈ ctx.events)
    (h : Quiet ctx ctx') : Progress config answer names ctx' := by
  obtain ⟨new, htrace, hnew⟩ := h
  have hevents : ctx'.events = ctx.events ++ new.map Entry.event := by
    rw [Context.events, htrace, List.map_append]
    rfl
  constructor
  · intro p result hmem
    rw [hevents, List.mem_append] at hmem
    obtain hmem | hmem := hmem
    · exact hctx.only p result hmem
    · obtain ⟨E, hE, hevent⟩ := List.mem_map.mp hmem
      have hcontainer := (hnew E hE).2
      rw [hevent] at hcontainer
      cases hcontainer
  · intro _ p hp
    obtain ⟨result, hresult⟩ := hdone p hp
    exact ⟨result, by rw [hevents]; exact List.mem_append_left _ hresult⟩

theorem iteration_progress (h : Settled env answer found) (explicit : List Text) (passes : ℕ)
    {ctx : Context ω} (hctx : Progress config answer (handled config explicit found) ctx) :
    Triple (iteration config env explicit passes) ctx
      (fun _ => Progress config answer (handled config explicit found))
      fun _ => Progress config answer (handled config explicit found) := by
  have hmark : Uneventful ctx (ctx.record .iteration ctx.world) :=
    ⟨_, Context.events_record _ _ _, by simp⟩
  refine iteration_triple ((notifyStatus_along (uneventful_pings env) _ _).mono
    (fun _ _ h' => (hctx.uneventful hmark).uneventful h')
    fun _ _ h' => (hctx.uneventful hmark).uneventful h') fun ctx₁ h₁ => ?_
  obtain ⟨hworked, hdone⟩ := h₁.worked h explicit
  exact (endIteration_along (quiet_waits env) _ passes _).mono
    (fun _ _ h' => hworked.quiet hdone h') fun _ _ h' => hworked.quiet hdone h'

theorem run_progress (config : Config) (h : Settled env answer found) (explicit : List Text)
    (n passes : ℕ) (w : ω) : Progress config answer (handled config explicit found)
      (finalState (run config env explicit n passes) (start w)) := by
  have hstart : Progress config answer (handled config explicit found) (start w) :=
    ⟨by simp [start, Context.events], by simp [start, Context.events]⟩
  refine Triple.finalState (run_triple (uneventful_pings env)
    (fun _ ctx hctx _ => hstart.uneventful hctx) fun ctx hctx => ?_)
  exact Triple.loop_invariant (fun _ => iteration_progress h explicit passes) n
    (hstart.uneventful hctx)

/-- A publication that succeeded has stored its value. -/
theorem published_stored {K : Json.Codec} {R : Redis.Server ω} (hR : R.SetExLaw)
    (hP : env.publisher = RedisPublisher.toPublish K R config) {e : UInt32}
    (he : config.expireSeconds = some e) {E : Entry ω} {p : Publication}
    (hE : CalledEntry env E) (hevent : E.event = .publish p (.ok ())) :
    R.stored E.after (hostKey config p.host) = some (storedText K p.host p.specs) := by
  rw [CalledEntry, hevent, hP] at hE
  have hok : (RedisPublisher.publish K R config E.before p).1 = .ok () := congrArg Prod.fst hE
  have hafter : E.after = (R.execute E.before (request K config p)).2 :=
    (congrArg Prod.snd hE).symm
  have hexecuted := publish_ok hok
  rw [hafter]
  rw [request_setEx K config p he] at hexecuted ⊢
  exact hR.self _ _ _ _ hexecuted

/-- After a publication has stored its value, the host has this value or that of a later
publication. -/
theorem stored_since {K : Json.Codec} {R : Redis.Server ω} (hR : R.SetExLaw)
    (hP : env.publisher = RedisPublisher.toPublish K R config) {e : UInt32}
    (he : config.expireSeconds = some e) {P : Entry ω} {p : Publication}
    (hcalled : CalledEntry env P) (hevent : P.event = .publish p (.ok ()))
    {entries : List (Entry ω)} {w : ω}
    (h : Justified (fun w (f : Text × Text) => R.stored w f.1 = some f.2) (Publishes K config)
      P.after entries w) {text : Text} (htext : R.stored w (hostKey config p.host) = some text) :
    text = storedText K p.host p.specs ∨ ∃ F ∈ entries, ∃ p' result,
      F.event = .publish p' result ∧ p'.host = p.host ∧ text = storedText K p.host p'.specs := by
  obtain hold | ⟨F, hF, p', result, hF_event, hkey, hpayload⟩ := h (_, text) htext
  · have hset := published_stored hR hP he hcalled hevent
    exact .inl (Option.some.inj (hold.symm.trans hset))
  · have hhost : p.host = p'.host := hostKey_injective config hkey
    rw [Payload, he] at hpayload
    exact .inr ⟨F, hF, p', result, hF_event, hhost.symm, by rw [hhost]; exact hpayload⟩

/-- While the containers stay as they are, the store has converged once an iteration has done its
work: every host that is asked for has the specs that are asked for, and nothing else has
changed. -/
theorem run_converges {ω : Type} (K : Json.Codec) (R : Redis.Server ω) (hR : R.SetExLaw)
    (hW : WriteLaw R) (config : Config) (env : Environment ω)
    (hP : env.publisher = RedisPublisher.toPublish K R config) (e : UInt32)
    (he : config.expireSeconds = some e)
    (hinert : Inert env fun w (f : Text × Text) => R.stored w f.1 = some f.2)
    (answer : Text → Except InspectionError Inspection)
    (found : List Text × Except InspectionError Unit)
    (h : Settled env answer found) (explicit : List Text)
    (hconsistent : Consistent config answer (handled config explicit found)) (n passes : ℕ) (w : ω)
    (hdone : ∃ E ∈ (finalState (run config env explicit n passes) (start w)).trace,
      E.event = .work)
    (hok : ∀ E ∈ (finalState (run config env explicit n passes) (start w)).trace,
      ∀ p result, E.event = .publish p result → result = .ok ()) :
    Converged K R config answer (handled config explicit found) w
      (finalState (run config env explicit n passes) (start w)).world := by
  have hprogress : Progress config answer (handled config explicit found)
      (finalState (run config env explicit n passes) (start w)) :=
    run_progress config h explicit n passes w
  have hcalled := run_called config env explicit n passes w
  have hchain := run_accounts config hinert (publish_causes hW hP) explicit n passes w
  generalize finalState (run config env explicit n passes) (start w) = final at *
  have hwork : .work ∈ final.events := List.mem_map.mpr hdone
  have honly {E : Entry ω} (hE : E ∈ final.trace) {p : Publication}
      {result : Except PublishingError Unit} (hevent : E.event = .publish p result) :
      Wanted config answer (handled config explicit found) p :=
    hprogress.only p result (List.mem_map.mpr ⟨E, hE, hevent⟩)
  constructor
  · intro p hp text htext
    obtain ⟨result, hpublished⟩ := hprogress.done hwork p hp
    obtain ⟨P, hPmem, hevent⟩ := List.mem_map.mp hpublished
    obtain rfl := hok P hPmem p result hevent
    obtain ⟨u, v, htrace⟩ := List.append_of_mem hPmem
    rw [htrace] at hchain
    obtain hold | ⟨P', hP', p', result', hevent', hhost, hpayload⟩ :=
      stored_since hR hP he (hcalled P hPmem) hevent hchain.split.2.justified htext
    · exact hold
    · have hP'mem : P' ∈ final.trace := by
        rw [htrace]
        exact List.mem_append_right _ (List.mem_cons_of_mem _ hP')
      obtain rfl := hconsistent p p' hp (honly hP'mem hevent') hhost.symm
      exact hpayload
  · intro key hkey text htext
    obtain hold | ⟨P, hPmem, p, result, hevent, hhost, -⟩ := hchain.justified (key, text) htext
    · exact hold
    · exact absurd hhost (hkey p (honly hPmem hevent))

/-- What the two containers answer. -/
def twoAnswers (name : Text) : Except InspectionError Inspection :=
  DockerInspector.inspection Config.default name (twoContainers id name)

private theorem twoAnswers_settled :
    Settled (storeEnvironment Config.default (twoContainers id)) twoAnswers ([], .ok ()) :=
  ⟨fun _ => rfl, fun _ _ => docker_inspect_ok rfl⟩

/-- Containers with addresses of their own are consistent. -/
theorem twoAnswers_consistent (names : List Text) :
    Consistent Config.default twoAnswers names := by
  have hname {p : Publication} {name : Text}
      (h : publication? Config.default (twoAnswers name) = some p) : p.host = name := by
    obtain ⟨host, specs, hinspection, rfl, -⟩ := publication?_found h
    exact inspection_host hinspection
  rintro p p' ⟨name, -, hp⟩ ⟨name', -, hp'⟩ hhost
  rw [hname hp, hname hp'] at hhost
  subst hhost
  exact Option.some.inj (hp.symm.trans hp')

/-- A store with an old value of one of the containers. -/
def staleStore (key : Text) : Option Text :=
  if key = "beta".toList then some "old".toList else none

theorem run_converges_stale : Converged Json.compact Redis.memory Config.default twoAnswers
    (handled Config.default ["alpha".toList, "beta".toList] ([], .ok ())) staleStore
    (finalState (run Config.default (storeEnvironment Config.default (twoContainers id))
      ["alpha".toList, "beta".toList] 1 1) (start staleStore)).world := by
  refine run_converges Json.compact Redis.memory Redis.memory_setExLaw memory_writeLaw
    Config.default (storeEnvironment Config.default (twoContainers id)) rfl 60 rfl
    ⟨fun _ _ => id, fun _ _ _ => id, fun _ _ => id, fun _ _ _ _ => id, fun _ _ => id,
      fun _ _ _ => id⟩ twoAnswers _ twoAnswers_settled ["alpha".toList, "beta".toList]
    (twoAnswers_consistent _) 1 1 staleStore (by decide +kernel) fun E hE p result hevent => ?_
  have hcalled := run_called Config.default (storeEnvironment Config.default (twoContainers id))
    ["alpha".toList, "beta".toList] 1 1 staleStore E hE
  rw [CalledEntry, hevent] at hcalled
  have hpublish : (RedisPublisher.publish Json.compact Redis.memory Config.default E.before
      p).1 = .ok () := by
    simp only [RedisPublisher.publish, request_setEx Json.compact Config.default p rfl,
      Redis.memory_setEx, if_neg (by decide : Nat.toDigits 10 (60 : UInt32).toNat ≠ ['0'])]
    rfl
  exact (congrArg Prod.fst hcalled).symm.trans hpublish

end Beachhead.Companion
