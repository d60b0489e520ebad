import Beachhead.Causation
import Beachhead.Lifecycle
import Beachhead.Registration

/-!
# Where a stored value comes from

Only a publication brings about that something is stored. So at every moment of a run,
what is stored was stored at the start or was published since, and what is published
was found by the inspection directly before.
-/
namespace Beachhead.Companion
open Program Machine RedisPublisher Causation

variable {ω φ : Type} {config : Config} {env : Environment ω}

/-- The calls between the two states account for every fact. -/
def Accounts (holds : ω → φ → Prop) (causes : Entry ω → φ → Prop) (ctx ctx' : Context ω) : Prop :=
  ∃ new, ctx'.trace = ctx.trace ++ new ∧
    Chained Entry.after holds causes ctx.world new ctx'.world

/-- Only the publisher brings anything about. -/
structure Inert (env : Environment ω) (holds : ω → φ → Prop) : Prop where
  now : ∀ w f, holds (env.now w).2 f → holds w f
  notify : ∀ w entries f, holds (env.notify w entries).2 f → holds w f
  poll : ∀ w f, holds (env.poll w).2 f → holds w f
  select : ∀ w refresh watchdog f, holds (env.select w refresh watchdog).2 f → holds w f
  enumerate : ∀ w f, holds (env.inspector.enumerate w []).2 f → holds w f
  inspect : ∀ w name f, holds (env.inspector.inspect w name).2 f → holds w f

section
variable {holds : ω → φ → Prop} {causes : Entry ω → φ → Prop}

private theorem accounts_record {ctx : Context ω} {event : Event} {w : ω}
    (h : Justified holds causes ctx.world [⟨event, ctx.world, w⟩] w) :
    Accounts holds causes ctx (ctx.record event w) :=
  ⟨[⟨event, ctx.world, w⟩], rfl, .cons h (.nil w)⟩

private theorem accounts_inert {ctx : Context ω} {event : Event} {w : ω}
    (h : ∀ f, holds w f → holds ctx.world f) : Accounts holds causes ctx (ctx.record event w) :=
  accounts_record fun f hf => .inl (h f hf)

/-- What holds at any moment of a run held at the start or was caused by a publication. -/
theorem accounts_run (h : Inert env holds)
    (hpublish : ∀ w p f, holds (env.publisher.publish w p).2 f → holds w f ∨
      causes ⟨.publish p (env.publisher.publish w p).1, w, (env.publisher.publish w p).2⟩ f) :
    AlongRun env (Accounts holds causes) where
  refl := ⟨fun ctx => ⟨[], by simp, .nil _⟩⟩
  trans := ⟨fun ctx ctx' ctx'' h h' => by
    obtain ⟨new, htrace, hnew⟩ := h
    obtain ⟨new', htrace', hnew'⟩ := h'
    exact ⟨new ++ new', by rw [htrace', htrace, List.append_assoc], hnew.append hnew'⟩⟩
  now := along_call fun ctx => accounts_inert (h.now ctx.world)
  notify entries := along_call fun ctx => accounts_inert (h.notify ctx.world entries)
  setNextWatchdog _ _ := ⟨[], by simp, .nil _⟩
  wait := along_call fun _ => accounts_inert fun _ => id
  waitPass := along_call fun _ => accounts_inert fun _ => id
  poll := along_call fun ctx => accounts_inert (h.poll ctx.world)
  after _ _ := along_call fun _ => accounts_inert fun _ => id
  select refresh watchdog := along_call fun ctx =>
    accounts_inert (h.select ctx.world refresh watchdog)
  enumerate := along_call fun ctx => accounts_inert (h.enumerate ctx.world)
  inspect name := along_call fun ctx => accounts_inert (h.inspect ctx.world name)
  publish p := along_call fun ctx => accounts_record fun f hf => by
    simpa using hpublish ctx.world p f hf
  iteration := along_call fun _ => accounts_inert fun _ => id
  work ctx before := ⟨[⟨.work, before, ctx.world⟩], rfl, .cons (fun _ hf => .inl hf) (.nil _)⟩

/-- What holds at any later moment of a run held at an earlier one or was caused by a
publication between the two. -/
theorem run_accounts (config : Config) (h : Inert env holds)
    (hpublish : ∀ w p f, holds (env.publisher.publish w p).2 f → holds w f ∨
      causes ⟨.publish p (env.publisher.publish w p).1, w, (env.publisher.publish w p).2⟩ f)
    (explicit : List Text) (n passes : ℕ) (w : ω) :
    Chained Entry.after holds causes w
      (finalState (run config env explicit n passes) (start w)).trace
      (finalState (run config env explicit n passes) (start w)).world := by
  obtain ⟨new, hnew, hchain⟩ :=
    finalState_along config (accounts_run h hpublish) explicit n passes w
  rw [hnew]
  exact hchain

end

/-- What is relied on of the requests of the publisher, also when they fail: a key that they
do not set keeps its value or loses it. -/
structure WriteLaw (R : Redis.Server ω) : Prop where
  setEx : ∀ w k v n key text,
    R.stored (R.execute w (Redis.setEx [k] [v] n)).2 key = some text →
      R.stored w key = some text ∨ key = k ∧ text = v
  set : ∀ w k vs key text, R.stored (R.execute w (Redis.set [k] vs)).2 key = some text →
    R.stored w key = some text ∨ key = k ∧ vs = [text]

/-- The value that is stored for a publication. Without an expiration it is the text of the only
spec. -/
def Payload (K : Json.Codec) (config : Config) (p : Publication) (text : Text) : Prop :=
  if config.expireSeconds.isSome then text = storedText K p.host p.specs
  else ∃ spec, p.specs = [spec] ∧
    text = K.encode (.object (JsonSerializer.domainConfig p.host spec))

/-- The entry publishes the text under the key. -/
def Publishes (K : Json.Codec) (config : Config) (E : Entry ω) (f : Text × Text) : Prop :=
  ∃ p result, E.event = .publish p result ∧ f.1 = hostKey config p.host ∧ Payload K config p f.2

/-- What a publication stores. -/
theorem publish_stored {K : Json.Codec} {R : Redis.Server ω} (hR : WriteLaw R) (w : ω)
    (p : Publication) {key text : Text}
    (h : R.stored (RedisPublisher.publish K R config w p).2 key = some text) :
    R.stored w key = some text ∨ key = hostKey config p.host ∧ Payload K config p text := by
  have hw : (RedisPublisher.publish K R config w p).2 = (R.execute w (request K config p)).2 := rfl
  rw [hw] at h
  cases he : config.expireSeconds with
  | some e =>
    rw [request_setEx K config p he] at h
    obtain h | ⟨hkey, htext⟩ := hR.setEx _ _ _ _ _ _ h
    · exact .inl h
    · exact .inr ⟨hkey, by rw [Payload, he]; exact htext⟩
  | none =>
    have hnone : { config with expireSeconds := none } = config := by rw [← he]
    rw [← hnone, request_set] at h
    obtain h | ⟨hkey, htext⟩ := hR.set _ _ _ _ _ h
    · exact .inl h
    · refine .inr ⟨hkey, ?_⟩
      rw [JsonSerializer.domainConfigs, List.map_map] at htext
      obtain ⟨spec, hspecs, henc⟩ := List.map_eq_singleton_iff.mp htext
      rw [Payload, he]
      exact ⟨spec, hspecs, henc.symm⟩

theorem publish_causes {K : Json.Codec} {R : Redis.Server ω} (hR : WriteLaw R)
    (hP : env.publisher = RedisPublisher.toPublish K R config) (w : ω) (p : Publication)
    (f : Text × Text) (hf : R.stored (env.publisher.publish w p).2 f.1 = some f.2) :
    R.stored w f.1 = some f.2 ∨ Publishes K config
      ⟨.publish p (env.publisher.publish w p).1, w, (env.publisher.publish w p).2⟩ f := by
  rw [hP] at hf
  obtain hold | ⟨hkey, hpayload⟩ := publish_stored hR w p hf
  · exact .inl hold
  · exact .inr ⟨p, _, rfl, hkey, hpayload⟩

/-- A publication is what an inspection found. -/
theorem publication?_found {r : Except InspectionError Inspection} {publication : Publication}
    (h : publication? config r = some publication) : ∃ host specs,
      r = .ok ⟨host, specs, true⟩ ∧ publication = ⟨host, specs⟩ ∧ config.dryRun = false := by
  cases r with
  | error e => cases h
  | ok inspection =>
    obtain ⟨host, specs, envvarPresent⟩ := inspection
    obtain ⟨hasked, hpublication⟩ := Option.ite_none_right_eq_some.mp h
    rw [Bool.and_eq_true, Bool.not_eq_true'] at hasked
    obtain ⟨rfl, hdry⟩ := hasked
    exact ⟨host, specs, rfl, (Option.some.inj hpublication).symm, hdry⟩

/-- Only an inspection leads to a phase in which something is to be published. -/
theorem advance_found {p : Phase} {e : Event} {publication : Publication}
    (h : p.advance config e = some (.refreshing (some publication))) :
    ∃ name result, e = .inspect name result ∧ publication? config result = some publication := by
  have hwork : Phase.work config ≠ .refreshing (some publication) := by
    rw [Phase.work]
    split <;> simp
  have hleave : Phase.leave config ≠ .refreshing (some publication) := by
    rw [Phase.leave]
    split <;> simp
  by_contra hother
  unfold Phase.advance at h
  split at h
  all_goals try split_ifs at h
  all_goals first
    | cases h
    | exact hwork (Option.some.inj h)
    | exact hleave (Option.some.inj h)
    | exact hother ⟨_, _, rfl, by simpa using h⟩

/-- In the phase in which something is to be published, the last call found it. -/
theorem found_before {u : List Event} {q : Phase} {publication : Publication}
    (h : read (Phase.advance config) (Phase.initial config) u = some q)
    (hq : q = .refreshing (some publication)) : ∃ u' name result,
      u = u' ++ [.inspect name result] ∧ publication? config result = some publication := by
  refine read_invariant (I := fun u q => ∀ publication, q = .refreshing (some publication) →
    ∃ u' name result, u = u' ++ [.inspect name result] ∧
      publication? config result = some publication) ?_ ?_ h publication hq
  · intro publication hq
    rw [Phase.initial] at hq
    split at hq
    · cases hq
    · cases hq
  · rintro u p e r - hstep publication rfl
    obtain ⟨name, result, rfl, hfound⟩ := advance_found hstep
    exact ⟨u, name, result, rfl, hfound⟩

private theorem advance_publish {p r : Phase} {publication : Publication}
    {result : Except PublishingError Unit}
    (h : p.advance config (.publish publication result) = some r) :
    p = .refreshing (some publication) := by
  cases p with
  | refreshing found =>
    cases found with
    | none => cases h
    | some found =>
      obtain ⟨rfl, -⟩ := Option.ite_none_right_eq_some.mp h
      rfl
  | _ => cases h

/-- A publication follows directly after the inspection that found it. -/
theorem published_found {explicit : List Text} {n passes : ℕ} {w : ω} {u v : List (Entry ω)}
    {P : Entry ω} {p : Publication} {result : Except PublishingError Unit}
    (h : (finalState (run config env explicit n passes) (start w)).trace = u ++ P :: v)
    (hP : P.event = .publish p result) : config.dryRun = false ∧ ∃ u' I name, u = u' ++ [I] ∧
      I.event = .inspect name (.ok ⟨p.host, p.specs, true⟩) := by
  obtain ⟨q, hq⟩ := finalState_phase config env explicit n passes w
  have hevents : (finalState (run config env explicit n passes) (start w)).events =
      u.map Entry.event ++ .publish p result :: v.map Entry.event := by
    simp [Context.events, h, hP]
  rw [InPhase, hevents] at hq
  obtain ⟨q', r, hu, hstep, -⟩ := read_middle hq
  obtain ⟨u', name, result', hu', hfound⟩ := found_before hu (advance_publish hstep)
  obtain ⟨host, specs, rfl, rfl, hdry⟩ := publication?_found hfound
  obtain ⟨u₀, last, rfl, -, hlast⟩ := List.map_eq_append_iff.mp hu'
  obtain ⟨I, rfl, hI⟩ := List.map_eq_singleton_iff.mp hlast
  exact ⟨hdry, u₀, I, name, rfl, hI⟩

/-- The entry of an inspection or a publication is the call of the environment. -/
def CalledEntry (env : Environment ω) (E : Entry ω) : Prop :=
  match E.event with
  | .inspect name result => env.inspector.inspect E.before name = (result, E.after)
  | .publish publication result => env.publisher.publish E.before publication = (result, E.after)
  | _ => True

def Called (env : Environment ω) (ctx ctx' : Context ω) : Prop :=
  ∃ new, ctx'.trace = ctx.trace ++ new ∧ ∀ E ∈ new, CalledEntry env E

private theorem called_record {ctx : Context ω} {event : Event} {w : ω}
    (h : CalledEntry env ⟨event, ctx.world, w⟩) : Called env ctx (ctx.record event w) :=
  ⟨[⟨event, ctx.world, w⟩], rfl, by simpa using h⟩

instance : Std.Refl (Called env) := ⟨fun _ => ⟨[], by simp⟩⟩

instance : IsTrans (Context ω) (Called env) := ⟨fun ctx ctx' ctx'' h h' => by
  obtain ⟨new, htrace, hnew⟩ := h
  obtain ⟨new', htrace', hnew'⟩ := h'
  exact ⟨new ++ new', by rw [htrace', htrace, List.append_assoc],
    List.forall_mem_append.mpr ⟨hnew, hnew'⟩⟩⟩

theorem called_run (env : Environment ω) : AlongRun env (Called env) where
  toAlongWaits := waits_of_record env (fun _ _ => ⟨[], by simp⟩) fun ctx event w _ hcontainer => by
    apply called_record
    cases event with
    | inspect name result | publish publication result => cases hcontainer
    | _ => trivial
  enumerate := along_call fun _ => called_record trivial
  inspect _ := along_call fun _ => called_record rfl
  publish _ := along_call fun _ => called_record rfl
  iteration := along_call fun _ => called_record trivial
  work ctx before := ⟨[⟨.work, before, ctx.world⟩], rfl, by simp [CalledEntry]⟩

/-- Every inspection and every publication of a run is a call of the environment. -/
theorem run_called (config : Config) (env : Environment ω) (explicit : List Text) (n passes : ℕ)
    (w : ω) : ∀ E ∈ (finalState (run config env explicit n passes) (start w)).trace,
      CalledEntry env E := by
  obtain ⟨new, hnew, hcalled⟩ := finalState_along config (called_run env) explicit n passes w
  rw [hnew]
  exact hcalled

/-- An inspection that succeeded is what the daemon answered. -/
theorem docker_answered {D : Docker ω} {w : ω} {name : Text} {inspection : Inspection}
    (h : (DockerInspector.inspect D config w name).1 = .ok inspection) : ∃ container,
      (D.inspect w name).1 = .ok container ∧
      DockerInspector.inspection config name container = .ok inspection := by
  cases hanswer : (D.inspect w name).1 with
  | error e =>
    rw [docker_inspect_error hanswer] at h
    cases h
  | ok container =>
    rw [docker_inspect_ok hanswer] at h
    exact ⟨container, rfl, h⟩

/-- The name is listed explicitly, or the iteration has found it by enumeration. -/
def Named (explicit : List Text) (before : List (Entry ω)) (name : Text) : Prop :=
  name ∈ explicit ∨ ∃ u A v names, before = u ++ A :: v ∧
    A.event = .enumerate names (.ok ()) ∧ name ∈ names ∧ ∀ E ∈ v, E.event.isIteration = false

/-- Every container was listed or found before it was inspected. -/
def NamedBefore (explicit : List Text) (ctx : Context ω) : Prop :=
  ∀ u I v name result, ctx.trace = u ++ I :: v → I.event = .inspect name result →
    Named explicit u name

section
variable {explicit : List Text}

theorem NamedBefore.append {ctx ctx' : Context ω} {new : List (Entry ω)}
    (h : NamedBefore explicit ctx) (htrace : ctx'.trace = ctx.trace ++ new)
    (hnew : ∀ u I v name result, new = u ++ I :: v → I.event = .inspect name result →
      Named explicit (ctx.trace ++ u) name) : NamedBefore explicit ctx' := by
  intro u I v name result hsplit hI
  rw [htrace] at hsplit
  rcases List.append_eq_append_iff.mp hsplit with ⟨a, rfl, hnew_eq⟩ | ⟨c, hold, hc⟩
  · exact hnew a I v name result hnew_eq hI
  · cases c with
    | nil =>
      have hwhole := hnew [] I v name result hc.symm hI
      rwa [hold, List.append_nil, List.append_nil] at hwhole
    | cons J c =>
      obtain ⟨rfl, -⟩ := List.cons.inj hc
      exact h u I c name result hold hI

theorem NamedBefore.quiet {ctx ctx' : Context ω} (h : NamedBefore explicit ctx)
    (h' : Quiet ctx ctx') : NamedBefore explicit ctx' := by
  obtain ⟨new, htrace, hnew⟩ := h'
  refine h.append htrace fun u I v name result hsplit hI => ?_
  have hcontainer := (hnew I (by simp [hsplit])).2
  rw [hI] at hcontainer
  cases hcontainer

/-- Among the calls of the work of an iteration only the visits inspect. -/
theorem visited_of_call {ctx : Context ω} {name : Text} {result : Except InspectionError Inspection}
    (h : Event.inspect name result ∈ (askStep config env ctx).1.events ++
      (visits config env explicit ctx).flatMap Visit.events) :
    name ∈ (visits config env explicit ctx).map fun v => v.name.todo := by
  obtain hask | hvisit := List.mem_append.mp h
  · simp [Asked.events] at hask
  · obtain ⟨visited, hvisited, hevent⟩ := List.mem_flatMap.mp hvisit
    rw [Visit.events, List.mem_cons] at hevent
    obtain hinspect | hpublish := hevent
    · obtain ⟨rfl, -⟩ := Event.inspect.inj hinspect
      exact List.mem_map_of_mem hvisited
    · simp at hpublish

/-- A name that is inspected in the work of an iteration is listed, or the calls before start
with the enumeration that has found it. -/
theorem named_of_calls {ctx : Context ω} {u v : List (Entry ω)} {I : Entry ω} {name : Text}
    {result : Except InspectionError Inspection} (hI : I.event = .inspect name result)
    (hcalls : containerEvents (u ++ I :: v) = (askStep config env ctx).1.events ++
      (visits config env explicit ctx).flatMap Visit.events)
    (hquiet : ∀ E ∈ u, E.event.isIteration = false) : Named explicit u name := by
  have hcall : Event.inspect name result ∈ containerEvents (u ++ I :: v) :=
    List.mem_filter.mpr ⟨by simp [hI], rfl⟩
  rw [hcalls] at hcall
  have hname := ((visits_names explicit ctx).2 name).mp (visited_of_call hcall)
  refine hname.imp_right fun hfound => ?_
  generalize (askStep config env ctx).1 = asked at hcalls hfound
  match asked with
  | none => cases hfound
  | some (names, .error e) => cases hfound
  | some (names, .ok ()) =>
    -- the first call is the enumeration, so it comes before the inspection
    cases hu : containerEvents u with
    | nil =>
      have hfirst : containerEvents (u ++ I :: v) = .inspect name result :: containerEvents v := by
        rw [containerEvents_append, hu, List.nil_append, containerEvents, List.map_cons, hI]
        rfl
      cases hfirst.symm.trans hcalls
    | cons e rest =>
      obtain rfl : e = .enumerate names (.ok ()) := by
        rw [containerEvents_append, hu] at hcalls
        exact (List.cons.inj hcalls).1
      have he : Event.enumerate names (.ok ()) ∈ containerEvents u := by
        rw [hu]
        exact List.mem_cons_self
      obtain ⟨A, hA, hevent⟩ := List.mem_map.mp (List.mem_filter.mp he).1
      obtain ⟨a, b, rfl⟩ := List.append_of_mem hA
      exact ⟨a, A, b, names, rfl, hevent, hfound, fun E hE => hquiet E (by simp [hE])⟩

theorem Named.append {before : List (Entry ω)} {name : Text} (h : Named explicit before name)
    (earlier : List (Entry ω)) : Named explicit (earlier ++ before) name :=
  h.imp_right fun ⟨u, A, v, names, hsplit, hA⟩ =>
    ⟨earlier ++ u, A, v, names, by rw [hsplit, List.append_assoc], hA⟩

private theorem NamedBefore.work {ctx : Context ω} (h : NamedBefore explicit ctx) :
    NamedBefore explicit (worked config env explicit ctx) := by
  obtain ⟨new, htrace, hnew, hcalls⟩ := worked_new config env explicit ctx
  refine h.append htrace fun u I v name result hsplit hI => ?_
  subst hsplit
  exact (named_of_calls hI hcalls fun E hE => hnew E (by simp [hE])).append ctx.trace

theorem iteration_namedBefore (passes : ℕ) {ctx : Context ω} (h : NamedBefore explicit ctx) :
    Triple (iteration config env explicit passes) ctx (fun _ => NamedBefore explicit)
      fun _ => NamedBefore explicit := by
  have hwaits := quiet_waits env
  have hmark : NamedBefore explicit (ctx.record .iteration ctx.world) := by
    refine h.append rfl fun u I v name result hsplit hI => ?_
    have hmem : I ∈ u ++ I :: v := List.mem_append_right u List.mem_cons_self
    rw [← hsplit, List.mem_singleton] at hmem
    rw [hmem] at hI
    cases hI
  refine iteration_triple ((notifyStatus_along hwaits.toAlongPings _ _).mono
    (fun _ _ h => hmark.quiet h) fun _ _ h => hmark.quiet h) fun ctx₁ h₁ => ?_
  have hwork : NamedBefore explicit (worked config env explicit ctx₁) := h₁.work
  exact (endIteration_along hwaits _ passes _).mono (fun _ _ h => hwork.quiet h)
    fun _ _ h => hwork.quiet h

/-- In a run no container is inspected that was neither listed nor found. -/
theorem run_namedBefore (config : Config) (env : Environment ω) (explicit : List Text)
    (n passes : ℕ) (w : ω) : Triple (run config env explicit n passes) (start w)
      (fun _ => NamedBefore explicit) fun _ => NamedBefore explicit := by
  refine run_invariant (fun ctx hquiet => NamedBefore.quiet ?_ hquiet)
    fun ctx h => iteration_namedBefore passes h
  intro u I v name result hsplit
  cases u with
  | nil => cases hsplit
  | cons J u => cases hsplit

end

/-- Directly before the entry a container was inspected that was listed or found, has the variable
and asks for the publication, as the docker daemon answered. -/
structure FoundBefore (D : Docker ω) (config : Config) (explicit : List Text)
    (entries : List (Entry ω)) (P : Entry ω) (p : Publication) : Prop where
  wet : config.dryRun = false
  inspected : ∃ u I v name container, entries = u ++ I :: P :: v ∧ Named explicit u name ∧
    I.event = .inspect name (.ok ⟨p.host, p.specs, true⟩) ∧
    (D.inspect I.before name).1 = .ok container ∧
    DockerInspector.inspection config name container = .ok ⟨p.host, p.specs, true⟩

/-- The entry directly before a publication is the inspection that asks for it, as the docker
daemon answered. -/
theorem published_inspected {D : Docker ω}
    (hI : env.inspector = DockerInspector.toInspect D config) {explicit : List Text}
    {n passes : ℕ} {w : ω} {u v : List (Entry ω)} {P : Entry ω} {p : Publication}
    {result : Except PublishingError Unit}
    (htrace : (finalState (run config env explicit n passes) (start w)).trace = u ++ P :: v)
    (hevent : P.event = .publish p result) :
    config.dryRun = false ∧ ∃ u' I name container, u = u' ++ [I] ∧
      I.event = .inspect name (.ok ⟨p.host, p.specs, true⟩) ∧
      (D.inspect I.before name).1 = .ok container ∧
      DockerInspector.inspection config name container = .ok ⟨p.host, p.specs, true⟩ := by
  obtain ⟨hdry, u', I, name, rfl, hinspect⟩ := published_found htrace hevent
  refine ⟨hdry, u', I, name, ?_⟩
  have hcalled : CalledEntry env I := by
    refine run_called config env explicit n passes w I ?_
    rw [htrace]
    simp
  rw [CalledEntry, hinspect, hI] at hcalled
  obtain ⟨container, hcontainer, hinspection⟩ := docker_answered (congrArg Prod.fst hcalled)
  exact ⟨container, rfl, hinspect, hcontainer, hinspection⟩

theorem published_origin {D : Docker ω} (hI : env.inspector = DockerInspector.toInspect D config)
    {explicit : List Text} {n passes : ℕ} {w : ω} {entries rest : List (Entry ω)}
    (htrace : (finalState (run config env explicit n passes) (start w)).trace = entries ++ rest)
    {P : Entry ω} (hP : P ∈ entries) {p : Publication} {result : Except PublishingError Unit}
    (hevent : P.event = .publish p result) : FoundBefore D config explicit entries P p := by
  obtain ⟨u, v, rfl⟩ := List.append_of_mem hP
  obtain ⟨hdry, u', I, name, container, rfl, hinspect, hanswer⟩ :=
    published_inspected hI (htrace.trans (List.append_assoc _ _ _)) hevent
  have hnamed : Named explicit u' name :=
    (run_namedBefore config env explicit n passes w).finalState u' I (P :: v ++ rest) name _
      (by simp [htrace]) hinspect
  exact ⟨hdry, u', I, v, name, container, by simp, hnamed, hinspect, hanswer⟩

/-- What is stored at any moment of a run was stored at the start, or a publication before that
moment has stored what the docker daemon said of a container that was listed or found. Keys that
do not start with the configured text are never written. -/
theorem stored_origin {ω : Type} (K : Json.Codec) (R : Redis.Server ω) (hR : WriteLaw R)
    (D : Docker ω) (config : Config) (env : Environment ω)
    (hI : env.inspector = DockerInspector.toInspect D config)
    (hP : env.publisher = RedisPublisher.toPublish K R config)
    (hinert : Inert env fun w (f : Text × Text) => R.stored w f.1 = some f.2)
    (explicit : List Text) (n passes : ℕ) (w : ω) (u v : List (Entry ω)) (E : Entry ω)
    (htrace : (finalState (run config env explicit n passes) (start w)).trace = u ++ E :: v)
    (key text : Text) (h : R.stored E.after key = some text) :
    R.stored w key = some text ∨ ∃ P ∈ u ++ [E], ∃ p result, P.event = .publish p result ∧
      FoundBefore D config explicit (u ++ [E]) P p ∧ key = config.keyPrefix ++ p.host ∧
      Payload K config p text := by
  have hchain := run_accounts config hinert (publish_causes hR hP) explicit n passes w
  rw [htrace] at hchain
  obtain hold | ⟨P, hPmem, p, result, hevent, hkey, hpayload⟩ :=
    hchain.split.1.justified (key, text) h
  · exact .inl hold
  · have htrace' := htrace.trans (List.append_cons u E v)
    exact .inr ⟨P, hPmem, p, result, hevent, published_origin hI htrace' hPmem hevent, hkey,
      hpayload⟩

theorem memory_writeLaw : WriteLaw Redis.memory := by
  constructor
  · intro w k v n key text h
    rw [Redis.memory_setEx] at h
    split at h
    · exact .inl h
    · by_cases hkey : key = k
      · subst hkey
        have hset : Function.update w key (some v) key = some text := h
        rw [Function.update_self] at hset
        exact .inr ⟨rfl, (Option.some.inj hset).symm⟩
      · have hset : Function.update w k (some v) key = some text := h
        rw [Function.update_of_ne hkey] at hset
        exact .inl hset
  · intro w k vs key text h
    cases vs with
    | nil => exact .inl h
    | cons v vs =>
      cases vs with
      | nil =>
        by_cases hkey : key = k
        · subst hkey
          have hset : Function.update w key (some v) key = some text := h
          rw [Function.update_self] at hset
          exact .inr ⟨rfl, by rw [Option.some.inj hset]⟩
        · have hset : Function.update w k (some v) key = some text := h
          rw [Function.update_of_ne hkey] at hset
          exact .inl hset
      | cons v' vs =>
        -- too many arguments for `SET`
        cases vs with
        | nil => exact .inl h
        | cons v'' vs => exact .inl h

/-- The trace of a run that publishes one container. -/
def alphaTrace : List (Entry (Text → Option Text)) :=
  (finalState (run Config.default (storeEnvironment Config.default (twoContainers id))
    ["alpha".toList] 1 1) (start fun _ => none)).trace

private theorem alphaTrace_length : 2 < alphaTrace.length := by decide +kernel

theorem stored_origin_alpha :
    Redis.memory.stored (fun _ => none) "alpha".toList = some (storedText Json.compact
      "alpha".toList [⟨"alpha.org".toList, some 80, some 443⟩]) ∨
    ∃ P ∈ alphaTrace.take 2 ++ [alphaTrace.get ⟨2, alphaTrace_length⟩], ∃ p result,
      P.event = .publish p result ∧ FoundBefore (fixedDocker (twoContainers id)) Config.default
        ["alpha".toList] (alphaTrace.take 2 ++ [alphaTrace.get ⟨2, alphaTrace_length⟩]) P p ∧
      "alpha".toList = Config.default.keyPrefix ++ p.host ∧
      Payload Json.compact Config.default p (storedText Json.compact
        "alpha".toList [⟨"alpha.org".toList, some 80, some 443⟩]) :=
  stored_origin Json.compact Redis.memory memory_writeLaw (fixedDocker (twoContainers id))
    Config.default (storeEnvironment Config.default (twoContainers id)) rfl rfl
    ⟨fun _ _ => id, fun _ _ _ => id, fun _ _ => id, fun _ _ _ _ => id, fun _ _ => id,
      fun _ _ _ => id⟩ ["alpha".toList] 1 1 (fun _ => none) (alphaTrace.take 2)
    (alphaTrace.drop 3) (alphaTrace.get ⟨2, alphaTrace_length⟩)
    (by rw [List.get_eq_getElem, List.getElem_cons_drop, List.take_append_drop]; rfl) _ _
    (by decide +kernel)

end Beachhead.Companion
