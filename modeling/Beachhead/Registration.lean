import Beachhead.Isolation
import Beachhead.StoreRefinement

/-!
# Registrations of one iteration

A container is published under the host that its inspection found, and not under
its own name. So the registrations of an iteration are all kept exactly when no two
of its containers have the same host.
-/
namespace Beachhead.Companion
open Program RedisPublisher

variable {ω : Type} {config : Config} {env : Environment ω}

/-- The entries that the work of an iteration adds to the trace. -/
def workEntries (config : Config) (env : Environment ω) (explicit : List Text)
    (ctx : Context ω) : List (Entry ω) :=
  (finalState (refresh config env explicit) ctx).trace.drop ctx.trace.length

def inspectedName : Event → Option Text
  | .inspect name _ => some name
  | _ => none

/-- The containers that were inspected. -/
def inspectedNames (entries : List (Entry ω)) : List Text :=
  (entries.map Entry.event).filterMap inspectedName

/-- The daemon answered the inspection with the details, the inspection succeeded with the
variable present, and the publication succeeded. -/
structure Succeeded (D : Docker ω) (details : Text → ContainerDetails) (E : Entry ω) : Prop where
  inspect : ∀ name result, E.event = .inspect name result →
    (D.inspect E.before name).1 = .ok (details name) ∧
      ∃ inspection, result = .ok inspection ∧ inspection.envvarPresent = true
  publish : ∀ publication result, E.event = .publish publication result → result = .ok ()

/-- Every container has a key of its own that holds its own specs. -/
def Registered (K : Json.Codec) (R : Redis.Server ω) (config : Config)
    (details : Text → ContainerDetails) (names : List Text) (w : ω) : Prop :=
  (∀ name ∈ names, ∃ inspection,
    DockerInspector.inspection config name (details name) = .ok inspection ∧
      R.stored w (config.keyPrefix ++ inspection.host) =
        some (K.encode (.array (JsonSerializer.domainConfigs inspection.host inspection.specs)))) ∧
  ∀ name ∈ names, ∀ name' ∈ names, name ≠ name' → ∀ inspection inspection',
    DockerInspector.inspection config name (details name) = .ok inspection →
    DockerInspector.inspection config name' (details name') = .ok inspection' →
      config.keyPrefix ++ inspection.host ≠ config.keyPrefix ++ inspection'.host

/-- The world that a Redis server and a docker daemon share: only Redis commands change
what is stored. -/
structure StoreFrame (R : Redis.Server ω) (D : Docker ω) : Prop where
  list : ∀ w status, R.stored (D.list w status).2 = R.stored w
  inspect : ∀ w name, R.stored (D.inspect w name).2 = R.stored w

/-- The host under which a container is published. -/
def hostOf (config : Config) (details : Text → ContainerDetails) (name : Text) : Text :=
  if config.dockerNetwork then name else (details name).ipAddress

theorem inspection_host {details : Text → ContainerDetails} {name : Text}
    {inspection : Inspection}
    (h : DockerInspector.inspection config name (details name) = .ok inspection) :
    inspection.host = hostOf config details name := by
  unfold DockerInspector.inspection at h
  generalize DockerInspector.parseContainerEnvVars (details name).env config false [] = parsed at h
  obtain ⟨result, envvarPresent, specs⟩ := parsed
  cases result with
  | error e => cases h
  | ok u =>
    cases h
    rfl

theorem docker_inspect_ok {D : Docker ω} {w : ω} {name : Text} {container : ContainerDetails}
    (h : (D.inspect w name).1 = .ok container) :
    (DockerInspector.inspect D config w name).1 =
      DockerInspector.inspection config name container := by
  unfold DockerInspector.inspect
  generalize D.inspect w name = answer at h
  obtain ⟨result, w'⟩ := answer
  obtain rfl : result = .ok container := h
  rfl

theorem docker_inspect_error {w : ω} {name : Text} {e : ShipliftError}
    (h : (D.inspect w name).1 = .error e) :
    (DockerInspector.inspect D config w name).1 = .error (.shiplift e) := by
  unfold DockerInspector.inspect
  generalize D.inspect w name = answer at h
  obtain ⟨result, w'⟩ := answer
  obtain rfl : result = .error e := h
  rfl

private theorem docker_inspect_world (D : Docker ω) (config : Config) (w : ω) (name : Text) :
    (DockerInspector.inspect D config w name).2 = (D.inspect w name).2 := by
  unfold DockerInspector.inspect
  generalize D.inspect w name = answer
  obtain ⟨result, w'⟩ := answer
  cases result <;> rfl

private theorem docker_enumerate_world (D : Docker ω) (w : ω) :
    (DockerInspector.enumerate D w []).2 = (D.list w "running".toList).2 := by
  unfold DockerInspector.enumerate
  generalize D.list w "running".toList = answer
  obtain ⟨result, w'⟩ := answer
  cases result <;> rfl

/-- The entry carries the answer of the inspector or of the publisher. -/
def AnsweredEntry (env : Environment ω) (E : Entry ω) : Prop :=
  match E.event with
  | .inspect name result => (env.inspector.inspect E.before name).1 = result
  | .publish publication result => (env.publisher.publish E.before publication).1 = result
  | _ => True

def Answered (env : Environment ω) (ctx ctx' : Context ω) : Prop :=
  ∃ new, ctx'.trace = ctx.trace ++ new ∧ ∀ E ∈ new, AnsweredEntry env E

private theorem answered_record {ctx : Context ω} {event : Event} {w : ω}
    (h : AnsweredEntry env ⟨event, ctx.world, w⟩) : Answered env ctx (ctx.record event w) :=
  ⟨[⟨event, ctx.world, w⟩], rfl, by simpa using h⟩

private theorem answered_work (env : Environment ω) : AlongWork env (Answered env) where
  refl := ⟨fun ctx => ⟨[], by simp⟩⟩
  trans := ⟨fun ctx ctx' ctx'' h h' => by
    obtain ⟨new, htrace, hnew⟩ := h
    obtain ⟨new', htrace', hnew'⟩ := h'
    exact ⟨new ++ new', by rw [htrace', htrace, List.append_assoc],
      List.forall_mem_append.mpr ⟨hnew, hnew'⟩⟩⟩
  enumerate := along_call fun ctx => answered_record trivial
  inspect _ := along_call fun ctx => answered_record rfl
  publish _ := along_call fun ctx => answered_record rfl

private theorem workEntries_spec (explicit : List Text) (ctx : Context ω) :
    (workEntries config env explicit ctx).map Entry.event =
      (askStep config env ctx).1.events ++
        (visits config env explicit ctx).flatMap Visit.events ∧
    ∀ E ∈ workEntries config env explicit ctx, AnsweredEntry env E := by
  have hanswered : Answered env ctx (refreshed config env explicit ctx) :=
    refreshed_along (answered_work env) explicit ctx
  obtain ⟨new, hnew, hevents⟩ : ∃ new, (refreshed config env explicit ctx).trace =
      ctx.trace ++ new ∧ new.map Entry.event = (askStep config env ctx).1.events ++
        (visits config env explicit ctx).flatMap Visit.events := refreshed_new explicit ctx
  obtain ⟨new', hnew', hinspect⟩ := hanswered
  obtain rfl : new' = new := List.append_cancel_left (hnew'.symm.trans hnew)
  have hentries : workEntries config env explicit ctx = new' := by
    rw [workEntries, finalState_refresh, hnew, List.drop_left]
  rw [hentries]
  exact ⟨hevents, hinspect⟩

private theorem inspectedNames_eq (explicit : List Text) (ctx : Context ω) :
    inspectedNames (workEntries config env explicit ctx) =
      (visits config env explicit ctx).map fun v => v.name.todo := by
  have hasked (asked : Asked) : asked.events.filterMap inspectedName = [] := by
    cases asked <;> rfl
  have hvisit (v : Visit) : v.events.filterMap inspectedName = [v.name.todo] := by
    cases h : v.published with
    | none => simp [Visit.events, h, inspectedName]
    | some p => simp [Visit.events, h, inspectedName]
  rw [inspectedNames, (workEntries_spec explicit ctx).1, List.filterMap_append, hasked,
    List.nil_append, List.filterMap_flatMap]
  simp only [hvisit, List.map_eq_flatMap]

section
variable {K : Json.Codec} {R : Redis.Server ω} {D : Docker ω} {details : Text → ContainerDetails}
  {explicit : List Text} {ctx : Context ω}

private theorem exists_workEntry {v : Visit} (hv : v ∈ visits config env explicit ctx) {e : Event}
    (he : e ∈ v.events) : ∃ E ∈ workEntries config env explicit ctx, E.event = e := by
  have hmem : e ∈ (workEntries config env explicit ctx).map Entry.event := by
    rw [(workEntries_spec explicit ctx).1]
    exact List.mem_append_right _ (List.mem_flatMap.mpr ⟨v, hv, he⟩)
  exact List.mem_map.mp hmem

/-- If every entry of the work succeeded, each container was inspected as the daemon answers
and was published. -/
theorem visit_succeeded (hI : env.inspector = DockerInspector.toInspect D config)
    (hdry : config.dryRun = false)
    (h : ∀ E ∈ workEntries config env explicit ctx, Succeeded D details E) :
    ∀ v ∈ visits config env explicit ctx, ∃ inspection,
      DockerInspector.inspection config v.name.todo (details v.name.todo) = .ok inspection ∧
      v.published = some (⟨inspection.host, inspection.specs⟩, .ok ()) := by
  intro v hv
  obtain ⟨E, hE, hevent⟩ : ∃ E ∈ workEntries config env explicit ctx,
      E.event = .inspect v.name.todo v.inspected := exists_workEntry hv (by simp [Visit.events])
  obtain ⟨hanswer, inspection, hok, hpresent⟩ := (h E hE).inspect _ _ hevent
  have hinspected : v.inspected =
      DockerInspector.inspection config v.name.todo (details v.name.todo) := by
    have hanswered : AnsweredEntry env E := (workEntries_spec explicit ctx).2 E hE
    rw [AnsweredEntry, hevent] at hanswered
    rw [← docker_inspect_ok hanswer, ← hanswered, hI]
    rfl
  refine ⟨inspection, by rw [← hinspected, hok], ?_⟩
  have hfaithful : v.Faithful config := visits_faithful explicit ctx v hv
  rw [Visit.Faithful, hok, publication?, hpresent, hdry] at hfaithful
  obtain ⟨⟨publication, result⟩, hpublished, rfl⟩ := Option.map_eq_some_iff.mp hfaithful
  obtain ⟨E', hE', hevent'⟩ : ∃ E ∈ workEntries config env explicit ctx,
      E.event = .publish ⟨inspection.host, inspection.specs⟩ result :=
    exists_workEntry hv (by simp [Visit.events, hpublished])
  rw [hpublished, (h E' hE').publish _ _ hevent']

/-- What a visit assigns to the map from hosts to spec lists. -/
def registration (v : Visit) : Option (Text × List DomainSpec) :=
  v.published.map fun p => (p.1.host, p.1.specs)

/-- A visit that publishes assigns the specs to the host and one that does not leaves the
store alone. -/
theorem visit_represents (hI : env.inspector = DockerInspector.toInspect D config)
    (hP : env.publisher = RedisPublisher.toPublish K R config) (hR : R.SetExLaw)
    (hframe : StoreFrame R D) {e : UInt32} (he : config.expireSeconds = some e)
    {base : Text → Option Text} {r : Text → Option (List DomainSpec)} {name : Pending Text}
    (hr : LastWrite.Represents base (R.stored ctx.world) (hostKey config) (storedText K) r)
    (hok : ∀ p result, (visit config env ctx name).1.published = some (p, result) →
      result = .ok ()) :
    LastWrite.Represents base (R.stored (visit config env ctx name).2.world) (hostKey config)
      (storedText K) (LastWrite.run r (registration (visit config env ctx name).1).toList) := by
  have hworld : (inspectStep env ctx name.todo).2.world = (D.inspect ctx.world name.todo).2 := by
    rw [← docker_inspect_world D config, inspectStep, hI]
    rfl
  have hinspect : LastWrite.Represents base (R.stored (inspectStep env ctx name.todo).2.world)
      (hostKey config) (storedText K) r := by rwa [hworld, hframe.inspect]
  cases h : publication? config (inspectStep env ctx name.todo).1 with
  | none =>
    rw [visit_none h]
    exact hinspect
  | some publication =>
    rw [visit_some h] at hok ⊢
    have hpublish : (publishStep env (inspectStep env ctx name.todo).2 publication).1 = .ok () :=
      hok _ _ rfl
    have hstep : publishStep env (inspectStep env ctx name.todo).2 publication =
        ((RedisPublisher.publish K R config (inspectStep env ctx name.todo).2.world publication).1,
          (inspectStep env ctx name.todo).2.record
            (.publish publication (RedisPublisher.publish K R config
              (inspectStep env ctx name.todo).2.world publication).1)
            (RedisPublisher.publish K R config
              (inspectStep env ctx name.todo).2.world publication).2) := by
      rw [publishStep, hP]
      rfl
    rw [hstep] at hpublish ⊢
    exact publish_represents hR he hinspect hpublish

private theorem visitAll_represents (hI : env.inspector = DockerInspector.toInspect D config)
    (hP : env.publisher = RedisPublisher.toPublish K R config) (hR : R.SetExLaw)
    (hframe : StoreFrame R D) {e : UInt32} (he : config.expireSeconds = some e)
    {base : Text → Option Text} {r : Text → Option (List DomainSpec)} (names : List (Pending Text))
    {ctx : Context ω}
    (hr : LastWrite.Represents base (R.stored ctx.world) (hostKey config) (storedText K) r)
    (hok : ∀ v ∈ (visitAll config env ctx names).1, ∀ p result,
      v.published = some (p, result) → result = .ok ()) :
    LastWrite.Represents base (R.stored (visitAll config env ctx names).2.world) (hostKey config)
      (storedText K)
      (LastWrite.run r ((visitAll config env ctx names).1.filterMap registration)) := by
  induction names generalizing ctx r with
  | nil => exact hr
  | cons name names ih =>
    rw [visitAll, List.forall_mem_cons] at hok
    have hstep := visit_represents hI hP hR hframe he hr hok.1
    have hrest := ih hstep hok.2
    rw [visitAll]
    cases hreg : registration (visit config env ctx name).1 with
    | none =>
      rw [hreg] at hrest
      rwa [List.filterMap_cons_none hreg]
    | some p =>
      rw [hreg] at hrest
      rwa [List.filterMap_cons_some hreg]

private theorem refreshed_represents (hI : env.inspector = DockerInspector.toInspect D config)
    (hP : env.publisher = RedisPublisher.toPublish K R config) (hR : R.SetExLaw)
    (hframe : StoreFrame R D) {e : UInt32} (he : config.expireSeconds = some e)
    (hok : ∀ v ∈ visits config env explicit ctx, ∀ p result,
      v.published = some (p, result) → result = .ok ()) :
    LastWrite.Represents (R.stored ctx.world) (R.stored (refreshed config env explicit ctx).world)
      (hostKey config) (storedText K)
      (LastWrite.run (fun _ => none)
        ((visits config env explicit ctx).filterMap registration)) := by
  have hask : R.stored (askStep config env ctx).2.world = R.stored ctx.world := by
    rw [askStep]
    split
    · have hworld : (env.inspector.enumerate ctx.world []).2 =
          (D.list ctx.world "running".toList).2 := by
        rw [hI, ← docker_enumerate_world]
        rfl
      rw [← hframe.list ctx.world "running".toList, ← hworld]
      rfl
    · rfl
  refine visitAll_represents hI hP hR hframe he _ ?_ hok
  rw [hask]
  exact LastWrite.represents_empty _ _ _

private theorem map_fst_filterMap {α β γ : Type} {f : α → Option (β × γ)} {g : α → β} {l : List α}
    (h : ∀ a ∈ l, ∃ c, f a = some (g a, c)) : (l.filterMap f).map Prod.fst = l.map g := by
  induction l with
  | nil => rfl
  | cons a l ih =>
    rw [List.forall_mem_cons] at h
    obtain ⟨⟨c, hc⟩, hl⟩ := h
    rw [List.filterMap_cons_some hc, List.map_cons, ih hl, List.map_cons]

private theorem registration_published {v : Visit} {inspection : Inspection}
    (hinspection : DockerInspector.inspection config v.name.todo (details v.name.todo) =
      .ok inspection)
    (hpublished : v.published = some (⟨inspection.host, inspection.specs⟩, .ok ())) :
    registration v = some (hostOf config details v.name.todo, inspection.specs) := by
  rw [registration, hpublished, ← inspection_host hinspection]
  rfl

/-- With distinct hosts no two visits of the iteration assign to one host. -/
theorem registrations_nodup (hI : env.inspector = DockerInspector.toInspect D config)
    (hdry : config.dryRun = false)
    (h : ∀ E ∈ workEntries config env explicit ctx, Succeeded D details E)
    (hhosts : ∀ name ∈ inspectedNames (workEntries config env explicit ctx),
      ∀ name' ∈ inspectedNames (workEntries config env explicit ctx), name ≠ name' →
        hostOf config details name ≠ hostOf config details name') :
    (((visits config env explicit ctx).filterMap registration).map Prod.fst).Nodup := by
  have hreg : ∀ v ∈ visits config env explicit ctx, ∃ specs,
      registration v = some (hostOf config details v.name.todo, specs) := by
    intro v hv
    obtain ⟨inspection, hinspection, hpublished⟩ := visit_succeeded hI hdry h v hv
    exact ⟨_, registration_published hinspection hpublished⟩
  have hcomp : (fun v : Visit => hostOf config details v.name.todo) =
      hostOf config details ∘ fun v : Visit => v.name.todo := rfl
  rw [inspectedNames_eq] at hhosts
  rw [map_fst_filterMap hreg, hcomp, ← List.map_map]
  refine List.Nodup.map_on ?_ (visits_names explicit ctx).1
  intro a ha b hb hab
  by_contra hne
  exact hhosts a ha b hb hne hab

/-- With distinct hosts every registration of the iteration is kept. -/
theorem registered_of_distinct (hI : env.inspector = DockerInspector.toInspect D config)
    (hP : env.publisher = RedisPublisher.toPublish K R config) (hR : R.SetExLaw)
    (hframe : StoreFrame R D) {e : UInt32} (he : config.expireSeconds = some e)
    (hdry : config.dryRun = false)
    (h : ∀ E ∈ workEntries config env explicit ctx, Succeeded D details E)
    (hhosts : ∀ name ∈ inspectedNames (workEntries config env explicit ctx),
      ∀ name' ∈ inspectedNames (workEntries config env explicit ctx), name ≠ name' →
        hostOf config details name ≠ hostOf config details name') :
    Registered K R config details (inspectedNames (workEntries config env explicit ctx))
      (refreshed config env explicit ctx).world := by
  have hvisit := visit_succeeded hI hdry h
  have hok : ∀ v ∈ visits config env explicit ctx, ∀ p result,
      v.published = some (p, result) → result = .ok () := by
    intro v hv p result hp
    obtain ⟨inspection, -, hpublished⟩ := hvisit v hv
    rw [hpublished] at hp
    cases hp
    rfl
  have hrep := refreshed_represents hI hP hR hframe he hok
  have hnodup := registrations_nodup hI hdry h hhosts
  constructor
  · intro name hname
    rw [inspectedNames_eq] at hname
    obtain ⟨v, hv, rfl⟩ := List.mem_map.mp hname
    obtain ⟨inspection, hinspection, hpublished⟩ := hvisit v hv
    refine ⟨inspection, hinspection, ?_⟩
    have hmem : (inspection.host, inspection.specs) ∈
        (visits config env explicit ctx).filterMap registration :=
      List.mem_filterMap.mpr ⟨v, hv, by rw [registration, hpublished]; rfl⟩
    apply hrep.written inspection.host inspection.specs
    rw [LastWrite.run_eq_last, LastWrite.last_of_nodup hnodup hmem, Option.some_or]
  · intro name hname name' hname' hne i i' hi hi' hkey
    apply hhosts name hname name' hname' hne
    rw [← inspection_host hi, ← inspection_host hi']
    exact List.append_cancel_left hkey

end

/-- The registrations of an iteration in which everything succeeds are all kept, each under
a key of its own, exactly when no two of its containers have the same host. -/
theorem registered_iff {ω : Type} (K : Json.Codec) (R : Redis.Server ω) (hR : R.SetExLaw)
    (D : Docker ω) (hframe : StoreFrame R D) (config : Config) (env : Environment ω)
    (hI : env.inspector = DockerInspector.toInspect D config)
    (hP : env.publisher = RedisPublisher.toPublish K R config) (hdry : config.dryRun = false)
    (e : UInt32) (he : config.expireSeconds = some e) (explicit : List Text) (ctx : Context ω)
    (details : Text → ContainerDetails)
    (h : ∀ E ∈ workEntries config env explicit ctx, Succeeded D details E) :
    Registered K R config details (inspectedNames (workEntries config env explicit ctx))
        (finalState (refresh config env explicit) ctx).world ↔
      config.dockerNetwork = true ∨
        ∀ name ∈ inspectedNames (workEntries config env explicit ctx),
          ∀ name' ∈ inspectedNames (workEntries config env explicit ctx),
            name ≠ name' → (details name).ipAddress ≠ (details name').ipAddress := by
  rw [finalState_refresh]
  constructor
  · intro hreg
    by_cases hnetwork : config.dockerNetwork
    · exact .inl hnetwork
    · refine .inr fun name hname name' hname' hne haddress => ?_
      obtain ⟨i, hi, -⟩ := hreg.1 name hname
      obtain ⟨i', hi', -⟩ := hreg.1 name' hname'
      apply hreg.2 name hname name' hname' hne i i' hi hi'
      rw [inspection_host hi, inspection_host hi', hostOf, if_neg hnetwork, hostOf,
        if_neg hnetwork, haddress]
  · intro hdistinct
    refine registered_of_distinct hI hP hR hframe he hdry h fun name hname name' hname' hne => ?_
    rw [hostOf, hostOf]
    obtain hnetwork | hdistinct := hdistinct
    · simpa [hnetwork] using hne
    · split
      · exact hne
      · exact hdistinct name hname name' hname' hne

/-- A daemon that gives fixed answers and lists no container. -/
def fixedDocker (details : Text → ContainerDetails) : Docker (Text → Option Text) where
  list w _ := (.ok [], w)
  inspect w name := (.ok (details name), w)

/-- A world that consists of the store alone. -/
def storeEnvironment (config : Config) (details : Text → ContainerDetails) :
    Environment (Text → Option Text) where
  inspector := DockerInspector.toInspect (fixedDocker details) config
  publisher := RedisPublisher.toPublish Json.compact Redis.memory config
  now w := (0, w)
  notify w _ := (.ok (), w)
  poll w := (none, w)
  select w _ _ := (.signal none, w)
  drain _ entries := entries
  drain_perm _ _ := .refl _
  debugEnabled := false

private theorem fixedDocker_frame (details : Text → ContainerDetails) :
    StoreFrame Redis.memory (fixedDocker details) := ⟨fun _ _ => rfl, fun _ _ => rfl⟩

private theorem storeEnvironment_succeeded {config : Config} {details : Text → ContainerDetails}
    {e : UInt32} (he : config.expireSeconds = some e) (hzero : Nat.toDigits 10 e.toNat ≠ ['0'])
    (hpresent : ∀ name, ∃ inspection,
      DockerInspector.inspection config name (details name) = .ok inspection ∧
        inspection.envvarPresent = true) (explicit : List Text)
    (ctx : Context (Text → Option Text)) :
    ∀ E ∈ workEntries config (storeEnvironment config details) explicit ctx,
      Succeeded (fixedDocker details) details E := by
  intro E hE
  have hanswered : AnsweredEntry (storeEnvironment config details) E :=
    (workEntries_spec explicit ctx).2 E hE
  constructor
  · intro name result hevent
    rw [AnsweredEntry, hevent] at hanswered
    obtain ⟨inspection, hok, henvvar⟩ := hpresent name
    exact ⟨rfl, inspection, hanswered.symm.trans hok, henvvar⟩
  · intro publication result hevent
    rw [AnsweredEntry, hevent] at hanswered
    have hpublish : (RedisPublisher.publish Json.compact Redis.memory config E.before
        publication).1 = .ok () := by
      simp only [RedisPublisher.publish, request_setEx Json.compact config publication he,
        Redis.memory_setEx, if_neg hzero]
      rfl
    exact hanswered.symm.trans hpublish

/-- Two containers with a domain each. -/
def twoContainers (address : Text → Text) (name : Text) : ContainerDetails where
  ipAddress := address name
  env := some [if name = "alpha".toList then "BEACHHEAD_DOMAINS=alpha.org".toList
    else "BEACHHEAD_DOMAINS=beta.org".toList]

private theorem twoContainers_alpha (address : Text → Text) :
    DockerInspector.inspection Config.default "alpha".toList
        (twoContainers address "alpha".toList) =
      .ok ⟨address "alpha".toList, [⟨"alpha.org".toList, some 80, some 443⟩], true⟩ := by
  have h : DockerInspector.parseContainerEnvVars (some ["BEACHHEAD_DOMAINS=alpha.org".toList])
      Config.default false [] =
      (.ok (), true, [⟨"alpha.org".toList, some 80, some 443⟩]) := by decide
  simp only [DockerInspector.inspection, twoContainers, if_true, h]
  rfl

private theorem twoContainers_other (address : Text → Text) {name : Text}
    (hname : name ≠ "alpha".toList) :
    DockerInspector.inspection Config.default name (twoContainers address name) =
      .ok ⟨address name, [⟨"beta.org".toList, some 80, some 443⟩], true⟩ := by
  have h : DockerInspector.parseContainerEnvVars (some ["BEACHHEAD_DOMAINS=beta.org".toList])
      Config.default false [] =
      (.ok (), true, [⟨"beta.org".toList, some 80, some 443⟩]) := by decide
  simp only [DockerInspector.inspection, twoContainers, if_neg hname, h]
  rfl

private theorem twoContainers_succeeded (address : Text → Text) (explicit : List Text)
    (ctx : Context (Text → Option Text)) :
    ∀ E ∈ workEntries Config.default (storeEnvironment Config.default (twoContainers address))
      explicit ctx, Succeeded (fixedDocker (twoContainers address)) (twoContainers address) E := by
  refine storeEnvironment_succeeded (e := 60) rfl (by decide) (fun name => ?_) explicit ctx
  by_cases hname : name = "alpha".toList
  · subst hname
    exact ⟨_, twoContainers_alpha address, rfl⟩
  · exact ⟨_, twoContainers_other address hname, rfl⟩

theorem registered_iff_twoContainers :
    Registered Json.compact Redis.memory Config.default (twoContainers id)
      (inspectedNames (workEntries Config.default
        (storeEnvironment Config.default (twoContainers id))
        ["alpha".toList, "beta".toList] (start fun _ => none)))
      (finalState (refresh Config.default (storeEnvironment Config.default (twoContainers id))
        ["alpha".toList, "beta".toList]) (start fun _ => none)).world :=
  (registered_iff Json.compact Redis.memory Redis.memory_setExLaw (fixedDocker (twoContainers id))
    (fixedDocker_frame _) Config.default (storeEnvironment Config.default (twoContainers id))
    rfl rfl rfl 60 rfl ["alpha".toList, "beta".toList] (start fun _ => none) (twoContainers id)
    (twoContainers_succeeded id _ _)).mpr (.inr fun _ _ _ _ hne => hne)

/-- Two containers without an address: everything succeeds and one registration is lost. -/
theorem not_registered_sharedAddress :
    (∀ E ∈ workEntries Config.default
      (storeEnvironment Config.default (twoContainers fun _ => []))
      ["alpha".toList, "beta".toList] (start fun _ => none),
      Succeeded (fixedDocker (twoContainers fun _ => [])) (twoContainers fun _ => []) E) ∧
    ¬Registered Json.compact Redis.memory Config.default (twoContainers fun _ => [])
      (inspectedNames (workEntries Config.default
        (storeEnvironment Config.default (twoContainers fun _ => []))
        ["alpha".toList, "beta".toList] (start fun _ => none)))
      (finalState (refresh Config.default
        (storeEnvironment Config.default (twoContainers fun _ => []))
        ["alpha".toList, "beta".toList]) (start fun _ => none)).world := by
  refine ⟨twoContainers_succeeded _ _ _, fun h => ?_⟩
  have hmem : ∀ name ∈ ["alpha".toList, "beta".toList], name ∈ inspectedNames (workEntries
      Config.default (storeEnvironment Config.default (twoContainers fun _ => []))
      ["alpha".toList, "beta".toList] (start fun _ => none)) := by
    intro name hname
    rw [inspectedNames_eq]
    exact ((visits_names _ _).2 name).mpr (.inl hname)
  obtain ⟨i, hi, halpha⟩ := h.1 "alpha".toList (hmem _ (by simp))
  obtain ⟨i', hi', hbeta⟩ := h.1 "beta".toList (hmem _ (by simp))
  obtain rfl := Except.ok.inj (hi.symm.trans (twoContainers_alpha _))
  obtain rfl := Except.ok.inj (hi'.symm.trans (twoContainers_other _ (by decide)))
  dsimp only at halpha hbeta
  rw [halpha] at hbeta
  exact absurd hbeta (by decide)

end Beachhead.Companion
