import Mathlib.Data.Int.ConditionallyCompleteOrder
import Beachhead.SteadyClock
import Beachhead.StoreRefinement

/-!
# A registration does not lapse

Between two publications of a container lie at most the rest of one iteration, a wait
and the beginning of the next iteration, in whichever order the iterations handle the
containers. If these take less time than the expiration, the key is always present.
-/
namespace Beachhead.Companion
open Program Coverage RedisPublisher

variable {ω : Type} {config : Config} {env : Environment ω}

/-- Only the publisher touches the keys. -/
structure Undisturbed (env : Environment ω) (T : Redis.Timeline ω) : Prop where
  now : ∀ w, T.present (env.now w).2 = T.present w
  notify : ∀ w entries, T.present (env.notify w entries).2 = T.present w
  poll : ∀ w, T.present (env.poll w).2 = T.present w
  select : ∀ w refresh watchdog, T.present (env.select w refresh watchdog).2 = T.present w
  enumerate : ∀ w, T.present (env.inspector.enumerate w []).2 = T.present w
  inspect : ∀ w name, T.present (env.inspector.inspect w name).2 = T.present w

/-- The moments at which something is published for the host. -/
def publications (K : Json.Codec) (config : Config) (T : Redis.Timeline ω) (host : Text)
    (entries : List (Entry ω)) : Set ℤ :=
  {t | ∃ P ∈ entries, ∃ specs, P.event = .publish ⟨host, specs⟩ (.ok ()) ∧
    T.executedAt P.before (request K config ⟨host, specs⟩) = t}

/-- The moments at which the container is published, after it was inspected with the
variable present. -/
def registrations (K : Json.Codec) (config : Config) (T : Redis.Timeline ω) (name host : Text)
    (entries : List (Entry ω)) : Set ℤ :=
  {t | ∃ I P specs, [I, P] <:+: entries ∧ I.event = .inspect name (.ok ⟨host, specs, true⟩) ∧
    P.event = .publish ⟨host, specs⟩ (.ok ()) ∧
    T.executedAt P.before (request K config ⟨host, specs⟩) = t}

section
variable {K : Json.Codec} {T : Redis.Timeline ω} {host : Text}

private theorem registrations_subset (name : Text) (entries : List (Entry ω)) :
    registrations K config T name host entries ⊆ publications K config T host entries := by
  rintro t ⟨I, P, specs, hIP, -, hevent, ht⟩
  exact ⟨P, hIP.subset (by simp), specs, hevent, ht⟩

private theorem publications_append (entries entries' : List (Entry ω)) :
    publications K config T host (entries ++ entries') =
      publications K config T host entries ∪ publications K config T host entries' := by
  ext t
  simp only [publications, List.mem_append, or_and_right, exists_or, Set.mem_ofPred_eq,
    Set.mem_union]

private theorem publications_none {entries : List (Entry ω)}
    (h : ∀ E ∈ entries, ∀ p r, E.event ≠ .publish p r) :
    publications K config T host entries = ∅ := by
  rw [Set.eq_empty_iff_forall_notMem]
  rintro t ⟨P, hP, specs, hevent, -⟩
  exact h P hP _ _ hevent

end

section
variable {clock : ω → ℤ} {K : Json.Codec} {R : Redis.Server ω} {T : Redis.Timeline ω}
  {e : UInt32}

/-- The publications so far are over, and each of them keeps its key until it expires. -/
def Leased (K : Json.Codec) (config : Config) (T : Redis.Timeline ω) (clock : ω → ℤ)
    (e : UInt32) (ctx : Context ω) : Prop :=
  ∀ host, ∀ t ∈ publications K config T host ctx.trace, t ≤ clock ctx.world ∧
    Set.Ico t (t + Duration.seconds e.toNat) ⊆ T.present ctx.world (hostKey config host)

theorem Leased.record {ctx : Context ω} (h : Leased K config T clock e ctx) {w : ω}
    {event : Event} (hclock : clock ctx.world ≤ clock w)
    (hpresent : T.present w = T.present ctx.world) (hevent : ∀ p r, event ≠ .publish p r) :
    Leased K config T clock e (ctx.record event w) := by
  intro host t ht
  have hnone : publications K config T host [⟨event, ctx.world, w⟩] = ∅ :=
    publications_none (by simpa using hevent)
  have htrace : t ∈ publications K config T host (ctx.trace ++ [⟨event, ctx.world, w⟩]) := ht
  rw [publications_append, hnone, Set.union_empty] at htrace
  obtain ⟨hle, hsubset⟩ := h host t htrace
  refine ⟨hle.trans hclock, ?_⟩
  have hworld : T.present (ctx.record event w).world = T.present ctx.world := hpresent
  rwa [hworld]

/-- A publication that succeeds renews the lease of its key, and one that fails renews it or
leaves the keys alone. -/
theorem publish_present (hR : R.ExpiryLaw clock T) (he : config.expireSeconds = some e) (w : ω)
    (p : Publication) :
    T.present (RedisPublisher.publish K R config w p).2 =
      Function.update (T.present w) (hostKey config p.host)
        (renew (T.present w (hostKey config p.host)) (T.executedAt w (request K config p))
          (Duration.seconds e.toNat)) ∨
    (RedisPublisher.publish K R config w p).1 ≠ .ok () ∧
      T.present (RedisPublisher.publish K R config w p).2 = T.present w := by
  have hw : (RedisPublisher.publish K R config w p).2 = (R.execute w (request K config p)).2 := rfl
  cases hx : (R.execute w (request K config p)).1 with
  | ok u =>
    left
    rw [hw]
    rw [request_setEx K config p he] at hx ⊢
    exact hR.executed _ _ _ _ hx
  | error err =>
    have hne : (RedisPublisher.publish K R config w p).1 ≠ .ok () := fun hok => by
      rw [publish_ok hok] at hx
      cases hx
    have hfailed := hx
    rw [request_setEx K config p he] at hfailed
    obtain h | h := hR.failed _ _ _ _ _ hfailed
    · right
      refine ⟨hne, ?_⟩
      rw [hw, request_setEx K config p he]
      exact h
    · left
      rw [hw, request_setEx K config p he]
      exact h

private theorem Leased.publish (hR : R.ExpiryLaw clock T) (he : config.expireSeconds = some e)
    {ctx : Context ω} (h : Leased K config T clock e ctx) (p : Publication) :
    Leased K config T clock e
      (ctx.record (.publish p (RedisPublisher.publish K R config ctx.world p).1)
        (RedisPublisher.publish K R config ctx.world p).2) := by
  intro host t ht
  have hsent := hR.sent ctx.world (request K config p)
  have hanswered : T.executedAt ctx.world (request K config p) ≤
      clock (RedisPublisher.publish K R config ctx.world p).2 := hR.answered _ _
  have hpresent := publish_present (K := K) hR he ctx.world p
  obtain ⟨P, hP, specs, hevent, rfl⟩ := ht
  obtain hP | hP := List.mem_append.mp hP
  · -- an earlier publication
    obtain ⟨hle, hsubset⟩ := h host _ ⟨P, hP, specs, hevent, rfl⟩
    refine ⟨(hle.trans hsent).trans hanswered, ?_⟩
    obtain hpresent | ⟨-, hpresent⟩ := hpresent
    · dsimp only [Context.record]
      rw [hpresent]
      by_cases hkey : hostKey config host = hostKey config p.host
      · rw [hkey, Function.update_self]
        rw [hkey] at hsubset
        exact Ico_subset_renew hsubset (hle.trans hsent)
      · rw [Function.update_of_ne hkey]
        exact hsubset
    · dsimp only [Context.record]
      rwa [hpresent]
  · -- this publication
    rw [List.mem_singleton.mp hP] at hevent ⊢
    injection hevent with hp hok
    obtain rfl := hp
    refine ⟨hanswered, ?_⟩
    obtain hpresent | ⟨hne, -⟩ := hpresent
    · dsimp only [Context.record]
      rw [hpresent, Function.update_self]
      exact Ico_subset_renew_self
    · exact absurd hok hne

theorem leased_run (h : Steady env clock) (hT : Undisturbed env T)
    (hR : R.ExpiryLaw clock T) (he : config.expireSeconds = some e)
    (hpublisher : env.publisher = toPublish K R config) :
    AlongRun env fun ctx ctx' =>
      Leased K config T clock e ctx → Leased K config T clock e ctx' where
  refl := ⟨fun _ => id⟩
  trans := ⟨fun _ _ _ h h' => h' ∘ h⟩
  now := along_call fun ctx hctx => hctx.record (h.now _).ge (hT.now _) (by simp)
  notify _ := along_call fun ctx hctx => hctx.record (h.notify _ _).ge (hT.notify _ _) (by simp)
  setNextWatchdog _ _ := id
  wait := along_call fun ctx hctx => hctx.record le_rfl rfl (by simp)
  waitPass := along_call fun ctx hctx => hctx.record le_rfl rfl (by simp)
  poll := along_call fun ctx hctx => hctx.record (h.poll _).ge (hT.poll _) (by simp)
  after _ _ := along_call fun ctx hctx => hctx.record le_rfl rfl (by simp)
  select _ _ := along_call fun ctx hctx =>
    hctx.record (h.select _ _ _) (hT.select _ _ _) (by simp)
  enumerate := along_call fun ctx hctx => hctx.record (h.enumerate _) (hT.enumerate _) (by simp)
  inspect _ := along_call fun ctx hctx => hctx.record (h.inspect _ _) (hT.inspect _ _) (by simp)
  publish p := along_call fun ctx hctx => by
    rw [hpublisher]
    exact hctx.publish hR he p
  iteration := along_call fun ctx hctx => hctx.record le_rfl rfl (by simp)
  work ctx before hctx := by
    intro host t ht
    have hnone : publications K config T host [⟨.work, before, ctx.world⟩] = ∅ :=
      publications_none (by simp)
    have htrace : t ∈ publications K config T host (ctx.trace ++ [⟨.work, before, ctx.world⟩]) := ht
    rw [publications_append, hnone, Set.union_empty] at htrace
    exact hctx host t htrace

end

/-- One more iteration has started since `ctx`, with the entries `body`. -/
structure Iterated (ctx ctx' : Context ω) (body : List (Entry ω)) : Prop where
  trace : ∃ m, ctx'.trace = ctx.trace ++ m :: body ∧ m.event = .iteration
  once : ∀ E ∈ body, E.event.isIteration = false

section
variable {clock : ω → ℤ} {K : Json.Codec} {R : Redis.Server ω} {T : Redis.Timeline ω}
  {e r : UInt32} {D : ℤ} {host : Text}

private theorem Iterated.iterations {ctx ctx' : Context ω} {body : List (Entry ω)}
    (h : Iterated ctx ctx' body) : iterations ctx'.trace = iterations ctx.trace ++ [body] := by
  obtain ⟨m, htrace, hm⟩ := h.trace
  rw [htrace, iterations_append (by rw [hm]; rfl) h.once]

private theorem Iterated.publications {ctx ctx' : Context ω} {body : List (Entry ω)}
    (h : Iterated ctx ctx' body) : publications K config T host ctx'.trace =
      publications K config T host ctx.trace ∪ publications K config T host body := by
  obtain ⟨m, htrace, hm⟩ := h.trace
  have hcons : m :: body = [m] ++ body := rfl
  have hnone : Companion.publications K config T host [m] = ∅ :=
    publications_none (by simp [hm])
  rw [htrace, hcons, publications_append, publications_append, hnone, Set.empty_union]

/-- An iteration that is not stopped before its work `work`. -/
structure Cycle (K : Json.Codec) (config : Config) (T : Redis.Timeline ω) (clock : ω → ℤ)
    (r : UInt32) (host : Text) (ctx ctx' : Context ω) (body : List (Entry ω))
    (work : Entry ω) : Prop extends Iterated ctx ctx' body where
  mem : work ∈ body
  event : work.event = .work
  start : clock work.before = clock ctx.world
  during : ∀ t ∈ publications K config T host body, clock work.before ≤ t ∧ t ≤ clock work.after
  le : clock work.after ≤ clock ctx'.world
  finish : clock ctx'.world ≤ clock work.after + Duration.seconds r.toNat

/-- An iteration that is stopped before its work. -/
structure Idle (K : Json.Codec) (config : Config) (T : Redis.Timeline ω) (clock : ω → ℤ)
    (host : Text) (ctx ctx' : Context ω) (body : List (Entry ω)) : Prop
    extends Iterated ctx ctx' body where
  silent : publications K config T host body = ∅
  clock : clock ctx'.world = clock ctx.world

/-- Every iteration that is not stopped before its work ends it in time and publishes
something for the host. -/
structure Regular (K : Json.Codec) (config : Config) (T : Redis.Timeline ω) (clock : ω → ℤ)
    (D : ℤ) (host : Text) (trace : List (Entry ω)) : Prop where
  work : WorkBound clock D trace
  published : ∀ segment ∈ iterations trace, (∃ E ∈ segment, E.event = .work) →
    (publications K config T host segment).Nonempty

/-- The publications cover the time since each of them, and the last of them is recent. -/
structure Renewed (K : Json.Codec) (config : Config) (T : Redis.Timeline ω) (clock : ω → ℤ)
    (r : UInt32) (D : ℤ) (host : Text) (ctx : Context ω) : Prop where
  covered : ∀ a ∈ publications K config T host ctx.trace,
    Covers (publications K config T host ctx.trace) (Duration.seconds r.toNat + 2 * D) a
      (clock ctx.world)
  recent : (publications K config T host ctx.trace).Nonempty →
    ∃ p ∈ publications K config T host ctx.trace, p ≤ clock ctx.world ∧
      clock ctx.world ≤ p + (Duration.seconds r.toNat + D)

private theorem Regular.back {ctx ctx' : Context ω} {body : List (Entry ω)}
    (h : Iterated ctx ctx' body) (hregular : Regular K config T clock D host ctx'.trace) :
    Regular K config T clock D host ctx.trace := by
  obtain ⟨m, htrace, -⟩ := h.trace
  refine ⟨hregular.work.back ⟨m :: body, htrace.symm⟩, fun segment hsegment =>
    hregular.published segment ?_⟩
  rw [h.iterations]
  exact List.mem_append_left _ hsegment

private theorem Renewed.idle {ctx ctx' : Context ω} {body : List (Entry ω)}
    (hctx : Renewed K config T clock r D host ctx) (h : Idle K config T clock host ctx ctx' body) :
    Renewed K config T clock r D host ctx' := by
  have hmarks : publications K config T host ctx'.trace =
      publications K config T host ctx.trace := by
    rw [h.publications, h.silent, Set.union_empty]
  constructor
  · rw [hmarks, h.clock]
    exact hctx.covered
  · rw [hmarks, h.clock]
    exact hctx.recent

/-- The publications of an iteration renew the coverage. -/
theorem Renewed.cycle {ctx ctx' : Context ω} {body : List (Entry ω)} {work : Entry ω}
    (hctx : Renewed K config T clock r D host ctx)
    (h : Cycle K config T clock r host ctx ctx' body work)
    (hD : clock work.after ≤ clock work.before + D)
    (hbody : (publications K config T host body).Nonempty) :
    Renewed K config T clock r D host ctx' := by
  obtain ⟨p, hp⟩ := hbody
  have hbefore := (h.during p hp).1
  have hafter := (h.during p hp).2
  have hle := h.le
  have hfinish := h.finish
  have hnew : publications K config T host body ⊆ publications K config T host ctx'.trace := by
    rw [h.publications]
    exact Set.subset_union_right
  have hold : publications K config T host ctx.trace ⊆
      publications K config T host ctx'.trace := by
    rw [h.publications]
    exact Set.subset_union_left
  -- the wait after the work is covered by any publication of the iteration
  have hwait : Covers (publications K config T host ctx'.trace)
      (Duration.seconds r.toNat + 2 * D) (clock work.after) (clock ctx'.world) :=
    covers_of_mark (hnew hp) hafter (by omega)
  constructor
  · intro a ha
    rw [h.publications] at ha
    obtain ha | ha := ha
    · obtain ⟨q, hq, hqle, hrecent⟩ := hctx.recent ⟨a, ha⟩
      have hwork : Covers (publications K config T host ctx'.trace)
          (Duration.seconds r.toNat + 2 * D) (clock ctx.world) (clock work.after) :=
        covers_of_mark (hold hq) hqle (by rw [h.start] at hD; omega)
      exact (((hctx.covered a ha).mono hold le_rfl).append hwork).append hwait
    · have hstart := (h.during a ha).1
      exact (covers_of_mark (hnew ha) le_rfl (by omega)).append hwait
  · exact fun _ => ⟨p, hnew hp, by omega, by omega⟩

private theorem publications_quiet {entries : List (Entry ω)}
    (h : ∀ E ∈ entries, E.event.isIteration = false ∧ E.event.isContainer = false) :
    publications K config T host entries = ∅ :=
  publications_none fun E hE p result hevent => by
    have hcontainer := (h E hE).2
    rw [hevent] at hcontainer
    cases hcontainer

/-- An iteration that starts in `ctx` and whose work starts in `ctx₁`. -/
theorem worked_cycle (h : Steady env clock) (hT : Undisturbed env T)
    (hR : R.ExpiryLaw clock T) (he : config.expireSeconds = some e)
    (hpublisher : env.publisher = toPublish K R config) {explicit : List Text}
    {ctx ctx₁ ctx' : Context ω} (hctx₁ : Leased K config T clock e ctx₁)
    (hquiet : Quiet (ctx.record .iteration ctx.world) ctx₁)
    (hclock : clock ctx₁.world = clock ctx.world)
    (hquiet' : Quiet (worked config env explicit ctx₁) ctx')
    (hle : clock (worked config env explicit ctx₁).world ≤ clock ctx'.world)
    (hfinish : clock ctx'.world ≤
      clock (worked config env explicit ctx₁).world + Duration.seconds r.toNat) :
    ∃ body work, Cycle K config T clock r host ctx ctx' body work := by
  have hrun : AlongRun env fun ctx ctx' =>
      Leased K config T clock e ctx → Leased K config T clock e ctx' :=
    leased_run h hT hR he hpublisher
  have hrefreshed : Leased K config T clock e ctx₁ →
      Leased K config T clock e (refreshed config env explicit ctx₁) :=
    refreshed_along hrun.toAlongWork explicit ctx₁
  have hleased := hrefreshed hctx₁
  obtain ⟨hle₁, new, htrace₁, hnew⟩ : Elapsed clock ctx₁ (refreshed config env explicit ctx₁) :=
    refreshed_along (elapsed_work h.forward) explicit ctx₁
  obtain ⟨first, hfirst, hfirst_quiet⟩ := hquiet
  obtain ⟨last, hlast, hlast_quiet⟩ := hquiet'
  let work : Entry ω := ⟨.work, ctx₁.world, (refreshed config env explicit ctx₁).world⟩
  have hworked : (worked config env explicit ctx₁).trace = ctx₁.trace ++ (new ++ [work]) := by
    rw [← List.append_assoc, ← htrace₁]
    rfl
  have hbody : publications K config T host (first ++ (new ++ [work]) ++ last) =
      publications K config T host new := by
    have hwork : publications K config T host [work] = ∅ := publications_none (by simp [work])
    rw [publications_append, publications_append, publications_append, hwork,
      publications_quiet hfirst_quiet, publications_quiet hlast_quiet, Set.union_empty,
      Set.union_empty, Set.empty_union]
  refine ⟨first ++ (new ++ [work]) ++ last, work,
    ⟨⟨⟨.iteration, ctx.world, ctx.world⟩, ?_, rfl⟩, ?_⟩, ?_, rfl, hclock, ?_, hle, hfinish⟩
  · rw [hlast, hworked, hfirst]
    simp [Context.record, Context.note]
  · simp only [List.forall_mem_append]
    exact ⟨⟨fun E hE => (hfirst_quiet E hE).1, fun E hE => (hnew E hE).1, by simp [work]; rfl⟩,
      fun E hE => (hlast_quiet E hE).1⟩
  · simp
  · intro t ht
    rw [hbody] at ht
    constructor
    · obtain ⟨P, hP, specs, -, rfl⟩ := ht
      exact (hnew P hP).2.trans (hR.sent _ _)
    · refine (hleased host t ?_).1
      rw [htrace₁, publications_append]
      exact .inr ht

/-- The publications stay renewed from one iteration to the next. -/
theorem Renewed.next {ctx ctx' : Context ω} (hctx : Regular K config T clock D host ctx.trace →
      Renewed K config T clock r D host ctx)
    (h : (∃ body work, Cycle K config T clock r host ctx ctx' body work) ∨
      ∃ body, Idle K config T clock host ctx ctx' body)
    (hregular : Regular K config T clock D host ctx'.trace) :
    Renewed K config T clock r D host ctx' := by
  obtain ⟨body, work, h⟩ | ⟨body, h⟩ := h
  · have hbody : body ∈ iterations ctx'.trace := by
      rw [h.iterations]
      exact List.mem_append_right _ (List.mem_singleton_self _)
    have hwork : work ∈ ctx'.trace := by
      obtain ⟨m, htrace, -⟩ := h.trace
      rw [htrace]
      exact List.mem_append_right _ (List.mem_cons_of_mem _ h.mem)
    exact (hctx (hregular.back h.toIterated)).cycle h (hregular.work work hwork h.event)
      (hregular.published body hbody ⟨work, h.mem, h.event⟩)
  · exact (hctx (hregular.back h.toIterated)).idle h

theorem iteration_next (h : Steady env clock) (hT : Undisturbed env T)
    (hR : R.ExpiryLaw clock T) (he : config.expireSeconds = some e)
    (hr : config.refreshSeconds = some r) (hpublisher : env.publisher = toPublish K R config)
    (explicit : List Text) (passes : ℕ) {ctx : Context ω}
    (hctx : Leased K config T clock e ctx) :
    Triple (iteration config env explicit passes) ctx
      (fun _ ctx' => (∃ body work, Cycle K config T clock r host ctx ctx' body work) ∨
        ∃ body, Idle K config T clock host ctx ctx' body)
      fun _ ctx' => (∃ body work, Cycle K config T clock r host ctx ctx' body work) ∨
        ∃ body, Idle K config T clock host ctx ctx' body := by
  have hrun : AlongRun env fun ctx ctx' =>
      Leased K config T clock e ctx → Leased K config T clock e ctx' :=
    leased_run h hT hR he hpublisher
  have hleased : Leased K config T clock e (ctx.record .iteration ctx.world) :=
    hrun.iteration ctx hctx
  refine iteration_triple ((((notifyStatus_along (quiet_waits env).toAlongPings _ _).and
    (notifyStatus_along (clock_pings h) _ _)).and
      (notifyStatus_along hrun.toAlongPings _ _)).mono_error fun _ ctx' h' => ?_)
    fun ctx₁ h₁ => ?_
  · obtain ⟨⟨⟨new, htrace, hnew⟩, hclock⟩, -⟩ := h'
    refine .inr ⟨new, ⟨⟨⟨.iteration, ctx.world, ctx.world⟩, ?_, rfl⟩, fun E hE => (hnew E hE).1⟩,
      publications_quiet hnew, hclock⟩
    rw [htrace]
    simp [Context.record, Context.note]
  · obtain ⟨⟨hquiet, hclock⟩, hleased₁⟩ := h₁
    refine (((endIteration_along (quiet_waits env) _ passes _).and
      (endIteration_along (clock_waits h.forward) _ passes _)).and
        (endIteration_clock h hr _ passes _)).mono (fun _ ctx' h' => ?_) fun _ ctx' h' => ?_
    all_goals
      exact .inl (worked_cycle h hT hR he hpublisher (hleased₁ hleased) hquiet hclock h'.1.1
        h'.1.2 h'.2)

theorem run_renewed (h : Steady env clock) (hT : Undisturbed env T)
    (hR : R.ExpiryLaw clock T) (he : config.expireSeconds = some e)
    (hr : config.refreshSeconds = some r) (hpublisher : env.publisher = toPublish K R config)
    (explicit : List Text) (n passes : ℕ) (w : ω) :
    Triple (run config env explicit n passes) (start w)
      (fun _ ctx => Leased K config T clock e ctx ∧
        (Regular K config T clock D host ctx.trace → Renewed K config T clock r D host ctx))
      fun _ ctx => Leased K config T clock e ctx ∧
        (Regular K config T clock D host ctx.trace → Renewed K config T clock r D host ctx) := by
  have hrun : AlongRun env fun ctx ctx' =>
      Leased K config T clock e ctx → Leased K config T clock e ctx' :=
    leased_run h hT hR he hpublisher
  have hstart (ctx : Context ω) (hquiet : Quiet (start w) ctx) :
      Leased K config T clock e ctx ∧
        (Regular K config T clock D host ctx.trace → Renewed K config T clock r D host ctx) := by
    obtain ⟨new, htrace, hnew⟩ := hquiet
    have hnone (host : Text) : publications K config T host ctx.trace = ∅ := by
      rw [htrace]
      exact publications_quiet hnew
    refine ⟨fun host t ht => ?_, fun _ => ⟨fun a ha => ?_, fun hne => ?_⟩⟩
    · simp [hnone] at ht
    · simp [hnone] at ha
    · simp [hnone] at hne
  refine run_invariant hstart fun ctx hctx => ?_
  exact ((iteration_next h hT hR he hr hpublisher explicit passes hctx.1).and
    (iteration_along hrun explicit passes ctx)).mono
    (fun _ ctx' h' => ⟨h'.2 hctx.1, Renewed.next hctx.2 h'.1⟩)
    fun _ ctx' h' => ⟨h'.2 hctx.1, Renewed.next hctx.2 h'.1⟩

end

/-- If every iteration publishes the container and the refresh interval and the work of two
iterations take less time together than the expiration, the key of the container is present
from its first publication until it expires after the last one. -/
theorem registration_live {ω : Type} (config : Config) (env : Environment ω) (clock : ω → ℤ)
    (h : Steady env clock) (K : Json.Codec) (R : Redis.Server ω)
    (hpublisher : env.publisher = toPublish K R config) (T : Redis.Timeline ω)
    (hT : Undisturbed env T) (hR : R.ExpiryLaw clock T) (r e : UInt32)
    (hr : config.refreshSeconds = some r) (he : config.expireSeconds = some e) (D : ℤ)
    (hlt : Duration.seconds r.toNat + 2 * D < Duration.seconds e.toNat) (name host : Text)
    (explicit : List Text) (n passes : ℕ) (w : ω)
    (hD : ∀ E ∈ (finalState (run config env explicit n passes) (start w)).trace,
      E.event = .work → clock E.after ≤ clock E.before + D)
    (hregistered : ∀ segment ∈
        iterations (finalState (run config env explicit n passes) (start w)).trace,
      (∃ E ∈ segment, E.event = .work) →
        (registrations K config T name host segment).Nonempty) :
    let final := finalState (run config env explicit n passes) (start w)
    ∀ a ∈ registrations K config T name host final.trace,
      ∀ b ∈ registrations K config T name host final.trace,
        Set.Ico a (b + Duration.seconds e.toNat) ⊆
          T.present final.world (config.keyPrefix ++ host) := by
  intro final a ha b hb
  have hfinal : Leased K config T clock e final ∧ (Regular K config T clock D host final.trace →
      Renewed K config T clock r D host final) :=
    (run_renewed h hT hR he hr hpublisher explicit n passes w).finalState
  have hregular : Regular K config T clock D host final.trace := ⟨hD, fun segment hsegment hwork =>
    (hregistered segment hsegment hwork).mono (registrations_subset name segment)⟩
  have hcovered := (hfinal.2 hregular).covered a (registrations_subset name _ ha)
  have hb := registrations_subset name _ hb
  have hbefore : Covers (publications K config T host final.trace)
      (Duration.seconds r.toNat + 2 * D) a b := fun t hat htb =>
    hcovered t hat (htb.trans (hfinal.1 host b hb).1)
  exact hbefore.held hlt hb fun p hp => (hfinal.1 host p hp).2

/-- One `SETEX` that was executed. -/
structure Setting where
  key : Text
  value : Text
  since : ℤ
  duration : ℤ
  deriving DecidableEq

/-- A server whose world is the time and what was set, the last setting first. -/
def expiring : Redis.Server (ℤ × List Setting) where
  execute w
    | [cmd, k, n, v] =>
      if cmd = "SETEX".toList ∧ Nat.ofDigitChars 10 n 0 ≠ 0 then
        (.ok (), (w.1, ⟨k, v, w.1, Duration.seconds (Nat.ofDigitChars 10 n 0)⟩ :: w.2))
      else (.error ⟨"syntax error".toList⟩, w)
    | _ => (.error ⟨"unknown command".toList⟩, w)
  stored w k := ((w.2.find? (·.key = k)).filter fun s => w.1 < s.since + s.duration).map
    Setting.value

def presentAfter : List Setting → Text → Set ℤ
  | [] => fun _ => ∅
  | s :: settings => Function.update (presentAfter settings) s.key
      (renew (presentAfter settings s.key) s.since s.duration)

def expiringTimeline : Redis.Timeline (ℤ × List Setting) where
  executedAt w _ := w.1
  present w := presentAfter w.2

private theorem expiring_execute_clock (w : ℤ × List Setting) (request : Redis.Request) :
    (expiring.execute w request).2.1 = w.1 := by
  unfold expiring
  dsimp only
  split
  · split
    · rfl
    · rfl
  · rfl

private theorem expiring_setEx (w : ℤ × List Setting) (k v : Text) (n : ℕ) :
    expiring.execute w (Redis.setEx [k] [v] n) =
      if n ≠ 0 then (.ok (), (w.1, ⟨k, v, w.1, Duration.seconds n⟩ :: w.2))
      else (.error ⟨"syntax error".toList⟩, w) := by
  have hn : Nat.ofDigitChars 10 (Nat.toDigits 10 n) 0 = n :=
    Nat.ofDigitChars_toDigits (by norm_num) (by norm_num)
  have hexecute : expiring.execute w (Redis.setEx [k] [v] n) =
      if "SETEX".toList = "SETEX".toList ∧ Nat.ofDigitChars 10 (Nat.toDigits 10 n) 0 ≠ 0 then
        (.ok (), (w.1, ⟨k, v, w.1,
          Duration.seconds (Nat.ofDigitChars 10 (Nat.toDigits 10 n) 0)⟩ :: w.2))
      else (.error ⟨"syntax error".toList⟩, w) := rfl
  rw [hexecute, hn]
  simp only [true_and]

theorem expiring_law : expiring.ExpiryLaw Prod.fst expiringTimeline where
  sent _ _ := le_rfl
  answered w request := (expiring_execute_clock w request).ge
  executed w k v n h := by
    rw [expiring_setEx] at h ⊢
    split at h
    · rename_i hn
      rw [if_pos hn]
      rfl
    · cases h
  failed w k v n e h := by
    rw [expiring_setEx] at h ⊢
    split at h
    · cases h
    · rename_i hn
      rw [if_neg hn]
      exact .inl rfl

/-- Two seconds between refreshes, three until a key expires. -/
def leased : Config :=
  { Config.default with refreshSeconds := some 2, expireSeconds := some 3 }

def webAddress : Text := "10.0.0.2".toList

/-- The inspection of the one container takes 0.3 seconds. -/
def leasedEnvironment : Environment (ℤ × List Setting) :=
  timedEnvironment (toPublish Json.compact expiring leased) 300000000 ⟨webAddress, [], true⟩

theorem leasedEnvironment_undisturbed : Undisturbed leasedEnvironment expiringTimeline where
  now _ := rfl
  notify _ _ := rfl
  poll _ := rfl
  select w refresh watchdog := congrArg presentAfter (selectFirst_snd w refresh watchdog)
  enumerate _ := rfl
  inspect _ _ := rfl

/-- The setting that the publication of the container at `t` makes. -/
def webSetting (t : ℤ) : Setting := ⟨webAddress, "[]".toList, t, Duration.seconds 3⟩

def webInspected (t : ℤ) (settings : List Setting) : Entry (ℤ × List Setting) :=
  ⟨.inspect "web".toList (.ok ⟨webAddress, [], true⟩), (t, settings), (t + 300000000, settings)⟩

def webPublished (t : ℤ) (settings : List Setting) : Entry (ℤ × List Setting) :=
  ⟨.publish ⟨webAddress, []⟩ (.ok ()), (t, settings), (t, webSetting t :: settings)⟩

/-- The two calls about the container that publish it at `t`. -/
def webCalls (t : ℤ) (settings : List Setting) : List (Entry (ℤ × List Setting)) :=
  [webInspected (t - 300000000) settings, webPublished t settings]

private theorem mem_registrations_web {t : ℤ} {settings : List Setting}
    {entries : List (Entry (ℤ × List Setting))} (h : webCalls t settings <:+: entries) :
    t ∈ registrations Json.compact leased expiringTimeline "web".toList webAddress entries :=
  ⟨_, _, [], h, rfl, rfl, rfl⟩

theorem registration_live_web :
    Set.Ico 300000000 (2600000000 + Duration.seconds 3) ⊆
      expiringTimeline.present (finalState (run leased leasedEnvironment ["web".toList] 2 1)
        (start (0, []))).world (leased.keyPrefix ++ webAddress) := by
  have hclock (w : ℤ × List Setting) (p : Publication) :
      w.1 ≤ ((toPublish Json.compact expiring leased).publish w p).2.1 :=
    (expiring_execute_clock w (request Json.compact leased p)).ge
  have hfirst : webCalls 300000000 [] <:+:
      (finalState (run leased leasedEnvironment ["web".toList] 2 1) (start (0, []))).trace := by
    decide +kernel
  have hlast : webCalls 2600000000 [webSetting 300000000] <:+:
      (finalState (run leased leasedEnvironment ["web".toList] 2 1) (start (0, []))).trace := by
    decide +kernel
  have hsegments : ∀ segment ∈ iterations
      (finalState (run leased leasedEnvironment ["web".toList] 2 1) (start (0, []))).trace,
      webCalls 300000000 [] <:+: segment ∨
        webCalls 2600000000 [webSetting 300000000] <:+: segment := by
    decide +kernel
  refine registration_live leased leasedEnvironment Prod.fst
    (timedEnvironment_steady hclock (by decide)) Json.compact expiring rfl expiringTimeline
    leasedEnvironment_undisturbed expiring_law 2 3 rfl rfl 300000000 (by decide) "web".toList
    webAddress ["web".toList] 2 1 (0, []) (by decide +kernel) (fun segment hsegment _ => ?_)
    300000000 (mem_registrations_web hfirst) 2600000000 (mem_registrations_web hlast)
  obtain h | h := hsegments segment hsegment
  · exact ⟨_, mem_registrations_web h⟩
  · exact ⟨_, mem_registrations_web h⟩

end Beachhead.Companion
