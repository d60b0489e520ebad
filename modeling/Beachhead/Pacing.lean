import Beachhead.Termination
import Beachhead.Verdict

/-!
# The pace of the program

An alarm never wakes the program before it is due. So iterations are at least the refresh
interval apart, and a wait pings at most as often as the watchdog asks for. A wait that is
given enough passes ends by itself: what cuts a run off is its number of iterations only.
-/
namespace Beachhead.Companion
open Program

variable {ω : Type} {config : Config} {env : Environment ω} {clock : ω → ℤ}

/-- What is relied on of the blocking select: it takes an alarm's branch when the alarm is due. -/
structure Punctual (env : Environment ω) (clock : ω → ℤ) : Prop where
  refresh : ∀ w refresh watchdog, (env.select w refresh watchdog).1 = .refresh →
    ∃ t, dueAt clock w refresh = some t ∧ t ≤ clock (env.select w refresh watchdog).2
  watchdog : ∀ w refresh watchdog, (env.select w refresh watchdog).1 = .watchdog →
    ∃ t, dueAt clock w watchdog = some t ∧ t ≤ clock (env.select w refresh watchdog).2

/-- The alarm for a deadline is due at the deadline, or right away if it has passed. -/
theorem deadlineToAlarmClock_armed (deadline : Option ℤ) (desc : Text) {t : ℤ} {ctx : Context ω}
    (ht : t = clock ctx.world) :
    ∃ receiver ctx', deadlineToAlarmClock t deadline desc ctx = .ok receiver ctx' ∧
      Still clock ctx ctx' ∧ dueAt clock ctx'.world receiver = deadline.map (max t) := by
  subst ht
  cases deadline with
  | none => exact ⟨.kept, ctx, rfl, Still.refl ctx, rfl⟩
  | some deadline =>
    by_cases h : clock ctx.world ≤ deadline
    · refine ⟨_, _, deadlineToAlarmClock_after h desc ctx, still_record rfl rfl rfl, ?_⟩
      rw [dueAt, add_sub_cancel, Option.map_some, max_eq_right h]
    · have hclosed : deadlineToAlarmClock (clock ctx.world) (some deadline) desc ctx =
          .ok .closed ctx := by
        rw [deadlineToAlarmClock, if_pos (by omega)]
        rfl
      refine ⟨.closed, ctx, hclosed, Still.refl ctx, ?_⟩
      rw [dueAt, Option.map_some, max_eq_left (by omega)]

/-- One pass of the loop of `wait` leaves, or pings when the deadline of the watchdog has come. -/
theorem waitPass_woke (h : Steady env clock) (hp : Punctual env clock)
    {refreshTimeout : Receiver ω} {ctx : Context ω} {Q : Option Bool → Context ω → Prop}
    {E : Stop → Context ω → Prop}
    (hleave : ∀ again ctx', Selected clock refreshTimeout ctx ctx' → Q (some again) ctx')
    (hping : ∀ t ctx', Selected clock refreshTimeout ctx ctx' → ctx.nextWatchdog = some t →
      t ≤ clock ctx'.world →
      Triple (notifyStatus config env "Waiting".toList) ctx' (fun _ => Q none) E) :
    Triple (waitPass config env refreshTimeout) ctx Q E := by
  have hmark : Still clock ctx (ctx.record .waitPass ctx.world) := still_record rfl rfl rfl
  have h₁ : Still clock ctx (polled env ctx) :=
    hmark.trans (still_record (h.poll ctx.world) rfl rfl)
  apply Triple.bind_ok (call_eq _ _ ctx)
  apply Triple.bind_ok (poll_eq ctx)
  generalize polled env ctx = ctx₁ at h₁ ⊢
  cases (env.poll ctx.world).1 with
  | some sig => exact Triple.pure (hleave false _ h₁.selected)
  | none =>
    have hnow : Still clock ctx₁ (ctx₁.record (.now (clock ctx₁.world)) (env.now ctx₁.world).2) :=
      still_record (h.now ctx₁.world) rfl rfl
    refine Triple.bind_ok (now_eq h.forward ctx₁) (Triple.bind_ok rfl ?_)
    obtain ⟨watchdogTimeout, ctx₃, harmed, h₃, hdue⟩ := deadlineToAlarmClock_armed
      (ctx₁.record (.now (clock ctx₁.world)) (env.now ctx₁.world).2).nextWatchdog
      "watchdog".toList hnow.clock.symm
    have hstill : Still clock ctx ctx₃ := h₁.trans (hnow.trans h₃)
    have hselected := select_selected h refreshTimeout watchdogTimeout hstill fun t ht hle => by
      rw [hdue, hnow.nextWatchdog, h₁.nextWatchdog, ht, Option.map_some, h₁.clock, max_eq_right hle]
    apply Triple.bind_ok harmed
    apply Triple.bind_ok (call_eq (env.select · refreshTimeout watchdogTimeout) .woke ctx₃)
    cases hwake : (env.select ctx₃.world refreshTimeout watchdogTimeout).1 with
    | signal sig =>
      rw [hwake] at hselected
      exact Triple.pure (hleave false _ hselected)
    | refresh =>
      rw [hwake] at hselected
      exact Triple.pure (hleave true _ hselected)
    | watchdog =>
      rw [hwake] at hselected
      obtain ⟨t, ht, hle⟩ := hp.watchdog _ _ _ hwake
      rw [hdue, hnow.nextWatchdog, h₁.nextWatchdog, Option.map_eq_some_iff] at ht
      obtain ⟨deadline, hdeadline, rfl⟩ := ht
      refine (hping deadline _ hselected hdeadline ?_).bind fun _ _ hQ => Triple.pure hQ
      exact (le_max_right _ _).trans hle

/-- One pass of the loop of `wait` only leads to another iteration when the refresh alarm is
due. -/
theorem waitPass_refreshed (hp : Punctual env clock) {t : ℤ} {refreshTimeout : Receiver ω}
    (hdue : ∀ w, dueAt clock w refreshTimeout = some t) (ctx : Context ω) :
    Triple (waitPass config env refreshTimeout) ctx
      (fun x ctx' => x = some true → t ≤ clock ctx'.world) fun _ _ => True := by
  refine Triple.trivial.bind fun _ ctx₁ _ => Triple.trivial.bind fun sig ctx₂ _ => ?_
  cases sig with
  | some sig => exact Triple.pure fun h => by cases h
  | none =>
    refine Triple.trivial.bind fun reading ctx₃ _ => Triple.trivial.bind fun stored ctx₄ _ => ?_
    refine Triple.trivial.bind fun watchdogTimeout ctx₅ _ => ?_
    apply Triple.bind_ok (call_eq (env.select · refreshTimeout watchdogTimeout) .woke ctx₅)
    cases hwake : (env.select ctx₅.world refreshTimeout watchdogTimeout).1 with
    | signal sig => exact Triple.pure fun h => by cases h
    | refresh =>
      obtain ⟨t', ht', hle⟩ := hp.refresh _ _ _ hwake
      rw [hdue] at ht'
      obtain rfl := Option.some.inj ht'
      exact Triple.pure fun _ => hle
    | watchdog => exact Triple.trivial.bind fun _ _ _ => Triple.pure fun h => by cases h

/-- A wait that leads to another iteration has lasted the refresh interval. -/
theorem wait_lasts (h : Forward env clock) (hp : Punctual env clock) {r : UInt32}
    (hr : config.refreshSeconds = some r) (passes : ℕ) (ctx : Context ω) :
    Triple (wait config env passes) ctx
      (fun again ctx' => again = true →
        clock ctx.world + Duration.seconds r.toNat ≤ clock ctx'.world)
      fun _ _ => True := by
  have hseconds : 0 ≤ Duration.seconds r.toNat := by
    rw [Duration.seconds]
    omega
  have hmarked : mark .wait ctx = .ok () (ctx.record .wait ctx.world) := rfl
  have hread : now env (ctx.record .wait ctx.world) = .ok (clock ctx.world)
      ((ctx.record .wait ctx.world).record (.now (clock ctx.world)) (env.now ctx.world).2) :=
    now_eq h _
  -- the alarm is armed after the reading, so it is due no earlier than the next refresh
  have harmed : clock ctx.world ≤ clock (env.now ctx.world).2 := h.now ctx.world
  rw [wait, hr]
  refine Triple.bind_ok hmarked (Triple.bind_ok hread ?_)
  by_cases hrange : clock ctx.world + Duration.seconds r.toNat < DateTime.overflow
  · apply Triple.bind_ok (addDuration_ok hrange _)
    refine Triple.bind_ok (deadlineToAlarmClock_after (by omega) _ _) ?_
    refine Triple.loop (I := fun _ => True) (fun ctx₁ _ => ?_) (fun _ _ => trivial) passes trivial
    refine (waitPass_refreshed hp (fun w => rfl) ctx₁).mono (fun x ctx₂ h₂ => ?_) fun _ _ h => h
    cases x with
    | none => trivial
    | some again =>
      intro hagain
      have hdue : clock (env.now ctx.world).2 +
          (clock ctx.world + Duration.seconds r.toNat - clock ctx.world) ≤ clock ctx₂.world :=
        h₂ (congrArg some hagain)
      omega
  · exact Triple.error (bind_error (addDuration_panic hrange _)) trivial

/-- More passes than a wait can make. The configuration has a watchdog only with systemd. -/
structure EnoughPasses (config : Config) (passes : ℕ) : Prop where
  systemd : config.watchdogMicroseconds.isSome = true → config.systemd = true
  pos : 0 < passes
  pings : ∀ r dog, config.refreshSeconds = some r → config.watchdogMicroseconds = some dog →
    Duration.seconds r.toNat < passes * watchdogTimeout dog

/-- A wait that started at `s` has pinged `k` times. Each ping has set the next deadline. -/
structure Pinging (config : Config) (clock : ω → ℤ) (s : ℤ) (k : ℕ) (ctx : Context ω) :
    Prop where
  pings : k = 0 ∨ ∃ dog, config.watchdogMicroseconds = some dog ∧
    s + k * watchdogTimeout dog ≤ clock ctx.world
  deadline : ∀ t, ctx.nextWatchdog = some t → ∃ dog, config.watchdogMicroseconds = some dog ∧
    s + (k + 1) * watchdogTimeout dog ≤ t

private theorem Pinging.selected {s : ℤ} {k : ℕ} {refreshTimeout : Receiver ω}
    {ctx ctx' : Context ω}
    (h : Pinging config clock s k ctx) (h' : Selected clock refreshTimeout ctx ctx') :
    Pinging config clock s k ctx' where
  pings := h.pings.imp_right fun ⟨dog, hdog, hle⟩ => ⟨dog, hdog, hle.trans h'.le⟩
  deadline t ht := h.deadline t (h'.nextWatchdog.symm.trans ht)

/-- The ping for a deadline that has come sets the next one. -/
theorem Pinging.ping (h : Steady env clock)
    (hsystemd : config.watchdogMicroseconds.isSome = true → config.systemd = true) {s t : ℤ}
    {k : ℕ} {ctx : Context ω} (hctx : Pinging config clock s k ctx)
    (ht : ctx.nextWatchdog = some t) (hle : t ≤ clock ctx.world) :
    Triple (notifyStatus config env "Waiting".toList) ctx
      (fun _ ctx' => clock ctx'.world = clock ctx.world ∧ Pinging config clock s (k + 1) ctx')
      fun e _ => e = .panic := by
  obtain ⟨dog, hdog, hset⟩ := hctx.deadline t ht
  have hclock : clock (pinged env "Waiting".toList ctx).world = clock ctx.world :=
    (h.notify _ _).trans (h.now _)
  have hone : s + ((k + 1 : ℕ) : ℤ) * watchdogTimeout dog ≤ clock ctx.world := by
    push_cast
    omega
  refine notifyStatus_triple (hsystemd (by rw [hdog]; rfl)) hdog (fun _ => ⟨hclock, ?_⟩)
    fun _ => rfl
  constructor
  · refine .inr ⟨dog, hdog, ?_⟩
    dsimp only
    rwa [hclock]
  · intro t' ht'
    obtain rfl := Option.some.inj ht'
    refine ⟨dog, hdog, ?_⟩
    rw [h.reading, add_mul, one_mul]
    omega

/-- A deadline is only set if there is a watchdog. -/
def Watched (config : Config) (ctx : Context ω) : Prop :=
  ∀ t, ctx.nextWatchdog = some t → ∃ dog, config.watchdogMicroseconds = some dog

private theorem Pinging.watched {s : ℤ} {k : ℕ} {ctx : Context ω}
    (h : Pinging config clock s k ctx) :
    Watched config ctx := fun t ht => (h.deadline t ht).imp fun _ hdog => hdog.1

/-- With enough passes a wait never uses them up. -/
theorem wait_ends (h : Steady env clock) (hp : Punctual env clock) {passes : ℕ}
    (hpasses : EnoughPasses config passes) {ctx : Context ω}
    (hctx : Pinging config clock (clock ctx.world) 0 ctx) :
    Triple (wait config env passes) ctx (fun _ => Watched config) fun e _ => e = .panic := by
  cases hr : config.refreshSeconds with
  | none =>
    rw [wait, hr]
    exact Triple.bind_ok (a := ()) rfl (Triple.pure hctx.watched)
  | some r =>
    refine wait_steady h hr (fun _ _ => rfl) fun refreshTimeout ctx₁ h₁ hdue => ?_
    have hseconds : 0 ≤ Duration.seconds r.toNat := by
      rw [Duration.seconds]
      omega
    refine Triple.loop_counted (I := fun k ctx' =>
      clock ctx'.world ≤ clock ctx.world + Duration.seconds r.toNat ∧
        Pinging config clock (clock ctx.world) k ctx') (fun k ctx₂ h₂ => ?_) (fun ctx₂ h₂ => ?_) ?_
    · have hselected (ctx₃ : Context ω) (h₃ : Selected clock refreshTimeout ctx₂ ctx₃) :
          clock ctx₃.world ≤ clock ctx.world + Duration.seconds r.toNat :=
        (h₃.refresh _ (hdue _)).trans (max_le h₂.1 le_rfl)
      refine waitPass_woke h hp (fun _ ctx₃ h₃ => (h₂.2.selected h₃).watched)
        fun t ctx₃ h₃ ht hle => ?_
      refine ((h₂.2.selected h₃).ping h hpasses.systemd (h₃.nextWatchdog.trans ht) hle).mono
        (fun _ ctx₄ h₄ => ?_) fun _ _ he => he
      exact ⟨h₄.1.le.trans (hselected ctx₃ h₃), h₄.2⟩
    · -- that many pings do not fit into the refresh interval
      obtain hzero | ⟨dog, hdog, hle⟩ := h₂.2.pings
      · exact absurd hpasses.pos (by omega)
      · have hmany := hpasses.pings r dog hr hdog
        omega
    · exact ⟨by rw [h₁.clock]; omega, .inl rfl, fun t ht =>
        hctx.deadline t (h₁.nextWatchdog.symm.trans ht)⟩

/-- A status notification takes no time and sets the next deadline if there is a watchdog. -/
theorem notifyStatus_pinging (h : Steady env clock)
    (hsystemd : config.watchdogMicroseconds.isSome = true → config.systemd = true)
    (status : Text) {ctx : Context ω} (hctx : Watched config ctx) :
    Triple (notifyStatus config env status) ctx
      (fun _ ctx' => clock ctx'.world = clock ctx.world ∧
        Pinging config clock (clock ctx'.world) 0 ctx') fun e _ => e = .panic := by
  have hclock : clock (pinged env status ctx).world = clock ctx.world :=
    (h.notify _ _).trans (h.now _)
  have hunset (ctx' : Context ω) (hdog : config.watchdogMicroseconds = none)
      (hnext : ctx'.nextWatchdog = ctx.nextWatchdog) (s : ℤ) : Pinging config clock s 0 ctx' := by
    refine ⟨.inl rfl, fun t ht => ?_⟩
    obtain ⟨dog, hsome⟩ := hctx t (hnext.symm.trans ht)
    rw [hdog] at hsome
    cases hsome
  have houtcome : PingOutcome config env status ctx (notifyStatus config env status ctx) :=
    notifyStatus_outcome status ctx
  unfold Triple
  generalize notifyStatus config env status ctx = result at houtcome ⊢
  cases houtcome with
  | silent hsilent =>
    have hdog : config.watchdogMicroseconds = none := by
      by_contra hsome
      rw [hsystemd (Option.isSome_iff_ne_none.mpr hsome)] at hsilent
      cases hsilent
    exact ⟨rfl, hunset ctx hdog rfl _⟩
  | unwatched _ hdog => exact ⟨hclock, hunset (pinged env status ctx) hdog rfl _⟩
  | panicked => rfl
  | watched dog _ hdog =>
    refine ⟨hclock, .inl rfl, fun t ht => ⟨dog, hdog, ?_⟩⟩
    obtain rfl := Option.some.inj ht
    dsimp only
    rw [hclock, h.reading, Nat.cast_zero, zero_add, one_mul]

/-- The work of an iteration does not touch the deadline of the watchdog. -/
theorem worked_nextWatchdog (explicit : List Text) (ctx : Context ω) :
    (worked config env explicit ctx).nextWatchdog = ctx.nextWatchdog := by
  have hwork : AlongWork env fun ctx ctx' : Context ω => ctx'.nextWatchdog = ctx.nextWatchdog :=
    { refl := ⟨fun _ => rfl⟩, trans := ⟨fun _ _ _ h h' => h'.trans h⟩,
      enumerate := along_call fun _ => rfl, inspect := fun _ => along_call fun _ => rfl,
      publish := fun _ => along_call fun _ => rfl }
  exact refreshed_along hwork explicit ctx

/-- An iteration that is followed by another one has lasted the refresh interval. -/
theorem iteration_lasts (h : Forward env clock) (hp : Punctual env clock) {r : UInt32}
    (hr : config.refreshSeconds = some r) (explicit : List Text) (passes : ℕ) (ctx : Context ω) :
    Triple (iteration config env explicit passes) ctx
      (fun x ctx' => x = none → clock ctx.world + Duration.seconds r.toNat ≤ clock ctx'.world)
      fun _ _ => True := by
  have hpings := (clock_waits h).toAlongPings
  refine iteration_triple ((notifyStatus_along hpings _ _).mono_error fun _ _ _ => trivial)
    fun ctx₁ (h₁ : clock ctx.world ≤ clock ctx₁.world) => ?_
  have hwork : clock ctx₁.world ≤ clock (worked config env explicit ctx₁).world :=
    (refreshed_along (elapsed_work h) explicit ctx₁).le
  refine Triple.bind ((notifyStatus_along hpings _ _).mono_error fun _ _ _ => trivial)
    fun _ ctx₂ h₂ => ?_
  refine ((wait_lasts h hp hr passes ctx₂).mono_error fun _ _ _ => trivial).bind
    fun again ctx₃ h₃ => Triple.ite (fun hagain => Triple.pure fun _ => ?_) fun _ => ?_
  · have hlasts := h₃ hagain
    omega
  · refine Triple.bind Triple.trivial fun _ _ _ => ?_
    exact Triple.ite (fun _ => Triple.pure fun h => by cases h) fun _ =>
      Triple.pure fun h => by cases h

/-- With enough passes an iteration does not use them up. -/
theorem iteration_ends (h : Steady env clock) (hp : Punctual env clock) {passes : ℕ}
    (hpasses : EnoughPasses config passes) (explicit : List Text) {ctx : Context ω}
    (hctx : Watched config ctx) : Triple (iteration config env explicit passes) ctx
      (fun x ctx' => x = none → Watched config ctx') fun e _ => e = .panic := by
  refine iteration_triple (notifyStatus_pinging h hpasses.systemd _ hctx) fun ctx₁ h₁ => ?_
  have hworked : Watched config (worked config env explicit ctx₁) := fun t ht =>
    h₁.2.watched t ((worked_nextWatchdog explicit ctx₁).symm.trans ht)
  refine (notifyStatus_pinging h hpasses.systemd _ hworked).bind fun _ ctx₂ h₂ => ?_
  refine (wait_ends h hp hpasses h₂.2).bind fun again ctx₃ h₃ => ?_
  refine Triple.ite (fun _ => Triple.pure fun _ => h₃) fun _ => ?_
  obtain ⟨ctx₄, hstopping⟩ : ∃ ctx', notifyStopping config env ctx₃ = .ok () ctx' :=
    notifyStopping_ok ctx₃
  apply Triple.bind_ok hstopping
  exact Triple.ite (fun _ => Triple.pure fun h => by cases h) fun _ =>
      Triple.pure fun h => by cases h

/-- The trace after an iteration that started in `ctx`. -/
def Started (ctx ctx' : Context ω) : Prop :=
  ∃ body, ctx'.trace = ctx.trace ++ ⟨.iteration, ctx.world, ctx.world⟩ :: body ∧
    ∀ E ∈ body, E.event.isIteration = false

theorem Started.quiet {ctx ctx' ctx'' : Context ω} (h : Started ctx ctx') (h' : Quiet ctx' ctx'') :
    Started ctx ctx'' := by
  obtain ⟨body, htrace, hbody⟩ := h
  obtain ⟨new, htrace', hnew⟩ := h'
  exact ⟨body ++ new, by simp [htrace', htrace],
    List.forall_mem_append.mpr ⟨hbody, fun E hE => (hnew E hE).1⟩⟩

theorem iteration_started (explicit : List Text) (passes : ℕ) (ctx : Context ω) :
    Triple (iteration config env explicit passes) ctx (fun _ => Started ctx)
      fun _ => Started ctx := by
  have hmark : Started ctx (ctx.record .iteration ctx.world) := ⟨[], rfl, by simp⟩
  refine iteration_triple ((notifyStatus_quiet _ _).mono (fun _ _ h => hmark.quiet h)
    fun _ _ h => hmark.quiet h.1) fun ctx₁ h₁ => ?_
  have hwork : Started ctx (worked config env explicit ctx₁) := by
    obtain ⟨body, htrace, hbody⟩ := h₁
    obtain ⟨new, hnew, hnew_iteration, -⟩ := worked_new config env explicit ctx₁
    exact ⟨body ++ new, by simp [hnew, htrace],
      List.forall_mem_append.mpr ⟨hbody, hnew_iteration⟩⟩
  exact (endIteration_along (quiet_waits env) _ passes _).mono (fun _ _ h => hwork.quiet h)
    fun _ _ h => hwork.quiet h

/-- The entries at which iterations start. -/
def startEntries (ctx : Context ω) : List (Entry ω) := ctx.trace.filter fun E => E.event.isIteration

private theorem startEntries_quiet {ctx ctx' : Context ω} (h : Quiet ctx ctx') :
    startEntries ctx' = startEntries ctx := by
  obtain ⟨new, htrace, hnew⟩ := h
  have hnil : new.filter (fun E => E.event.isIteration) = [] :=
    List.filter_eq_nil_iff.mpr fun E hE => by simp [(hnew E hE).1]
  rw [startEntries, htrace, List.filter_append, hnil, List.append_nil, startEntries]

private theorem startEntries_started {ctx ctx' : Context ω} (h : Started ctx ctx') :
    startEntries ctx' = startEntries ctx ++ [⟨.iteration, ctx.world, ctx.world⟩] := by
  obtain ⟨body, htrace, hbody⟩ := h
  have hnil : body.filter (fun E => E.event.isIteration) = [] :=
    List.filter_eq_nil_iff.mpr fun E hE => by simp [hbody E hE]
  rw [startEntries, htrace, List.filter_append, List.filter_cons_of_pos rfl, hnil,
    startEntries]

/-- Every two iterations are at least `R` apart. -/
def Paced (clock : ω → ℤ) (R : ℤ) (ctx : Context ω) : Prop :=
  (startEntries ctx).Pairwise fun E F => clock E.before + R ≤ clock F.before

/-- `R` has passed since the last iteration started. -/
def Rested (clock : ω → ℤ) (R : ℤ) (ctx : Context ω) : Prop :=
  ∀ E ∈ startEntries ctx, clock E.before + R ≤ clock ctx.world

theorem Paced.started {R : ℤ} {ctx ctx' : Context ω} (h : Paced clock R ctx)
    (hrested : Rested clock R ctx) (h' : Started ctx ctx') : Paced clock R ctx' := by
  rw [Paced, startEntries_started h', List.pairwise_append]
  refine ⟨h, List.pairwise_singleton _ _, fun E hE F hF => ?_⟩
  rw [List.mem_singleton.mp hF]
  exact hrested E hE

theorem Rested.started {R : ℤ} (hR : 0 ≤ R) {ctx ctx' : Context ω} (h : Rested clock R ctx)
    (h' : Started ctx ctx') (hlasts : clock ctx.world + R ≤ clock ctx'.world) :
    Rested clock R ctx' := by
  rw [Rested, startEntries_started h', List.forall_mem_append, List.forall_mem_singleton]
  exact ⟨fun E hE => (h E hE).trans (by omega), hlasts⟩

/-- Before the first iteration. -/
theorem paced_of_quiet (clock : ω → ℤ) (R : ℤ) {w : ω} {ctx : Context ω}
    (h : Quiet (start w) ctx) : Paced clock R ctx ∧ Rested clock R ctx := by
  have hstart : startEntries ctx = [] := startEntries_quiet h
  rw [Paced, Rested, hstart]
  exact ⟨List.Pairwise.nil, List.forall_mem_nil _⟩

/-- On a clock that does not go back the iterations of a run are at least the refresh interval
apart, whatever takes how long and however often the waits are interrupted. -/
theorem run_paced {ω : Type} (config : Config) (env : Environment ω) (clock : ω → ℤ)
    (h : Forward env clock) (hp : Punctual env clock) (r : UInt32)
    (hr : config.refreshSeconds = some r) (explicit : List Text) (n passes : ℕ) (w : ω) :
    Paced clock (Duration.seconds r.toNat)
      (finalState (run config env explicit n passes) (start w)) := by
  have hseconds : 0 ≤ Duration.seconds r.toNat := by
    rw [Duration.seconds]
    omega
  refine Triple.finalState (run_triple (quiet_waits env).toAlongPings
    (fun _ ctx hquiet _ => (paced_of_quiet clock _ hquiet).1) fun ctx hquiet => ?_)
  refine Triple.loop (I := fun ctx => Paced clock (Duration.seconds r.toNat) ctx ∧
    Rested clock (Duration.seconds r.toNat) ctx)
    (E := fun _ => Paced clock (Duration.seconds r.toNat)) (fun ctx₁ h₁ => ?_)
    (fun _ h₁ => h₁.1) n (paced_of_quiet clock _ hquiet)
  refine ((iteration_started explicit passes ctx₁).and
    (iteration_lasts h hp hr explicit passes ctx₁)).mono (fun x ctx₂ h₂ => ?_)
    fun _ ctx₂ h₂ => h₁.1.started h₁.2 h₂.1
  cases x with
  | some result => exact h₁.1.started h₁.2 h₂.1
  | none => exact ⟨h₁.1.started h₁.2 h₂.1, h₁.2.started hseconds h₂.1 (h₂.2 rfl)⟩

private theorem AlongPings.and {R R' : Context ω → Context ω → Prop} (h : AlongPings env R)
    (h' : AlongPings env R') : AlongPings env fun ctx ctx' => R ctx ctx' ∧ R' ctx ctx' where
  refl := ⟨fun ctx => ⟨h.refl.refl ctx, h'.refl.refl ctx⟩⟩
  trans := ⟨fun _ _ _ hR hR' =>
    ⟨h.trans.trans _ _ _ hR.1 hR'.1, h'.trans.trans _ _ _ hR.2 hR'.2⟩⟩
  now ctx := (h.now ctx).and (h'.now ctx)
  notify entries ctx := (h.notify entries ctx).and (h'.notify entries ctx)
  setNextWatchdog t ctx := (h.setNextWatchdog t ctx).and (h'.setNextWatchdog t ctx)

/-- How a run can be cut off, if it is cut off in its loop. -/
theorem run_watched {R : Context ω → Context ω → Prop} (h : AlongPings env R) {explicit : List Text}
    {n passes : ℕ} {w : ω} {E : Stop → Context ω → Prop}
    (hloop : ∀ ctx, R (start w) ctx → Watched config ctx →
      Triple (iterate config env explicit n passes) ctx (fun _ _ => True) E) :
    Triple (run config env explicit n passes) (start w) (fun _ _ => True) E := by
  have := h.trans
  obtain ⟨ctx, hnew, hwatched⟩ : ∃ ctx, new config env (start w) = .ok () ctx ∧
      Watched config ctx := by
    rw [new]
    cases hdog : config.watchdogMicroseconds with
    | none => exact ⟨start w, rfl, fun _ ht => by cases ht⟩
    | some dog => exact ⟨_, rfl, fun _ _ => ⟨dog, hdog⟩⟩
  have hctx : R (start w) ctx := (new_along h _).of_ok hnew
  rw [run]
  refine Triple.bind_ok hnew (Triple.ite (fun _ => ?_) fun _ => hloop ctx hctx hwatched)
  have hready : R (start w) (ctx.record (.notify readyEntries (env.notify ctx.world readyEntries).1)
      (env.notify ctx.world readyEntries).2) :=
    IsTrans.trans _ _ _ hctx (h.notify readyEntries ctx)
  have hnotify : notify env readyEntries ctx =
      .ok ((env.notify ctx.world readyEntries).1.mapError .systemd)
        (ctx.record (.notify readyEntries (env.notify ctx.world readyEntries).1)
          (env.notify ctx.world readyEntries).2) := rfl
  have hstill : Watched config (ctx.record
      (.notify readyEntries (env.notify ctx.world readyEntries).1)
      (env.notify ctx.world readyEntries).2) := hwatched
  apply Triple.bind_ok hnotify
  generalize ctx.record (.notify readyEntries (env.notify ctx.world readyEntries).1)
    (env.notify ctx.world readyEntries).2 = ctx' at hready hstill ⊢
  cases (env.notify ctx.world readyEntries).1 with
  | error err => exact Triple.pure trivial
  | ok u => exact hloop ctx' hready hstill

/-- The select that returns when the first alarm is due is punctual. -/
theorem selectFirst_wake {β : Type} (w : ℤ × β) (refresh watchdog : Receiver (ℤ × β)) :
    ((selectFirst w refresh watchdog).1 = .refresh →
      ∃ t, dueAt Prod.fst w refresh = some t ∧ t ≤ (selectFirst w refresh watchdog).2.1) ∧
    ((selectFirst w refresh watchdog).1 = .watchdog →
      ∃ t, dueAt Prod.fst w watchdog = some t ∧ t ≤ (selectFirst w refresh watchdog).2.1) := by
  unfold selectFirst
  split
  · split
    · exact ⟨fun _ => ⟨_, ‹_›, le_max_right _ _⟩, fun h => by cases h⟩
    · exact ⟨fun h => (by cases h), fun _ => ⟨_, ‹_›, le_max_right _ _⟩⟩
  · exact ⟨fun _ => ⟨_, ‹_›, le_max_right _ _⟩, fun h => by cases h⟩
  · exact ⟨fun h => (by cases h), fun _ => ⟨_, ‹_›, le_max_right _ _⟩⟩
  · exact ⟨fun h => (by cases h), fun h => by cases h⟩

private theorem timedEnvironment_punctual {β : Type} (publisher : Publish (ℤ × β)) (took : ℤ)
    (found : Inspection) : Punctual (timedEnvironment publisher took found) Prod.fst :=
  ⟨fun w refresh watchdog => (selectFirst_wake w refresh watchdog).1,
    fun w refresh watchdog => (selectFirst_wake w refresh watchdog).2⟩

/-- An inspection takes 0.3 seconds. -/
def webClock : Environment (ℤ × Unit) :=
  timedEnvironment ⟨fun w _ => (.ok (), w)⟩ 300000000 ⟨"10.0.0.2".toList, [], true⟩

private theorem webClock_steady : Steady webClock Prod.fst :=
  timedEnvironment_steady (fun _ _ => le_rfl) (by decide)

/-- A refresh every two seconds, a ping every 0.45 seconds. -/
def pinged450 : Config :=
  { everyTwoSeconds with systemd := true, watchdogMicroseconds := some 1000000 }

theorem run_paced_web : Paced Prod.fst (Duration.seconds (2 : UInt32).toNat)
    (finalState (run pinged450 webClock ["web".toList] 3 5) (start (0, ()))) :=
  run_paced pinged450 webClock Prod.fst webClock_steady.forward
    (timedEnvironment_punctual _ _ _) 2 rfl ["web".toList] 3 5 (0, ())

/-- With enough passes a run is only cut off after its last iteration. Every iteration has lasted
the refresh interval, and no iteration started once a signal was queued. -/
theorem run_cutOff {ω : Type} (config : Config) (env : Environment ω) (clock : ω → ℤ)
    (h : Steady env clock) (hp : Punctual env clock) (queued : ω → Prop)
    (hsignal : SignalLaw env queued) (r : UInt32) (hr : config.refreshSeconds = some r)
    (explicit : List Text) (n passes : ℕ) (hpasses : EnoughPasses config passes) (w : ω)
    (ctx : Context ω)
    (hrun : run config env explicit n passes (start w) = .error .unfinished ctx) :
    (startEntries ctx).length = n ∧ Paced clock (Duration.seconds r.toNat) ctx ∧
      Rested clock (Duration.seconds r.toNat) ctx ∧
      ∀ before E after, ctx.trace = before ++ E :: after → queued E.before →
        ∀ X ∈ E :: after, X.event.isIteration = false := by
  have hseconds : 0 ≤ Duration.seconds r.toNat := by
    rw [Duration.seconds]
    omega
  have hpings := (keeps_pings (k := 0) hsignal).and (quiet_waits env).toAlongPings
  have hmain : Triple (run config env explicit n passes) (start w) (fun _ _ => True) fun e ctx' =>
      e = .unfinished → Heard queued 0 ctx' ∧ (startEntries ctx').length = n ∧
        Paced clock (Duration.seconds r.toNat) ctx' ∧
        Rested clock (Duration.seconds r.toNat) ctx' := by
    refine run_watched hpings fun ctx₁ h₁ hwatched => ?_
    obtain ⟨hkeeps, hquiet⟩ := h₁
    refine Triple.loop_counted (I := fun k ctx' => (Heard queued 0 ctx' ∧ Watched config ctx') ∧
      (startEntries ctx').length = k ∧ Paced clock (Duration.seconds r.toNat) ctx' ∧
      Rested clock (Duration.seconds r.toNat) ctx')
      (fun k ctx₂ h₂ => ?_) (fun ctx₂ h₂ _ => ⟨h₂.1.1, h₂.2⟩) ?_
    · obtain ⟨⟨hheard, hwatched⟩, hlength, hpaced, hrested⟩ := h₂
      refine (((iteration_heard hsignal explicit passes hheard).and
        (iteration_started explicit passes ctx₂)).and
        ((iteration_lasts h.forward hp hr explicit passes ctx₂).and
          (iteration_ends h hp hpasses explicit hwatched))).mono (fun x ctx₃ h₃ => ?_)
        fun e ctx₃ h₃ he => ?_
      · cases x with
        | some result => trivial
        | none =>
          obtain ⟨⟨hheard₃, hstarted⟩, hlasts, hwatched₃⟩ := h₃
          refine ⟨⟨hheard₃, hwatched₃ rfl⟩, ?_, hpaced.started hrested hstarted,
            hrested.started hseconds hstarted (hlasts rfl)⟩
          rw [startEntries_started hstarted, List.length_append, hlength, List.length_singleton]
      · rw [h₃.2.2] at he
        cases he
    · have hheard : Heard queued 0 (start w) := ⟨[], [], rfl, by simp, by simp, by simp⟩
      refine ⟨⟨hkeeps.heard hheard, hwatched⟩, ?_, paced_of_quiet clock _ hquiet⟩
      rw [startEntries_quiet hquiet]
      rfl
  obtain ⟨⟨old, new, htrace, hold, hcount, -⟩, hlength, hpaced, hrested⟩ := hmain.of_error hrun rfl
  refine ⟨hlength, hpaced, hrested, fun before E after hsplit hq X hX => ?_⟩
  have hsuffix := suffix_of_split (htrace.symm.trans hsplit) fun hE => hold E hE hq
  have hnone := List.countP_eq_zero.mp (Nat.le_zero.mp hcount) X (hsuffix.subset hX)
  exact Bool.eq_false_iff.mpr hnone

/-- A refresh every nine seconds. The watchdog's deadline is nine seconds after a ping. -/
def tied : Config :=
  { Config.default with
    refreshSeconds := some 9, systemd := true, watchdogMicroseconds := some 20000000 }

private theorem enoughPasses_tied : EnoughPasses tied 2 where
  systemd _ := rfl
  pos := by decide
  pings r dog hr hdog := by
    obtain rfl := Option.some.inj hr
    obtain rfl := Option.some.inj hdog
    decide

/-- The other one of the two alarms. -/
def otherAlarm : Wake → Wake
  | .signal sig => .signal sig
  | .refresh => .watchdog
  | .watchdog => .refresh

private theorem otherAlarm_otherAlarm (wake : Wake) : otherAlarm (otherAlarm wake) = wake := by
  cases wake with
  | signal sig => rfl
  | refresh => rfl
  | watchdog => rfl

private theorem otherAlarm_injective : Function.Injective otherAlarm :=
  Function.LeftInverse.injective otherAlarm_otherAlarm

/-- A world with the time and the number of readings of the clock before the one signal is sent,
`none` once it was received. A select prefers the watchdog's alarm to the refresh alarm, and an
alarm that is due to the signal. -/
def tiedEnvironment : Environment (ℤ × Option ℕ) :=
  { timedEnvironment ⟨fun w _ => (.ok (), w)⟩ 300000000 ⟨"10.0.0.2".toList, [], true⟩ with
    now := fun w => (w.1, (w.1, w.2.map Nat.pred))
    poll := fun w => if w.2 = some 0 then (some (some .term), (w.1, none)) else (none, w)
    select := fun w refresh watchdog =>
      if w.2 = some 0 ∧ w.1 < (selectFirst w watchdog refresh).2.1 then
        (.signal (some .term), (w.1, none))
      else (otherAlarm (selectFirst w watchdog refresh).1, (selectFirst w watchdog refresh).2) }

private theorem tiedEnvironment_steady : Steady tiedEnvironment Prod.fst where
  reading _ := rfl
  now _ := rfl
  notify _ _ := rfl
  poll w := by
    simp only [tiedEnvironment]
    split
    · rfl
    · rfl
  enumerate _ := le_rfl
  inspect w _ := by
    change w.1 ≤ w.1 + 300000000
    omega
  publish _ _ := le_rfl
  select w refresh watchdog := by
    simp only [tiedEnvironment]
    split
    · exact le_rfl
    · exact selectFirst_le w watchdog refresh
  due w refresh watchdog receiver hreceiver t ht := by
    simp only [tiedEnvironment]
    split
    · exact le_max_left _ _
    · exact selectFirst_due w watchdog refresh receiver hreceiver.symm t ht

private theorem tiedEnvironment_punctual : Punctual tiedEnvironment Prod.fst where
  refresh w refresh watchdog h := by
    simp only [tiedEnvironment] at h ⊢
    split at h
    · cases h
    · rename_i hc
      rw [if_neg hc]
      exact (selectFirst_wake w watchdog refresh).2 (otherAlarm_injective h)
  watchdog w refresh watchdog h := by
    simp only [tiedEnvironment] at h ⊢
    split at h
    · cases h
    · rename_i hc
      rw [if_neg hc]
      exact (selectFirst_wake w watchdog refresh).1 (otherAlarm_injective h)

private theorem tiedEnvironment_law : SignalLaw tiedEnvironment fun w => w.2 = some 0 where
  poll w hq := by
    simp only [tiedEnvironment, if_pos hq]
    simp
  select w refresh watchdog hq hnot := by
    simp only [tiedEnvironment] at hnot ⊢
    split at hnot
    · exact absurd rfl (hnot (some .term))
    · rename_i hc
      rw [if_neg hc, selectFirst_snd]
      exact hq
  now w hq := by
    simp only [tiedEnvironment, hq]
    rfl
  notify _ _ hq := hq
  enumerate _ hq := hq
  inspect _ _ hq := hq
  publish _ _ hq := hq

/-- Where a run of two iterations is cut off. The signal is sent with the last reading. -/
def afterTwo : Context (ℤ × Option ℕ) :=
  finalState (run tied tiedEnvironment ["web".toList] 2 2) (start (0, some 13))

theorem run_afterTwo :
    run tied tiedEnvironment ["web".toList] 2 2 (start (0, some 13)) =
      .error .unfinished afterTwo :=
  eq_error_of_stop? (by decide +kernel)

/-- An alarm is armed in the last pass, after the signal was sent. -/
def lateAlarm : Entry (ℤ × Option ℕ) :=
  ⟨.after "watchdog".toList 9000000000, (18600000000, some 0), (18600000000, some 0)⟩

theorem run_cutOff_late : (startEntries afterTwo).length = 2 ∧
    Paced Prod.fst (Duration.seconds (9 : UInt32).toNat) afterTwo ∧
    Rested Prod.fst (Duration.seconds (9 : UInt32).toNat) afterTwo ∧
    ∀ X ∈ lateAlarm :: afterTwo.trace.drop 47, X.event.isIteration = false := by
  have htrace : afterTwo.trace =
      afterTwo.trace.take 46 ++ lateAlarm :: afterTwo.trace.drop 47 := by
    decide +kernel
  obtain ⟨hlength, hpaced, hrested, hnone⟩ := run_cutOff tied tiedEnvironment Prod.fst
    tiedEnvironment_steady tiedEnvironment_punctual (fun w => w.2 = some 0) tiedEnvironment_law 9
    rfl ["web".toList] 2 2 enoughPasses_tied (0, some 13) afterTwo run_afterTwo
  exact ⟨hlength, hpaced, hrested, hnone _ _ _ htrace rfl⟩

end Beachhead.Companion
