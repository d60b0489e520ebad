import Beachhead.History

/-!
# A steady clock

On a steady clock only the work of an iteration and the blocking select take time,
and a select returns no later than the earliest alarm is due. So a wait is never
longer than the refresh interval, however often it is interrupted.
-/
namespace Beachhead.Companion
open Program

variable {ω : Type} {config : Config} {env : Environment ω}

/-- When a receiver that is waited for in the world `w` is unblocked, if ever. -/
def dueAt (clock : ω → ℤ) (w : ω) : Receiver ω → Option ℤ
  | .closed => some (clock w)
  | .after since remaining => some (clock since + remaining)
  | .kept => none

/-- What is relied on of the clock and the alarms. -/
structure Steady (env : Environment ω) (clock : ω → ℤ) : Prop where
  reading : ∀ w, (env.now w).1 = clock w
  now : ∀ w, clock (env.now w).2 = clock w
  notify : ∀ w entries, clock (env.notify w entries).2 = clock w
  poll : ∀ w, clock (env.poll w).2 = clock w
  enumerate : ∀ w, clock w ≤ clock (env.inspector.enumerate w []).2
  inspect : ∀ w name, clock w ≤ clock (env.inspector.inspect w name).2
  publish : ∀ w publication, clock w ≤ clock (env.publisher.publish w publication).2
  select : ∀ w refresh watchdog, clock w ≤ clock (env.select w refresh watchdog).2
  due : ∀ w refresh watchdog receiver, receiver = refresh ∨ receiver = watchdog →
    ∀ t, dueAt clock w receiver = some t → clock (env.select w refresh watchdog).2 ≤ max (clock w) t

/-- A clock that does not go back, whatever takes how long. -/
structure Forward (env : Environment ω) (clock : ω → ℤ) : Prop where
  reading : ∀ w, (env.now w).1 = clock w
  now : ∀ w, clock w ≤ clock (env.now w).2
  notify : ∀ w entries, clock w ≤ clock (env.notify w entries).2
  poll : ∀ w, clock w ≤ clock (env.poll w).2
  enumerate : ∀ w, clock w ≤ clock (env.inspector.enumerate w []).2
  inspect : ∀ w name, clock w ≤ clock (env.inspector.inspect w name).2
  publish : ∀ w publication, clock w ≤ clock (env.publisher.publish w publication).2
  select : ∀ w refresh watchdog, clock w ≤ clock (env.select w refresh watchdog).2

theorem Steady.forward {clock : ω → ℤ} (h : Steady env clock) : Forward env clock where
  reading := h.reading
  now w := (h.now w).ge
  notify w entries := (h.notify w entries).ge
  poll w := (h.poll w).ge
  enumerate := h.enumerate
  inspect := h.inspect
  publish := h.publish
  select := h.select

/-- The work of every iteration takes at most `D`. -/
def WorkBound (clock : ω → ℤ) (D : ℤ) (trace : List (Entry ω)) : Prop :=
  ∀ E ∈ trace, E.event = .work → clock E.after ≤ clock E.before + D

/-- No time passes, no iteration starts and the deadline of the watchdog is kept. -/
structure Still (clock : ω → ℤ) (ctx ctx' : Context ω) : Prop where
  quiet : Quiet ctx ctx'
  clock : clock ctx'.world = clock ctx.world
  nextWatchdog : ctx'.nextWatchdog = ctx.nextWatchdog

section
variable {clock : ω → ℤ}

theorem WorkBound.back {D : ℤ} {ctx ctx' : Context ω} (h : Extends ctx ctx')
    (hD : WorkBound clock D ctx'.trace) : WorkBound clock D ctx.trace :=
  fun E hE => hD E (h.subset hE)

theorem Still.refl (ctx : Context ω) : Still clock ctx ctx := ⟨Quiet.refl ctx, rfl, rfl⟩

theorem Still.trans {ctx ctx' ctx'' : Context ω} (h : Still clock ctx ctx')
    (h' : Still clock ctx' ctx'') : Still clock ctx ctx'' :=
  ⟨h.quiet.trans h'.quiet, h'.clock.trans h.clock, h'.nextWatchdog.trans h.nextWatchdog⟩

theorem still_record {ctx : Context ω} {w : ω} {event : Event} (hw : clock w = clock ctx.world)
    (h : event.isIteration = false) (h' : event.isContainer = false) :
    Still clock ctx (ctx.record event w) := ⟨quiet_record ctx w h h', hw, rfl⟩

theorem now_eq (h : Forward env clock) (ctx : Context ω) : now env ctx =
    .ok (clock ctx.world) (ctx.record (.now (clock ctx.world)) (env.now ctx.world).2) := by
  rw [← h.reading ctx.world]
  rfl

/-- A deadline that has not passed is turned into an alarm that is due at the deadline. -/
theorem deadlineToAlarmClock_after {t deadline : ℤ} (h : t ≤ deadline) (desc : Text)
    (ctx : Context ω) : deadlineToAlarmClock t (some deadline) desc ctx =
      .ok (.after ctx.world (deadline - t))
        (ctx.record (.after desc (deadline - t)) ctx.world) := by
  have hstd : toStd (deadline - t) ctx = .ok (deadline - t) ctx := by
    rw [toStd, if_neg (by omega)]
    rfl
  rw [deadlineToAlarmClock, if_neg (by omega), bind_ok hstd]
  rfl

theorem deadlineToAlarmClock_due (deadline : Option ℤ) (desc : Text) {t : ℤ} {ctx : Context ω}
    (ht : t = clock ctx.world) : Triple (deadlineToAlarmClock t deadline desc) ctx
      (fun receiver ctx' => Still clock ctx ctx' ∧ ∀ d, deadline = some d → t ≤ d →
        dueAt clock ctx'.world receiver = some d) fun _ => Still clock ctx := by
  cases deadline with
  | none => exact Triple.pure ⟨Still.refl ctx, by simp⟩
  | some deadline =>
    by_cases h : t ≤ deadline
    · refine Triple.ok (deadlineToAlarmClock_after h desc ctx) ⟨still_record rfl rfl rfl, ?_⟩
      intro d hd _
      rw [dueAt, ← ht, ← Option.some.inj hd, add_sub_cancel]
    · rw [deadlineToAlarmClock, if_pos (by omega)]
      refine Triple.pure ⟨Still.refl ctx, fun d hd hle => ?_⟩
      obtain rfl := Option.some.inj hd
      exact absurd hle h

/-- What is known after a select, or where a pass of the loop of `wait` ends before it. -/
structure Selected (clock : ω → ℤ) (refreshTimeout : Receiver ω) (ctx ctx' : Context ω) :
    Prop where
  quiet : Quiet ctx ctx'
  nextWatchdog : ctx'.nextWatchdog = ctx.nextWatchdog
  le : clock ctx.world ≤ clock ctx'.world
  refresh : ∀ t, dueAt clock ctx.world refreshTimeout = some t →
    clock ctx'.world ≤ max (clock ctx.world) t
  watchdog : ∀ t, ctx.nextWatchdog = some t → clock ctx.world ≤ t → clock ctx'.world ≤ t

theorem Still.selected {refreshTimeout : Receiver ω} {ctx ctx' : Context ω}
    (h : Still clock ctx ctx') : Selected clock refreshTimeout ctx ctx' where
  quiet := h.quiet
  nextWatchdog := h.nextWatchdog
  le := h.clock.ge
  refresh t _ := h.clock.le.trans (le_max_left _ t)
  watchdog _ _ ht := h.clock.le.trans ht

private theorem dueAt_congr {w w' : ω} (h : clock w' = clock w) (receiver : Receiver ω) :
    dueAt clock w' receiver = dueAt clock w receiver := by
  cases receiver with
  | closed => rw [dueAt, dueAt, h]
  | after since remaining => rfl
  | kept => rfl

/-- The alarm that a pass arms for the watchdog is due at the next deadline. -/
theorem select_selected (h : Steady env clock) (refreshTimeout watchdogTimeout : Receiver ω)
    {ctx ctx₁ : Context ω} (h₁ : Still clock ctx ctx₁)
    (hdue : ∀ t, ctx.nextWatchdog = some t → clock ctx.world ≤ t →
      dueAt clock ctx₁.world watchdogTimeout = some t) :
    Selected clock refreshTimeout ctx (ctx₁.record
      (.woke (env.select ctx₁.world refreshTimeout watchdogTimeout).1)
      (env.select ctx₁.world refreshTimeout watchdogTimeout).2) where
  quiet := h₁.quiet.trans (quiet_record _ _ rfl rfl)
  nextWatchdog := h₁.nextWatchdog
  le := h₁.clock.ge.trans (h.select _ _ _)
  refresh t ht := by
    rw [← h₁.clock]
    rw [← dueAt_congr h₁.clock] at ht
    exact h.due _ _ _ _ (.inl rfl) t ht
  watchdog t ht hle := by
    have hselect := h.due _ refreshTimeout _ _ (.inr rfl) t (hdue t ht hle)
    rwa [h₁.clock, max_eq_right hle] at hselect

/-- One pass of the loop of `wait` ends where it selected or pings there. -/
theorem waitPass_steady (h : Steady env clock) {refreshTimeout : Receiver ω} {ctx : Context ω}
    {Q : Option Bool → Context ω → Prop} {E : Stop → Context ω → Prop}
    (hleave : ∀ again ctx', Selected clock refreshTimeout ctx ctx' → Q (some again) ctx')
    (hpanic : ∀ e ctx', Selected clock refreshTimeout ctx ctx' → E e ctx')
    (hping : ∀ ctx', Selected clock refreshTimeout ctx ctx' →
      Triple (notifyStatus config env "Waiting".toList) ctx' (fun _ => Q none) E) :
    Triple (waitPass config env refreshTimeout) ctx Q E := by
  have hmark : Still clock ctx (ctx.record .waitPass ctx.world) := still_record rfl rfl rfl
  have h₁ : Still clock ctx (polled env ctx) :=
    hmark.trans (still_record (h.poll ctx.world) rfl rfl)
  apply Triple.bind_ok (call_eq _ _ ctx)
  apply Triple.bind_ok (poll_eq ctx)
  generalize polled env ctx = ctx₁ at h₁ ⊢
  cases (env.poll ctx.world).1 with
  | some sig => exact Triple.pure (hleave false _ h₁.selected)
  | none =>
    have hnow : Still clock ctx₁ (ctx₁.record (.now (clock ctx₁.world)) (env.now ctx₁.world).2) :=
      still_record (h.now ctx₁.world) rfl rfl
    have h₂ := h₁.trans hnow
    refine Triple.bind_ok (now_eq h.forward ctx₁) (Triple.bind_ok rfl ?_)
    refine Triple.bind ((deadlineToAlarmClock_due _ _ hnow.clock.symm).mono_error
      fun e ctx' h => hpanic e ctx' (h₂.trans h).selected) fun watchdogTimeout ctx₃ h₃ => ?_
    have hselected := select_selected h refreshTimeout watchdogTimeout (h₂.trans h₃.1)
      fun t ht hle => h₃.2 t (h₂.nextWatchdog.trans ht) (by rw [h₁.clock]; exact hle)
    apply Triple.bind_ok (call_eq (env.select · refreshTimeout watchdogTimeout) .woke ctx₃)
    cases hwake : (env.select ctx₃.world refreshTimeout watchdogTimeout).1 with
    | signal sig =>
      rw [hwake] at hselected
      exact Triple.pure (hleave false _ hselected)
    | refresh =>
      rw [hwake] at hselected
      exact Triple.pure (hleave true _ hselected)
    | watchdog =>
      rw [hwake] at hselected
      exact (hping _ hselected).bind fun _ _ hQ => Triple.pure hQ

/-- A wait arms its refresh alarm once and then only runs its loop. -/
theorem wait_steady (h : Steady env clock) {r : UInt32} (hr : config.refreshSeconds = some r)
    {passes : ℕ} {ctx : Context ω} {Q : Bool → Context ω → Prop} {E : Stop → Context ω → Prop}
    (hpanic : ∀ ctx', Still clock ctx ctx' → E .panic ctx')
    (hloop : ∀ refreshTimeout ctx', Still clock ctx ctx' →
      (∀ w, dueAt clock w refreshTimeout =
        some (clock ctx.world + Duration.seconds r.toNat)) →
      Triple (loop .unfinished (waitPass config env refreshTimeout) passes) ctx' Q E) :
    Triple (wait config env passes) ctx Q E := by
  have hmark : Still clock ctx (ctx.record .wait ctx.world) := still_record rfl rfl rfl
  have hnow : Still clock ctx ((ctx.record .wait ctx.world).record (.now (clock ctx.world))
      (env.now ctx.world).2) := hmark.trans (still_record (h.now ctx.world) rfl rfl)
  have hseconds : 0 ≤ Duration.seconds r.toNat := by
    rw [Duration.seconds]
    omega
  have hmarked : mark .wait ctx = .ok () (ctx.record .wait ctx.world) := rfl
  have hread : now env (ctx.record .wait ctx.world) = .ok (clock ctx.world)
      ((ctx.record .wait ctx.world).record (.now (clock ctx.world)) (env.now ctx.world).2) :=
    now_eq h.forward _
  rw [wait, hr]
  refine Triple.bind_ok hmarked (Triple.bind_ok hread ?_)
  by_cases hrange : clock ctx.world + Duration.seconds r.toNat < DateTime.overflow
  · apply Triple.bind_ok (addDuration_ok hrange _)
    refine Triple.bind_ok (deadlineToAlarmClock_after (by omega) _ _) ?_
    refine hloop _ _ (hnow.trans (still_record rfl rfl rfl)) fun w => ?_
    rw [dueAt, hnow.clock, add_sub_cancel]
  · exact Triple.error (bind_error (addDuration_panic hrange _)) (hpanic _ hnow)

/-- A status notification takes no time. -/
theorem clock_pings (h : Steady env clock) :
    AlongPings env fun ctx ctx' => clock ctx'.world = clock ctx.world where
  refl := ⟨fun _ => rfl⟩
  trans := ⟨fun _ _ _ h h' => h'.trans h⟩
  now := along_call fun ctx => h.now ctx.world
  notify entries := along_call fun ctx => h.notify ctx.world entries
  setNextWatchdog _ _ := rfl

/-- A wait takes no longer than the refresh interval. -/
theorem wait_clock (h : Steady env clock) {r : UInt32} (hr : config.refreshSeconds = some r)
    (passes : ℕ) (ctx : Context ω) : Triple (wait config env passes) ctx
      (fun _ ctx' => clock ctx'.world ≤ clock ctx.world + Duration.seconds r.toNat)
      fun _ ctx' => clock ctx'.world ≤ clock ctx.world + Duration.seconds r.toNat := by
  have hseconds : 0 ≤ Duration.seconds r.toNat := by
    rw [Duration.seconds]
    omega
  have hstill (ctx' : Context ω) (h : Still clock ctx ctx') :
      clock ctx'.world ≤ clock ctx.world + Duration.seconds r.toNat := by
    rw [h.clock]
    omega
  refine wait_steady h hr hstill fun refreshTimeout ctx₁ h₁ hdue => ?_
  refine Triple.loop_invariant (I := fun ctx' : Context ω =>
    clock ctx'.world ≤ clock ctx.world + Duration.seconds r.toNat) (fun ctx' h' => ?_)
    passes (hstill ctx₁ h₁)
  have hselected (ctx'' : Context ω) (h'' : Selected clock refreshTimeout ctx' ctx'') :
      clock ctx''.world ≤ clock ctx.world + Duration.seconds r.toNat :=
    (h''.refresh _ (hdue _)).trans (max_le h' le_rfl)
  refine waitPass_steady h (fun _ => hselected) (fun _ => hselected) fun ctx'' h'' => ?_
  exact (notifyStatus_along (clock_pings h) _ ctx'').mono
    (fun _ ctx₃ h₃ => h₃.le.trans (hselected ctx'' h''))
    fun _ ctx₃ h₃ => h₃.le.trans (hselected ctx'' h'')

theorem endIteration_clock (h : Steady env clock) {r : UInt32}
    (hr : config.refreshSeconds = some r) (errors : List CompanionError) (passes : ℕ)
    (ctx : Context ω) : Triple (endIteration config env errors passes) ctx
      (fun _ ctx' => clock ctx'.world ≤ clock ctx.world + Duration.seconds r.toNat)
      fun _ ctx' => clock ctx'.world ≤ clock ctx.world + Duration.seconds r.toNat := by
  have hseconds : 0 ≤ Duration.seconds r.toNat := by
    rw [Duration.seconds]
    omega
  refine Triple.bind ((notifyStatus_along (clock_pings h) _ ctx).mono_error
    fun _ ctx' h' => by omega) fun _ ctx₁ h₁ => ?_
  rw [← h₁]
  refine (wait_clock h hr passes ctx₁).bind fun again ctx₂ h₂ => ?_
  refine Triple.ite (fun _ => Triple.pure h₂) fun _ => ?_
  refine Triple.bind ((notifyStopping_along (clock_pings h) ctx₂).mono
    (fun _ ctx' h' => h'.le.trans h₂) fun _ ctx' h' => h'.le.trans h₂) fun _ ctx₃ h₃ => ?_
  exact Triple.ite (fun _ => Triple.pure h₃) fun _ => Triple.pure h₃

/-- The clock does not go back in a wait. -/
theorem clock_waits (h : Forward env clock) :
    AlongWaits env fun ctx ctx' => clock ctx.world ≤ clock ctx'.world where
  refl := ⟨fun _ => le_rfl⟩
  trans := ⟨fun _ _ _ => le_trans⟩
  now := along_call fun ctx => h.now ctx.world
  notify entries := along_call fun ctx => h.notify ctx.world entries
  setNextWatchdog _ _ := le_rfl
  wait := along_call fun _ => le_rfl
  waitPass := along_call fun _ => le_rfl
  poll := along_call fun ctx => h.poll ctx.world
  after _ _ := along_call fun _ => le_rfl
  select _ _ := along_call fun ctx => h.select ctx.world _ _

/-- No call is made before the start, and no iteration starts. -/
structure Elapsed (clock : ω → ℤ) (ctx ctx' : Context ω) : Prop where
  le : clock ctx.world ≤ clock ctx'.world
  new : ∃ new, ctx'.trace = ctx.trace ++ new ∧
    ∀ E ∈ new, E.event.isIteration = false ∧ clock ctx.world ≤ clock E.before

theorem Elapsed.refl (ctx : Context ω) : Elapsed clock ctx ctx := ⟨le_rfl, [], by simp⟩

theorem Elapsed.trans {ctx ctx' ctx'' : Context ω} (h : Elapsed clock ctx ctx')
    (h' : Elapsed clock ctx' ctx'') : Elapsed clock ctx ctx'' := by
  obtain ⟨hle, new, htrace, hnew⟩ := h
  obtain ⟨hle', new', htrace', hnew'⟩ := h'
  refine ⟨hle.trans hle', new ++ new', by rw [htrace', htrace, List.append_assoc], ?_⟩
  exact List.forall_mem_append.mpr ⟨hnew, fun E hE =>
    ⟨(hnew' E hE).1, hle.trans (hnew' E hE).2⟩⟩

private theorem elapsed_record {ctx : Context ω} {event : Event} {w : ω}
    (h : clock ctx.world ≤ clock w)
    (hevent : event.isIteration = false) : Elapsed clock ctx (ctx.record event w) :=
  ⟨h, [⟨event, ctx.world, w⟩], rfl, by simp [hevent]⟩

theorem elapsed_work (h : Forward env clock) : AlongWork env (Elapsed clock) where
  refl := ⟨Elapsed.refl⟩
  trans := ⟨fun _ _ _ => Elapsed.trans⟩
  enumerate := along_call fun _ => elapsed_record (h.enumerate _) rfl
  inspect _ := along_call fun _ => elapsed_record (h.inspect _ _) rfl
  publish _ := along_call fun _ => elapsed_record (h.publish _ _) rfl

end

section
variable {β : Type}

/-- The select that returns when the first alarm is due. -/
def selectFirst (w : ℤ × β) (refresh watchdog : Receiver (ℤ × β)) : Wake × (ℤ × β) :=
  match dueAt Prod.fst w refresh, dueAt Prod.fst w watchdog with
  | some s, some t =>
    if s ≤ t then (.refresh, (max w.1 s, w.2)) else (.watchdog, (max w.1 t, w.2))
  | some s, none => (.refresh, (max w.1 s, w.2))
  | none, some t => (.watchdog, (max w.1 t, w.2))
  | none, none => (.signal none, w)

/-- A world with the time and some other state. An inspection takes the given time. -/
def timedEnvironment (publisher : Publish (ℤ × β)) (took : ℤ) (found : Inspection) :
    Environment (ℤ × β) where
  inspector := ⟨fun w names => ((.ok (), names), w), fun w _ => (.ok found, (w.1 + took, w.2))⟩
  publisher := publisher
  now w := (w.1, w)
  notify w _ := (.ok (), w)
  poll w := (none, w)
  select := selectFirst
  drain _ entries := entries
  drain_perm _ _ := .refl _
  debugEnabled := true

theorem selectFirst_le (w : ℤ × β) (refresh watchdog : Receiver (ℤ × β)) :
    w.1 ≤ (selectFirst w refresh watchdog).2.1 := by
  unfold selectFirst
  split
  · split
    · exact le_max_left _ _
    · exact le_max_left _ _
  · exact le_max_left _ _
  · exact le_max_left _ _
  · exact le_rfl

theorem selectFirst_snd (w : ℤ × β) (refresh watchdog : Receiver (ℤ × β)) :
    (selectFirst w refresh watchdog).2.2 = w.2 := by
  unfold selectFirst
  split
  · split
    · rfl
    · rfl
  · rfl
  · rfl
  · rfl

theorem selectFirst_due (w : ℤ × β) (refresh watchdog receiver : Receiver (ℤ × β))
    (h : receiver = refresh ∨ receiver = watchdog) (t : ℤ)
    (ht : dueAt Prod.fst w receiver = some t) :
    (selectFirst w refresh watchdog).2.1 ≤ max w.1 t := by
  obtain rfl | rfl := h
  · rw [selectFirst, ht]
    cases dueAt Prod.fst w watchdog with
    | none => exact le_rfl
    | some u =>
      dsimp only
      split
      · exact le_rfl
      · exact max_le_max le_rfl (by omega)
  · rw [selectFirst, ht]
    cases dueAt Prod.fst w refresh with
    | none => exact le_rfl
    | some u =>
      dsimp only
      split
      · exact max_le_max le_rfl (by omega)
      · exact le_rfl

theorem timedEnvironment_steady {publisher : Publish (ℤ × β)} {took : ℤ} {found : Inspection}
    (hpublisher : ∀ w publication, w.1 ≤ (publisher.publish w publication).2.1)
    (htook : 0 ≤ took) : Steady (timedEnvironment publisher took found) Prod.fst where
  reading _ := rfl
  now _ := rfl
  notify _ _ := rfl
  poll _ := rfl
  enumerate _ := le_rfl
  inspect w _ := by
    change w.1 ≤ w.1 + took
    omega
  publish := hpublisher
  select := selectFirst_le
  due := selectFirst_due

end
end Beachhead.Companion
