import Beachhead.SteadyClock

/-!
# Requests for termination are heeded

A wait looks for signals each time before it blocks. So a signal that is queued when a
wait starts ends the program, and one that comes while a wait blocks ends it at the
latest in the next wait, whichever of the ready channels a select prefers.
-/
namespace Beachhead.Companion
open Program

variable {ω : Type} {config : Config} {env : Environment ω} {queued : ω → Prop} {k : ℕ}

/-- What is relied on of the channel of the termination signals: a select with a default
takes it only if no signal is queued, and a signal stays queued until it is received. -/
structure SignalLaw (env : Environment ω) (queued : ω → Prop) : Prop where
  poll : ∀ w, queued w → (env.poll w).1 ≠ none
  select : ∀ w refresh watchdog, queued w →
    (∀ sig, (env.select w refresh watchdog).1 ≠ .signal sig) →
    queued (env.select w refresh watchdog).2
  now : ∀ w, queued w → queued (env.now w).2
  notify : ∀ w entries, queued w → queued (env.notify w entries).2
  enumerate : ∀ w, queued w → queued (env.inspector.enumerate w []).2
  inspect : ∀ w name, queued w → queued (env.inspector.inspect w name).2
  publish : ∀ w publication, queued w → queued (env.publisher.publish w publication).2

/-- No signal was queued in a first part of the trace. In the rest at most `k` iterations
start and no wait is entered with a queued signal, and what was queued there still is. -/
def Heard (queued : ω → Prop) (k : ℕ) (ctx : Context ω) : Prop :=
  ∃ old new, ctx.trace = old ++ new ∧ (∀ E ∈ old, ¬queued E.before) ∧
    new.countP (fun E => E.event.isIteration) ≤ k ∧
    ∀ E ∈ new, queued E.before → E.event.isWait = false ∧ queued ctx.world

private theorem Heard.unqueued {ctx : Context ω} (h : Heard queued k ctx) (hq : ¬queued ctx.world) :
    ∀ E ∈ ctx.trace, ¬queued E.before := by
  obtain ⟨old, new, htrace, hold, -, hnew⟩ := h
  rw [htrace]
  exact List.forall_mem_append.mpr ⟨hold, fun E hE hqueued => hq (hnew E hE hqueued).2⟩

/-- An entry that is recorded while no signal is queued belongs to the first part. -/
theorem heard_record {ctx : Context ω} {event : Event} {w : ω}
    (h : ∀ E ∈ ctx.trace, ¬queued E.before) (hq : ¬queued ctx.world) :
    Heard queued 0 (ctx.record event w) := by
  refine ⟨(ctx.record event w).trace, [], by simp, ?_, by simp, by simp⟩
  exact List.forall_mem_append.mpr ⟨h, by simpa using hq⟩

theorem Heard.append {ctx ctx' : Context ω} (h : Heard queued k ctx) (entry : Entry ω)
    (htrace : ctx'.trace = ctx.trace ++ [entry])
    (hworld : queued ctx.world → queued ctx'.world)
    (hentry : queued entry.before → entry.event.isWait = false ∧ queued ctx'.world) :
    Heard queued (k + if entry.event.isIteration then 1 else 0) ctx' := by
  obtain ⟨old, new, hold_new, hold, hcount, hnew⟩ := h
  refine ⟨old, new ++ [entry], by rw [htrace, hold_new, List.append_assoc], hold, ?_, ?_⟩
  · rw [List.countP_append, List.countP_singleton]
    omega
  · refine List.forall_mem_append.mpr ⟨fun E hE hq => ?_, by simpa using hentry⟩
    exact ⟨(hnew E hE hq).1, hworld (hnew E hE hq).2⟩

/-- A queued signal stays queued, and no wait and no iteration starts. -/
structure Keeps (queued : ω → Prop) (k : ℕ) (ctx ctx' : Context ω) : Prop where
  stays : queued ctx.world → queued ctx'.world
  heard : Heard queued k ctx → Heard queued k ctx'

instance : Std.Refl (Keeps queued k) := ⟨fun _ => ⟨id, id⟩⟩

instance : IsTrans (Context ω) (Keeps queued k) :=
  ⟨fun _ _ _ h h' => ⟨h'.stays ∘ h.stays, h'.heard ∘ h.heard⟩⟩

private theorem keeps_record {ctx : Context ω} {event : Event} {w : ω}
    (h : queued ctx.world → queued w) (hiteration : event.isIteration = false)
    (hwait : event.isWait = false) : Keeps queued k ctx (ctx.record event w) := by
  refine ⟨h, fun hctx => ?_⟩
  have happend : Heard queued (k + if event.isIteration then 1 else 0) (ctx.record event w) :=
    hctx.append ⟨event, ctx.world, w⟩ rfl h fun hq => ⟨hwait, h hq⟩
  simpa [hiteration] using happend

theorem keeps_pings (h : SignalLaw env queued) : AlongPings env (Keeps queued k) where
  refl := inferInstance
  trans := inferInstance
  now := along_call fun _ => keeps_record (h.now _) rfl rfl
  notify _ := along_call fun _ => keeps_record (h.notify _ _) rfl rfl
  setNextWatchdog _ _ := ⟨id, id⟩

private theorem keeps_work (h : SignalLaw env queued) : AlongWork env (Keeps queued k) where
  refl := inferInstance
  trans := inferInstance
  enumerate := along_call fun _ => keeps_record (h.enumerate _) rfl rfl
  inspect _ := along_call fun _ => keeps_record (h.inspect _ _) rfl rfl
  publish _ := along_call fun _ => keeps_record (h.publish _ _) rfl rfl

private theorem keeps_after (desc : Text) (remaining : ℤ) : Along (Keeps queued k)
    (call (fun w : ω => (Receiver.after w remaining, w)) fun _ => .after desc remaining) :=
  along_call fun _ => keeps_record id rfl rfl

/-- At most one iteration starts while a signal is queued, and none after a wait was entered
while one is. -/
def Heeded (queued : ω → Prop) (ctx : Context ω) : Prop :=
  ∃ ctx₀, Heard queued 1 ctx₀ ∧ Quiet ctx₀ ctx

private theorem Heard.heeded {ctx ctx' : Context ω} (h : Heard queued k ctx) (hk : k ≤ 1)
    (h' : Quiet ctx ctx') : Heeded queued ctx' := by
  obtain ⟨old, new, htrace, hold, hcount, hnew⟩ := h
  exact ⟨ctx, ⟨old, new, htrace, hold, hcount.trans hk, hnew⟩, h'⟩

theorem Heeded.quiet {ctx ctx' : Context ω} (h : Heeded queued ctx) (h' : Quiet ctx ctx') :
    Heeded queued ctx' := by
  obtain ⟨ctx₀, hctx₀, hquiet⟩ := h
  exact ⟨ctx₀, hctx₀, hquiet.trans h'⟩

/-- A pass that starts with a queued signal leaves the loop of `run`. -/
theorem waitPass_queued (h : SignalLaw env queued) (refreshTimeout : Receiver ω)
    {ctx : Context ω} (hq : queued ctx.world) :
    Triple (waitPass config env refreshTimeout) ctx (fun r _ => r = some false)
      fun _ _ => False := by
  apply Triple.bind_ok (call_eq _ _ ctx)
  apply Triple.bind_ok (poll_eq ctx)
  cases hsig : (env.poll ctx.world).1 with
  | none => exact absurd hsig (h.poll ctx.world hq)
  | some sig => exact Triple.pure rfl

/-- A wait that is entered with a queued signal asks the program to exit. -/
theorem wait_queued (h : SignalLaw env queued) (passes : ℕ) {ctx : Context ω}
    (hq : queued ctx.world) :
    Triple (wait config env passes) ctx (fun again _ => again = false) fun _ _ => True := by
  cases hr : config.refreshSeconds with
  | none =>
    rw [wait, hr]
    exact Triple.bind_ok (a := ()) rfl (Triple.pure rfl)
  | some r =>
    have hnow : Along (Keeps queued 0) (now env) := (keeps_pings h).now
    refine wait_triple hnow keeps_after hr (fun _ _ _ => trivial) fun refreshTimeout ctx₁ h₁ => ?_
    cases passes with
    | zero => exact Triple.throw trivial
    | succ passes =>
      refine ((waitPass_queued h refreshTimeout (h₁.stays hq)).mono_error
        fun _ _ h => h.elim).bind fun r ctx₂ hr => ?_
      rw [hr]
      exact Triple.pure rfl

/-- An alarm that is taken leaves a queued signal in the channel. -/
theorem select_heard (h : SignalLaw env queued) {refresh watchdog : Receiver ω} {wake : Wake}
    {ctx : Context ω} (hctx : Heard queued 0 ctx)
    (hwake : (env.select ctx.world refresh watchdog).1 = wake) (hnot : ∀ sig, wake ≠ .signal sig) :
    Heard queued 0 (ctx.record (.woke wake) (env.select ctx.world refresh watchdog).2) := by
  have hkeeps : Keeps queued 0 ctx
      (ctx.record (.woke wake) (env.select ctx.world refresh watchdog).2) :=
    keeps_record (fun hq => h.select ctx.world refresh watchdog hq (by rwa [hwake])) rfl rfl
  exact hkeeps.heard hctx

/-- A pass that does not leave the loop of `run` finds no signal before it blocks. -/
theorem waitPass_heard (h : SignalLaw env queued) (refreshTimeout : Receiver ω)
    {ctx : Context ω} (hctx : Heard queued 0 ctx) :
    Triple (waitPass config env refreshTimeout) ctx
      (fun r ctx' => if r = some false then Heeded queued ctx' else Heard queued 0 ctx')
      fun _ => Heeded queued := by
  by_cases hq : queued ctx.world
  · refine ((waitPass_queued h refreshTimeout hq).and
      (waitPass_along (quiet_waits env) refreshTimeout ctx)).mono (fun r ctx' h' => ?_)
      fun _ _ h' => h'.1.elim
    rw [h'.1]
    exact hctx.heeded (by omega) h'.2
  · have hmark : Heard queued 0 (ctx.record .waitPass ctx.world) :=
      heard_record (hctx.unqueued hq) hq
    have hpolled : Heard queued 0 (polled env ctx) := heard_record (hmark.unqueued hq) hq
    apply Triple.bind_ok (call_eq _ _ ctx)
    apply Triple.bind_ok (poll_eq ctx)
    cases (env.poll ctx.world).1 with
    | some sig => exact Triple.pure (hpolled.heeded (by omega) (Quiet.refl _))
    | none =>
      have hpings : AlongPings env (Keeps queued 0) := keeps_pings h
      refine Triple.bind ((hpings.now _).mono_error
        fun _ _ h => (h.heard hpolled).heeded (by omega) (Quiet.refl _)) fun t ctx₁ h₁ => ?_
      apply Triple.bind_ok rfl
      refine Triple.bind (((deadlineToAlarmClock_along keeps_after t _ _).after h₁).mono_error
        fun _ _ h => (h.heard hpolled).heeded (by omega) (Quiet.refl _))
        fun watchdogTimeout ctx₂ h₂ => ?_
      have hctx₂ : Heard queued 0 ctx₂ := h₂.heard hpolled
      apply Triple.bind_ok (call_eq (env.select · refreshTimeout watchdogTimeout) .woke ctx₂)
      cases hwake : (env.select ctx₂.world refreshTimeout watchdogTimeout).1 with
      | signal sig => exact Triple.pure (hctx₂.heeded (by omega) (quiet_record _ _ rfl rfl))
      | refresh => exact Triple.pure (select_heard h hctx₂ hwake (by simp))
      | watchdog =>
        have hwoke := select_heard h hctx₂ hwake (by simp)
        refine Triple.bind ((notifyStatus_along hpings _ _).mono_error
          fun _ _ h => (h.heard hwoke).heeded (by omega) (Quiet.refl _)) fun _ ctx₃ h₃ => ?_
        exact Triple.pure (h₃.heard hwoke)

theorem wait_heard (h : SignalLaw env queued) (passes : ℕ) {ctx : Context ω}
    (hctx : Heard queued 1 ctx) :
    Triple (wait config env passes) ctx
      (fun again ctx' => if again = true then Heard queued 0 ctx' else Heeded queued ctx')
      fun _ => Heeded queued := by
  have hquiet : Triple (wait config env passes) ctx (fun _ => Quiet ctx) fun _ => Quiet ctx :=
    wait_along (quiet_waits env) passes ctx
  by_cases hq : queued ctx.world
  · refine ((wait_queued h passes hq).and hquiet).mono (fun again ctx' h' => ?_)
      fun _ ctx' h' => hctx.heeded le_rfl h'.2
    rw [h'.1]
    exact hctx.heeded le_rfl h'.2
  · have hmark : Heard queued 0 (ctx.record .wait ctx.world) := heard_record (hctx.unqueued hq) hq
    cases hr : config.refreshSeconds with
    | none =>
      rw [wait, hr]
      exact Triple.bind_ok (a := ()) rfl (Triple.pure (hmark.heeded (by omega) (Quiet.refl _)))
    | some r =>
      have hnow : Along (Keeps queued 0) (now env) := (keeps_pings h).now
      refine wait_triple hnow keeps_after hr
        (fun _ _ h' => (h'.heard hmark).heeded (by omega) (Quiet.refl _))
        fun refreshTimeout ctx₁ h₁ => ?_
      refine Triple.loop (I := Heard queued 0) (E := fun _ => Heeded queued) (fun ctx₂ h₂ => ?_)
        (fun _ h₂ => h₂.heeded (by omega) (Quiet.refl _)) passes (h₁.heard hmark)
      refine (waitPass_heard h refreshTimeout h₂).mono (fun again ctx' h' => ?_) fun _ _ h' => h'
      cases again with
      | none => exact h'
      | some again =>
        cases again with
        | true => exact h'
        | false => exact h'

/-- An iteration that is followed by another one has found no signal in its wait. -/
theorem iteration_heard (h : SignalLaw env queued) (explicit : List Text) (passes : ℕ)
    {ctx : Context ω} (hctx : Heard queued 0 ctx) :
    Triple (iteration config env explicit passes) ctx (fun r ctx' => match r with
      | some _ => Heeded queued ctx'
      | none => Heard queued 0 ctx') fun _ => Heeded queued := by
  have hpings : AlongPings env (Keeps queued 1) := keeps_pings h
  have hquiet := quiet_waits env
  have hmark : Heard queued 1 (ctx.record .iteration ctx.world) :=
    hctx.append ⟨.iteration, ctx.world, ctx.world⟩ rfl id fun hq => ⟨rfl, hq⟩
  refine iteration_triple ((notifyStatus_along hpings _ _).mono_error
    fun _ _ h => (h.heard hmark).heeded le_rfl (Quiet.refl _)) fun ctx₁ h₁ => ?_
  have hkeeps : Keeps queued 1 ctx₁ (refreshed config env explicit ctx₁) :=
    refreshed_along (keeps_work h) explicit ctx₁
  have hworked : Heard queued 1 (worked config env explicit ctx₁) :=
    (hkeeps.heard (h₁.heard hmark)).append ⟨.work, ctx₁.world, _⟩ rfl id
      fun hq => ⟨rfl, hkeeps.stays hq⟩
  refine Triple.bind ((notifyStatus_along hpings _ _).mono_error
    fun _ _ h => (h.heard hworked).heeded le_rfl (Quiet.refl _)) fun _ ctx₂ h₂ => ?_
  refine (wait_heard h passes (h₂.heard hworked)).bind fun again ctx₃ h₃ => ?_
  cases again with
  | true => exact Triple.pure h₃
  | false =>
    refine Triple.bind ((notifyStopping_along hquiet.toAlongPings ctx₃).mono
      (fun _ _ h => h₃.quiet h) fun _ _ h => h₃.quiet h) fun _ ctx₄ h₄ => ?_
    exact Triple.ite (fun _ => Triple.pure h₄) fun _ => Triple.pure h₄

theorem run_heeded (h : SignalLaw env queued) (explicit : List Text) (n passes : ℕ) (w : ω) :
    Triple (run config env explicit n passes) (start w) (fun _ => Heeded queued)
      fun _ => Heeded queued := by
  have hstart : Heard queued 0 (start w) := ⟨[], [], rfl, by simp, by simp, by simp⟩
  have hpings : AlongPings env (Keeps queued 0) := keeps_pings h
  refine run_triple hpings (fun _ ctx h _ => (h.heard hstart).heeded (by omega) (Quiet.refl _))
    fun ctx hctx => ?_
  refine Triple.loop (I := Heard queued 0) (E := fun _ => Heeded queued) (fun ctx₁ h₁ => ?_)
    (fun _ h₁ => h₁.heeded (by omega) (Quiet.refl _)) n (hctx.heard hstart)
  refine (iteration_heard h explicit passes h₁).mono (fun r ctx' h' => ?_) fun _ _ h' => h'
  cases r with
  | none => exact h'
  | some result => exact h'

/-- In refresh mode the loop of `run` is only left with `Ok(())`. -/
theorem iteration_ok {r : UInt32} (hr : config.refreshSeconds = some r) (explicit : List Text)
    (passes : ℕ) (ctx : Context ω) :
    Triple (iteration config env explicit passes) ctx
      (fun x _ => ∀ result, x = some result → result = .ok ()) fun _ _ => True := by
  refine iteration_triple Triple.trivial fun ctx₁ _ => Triple.trivial.bind fun _ ctx₃ _ => ?_
  refine Triple.trivial.bind fun again ctx₄ _ => Triple.ite (fun _ => Triple.pure (by simp))
    fun _ => Triple.trivial.bind fun _ ctx₅ _ => ?_
  refine Triple.ite (fun _ => Triple.pure (by simp)) fun hfalse => absurd ?_ hfalse
  rw [hr, Option.isSome_some, Bool.or_true]

theorem iterate_ok {r : UInt32} (hr : config.refreshSeconds = some r) (explicit : List Text)
    (n passes : ℕ) (ctx : Context ω) :
    Triple (iterate config env explicit n passes) ctx (fun result _ => result = .ok ())
      fun _ _ => True := by
  refine Triple.loop (I := fun _ => True) (E := fun _ _ => True) (fun ctx' _ => ?_)
    (fun _ _ => True.intro) n True.intro
  refine (iteration_ok hr explicit passes ctx').mono (fun x ctx'' h => ?_) fun _ _ h => h
  cases x with
  | none => exact True.intro
  | some result => exact h result rfl

theorem run_ok {r : UInt32} (hr : config.refreshSeconds = some r) (explicit : List Text)
    (n passes : ℕ) (w : ω) :
    Triple (run config env explicit n passes) (start w)
      (fun result ctx => (∃ E ∈ ctx.trace, E.event.isIteration = true) → result = .ok ())
      fun _ _ => True := by
  refine run_triple (quiet_waits env).toAlongPings (fun err ctx hquiet _ hiteration => ?_)
    fun ctx _ => (iterate_ok hr explicit n passes ctx).mono (fun _ _ h _ => h) fun _ _ h => h
  obtain ⟨new, htrace, hnew⟩ := hquiet
  obtain ⟨E, hE, hevent⟩ := hiteration
  rw [htrace] at hE
  rw [(hnew E hE).1] at hevent
  cases hevent

/-- An entry of a list that is not in its first part starts a suffix of the rest. -/
theorem suffix_of_split {α : Type} {old rest before after : List α} {a : α}
    (h : old ++ rest = before ++ a :: after) (ha : a ∉ old) : a :: after <:+ rest := by
  induction old generalizing before with
  | nil => exact ⟨before, h.symm⟩
  | cons b old ih =>
    rw [List.mem_cons, not_or] at ha
    cases before with
    | nil => exact absurd (List.cons.inj h).1.symm ha.1
    | cons c before => exact ih (List.cons.inj h).2 ha.2

private theorem Heeded.countP {ctx : Context ω} (h : Heeded queued ctx)
    {before after : List (Entry ω)}
    {E : Entry ω} (htrace : ctx.trace = before ++ E :: after) (hq : queued E.before) :
    (E :: after).countP (fun X => X.event.isIteration) ≤ 1 := by
  obtain ⟨ctx₀, ⟨old, new, htrace₀, hold, hcount, -⟩, last, hlast, hlast_quiet⟩ := h
  rw [hlast, htrace₀, List.append_assoc] at htrace
  have hsuffix := suffix_of_split htrace fun hE => hold E hE hq
  have hzero : last.countP (fun X => X.event.isIteration) = 0 :=
    List.countP_eq_zero.mpr fun X hX => by simp [(hlast_quiet X hX).1]
  have hle := hsuffix.sublist.countP_le (p := fun X : Entry ω => X.event.isIteration)
  rw [List.countP_append, hzero] at hle
  omega

private theorem Heeded.wait {ctx : Context ω} (h : Heeded queued ctx)
    {before after : List (Entry ω)}
    {E : Entry ω} (htrace : ctx.trace = before ++ E :: after) (hq : queued E.before)
    (hwait : E.event.isWait = true) : ∀ X ∈ after, X.event.isIteration = false := by
  obtain ⟨ctx₀, ⟨old, new, htrace₀, hold, -, hnew⟩, last, hlast, hlast_quiet⟩ := h
  rw [hlast, htrace₀] at htrace
  have hsuffix := suffix_of_split htrace fun hE => by
    obtain hE | hE := List.mem_append.mp hE
    · exact hold E hE hq
    · rw [(hnew E hE hq).1] at hwait
      cases hwait
  exact fun X hX => (hlast_quiet X (hsuffix.subset (List.mem_cons_of_mem E hX))).1

/-- From any moment at which a signal is queued at most one iteration starts, and none if a
wait or its loop is entered at that moment. A run that reached its loop returns `Ok(())`. -/
theorem termination_heeded {ω : Type} (config : Config) (env : Environment ω)
    (queued : ω → Prop) (h : SignalLaw env queued) (r : UInt32)
    (hr : config.refreshSeconds = some r) (explicit : List Text) (n passes : ℕ) (w : ω) :
    let program := run config env explicit n passes
    let trace := (finalState program (start w)).trace
    (∀ before E after, trace = before ++ E :: after → queued E.before →
      (E :: after).countP (fun X => X.event = .iteration) ≤ 1 ∧
      (E.event = .wait ∨ E.event = .waitPass → ∀ X ∈ after, X.event ≠ .iteration)) ∧
    ∀ result ctx, program (start w) = .ok result ctx →
      (∃ E ∈ trace, E.event = .iteration) → result = .ok () := by
  intro program trace
  have hheeded : Heeded queued (finalState program (start w)) :=
    (run_heeded h explicit n passes w).finalState
  have hiteration (e : Event) : e.isIteration = decide (e = .iteration) := by
    cases e <;> rfl
  constructor
  · intro before E after htrace hq
    constructor
    · have hcount := hheeded.countP htrace hq
      simpa only [hiteration] using hcount
    · intro hevent X hX hX_event
      have hwait : E.event.isWait = true := by
        obtain hevent | hevent := hevent
        · rw [hevent]
          rfl
        · rw [hevent]
          rfl
      have hnone := hheeded.wait htrace hq hwait X hX
      rw [hX_event] at hnone
      cases hnone
  · intro result ctx hresult hstarted
    have hok := (run_ok hr explicit n passes w).of_ok hresult
    have htrace : trace = ctx.trace := by simp only [trace, finalState, program, hresult]
    obtain ⟨E, hE, hevent⟩ := hstarted
    exact hok ⟨E, htrace ▸ hE, by rw [hevent]; rfl⟩

/-- A world with the time and whether the one signal was received, which is sent at
`arrival`. A select prefers an alarm that is due at the same time. -/
def signalEnvironment (arrival : ℤ) : Environment (ℤ × Bool) :=
  { timedEnvironment ⟨fun w _ => (.ok (), w)⟩ 300000000 ⟨"10.0.0.2".toList, [], true⟩ with
    poll := fun w =>
      if arrival ≤ w.1 ∧ w.2 = false then (some (some .term), (w.1, true)) else (none, w)
    select := fun w refresh watchdog =>
      if arrival < (selectFirst w refresh watchdog).2.1 ∧ w.2 = false then
        (.signal (some .term), (max w.1 arrival, true))
      else selectFirst w refresh watchdog }

private theorem signalEnvironment_law (arrival : ℤ) :
    SignalLaw (signalEnvironment arrival) fun w => arrival ≤ w.1 ∧ w.2 = false where
  poll w hq := by
    simp only [signalEnvironment, if_pos hq]
    simp
  select w refresh watchdog hq hnot := by
    simp only [signalEnvironment] at hnot ⊢
    split at hnot
    · exact absurd rfl (hnot (some .term))
    · rename_i hc
      rw [if_neg hc, selectFirst_snd]
      exact ⟨hq.1.trans (selectFirst_le w refresh watchdog), hq.2⟩
  now _ hq := hq
  notify _ _ hq := hq
  enumerate _ hq := hq
  inspect w name hq := by
    have hle : w.1 ≤ w.1 + 300000000 := by omega
    exact ⟨hq.1.trans hle, hq.2⟩
  publish _ _ hq := hq

def everyTwoSeconds : Config := { Config.default with refreshSeconds := some 2 }

/-- The second iteration starts at the moment at which the signal comes. -/
def lateIteration : Entry (ℤ × Bool) := ⟨.iteration, (2300000000, false), (2300000000, false)⟩

theorem termination_heeded_late :
    (lateIteration :: ((finalState (run everyTwoSeconds (signalEnvironment 2300000000)
      ["web".toList] 3 5) (start (0, false))).trace.drop 12)).countP
        (fun X => X.event = .iteration) ≤ 1 := by
  have htrace : (finalState (run everyTwoSeconds (signalEnvironment 2300000000)
      ["web".toList] 3 5) (start (0, false))).trace =
      (finalState (run everyTwoSeconds (signalEnvironment 2300000000) ["web".toList] 3 5)
        (start (0, false))).trace.take 11 ++ lateIteration ::
      (finalState (run everyTwoSeconds (signalEnvironment 2300000000) ["web".toList] 3 5)
        (start (0, false))).trace.drop 12 := by
    decide +kernel
  exact ((termination_heeded everyTwoSeconds (signalEnvironment 2300000000) _
    (signalEnvironment_law 2300000000) 2 rfl ["web".toList] 3 5 (0, false)).1 _ _ _ htrace
      (by decide)).1

end Beachhead.Companion
