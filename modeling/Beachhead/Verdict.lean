import Beachhead.Registration

/-!
# The verdict of a one-shot run

Without a refresh interval a run is a single iteration and its result is the list of
the errors of that iteration.
-/
namespace Beachhead.Companion
open Program

variable {ω : Type} {config : Config} {env : Environment ω}

/-- The result of a run that stops after an iteration with these errors. -/
def verdict (errors : List CompanionError) : Except (List CompanionError) Unit :=
  if errors.isEmpty then .ok () else .error errors

theorem notifyStopping_ok (ctx : Context ω) :
    ∃ ctx', notifyStopping config env ctx = .ok () ctx' := by
  rw [notifyStopping]
  split
  · exact ⟨_, rfl⟩
  · exact ⟨ctx, rfl⟩

theorem endIteration_oneShot (honce : config.refreshSeconds = none)
    (errors : List CompanionError) (passes : ℕ) (ctx : Context ω) :
    Triple (endIteration config env errors passes) ctx
      (fun r ctx' => r = some (verdict errors) ∧ Quiet ctx ctx')
      fun e ctx' => e = .panic ∧ OutOfRange config ctx' := by
  have hpings := (quiet_waits env).toAlongPings
  refine Triple.bind ((notifyStatus_quiet _ ctx).mono_error fun _ _ h => h.2) fun _ ctx₁ h₁ => ?_
  have hwait : wait config env passes ctx₁ = .ok false (ctx₁.record .wait ctx₁.world) := by
    rw [wait, honce]
    rfl
  have hmark : Quiet ctx (ctx₁.record .wait ctx₁.world) := h₁.trans (quiet_record _ _ rfl rfl)
  obtain ⟨ctx₂, hstopping⟩ : ∃ ctx',
      notifyStopping config env (ctx₁.record .wait ctx₁.world) = .ok () ctx' := notifyStopping_ok _
  have hquiet : Quiet ctx ctx₂ := hmark.trans ((notifyStopping_along hpings _).of_ok hstopping)
  refine Triple.bind_ok hwait (Triple.ite (fun h => by cases h) fun _ => ?_)
  apply Triple.bind_ok hstopping
  rw [honce, Option.isSome_none, Bool.or_false]
  refine Triple.ite (fun h => ?_) fun h => ?_
  · exact Triple.pure ⟨by rw [verdict, if_pos h], hquiet⟩
  · exact Triple.pure ⟨by rw [verdict, if_neg h], hquiet⟩

/-- The one iteration of a one-shot run gives the verdict on the errors of its work. -/
theorem iteration_oneShot (honce : config.refreshSeconds = none) (explicit : List Text)
    (passes : ℕ) (ctx : Context ω) :
    Triple (iteration config env explicit passes) ctx
      (fun r ctx' => ∃ ctx₀, Quiet (ctx.record .iteration ctx.world) ctx₀ ∧
        r = some (verdict (workErrors config env explicit ctx₀)) ∧
        Quiet (worked config env explicit ctx₀) ctx')
      fun e ctx' => e = .panic ∧ OutOfRange config ctx' := by
  refine iteration_triple ((notifyStatus_quiet _ _).mono_error fun _ _ h => h.2)
    fun ctx₀ h₀ => ?_
  exact (endIteration_oneShot honce _ passes _).mono (fun r ctx' h => ⟨ctx₀, h₀, h⟩) fun _ _ h => h

/-- A loop of `run` in one-shot mode gives the verdict on the errors of its work. -/
theorem iterate_oneShot (honce : config.refreshSeconds = none) (explicit : List Text)
    (n passes : ℕ) (ctx : Context ω) :
    Triple (iterate config env explicit (n + 1) passes) ctx
      (fun r ctx' => ∃ ctx₀, Quiet (ctx.record .iteration ctx.world) ctx₀ ∧
        r = verdict (workErrors config env explicit ctx₀) ∧
        Quiet (worked config env explicit ctx₀) ctx')
      fun e ctx' => e = .panic ∧ OutOfRange config ctx' := by
  rw [iterate, loop]
  refine (iteration_oneShot honce explicit passes ctx).bind fun r ctx' h => ?_
  obtain ⟨ctx₀, h₀, rfl, hquiet⟩ := h
  exact Triple.pure ⟨ctx₀, h₀, rfl, hquiet⟩

/-- A one-shot run either fails with the error of the initial notification or gives the
verdict on the errors of its work. -/
theorem run_oneShot (honce : config.refreshSeconds = none) (explicit : List Text)
    (n passes : ℕ) (w : ω) :
    Triple (run config env explicit (n + 1) passes) (start w)
      (fun r ctx' => (∃ err, ∃ E ∈ ctx'.trace, E.event = .notify readyEntries (.error err)) ∨
        ∃ ctx₀, r = verdict (workErrors config env explicit ctx₀) ∧
          (worked config env explicit ctx₀).trace <+: ctx'.trace)
      fun e _ => e = .panic := by
  refine run_triple (quiet_waits env).toAlongPings (fun err ctx' _ h => .inl ⟨err, h⟩)
    fun ctx _ => ?_
  refine (iterate_oneShot honce explicit n passes ctx).mono (fun r ctx' h => ?_) fun _ _ h => h.1
  obtain ⟨ctx₀, -, hr, hquiet⟩ := h
  exact .inr ⟨ctx₀, hr, hquiet.grows⟩

/-- Every notification, the enumeration and every publication succeeded, and an inspection
failed exactly if the container is missing, and found the variable otherwise. -/
def Harmless (missing : Text → Prop) : Event → Prop
  | .notify _ result => result = .ok ()
  | .enumerate _ result => result = .ok ()
  | .inspect name result =>
    (missing name ∧ ∃ e, result = .error e) ∨
      (¬missing name ∧ ∃ inspection, result = .ok inspection ∧ inspection.envvarPresent = true)
  | .publish _ result => result = .ok ()
  | _ => True

private theorem Visit.errors_harmless {missing : Text → Prop} {v : Visit}
    (hignore : config.missingContainer = .ignore) (h : ∀ e ∈ v.events, Harmless missing e) :
    v.errors config = [] ↔ ¬(v.name.explicit = true ∧ missing v.name.todo) := by
  have hinspect : Harmless missing (.inspect v.name.todo v.inspected) :=
    h _ (by simp [Visit.events])
  obtain ⟨hmissing, e, he⟩ | ⟨hpresent, inspection, hok, henvvar⟩ := hinspect
  · have hconsider : considerError config v.name.explicit = v.name.explicit := by
      simp [considerError, hignore]
    simp [Visit.errors, he, hconsider, hmissing]
  · have hnil : v.errors config = [] := by
      rw [Visit.errors, hok]
      simp only [henvvar, if_true]
      cases hp : v.published with
      | none => rfl
      | some p =>
        have hpublish : Harmless missing (.publish p.1 p.2) := h _ (by simp [Visit.events, hp])
        obtain ⟨publication, result⟩ := p
        obtain rfl : result = .ok () := hpublish
        rfl
    simp [hnil, hpresent]

private theorem visits_mark {explicit : List Text} {ctx : Context ω} {v : Visit}
    (hv : v ∈ visits config env explicit ctx) :
    v.name.explicit = true ↔ v.name.todo ∈ explicit := by
  have hmerged : Merged ((visits config env explicit ctx).map Visit.name) explicit
      (askStep config env ctx).1.names := visits_merged explicit ctx
  exact hmerged.mark v.name (List.mem_map_of_mem hv)

theorem workErrors_eq_nil_iff {missing : Text → Prop} {explicit : List Text} {ctx : Context ω}
    (hignore : config.missingContainer = .ignore)
    (h : ∀ e ∈ (askStep config env ctx).1.events ++
      (visits config env explicit ctx).flatMap Visit.events, Harmless missing e) :
    workErrors config env explicit ctx = [] ↔ ∀ name ∈ explicit, ¬missing name := by
  have hasked : (askStep config env ctx).1.errors = [] := by
    cases ha : (askStep config env ctx).1 with
    | none => rfl
    | some a =>
      obtain ⟨names, result⟩ := a
      have hresult : Harmless missing (.enumerate names result) := h _ (by simp [ha, Asked.events])
      obtain rfl : result = .ok () := hresult
      rfl
  have hvisit : ∀ v ∈ visits config env explicit ctx, v.errors config = [] ↔
      ¬(v.name.explicit = true ∧ missing v.name.todo) := fun v hv =>
    v.errors_harmless hignore fun e he =>
      h e (List.mem_append_right _ (List.mem_flatMap.mpr ⟨v, hv, he⟩))
  rw [workErrors, hasked, List.nil_append, List.flatMap_eq_nil_iff]
  constructor
  · intro hnil name hname hmissing
    obtain ⟨v, hv, rfl⟩ := List.mem_map.mp (((visits_names explicit ctx).2 name).mpr (.inl hname))
    exact (hvisit v hv).mp (hnil v hv) ⟨(visits_mark hv).mpr hname, hmissing⟩
  · intro hpresent v hv
    rw [hvisit v hv, visits_mark hv]
    exact fun hmissing => hpresent _ hmissing.1 hmissing.2

private theorem worked_events (explicit : List Text) (ctx : Context ω) :
    ∀ e ∈ (askStep config env ctx).1.events ++
      (visits config env explicit ctx).flatMap Visit.events,
      ∃ E ∈ (worked config env explicit ctx).trace, E.event = e := by
  intro e he
  have hmem : e ∈ (refreshed config env explicit ctx).trace.map Entry.event := by
    rw [refreshed_events]
    exact List.mem_append_right _ he
  obtain ⟨E, hE, hevent⟩ := List.mem_map.mp hmem
  exact ⟨E, List.mem_append_left _ hE, hevent⟩

/-- A one-shot run in which everything else succeeds returns `Ok(())` exactly if no container
that is listed explicitly is missing. -/
theorem run_ok_iff {ω : Type} (config : Config) (env : Environment ω) (explicit : List Text)
    (missing : Text → Prop) (n passes : ℕ) (w : ω) (honce : config.refreshSeconds = none)
    (hignore : config.missingContainer = .ignore)
    (hpanic : ∀ ctx, run config env explicit (n + 1) passes (start w) ≠ .error .panic ctx)
    (h : ∀ E ∈ (finalState (run config env explicit (n + 1) passes) (start w)).trace,
      Harmless missing E.event) :
    (∃ ctx, run config env explicit (n + 1) passes (start w) = .ok (.ok ()) ctx) ↔
      ∀ name ∈ explicit, ¬missing name := by
  have hrun : Triple (run config env explicit (n + 1) passes) (start w) _ _ :=
    run_oneShot honce explicit n passes w
  cases hx : run config env explicit (n + 1) passes (start w) with
  | error e ctx =>
    obtain rfl : e = .panic := hrun.of_error hx
    exact absurd hx (hpanic ctx)
  | ok r ctx =>
    rw [finalState, hx] at h
    obtain ⟨err, E, hE, hevent⟩ | ⟨ctx₀, rfl, htrace⟩ := hrun.of_ok hx
    · have hready := h E hE
      rw [hevent] at hready
      cases hready
    · have hwork : ∀ e ∈ (askStep config env ctx₀).1.events ++
          (visits config env explicit ctx₀).flatMap Visit.events, Harmless missing e := by
        intro e he
        obtain ⟨E, hE, rfl⟩ := worked_events explicit ctx₀ e he
        exact h E (htrace.subset hE)
      rw [← workErrors_eq_nil_iff hignore hwork, verdict]
      cases workErrors config env explicit ctx₀ with
      | nil => simp
      | cons e errors => simp

/-- A world without a state in which each inspection has a fixed answer. -/
def fixedEnvironment (answer : Text → Except InspectionError Inspection) : Environment Unit where
  inspector := ⟨fun w names => ((.ok (), names), w), fun w name => (answer name, w)⟩
  publisher := ⟨fun w _ => (.ok (), w)⟩
  now w := (0, w)
  notify w _ := (.ok (), w)
  poll w := (none, w)
  select w _ _ := (.signal none, w)
  drain _ entries := entries
  drain_perm _ _ := .refl _
  debugEnabled := false

/-- One-shot mode; `web` runs and `db` is missing. -/
def oneShot : Config := { Config.default with refreshSeconds := none }

def dbMissing (name : Text) : Except InspectionError Inspection :=
  if name = "db".toList then .error (.shiplift ⟨"no such container".toList⟩)
  else .ok ⟨"10.0.0.2".toList, [⟨"example.org".toList, some 80, none⟩], true⟩

/-- `db` is found by enumeration. -/
def dbFound : Environment Unit :=
  { fixedEnvironment dbMissing with
    inspector := ⟨fun w names => ((.ok (), names ++ ["db".toList]), w),
      fun w name => (dbMissing name, w)⟩ }

private theorem webTrace : (finalState (run { oneShot with enumerate := true } dbFound
    ["web".toList] 1 0) (start ())).trace.map Entry.event =
      [.iteration, .enumerate ["db".toList] (.ok ()),
        .inspect "db".toList (dbMissing "db".toList),
        .inspect "web".toList (dbMissing "web".toList),
        .publish ⟨"10.0.0.2".toList, [⟨"example.org".toList, some 80, none⟩]⟩ (.ok ()), .work,
        .wait] := by
  decide

private theorem dbTrace : (finalState (run oneShot (fixedEnvironment dbMissing) ["db".toList] 1 0)
    (start ())).trace.map Entry.event =
      [.iteration, .inspect "db".toList (dbMissing "db".toList), .work, .wait] := by decide

/-- The listed container runs, and the one that was found is missing. -/
theorem run_ok_iff_web :
    ∃ ctx, run { oneShot with enumerate := true } dbFound ["web".toList] 1 0 (start ()) =
      .ok (.ok ()) ctx := by
  refine (run_ok_iff { oneShot with enumerate := true } dbFound ["web".toList] (· = "db".toList)
    0 0 () rfl rfl (fun ctx h => by cases h) fun E hE => ?_).mpr (by decide)
  have hevent := List.mem_map_of_mem (f := Entry.event) hE
  rw [webTrace] at hevent
  simp only [List.mem_cons, List.not_mem_nil, or_false] at hevent
  obtain h | h | h | h | h | h | h := hevent
  all_goals rw [h]
  · trivial
  · rfl
  · exact .inl ⟨rfl, _, rfl⟩
  · exact .inr ⟨by decide, _, rfl, rfl⟩
  · rfl
  · trivial
  · trivial

/-- The one listed container is missing and everything else succeeds. -/
theorem not_ok_missing_db :
    (∀ E ∈ (finalState (run oneShot (fixedEnvironment dbMissing) ["db".toList] 1 0)
      (start ())).trace, Harmless (· = "db".toList) E.event) ∧
    ¬∃ ctx, run oneShot (fixedEnvironment dbMissing) ["db".toList] 1 0 (start ()) =
      .ok (.ok ()) ctx := by
  constructor
  · intro E hE
    have hevent := List.mem_map_of_mem (f := Entry.event) hE
    rw [dbTrace] at hevent
    simp only [List.mem_cons, List.not_mem_nil, or_false] at hevent
    obtain h | h | h | h := hevent
    all_goals rw [h]
    · trivial
    · exact .inl ⟨rfl, _, rfl⟩
    · trivial
    · trivial
  · rintro ⟨ctx, h⟩
    cases h

end Beachhead.Companion
