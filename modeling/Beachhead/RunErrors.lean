import Beachhead.Termination
import Beachhead.Verdict

/-!
# The errors that a run reports

The policy says which error counts for a container, if any. A one-shot run reports the
error of the enumeration and then what the policy counts, in the order in which the
containers were handled.
-/
namespace Beachhead.Companion
open Program

variable {ω : Type} {config : Config} {env : Environment ω}

/-- The policy about one container. It leaves open whether the failed inspection of a listed
container counts when missing containers are ignored. -/
structure Counted (config : Config) (v : Visit) (errors : List CompanionError) : Prop where
  atMostOne : errors.length ≤ 1
  notPublished : ∀ publication e, v.published = some (publication, .error e) →
    errors = [.publishing e]
  published : ∀ publication, v.published = some (publication, .ok ()) → errors = []
  dryRun : ∀ inspection, v.inspected = .ok inspection → inspection.envvarPresent = true →
    config.dryRun = true → errors = []
  envVarReported : ∀ inspection, v.inspected = .ok inspection → inspection.envvarPresent = false →
    config.missingEnvvar = .report ∨ config.missingEnvvar = .automatic ∧ v.name.explicit = true →
      errors = [.envVarMissing v.name.todo config.envvar]
  envVarIgnored : ∀ inspection, v.inspected = .ok inspection → inspection.envvarPresent = false →
    ¬(config.missingEnvvar = .report ∨
      config.missingEnvvar = .automatic ∧ v.name.explicit = true) → errors = []
  notInspected : ∀ e, v.inspected = .error e → errors ⊆ [.inspection e]
  inspectionReported : ∀ e, v.inspected = .error e → config.missingContainer = .report →
    errors = [.inspection e]
  inspectionIgnored : ∀ e, v.inspected = .error e → config.missingContainer = .ignore →
    v.name.explicit = false → errors = []

/-- The calls about containers in one iteration, and the errors that count in it. -/
structure Reported (config : Config) (explicit : List Text) (events : List Event)
    (asked : Asked) (visits : List Visit) (errors : List CompanionError) : Prop where
  asks : asked.isSome = config.enumerate
  events : events = asked.events ++ visits.flatMap Visit.events
  names : Merged (visits.map Visit.name) explicit asked.names
  faithful : ∀ v ∈ visits, v.Faithful config
  errors : ∃ counted, List.Forall₂ (Counted config) visits counted ∧
    errors = asked.errors ++ counted.flatten

private theorem publication?_eq_some {r : Except InspectionError Inspection}
    {publication : Publication} (h : publication? config r = some publication) :
    ∃ inspection, r = .ok inspection ∧ inspection.envvarPresent = true ∧ config.dryRun = false := by
  cases r with
  | error e => cases h
  | ok inspection =>
    refine ⟨inspection, rfl, ?_⟩
    by_contra hcon
    rw [publication?, if_neg (by simpa using hcon)] at h
    cases h

/-- Only a container with the variable is published, and not in a dry run. -/
theorem Visit.Faithful.of_published {v : Visit} (h : v.Faithful config)
    {p : Publication × Except PublishingError Unit} (hp : v.published = some p) :
    ∃ inspection, v.inspected = .ok inspection ∧ inspection.envvarPresent = true ∧
      config.dryRun = false := by
  rw [Visit.Faithful, hp] at h
  exact publication?_eq_some h.symm

theorem envVarError_iff (wasExplicit : Bool) : envVarError config wasExplicit = true ↔
    config.missingEnvvar = .report ∨ config.missingEnvvar = .automatic ∧ wasExplicit = true := by
  unfold envVarError
  cases config.missingEnvvar <;> cases wasExplicit <;> decide

private theorem Visit.errors_length (v : Visit) : (v.errors config).length ≤ 1 := by
  rw [Visit.errors]
  cases v.inspected with
  | error e =>
    dsimp only
    split <;> simp
  | ok inspection =>
    dsimp only
    split
    · split <;> simp
    · split <;> simp

/-- The errors of a visit are those that the policy counts. -/
theorem Visit.Faithful.counted {v : Visit} (h : v.Faithful config) :
    Counted config v (v.errors config) where
  atMostOne := v.errors_length
  notPublished publication e hp := by
    obtain ⟨inspection, hinspected, hpresent, -⟩ := h.of_published hp
    simp [Visit.errors, hinspected, hpresent, hp]
  published publication hp := by
    obtain ⟨inspection, hinspected, hpresent, -⟩ := h.of_published hp
    simp [Visit.errors, hinspected, hpresent, hp]
  dryRun inspection hinspected hpresent hdry := by
    cases hp : v.published with
    | none => simp [Visit.errors, hinspected, hpresent, hp]
    | some p =>
      obtain ⟨-, -, -, hnot⟩ := h.of_published hp
      rw [hdry] at hnot
      cases hnot
  envVarReported inspection hinspected habsent hcounts := by
    simp [Visit.errors, hinspected, habsent, (envVarError_iff _).mpr hcounts]
  envVarIgnored inspection hinspected habsent hnot := by
    rw [← envVarError_iff] at hnot
    simp [Visit.errors, hinspected, habsent, hnot]
  notInspected e hinspected := by
    rw [Visit.errors, hinspected]
    dsimp only
    split <;> simp
  inspectionReported e hinspected hreport := by
    simp [Visit.errors, hinspected, considerError, hreport]
  inspectionIgnored e hinspected hignore hfound := by
    simp [Visit.errors, hinspected, considerError, hignore, hfound]

private theorem workErrors_reported (explicit : List Text) (ctx : Context ω) :
    Reported config explicit ((askStep config env ctx).1.events ++
        (visits config env explicit ctx).flatMap Visit.events)
      (askStep config env ctx).1 (visits config env explicit ctx)
      (workErrors config env explicit ctx) where
  asks := askStep_isSome ctx
  events := rfl
  names := visits_merged explicit ctx
  faithful := visits_faithful explicit ctx
  errors := by
    refine ⟨(visits config env explicit ctx).map (Visit.errors config), ?_, ?_⟩
    · rw [List.forall₂_map_right_iff, List.forall₂_same]
      intro v hv
      have hfaithful : v.Faithful config := visits_faithful explicit ctx v hv
      exact hfaithful.counted
    · rw [workErrors, List.flatMap_def]

/-- In one-shot mode the loop of `run` ends with the verdict on its one iteration, unless a
date is out of range. -/
theorem iterate_reported (honce : config.refreshSeconds = none) (explicit : List Text)
    (n passes : ℕ) {ctx : Context ω} (hctx : containerEvents ctx.trace = []) :
    Triple (iterate config env explicit (n + 1) passes) ctx
      (fun result ctx' => ∃ asked visits errors, result = verdict errors ∧
        Reported config explicit (containerEvents ctx'.trace) asked visits errors)
      fun e ctx' => e = .panic ∧ OutOfRange config ctx' := by
  refine (iterate_oneShot honce explicit n passes ctx).mono (fun result ctx' h => ?_)
    fun _ _ h => h
  obtain ⟨ctx₀, hquiet, rfl, hquiet'⟩ := h
  have hmark : containerEvents (ctx.record .iteration ctx.world).trace = [] := by
    have hlast : containerEvents [(⟨.iteration, ctx.world, ctx.world⟩ : Entry ω)] = [] := rfl
    have happend := containerEvents_append ctx.trace [⟨.iteration, ctx.world, ctx.world⟩]
    rw [hctx, hlast] at happend
    exact happend
  obtain ⟨new, hnew, -, hcalls⟩ := worked_new config env explicit ctx₀
  have hevents : containerEvents ctx'.trace = (askStep config env ctx₀).1.events ++
      (visits config env explicit ctx₀).flatMap Visit.events := by
    rw [hquiet'.containerEvents, hnew, containerEvents_append, hquiet.containerEvents, hmark,
      hcalls, List.nil_append]
  refine ⟨(askStep config env ctx₀).1, visits config env explicit ctx₀, _, rfl, ?_⟩
  rw [hevents]
  exact workErrors_reported explicit ctx₀

/-- Once the initial notification is sent a run is its loop. -/
theorem run_ready {w : ω} (hready : ∀ err, ¬ReadyFails config env w err) (explicit : List Text)
    (n passes : ℕ) : ∃ ctx, containerEvents ctx.trace = [] ∧
      run config env explicit n passes (start w) = iterate config env explicit n passes ctx := by
  obtain ⟨err, -, hfails, -⟩ | ⟨-, ctx, hquiet, hrun⟩ :=
    run_cases config (quiet_waits env).toAlongPings explicit n passes (start w)
  · exact absurd hfails (hready err)
  · exact ⟨ctx, hquiet.containerEvents, hrun⟩

/-- A run fails with the error of the initial notification if that fails, and handles no
container. Otherwise a refreshing run returns no error, and a one-shot run, unless a date is
out of range, returns what the policy counts: `Ok(())` if that is nothing. -/
theorem run_errors {ω : Type} (config : Config) (env : Environment ω) (explicit : List Text)
    (n passes : ℕ) (w : ω) :
    (∀ err, ReadyFails config env w err →
      ∃ ctx, run config env explicit n passes (start w) = .ok (.error [.systemd err]) ctx ∧
        containerEvents ctx.trace = []) ∧
    ((∀ err, ¬ReadyFails config env w err) → config.refreshSeconds.isSome = true →
      ∀ result ctx, run config env explicit n passes (start w) = .ok result ctx →
        result = .ok ()) ∧
    ((∀ err, ¬ReadyFails config env w err) → config.refreshSeconds = none →
      Triple (run config env explicit (n + 1) passes) (start w)
        (fun result ctx => ∃ asked visits errors,
          result = (if errors = [] then .ok () else .error errors) ∧
            Reported config explicit (containerEvents ctx.trace) asked visits errors)
        fun e ctx => e = .panic ∧ OutOfRange config ctx) := by
  refine ⟨fun err hfails => ?_, fun hready hrefresh result ctx hresult => ?_,
    fun hready honce => ?_⟩
  · obtain ⟨err', ctx, hfails', hquiet, -, hrun⟩ | ⟨hnot, -⟩ :=
      run_cases config (quiet_waits env).toAlongPings explicit n passes (start w)
    · obtain rfl : err = err' := Except.error.inj (hfails.2.symm.trans hfails'.2)
      exact ⟨ctx, hrun, hquiet.containerEvents⟩
    · exact absurd hfails (hnot err)
  · obtain ⟨r, hr⟩ := Option.isSome_iff_exists.mp hrefresh
    obtain ⟨ctx₀, -, hrun⟩ := run_ready hready explicit n passes
    rw [hrun] at hresult
    exact (iterate_ok hr explicit n passes ctx₀).of_ok hresult
  · obtain ⟨ctx₀, hctx₀, hrun⟩ := run_ready hready explicit (n + 1) passes
    rw [Triple, hrun]
    refine (iterate_reported honce explicit n passes hctx₀).mono (fun result ctx h => ?_)
      fun _ _ h => h
    obtain ⟨asked, visits, errors, rfl, hreported⟩ := h
    refine ⟨asked, visits, errors, ?_, hreported⟩
    rw [verdict]
    cases errors <;> simp

/-- A service manager that cannot be reached. -/
def unreachable : Environment Unit :=
  { fixedEnvironment dbMissing with notify := fun w _ => (.error ⟨"no socket".toList⟩, w) }

/-- The initial notification fails; the missing `db` is forgotten in refresh mode and reported
in one-shot mode. -/
theorem run_errors_db :
    (∃ ctx, run { oneShot with systemd := true } unreachable ["db".toList] 1 0 (start ()) =
        .ok (.error [.systemd ⟨"no socket".toList⟩]) ctx ∧ containerEvents ctx.trace = []) ∧
    (∃ ctx, run Config.default (fixedEnvironment dbMissing) ["db".toList] 1 1 (start ()) =
        .ok (.ok ()) ctx) ∧
    ∃ asked visits errors,
      Except.error [.inspection (.shiplift ⟨"no such container".toList⟩)] =
        (if errors = [] then Except.ok () else .error errors) ∧
      Reported oneShot ["db".toList] [.inspect "db".toList (dbMissing "db".toList)] asked visits
        errors := by
  refine ⟨?_, ?_, ?_⟩
  · apply (run_errors { oneShot with systemd := true } unreachable ["db".toList] 1 0 ()).1
    exact ⟨rfl, rfl⟩
  · obtain ⟨result, ctx, hrun⟩ : ∃ result ctx, run Config.default (fixedEnvironment dbMissing)
        ["db".toList] 1 1 (start ()) = .ok result ctx := ⟨_, _, rfl⟩
    obtain rfl : result = .ok () :=
      (run_errors Config.default (fixedEnvironment dbMissing) ["db".toList] 1 1 ()).2.1
        (fun err h => Bool.false_ne_true h.1) rfl result ctx hrun
    exact ⟨ctx, hrun⟩
  · have hrun := (run_errors oneShot (fixedEnvironment dbMissing) ["db".toList] 0 0 ()).2.2
      (fun err h => Bool.false_ne_true h.1) rfl
    exact hrun.of_ok rfl

end Beachhead.Companion
