import Beachhead.SameAnswers
import Beachhead.Verdict

/-!
# What a dry run tells

A dry run leaves out the publications. As long as these have no influence on the answers of
the other calls, it makes all the other calls of the real run in the same order and reports
the errors that are not about publishing.
-/
namespace Beachhead.Companion
open Program

variable {ω τ : Type} {S : ω → τ → Prop} {seen : Event → Bool}
  {env : Environment ω} {env' : Environment τ} {config : Config}

/-- The calls and the errors of a dry run. -/
def seenDry (e : Event) : Bool := !e.isPublish

def countsDry (e : CompanionError) : Bool := !e.isPublishing

/-- A publication that only the first of two related runs makes. -/
theorem publishStep_hidden (hpublish : ∀ w v p, S w v → S (env.publisher.publish w p).2 v)
    {ctx : Context ω} {ctx' : Context τ} (hctx : Mirrors S seenDry ctx ctx') (p : Publication) :
    Mirrors S seenDry (publishStep env ctx p).2 ctx' where
  world := hpublish _ _ p hctx.world
  nextWatchdog := hctx.nextWatchdog
  events := by
    rw [publishStep, Context.events_record, List.filter_append, hctx.events]
    exact List.append_nil _

private theorem publication?_dry (r : Except InspectionError Inspection) :
    publication? { config with dryRun := true } r = none := by
  cases r with
  | error e => rfl
  | ok inspection => simp [publication?]

/-- The errors of a visit that count are those of the visit without its publication. -/
theorem errors_dry (name : Pending Text) (r : Except InspectionError Inspection)
    (published : Option (Publication × Except PublishingError Unit)) :
    (Visit.errors config ⟨name, r, published⟩).filter countsDry =
      Visit.errors { config with dryRun := true } ⟨name, r, none⟩ := by
  cases r with
  | error e =>
    have hconsider : considerError { config with dryRun := true } name.explicit =
        considerError config name.explicit := rfl
    by_cases hc : considerError config name.explicit = true
    · simp [Visit.errors, hconsider, hc, countsDry, CompanionError.isPublishing]
    · simp [Visit.errors, hconsider, hc]
  | ok inspection =>
    have henvvar : envVarError { config with dryRun := true } name.explicit =
        envVarError config name.explicit := rfl
    by_cases hpresent : inspection.envvarPresent = true
    · obtain _ | ⟨p, _ | u⟩ := published
      · simp [Visit.errors, hpresent]
      · simp [Visit.errors, hpresent, countsDry, CompanionError.isPublishing]
      · simp [Visit.errors, hpresent]
    · by_cases hc : envVarError config name.explicit = true
      · simp [Visit.errors, hpresent, henvvar, hc, countsDry, CompanionError.isPublishing]
      · simp [Visit.errors, hpresent, henvvar, hc]

private theorem seesRest_dry : SeesRest seenDry := fun e he => by rw [seenDry, he, Bool.not_false]

private theorem visits_dry (h : SameAnswers S env env')
    (hpublish : ∀ w v p, S w v → S (env.publisher.publish w p).2 v) :
    SimulatesVisits S seenDry countsDry config true env env' := by
  intro errors name ctx ctx' hctx
  obtain ⟨hanswer, hinspected⟩ := inspectStep_mirrors h seesRest_dry hctx name.todo
  have hdry : visit { config with dryRun := true } env' ctx' name = (⟨name,
      (inspectStep env ctx name.todo).1, none⟩, (inspectStep env' ctx' name.todo).2) := by
    rw [visit_none (publication?_dry _), ← hanswer]
  rw [refreshContainer_eq, refreshContainer_eq, hdry]
  cases hp : publication? config (inspectStep env ctx name.todo).1 with
  | none =>
    rw [visit_none hp]
    exact .ok (by rw [List.filter_append, errors_dry]) hinspected
  | some p =>
    rw [visit_some hp]
    exact .ok (by rw [List.filter_append, errors_dry]) (publishStep_hidden hpublish hinspected p)

/-- From related worlds a dry run makes the calls of the real run except for its publications, and
gives its result without the errors of publishing, or both stop for the same reason. -/
theorem dry_run {ω τ : Type} (S : ω → τ → Prop) (env : Environment ω) (env' : Environment τ)
    (h : SameAnswers S env env')
    (hpublish : ∀ w v p, S w v → S (env.publisher.publish w p).2 v) (config : Config)
    (explicit : List Text) (n passes : ℕ) (w : ω) (v : τ) (hw : S w v) :
    SameEnd (Mirrors S fun e => !e.isPublish)
      (fun result dry => counted (fun e => !e.isPublishing) result = dry)
      (run config env explicit n passes (start w))
      (run { config with dryRun := true } env' explicit n passes (start v)) :=
  (run_simulates h seesRest_dry (fun e he => by rw [countsDry, he, Bool.not_false])
    (visits_dry h hpublish) explicit n passes _ _ ⟨hw, rfl, rfl⟩).mono fun _ _ hr => hr.counted

/-- The world counts the publications, which are all refused. -/
def refusingEnvironment : Environment ℕ where
  inspector := ⟨fun w names => ((.ok (), names), w), fun w name => (dbMissing name, w)⟩
  publisher := ⟨fun w _ => (.error (.redis ⟨"connection refused".toList⟩), w + 1)⟩
  now w := (0, w)
  notify w _ := (.ok (), w)
  poll w := (none, w)
  select w _ _ := (.signal none, w)
  drain _ entries := entries
  drain_perm _ _ := .refl _
  debugEnabled := false

private theorem refusing_sameAnswers :
    SameAnswers (fun _ _ => True) refusingEnvironment refusingEnvironment where
  now _ _ _ := ⟨rfl, trivial⟩
  notify _ _ _ _ := ⟨rfl, trivial⟩
  poll _ _ _ := ⟨rfl, trivial⟩
  select _ _ _ _ _ _ _ _ _ := ⟨rfl, trivial⟩
  enumerate _ _ _ := ⟨rfl, trivial⟩
  inspect _ _ _ _ := ⟨rfl, trivial⟩
  drain _ _ _ _ := rfl
  debugEnabled := rfl

/-- The real run fails with the refused publication, the dry run does not. -/
theorem dry_run_refused :
    (∃ ctx, run oneShot refusingEnvironment ["web".toList] 1 0 (start 0) =
      .ok (.error [.publishing (.redis ⟨"connection refused".toList⟩)]) ctx) ∧
    SameEnd (Mirrors (fun _ _ => True) fun e => !e.isPublish)
      (fun result dry => counted (fun e => !e.isPublishing) result = dry)
      (run oneShot refusingEnvironment ["web".toList] 1 0 (start 0))
      (run { oneShot with dryRun := true } refusingEnvironment ["web".toList] 1 0 (start 0)) :=
  ⟨⟨_, rfl⟩, dry_run _ _ _ refusing_sameAnswers (fun _ _ _ _ => trivial) oneShot _ 1 0 0 0 trivial⟩

end Beachhead.Companion
