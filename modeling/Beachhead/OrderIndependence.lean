import Beachhead.Convergence
import Beachhead.RunErrors

/-!
# The order of the containers

The index of an iteration is a hash map, which gives its names in an arbitrary order. While
the inspector and the publisher give the same answers, the order only permutes the calls
of an iteration and the errors that a one-shot run reports.
-/
namespace Beachhead.Companion
open Program

variable {ω : Type} {config : Config} {env : Environment ω}
  {answer : Text → Except InspectionError Inspection}
  {found : List Text × Except InspectionError Unit}
  {published : Publication → Except PublishingError Unit} {explicit : List Text}

/-- The visit of a container in every iteration. -/
def dueVisit (config : Config) (answer : Text → Except InspectionError Inspection)
    (published : Publication → Except PublishingError Unit) (explicit : List Text)
    (name : Text) : Visit :=
  ⟨⟨explicit.contains name, name⟩, answer name,
    (publication? config (answer name)).map fun p => (p, published p)⟩

/-- The calls of an iteration that handles the names in this order. -/
def dueEvents (config : Config) (answer : Text → Except InspectionError Inspection)
    (found : List Text × Except InspectionError Unit)
    (published : Publication → Except PublishingError Unit)
    (explicit names : List Text) : List Event :=
  (enumerated config found).events ++
    (names.map (dueVisit config answer published explicit)).flatMap Visit.events

/-- The errors of an iteration that handles the names in this order. -/
def dueErrors (config : Config) (answer : Text → Except InspectionError Inspection)
    (found : List Text × Except InspectionError Unit)
    (published : Publication → Except PublishingError Unit)
    (explicit names : List Text) : List CompanionError :=
  (enumerated config found).errors ++
    (names.map (dueVisit config answer published explicit)).flatMap (Visit.errors config)

/-- The publisher always gives the same answers. -/
def Repeats (env : Environment ω) (published : Publication → Except PublishingError Unit) : Prop :=
  ∀ w p, (env.publisher.publish w p).1 = published p

private theorem visit_due (h : Settled env answer found) (hpublished : Repeats env published)
    (ctx : Context ω) {name : Pending Text} (hmark : name.explicit = true ↔ name.todo ∈ explicit) :
    (visit config env ctx name).1 = dueVisit config answer published explicit name.todo := by
  have hname : name = ⟨explicit.contains name.todo, name.todo⟩ := by
    have hexplicit : name.explicit = explicit.contains name.todo := by
      rw [Bool.eq_iff_iff, hmark, List.contains_iff_mem]
    rw [← hexplicit]
  have hanswer : (inspectStep env ctx name.todo).1 = answer name.todo := h.inspect _ _
  rw [dueVisit, ← hname]
  cases hp : publication? config (inspectStep env ctx name.todo).1 with
  | none =>
    rw [visit_none hp]
    rw [hanswer] at hp ⊢
    rw [hp, Option.map_none]
  | some publication =>
    have hresult : (publishStep env (inspectStep env ctx name.todo).2 publication).1 =
        published publication := hpublished _ _
    rw [visit_some hp, hresult]
    rw [hanswer] at hp ⊢
    rw [hp, Option.map_some]

private theorem visitAll_due (h : Settled env answer found) (hpublished : Repeats env published)
    (ctx : Context ω) (names : List (Pending Text))
    (hmark : ∀ p ∈ names, p.explicit = true ↔ p.todo ∈ explicit) :
    (visitAll config env ctx names).1 =
      (names.map Pending.todo).map (dueVisit config answer published explicit) := by
  induction names generalizing ctx with
  | nil => rfl
  | cons name names ih =>
    rw [List.forall_mem_cons] at hmark
    rw [visitAll, visit_due h hpublished ctx hmark.1, ih _ hmark.2, List.map_cons, List.map_cons]

/-- The visits of an iteration are those that are due, in the order of the index. -/
theorem visits_perm (h : Settled env answer found) (hpublished : Repeats env published)
    {names : List Text} (hnodup : names.Nodup)
    (hnames : ∀ name, name ∈ names ↔ name ∈ handled config explicit found) (ctx : Context ω) :
    (visits config env explicit ctx).Perm
      (names.map (dueVisit config answer published explicit)) := by
  have hmerged : Merged (processed config env explicit ctx) explicit
      (askStep config env ctx).1.names := processed_merged explicit ctx
  have hperm : ((processed config env explicit ctx).map Pending.todo).Perm names := by
    rw [List.perm_ext_iff_of_nodup hmerged.nodup hnodup]
    intro name
    rw [hmerged.mem, asked_settled h, hnames, handled, List.mem_append]
  rw [visits, visitAll_due h hpublished _ _ hmerged.mark]
  exact hperm.map _

private theorem work_perm (h : Settled env answer found) (hpublished : Repeats env published)
    {names : List Text} (hnodup : names.Nodup)
    (hnames : ∀ name, name ∈ names ↔ name ∈ handled config explicit found) (ctx : Context ω) :
    ((askStep config env ctx).1.events ++
        (visits config env explicit ctx).flatMap Visit.events).Perm
      (dueEvents config answer found published explicit names) := by
  have hvisits := visits_perm h hpublished hnodup hnames ctx
  rw [asked_settled h ctx, dueEvents]
  exact (hvisits.flatMap_right _).append_left _

private theorem workErrors_perm (h : Settled env answer found) (hpublished : Repeats env published)
    {names : List Text} (hnodup : names.Nodup)
    (hnames : ∀ name, name ∈ names ↔ name ∈ handled config explicit found) (ctx : Context ω) :
    (workErrors config env explicit ctx).Perm
      (dueErrors config answer found published explicit names) := by
  have hvisits := visits_perm h hpublished hnodup hnames ctx
  rw [workErrors, asked_settled h ctx, dueErrors]
  exact (hvisits.flatMap_right _).append_left _

/-- Whatever order the index gives the names in, an iteration makes the calls that handling the
containers in any other order makes, and a one-shot run reports the same errors. -/
theorem run_orderless {ω : Type} (config : Config) (env : Environment ω)
    (answer : Text → Except InspectionError Inspection)
    (found : List Text × Except InspectionError Unit)
    (h : Settled env answer found) (published : Publication → Except PublishingError Unit)
    (hpublished : Repeats env published) (explicit names : List Text) (hnodup : names.Nodup)
    (hnames : ∀ name, name ∈ names ↔ name ∈ handled config explicit found) (n passes : ℕ)
    (w : ω) :
    Triple (run config env explicit n passes) (start w)
      (fun _ ctx => ∀ segment ∈ iterations ctx.trace, (containerEvents segment).Perm
        (dueEvents config answer found published explicit names))
      (fun e ctx => (∀ segment ∈ iterations ctx.trace, (containerEvents segment).Perm
        (dueEvents config answer found published explicit names)) ∨
        e = .panic ∧ ∃ done last, iterations ctx.trace = done ++ [last] ∧
          (∀ segment ∈ done, (containerEvents segment).Perm
            (dueEvents config answer found published explicit names)) ∧
          containerEvents last = []) ∧
    ((∀ err, ¬ReadyFails config env w err) → config.refreshSeconds = none →
      Triple (run config env explicit (n + 1) passes) (start w)
        (fun result _ => ∃ errors, result = verdict errors ∧
          errors.Perm (dueErrors config answer found published explicit names))
        fun e ctx => e = .panic ∧ OutOfRange config ctx) := by
  constructor
  · exact run_each (P := fun events => events.Perm
      (dueEvents config answer found published explicit names))
      (work_perm h hpublished hnodup hnames) n passes w
  intro hready honce
  obtain ⟨ctx, -, hrun⟩ := run_ready hready explicit (n + 1) passes
  rw [Triple, hrun]
  apply (iterate_oneShot honce explicit n passes ctx).mono
  · rintro result ctx' ⟨ctx₀, -, rfl, -⟩
    exact ⟨_, rfl, workErrors_perm h hpublished hnodup hnames ctx₀⟩
  · exact fun _ _ h => h

/-- `web` runs, `db` is missing and the index gives the last name first. -/
def lastFirst : Environment Unit :=
  { fixedEnvironment dbMissing with
    drain := fun _ entries => entries.reverse
    drain_perm := fun _ entries => entries.reverse_perm }

/-- `db` is listed last and twice, so it is handled first and once. -/
theorem run_orderless_lastFirst : ∃ ctx, run { oneShot with missingContainer := .report } lastFirst
      ["web".toList, "db".toList, "db".toList] 1 0 (start ()) =
        .ok (.error [.inspection (.shiplift ⟨"no such container".toList⟩)]) ctx ∧
    (∀ segment ∈ iterations ctx.trace, (containerEvents segment).Perm
      [.inspect "web".toList (dbMissing "web".toList),
        .publish ⟨"10.0.0.2".toList, [⟨"example.org".toList, some 80, none⟩]⟩ (.ok ()),
        .inspect "db".toList (dbMissing "db".toList)]) ∧
    ∃ errors, Except.error [.inspection (.shiplift ⟨"no such container".toList⟩)] =
        verdict errors ∧
      errors.Perm [.inspection (.shiplift ⟨"no such container".toList⟩)] := by
  obtain ⟨hcalls, hverdict⟩ := run_orderless { oneShot with missingContainer := .report } lastFirst
    dbMissing ([], .ok ()) ⟨fun _ => rfl, fun _ _ => rfl⟩ (fun _ => .ok ()) (fun _ _ => rfl)
    ["web".toList, "db".toList, "db".toList] ["web".toList, "db".toList] (by decide)
    (by simp [handled, enumerated, Asked.names, oneShot, Config.default]) 1 0 ()
  obtain ⟨ctx, hrun⟩ : ∃ ctx, run { oneShot with missingContainer := .report } lastFirst
      ["web".toList, "db".toList, "db".toList] 1 0 (start ()) =
        .ok (.error [.inspection (.shiplift ⟨"no such container".toList⟩)]) ctx := ⟨_, rfl⟩
  exact ⟨ctx, hrun, hcalls.of_ok hrun,
    (hverdict (fun err h => Bool.false_ne_true h.1) rfl).of_ok rfl⟩

end Beachhead.Companion
