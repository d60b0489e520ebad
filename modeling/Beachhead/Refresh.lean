import Beachhead.Companion

/-!
# The work of one iteration

The work of an iteration asks the inspector for names, merges them with the names
listed explicitly and then visits every name once. A visit inspects the container
and publishes what it found. Neither can stop the program.
-/
namespace Beachhead.Companion
open Program

variable {ω : Type} {config : Config} {env : Environment ω}

/-- The publication that follows an inspection, if one does. -/
def publication? (config : Config) : Except InspectionError Inspection → Option Publication
  | .error _ => none
  | .ok inspection =>
    if inspection.envvarPresent && !config.dryRun then some ⟨inspection.host, inspection.specs⟩
    else none

/-- What happened to one container. -/
structure Visit where
  name : Pending Text
  inspected : Except InspectionError Inspection
  published : Option (Publication × Except PublishingError Unit)

namespace Visit

def events (v : Visit) : List Event :=
  .inspect v.name.todo v.inspected :: v.published.toList.map fun p => .publish p.1 p.2

/-- The errors that count. -/
def errors (config : Config) (v : Visit) : List CompanionError :=
  match v.inspected with
  | .error e => if considerError config v.name.explicit then [.inspection e] else []
  | .ok inspection =>
    if inspection.envvarPresent then
      match v.published with
      | some (_, .error e) => [.publishing e]
      | _ => []
    else if envVarError config v.name.explicit then [.envVarMissing v.name.todo config.envvar]
    else []

/-- A visit publishes exactly what its inspection asks for. -/
def Faithful (config : Config) (v : Visit) : Prop :=
  v.published.map Prod.fst = publication? config v.inspected

end Visit

def inspectStep (env : Environment ω) (ctx : Context ω) (name : Text) :
    Except InspectionError Inspection × Context ω :=
  let r := env.inspector.inspect ctx.world name
  (r.1, ctx.record (.inspect name r.1) r.2)

def publishStep (env : Environment ω) (ctx : Context ω) (publication : Publication) :
    Except PublishingError Unit × Context ω :=
  let r := env.publisher.publish ctx.world publication
  (r.1, ctx.record (.publish publication r.1) r.2)

/-- The visit of one container as a function of the context. -/
def visit (config : Config) (env : Environment ω) (ctx : Context ω) (name : Pending Text) :
    Visit × Context ω :=
  let r := inspectStep env ctx name.todo
  match publication? config r.1 with
  | none => (⟨name, r.1, none⟩, r.2)
  | some publication =>
    let p := publishStep env r.2 publication
    (⟨name, r.1, some (publication, p.1)⟩, p.2)

def visitAll (config : Config) (env : Environment ω) (ctx : Context ω) :
    List (Pending Text) → List Visit × Context ω
  | [] => ([], ctx)
  | name :: names =>
    let v := visit config env ctx name
    let vs := visitAll config env v.2 names
    (v.1 :: vs.1, vs.2)

theorem call_eq {α : Type} (op : ω → α × ω) (event : α → Event) (ctx : Context ω) :
    call op event ctx =
      .ok (op ctx.world).1 (ctx.record (event (op ctx.world).1) (op ctx.world).2) := rfl

theorem inspect_eq (name : Pending Text) (ctx : Context ω) : inspect env name ctx =
    .ok (((inspectStep env ctx name.todo).1.map (Pending.mk name.explicit)).mapError .inspection)
      (inspectStep env ctx name.todo).2 := rfl

theorem publish_eq (publication : Publication) (ctx : Context ω) :
    publish env publication ctx =
      .ok ((publishStep env ctx publication).1.mapError .publishing)
        (publishStep env ctx publication).2 := rfl

theorem visit_none {ctx : Context ω} {name : Pending Text}
    (h : publication? config (inspectStep env ctx name.todo).1 = none) :
    visit config env ctx name = (⟨name, (inspectStep env ctx name.todo).1, none⟩,
      (inspectStep env ctx name.todo).2) := by
  simp only [visit, h]

theorem visit_some {ctx : Context ω} {name : Pending Text} {publication : Publication}
    (h : publication? config (inspectStep env ctx name.todo).1 = some publication) :
    visit config env ctx name = (⟨name, (inspectStep env ctx name.todo).1,
        some (publication, (publishStep env (inspectStep env ctx name.todo).2 publication).1)⟩,
      (publishStep env (inspectStep env ctx name.todo).2 publication).2) := by
  simp only [visit, h]

/-- Refreshing a container never stops the program and does what the visit does. -/
theorem refreshContainer_eq (errors : List CompanionError) (name : Pending Text)
    (ctx : Context ω) : refreshContainer config env errors name ctx =
      .ok (errors ++ (visit config env ctx name).1.errors config)
        (visit config env ctx name).2 := by
  rw [refreshContainer, bind_ok (inspect_eq name ctx)]
  cases hr : (inspectStep env ctx name.todo).1 with
  | error e =>
    rw [visit_none (by rw [hr]; rfl)]
    by_cases hc : considerError config name.explicit
    · simp [Visit.errors, hr, Except.map, Except.mapError, hc, pure, EStateM.pure]
    · simp [Visit.errors, hr, Except.map, Except.mapError, hc, pure, EStateM.pure]
  | ok inspection =>
    by_cases hpresent : inspection.envvarPresent
    · by_cases hdry : config.dryRun
      · rw [visit_none (by simp [hr, publication?, hdry])]
        simp [Visit.errors, hr, Except.map, Except.mapError, hpresent, hdry, pure, EStateM.pure]
      · have hp : publication? config (inspectStep env ctx name.todo).1 =
            some ⟨inspection.host, inspection.specs⟩ := by simp [hr, publication?, hpresent, hdry]
        rw [visit_some hp]
        simp only [Except.map, Except.mapError, hpresent, Bool.not_true, Bool.false_eq_true,
          if_false, hdry, bind_ok (publish_eq _ _), toPublication, Visit.errors, hr, if_true]
        cases (publishStep env (inspectStep env ctx name.todo).2
          ⟨inspection.host, inspection.specs⟩).1 with
        | error e => rfl
        | ok u => simp [pure, EStateM.pure]
    · rw [visit_none (by simp [hr, publication?, hpresent])]
      by_cases hc : envVarError config name.explicit
      · simp [Visit.errors, hr, Except.map, Except.mapError, hpresent, hc, pure, EStateM.pure]
      · simp [Visit.errors, hr, Except.map, Except.mapError, hpresent, hc, pure, EStateM.pure]

private theorem foldlM_refreshContainer (names : List (Pending Text)) (errors : List CompanionError)
    (ctx : Context ω) : names.foldlM (refreshContainer config env) errors ctx =
      .ok (errors ++ (visitAll config env ctx names).1.flatMap (Visit.errors config))
        (visitAll config env ctx names).2 := by
  induction names generalizing errors ctx with
  | nil => simp [visitAll, pure, EStateM.pure]
  | cons name names ih =>
    rw [List.foldlM_cons, bind_ok (refreshContainer_eq errors name ctx), ih, visitAll,
      List.flatMap_cons, List.append_assoc]

theorem visit_name (ctx : Context ω) (name : Pending Text) :
    (visit config env ctx name).1.name = name := by
  cases h : publication? config (inspectStep env ctx name.todo).1 with
  | none => rw [visit_none h]
  | some publication => rw [visit_some h]

private theorem visit_faithful (ctx : Context ω) (name : Pending Text) :
    (visit config env ctx name).1.Faithful config := by
  cases h : publication? config (inspectStep env ctx name.todo).1 with
  | none => rw [visit_none h, Visit.Faithful, h, Option.map_none]
  | some publication => rw [visit_some h, Visit.Faithful, h, Option.map_some]

private theorem visit_events (ctx : Context ω) (name : Pending Text) :
    (visit config env ctx name).2.trace.map Entry.event =
      ctx.trace.map Entry.event ++ (visit config env ctx name).1.events := by
  cases h : publication? config (inspectStep env ctx name.todo).1 with
  | none => simp [visit_none h, inspectStep, Context.record, Context.note, Visit.events]
  | some publication =>
    simp [visit_some h, inspectStep, publishStep, Context.record, Context.note, Visit.events]

private theorem visitAll_names (ctx : Context ω) (names : List (Pending Text)) :
    (visitAll config env ctx names).1.map Visit.name = names := by
  induction names generalizing ctx with
  | nil => rfl
  | cons name names ih => rw [visitAll, List.map_cons, visit_name, ih]

private theorem visitAll_faithful (ctx : Context ω) (names : List (Pending Text)) :
    ∀ v ∈ (visitAll config env ctx names).1, v.Faithful config := by
  induction names generalizing ctx with
  | nil => simp [visitAll]
  | cons name names ih =>
    rw [visitAll, List.forall_mem_cons]
    exact ⟨visit_faithful ctx name, ih _⟩

private theorem visitAll_events (ctx : Context ω) (names : List (Pending Text)) :
    (visitAll config env ctx names).2.trace.map Entry.event = ctx.trace.map Entry.event ++
      (visitAll config env ctx names).1.flatMap Visit.events := by
  induction names generalizing ctx with
  | nil => simp [visitAll]
  | cons name names ih =>
    rw [visitAll, ih, visit_events, List.flatMap_cons, List.append_assoc]

/-- What the inspector answered when it was asked for names. -/
abbrev Asked := Option (List Text × Except InspectionError Unit)

namespace Asked

def events (asked : Asked) : List Event := asked.toList.map fun a => .enumerate a.1 a.2

/-- The names that count. Those pushed before an error do not. -/
def names : Asked → List Text
  | some (names, .ok ()) => names
  | _ => []

def result : Asked → Except InspectionError Unit
  | some (_, result) => result
  | none => .ok ()

def errors (asked : Asked) : List CompanionError :=
  match asked.result with
  | .error e => [.inspection e]
  | .ok () => []

end Asked

/-- The index maps every name to itself, marked explicit if it is listed. -/
def Indexes (index : AList fun _ : Text => Pending Text) (explicit found : List Text) : Prop :=
  ∀ name, index.lookup name =
    if name ∈ explicit then some ⟨true, name⟩
    else if name ∈ found then some ⟨false, name⟩ else none

private theorem insertExplicit_indexes {index : AList fun _ : Text => Pending Text}
    {done : List Text}
    (h : Indexes index done []) (a : Text) : Indexes (insertExplicit index a) (done ++ [a]) [] := by
  intro name
  by_cases hname : name = a
  · subst hname
    simp [insertExplicit]
  · rw [insertExplicit, AList.lookup_insert_ne hname, h name]
    simp [hname]

private theorem foldl_insertExplicit {index : AList fun _ : Text => Pending Text} {done : List Text}
    (h : Indexes index done []) (explicit : List Text) :
    Indexes (explicit.foldl insertExplicit index) (done ++ explicit) [] := by
  induction explicit generalizing index done with
  | nil => simpa using h
  | cons a explicit ih => simpa using ih (insertExplicit_indexes h a)

private theorem orInsertEnumerated_indexes {index : AList fun _ : Text => Pending Text}
    {explicit done : List Text} (h : Indexes index explicit done) (a : Text) :
    Indexes (orInsertEnumerated index a) explicit (done ++ [a]) := by
  have hmem : a ∈ index ↔ a ∈ explicit ∨ a ∈ done := by
    rw [← AList.lookup_isSome, h a]
    by_cases hexplicit : a ∈ explicit
    · simp [hexplicit]
    · simp [hexplicit]
  intro name
  by_cases hname : name = a
  · subst hname
    by_cases hindex : name ∈ index
    · rw [orInsertEnumerated, if_pos hindex, h name]
      obtain hexplicit | hdone := hmem.mp hindex
      · simp [hexplicit]
      · simp [hdone]
    · rw [orInsertEnumerated, if_neg hindex, AList.lookup_insert]
      simp [not_or.mp (mt hmem.mpr hindex)]
  · have hlookup : (orInsertEnumerated index a).lookup name = index.lookup name := by
      rw [orInsertEnumerated]
      split
      · rfl
      · exact AList.lookup_insert_ne hname
    rw [hlookup, h name]
    simp [hname]

private theorem foldl_orInsertEnumerated {index : AList fun _ : Text => Pending Text}
    {explicit done : List Text} (h : Indexes index explicit done) (found : List Text) :
    Indexes (found.foldl orInsertEnumerated index) explicit (done ++ found) := by
  induction found generalizing index done with
  | nil => simpa using h
  | cons a found ih => simpa using ih (orInsertEnumerated_indexes h a)

/-- The names of an iteration: no name twice, and marked explicit if listed. -/
structure Merged (names : List (Pending Text)) (explicit found : List Text) : Prop where
  nodup : (names.map Pending.todo).Nodup
  mem : ∀ name, name ∈ names.map Pending.todo ↔ name ∈ explicit ∨ name ∈ found
  mark : ∀ p ∈ names, p.explicit = true ↔ p.todo ∈ explicit

private theorem Indexes.entry {index : AList fun _ : Text => Pending Text}
    {explicit found : List Text}
    (h : Indexes index explicit found) {e : Sigma fun _ : Text => Pending Text}
    (he : e ∈ index.entries) : e.2.todo = e.1 ∧ (e.2.explicit = true ↔ e.1 ∈ explicit) := by
  have hlookup : index.lookup e.1 = some e.2 := AList.mem_lookup_iff.mpr he
  rw [h e.1] at hlookup
  split at hlookup
  · simp [← Option.some.inj hlookup, *]
  · split at hlookup
    · simp [← Option.some.inj hlookup, *]
    · cases hlookup

/-- Draining the index in any order gives each name once. -/
theorem Indexes.merged {index : AList fun _ : Text => Pending Text} {explicit found : List Text}
    (h : Indexes index explicit found) {entries : List (Sigma fun _ : Text => Pending Text)}
    (hperm : entries.Perm index.entries) : Merged (entries.map Sigma.snd) explicit found := by
  have hkeys : (entries.map Sigma.snd).map Pending.todo = entries.map Sigma.fst := by
    rw [List.map_map, List.map_inj_left]
    exact fun e he => (h.entry (hperm.mem_iff.mp he)).1
  have hperm_keys : (entries.map Sigma.fst).Perm index.keys := hperm.map Sigma.fst
  constructor
  · rw [hkeys, hperm_keys.nodup_iff]
    exact index.keys_nodup
  · intro name
    rw [hkeys, hperm_keys.mem_iff, ← AList.mem_keys, ← AList.lookup_isSome, h name]
    by_cases hexplicit : name ∈ explicit
    · simp [hexplicit]
    · simp [hexplicit]
  · intro p hp
    obtain ⟨e, he, rfl⟩ := List.mem_map.mp hp
    obtain ⟨htodo, hmark⟩ := h.entry (hperm.mem_iff.mp he)
    rw [hmark, htodo]

/-- The context after the inspector was asked for names, if it was. -/
def askStep (config : Config) (env : Environment ω) (ctx : Context ω) : Asked × Context ω :=
  if config.enumerate then
    let r := env.inspector.enumerate ctx.world []
    (some (r.1.2, r.1.1), ctx.record (.enumerate r.1.2 r.1.1) r.2)
  else (none, ctx)

private theorem addEnumerated_eq (index : AList fun _ : Text => Pending Text) (ctx : Context ω) :
    addEnumerated config env index ctx =
      .ok ((askStep config env ctx).1.names.foldl orInsertEnumerated index,
        (askStep config env ctx).1.result) (askStep config env ctx).2 := by
  rw [addEnumerated, askStep]
  by_cases hconfig : config.enumerate
  · rw [if_pos hconfig, if_pos hconfig]
    rw [bind_ok (call_eq (env.inspector.enumerate · []) (fun r => .enumerate r.2 r.1) ctx)]
    generalize env.inspector.enumerate ctx.world [] = r
    obtain ⟨⟨result, found⟩, w⟩ := r
    cases result <;> rfl
  · rw [if_neg hconfig, if_neg hconfig]
    rfl

/-- The names of an iteration in the order in which they are handled. -/
def processed (config : Config) (env : Environment ω) (explicit : List Text) (ctx : Context ω) :
    List (Pending Text) :=
  (env.drain (askStep config env ctx).2.world ((askStep config env ctx).1.names.foldl
    orInsertEnumerated (explicit.foldl insertExplicit ∅)).entries).map Sigma.snd

theorem processed_merged (explicit : List Text) (ctx : Context ω) :
    Merged (processed config env explicit ctx) explicit (askStep config env ctx).1.names := by
  have hempty : Indexes ∅ [] [] := fun name => by simp
  have hexplicit : Indexes (explicit.foldl insertExplicit ∅) explicit [] :=
    foldl_insertExplicit hempty explicit
  have hfound := foldl_orInsertEnumerated hexplicit (askStep config env ctx).1.names
  exact hfound.merged (env.drain_perm _ _)

theorem enumerate_eq (explicit : List Text) (ctx : Context ω) :
    enumerate config env explicit ctx =
      .ok (processed config env explicit ctx,
        (askStep config env ctx).1.result.mapError .inspection) (askStep config env ctx).2 := by
  rw [enumerate, bind_ok (addEnumerated_eq _ ctx)]
  rfl

/-- The names that count were pushed by an inspector that was asked and succeeded. -/
theorem mem_asked (ctx : Context ω) (name : Text) : name ∈ (askStep config env ctx).1.names ↔
    config.enumerate = true ∧ (env.inspector.enumerate ctx.world []).1.1 = .ok () ∧
      name ∈ (env.inspector.enumerate ctx.world []).1.2 := by
  rw [askStep]
  by_cases hconfig : config.enumerate
  · rw [if_pos hconfig]
    generalize env.inspector.enumerate ctx.world [] = r
    obtain ⟨⟨result, found⟩, w⟩ := r
    cases result <;> simp [Asked.names, hconfig]
  · rw [if_neg hconfig]
    simp [Asked.names, hconfig]

theorem asked_error_iff (ctx : Context ω) : (∃ e, (askStep config env ctx).1.result = .error e) ↔
    config.enumerate = true ∧ ∃ e, (env.inspector.enumerate ctx.world []).1.1 = .error e := by
  rw [askStep]
  by_cases hconfig : config.enumerate
  · rw [if_pos hconfig]
    simp [Asked.result, hconfig]
  · rw [if_neg hconfig]
    simp [Asked.result, hconfig]

/-- The pending list is the union of the names listed explicitly and the names that were
found, each once and marked explicit if it is listed. After a failed enumeration the names
that were pushed before the error do not count. -/
theorem enumerate_union {ω : Type} (config : Config) (env : Environment ω)
    (explicit : List Text) (ctx : Context ω) :
    ∃ names result ctx', enumerate config env explicit ctx = .ok (names, result) ctx' ∧
      (names.map Pending.todo).Nodup ∧
      (∀ name, name ∈ names.map Pending.todo ↔ name ∈ explicit ∨
        (config.enumerate = true ∧ (env.inspector.enumerate ctx.world []).1.1 = .ok () ∧
          name ∈ (env.inspector.enumerate ctx.world []).1.2)) ∧
      (∀ p ∈ names, p.explicit = true ↔ p.todo ∈ explicit) ∧
      ((∃ e, result = .error e) ↔
        config.enumerate = true ∧ ∃ e, (env.inspector.enumerate ctx.world []).1.1 = .error e) := by
  have hmerged : Merged (processed config env explicit ctx) explicit
      (askStep config env ctx).1.names := processed_merged explicit ctx
  refine ⟨_, _, _, enumerate_eq explicit ctx, hmerged.nodup, fun name => ?_, hmerged.mark, ?_⟩
  · rw [hmerged.mem, mem_asked]
  · rw [← asked_error_iff]
    cases (askStep config env ctx).1.result <;> simp [Except.mapError]

def visits (config : Config) (env : Environment ω) (explicit : List Text) (ctx : Context ω) :
    List Visit :=
  (visitAll config env (askStep config env ctx).2 (processed config env explicit ctx)).1

def refreshed (config : Config) (env : Environment ω) (explicit : List Text) (ctx : Context ω) :
    Context ω :=
  (visitAll config env (askStep config env ctx).2 (processed config env explicit ctx)).2

/-- The errors of the work of an iteration. -/
def workErrors (config : Config) (env : Environment ω) (explicit : List Text) (ctx : Context ω) :
    List CompanionError :=
  (askStep config env ctx).1.errors ++
    (visits config env explicit ctx).flatMap (Visit.errors config)

/-- The work of an iteration never stops the program. -/
theorem refresh_eq (explicit : List Text) (ctx : Context ω) :
    refresh config env explicit ctx =
      .ok (workErrors config env explicit ctx) (refreshed config env explicit ctx) := by
  rw [refresh, bind_ok (enumerate_eq explicit ctx), foldlM_refreshContainer, workErrors, visits,
    refreshed, Asked.errors]
  cases (askStep config env ctx).1.result <;> rfl

theorem finalState_refresh (explicit : List Text) (ctx : Context ω) :
    finalState (refresh config env explicit) ctx = refreshed config env explicit ctx := by
  simp only [finalState, refresh_eq]

/-- The visits of an iteration are one for each name, marked explicit if it is listed. -/
theorem visits_merged (explicit : List Text) (ctx : Context ω) :
    Merged ((visits config env explicit ctx).map Visit.name) explicit
      (askStep config env ctx).1.names := by
  rw [visits, visitAll_names]
  exact processed_merged explicit ctx

theorem visits_faithful (explicit : List Text) (ctx : Context ω) :
    ∀ v ∈ visits config env explicit ctx, v.Faithful config := visitAll_faithful _ _

theorem refreshed_events (explicit : List Text) (ctx : Context ω) :
    (refreshed config env explicit ctx).trace.map Entry.event = ctx.trace.map Entry.event ++
      ((askStep config env ctx).1.events ++
        (visits config env explicit ctx).flatMap Visit.events) := by
  rw [refreshed, visitAll_events, visits, ← List.append_assoc]
  congr 1
  rw [askStep]
  split
  · simp [Context.record, Context.note, Asked.events]
  · simp [Asked.events]

private theorem span_ok {α : Type} {x : CompanionM ω α} {ctx ctx' : Context ω} {a : α}
    {event : Event} (h : x ctx = .ok a ctx') :
    span event x ctx = .ok a (ctx'.note ⟨event, ctx.world, ctx'.world⟩) := by
  have hget : (get : CompanionM ω (Context ω)) ctx = .ok ctx ctx := rfl
  rw [span, bind_ok hget]
  exact bind_ok h

/-- The context after the work, with the entry for the whole of it. -/
def worked (config : Config) (env : Environment ω) (explicit : List Text) (ctx : Context ω) :
    Context ω :=
  (refreshed config env explicit ctx).note
    ⟨.work, ctx.world, (refreshed config env explicit ctx).world⟩

theorem work_eq (explicit : List Text) (ctx : Context ω) :
    span .work (refresh config env explicit) ctx =
      .ok (workErrors config env explicit ctx) (worked config env explicit ctx) :=
  span_ok (refresh_eq explicit ctx)

end Beachhead.Companion
