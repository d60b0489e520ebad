import Beachhead.Inspector
import Beachhead.ParserOutcome
import Mathlib.Data.List.TakeWhile

/-!
# The environment of a container

The loop over the lines skips every line that does not have the configured name and
parses the others one after the other, which is parsing their values joined by spaces.
-/
namespace Beachhead.DockerInspector
open DomainSpec

/-- The text after the first `=`, if the text before it is the name. -/
def lineValue (name line : Text) : Option Text :=
  match Text.splitn2 '=' line with
  | (_, none) => none
  | (key, some value) => if key = name then some value else none

/-- A line with the configured name. -/
def isMatching (config : Config) (line : Text) : Bool := (lineValue config.envvar line).isSome

def matchingValues (config : Config) (envOpt : Option (List Text)) : List Text :=
  (envOpt.getD []).filterMap (lineValue config.envvar)

private theorem parseLines_skip {config : Config} {line : Text}
    (h : lineValue config.envvar line = none)
    (env : List Text) (present : Bool) (specs : List DomainSpec) :
    parseLines config (line :: env) present specs = parseLines config env present specs := by
  rw [lineValue] at h
  rw [parseLines]
  generalize Text.splitn2 '=' line = parts at h ⊢
  obtain ⟨key, value⟩ := parts
  cases value with
  | none => rfl
  | some value =>
    have hne : key ≠ config.envvar := fun hkey => by simp [hkey] at h
    exact if_pos hne

private theorem parseLines_match {config : Config} {line value : Text}
    (h : lineValue config.envvar line = some value) (env : List Text) (present : Bool)
    (specs : List DomainSpec) : parseLines config (line :: env) present specs =
      match parseAll value specs with
      | (.error e, specs) => (.error (.domainSpec e), true, specs)
      | (.ok (), specs) => parseLines config env true specs := by
  rw [lineValue] at h
  rw [parseLines]
  generalize Text.splitn2 '=' line = parts at h ⊢
  obtain ⟨key, value'⟩ := parts
  cases value' with
  | none => cases h
  | some value' =>
    obtain ⟨hkey, rfl⟩ : key = config.envvar ∧ value' = value := by simpa using h
    exact if_neg (not_not_intro hkey)

/-- What the loop leaves when it is done with lines that have these values. -/
def afterValues (values : List Text) (present : Bool) (specs : List DomainSpec) :
    Except InspectionError Unit × Bool × List DomainSpec :=
  let left := (values.map parse).prod.pushTo specs
  (left.1.mapError .domainSpec, present || !values.isEmpty, left.2)

/-- The loop parses the values of the matching lines one after the other. -/
theorem parseLines_eq (config : Config) (env : List Text) (present : Bool)
    (specs : List DomainSpec) : parseLines config env present specs =
      afterValues (env.filterMap (lineValue config.envvar)) present specs := by
  induction env generalizing present specs with
  | nil => simp [parseLines, afterValues, Outcome.pushTo, Except.mapError]
  | cons line env ih =>
    cases hline : lineValue config.envvar line with
    | none => rw [parseLines_skip hline, List.filterMap_cons_none hline, ih]
    | some value =>
      rw [parseLines_match hline, List.filterMap_cons_some hline, afterValues, List.map_cons,
        List.prod_cons, parseAll_eq]
      cases hparse : (parse value).pushTo specs with
      | mk result left =>
        cases result with
        | error e =>
          rw [Outcome.mul_pushTo_error hparse]
          simp [Except.mapError]
        | ok u =>
          rw [Outcome.mul_pushTo_ok hparse]
          simp [ih, afterValues]

theorem parseContainerEnvVars_eq (config : Config) (envOpt : Option (List Text)) (present : Bool)
    (specs : List DomainSpec) : parseContainerEnvVars envOpt config present specs =
      afterValues (matchingValues config envOpt) present specs := by
  cases envOpt with
  | none => simp [parseContainerEnvVars, matchingValues, afterValues, Outcome.pushTo,
      Except.mapError]
  | some env => exact parseLines_eq config env present specs

/-- The values of the matching lines, joined by spaces, are parsed at once. -/
theorem parseContainerEnvVars_values (config : Config) (envOpt : Option (List Text))
    (specs : List DomainSpec) : parseContainerEnvVars envOpt config false specs =
      ((parseAll ([' '].intercalate (matchingValues config envOpt)) specs).1.mapError .domainSpec,
        !(matchingValues config envOpt).isEmpty,
        (parseAll ([' '].intercalate (matchingValues config envOpt)) specs).2) := by
  rw [parseContainerEnvVars_eq, parseAll_eq, parse_intercalate, afterValues, Bool.false_or]

theorem matchingValues_eq_nil_iff (config : Config) (envOpt : Option (List Text)) :
    matchingValues config envOpt = [] ↔
      ∀ line ∈ envOpt.getD [], isMatching config line = false := by
  simp [matchingValues, isMatching]

private theorem matchingValues_filter (config : Config) (env : List Text) :
    (env.filter (isMatching config)).filterMap (lineValue config.envvar) =
      env.filterMap (lineValue config.envvar) := by
  rw [List.filterMap_filter]
  apply List.filterMap_congr
  intro line _
  cases h : lineValue config.envvar line <;> simp [isMatching, h]

/-- Reading the environment is parsing the values of the matching lines, joined by single
spaces. The other lines do not matter. -/
theorem parseContainerEnvVars_joined (config : Config) (envOpt : Option (List Text))
    (specs : List DomainSpec) :
    ((parseContainerEnvVars envOpt config false specs).2.1 = true ↔
      ∃ line ∈ envOpt.getD [], isMatching config line = true) ∧
    ((∀ line ∈ envOpt.getD [], isMatching config line = false) →
      parseContainerEnvVars envOpt config false specs = (.ok (), false, specs)) ∧
    ((∃ line ∈ envOpt.getD [], isMatching config line = true) →
      parseContainerEnvVars envOpt config false specs =
        let left := parseAll ([' '].intercalate (matchingValues config envOpt)) specs
        (left.1.mapError .domainSpec, true, left.2)) ∧
    ∀ env, env.filter (isMatching config) = (envOpt.getD []).filter (isMatching config) →
      parseContainerEnvVars (some env) config false specs =
        parseContainerEnvVars envOpt config false specs := by
  have hnone := matchingValues_eq_nil_iff config envOpt
  have hsome : matchingValues config envOpt ≠ [] ↔
      ∃ line ∈ envOpt.getD [], isMatching config line = true := by
    rw [Ne, hnone]
    push Not
    simp
  refine ⟨?_, fun h => ?_, fun h => ?_, fun env h => ?_⟩
  · rw [parseContainerEnvVars_values, ← hsome]
    simp
  · rw [parseContainerEnvVars_values, hnone.mpr h]
    rfl
  · have hvalues : (matchingValues config envOpt).isEmpty = false :=
      List.isEmpty_eq_false_iff.mpr (hsome.mpr h)
    rw [parseContainerEnvVars_values, hvalues]
    rfl
  · have hvalues : matchingValues config (some env) = matchingValues config envOpt := by
      rw [matchingValues, matchingValues, Option.getD_some, ← matchingValues_filter, h,
        matchingValues_filter]
    rw [parseContainerEnvVars_values, parseContainerEnvVars_values, hvalues]

/-- Two matching lines among lines without `=` and with longer or shorter names. -/
theorem parseContainerEnvVars_joined_two :
    parseContainerEnvVars (some ["BEACHHEAD_DOMAINS=a.org:http=81".toList, "BEACHHEAD=x.org".toList,
        "BEACHHEAD_DOMAINS_2=y.org".toList, "BEACHHEAD_DOMAINS".toList,
        "BEACHHEAD_DOMAINS=b.org".toList]) Config.default false [] =
      (.ok (), true, [⟨"a.org".toList, some 81, none⟩, ⟨"b.org".toList, some 80, some 443⟩]) := by
  rw [(parseContainerEnvVars_joined Config.default _ []).2.2.1
    ⟨"BEACHHEAD_DOMAINS=b.org".toList, by simp, by decide⟩]
  decide

end Beachhead.DockerInspector
