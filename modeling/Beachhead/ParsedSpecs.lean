import Beachhead.ParserOutcome

/-!
# Every parsed spec is well formed

Whatever the text, and also when the parser fails on a later part of it, the specs that
were appended have a well formed name that stands in the text, and a port.
-/
namespace Beachhead.DomainSpec
open Regex Regex.Pattern

/-- The name consists of letters, digits, `.` and `-`, starts and ends with a letter or
digit and occurs in the text, and some port is present. -/
structure WellFormed (raw : Text) (spec : DomainSpec) : Prop where
  length : 3 ≤ spec.domainName.length
  inner : ∀ c ∈ spec.domainName, inner c
  head : ∃ c, spec.domainName.head? = some c ∧ alnum c
  last : ∃ c, spec.domainName.getLast? = some c ∧ alnum c
  occurs : spec.domainName <:+: raw
  port : spec.httpPort.isSome ∨ spec.httpsPort.isSome

/-- `id` consists of letters, digits and `_` and is as long as the name. -/
structure ValidId (name id : Text) : Prop where
  ne_nil : id ≠ []
  length : id.length = name.length
  chars : ∀ c ∈ id, alnum c ∨ c = '_'

/-- What becomes of a character of a name. -/
def idChar (c : Char) : Char := if alnum c || c == '_' then c else '_'

theorem specId_eq (spec : DomainSpec) : spec.specId = spec.domainName.map idChar := by
  have hreplacement : "_".toList = ['_'] := by decide
  rw [specId, ID_PAT, hreplacement, replaceAll_cls, List.map_inj_left]
  intro c _
  rw [idChar]
  cases alnum c || c == '_' <;> simp

private theorem specId_valid {spec : DomainSpec} (h : spec.domainName ≠ []) :
    ValidId spec.domainName spec.specId := by
  rw [specId_eq]
  refine ⟨by simpa using h, by simp, fun c hc => ?_⟩
  obtain ⟨a, -, rfl⟩ := List.mem_map.mp hc
  rw [idChar]
  by_cases ha : alnum a || a == '_'
  · rw [if_pos ha]
    simpa using ha
  · rw [if_neg ha]
    exact .inr rfl

private theorem withDefaults_port (spec : DomainSpec) :
    (withDefaults spec).httpPort.isSome ∨ (withDefaults spec).httpsPort.isSome := by
  rw [withDefaults]
  by_cases h : spec.httpPort.isNone && spec.httpsPort.isNone
  · rw [if_pos h]
    exact .inl rfl
  · rw [if_neg h]
    cases hhttp : spec.httpPort with
    | some p => exact .inl rfl
    | none =>
      refine .inr (Option.isSome_iff_ne_none.mpr fun hhttps => h ?_)
      simp [hhttp, hhttps]

private theorem parseCaptures_port {c : Captures} {spec : DomainSpec}
    (h : parseCaptures c = .ok spec) : spec.httpPort.isSome ∨ spec.httpsPort.isSome := by
  rw [parseCaptures] at h
  cases hfold : (rawParams c).foldlM applyParam ⟨capturedName c, none, none⟩ with
  | error e => simp [hfold, Except.map] at h
  | ok s =>
    rw [hfold] at h
    obtain rfl : withDefaults s = spec := Except.ok.inj h
    exact withDefaults_port s

private theorem IsDomain.length {d : Text} (h : IsDomain d) : 3 ≤ d.length := by
  obtain ⟨a, x, b, rfl, -, hx, -⟩ := (isDomain_iff d).mp h
  have hpos : 0 < x.length := List.length_pos_iff.mpr hx
  rw [List.length_append, List.length_cons, List.length_singleton]
  omega

/-- Every spec that was appended is well formed, on success and on failure. -/
theorem parse_wellFormed {raw : Text} {spec : DomainSpec} (h : spec ∈ (parse raw).pushed) :
    WellFormed raw spec := by
  obtain ⟨c, hc, hparse⟩ := Outcome.mem_collect h
  obtain ⟨hdomain, hinfix, -⟩ := captures_mem hc
  rw [← parseCaptures_name hparse] at hdomain hinfix
  obtain ⟨a, x, b, hname, ha, -, -, hb⟩ := (isDomain_iff _).mp hdomain
  have hport := parseCaptures_port hparse
  refine ⟨hdomain.length, hdomain.inner, ⟨a, by simp [hname], ha⟩, ⟨b, ?_, hb⟩, hinfix, hport⟩
  rw [hname]
  exact List.getLast?_concat

/-- Every spec that the parser appends to a vector is well formed and has a valid id. Ids
are valid for all names, also for those the parser would not accept. -/
theorem parseAll_wellFormed :
    (∀ (raw : Text) (v : List DomainSpec), ∃ out, (parseAll raw v).2 = v ++ out ∧
      ∀ spec ∈ out, WellFormed raw spec ∧ ValidId spec.domainName spec.specId) ∧
    ∀ spec : DomainSpec, spec.domainName ≠ [] → ValidId spec.domainName spec.specId := by
  refine ⟨fun raw v => ⟨(parse raw).pushed, by rw [parseAll_eq]; rfl, fun spec hspec => ?_⟩,
    fun spec hname => specId_valid hname⟩
  have hwell := parse_wellFormed hspec
  refine ⟨hwell, specId_valid fun hnil => ?_⟩
  have hlength := hwell.length
  rw [hnil] at hlength
  exact absurd hlength (by decide)

/-- A name with a space, which the parser never appends. -/
theorem parseAll_wellFormed_space :
    ValidId "a b".toList (⟨"a b".toList, none, none⟩ : DomainSpec).specId :=
  parseAll_wellFormed.2 ⟨"a b".toList, none, none⟩ (by decide)

end Beachhead.DomainSpec
