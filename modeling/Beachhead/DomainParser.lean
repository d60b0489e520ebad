import Beachhead.DomainTokens

/-!
# The parameters of one match

Only a parameter with the key `http` or `https` can make a match fail, and no parameter
changes the name.
-/
namespace Beachhead.DomainSpec
open Regex Regex.Pattern

/-- A parameter that makes the parser fail: its key is `http` or `https` and it has a
`=` whose right side is not a port. -/
def RejectedParam (p : Text) : Prop :=
  ((paramParts p).1 = HTTP ∨ (paramParts p).1 = HTTPS) ∧
    ∃ v e, (paramParts p).2 = some v ∧ Text.fromStrRadix v = .error e

/-- Some parameter list captured in the text has such a parameter. -/
def PortRejected (raw : Text) : Prop :=
  ∃ c ∈ DS_PAT.capturesIter raw, ∃ p ∈ rawParams c, RejectedParam p

theorem parsePort_error_iff (key : Text) (value : Option Text) (spec : DomainSpec) :
    (∃ e, parsePort key value spec = .error e) ↔
      ∃ v e, value = some v ∧ Text.fromStrRadix v = .error e := by
  cases value with
  | none => simp [parsePort, optionalResult]
  | some v => cases h : Text.fromStrRadix v <;> simp [parsePort, optionalResult, h]

theorem map_error_iff {ε α β : Type} (f : α → β) (x : Except ε α) :
    (∃ e, x.map f = .error e) ↔ ∃ e, x = .error e := by
  cases x <;> simp [Except.map]

theorem applyParam_error_iff (spec : DomainSpec) (p : Text) :
    (∃ e, applyParam spec p = .error e) ↔ RejectedParam p := by
  simp only [applyParam, RejectedParam]
  by_cases hhttp : (paramParts p).1 = HTTP
  · rw [if_pos hhttp, map_error_iff, parsePort_error_iff]
    simp [hhttp]
  · by_cases hhttps : (paramParts p).1 = HTTPS
    · rw [if_neg hhttp, if_pos hhttps, map_error_iff, parsePort_error_iff]
      simp [hhttps]
    · simp [hhttp, hhttps]

theorem foldlM_error_iff (ps : List Text) (spec : DomainSpec) :
    (∃ e, ps.foldlM applyParam spec = .error e) ↔ ∃ p ∈ ps, RejectedParam p := by
  induction ps generalizing spec with
  | nil => simp [pure, Except.pure]
  | cons p ps ih =>
    rw [List.foldlM_cons]
    cases h : applyParam spec p with
    | error e =>
      have hp := (applyParam_error_iff spec p).mp ⟨e, h⟩
      simp [bind, Except.bind, hp]
    | ok spec' =>
      have hp : ¬RejectedParam p := by
        rw [← applyParam_error_iff spec p, h]
        simp
      simpa [bind, Except.bind, hp] using ih spec'

theorem parseCaptures_error_iff (c : Captures) :
    (∃ e, parseCaptures c = .error e) ↔ ∃ p ∈ rawParams c, RejectedParam p := by
  rw [parseCaptures, map_error_iff, foldlM_error_iff]

private theorem map_name {spec spec' : DomainSpec} {f : Option UInt16 → DomainSpec}
    (hf : ∀ o, (f o).domainName = spec.domainName) {x : Except DomainSpecError (Option UInt16)}
    (h : x.map f = .ok spec') : spec'.domainName = spec.domainName := by
  cases x with
  | error e => simp [Except.map] at h
  | ok o => rw [← Except.ok.inj h, hf]

private theorem applyParam_name {spec spec' : DomainSpec} {p : Text}
    (h : applyParam spec p = .ok spec') : spec'.domainName = spec.domainName := by
  simp only [applyParam] at h
  split at h
  · exact map_name (by simp) h
  · split at h
    · exact map_name (by simp) h
    · rw [← Except.ok.inj h]

private theorem foldlM_name {ps : List Text} {spec spec' : DomainSpec}
    (h : ps.foldlM applyParam spec = .ok spec') : spec'.domainName = spec.domainName := by
  induction ps generalizing spec with
  | nil => rw [← Except.ok.inj h]
  | cons p ps ih =>
    rw [List.foldlM_cons] at h
    cases hp : applyParam spec p with
    | error e => simp [hp, bind, Except.bind] at h
    | ok s =>
      rw [hp] at h
      rw [ih h, applyParam_name hp]

private theorem withDefaults_name (spec : DomainSpec) :
    (withDefaults spec).domainName = spec.domainName := by
  unfold withDefaults
  split <;> rfl

/-- The parameters never change the name. -/
theorem parseCaptures_name {c : Captures} {spec : DomainSpec} (h : parseCaptures c = .ok spec) :
    spec.domainName = capturedName c := by
  rw [parseCaptures] at h
  cases hf : (rawParams c).foldlM applyParam ⟨capturedName c, none, none⟩ with
  | error e => simp [hf, Except.map] at h
  | ok s =>
    rw [hf] at h
    rw [← Except.ok.inj h, withDefaults_name, foldlM_name hf]

theorem capturesIter_tokens (raw : Text) :
    DS_PAT.capturesIter raw = (Text.splitWhitespace raw).flatMap DS_PAT.capturesIter := by
  rw [capturesIter_splitOnP DS_PAT_proper DS_PAT_avoids, Text.splitWhitespace]
  induction raw.splitOnP Text.isWhitespace with
  | nil => rfl
  | cons t l ih =>
    cases t with
    | nil => simpa using ih
    | cons c t => simp [ih]

end Beachhead.DomainSpec
