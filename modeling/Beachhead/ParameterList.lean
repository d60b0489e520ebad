import Beachhead.ParserGrammar

/-!
# The meaning of a parameter list

Only the parameters with the keys `http` and `https` count. The first one of them whose
value is not a port is the error; if there is none, the last one of each key gives the
port.
-/
namespace Beachhead.DomainSpec
open Regex Regex.Pattern

/-- The text before the first `=`, in lower case. -/
def paramKey (p : Text) : Text := Text.toLowercase (Text.splitn2 '=' p).1

/-- The text after the first `=`. -/
def paramValue (p : Text) : Option Text := (Text.splitn2 '=' p).2

def isPortParam (p : Text) : Bool := paramKey p = HTTP ∨ paramKey p = HTTPS

/-- Why a parameter is rejected, if it is. -/
def rejection (p : Text) : Option Text.ParseIntError :=
  if isPortParam p then
    match paramValue p with
    | some v => match Text.fromStrRadix v with
      | .error e => some e
      | .ok _ => none
    | none => none
  else none

/-- The port that a parameter gives, with the default of its key. -/
def paramPort (default : UInt16) (p : Text) : Option UInt16 :=
  match paramValue p with
  | some v => (Text.fromStrRadix v).toOption
  | none => some default

/-- The port of the last parameter with the key, or `old` if there is none. -/
def lastPort (key : Text) (default : UInt16) (ps : List Text) (old : Option UInt16) :
    Option UInt16 :=
  match (ps.filter fun p => paramKey p = key).getLast? with
  | some p => paramPort default p
  | none => old

/-- `d:p₁:p₂:...` -/
def paramText (d : Text) (ps : List Text) : Text := d ++ ':' :: [':'].intercalate ps

def listMeaning (d : Text) (ps : List Text) : DomainSpec :=
  match lastPort HTTP 80 ps none, lastPort HTTPS 443 ps none with
  | none, none => ⟨d, some 80, some 443⟩
  | http, https => ⟨d, http, https⟩

theorem paramParts_eq {p : Text} (hw : ∀ c ∈ p, Text.isWhitespace c = false) :
    paramParts p = (paramKey p, paramValue p) := by
  have hkey : Text.trim (Text.splitn2 '=' p).1 = (Text.splitn2 '=' p).1 :=
    Text.trim_eq_self fun c hc => hw c ((List.takeWhile_sublist _).subset hc)
  have hvalue : (Text.splitn2 '=' p).2.map Text.trim = (Text.splitn2 '=' p).2 := by
    cases h : p.dropWhile (· != '=') with
    | nil => simp [Text.splitn2, h]
    | cons c v =>
      have hv : Text.trim v = v := Text.trim_eq_self fun a ha =>
        hw a ((List.dropWhile_sublist _).subset (h ▸ List.mem_cons_of_mem c ha))
      simp [Text.splitn2, h, hv]
  rw [paramParts, hkey, hvalue, paramKey, paramValue]

theorem rejection_iff (p : Text) : (rejection p).isSome ↔
    (paramKey p = HTTP ∨ paramKey p = HTTPS) ∧
      ∃ v e, paramValue p = some v ∧ Text.fromStrRadix v = .error e := by
  rw [rejection, isPortParam]
  by_cases hkey : paramKey p = HTTP ∨ paramKey p = HTTPS
  · cases hvalue : paramValue p with
    | none => simp [hkey]
    | some v => cases hport : Text.fromStrRadix v <;> simp [hkey, hport]
  · simp [hkey]

theorem parsePort_rejected {p : Text} {e : Text.ParseIntError} (h : rejection p = some e)
    (key : Text) (spec : DomainSpec) :
    parsePort key (paramValue p) spec = .error ⟨spec.domainName, e, some key⟩ := by
  have hparam : isPortParam p = true := by
    by_contra hnot
    simp [rejection, hnot] at h
  rw [rejection, if_pos hparam] at h
  cases hvalue : paramValue p with
  | none => simp [hvalue] at h
  | some v =>
    cases hport : Text.fromStrRadix v with
    | ok n => simp [hvalue, hport] at h
    | error e' =>
      obtain rfl : e' = e := by simpa [hvalue, hport] using h
      simp [parsePort, optionalResult, hport]

theorem parsePort_accepted {p : Text} (hparam : isPortParam p = true) (h : rejection p = none)
    (key : Text) (spec : DomainSpec) : ∃ o, parsePort key (paramValue p) spec = .ok o ∧
      ∀ default : UInt16, some (o.getD default) = paramPort default p := by
  rw [rejection, if_pos hparam] at h
  cases hvalue : paramValue p with
  | none => exact ⟨none, rfl, fun default => by simp [paramPort, hvalue]⟩
  | some v =>
    cases hport : Text.fromStrRadix v with
    | error e => simp [hvalue, hport] at h
    | ok n =>
      refine ⟨some n, by simp [parsePort, optionalResult, hport], fun default => ?_⟩
      simp [paramPort, hvalue, hport, Except.toOption]

section
variable {p : Text} (hw : ∀ c ∈ p, Text.isWhitespace c = false) (spec : DomainSpec)
include hw

theorem applyParam_rejected {e : Text.ParseIntError} (h : rejection p = some e) :
    applyParam spec p = .error ⟨spec.domainName, e, some (paramKey p)⟩ := by
  have hkey : paramKey p = HTTP ∨ paramKey p = HTTPS :=
    ((rejection_iff p).mp (by simp [h])).1
  simp only [applyParam, paramParts_eq hw, parsePort_rejected h]
  by_cases hhttp : paramKey p = HTTP
  · rw [if_pos hhttp]
    rfl
  · rw [if_neg hhttp, if_pos (hkey.resolve_left hhttp)]
    rfl

private theorem applyParam_accepted (h : rejection p = none) : applyParam spec p =
    .ok ⟨spec.domainName, if paramKey p = HTTP then paramPort 80 p else spec.httpPort,
      if paramKey p = HTTPS then paramPort 443 p else spec.httpsPort⟩ := by
  have hne : HTTP ≠ HTTPS := by decide
  simp only [applyParam, paramParts_eq hw]
  by_cases hhttp : paramKey p = HTTP
  · obtain ⟨o, ho, hport⟩ := parsePort_accepted (by simp [isPortParam, hhttp]) h (paramKey p) spec
    rw [if_pos hhttp, if_pos hhttp, if_neg (hhttp ▸ hne), ho, ← hport]
    rfl
  · rw [if_neg hhttp, if_neg hhttp]
    by_cases hhttps : paramKey p = HTTPS
    · obtain ⟨o, ho, hport⟩ :=
        parsePort_accepted (by simp [isPortParam, hhttps]) h (paramKey p) spec
      rw [if_pos hhttps, if_pos hhttps, ho, ← hport]
      rfl
    · rw [if_neg hhttps, if_neg hhttps]

theorem applyParam_other (h : isPortParam p = false) : applyParam spec p = .ok spec := by
  have hkey : ¬(paramKey p = HTTP ∨ paramKey p = HTTPS) := of_decide_eq_false h
  have haccepted := applyParam_accepted hw spec (by simp [rejection, h])
  rwa [if_neg fun hhttp => hkey (.inl hhttp), if_neg fun hhttps => hkey (.inr hhttps)] at haccepted

end

/-- The last parameter wins. -/
theorem lastPort_cons (key : Text) (default : UInt16) (p : Text) (ps : List Text)
    (old : Option UInt16) : lastPort key default (p :: ps) old =
      lastPort key default ps (if paramKey p = key then paramPort default p else old) := by
  by_cases hkey : paramKey p = key
  · rw [lastPort, lastPort, List.filter_cons_of_pos (by simpa using hkey), if_pos hkey,
      List.getLast?_cons]
    cases (ps.filter fun q => paramKey q = key).getLast? <;> rfl
  · rw [lastPort, lastPort, List.filter_cons_of_neg (by simpa using hkey), if_neg hkey]

section
variable {ps : List Text} (hw : ∀ p ∈ ps, ∀ c ∈ p, Text.isWhitespace c = false)
include hw

theorem foldlM_accepted (h : ∀ p ∈ ps, rejection p = none) (spec : DomainSpec) :
    ps.foldlM applyParam spec = .ok ⟨spec.domainName, lastPort HTTP 80 ps spec.httpPort,
      lastPort HTTPS 443 ps spec.httpsPort⟩ := by
  induction ps generalizing spec with
  | nil => rfl
  | cons p ps ih =>
    rw [List.forall_mem_cons] at hw h
    rw [List.foldlM_cons, applyParam_accepted hw.1 spec h.1]
    simp only [bind, Except.bind]
    rw [ih hw.2 h.2, lastPort_cons, lastPort_cons]

/-- The first rejected parameter is the error. -/
theorem foldlM_rejected {p : Text} (hp : ps.find? (fun q => (rejection q).isSome) = some p)
    {e : Text.ParseIntError} (he : rejection p = some e) (spec : DomainSpec) :
    ps.foldlM applyParam spec = .error ⟨spec.domainName, e, some (paramKey p)⟩ := by
  induction ps generalizing spec with
  | nil => simp at hp
  | cons q ps ih =>
    rw [List.forall_mem_cons] at hw
    rw [List.foldlM_cons]
    cases hq : rejection q with
    | some e' =>
      obtain rfl : q = p := by simpa [List.find?_cons, hq] using hp
      obtain rfl : e' = e := Option.some.inj (hq.symm.trans he)
      rw [applyParam_rejected hw.1 spec hq]
      rfl
    | none =>
      rw [applyParam_accepted hw.1 spec hq]
      simp only [bind, Except.bind]
      exact ih hw.2 (by simpa [List.find?_cons, hq] using hp) _

/-- Parameters with other keys are ignored. -/
theorem foldlM_filter (spec : DomainSpec) :
    ps.foldlM applyParam spec = (ps.filter isPortParam).foldlM applyParam spec := by
  induction ps generalizing spec with
  | nil => rfl
  | cons p ps ih =>
    rw [List.forall_mem_cons] at hw
    by_cases hp : isPortParam p
    · rw [List.filter_cons_of_pos hp, List.foldlM_cons, List.foldlM_cons]
      exact congrArg _ (funext fun s => ih hw.2 s)
    · have hother := applyParam_other hw.1 spec (by simpa using hp)
      rw [List.filter_cons_of_neg hp, List.foldlM_cons, hother]
      exact ih hw.2 spec

end

/-- A parameter: any characters except the separators of parameters and of specs. -/
def IsParam (p : Text) : Prop := ∀ c ∈ p, c ≠ ':' ∧ Text.isWhitespace c = false

instance (p : Text) : Decidable (IsParam p) :=
  decidable_of_iff (p.all fun c => c != ':' && !Text.isWhitespace c) (by simp [IsParam])

/-- The one match in a name with its parameter list. -/
theorem capturesIter_paramText {d : Text} (hd : IsDomain d) {ps : List Text}
    (hps : ∀ p ∈ ps, IsParam p) : ∃ c, DS_PAT.capturesIter (paramText d ps) = [c] ∧
      capturedName c = d ∧
      ∀ spec, (rawParams c).foldlM applyParam spec = ps.foldlM applyParam spec := by
  have hw : ∀ p ∈ ps, ∀ c ∈ p, Text.isWhitespace c = false := fun p hp c hc => (hps p hp c hc).2
  have hname (g : Captures) : capturedName ((1, d ++ []) :: g) = d :=
    capturedName_eq hd (.inl rfl) rfl
  by_cases hempty : [':'].intercalate ps = []
  · refine ⟨[(1, d ++ [])], ?_, hname [], fun spec => ?_⟩
    · rw [paramText, hempty]
      exact capturesIter_bare hd (.inl rfl) (.inr rfl)
    · have hnone : ps.filter isPortParam = [] := by
        cases ps with
        | nil => rfl
        | cons p ps =>
          cases ps with
          | nil =>
            obtain rfl : p = [] := by simpa using hempty
            decide
          | cons q ps => simp [List.intercalate_cons_cons] at hempty
      rw [foldlM_filter hw, hnone]
      rfl
  · have hchars : ∀ c ∈ [':'].intercalate ps, Text.isWhitespace c = false := by
      intro c hc
      obtain rfl | ⟨p, hp, hcp⟩ := Text.mem_intercalate hc
      · exact Text.not_whitespace_colon
      · exact hw p hp c hcp
    have hne : ps ≠ [] := by
      rintro rfl
      exact hempty rfl
    have hsplit : Text.split ':' ([':'].intercalate ps) = ps :=
      List.splitOn_intercalate ':' (fun p hp hc => (hps p hp ':' hc).1 rfl) hne
    refine ⟨_, capturesIter_params hd (.inl rfl) hempty hchars, hname _, fun spec => ?_⟩
    rw [rawParams_captured _ hchars, hsplit]

private theorem parse_paramText {d : Text} (hd : IsDomain d) {ps : List Text}
    (hps : ∀ p ∈ ps, IsParam p) : parse (paramText d ps) =
      Outcome.ofExcept ((ps.foldlM applyParam ⟨d, none, none⟩).map withDefaults) := by
  obtain ⟨c, hc, hname, hparams⟩ := capturesIter_paramText hd hps
  rw [parse, hc, Outcome.collect_cons, Outcome.collect_nil, mul_one, parseCaptures, hname, hparams]

theorem withDefaults_listMeaning (d : Text) (ps : List Text) : withDefaults
    ⟨d, lastPort HTTP 80 ps none, lastPort HTTPS 443 ps none⟩ = listMeaning d ps := by
  rw [listMeaning, withDefaults]
  cases lastPort HTTP 80 ps none <;> cases lastPort HTTPS 443 ps none <;> rfl

theorem rawParams_mem {raw : Text} {c : Captures} (hc : c ∈ DS_PAT.capturesIter raw) :
    ∀ p ∈ rawParams c, ∀ a ∈ p, Text.isWhitespace a = false := by
  have hparams := (captures_mem hc).2.2
  rw [rawParams]
  cases h : c.lookup 3 with
  | none => simp
  | some g =>
    intro p hp a ha
    have hmem : a ∈ Text.trim g := (Text.forall_mem_splitOnP _ _ p hp a ha).2
    rw [Text.trim_eq_self (hparams g h)] at hmem
    exact hparams g h a hmem

/-- What a match means, if it is parsed. -/
theorem parseCaptures_ok {raw : Text} {c : Captures} (hc : c ∈ DS_PAT.capturesIter raw)
    {spec : DomainSpec} (h : parseCaptures c = .ok spec) :
    spec = listMeaning (capturedName c) (rawParams c) := by
  have hw := rawParams_mem hc
  cases hfind : (rawParams c).find? (fun q => (rejection q).isSome) with
  | none =>
    have haccepted : ∀ p ∈ rawParams c, rejection p = none := by
      simpa using List.find?_eq_none.mp hfind
    rw [parseCaptures, foldlM_accepted hw haccepted] at h
    rw [← withDefaults_listMeaning]
    exact (Except.ok.inj h).symm
  | some p =>
    have hsome : (rejection p).isSome := by simpa using List.find?_some hfind
    obtain ⟨e, he⟩ := Option.isSome_iff_exists.mp hsome
    rw [parseCaptures, foldlM_rejected hw hfind he] at h
    cases h

/-- A name with its parameter list fails with the first rejected parameter, or appends the
one spec that the last `http` and the last `https` parameter give. Other parameters do not
matter. -/
theorem parseAll_paramText (d : Text) (hd : IsDomain d) (ps : List Text)
    (hps : ∀ p ∈ ps, IsParam p) (v : List DomainSpec) :
    ((∃ e w, parseAll (paramText d ps) v = (.error e, w)) ↔ ∃ p ∈ ps,
      (paramKey p = HTTP ∨ paramKey p = HTTPS) ∧
        ∃ u e, paramValue p = some u ∧ Text.fromStrRadix u = .error e) ∧
    (∀ p e, ps.find? (fun q => (rejection q).isSome) = some p → rejection p = some e →
      parseAll (paramText d ps) v = (.error ⟨d, e, some (paramKey p)⟩, v)) ∧
    ((∀ p ∈ ps, rejection p = none) →
      parseAll (paramText d ps) v = (.ok (), v ++ [listMeaning d ps])) ∧
    ∀ qs, (∀ p ∈ qs, IsParam p) → qs.filter isPortParam = ps.filter isPortParam →
      parseAll (paramText d qs) v = parseAll (paramText d ps) v := by
  have hw (qs : List Text) (hqs : ∀ p ∈ qs, IsParam p) :
      ∀ p ∈ qs, ∀ c ∈ p, Text.isWhitespace c = false := fun p hp c hc => (hqs p hp c hc).2
  have hrejected (p : Text) (e : Text.ParseIntError)
      (hp : ps.find? (fun q => (rejection q).isSome) = some p) (he : rejection p = some e) :
      parseAll (paramText d ps) v = (.error ⟨d, e, some (paramKey p)⟩, v) := by
    rw [parseAll_eq, parse_paramText hd hps, foldlM_rejected (hw ps hps) hp he]
    simp [Except.map, Outcome.ofExcept, Outcome.pushTo]
  have haccepted (h : ∀ p ∈ ps, rejection p = none) :
      parseAll (paramText d ps) v = (.ok (), v ++ [listMeaning d ps]) := by
    rw [parseAll_eq, parse_paramText hd hps, foldlM_accepted (hw ps hps) h,
      ← withDefaults_listMeaning]
    rfl
  refine ⟨?_, hrejected, haccepted, fun qs hqs hfilter => ?_⟩
  · simp only [← rejection_iff]
    constructor
    · rintro ⟨e, w, h⟩
      by_contra hnone
      push Not at hnone
      rw [haccepted fun p hp => by simpa using hnone p hp] at h
      cases h
    · intro h
      obtain ⟨p, hp⟩ := Option.isSome_iff_exists.mp (List.find?_isSome.mpr h)
      have hsome : (rejection p).isSome := by simpa using List.find?_some hp
      obtain ⟨e, he⟩ := Option.isSome_iff_exists.mp hsome
      exact ⟨_, _, hrejected p e hp he⟩
  · rw [parseAll_eq, parseAll_eq, parse_paramText hd hqs, parse_paramText hd hps,
      foldlM_filter (hw qs hqs), hfilter, ← foldlM_filter (hw ps hps)]

/-- Unknown, empty, repeated and capitalised parameters, and a value with two faults. -/
theorem parseAll_paramText_repeated :
    parseAll (paramText "example.org".toList
        ["http=1".toList, "v=2=3".toList, [], "HTTP=8080".toList, "https".toList]) [] =
      (.ok (), [⟨"example.org".toList, some 8080, some 443⟩]) ∧
    parseAll (paramText "example.org".toList
        ["http=1".toList, "x".toList, "Https=x".toList, "http=-1".toList]) [] =
      (.error ⟨"example.org".toList, .invalidDigit, some HTTPS⟩, []) := by
  constructor
  · rw [(parseAll_paramText "example.org".toList (by decide) _ (by decide) []).2.2.1 (by decide)]
    decide
  · exact (parseAll_paramText "example.org".toList (by decide) _ (by decide) []).2.1
      "Https=x".toList .invalidDigit (by decide) (by decide)

end Beachhead.DomainSpec
