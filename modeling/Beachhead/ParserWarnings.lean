import Beachhead.EnvironmentLines
import Beachhead.Journal
import Beachhead.ParameterList

/-!
# Warnings about unknown parameters

The parser ignores a parameter that it does not know, so that values written for a later
version can be read, and warns about it. The warnings are one for each of them, up to the
first parameter that is rejected.
-/
namespace Beachhead.DomainSpec
open Regex Regex.Pattern Program

/-- The arguments of the warning about a parameter. -/
structure UnknownParam where
  key : Text
  value : Option Text
  deriving DecidableEq

/-- The parser acts on the vector of specs and writes its warnings to the log. -/
abbrev WarningM := EStateM DomainSpecError (List DomainSpec × List UnknownParam)

/-- What is relied on of `str::to_lowercase`, whose result is written to the log. -/
structure LowerLaw (lower : Text → Text) : Prop where
  ascii : ∀ t, (∀ c ∈ t, c.toNat < 128) → lower t = Text.toLowercase t
  other : ∀ t, (∃ c ∈ t, 128 ≤ c.toNat) → lower t ≠ HTTP ∧ lower t ≠ HTTPS

namespace Logged

variable (lower : Text → Text)

def paramParts (rawParam : Text) : Text × Option Text :=
  let parts := Text.splitn2 '=' rawParam
  (lower (Text.trim parts.1), parts.2.map Text.trim)

def applyParam (spec : DomainSpec) (rawParam : Text) : WarningM DomainSpec := do
  let (key, value) := paramParts lower rawParam
  if key = HTTP then
    let port ← ofExcept (parsePort key value spec)
    return { spec with httpPort := some (port.getD 80) }
  else if key = HTTPS then
    let port ← ofExcept (parsePort key value spec)
    return { spec with httpsPort := some (port.getD 443) }
  else
    log ⟨key, value⟩
    return spec

def parseCaptures (captures : Captures) : WarningM Unit := do
  let spec ← (rawParams captures).foldlM (applyParam lower) ⟨capturedName captures, none, none⟩
  silent (modify (· ++ [withDefaults spec]))

def parseAll (raw : Text) : WarningM Unit := forM (DS_PAT.capturesIter raw) (parseCaptures lower)

end Logged

/-- The warning about a parameter, if it is unknown. -/
def unknown (lower : Text → Text) (p : Text) : List UnknownParam :=
  if isPortParam p then [] else [⟨lower (Text.splitn2 '=' p).1, paramValue p⟩]

/-- The warnings of a parameter list. -/
def heard (lower : Text → Text) (ps : List Text) : List UnknownParam :=
  (ps.takeWhile fun p => (rejection p).isNone).flatMap (unknown lower)

/-- The loop over the parameters and the default rule. -/
def parsed (x : Text × List Text) : Except DomainSpecError DomainSpec :=
  (x.2.foldlM applyParam ⟨x.1, none, none⟩).map withDefaults

/-- The warnings of names with their parameter lists. -/
def warnings (lower : Text → Text) : List (Text × List Text) → List UnknownParam
  | [] => []
  | x :: xs => heard lower x.2 ++ match parsed x with
    | .error _ => []
    | .ok _ => warnings lower xs

/-- What a match means: its name and its parameters. -/
def nameAndParams (c : Captures) : Text × List Text := (capturedName c, rawParams c)

/-- The end of the parser with warnings, from its end without them. -/
def ended (r : Except DomainSpecError Unit × List DomainSpec) (lines : List UnknownParam) :
    EStateM.Result DomainSpecError (List DomainSpec × List UnknownParam) Unit :=
  match r.1 with
  | .ok () => .ok () (r.2, lines)
  | .error e => .error e (r.2, lines)

variable {lower : Text → Text}

private theorem keys_ascii :
    (∀ c ∈ HTTP, c.toNat < 128) ∧ ∀ c ∈ HTTPS, c.toNat < 128 := by
  have hall : ∀ key ∈ [HTTP, HTTPS], key.all fun c => c.toNat < 128 := by decide
  simpa using hall

/-- Lowering only matters for ASCII when the parser looks for its keys. -/
theorem LowerLaw.eq_iff (h : LowerLaw lower) (t : Text) :
    (lower t = HTTP ↔ Text.toLowercase t = HTTP) ∧
      (lower t = HTTPS ↔ Text.toLowercase t = HTTPS) := by
  by_cases hascii : ∀ c ∈ t, c.toNat < 128
  · rw [h.ascii t hascii]
    exact ⟨Iff.rfl, Iff.rfl⟩
  · have hother : ∃ c ∈ t, 128 ≤ c.toNat := by simpa using hascii
    exact ⟨iff_of_false (h.other t hother).1 (Text.toLowercase_ne hother keys_ascii.1),
      iff_of_false (h.other t hother).2 (Text.toLowercase_ne hother keys_ascii.2)⟩

/-- The key that the log sees is the key of the parser if it is one of its two. -/
theorem logged_paramParts (h : LowerLaw lower) {p : Text}
    (hw : ∀ c ∈ p, Text.isWhitespace c = false) :
    Logged.paramParts lower p = (lower (Text.splitn2 '=' p).1, paramValue p) ∧
      (isPortParam p = true → lower (Text.splitn2 '=' p).1 = paramKey p) ∧
      (isPortParam p = false → lower (Text.splitn2 '=' p).1 ≠ HTTP ∧
        lower (Text.splitn2 '=' p).1 ≠ HTTPS) := by
  have hkey : Text.trim (Text.splitn2 '=' p).1 = (Text.splitn2 '=' p).1 :=
    Text.trim_eq_self fun c hc => hw c ((List.takeWhile_sublist _).subset hc)
  have hvalue : (Text.splitn2 '=' p).2.map Text.trim = paramValue p :=
    congrArg Prod.snd (paramParts_eq hw)
  obtain ⟨hhttp, hhttps⟩ := h.eq_iff (Text.splitn2 '=' p).1
  refine ⟨by rw [Logged.paramParts, hkey, hvalue], fun hport => ?_, fun hport => ?_⟩
  · obtain hparam | hparam : paramKey p = HTTP ∨ paramKey p = HTTPS := of_decide_eq_true hport
    · rw [hparam, hhttp.mpr hparam]
    · rw [hparam, hhttps.mpr hparam]
  · have hother : ¬(paramKey p = HTTP ∨ paramKey p = HTTPS) := of_decide_eq_false hport
    exact ⟨fun hparam => hother (.inl (hhttp.mp hparam)),
      fun hparam => hother (.inr (hhttps.mp hparam))⟩

private theorem isPortParam_of_rejected {p : Text} {e : Text.ParseIntError}
    (h : rejection p = some e) : isPortParam p = true := by
  by_contra hnot
  simp [rejection, hnot] at h

private theorem heard_cons_accepted {p : Text} (h : rejection p = none) (ps : List Text) :
    heard lower (p :: ps) = unknown lower p ++ heard lower ps := by
  rw [heard, List.takeWhile_cons_of_pos (by simp [h]), List.flatMap_cons, heard]

private theorem heard_cons_rejected {p : Text} {e : Text.ParseIntError} (h : rejection p = some e)
    (ps : List Text) : heard lower (p :: ps) = [] := by
  rw [heard, List.takeWhile_cons_of_neg (by simp [h]), List.flatMap_nil]

section
variable (hlower : LowerLaw lower) (spec : DomainSpec) (specs : List DomainSpec)
  (lines : List UnknownParam)

include hlower

private theorem logged_applyParam_rejected {p : Text} (hw : ∀ c ∈ p, Text.isWhitespace c = false)
    {e : Text.ParseIntError} (h : rejection p = some e) :
    Logged.applyParam lower spec p (specs, lines) =
      .error ⟨spec.domainName, e, some (paramKey p)⟩ (specs, lines) := by
  have hport := isPortParam_of_rejected h
  obtain ⟨hparts, hkey, -⟩ := logged_paramParts hlower hw
  simp only [Logged.applyParam, hparts, hkey hport, parsePort_rejected h]
  by_cases hhttp : paramKey p = HTTP
  · rw [if_pos hhttp]
    rfl
  · rw [if_neg hhttp, if_pos ((of_decide_eq_true hport).resolve_left hhttp)]
    rfl

private theorem logged_applyParam_accepted {p : Text} (hw : ∀ c ∈ p, Text.isWhitespace c = false)
    (h : rejection p = none) : ∃ spec', applyParam spec p = .ok spec' ∧
      Logged.applyParam lower spec p (specs, lines) =
        .ok spec' (specs, lines ++ unknown lower p) := by
  obtain ⟨hparts, hkey, hother⟩ := logged_paramParts hlower hw
  simp only [Logged.applyParam, hparts]
  cases hport : isPortParam p with
  | true =>
    obtain ⟨o, ho, -⟩ := parsePort_accepted hport h (paramKey p) spec
    simp only [applyParam, paramParts_eq hw, hkey hport, ho, unknown, hport, if_true,
      List.append_nil]
    by_cases hhttp : paramKey p = HTTP
    · rw [if_pos hhttp, if_pos hhttp]
      exact ⟨_, rfl, rfl⟩
    · have hhttps : paramKey p = HTTPS := (of_decide_eq_true hport).resolve_left hhttp
      rw [if_neg hhttp, if_neg hhttp, if_pos hhttps, if_pos hhttps]
      exact ⟨_, rfl, rfl⟩
  | false =>
    rw [if_neg (hother hport).1, if_neg (hother hport).2, unknown, if_neg (by simp [hport])]
    exact ⟨spec, applyParam_other hw spec hport, rfl⟩

/-- The loop over the parameters does what it does without the log, and hears the unknown ones. -/
theorem logged_foldlM {ps : List Text} (hw : ∀ p ∈ ps, ∀ c ∈ p, Text.isWhitespace c = false) :
    ps.foldlM (Logged.applyParam lower) spec (specs, lines) = match ps.foldlM applyParam spec with
      | .ok spec' => .ok spec' (specs, lines ++ heard lower ps)
      | .error e => .error e (specs, lines ++ heard lower ps) := by
  induction ps generalizing spec lines with
  | nil => simp [heard, pure, EStateM.pure, Except.pure]
  | cons p ps ih =>
    rw [List.forall_mem_cons] at hw
    rw [List.foldlM_cons, List.foldlM_cons]
    cases hp : rejection p with
    | some e =>
      rw [bind_error (logged_applyParam_rejected hlower spec specs lines hw.1 hp),
        applyParam_rejected hw.1 spec hp, heard_cons_rejected hp, List.append_nil]
      rfl
    | none =>
      obtain ⟨spec', hspec, hlogged⟩ :=
        logged_applyParam_accepted hlower spec specs lines hw.1 hp
      rw [bind_ok hlogged, hspec, ih spec' _ hw.2, heard_cons_accepted hp, List.append_assoc]
      rfl

private theorem logged_parseCaptures {c : Captures}
    (hw : ∀ p ∈ rawParams c, ∀ a ∈ p, Text.isWhitespace a = false) :
    Logged.parseCaptures lower c (specs, lines) = match parseCaptures c with
      | .ok spec' => .ok () (specs ++ [spec'], lines ++ heard lower (rawParams c))
      | .error e => .error e (specs, lines ++ heard lower (rawParams c)) := by
  have hfold := logged_foldlM hlower ⟨capturedName c, none, none⟩ specs lines hw
  rw [Logged.parseCaptures, parseCaptures]
  cases h : (rawParams c).foldlM applyParam ⟨capturedName c, none, none⟩ with
  | error e =>
    rw [h] at hfold
    rw [bind_error hfold]
    rfl
  | ok spec' =>
    rw [h] at hfold
    rw [bind_ok hfold]
    rfl

private theorem logged_parseEach {cs : List Captures}
    (hw : ∀ c ∈ cs, ∀ p ∈ rawParams c, ∀ a ∈ p, Text.isWhitespace a = false) :
    forM cs (Logged.parseCaptures lower) (specs, lines) =
      ended (parseEach cs specs) (lines ++ warnings lower (cs.map nameAndParams)) := by
  induction cs generalizing specs lines with
  | nil => simp [parseEach, ended, warnings, pure, EStateM.pure]
  | cons c cs ih =>
    rw [List.forall_mem_cons] at hw
    have hcaptures := logged_parseCaptures hlower specs lines hw.1
    have hparsed : parsed (nameAndParams c) = parseCaptures c := rfl
    rw [List.forM_cons, parseEach, List.map_cons, warnings, hparsed]
    cases h : parseCaptures c with
    | error e =>
      rw [h] at hcaptures
      rw [bind_error hcaptures, List.append_nil]
      rfl
    | ok spec' =>
      rw [h] at hcaptures
      rw [bind_ok hcaptures, ih _ _ hw.2, ← List.append_assoc]
      rfl

end

/-- The parser with warnings does what the parser does. -/
theorem logged_parseAll (hlower : LowerLaw lower) (raw : Text) (specs : List DomainSpec)
    (lines : List UnknownParam) :
    Logged.parseAll lower raw (specs, lines) = ended (parseAll raw specs)
      (lines ++ warnings lower ((DS_PAT.capturesIter raw).map nameAndParams)) :=
  logged_parseEach hlower specs lines fun _ hc => rawParams_mem hc

/-- A name, with any parameters. -/
structure Token where
  domain : Text
  isDomain : IsDomain domain
  dot : Bool
  params : List Text
  isParam : ∀ p ∈ params, IsParam p

namespace Token

def text (t : Token) : Text :=
  t.domain ++ ((if t.dot then ['.'] else []) ++ t.params.flatMap fun p => ':' :: p)

/-- A dangling colon does not start a parameter list. -/
def read (t : Token) : List Text := if t.params = [[]] then [] else t.params

def pair (t : Token) : Text × List Text := (t.domain, t.read)

def meaning (t : Token) : DomainSpec := listMeaning t.domain t.params

/-- The token without its unknown parameters. -/
def known (t : Token) : Token where
  domain := t.domain
  isDomain := t.isDomain
  dot := t.dot
  params := t.params.filter isPortParam
  isParam p hp := t.isParam p (List.mem_of_mem_filter hp)

end Token

/-- The tokens in order, separated by white space. -/
inductive Separated : List Token → Text → Prop where
  | nil : Separated [] []
  | space {c ts raw} (hc : Text.isWhitespace c) (h : Separated ts raw) : Separated ts (c :: raw)
  | last (t : Token) : Separated [t] t.text
  | cons (t : Token) {c ts raw} (hc : Text.isWhitespace c) (h : Separated ts raw) :
      Separated (t :: ts) (t.text ++ c :: raw)

private theorem capturesIter_token (t : Token) :
    (DS_PAT.capturesIter t.text).map nameAndParams = [t.pair] := by
  have hdot : IsDot (if t.dot then ['.'] else []) := by
    cases t.dot <;> simp [IsDot]
  rw [Token.text, Token.pair, Token.read]
  by_cases hdangling : t.params = [[]]
  · rw [hdangling, List.flatMap_singleton, if_pos rfl,
      capturesIter_bare t.isDomain hdot (.inr rfl), List.map_singleton, nameAndParams,
      capturedName_eq t.isDomain hdot rfl]
    rfl
  · obtain ⟨c, hc, hname, hparams⟩ := capturesIter_listed t.isDomain hdot
      (fun p hp => ⟨fun h => (t.isParam p hp ':' h).1 rfl, fun c hc => (t.isParam p hp c hc).2⟩)
      hdangling
    rw [if_neg hdangling, hc, List.map_singleton, nameAndParams, hname, hparams]

private theorem Separated.captures {ts : List Token} {raw : Text} (h : Separated ts raw) :
    (DS_PAT.capturesIter raw).map nameAndParams = ts.map Token.pair := by
  induction h with
  | nil => rfl
  | @space c ts raw hc h ih =>
    have hsep : DS_PAT.capturesIter ([] ++ c :: raw) =
        DS_PAT.capturesIter [] ++ DS_PAT.capturesIter raw :=
      capturesIter_sep DS_PAT_proper DS_PAT_avoids [] raw hc
    rw [List.nil_append] at hsep
    rw [hsep, List.map_append, ih]
    rfl
  | last t => exact capturesIter_token t
  | @cons t c ts raw hc h ih =>
    rw [capturesIter_sep DS_PAT_proper DS_PAT_avoids t.text raw hc, List.map_append,
      capturesIter_token, ih]
    rfl

private theorem parse_eq_collect (raw : Text) :
    parse raw = Outcome.collect parsed ((DS_PAT.capturesIter raw).map nameAndParams) := by
  rw [parse, Outcome.collect, Outcome.collect, List.map_map]
  rfl

/-- No parameter of the token is rejected. -/
def Token.Accepted (t : Token) : Prop := ∀ p ∈ t.params, rejection p = none

def Token.unknown (lower : Text → Text) (t : Token) : List UnknownParam :=
  t.read.flatMap (DomainSpec.unknown lower)

private theorem heard_append (lower : Text → Text) {ps : List Text}
    (h : ∀ p ∈ ps, rejection p = none) (qs : List Text) :
    heard lower (ps ++ qs) = ps.flatMap (unknown lower) ++ heard lower qs := by
  induction ps with
  | nil => rfl
  | cons p ps ih =>
    rw [List.forall_mem_cons] at h
    rw [List.cons_append, heard_cons_accepted h.1, ih h.2, List.flatMap_cons, List.append_assoc]

private theorem not_isPortParam_nil : isPortParam [] = false := by decide

namespace Token
variable (t : Token)

private theorem read_subset : t.read ⊆ t.params := by
  rw [read]
  split
  · exact List.nil_subset _
  · exact List.Subset.refl _

private theorem read_chars : ∀ p ∈ t.read, ∀ c ∈ p, Text.isWhitespace c = false := fun p hp c hc =>
  (t.isParam p (t.read_subset hp) c hc).2

private theorem read_filter : t.read.filter isPortParam = t.params.filter isPortParam := by
  rw [read]
  split
  · rw [‹t.params = [[]]›, List.filter_nil, List.filter_cons_of_neg (by simp [not_isPortParam_nil]),
      List.filter_nil]
  · rfl

private theorem listMeaning_read : listMeaning t.domain t.read = t.meaning := by
  have hlast (key : Text) (hkey : key = HTTP ∨ key = HTTPS) (default : UInt16) :
      lastPort key default t.read none = lastPort key default t.params none := by
    have hfilter (ps : List Text) : ps.filter (fun p => paramKey p = key) =
        (ps.filter isPortParam).filter fun p => paramKey p = key := by
      rw [List.filter_filter]
      apply List.filter_congr
      intro p _
      by_cases h : paramKey p = key
      · have hport : isPortParam p = true := by
          rw [isPortParam, h]
          exact decide_eq_true hkey
        simp [h, hport]
      · simp [h]
    rw [lastPort, lastPort, hfilter t.read, hfilter t.params, t.read_filter]
  rw [meaning, listMeaning, listMeaning, hlast HTTP (.inl rfl), hlast HTTPS (.inr rfl)]

private theorem known_read : t.known.read = t.read.filter isPortParam := by
  have hdangling : t.known.params ≠ [[]] := by
    intro h
    have hmem : [] ∈ t.params.filter isPortParam := by
      change [] ∈ t.known.params
      rw [h]
      exact List.mem_singleton_self _
    have hport := List.of_mem_filter hmem
    rw [not_isPortParam_nil] at hport
    cases hport
  rw [read, if_neg hdangling, read_filter]
  rfl

private theorem parsed_known : parsed t.known.pair = parsed t.pair := by
  have hfilter := foldlM_filter t.read_chars ⟨t.domain, none, none⟩
  rw [parsed, parsed, pair, pair, known_read, hfilter]
  rfl

private theorem heard_known : heard lower t.known.read = [] := by
  rw [heard, known_read, List.flatMap_eq_nil_iff]
  intro p hp
  have hport := List.of_mem_filter ((List.takeWhile_sublist _).subset hp)
  rw [DomainSpec.unknown, if_pos hport]

/-- A token with a rejected parameter fails there and has warned of those before it. -/
theorem rejected (lower : Text → Text) {ps qs : List Text} {p : Text} {e : Text.ParseIntError}
    (hparams : t.params = ps ++ p :: qs) (hps : ∀ q ∈ ps, rejection q = none)
    (hp : rejection p = some e) :
    DomainSpec.parsed t.pair = .error ⟨t.domain, e, some (paramKey p)⟩ ∧
      DomainSpec.heard lower t.pair.2 = ps.flatMap (DomainSpec.unknown lower) := by
  have hread : t.read = ps ++ p :: qs := by
    rw [read, if_neg, hparams]
    intro hdangling
    have hmem : p ∈ t.params := by simp [hparams]
    rw [hdangling, List.mem_singleton] at hmem
    have hport := isPortParam_of_rejected hp
    rw [hmem, not_isPortParam_nil] at hport
    cases hport
  constructor
  · have hfind : t.read.find? (fun q => (rejection q).isSome) = some p := by
      rw [hread, List.find?_append, List.find?_eq_none.mpr (by simpa using hps),
        List.find?_cons_of_pos (by simp [hp])]
      rfl
    rw [DomainSpec.parsed, pair]
    dsimp only
    rw [foldlM_rejected t.read_chars hfind hp]
    rfl
  · rw [pair, hread, heard_append lower hps, heard_cons_rejected hp, List.append_nil]

variable {t}

private theorem Accepted.parsed (h : t.Accepted) : DomainSpec.parsed t.pair = .ok t.meaning := by
  have haccepted := foldlM_accepted t.read_chars (fun p hp => h p (t.read_subset hp))
    ⟨t.domain, none, none⟩
  rw [DomainSpec.parsed, pair]
  dsimp only
  rw [haccepted, ← listMeaning_read, ← withDefaults_listMeaning]
  rfl

private theorem Accepted.heard (h : t.Accepted) :
    DomainSpec.heard lower t.read = t.unknown lower := by
  have happend := heard_append lower (fun p hp => h p (t.read_subset hp)) []
  rw [List.append_nil] at happend
  exact happend.trans (List.append_nil _)

end Token

/-- Tokens without a rejected parameter are parsed before what follows them. -/
theorem collect_accepted (lower : Text → Text) {ts : List Token} (h : ∀ t ∈ ts, t.Accepted)
    (xs : List (Text × List Text)) :
    Outcome.collect parsed (ts.map Token.pair ++ xs) =
        ⟨(Outcome.collect parsed xs).result,
          ts.map Token.meaning ++ (Outcome.collect parsed xs).pushed⟩ ∧
      warnings lower (ts.map Token.pair ++ xs) =
        ts.flatMap (Token.unknown lower) ++ warnings lower xs := by
  induction ts with
  | nil => exact ⟨rfl, rfl⟩
  | cons t ts ih =>
    rw [List.forall_mem_cons] at h
    obtain ⟨hcollect, hwarnings⟩ := ih h.2
    have hheard : heard lower t.pair.2 = t.unknown lower := h.1.heard
    rw [List.map_cons, List.cons_append, Outcome.collect_cons_ok h.1.parsed, hcollect, warnings,
      h.1.parsed, hheard, hwarnings, List.flatMap_cons, List.append_assoc]
    exact ⟨rfl, rfl⟩

private theorem warnings_known (ts : List Token) :
    warnings lower ((ts.map Token.known).map Token.pair) = [] := by
  induction ts with
  | nil => rfl
  | cons t ts ih =>
    have hheard : heard lower t.known.pair.2 = [] := t.heard_known
    rw [List.map_cons, List.map_cons, warnings, hheard, ih]
    cases parsed t.known.pair <;> rfl

private theorem Separated.parse_known {ts : List Token} {raw raw' : Text} (h : Separated ts raw)
    (h' : Separated (ts.map Token.known) raw') : parse raw' = parse raw := by
  rw [parse_eq_collect, parse_eq_collect, h.captures, h'.captures]
  rw [Outcome.collect, Outcome.collect, List.map_map, List.map_map, List.map_map]
  refine congrArg List.prod (List.map_congr_left fun t _ => ?_)
  exact congrArg Outcome.ofExcept t.parsed_known

/-- The text without the unknown parameters of its tokens. -/
def Cleaned (raw raw' : Text) : Prop :=
  ∃ ts, Separated ts raw ∧ Separated (ts.map Token.known) raw'

/-- Containers with the same values but for unknown parameters are inspected with the same
result. -/
theorem inspection_cleaned {config : Config} {details details' : ContainerDetails}
    (haddress : details.ipAddress = details'.ipAddress)
    (hvalues : List.Forall₂ Cleaned (DockerInspector.matchingValues config details.env)
      (DockerInspector.matchingValues config details'.env)) (name : Text) :
    DockerInspector.inspection config name details' =
      DockerInspector.inspection config name details := by
  have hafter {values values' : List Text} (h : List.Forall₂ Cleaned values values') :
      values'.map parse = values.map parse ∧ values'.isEmpty = values.isEmpty := by
    induction h with
    | nil => exact ⟨rfl, rfl⟩
    | cons hvalue _ ih =>
      obtain ⟨ts, h, h'⟩ := hvalue
      rw [List.map_cons, List.map_cons, h.parse_known h', ih.1]
      exact ⟨rfl, rfl⟩
  obtain ⟨hparse, hempty⟩ := hafter hvalues
  rw [DockerInspector.inspection, DockerInspector.inspection,
    DockerInspector.parseContainerEnvVars_eq, DockerInspector.parseContainerEnvVars_eq,
    DockerInspector.afterValues, DockerInspector.afterValues, hparse, hempty, haddress]

/-- A text of names with arbitrary parameters means what its `http` and `https` parameters mean.
Each unknown parameter leads to one warning, in order and up to the first rejected parameter, and
to nothing else: without the unknown parameters the parser does the same and warns of nothing, and
a container is inspected with the same result. -/
theorem parseAll_warned (lower : Text → Text) (hlower : LowerLaw lower) :
    (∀ raw, ∃ new, ∀ specs lines,
      Logged.parseAll lower raw (specs, lines) = ended (parseAll raw specs) (lines ++ new)) ∧
    (∀ (ts : List Token) (raw : Text) (specs : List DomainSpec) (lines : List UnknownParam),
      Separated ts raw →
      ((∀ t ∈ ts, t.Accepted) → Logged.parseAll lower raw (specs, lines) =
        .ok () (specs ++ ts.map Token.meaning, lines ++ ts.flatMap (Token.unknown lower))) ∧
      (∀ before t after ps p qs e, ts = before ++ t :: after → (∀ s ∈ before, s.Accepted) →
        t.params = ps ++ p :: qs → (∀ q ∈ ps, rejection q = none) → rejection p = some e →
        Logged.parseAll lower raw (specs, lines) = .error ⟨t.domain, e, some (paramKey p)⟩
          (specs ++ before.map Token.meaning,
            lines ++ (before.flatMap (Token.unknown lower) ++ ps.flatMap (unknown lower)))) ∧
      ∀ raw', Separated (ts.map Token.known) raw' →
        Logged.parseAll lower raw' (specs, lines) = ended (parseAll raw specs) lines) ∧
    ∀ (config : Config) (name : Text) (details details' : ContainerDetails),
      details.ipAddress = details'.ipAddress →
      List.Forall₂ Cleaned (DockerInspector.matchingValues config details.env)
        (DockerInspector.matchingValues config details'.env) →
      DockerInspector.inspection config name details' =
        DockerInspector.inspection config name details := by
  refine ⟨fun raw => ⟨_, logged_parseAll hlower raw⟩,
    fun ts raw specs lines h => ⟨fun haccepted => ?_,
      fun before t after ps p qs e hts hbefore hparams hps hp => ?_, fun raw' h' => ?_⟩,
    fun config name details details' haddress hvalues => inspection_cleaned haddress hvalues name⟩
  · obtain ⟨hcollect, hwarnings⟩ := collect_accepted lower haccepted []
    rw [List.append_nil, ← h.captures] at hcollect hwarnings
    rw [logged_parseAll hlower, hwarnings, parseAll_eq, parse_eq_collect, hcollect]
    simp [Outcome.pushTo, ended, warnings]
  · subst hts
    obtain ⟨hparsed, hheard⟩ := t.rejected lower hparams hps hp
    obtain ⟨hcollect, hwarnings⟩ := collect_accepted lower hbefore (t.pair :: after.map Token.pair)
    rw [← List.map_cons, ← List.map_append, ← h.captures, List.map_cons] at hcollect hwarnings
    rw [logged_parseAll hlower, hwarnings, parseAll_eq, parse_eq_collect, hcollect,
      Outcome.collect_cons_error hparsed, warnings, hparsed, hheard]
    simp [Outcome.pushTo, ended]
  · rw [logged_parseAll hlower, h'.captures, warnings_known, List.append_nil, parseAll_eq,
      parseAll_eq, h.parse_known h']

/-- A parameter of a later version. -/
def laterToken : Token :=
  ⟨"api.example.org".toList, by decide, true, ["v=2".toList, "http".toList], by decide⟩

def rejectedToken : Token :=
  ⟨"www.example.org".toList, by decide, false, ["gzip".toList, "https=x".toList], by decide⟩

private theorem toLowercase_law : LowerLaw Text.toLowercase where
  ascii _ _ := rfl
  other _ h := ⟨Text.toLowercase_ne h keys_ascii.1, Text.toLowercase_ne h keys_ascii.2⟩

theorem parseAll_warned_later :
    Logged.parseAll Text.toLowercase "api.example.org.:v=2:http".toList ([], []) =
      .ok () ([⟨"api.example.org".toList, some 80, none⟩], [⟨"v".toList, some "2".toList⟩]) ∧
    Logged.parseAll Text.toLowercase
        "api.example.org.:v=2:http www.example.org:gzip:https=x".toList ([], []) =
      .error ⟨"www.example.org".toList, .invalidDigit, some HTTPS⟩
        ([⟨"api.example.org".toList, some 80, none⟩],
          [⟨"v".toList, some "2".toList⟩, ⟨"gzip".toList, none⟩]) := by
  have hlater : ∀ t ∈ [laterToken], t.Accepted := by
    unfold Token.Accepted
    decide
  constructor
  · exact ((parseAll_warned _ toLowercase_law).2.1 [laterToken] _ [] [] (.last laterToken)).1 hlater
  · exact ((parseAll_warned _ toLowercase_law).2.1 [laterToken, rejectedToken] _ [] []
      (.cons laterToken Text.isWhitespace_space (.last rejectedToken))).2.1 [laterToken]
      rejectedToken [] ["gzip".toList] "https=x".toList [] .invalidDigit rfl hlater rfl (by decide)
      rfl

end Beachhead.DomainSpec
