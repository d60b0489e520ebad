import Beachhead.ParserOutcome

/-!
# The documented grammar and its meaning

`DOMAIN[.][:http[=PORT]][:https[=PORT]]`, separated by runs of spaces.
-/
namespace Beachhead.DomainSpec
open Regex Regex.Pattern

inductive PortPart where
  | absent
  | bare
  | port (p : UInt16)

structure SpecTree where
  domain : Text
  isDomain : IsDomain domain
  dot : Bool
  http : PortPart
  https : PortPart

namespace PortPart

def param (name : Text) : PortPart → List Text
  | .absent => []
  | .bare => [name]
  | .port p => [name ++ '=' :: Text.decimal p]

def toPort (default : UInt16) : PortPart → Option UInt16
  | .absent => none
  | .bare => some default
  | .port p => some p

def ofPort : Option UInt16 → PortPart
  | none => .absent
  | some p => .port p

end PortPart

namespace SpecTree

def params (t : SpecTree) : List Text := t.http.param HTTP ++ t.https.param HTTPS

def dotText (t : SpecTree) : Text := if t.dot then ['.'] else []

def render (t : SpecTree) : Text :=
  t.domain ++ (t.dotText ++ t.params.flatMap fun p => ':' :: p)

def meaning (t : SpecTree) : DomainSpec :=
  match t.http, t.https with
  | .absent, .absent => ⟨t.domain, some 80, some 443⟩
  | http, https => ⟨t.domain, http.toPort 80, https.toPort 443⟩

end SpecTree

/-- `raw` is the rendering of the trees in order, separated by non-empty runs of
spaces, with any number of spaces before and after. -/
inductive Rendered : List SpecTree → Text → Prop where
  | nil : Rendered [] []
  | space {ts raw} (h : Rendered ts raw) : Rendered ts (' ' :: raw)
  | last (t : SpecTree) : Rendered [t] t.render
  | cons (t : SpecTree) {ts raw} (h : Rendered ts raw) : Rendered (t :: ts) (t.render ++ ' ' :: raw)

/-- A spec with a well formed name and at least one port. -/
def PrintableSpec : Type :=
  { s : DomainSpec // IsDomain s.domainName ∧ (s.httpPort.isSome ∨ s.httpsPort.isSome) }

def PrintableSpec.print (s : PrintableSpec) : SpecTree :=
  ⟨s.val.domainName, s.property.1, false, .ofPort s.val.httpPort, .ofPort s.val.httpsPort⟩

private theorem PrintableSpec.meaning_print (s : PrintableSpec) : s.print.meaning = s.val := by
  obtain ⟨⟨d, http, https⟩, hd, hp⟩ := s
  cases http with
  | some p => cases https <;> rfl
  | none =>
    cases https with
    | some p => rfl
    | none => simp at hp

private theorem isDot_dotText (t : SpecTree) : IsDot t.dotText := by
  cases h : t.dot <;> simp [SpecTree.dotText, h, IsDot]

private theorem not_mem_decimal {c : Char} (hc : c.isDigit = false) (p : UInt16) :
    c ∉ Text.decimal p := by
  intro h
  exact absurd (Text.decimal_isDigit p c h) (by simp [hc])

private theorem not_whitespace_of_isDigit {c : Char} (h : c.isDigit) :
    Text.isWhitespace c = false := by
  refine not_whitespace_of_inner (inner_of_alnum ?_)
  simp only [alnum, Bool.or_eq_true, Bool.and_eq_true, decide_eq_true_eq]
  simp only [Char.isDigit, Bool.and_eq_true, decide_eq_true_eq] at h
  exact Or.inr h

private theorem name_chars : ∀ name ∈ [HTTP, HTTPS], ':' ∉ name ∧ (∀ c ∈ name, c ≠ '=') ∧
    ∀ c ∈ name, Text.isWhitespace c = false := by
  intro name hname
  have hall : [HTTP, HTTPS].all (fun name =>
      name.all fun c => c != ':' && c != '=' && !Text.isWhitespace c) = true := by decide
  have h : ∀ c ∈ name, (c ≠ ':' ∧ c ≠ '=') ∧ Text.isWhitespace c = false := by
    simpa using List.all_eq_true.mp hall name hname
  exact ⟨fun hc => (h ':' hc).1.1 rfl, fun c hc => (h c hc).1.2, fun c hc => (h c hc).2⟩

/-- What a parameter of the grammar may consist of. -/
theorem param_chars (name : Text) (hn : ':' ∉ name ∧ ∀ c ∈ name, Text.isWhitespace c = false)
    (x : PortPart) : ∀ p ∈ x.param name,
      ':' ∉ p ∧ (name ≠ [] → p ≠ []) ∧ ∀ c ∈ p, Text.isWhitespace c = false := by
  cases x with
  | absent => simp [PortPart.param]
  | bare => simpa [PortPart.param] using hn
  | port q =>
    have hcolon := not_mem_decimal (c := ':') (by decide) q
    have hspace : ∀ c ∈ Text.decimal q, Text.isWhitespace c = false := fun c hc =>
      not_whitespace_of_isDigit (Text.decimal_isDigit q c hc)
    have heq : Text.isWhitespace '=' = false := by decide
    rw [PortPart.param, List.forall_mem_singleton]
    refine ⟨by simp [hn.1, hcolon], by simp, ?_⟩
    simp only [List.mem_append, List.mem_cons]
    rintro c (hc | rfl | hc)
    · exact hn.2 c hc
    · exact heq
    · exact hspace c hc

private theorem params_chars (t : SpecTree) : ∀ p ∈ t.params,
    ':' ∉ p ∧ p ≠ [] ∧ ∀ c ∈ p, Text.isWhitespace c = false := by
  intro p hp
  rcases List.mem_append.mp hp with hp | hp
  · have hname := name_chars HTTP (by simp)
    have h := param_chars HTTP ⟨hname.1, hname.2.2⟩ t.http p hp
    exact ⟨h.1, h.2.1 (by decide), h.2.2⟩
  · have hname := name_chars HTTPS (by simp)
    have h := param_chars HTTPS ⟨hname.1, hname.2.2⟩ t.https p hp
    exact ⟨h.1, h.2.1 (by decide), h.2.2⟩

private theorem paramParts_port (name : Text) (hn : ∀ a ∈ name, a ≠ '=')
    (hw : ∀ c ∈ name, Text.isWhitespace c = false) (p : UInt16) :
    paramParts (name ++ '=' :: Text.decimal p) =
      (Text.toLowercase name, some (Text.decimal p)) := by
  have htrim : Text.trim (Text.decimal p) = Text.decimal p := Text.trim_eq_self fun c hc =>
    not_whitespace_of_isDigit (Text.decimal_isDigit p c hc)
  rw [paramParts, Text.splitn2_append hn]
  simp [Text.trim_eq_self hw, htrim]

private theorem parsePort_decimal (key : Text) (p : UInt16) (spec : DomainSpec) :
    parsePort key (some (Text.decimal p)) spec = .ok (some p) := by
  simp [parsePort, optionalResult, Text.fromStrRadix_decimal]

private theorem foldlM_http (x : PortPart) (spec : DomainSpec) :
    (x.param HTTP).foldlM applyParam spec =
      .ok { spec with httpPort := (x.toPort 80).or spec.httpPort } := by
  cases x with
  | absent => rfl
  | bare => rfl
  | port p =>
    have hname := name_chars HTTP (by simp)
    have h := paramParts_port HTTP hname.2.1 hname.2.2 p
    have hl : Text.toLowercase HTTP = HTTP := by decide
    simp only [PortPart.param, List.foldlM_cons, List.foldlM_nil, bind_pure, applyParam, h]
    simp [hl, parsePort_decimal, Except.map, PortPart.toPort]

private theorem foldlM_https (x : PortPart) (spec : DomainSpec) :
    (x.param HTTPS).foldlM applyParam spec =
      .ok { spec with httpsPort := (x.toPort 443).or spec.httpsPort } := by
  cases x with
  | absent => rfl
  | bare => rfl
  | port p =>
    have hname := name_chars HTTPS (by simp)
    have h := paramParts_port HTTPS hname.2.1 hname.2.2 p
    have hl : Text.toLowercase HTTPS = HTTPS := by decide
    have hne : ¬HTTPS = HTTP := by decide
    simp only [PortPart.param, List.foldlM_cons, List.foldlM_nil, bind_pure, applyParam, h]
    simp [hl, hne, parsePort_decimal, Except.map, PortPart.toPort]

/-- The parameter loop and the default rule on the parameters of a tree. -/
theorem foldlM_params (t : SpecTree) :
    (t.params.foldlM applyParam ⟨t.domain, none, none⟩).map withDefaults = .ok t.meaning := by
  rw [SpecTree.params, List.foldlM_append, foldlM_http]
  simp only [bind, Except.bind, foldlM_https]
  cases hh : t.http <;> cases hs : t.https <;>
    simp [SpecTree.meaning, hh, hs, PortPart.toPort, withDefaults, Except.map]

theorem rawParams_captured (d : Text) {p : Text} (hw : ∀ c ∈ p, Text.isWhitespace c = false)
    (g : Text) : rawParams [(1, d), (3, p), (2, g)] = Text.split ':' p := by
  have h : rawParams [(1, d), (3, p), (2, g)] = Text.split ':' (Text.trim p) := rfl
  rw [h, Text.trim_eq_self hw]

/-- The one match in a name with parameters, which a dangling colon is not. -/
theorem capturesIter_listed {d dot : Text} (hd : IsDomain d) (hdot : IsDot dot) {ps : List Text}
    (hps : ∀ p ∈ ps, ':' ∉ p ∧ ∀ c ∈ p, Text.isWhitespace c = false) (hne : ps ≠ [[]]) :
    ∃ c, DS_PAT.capturesIter (d ++ (dot ++ ps.flatMap fun p => ':' :: p)) = [c] ∧
      capturedName c = d ∧ rawParams c = ps := by
  have hname (g : Captures) : capturedName ((1, d ++ dot) :: g) = d := capturedName_eq hd hdot rfl
  cases ps with
  | nil => exact ⟨_, capturesIter_bare hd hdot (Or.inl rfl), hname _, rfl⟩
  | cons q qs =>
    have hnil : q ++ qs.flatMap (fun p => ':' :: p) ≠ [] := by
      rintro hempty
      obtain ⟨rfl, hqs⟩ := List.append_eq_nil_iff.mp hempty
      cases qs with
      | nil => exact hne rfl
      | cons p qs => simp at hqs
    have hw : ∀ c ∈ q ++ qs.flatMap (fun p => ':' :: p), Text.isWhitespace c = false := by
      intro c hc
      rw [List.mem_append, List.mem_flatMap] at hc
      rcases hc with hc | ⟨p, hp, hc⟩
      · exact (hps q (by simp)).2 c hc
      · rcases List.mem_cons.mp hc with rfl | hc
        · exact Text.not_whitespace_colon
        · exact (hps p (by simp [hp])).2 c hc
    have hsplit := Text.split_join fun p hp => (hps p hp).1
    exact ⟨_, capturesIter_params hd hdot hnil hw, hname _,
      (rawParams_captured _ hw _).trans hsplit⟩

/-- The one match in a rendered tree. -/
theorem capturesIter_render (t : SpecTree) : ∃ c, DS_PAT.capturesIter t.render = [c] ∧
    capturedName c = t.domain ∧ rawParams c = t.params := by
  have hchars := params_chars t
  refine capturesIter_listed t.isDomain (isDot_dotText t)
    (fun p hp => ⟨(hchars p hp).1, (hchars p hp).2.2⟩) fun h => ?_
  exact (hchars [] (by simp [h])).2.1 rfl

private theorem parse_render (t : SpecTree) : parse t.render = ⟨.ok (), [t.meaning]⟩ := by
  obtain ⟨c, hc, hn, hp⟩ := capturesIter_render t
  have hparse : parseCaptures c = .ok t.meaning := by
    rw [parseCaptures, hn, hp, foldlM_params]
  rw [parse, hc, Outcome.collect_cons_ok hparse]
  rfl

theorem parse_rendered {ts : List SpecTree} {raw : Text} (h : Rendered ts raw) :
    parse raw = ⟨.ok (), ts.map SpecTree.meaning⟩ := by
  induction h with
  | nil => rfl
  | @space ts raw h ih =>
    have hsep : parse ([] ++ ' ' :: raw) = parse [] * parse raw :=
      parse_sep [] Text.isWhitespace_space raw
    rw [List.nil_append, parse_nil, one_mul] at hsep
    rw [hsep, ih]
  | last t => exact parse_render t
  | @cons t ts raw h ih =>
    rw [parse_sep t.render Text.isWhitespace_space raw, parse_render, ih]
    rfl

/-- The parser accepts the whole grammar with its meaning, and so undoes printing. -/
theorem parseAll_rendered :
    (∀ (ts : List SpecTree) (raw : Text) (v : List DomainSpec), Rendered ts raw →
      parseAll raw v = (.ok (), v ++ ts.map SpecTree.meaning)) ∧
    (∀ (specs : List PrintableSpec) (raw : Text) (v : List DomainSpec),
      Rendered (specs.map PrintableSpec.print) raw →
      parseAll raw v = (.ok (), v ++ specs.map Subtype.val)) := by
  have hrendered (ts : List SpecTree) (raw : Text) (v : List DomainSpec) (h : Rendered ts raw) :
      parseAll raw v = (.ok (), v ++ ts.map SpecTree.meaning) := by
    rw [parseAll_eq, parse_rendered h]
    rfl
  refine ⟨hrendered, fun specs raw v h => ?_⟩
  have hmeaning : (specs.map PrintableSpec.print).map SpecTree.meaning = specs.map Subtype.val := by
    rw [List.map_map]
    exact List.map_congr_left fun s _ => s.meaning_print
  rw [hrendered _ raw v h, hmeaning]

def exampleTree : SpecTree := ⟨"example.org".toList, by decide, true, .bare, .port 8043⟩

def exampleSpec : PrintableSpec := ⟨⟨"app.example.org".toList, some 8080, none⟩, by decide⟩

theorem parseAll_rendered_example :
    parseAll (' ' :: (exampleTree.render ++ ' ' :: ' ' :: exampleTree.render)) [] =
      (.ok (), [exampleTree.meaning, exampleTree.meaning]) ∧
    parseAll exampleSpec.print.render [] = (.ok (), [exampleSpec.val]) :=
  ⟨parseAll_rendered.1 [exampleTree, exampleTree] _ []
    (.space (.cons exampleTree (.space (.last exampleTree)))),
    parseAll_rendered.2 [exampleSpec] _ [] (.last exampleSpec.print)⟩

end Beachhead.DomainSpec
