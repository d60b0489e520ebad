import Beachhead.DomainParser
import Beachhead.Outcome

/-!
# Parsing a concatenation

What the parser does to a vector is to push the outcome of the text alone. White space
between two texts separates their outcomes, so parsing turns concatenation at white
space into the product of outcomes.
-/
namespace Beachhead.DomainSpec
open Regex Regex.Pattern

/-- The outcome of a text, whatever the vector. -/
def parse (raw : Text) : Outcome DomainSpecError DomainSpec :=
  Outcome.collect parseCaptures (DS_PAT.capturesIter raw)

private theorem parseEach_eq (cs : List Captures) (v : List DomainSpec) :
    parseEach cs v = (Outcome.collect parseCaptures cs).pushTo v := by
  induction cs generalizing v with
  | nil => exact (Outcome.one_pushTo v).symm
  | cons c cs ih =>
    cases h : parseCaptures c with
    | error e => simp [parseEach, h, Outcome.collect_cons_error h, Outcome.pushTo]
    | ok spec =>
      rw [Outcome.collect_cons_ok h]
      simp [parseEach, h, ih, Outcome.pushTo]

theorem parseAll_eq (raw : Text) (v : List DomainSpec) : parseAll raw v = (parse raw).pushTo v :=
  parseEach_eq _ v

/-- The parser succeeds exactly if every match is parsed. -/
theorem parseAll_ok_iff (raw : Text) (v w : List DomainSpec) : parseAll raw v = (.ok (), w) ↔
    ∃ out, w = v ++ out ∧
      List.Forall₂ (fun c s => parseCaptures c = .ok s) (DS_PAT.capturesIter raw) out := by
  rw [parseAll_eq, Outcome.pushTo]
  constructor
  · intro h
    obtain ⟨hresult, rfl⟩ := Prod.mk.inj h
    exact ⟨_, rfl, Outcome.collect_eq_ok_iff.mp (Outcome.ext hresult rfl)⟩
  · intro h
    obtain ⟨out, rfl, hout⟩ := h
    have hparse : parse raw = ⟨.ok (), out⟩ := Outcome.collect_eq_ok_iff.mpr hout
    rw [hparse]

/-- The parser fails exactly on the texts with a rejected port. -/
theorem parseAll_error_iff (raw : Text) (v : List DomainSpec) :
    (∀ w, parseAll raw v ≠ (.ok (), w)) ↔ PortRejected raw := by
  have hresult : (∀ w, parseAll raw v ≠ (.ok (), w)) ↔ ∃ e, (parse raw).result = .error e := by
    rw [parseAll_eq, Outcome.pushTo]
    cases (parse raw).result <;> simp
  rw [hresult, parse, Outcome.collect_error_iff]
  simp only [parseCaptures_error_iff]
  rfl

@[simp] theorem parse_nil : parse [] = 1 := rfl

theorem parse_sep (a : Text) {c : Char} (hc : Text.isWhitespace c) (b : Text) :
    parse (a ++ c :: b) = parse a * parse b := by
  have hcaptures : DS_PAT.capturesIter (a ++ c :: b) =
      DS_PAT.capturesIter a ++ DS_PAT.capturesIter b :=
    capturesIter_sep DS_PAT_proper DS_PAT_avoids a b hc
  rw [parse, hcaptures, Outcome.collect_append, parse, parse]

private theorem parse_whitespace_append {w : Text} (h : ∀ c ∈ w, Text.isWhitespace c) (b : Text) :
    parse (w ++ b) = parse b := by
  induction w with
  | nil => rfl
  | cons c w ih =>
    rw [List.forall_mem_cons] at h
    have hsep : parse ([] ++ c :: (w ++ b)) = parse [] * parse (w ++ b) := parse_sep [] h.1 _
    rw [List.nil_append, parse_nil, one_mul] at hsep
    rw [List.cons_append, hsep, ih h.2]

/-- White space separates the outcomes of the texts around it. -/
theorem parse_append (a b : Text) {w : Text} (hw : w ≠ []) (h : ∀ c ∈ w, Text.isWhitespace c) :
    parse (a ++ w ++ b) = parse a * parse b := by
  obtain ⟨c, w, rfl⟩ := List.exists_cons_of_ne_nil hw
  rw [List.forall_mem_cons] at h
  rw [List.append_assoc, List.cons_append, parse_sep a h.1, parse_whitespace_append h.2]

/-- Texts joined by single spaces are parsed one after the other. -/
theorem parse_intercalate (texts : List Text) :
    parse ([' '].intercalate texts) = (texts.map parse).prod := by
  induction texts with
  | nil => rfl
  | cons a texts ih =>
    cases texts with
    | nil => simp
    | cons b texts =>
      rw [List.intercalate_cons_cons, List.append_assoc, List.singleton_append,
        parse_sep a Text.isWhitespace_space, ih, ← List.prod_cons, ← List.map_cons]

/-- Parsing a concatenation at white space, of ASCII or not, is parsing the first part and then,
only if that succeeded, the second. The parser keeps the vector and appends what the text alone
gives. -/
theorem parseAll_append (a b w : Text) (hw : w ≠ []) (h : ∀ c ∈ w, Text.isWhitespace c) :
    (∀ v u, parseAll a v = (.ok (), u) → parseAll (a ++ w ++ b) v = parseAll b u) ∧
    (∀ v e u, parseAll a v = (.error e, u) → parseAll (a ++ w ++ b) v = (.error e, u)) ∧
    ∀ raw, ∃ result pushed, ∀ v, parseAll raw v = (result, v ++ pushed) := by
  refine ⟨fun v u ha => ?_, fun v e u ha => ?_, fun raw => ?_⟩
  · rw [parseAll_eq] at ha
    rw [parseAll_eq, parse_append a b hw h, Outcome.mul_pushTo_ok ha, parseAll_eq]
  · rw [parseAll_eq] at ha
    rw [parseAll_eq, parse_append a b hw h, Outcome.mul_pushTo_error ha]
  · exact ⟨(parse raw).result, (parse raw).pushed, fun v => parseAll_eq raw v⟩

/-- The first part fails at its second spec, which is malformed. -/
theorem parseAll_append_rejected :
    parseAll ("a.org".toList ++ "\t ".toList ++ "b.org:http".toList) [] =
      (.ok (), [⟨"a.org".toList, some 80, some 443⟩, ⟨"b.org".toList, some 80, none⟩]) ∧
    parseAll ("a.org b.org:http=x".toList ++ "\t ".toList ++ "c.org".toList) [] =
      (.error ⟨"b.org".toList, .invalidDigit, some HTTP⟩,
        [⟨"a.org".toList, some 80, some 443⟩]) := by
  have hblank : ∀ c ∈ "\t ".toList, Text.isWhitespace c := List.all_eq_true.mp (by decide)
  have hok := parseAll_append "a.org".toList "b.org:http".toList "\t ".toList (by decide) hblank
  have herror := parseAll_append "a.org b.org:http=x".toList "c.org".toList "\t ".toList
    (by decide) hblank
  constructor
  · rw [hok.1 [] [⟨"a.org".toList, some 80, some 443⟩] (by decide)]
    decide
  · exact herror.2.1 [] _ _ (by decide)

end Beachhead.DomainSpec
