import Beachhead.ParserOutcome

/-!
# When every parsed domain is the DOMAIN part of a token

The pattern is not anchored, so a token whose DOMAIN part is malformed can still
contribute a piece of itself. Counting shows that nothing else goes wrong: the
parsed names come from the tokens one by one exactly when each token is a name
with its parameters or contains no match at all.
-/
namespace Beachhead.DomainSpec
open Regex Regex.Pattern

/-- The text before the first `:` with at most one trailing `.` removed. -/
def domainPart (t : Text) : Text := Text.chopEnd '.' (Text.splitn2 ':' t).1

/-- The specs can be matched, in order, to distinct tokens of the text by their DOMAIN parts. -/
def TokensMatch (raw : Text) (out : List DomainSpec) : Prop :=
  ∃ ts : List Text, ts.Sublist (Text.splitWhitespace raw) ∧ out.map domainName = ts.map domainPart

def NamesFromTokens (raw : Text) (v : List DomainSpec) : Prop :=
  ∀ w, parseAll raw v = (.ok (), w) → ∃ out, w = v ++ out ∧ TokensMatch raw out

/-- The token is a well formed name with its parameters, or the pattern matches nowhere in it. -/
def CleanToken (t : Text) : Prop := IsDomain (domainPart t) ∨ DS_PAT.isMatch t = false

/-- The names the scan finds inside a token. -/
def found (t : Text) : List Text := (DS_PAT.capturesIter t).map capturedName

private theorem found_isDomain {t d : Text} (hd : d ∈ found t) : IsDomain d := by
  obtain ⟨c, hc, rfl⟩ := List.mem_map.mp hd
  exact (captures_mem hc).1

/-- A token is its DOMAIN part, an optional dot and the rest from the first colon on. -/
theorem token_split (t : Text) : ∃ dot r, t = domainPart t ++ (dot ++ r) ∧ IsDot dot ∧
    (r = [] ∨ ∃ p, r = ':' :: p) := by
  have hr : t.dropWhile (· != ':') = [] ∨ ∃ p, t.dropWhile (· != ':') = ':' :: p := by
    cases h : t.dropWhile (· != ':') with
    | nil => exact Or.inl rfl
    | cons c p =>
      have hc := List.head_dropWhile_not (· != ':') (l := t) (by simp [h])
      simp only [h, List.head_cons, bne_eq_false_iff_eq] at hc
      exact Or.inr ⟨p, by rw [hc]⟩
  have ht : t.takeWhile (· != ':') ++ t.dropWhile (· != ':') = t := List.takeWhile_append_dropWhile
  rcases Text.chopEnd_split '.' (t.takeWhile (· != ':')) with h | h
  · exact ⟨[], _, by rw [List.nil_append, domainPart, Text.splitn2, ← h, ht], Or.inl rfl, hr⟩
  · refine ⟨['.'], _, ?_, Or.inr rfl, hr⟩
    rw [domainPart, Text.splitn2, ← List.append_assoc, ← h, ht]

/-- In a well formed token the scan finds the DOMAIN part and nothing else. -/
theorem found_of_isDomain {t : Text} (hw : ∀ c ∈ t, Text.isWhitespace c = false)
    (hd : IsDomain (domainPart t)) : found t = [domainPart t] := by
  obtain ⟨dot, r, ht, hdot, hr⟩ := token_split t
  generalize domainPart t = d at hd ht ⊢
  have hname (g : Captures) : capturedName ((1, d ++ dot) :: g) = d := capturedName_eq hd hdot rfl
  have hscan : ∃ g, DS_PAT.capturesIter t = [(1, d ++ dot) :: g] := by
    subst ht
    rcases hr with rfl | ⟨p, rfl⟩
    · exact ⟨_, capturesIter_bare hd hdot (Or.inl rfl)⟩
    · by_cases hp : p = []
      · subst hp
        exact ⟨_, capturesIter_bare hd hdot (Or.inr rfl)⟩
      · exact ⟨_, capturesIter_params hd hdot hp fun c hc => hw c (by simp [hc])⟩
  obtain ⟨g, hg⟩ := hscan
  simp [found, hg, hname]

theorem found_eq_nil_iff (t : Text) : found t = [] ↔ DS_PAT.isMatch t = false := by
  simp [found, isMatch]

private theorem filter_length_le {α β : Type} (good : α → Bool) (o : α → List β) {l : List α}
    (hgood : ∀ a ∈ l, good a → (o a).length = 1) :
    (l.filter good).length ≤ (l.flatMap o).length := by
  induction l with
  | nil => simp
  | cons b l ih =>
    have hl := ih fun c hc => hgood c (List.mem_cons_of_mem b hc)
    rw [List.flatMap_cons, List.length_append]
    cases hb : good b with
    | true =>
      have h1 := hgood b (by simp) hb
      rw [List.filter_cons_of_pos hb, List.length_cons]
      omega
    | false =>
      rw [List.filter_cons_of_neg (by simp [hb])]
      omega

/-- A list that picks one good element for each output leaves no output to the others. -/
theorem no_bad_output {α β : Type} (good : α → Bool) (o : α → List β)
    {l ts : List α} (hgood : ∀ a ∈ l, good a → (o a).length = 1) (hsub : ts.Sublist l)
    (hts : ∀ a ∈ ts, good a) (hlen : ts.length = (l.flatMap o).length) :
    ∀ a ∈ l, good a = false → o a = [] := by
  induction hsub with
  | slnil => simp
  | @cons ts l a hsub ih =>
    have hl : ∀ b ∈ l, good b → (o b).length = 1 := fun b hb => hgood b (List.mem_cons_of_mem a hb)
    have hle : ts.length ≤ (l.filter good).length := by
      have h := (hsub.filter good).length_le
      rwa [List.filter_eq_self.mpr hts] at h
    have hcount := filter_length_le good o hl
    rw [List.flatMap_cons, List.length_append] at hlen
    rw [List.forall_mem_cons]
    exact ⟨fun _ => List.length_eq_zero_iff.mp (by omega), ih hl hts (by omega)⟩
  | @cons_cons ts l a hsub ih =>
    rw [List.forall_mem_cons] at hts
    have hl : ∀ b ∈ l, good b → (o b).length = 1 := fun b hb => hgood b (List.mem_cons_of_mem a hb)
    have h1 := hgood a (by simp) hts.1
    rw [List.flatMap_cons, List.length_append, List.length_cons, h1] at hlen
    rw [List.forall_mem_cons]
    exact ⟨fun hbad => absurd hts.1 (by simp [hbad]), ih hl hts.2 (by omega)⟩

private theorem parsed_names {cs : List Captures} {out : List DomainSpec}
    (h : List.Forall₂ (fun c s => parseCaptures c = .ok s) cs out) :
    out.map domainName = cs.map capturedName := by
  induction h with
  | nil => rfl
  | cons hs _ ih => rw [List.map_cons, List.map_cons, parseCaptures_name hs, ih]

private theorem names_eq {raw : Text} {out : List DomainSpec}
    (h : List.Forall₂ (fun c s => parseCaptures c = .ok s) (DS_PAT.capturesIter raw) out) :
    out.map domainName = (Text.splitWhitespace raw).flatMap found := by
  rw [parsed_names h, capturesIter_tokens, List.map_flatMap]
  rfl

/-- With clean tokens the names are the DOMAIN parts of the well formed ones. -/
theorem tokensMatch_of_clean {raw : Text} {out : List DomainSpec}
    (hclean : ∀ t ∈ Text.splitWhitespace raw, CleanToken t)
    (hout : out.map domainName = (Text.splitWhitespace raw).flatMap found) :
    TokensMatch raw out := by
  refine ⟨(Text.splitWhitespace raw).filter fun t => IsDomain (domainPart t),
    List.filter_sublist, ?_⟩
  have hw := fun t (ht : t ∈ Text.splitWhitespace raw) => Text.not_whitespace_of_mem ht
  rw [hout]
  generalize Text.splitWhitespace raw = l at hclean hw
  induction l with
  | nil => rfl
  | cons t l ih =>
    rw [List.forall_mem_cons] at hclean hw
    rw [List.flatMap_cons, ih hclean.2 hw.2]
    by_cases hd : IsDomain (domainPart t)
    · rw [found_of_isDomain hw.1 hd, List.filter_cons_of_pos (by simpa using hd)]
      rfl
    · rw [(found_eq_nil_iff t).mpr (hclean.1.resolve_left hd),
        List.filter_cons_of_neg (by simpa using hd)]
      rfl

private theorem clean_of_tokensMatch {raw : Text} {out : List DomainSpec} (hm : TokensMatch raw out)
    (hout : out.map domainName = (Text.splitWhitespace raw).flatMap found) :
    ∀ t ∈ Text.splitWhitespace raw, CleanToken t := by
  obtain ⟨ts, hsub, hts⟩ := hm
  have hgood : ∀ t ∈ Text.splitWhitespace raw, decide (IsDomain (domainPart t)) →
      (found t).length = 1 := by
    intro t ht hd
    rw [found_of_isDomain (Text.not_whitespace_of_mem ht) (of_decide_eq_true hd)]
    rfl
  have hdom : ∀ t ∈ ts, decide (IsDomain (domainPart t)) := by
    intro t ht
    have hmem : domainPart t ∈ (Text.splitWhitespace raw).flatMap found := by
      rw [← hout, hts]
      exact List.mem_map_of_mem ht
    obtain ⟨u, -, hu⟩ := List.mem_flatMap.mp hmem
    exact decide_eq_true (found_isDomain hu)
  have hlen : ts.length = ((Text.splitWhitespace raw).flatMap found).length := by
    rw [← hout, hts, List.length_map]
  intro t ht
  by_cases hd : IsDomain (domainPart t)
  · exact Or.inl hd
  · have hnil := no_bad_output _ found hgood hsub hdom hlen t ht (decide_eq_false hd)
    exact Or.inr ((found_eq_nil_iff t).mp hnil)

/-- On every text the parser either rejects a port, or the parsed names come from the
tokens exactly when each token is clean. -/
theorem namesFromTokens_iff (raw : Text) (v : List DomainSpec) :
    NamesFromTokens raw v ↔
      PortRejected raw ∨ ∀ t ∈ Text.splitWhitespace raw, CleanToken t := by
  constructor
  · intro h
    by_cases hr : PortRejected raw
    · exact Or.inl hr
    · rw [← parseAll_error_iff raw v] at hr
      push Not at hr
      obtain ⟨w, hw⟩ := hr
      obtain ⟨out, rfl, hm⟩ := h w hw
      obtain ⟨out', ho, hall⟩ := (parseAll_ok_iff _ _ _).mp hw
      obtain rfl := List.append_cancel_left ho
      exact Or.inr (clean_of_tokensMatch hm (names_eq hall))
  · rintro (hr | hclean) w hw
    · exact absurd hw ((parseAll_error_iff raw v).mpr hr w)
    · obtain ⟨out, rfl, hall⟩ := (parseAll_ok_iff _ _ _).mp hw
      exact ⟨out, rfl, tokensMatch_of_clean hclean (names_eq hall)⟩

/-- `a` is too short for a name, and the scan goes on to publish the parameter `http`. -/
theorem not_namesFromTokens_short_name : ¬NamesFromTokens "a:http".toList [] := by
  intro h
  obtain ⟨out, ho, ts, hsub, hts⟩ := h [⟨"http".toList, some 80, some 443⟩] (by decide)
  rw [List.nil_append] at ho
  subst ho
  have htok : Text.splitWhitespace "a:http".toList = ["a:http".toList] := by decide
  rw [htok, List.sublist_singleton] at hsub
  rcases hsub with rfl | rfl
  · exact absurd hts (by decide)
  · exact absurd hts (by decide)

end Beachhead.DomainSpec
