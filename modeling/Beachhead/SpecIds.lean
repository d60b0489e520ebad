import Beachhead.ParsedSpecs
import Beachhead.PublishedValue

/-!
# When two published ids are equal

An id keeps the letters and digits of a name and writes `_` for the dots and the dashes,
so it does not tell a dot from a dash and keeps everything else apart.
-/
namespace Beachhead.DomainSpec
open Json JsonSerializer

/-- The names differ at most where one has a dot and the other a dash. -/
def SameUpToDashes (d d' : Text) : Prop :=
  List.Forall₂ (fun a b => a = b ∨ (a = '.' ∧ b = '-') ∨ (a = '-' ∧ b = '.')) d d'

/-- The text that an entry of the published array has in a field. -/
def entryField (field : Text) (entry : Value) : Option Text := do
  (← (← entry.asObject).get field).asString

theorem map_eq_map_iff {α β : Type} {f : α → β} {P : α → Prop} {Q : α → α → Prop}
    (h : ∀ a b, P a → P b → (f a = f b ↔ Q a b)) {l m : List α} (hl : ∀ a ∈ l, P a)
    (hm : ∀ a ∈ m, P a) : l.map f = m.map f ↔ List.Forall₂ Q l m := by
  induction l generalizing m with
  | nil =>
    cases m with
    | nil => simp
    | cons b m => simp
  | cons a l ih =>
    cases m with
    | nil => simp
    | cons b m =>
      rw [List.forall_mem_cons] at hl hm
      rw [List.map_cons, List.map_cons, List.cons.injEq, List.forall₂_cons, h a b hl.1 hm.1,
        ih hl.2 hm.2]

private theorem idChar_alnum {c : Char} (h : alnum c) :
    idChar c = c ∧ c ≠ '.' ∧ c ≠ '-' ∧ c ≠ '_' := by
  have hne (b : Char) (hb : alnum b = false) : c ≠ b := by
    rintro rfl
    rw [hb] at h
    cases h
  exact ⟨if_pos (by simp [h]), hne _ (by decide), hne _ (by decide), hne _ (by decide)⟩

private theorem inner_cases {c : Char} (h : inner c) : alnum c ∨ c = '.' ∨ c = '-' := by
  simpa [inner, or_assoc] using h

theorem idChar_eq_iff (a b : Char) (ha : inner a) (hb : inner b) :
    idChar a = idChar b ↔ a = b ∨ (a = '.' ∧ b = '-') ∨ (a = '-' ∧ b = '.') := by
  have hdot : idChar '.' = '_' := by decide
  have hdash : idChar '-' = '_' := by decide
  obtain ha | ha := inner_cases ha
  · obtain ⟨haid, hadot, hadash, hascore⟩ := idChar_alnum ha
    obtain hb | rfl | rfl := inner_cases hb
    · simp [haid, (idChar_alnum hb).1, hadot, hadash]
    · simp [haid, hdot, hadot, hadash, hascore]
    · simp [haid, hdash, hadot, hadash, hascore]
  · obtain hb | hb := inner_cases hb
    · obtain ⟨hbid, hbdot, hbdash, hbscore⟩ := idChar_alnum hb
      obtain rfl | rfl := ha
      · simp [hbid, hdot, hbdot, hbdash, Ne.symm hbscore, Ne.symm hbdot]
      · simp [hbid, hdash, hbdot, hbdash, Ne.symm hbscore, Ne.symm hbdash]
    · obtain rfl | rfl := ha <;> obtain rfl | rfl := hb <;> decide

/-- Two names of the parser have the same id exactly if they differ only in dots and dashes. -/
theorem specId_eq_iff {s s' : DomainSpec} (h : ∀ c ∈ s.domainName, inner c)
    (h' : ∀ c ∈ s'.domainName, inner c) :
    s.specId = s'.specId ↔ SameUpToDashes s.domainName s'.domainName := by
  rw [specId_eq, specId_eq]
  exact map_eq_map_iff idChar_eq_iff h h'

private theorem entryField_domainConfig (host : Text) (spec : DomainSpec) :
    entryField JSON_DOMAIN (.object (domainConfig host spec)) = some spec.domainName ∧
      entryField JSON_ID (.object (domainConfig host spec)) = some spec.specId := by
  rw [domainConfig_eq]
  obtain ⟨d, http, https⟩ := spec
  cases http <;> cases https <;> exact ⟨rfl, rfl⟩

/-- Two entries of a parsed and published environment value have the same id exactly if their
domains differ at most in that one has a dash where the other has a dot. So entries with
different domains have different ids unless that is all they differ in. -/
theorem published_id_eq_iff (raw : Text) (specs : List DomainSpec)
    (h : parseAll raw [] = (.ok (), specs)) (host : Text) :
    ∀ entry ∈ domainConfigs host specs, ∀ entry' ∈ domainConfigs host specs,
      ∃ d d', entryField JSON_DOMAIN entry = some d ∧ entryField JSON_DOMAIN entry' = some d' ∧
        (entryField JSON_ID entry = entryField JSON_ID entry' ↔ SameUpToDashes d d') := by
  have hinner : ∀ spec ∈ specs, ∀ c ∈ spec.domainName, inner c := by
    intro spec hspec
    rw [parseAll_eq] at h
    obtain rfl : [] ++ (parse raw).pushed = specs := (Prod.mk.inj h).2
    exact (parse_wellFormed hspec).inner
  rw [domainConfigs, List.forall_mem_map]
  intro s hs
  rw [List.forall_mem_map]
  intro s' hs'
  obtain ⟨hdomain, hid⟩ := entryField_domainConfig host s
  obtain ⟨hdomain', hid'⟩ := entryField_domainConfig host s'
  refine ⟨_, _, hdomain, hdomain', ?_⟩
  rw [hid, hid', Option.some_inj]
  exact specId_eq_iff (hinner s hs) (hinner s' hs')

/-- A dash in place of a dot makes no difference to the id. -/
theorem published_id_eq_iff_dash : ∃ d d',
    domainConfigs []
        [⟨"a-b.org".toList, some 80, some 443⟩, ⟨"a.b.org".toList, some 80, some 443⟩] =
      [d, d'] ∧ entryField JSON_ID d = entryField JSON_ID d' := by
  refine ⟨_, _, rfl, ?_⟩
  obtain ⟨d, d', hd, hd', hiff⟩ := published_id_eq_iff "a-b.org a.b.org".toList
    [⟨"a-b.org".toList, some 80, some 443⟩, ⟨"a.b.org".toList, some 80, some 443⟩] (by decide) []
    _ List.mem_cons_self _ (List.mem_cons_of_mem _ List.mem_cons_self)
  obtain rfl := Option.some.inj ((entryField_domainConfig [] _).1.symm.trans hd)
  obtain rfl := Option.some.inj ((entryField_domainConfig [] _).1.symm.trans hd')
  apply hiff.mpr
  simp [SameUpToDashes]

/-- Two domains that are published with one id. -/
theorem not_published_id_injective : ¬∀ (raw : Text) (specs : List DomainSpec),
    parseAll raw [] = (.ok (), specs) → ∀ host, ∀ entry ∈ domainConfigs host specs,
      ∀ entry' ∈ domainConfigs host specs,
        entryField JSON_DOMAIN entry ≠ entryField JSON_DOMAIN entry' →
          entryField JSON_ID entry ≠ entryField JSON_ID entry' := by
  intro h
  have hparse : parseAll "my-app.org my.app.org".toList [] = (.ok (),
      [⟨"my-app.org".toList, some 80, some 443⟩, ⟨"my.app.org".toList, some 80, some 443⟩]) := by
    decide
  exact h _ _ hparse [] _ List.mem_cons_self _ (List.mem_cons_of_mem _ List.mem_cons_self)
    (by decide) (by decide)

end Beachhead.DomainSpec
