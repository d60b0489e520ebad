import Mathlib.Data.List.Basic
import Mathlib.Data.Nat.Digits.Defs

/-!
# Strings and numerals of the Rust standard library

A `str` is the list of its characters. The functions below are the ones the
companion calls on strings, with the documented behaviour of the standard library.
-/
namespace Beachhead

abbrev Text := List Char

namespace Text

/-- The Unicode property `White_Space`: `char::is_whitespace` and the regex class `\s`. -/
def isWhitespace (c : Char) : Bool :=
  let n := c.toNat
  (9 ≤ n && n ≤ 13) || n == 0x20 || n == 0x85 || n == 0xa0 || n == 0x1680 ||
    (0x2000 ≤ n && n ≤ 0x200a) || n == 0x2028 || n == 0x2029 || n == 0x202f ||
    n == 0x205f || n == 0x3000

/-- `str::split_whitespace`. -/
def splitWhitespace (s : Text) : List Text :=
  (s.splitOnP isWhitespace).filter fun t => !t.isEmpty

/-- `str::trim`. -/
def trim (s : Text) : Text :=
  ((s.dropWhile isWhitespace).reverse.dropWhile isWhitespace).reverse

/-- `str::to_lowercase` on ASCII. The parser asks whether the result is `http` or `https`, and no
character outside ASCII has one of their letters as its lower case. -/
def toLowercase (s : Text) : Text := s.map Char.toLower

/-- `str::split`. -/
def split (c : Char) (s : Text) : List Text := s.splitOnP (· == c)

/-- `str::splitn(2, c)`: the part before the first `c` and, if there is one, the part after it. -/
def splitn2 (c : Char) (s : Text) : Text × Option Text :=
  (s.takeWhile (· != c), (s.dropWhile (· != c)).tail?)

/-- `str::ends_with` followed by cutting the character off. -/
def chopEnd (c : Char) (s : Text) : Text := if s.getLast? = some c then s.dropLast else s

inductive ParseIntError where
  | empty | invalidDigit | overflow
  deriving DecidableEq, Repr

/-- The loop of `u16::from_str_radix`. The checked multiplication and the checked
addition report the same error, so one comparison stands for both. -/
def readDigits : ℕ → Text → Except ParseIntError ℕ
  | n, [] => .ok n
  | n, c :: s =>
    if c.isDigit then
      let m := 10 * n + (c.toNat - '0'.toNat)
      if m < 65536 then readDigits m s else .error .overflow
    else .error .invalidDigit

/-- `u16::from_str_radix(s, 10)`: a leading `+` is allowed, a sign alone is not. -/
def fromStrRadix : Text → Except ParseIntError UInt16
  | [] => .error .empty
  | ['+'] => .error .invalidDigit
  | '+' :: s => (readDigits 0 s).map UInt16.ofNat
  | s => (readDigits 0 s).map UInt16.ofNat

/-- A port in decimal. -/
def decimal (p : UInt16) : Text := Nat.toDigits 10 p.toNat

theorem isWhitespace_space : isWhitespace ' ' = true := by decide

theorem not_whitespace_colon : isWhitespace ':' = false := by decide

theorem forall_mem_splitOnP (p : Char → Bool) (s : Text) :
    ∀ t ∈ s.splitOnP p, ∀ c ∈ t, p c = false ∧ c ∈ s := by
  induction s with
  | nil => simp
  | cons a s ih =>
    have hcons : ∀ t ∈ s.splitOnP p, ∀ c ∈ t, p c = false ∧ c ∈ a :: s := fun t ht c hc =>
      ⟨(ih t ht c hc).1, List.mem_cons_of_mem a (ih t ht c hc).2⟩
    rw [List.splitOnP_cons_eq_if_modifyHead]
    obtain ⟨u, l, hul⟩ := List.exists_cons_of_ne_nil (List.splitOnP_ne_nil p s)
    rw [hul, List.forall_mem_cons] at hcons
    rw [hul]
    by_cases ha : p a
    · rw [if_pos ha, List.forall_mem_cons, List.forall_mem_cons]
      exact ⟨by simp, hcons⟩
    · rw [if_neg ha, List.modifyHead_cons, List.forall_mem_cons, List.forall_mem_cons]
      exact ⟨⟨⟨by simpa using ha, List.mem_cons_self⟩, hcons.1⟩, hcons.2⟩

theorem not_whitespace_of_mem {s t : Text} (ht : t ∈ splitWhitespace s) :
    ∀ c ∈ t, isWhitespace c = false := fun c hc =>
  (forall_mem_splitOnP isWhitespace s t (List.mem_of_mem_filter ht) c hc).1

theorem trim_eq_self {s : Text} (h : ∀ c ∈ s, isWhitespace c = false) : trim s = s := by
  have hd (t : Text) (ht : ∀ c ∈ t, isWhitespace c = false) : t.dropWhile isWhitespace = t := by
    cases t with
    | nil => rfl
    | cons c t => exact List.dropWhile_cons_of_neg (by simp [ht c])
  rw [trim, hd s h, hd _ (by simpa using h), List.reverse_reverse]

/-- A text with a character outside ASCII keeps it, so it does not become a text in ASCII. -/
theorem toLowercase_ne {s t : Text} (hs : ∃ c ∈ s, 128 ≤ c.toNat) (ht : ∀ c ∈ t, c.toNat < 128) :
    toLowercase s ≠ t := by
  rintro rfl
  obtain ⟨c, hc, hlarge⟩ := hs
  have hnot : ¬(c.val ≥ 'A'.val ∧ c.val ≤ 'Z'.val) := by
    rintro ⟨-, hle⟩
    have hsmall : c.toNat ≤ 'Z'.toNat := UInt32.le_iff_toNat_le.mp hle
    exact absurd (hlarge.trans hsmall) (by decide)
  have hlower : c.toLower = c := dif_neg hnot
  have hsmall := ht c (List.mem_map.mpr ⟨c, hc, hlower⟩)
  omega

theorem splitn2_append {c : Char} {s : Text} (hs : ∀ a ∈ s, a ≠ c) (t : Text) :
    splitn2 c (s ++ c :: t) = (s, some t) := by
  have hp : ∀ a ∈ s, (a != c) = true := by simpa using hs
  rw [splitn2, List.takeWhile_append_of_pos hp, List.dropWhile_append_of_pos hp]
  simp

/-- Splitting a joined list gives the list back. -/
theorem split_join {c : Char} {q : Text} {qs : List Text} (hq : ∀ p ∈ q :: qs, c ∉ p) :
    split c (q ++ qs.flatMap fun p => c :: p) = q :: qs := by
  have hne (p : Text) (hp : c ∉ p) : ∀ a ∈ p, (a == c) = false := by
    intro a ha
    exact beq_eq_false_iff_ne.mpr (by rintro rfl; exact hp ha)
  induction qs generalizing q with
  | nil =>
    rw [List.flatMap_nil, List.append_nil]
    exact List.splitOnP_eq_singleton (hne q (hq q (by simp)))
  | cons p qs ih =>
    rw [List.forall_mem_cons] at hq
    rw [List.flatMap_cons, List.cons_append, split,
      List.splitOnP_append_cons_of_forall_mem (hne q hq.1) c (by simp)]
    exact congrArg (q :: ·) (ih hq.2)

theorem mem_intercalate {x c : Char} {ps : List Text} (h : c ∈ [x].intercalate ps) :
    c = x ∨ ∃ p ∈ ps, c ∈ p := by
  induction ps with
  | nil => simp at h
  | cons p ps ih =>
    cases ps with
    | nil => exact .inr ⟨p, by simp, by simpa using h⟩
    | cons q ps =>
      rw [List.intercalate_cons_cons, List.mem_append, List.mem_append, List.mem_singleton] at h
      obtain (h | h) | h := h
      · exact .inr ⟨p, by simp, h⟩
      · exact .inl h
      · obtain h | ⟨r, hr, hc⟩ := ih h
        · exact .inl h
        · exact .inr ⟨r, List.mem_cons_of_mem p hr, hc⟩

theorem chopEnd_split (c : Char) (s : Text) : s = chopEnd c s ∨ s = chopEnd c s ++ [c] := by
  by_cases h : s.getLast? = some c
  · rw [chopEnd, if_pos h]
    exact Or.inr (List.dropLast_append_getLast? c h).symm
  · rw [chopEnd, if_neg h]
    exact Or.inl rfl

theorem le_ofDigitChars (s : Text) (n : ℕ) : n ≤ Nat.ofDigitChars 10 s n := by
  induction s generalizing n with
  | nil => simp
  | cons c s ih =>
    rw [Nat.ofDigitChars_cons]
    exact le_trans (by omega) (ih _)

theorem readDigits_eq {s : Text} (hs : ∀ c ∈ s, c.isDigit) {n : ℕ}
    (h : Nat.ofDigitChars 10 s n < 65536) : readDigits n s = .ok (Nat.ofDigitChars 10 s n) := by
  induction s generalizing n with
  | nil => simp [readDigits]
  | cons c s ih =>
    rw [Nat.ofDigitChars_cons] at h ⊢
    have hc : c.isDigit := hs c (by simp)
    have hm := lt_of_le_of_lt (le_ofDigitChars s _) h
    simp only [readDigits, hc, if_true, hm]
    exact ih (fun a ha => hs a (by simp [ha])) h

theorem decimal_isDigit (p : UInt16) : ∀ c ∈ decimal p, c.isDigit := fun _ hc =>
  Nat.isDigit_of_mem_toDigits (by norm_num) (by norm_num) hc

theorem decimal_ne_nil (p : UInt16) : decimal p ≠ [] := Nat.toDigits_ne_nil

/-- Reading back a decimal port. -/
theorem fromStrRadix_decimal (p : UInt16) : fromStrRadix (decimal p) = .ok p := by
  have hd : readDigits 0 (decimal p) = .ok p.toNat := by
    have he : Nat.ofDigitChars 10 (decimal p) 0 = p.toNat :=
      Nat.ofDigitChars_toDigits (by norm_num) (by norm_num)
    rw [readDigits_eq (decimal_isDigit p) (he ▸ p.toNat_lt), he]
  obtain ⟨c, s, hcs⟩ := List.exists_cons_of_ne_nil (decimal_ne_nil p)
  have hplus : c ≠ '+' := by
    rintro rfl
    exact absurd (decimal_isDigit p '+' (by simp [hcs])) (by decide)
  rw [hcs] at hd ⊢
  unfold fromStrRadix
  split
  · simp_all
  · simp_all
  · simp_all
  · simp [hd, Except.map]

end Text
end Beachhead
