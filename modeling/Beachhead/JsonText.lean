import Beachhead.Json
import Mathlib.Tactic.NormNum
import Mathlib.Data.List.TakeWhile

/-!
# Compact JSON text

The encoder writes no white space and escapes the quote, the backslash and the
control characters. The parser reads such texts; its fuel is the length of the text.
-/
namespace Beachhead.Json

/-- The control characters with an escape of their own, the quote and the backslash. -/
def shortEscapes : List (Char × Char) :=
  [('"', '"'), ('\\', '\\'), ('\x08', 'b'), ('\x0c', 'f'), ('\n', 'n'), ('\r', 'r'), ('\t', 't')]

def hexDigit (n : ℕ) : Char := Nat.digitChar n

def hexValue (c : Char) : ℕ := if c.isDigit then c.toNat - 48 else c.toNat - 87

def escapeChar (c : Char) : List Char :=
  match shortEscapes.lookup c with
  | some e => ['\\', e]
  | none =>
    if c.toNat < 32 || c.toNat == 127 then
      ['\\', 'u', '0', '0', hexDigit (c.toNat / 16), hexDigit (c.toNat % 16)]
    else [c]

def quote (s : List Char) : List Char := '"' :: (s.flatMap escapeChar ++ ['"'])

mutual
def encode : Value → List Char
  | .null => ['n', 'u', 'l', 'l']
  | .u64 n => Nat.toDigits 10 n.toNat
  | .string s => quote s
  | .array [] => ['[', ']']
  | .array (x :: xs) => '[' :: (encode x ++ encodeElems xs)
  | .object [] => ['{', '}']
  | .object (m :: ms) => '{' :: (encodeMember m ++ encodeMembers ms)

def encodeElems : List Value → List Char
  | [] => [']']
  | x :: xs => ',' :: (encode x ++ encodeElems xs)

def encodeMembers : List (List Char × Value) → List Char
  | [] => ['}']
  | m :: ms => ',' :: (encodeMember m ++ encodeMembers ms)

def encodeMember : List Char × Value → List Char
  | (k, v) => quote k ++ ':' :: encode v
end

/-- The rest of a string after its opening quote. -/
def readString : List Char → Option (List Char × List Char)
  | [] => none
  | '"' :: r => some ([], r)
  | '\\' :: 'u' :: '0' :: '0' :: h :: l :: r =>
    (readString r).map fun p => (Char.ofNat (16 * hexValue h + hexValue l) :: p.1, p.2)
  | '\\' :: e :: r => match shortEscapes.find? (·.2 == e) with
    | some (c, _) => (readString r).map fun p => (c :: p.1, p.2)
    | none => none
  | c :: r => (readString r).map fun p => (c :: p.1, p.2)

mutual
def readValue : ℕ → List Char → Option (Value × List Char)
  | 0, _ => none
  | _ + 1, [] => none
  | n + 1, c :: r =>
    if c = '"' then (readString r).map fun p => (.string p.1, p.2)
    else if c = '[' then
      if r.head? = some ']' then some (.array [], r.tail)
      else match readValue n r with
        | some (x, r) => (readElems n r).map fun p => (.array (x :: p.1), p.2)
        | none => none
    else if c = '{' then
      if r.head? = some '}' then some (.object [], r.tail)
      else match readMember n r with
        | some (m, r) => (readMembers n r).map fun p => (.object (m :: p.1), p.2)
        | none => none
    else if c.isDigit then
      some (.u64 (UInt64.ofNat (Nat.ofDigitChars 10 ((c :: r).takeWhile Char.isDigit) 0)),
        (c :: r).dropWhile Char.isDigit)
    else if r.take 3 = ['u', 'l', 'l'] then some (.null, r.drop 3)
    else none

def readElems : ℕ → List Char → Option (List Value × List Char)
  | 0, _ => none
  | _ + 1, ']' :: r => some ([], r)
  | n + 1, ',' :: r => match readValue n r with
    | some (x, r) => (readElems n r).map fun p => (x :: p.1, p.2)
    | none => none
  | _ + 1, _ => none

def readMembers : ℕ → List Char → Option (List (List Char × Value) × List Char)
  | 0, _ => none
  | _ + 1, '}' :: r => some ([], r)
  | n + 1, ',' :: r => match readMember n r with
    | some (m, r) => (readMembers n r).map fun p => (m :: p.1, p.2)
    | none => none
  | _ + 1, _ => none

def readMember : ℕ → List Char → Option ((List Char × Value) × List Char)
  | 0, _ => none
  | n + 1, '"' :: r => match readString r with
    | some (k, ':' :: r) => (readValue n r).map fun p => ((k, p.1), p.2)
    | _ => none
  | _ + 1, _ => none
end

/-- The whole text is one value. -/
def decode (s : List Char) : Option Value :=
  match readValue s.length s with
  | some (v, []) => some v
  | _ => none

private theorem hex_roundtrip : ∀ n < 128, Char.ofNat (16 * hexValue (hexDigit (n / 16)) +
    hexValue (hexDigit (n % 16))) = Char.ofNat n := by decide

private theorem readString_escapeChar (c : Char) (r : List Char) :
    readString (escapeChar c ++ r) = (readString r).map fun p => (c :: p.1, p.2) := by
  rw [escapeChar]
  split
  · rename_i e he
    have hmem : (c, e) ∈ shortEscapes := by
      simp only [shortEscapes, List.lookup_eq_some_iff] at he
      grind [shortEscapes]
    simp only [shortEscapes, List.mem_cons, Prod.mk.injEq, List.not_mem_nil, or_false] at hmem
    rcases hmem with ⟨rfl, rfl⟩ | ⟨rfl, rfl⟩ | ⟨rfl, rfl⟩ | ⟨rfl, rfl⟩ | ⟨rfl, rfl⟩ | ⟨rfl, rfl⟩ |
      ⟨rfl, rfl⟩ <;> rfl
  · rename_i hnone
    split
    · rename_i hc
      have hlt : c.toNat < 128 := by
        simp only [Bool.or_eq_true, decide_eq_true_eq, beq_iff_eq] at hc
        omega
      have h := hex_roundtrip c.toNat hlt
      rw [Char.ofNat_toNat] at h
      simp [readString, h]
    · have hq : c ≠ '"' := by
        rintro rfl
        exact absurd hnone (by decide)
      have hb : c ≠ '\\' := by
        rintro rfl
        exact absurd hnone (by decide)
      rw [List.singleton_append, readString]
      · exact hq
      · simp [hb]
      · simp [hb]

private theorem readString_quote (s r : List Char) :
    readString (s.flatMap escapeChar ++ '"' :: r) = some (s, r) := by
  induction s with
  | nil => simp [readString]
  | cons c s ih => rw [List.flatMap_cons, List.append_assoc, readString_escapeChar, ih]; rfl

/-- The text does not continue a number. -/
def NoDigit (r : List Char) : Prop := ∀ c ∈ r.head?, c.isDigit = false

private theorem noDigit_cons {c : Char} (h : c.isDigit = false) (r : List Char) :
    NoDigit (c :: r) := by
  simpa [NoDigit] using h

private theorem encodeElems_noDigit (xs : List Value) (r : List Char) :
    NoDigit (encodeElems xs ++ r) := by
  cases xs <;> exact noDigit_cons (by decide) _

private theorem encodeMembers_noDigit (ms : Object) (r : List Char) :
    NoDigit (encodeMembers ms ++ r) := by
  cases ms <;> exact noDigit_cons (by decide) _

private theorem digits_cons (n : ℕ) : ∃ c s, Nat.toDigits 10 n = c :: s ∧ c.isDigit := by
  obtain ⟨c, s, h⟩ := List.exists_cons_of_ne_nil (Nat.toDigits_ne_nil (n := n) (b := 10))
  exact ⟨c, s, h, Nat.isDigit_of_mem_toDigits (by norm_num) (by norm_num) (h ▸ List.mem_cons_self)⟩

/-- No value starts with a closing bracket. -/
theorem encode_cons (v : Value) : ∃ c s, encode v = c :: s ∧ c ≠ ']' := by
  cases v with
  | null => exact ⟨'n', _, rfl, by decide⟩
  | u64 n =>
    obtain ⟨c, s, h, hc⟩ := digits_cons n.toNat
    refine ⟨c, s, by rw [encode, h], ?_⟩
    rintro rfl
    exact absurd hc (by decide)
  | string s => exact ⟨'"', _, rfl, by decide⟩
  | array xs => cases xs <;> exact ⟨'[', _, rfl, by decide⟩
  | object ms => cases ms <;> exact ⟨'{', _, rfl, by decide⟩

private theorem encodeMember_cons (m : List Char × Value) : ∃ s, encodeMember m = '"' :: s := by
  obtain ⟨k, v⟩ := m
  exact ⟨_, rfl⟩

private theorem readValue_digits (m : UInt64) {n : ℕ} (hn : 0 < n) {r : List Char}
    (hr : NoDigit r) : readValue n (Nat.toDigits 10 m.toNat ++ r) = some (.u64 m, r) := by
  obtain ⟨k, rfl⟩ := Nat.exists_eq_add_of_le' hn
  obtain ⟨c, s, h, hc⟩ := digits_cons m.toNat
  have hall : ∀ d ∈ Nat.toDigits 10 m.toNat, d.isDigit := fun d hd =>
    Nat.isDigit_of_mem_toDigits (by norm_num) (by norm_num) hd
  have ht : (Nat.toDigits 10 m.toNat ++ r).takeWhile Char.isDigit = Nat.toDigits 10 m.toNat := by
    rw [List.takeWhile_append_of_pos hall]
    cases r with
    | nil => simp
    | cons d r =>
      have hd : d.isDigit = false := hr d (by simp)
      simp [hd]
  have hd : (Nat.toDigits 10 m.toNat ++ r).dropWhile Char.isDigit = r := by
    rw [List.dropWhile_append_of_pos hall]
    cases r with
    | nil => simp
    | cons d r =>
      have hd : d.isDigit = false := hr d (by simp)
      simp [hd]
  have hne (d : Char) (hd : d.isDigit = false) : c ≠ d := by
    rintro rfl
    simp [hd] at hc
  rw [h, List.cons_append] at ht hd ⊢
  rw [readValue, if_neg (hne '"' (by decide)), if_neg (hne '[' (by decide)),
    if_neg (hne '{' (by decide)), if_pos hc, ht, hd, ← h]
  simp

mutual
private theorem readValue_encode : ∀ (v : Value) (n : ℕ) (r : List Char), (encode v).length ≤ n →
    NoDigit r → readValue n (encode v ++ r) = some (v, r)
  | v, 0, r, hn, _ => by
    obtain ⟨c, s, h, -⟩ := encode_cons v
    simp [h] at hn
  | .null, n + 1, r, _, _ => by simp [encode, readValue]
  | .u64 m, n + 1, r, _, hr => readValue_digits m (by omega) hr
  | .string s, n + 1, r, _, _ => by
    simp [encode, quote, readValue, readString_quote]
  | .array [], n + 1, r, _, _ => by simp [encode, readValue]
  | .array (x :: xs), n + 1, r, hn, _ => by
    simp only [encode, List.length_cons, List.length_append] at hn
    have hx := readValue_encode x n (encodeElems xs ++ r) (by omega) (encodeElems_noDigit xs r)
    have hxs := readElems_encode xs n r (by omega)
    obtain ⟨c, s, h, hc⟩ := encode_cons x
    have hhead : (encode x ++ (encodeElems xs ++ r)).head? ≠ some ']' := by simpa [h] using hc
    simp only [encode, List.cons_append, List.append_assoc, readValue, if_neg hhead, hx, hxs]
    simp
  | .object [], n + 1, r, _, _ => by simp [encode, readValue]
  | .object (m :: ms), n + 1, r, hn, _ => by
    simp only [encode, List.length_cons, List.length_append] at hn
    have hm := readMember_encode m n (encodeMembers ms ++ r) (by omega) (encodeMembers_noDigit ms r)
    have hms := readMembers_encode ms n r (by omega)
    obtain ⟨s, hs⟩ := encodeMember_cons m
    have hhead : (encodeMember m ++ (encodeMembers ms ++ r)).head? ≠ some '}' := by simp [hs]
    simp only [encode, List.cons_append, List.append_assoc, readValue, if_neg hhead, hm, hms]
    simp

theorem readElems_encode : ∀ (xs : List Value) (n : ℕ) (r : List Char),
    (encodeElems xs).length ≤ n → readElems n (encodeElems xs ++ r) = some (xs, r)
  | [], 0, r, hn | _ :: _, 0, r, hn => by simp [encodeElems] at hn
  | [], n + 1, r, _ => by simp [encodeElems, readElems]
  | x :: xs, n + 1, r, hn => by
    simp only [encodeElems, List.length_cons, List.length_append] at hn
    have hx := readValue_encode x n (encodeElems xs ++ r) (by omega) (encodeElems_noDigit xs r)
    have hxs := readElems_encode xs n r (by omega)
    simp only [encodeElems, List.cons_append, List.append_assoc, readElems, hx, hxs]
    simp

theorem readMembers_encode : ∀ (ms : Object) (n : ℕ) (r : List Char),
    (encodeMembers ms).length ≤ n → readMembers n (encodeMembers ms ++ r) = some (ms, r)
  | [], 0, r, hn | _ :: _, 0, r, hn => by simp [encodeMembers] at hn
  | [], n + 1, r, _ => by simp [encodeMembers, readMembers]
  | m :: ms, n + 1, r, hn => by
    simp only [encodeMembers, List.length_cons, List.length_append] at hn
    have hm := readMember_encode m n (encodeMembers ms ++ r) (by omega) (encodeMembers_noDigit ms r)
    have hms := readMembers_encode ms n r (by omega)
    simp only [encodeMembers, List.cons_append, List.append_assoc, readMembers, hm, hms]
    simp

theorem readMember_encode : ∀ (m : List Char × Value) (n : ℕ) (r : List Char),
    (encodeMember m).length ≤ n → NoDigit r → readMember n (encodeMember m ++ r) = some (m, r)
  | (k, v), 0, r, hn, _ => by simp [encodeMember, quote] at hn
  | (k, v), n + 1, r, hn, hr => by
    simp only [encodeMember, quote, List.length_cons, List.length_append] at hn
    have hv := readValue_encode v n r (by omega) hr
    simp only [encodeMember, quote, List.cons_append, List.append_assoc, readMember,
      List.nil_append, readString_quote, hv]
    simp
end

/-- Reading back the compact text of a value. -/
theorem decode_encode (v : Value) : decode (encode v) = some v := by
  have h := readValue_encode v (encode v).length [] le_rfl (by simp [NoDigit])
  rw [List.append_nil] at h
  rw [decode, h]

def compact : Codec := ⟨encode, decode, fun v _ => decode_encode v⟩

end Beachhead.Json
