import Mathlib.Data.List.Basic

/-!
# JSON values

An object is an ordered map from field names to values. `Valid` values keep the
fields of every object in strictly increasing order, as the map does.
-/
namespace Beachhead.Json

inductive Value where
  | null
  | u64 (n : UInt64)
  | string (s : List Char)
  | array (xs : List Value)
  | object (ms : List (List Char × Value))

abbrev Object := List (List Char × Value)

namespace Object

def insert (k : List Char) (v : Value) : Object → Object
  | [] => [(k, v)]
  | (k', v') :: m =>
    if k = k' then (k, v) :: m
    else if k < k' then (k, v) :: (k', v') :: m
    else (k', v') :: insert k v m

def get (k : List Char) (m : Object) : Option Value := m.lookup k

end Object

mutual
/-- The fields of every object are strictly increasing. -/
def Valid : Value → Prop
  | .null | .u64 _ | .string _ => True
  | .array xs => ValidElems xs
  | .object ms => (ms.map Prod.fst).Pairwise (· < ·) ∧ ValidMembers ms

def ValidElems : List Value → Prop
  | [] => True
  | x :: xs => Valid x ∧ ValidElems xs

def ValidMembers : List (List Char × Value) → Prop
  | [] => True
  | m :: ms => ValidMember m ∧ ValidMembers ms

def ValidMember : List Char × Value → Prop
  | (_, v) => Valid v
end

theorem validElems_iff (xs : List Value) : ValidElems xs ↔ ∀ x ∈ xs, Valid x := by
  induction xs with
  | nil => simp [ValidElems]
  | cons x xs ih => simp [ValidElems, ih]

theorem validMembers_iff (ms : Object) : ValidMembers ms ↔ ∀ m ∈ ms, Valid m.2 := by
  induction ms with
  | nil => simp [ValidMembers]
  | cons m ms ih => rw [ValidMembers, ValidMember, ih, List.forall_mem_cons]

/-- An encoder of JSON values as text and the parser that undoes it. -/
structure Codec where
  encode : Value → List Char
  decode : List Char → Option Value
  decode_encode : ∀ j, Valid j → decode (encode j) = some j

theorem Codec.encode_injective (K : Codec) {i j : Value} (hi : Valid i) (hj : Valid j)
    (h : K.encode i = K.encode j) : i = j := by
  have h' := K.decode_encode i hi
  rw [h, K.decode_encode j hj] at h'
  exact (Option.some.inj h').symm

end Beachhead.Json
