import Beachhead.Coverage
import Beachhead.DateTime
import Beachhead.Text
import Beachhead.Json

/-!
# The Redis client and server

The client turns a call into the argument list of one request: a string is one
argument, a JSON value is one argument with its text, and a vector is the
concatenation of the arguments of its elements. The server is a parameter.
-/
namespace Beachhead.Redis

def stringArgs (s : Text) : List Text := [s]

def jsonArgs (K : Json.Codec) (j : Json.Value) : List Text := [K.encode j]

def vecArgs {α : Type} (args : α → List Text) (xs : List α) : List Text := xs.flatMap args

abbrev Request := List Text

def set (key value : List Text) : Request := "SET".toList :: (key ++ value)

def setEx (key value : List Text) (seconds : ℕ) : Request :=
  "SETEX".toList :: (key ++ Nat.toDigits 10 seconds :: value)

/-- A request may fail, at the connection or at the server. -/
structure RedisError where
  description : Text
  deriving DecidableEq

/-- A server in a world `ω`: it executes requests and `stored` is the value of a key. -/
structure Server (ω : Type) where
  execute : ω → Request → Except RedisError Unit × ω
  stored : ω → Text → Option Text

/-- What is relied on of `SETEX`: it sets its key to the value and touches no other key. -/
structure Server.SetExLaw {ω : Type} (R : Server ω) : Prop where
  self : ∀ w k v n, (R.execute w (setEx [k] [v] n)).1 = .ok () →
    R.stored (R.execute w (setEx [k] [v] n)).2 k = some v
  other : ∀ w k v n j, (R.execute w (setEx [k] [v] n)).1 = .ok () → j ≠ k →
    R.stored (R.execute w (setEx [k] [v] n)).2 j = R.stored w j

/-- When the requests are executed and when the keys are there. -/
structure Timeline (ω : Type) where
  /-- The moment at which a request that is sent in a world is executed. -/
  executedAt : ω → Request → ℤ
  /-- The moments at which a key is present, as the requests before a world have it. -/
  present : ω → Text → Set ℤ

/-- The keys after a `SETEX` that is sent in `w` was executed. -/
def Timeline.afterSetEx {ω : Type} (T : Timeline ω) (w : ω) (k v : Text) (n : ℕ) :
    Text → Set ℤ :=
  Function.update (T.present w) k (Coverage.renew (T.present w k)
    (T.executedAt w (setEx [k] [v] n)) (Duration.seconds n))

/-- What is relied on of expiry: `SETEX` keeps its key for exactly the given time after its
execution. A request that fails was executed or it was not. -/
structure Server.ExpiryLaw {ω : Type} (R : Server ω) (clock : ω → ℤ) (T : Timeline ω) :
    Prop where
  sent : ∀ w request, clock w ≤ T.executedAt w request
  answered : ∀ w request, T.executedAt w request ≤ clock (R.execute w request).2
  executed : ∀ w k v n, (R.execute w (setEx [k] [v] n)).1 = .ok () →
    T.present (R.execute w (setEx [k] [v] n)).2 = T.afterSetEx w k v n
  failed : ∀ w k v n e, (R.execute w (setEx [k] [v] n)).1 = .error e →
    T.present (R.execute w (setEx [k] [v] n)).2 = T.present w ∨
      T.present (R.execute w (setEx [k] [v] n)).2 = T.afterSetEx w k v n

/-- A server whose world is its store, without expiry. It knows the two requests the
publisher sends; `SETEX` refuses zero seconds. -/
def memory : Server (Text → Option Text) where
  execute w
    | [cmd, k, v] =>
      if cmd = "SET".toList then (.ok (), Function.update w k (some v))
      else (.error ⟨"unknown command".toList⟩, w)
    | [cmd, k, n, v] =>
      if cmd = "SETEX".toList then
        if n = ['0'] then (.error ⟨"invalid expire time".toList⟩, w)
        else (.ok (), Function.update w k (some v))
      else (.error ⟨"syntax error".toList⟩, w)
    | _ => (.error ⟨"wrong number of arguments".toList⟩, w)
  stored w := w

theorem memory_setEx (w : Text → Option Text) (k v : Text) (n : ℕ) :
    memory.execute w (setEx [k] [v] n) =
      if Nat.toDigits 10 n = ['0'] then (.error ⟨"invalid expire time".toList⟩, w)
      else (.ok (), Function.update w k (some v)) := rfl

theorem memory_setExLaw : memory.SetExLaw := by
  constructor
  · intro w k v n h
    rw [memory_setEx] at h ⊢
    split at h
    · cases h
    · rename_i hn
      rw [if_neg hn]
      exact Function.update_self k _ w
  · intro w k v n j h hj
    rw [memory_setEx] at h ⊢
    split at h
    · cases h
    · rename_i hn
      rw [if_neg hn]
      exact Function.update_of_ne hj _ w

end Beachhead.Redis
