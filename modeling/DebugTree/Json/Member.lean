import DebugTree.Fields
import DebugTree.Json.Basic

/-!
# Reading and writing members

The small readers from which the readers of records are put together.  Each takes a value and
either knows it or refuses it; there is no conversion, so a number is never read as a text and a
`1.0` is never read as an integer.

Beside them stands what is needed to write a record again: a member that is always written, and
one that is left out when it has no value.
-/

namespace DebugTree
namespace Json

variable {α : Type}

/-! ## Scalars -/

def text? : Json → Option String
  | .string s => some s
  | _ => none

def flag? : Json → Option Bool
  | .bool b => some b
  | _ => none

/-- An integer between two bounds, both allowed. -/
def integer? (low high : Int) : Json → Option Int
  | .number (.int n) => if low ≤ n ∧ n ≤ high then some n else none
  | _ => none

/-- An integer of 64 bits with a sign. -/
def signed64? : Json → Option Int :=
  integer? (-(Nat.pow 2 63 : Int)) (Nat.pow 2 63 - 1 : Int)

/-- An integer of so many bits without a sign. -/
def unsigned? (bits : Nat) (j : Json) : Option Nat :=
  (integer? 0 (Nat.pow 2 bits - 1 : Int) j).map Int.toNat

/-- A value that may be given as `null`. -/
def nullable? (read : Json → Option α) : Json → Option (Option α)
  | .null => some none
  | j => (read j).map some

/-- The items of an array, each read alike. -/
def list? (read : Json → Option α) : Json → Option (List α)
  | .array items => items.mapM read
  | _ => none

/-- One of a list of words, alone or as the name of a single empty member. -/
def word? (read : String → Option α) : Json → Option α
  | .string w => read w
  | .object [(w, .null)] => read w
  | _ => none

/-! ## Records -/

/-- A record, given by names or in order, with nothing beyond its fields. -/
def record? (read : Fields Json → Option (α × Fields Json)) (j : Json) : Option α := do
  let fields ← match j with
    | .object members => some (Fields.named members)
    | .array items => some (Fields.listed items)
    | _ => none
  let (a, rest) ← read fields
  if rest.isDone then some a else none

/-- The members that a record does not know, each name once, the last value winning; nothing if
one of them cannot be stored. -/
def others? (depth : Nat) (known : List String) (members : List (String × Json)) :
    Option (Index String Json) :=
  let rest := members.filter fun m => !known.contains m.1
  if membersStorable depth rest then some (Index.ofList (canonicalMembers rest)) else none

/-! ## Writing -/

def ofInt (n : Int) : Json := .number (.int n)

def ofNat (n : Nat) : Json := .number (.int n)

def ofList (write : α → Json) (as : List α) : Json := .array (as.map write)

def ofTexts (texts : List String) : Json := ofList .string texts

/-- A member that is left out when it has no value. -/
def memberOf (name : String) (write : α → Json) : Option α → List (String × Json)
  | some a => [(name, write a)]
  | none => []

end Json
end DebugTree
