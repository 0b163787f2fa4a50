import DebugTree.Index
import DebugTree.Json.Number

/-!
# JSON values

A value as a reader finds it: the members of an object in the order of the text, repeated names
included, because what a repetition means depends on who reads.  A stored value has each name
once, the last one winning (`canonical`).

A text can hold scalars that are well formed and yet have no value: a number beyond binary64, a
string with half of a surrogate pair.  They do no harm where a reader skips them and are refused
where a value is asked for, so they are leaves of their own here (`unrepresentable`).
-/

namespace DebugTree

/-- A JSON value as read. -/
inductive Json where
  | null
  | bool (b : Bool)
  | number (n : Json.Number)
  | string (s : String)
  | array (items : List Json)
  | object (members : List (String × Json))
  | unrepresentable

namespace Json

instance : Inhabited Json := ⟨.null⟩

/-! ## Nesting -/

/-- The deepest nesting of arrays and objects that a reader follows. -/
def nestingLimit : Nat := 127

mutual

/-- The value has a meaning throughout and opens at most `depth` containers at once. -/
def storable (depth : Nat) : Json → Bool
  | .unrepresentable => false
  | .array items => depth != 0 && allStorable (depth - 1) items
  | .object members => depth != 0 && membersStorable (depth - 1) members
  | _ => true

/-- `storable` of every item. -/
def allStorable (depth : Nat) : List Json → Bool
  | [] => true
  | j :: rest => storable depth j && allStorable depth rest

/-- `storable` of every member. -/
def membersStorable (depth : Nat) : List (String × Json) → Bool
  | [] => true
  | (_, j) :: rest => storable depth j && membersStorable depth rest

end

/-! ## Stored values -/

mutual

/-- The value with each member name once, at every level. -/
def canonical : Json → Json
  | .array items => .array (canonicalItems items)
  | .object members => .object (Index.ofList (canonicalMembers members)).entries
  | j => j

/-- `canonical` of every item. -/
def canonicalItems : List Json → List Json
  | [] => []
  | j :: rest => canonical j :: canonicalItems rest

/-- `canonical` of every member, repetitions kept. -/
def canonicalMembers : List (String × Json) → List (String × Json)
  | [] => []
  | (k, j) :: rest => (k, canonical j) :: canonicalMembers rest

end

/-! ## Access -/

/-- The member of an object under a name, the last one if there are several. -/
def get? (name : String) : Json → Option Json
  | .object members => (members.reverse.find? fun m => m.1 == name).map (·.2)
  | _ => none

end Json
end DebugTree
