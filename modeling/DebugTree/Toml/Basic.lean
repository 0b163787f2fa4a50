/-!
# TOML values

The values of a configuration file.  No setting is a fraction or a date, so of those two only the
kind is kept.  A number that is well formed and too large has no value, which does no harm as long
as nobody reads it; it is a leaf of its own.
-/

namespace DebugTree

/-- A value of a configuration file. -/
inductive Toml where
  | text (s : String)
  | integer (n : Int)
  | fraction
  | boolean (b : Bool)
  | moment
  | array (items : List Toml)
  | table (members : List (String × Toml))
  /-- A number beyond what can be read. -/
  | outOfRange

namespace Toml

instance : Inhabited Toml := ⟨.moment⟩

mutual

/-- Every number in the value can be read. -/
def isReadable : Toml → Bool
  | .outOfRange => false
  | .array items => areReadable items
  | .table members => membersReadable members
  | _ => true

/-- `isReadable` of every item. -/
def areReadable : List Toml → Bool
  | [] => true
  | v :: rest => isReadable v && areReadable rest

/-- `isReadable` of every member. -/
def membersReadable : List (String × Toml) → Bool
  | [] => true
  | (_, v) :: rest => isReadable v && membersReadable rest

end

end Toml
end DebugTree
