import DebugTree.Toml.Basic

/-!
# Tables under construction

A file fills its tables bit by bit: headers open tables, dotted keys open tables inside them, and
both may come back to a table that is there already.  What may come back to what depends on how a
table came about, so that is remembered until the file is complete.

* A table that was only passed on the way to another one is *implied*; a header may still open it.
* A table that a header opened is never opened again, and dotted keys do not reach into it.
* A table that dotted keys opened is reached by dotted keys only, though a header may pass through
  it.
* Values are closed: an array or a table written in one piece is never added to.
* A header in double brackets adds one more table to a list of tables, and from then on the list
  stands for its last table.
-/

namespace DebugTree
namespace Toml

/-- How a table came about. -/
inductive Origin where
  | implied
  | header
  | dotted
  deriving DecidableEq

/-- What stands under a key while a file is being read. -/
inductive Node where
  | value (v : Toml)
  | table (origin : Origin) (members : List (String × Node))
  /-- A list of tables, the last one first. -/
  | tables (elements : List (List (String × Node)))

/-- The members of a table under construction. -/
abbrev Members := List (String × Node)

namespace Members

/-- The node under a key. -/
def find? (k : String) : Members → Option Node
  | [] => none
  | (k', n) :: rest => if k' = k then some n else find? k rest

/-- The members with a node under a key. -/
def put (k : String) (n : Node) : Members → Members
  | [] => [(k, n)]
  | (k', m) :: rest => if k' = k then (k, n) :: rest else (k', m) :: put k n rest

/-- Change the table at the end of a path, opening the tables on the way that are not there.  The
change is told how the table came about. -/
def walk (dotted : Bool) (change : Origin → Members → Option Members) :
    List String → Origin → Members → Option Members
  | [], origin, members => change origin members
  | k :: path, _, members =>
    match members.find? k with
    | none =>
      let origin := if dotted then .dotted else .implied
      (walk dotted change path origin []).map fun inner => members.put k (.table origin inner)
    | some (.table origin inner) =>
      if dotted && origin = .header then none
      else (walk dotted change path origin inner).map fun inner =>
        members.put k (.table origin inner)
    | some (.tables (last :: earlier)) =>
      (walk dotted change path .header last).map fun last =>
        members.put k (.tables (last :: earlier))
    | some _ => none

/-- Put a value under a key that must be free, in a table that may be reached this way. -/
def insert (dotted : Bool) (k : String) (v : Toml) (origin : Origin) (members : Members) :
    Option Members :=
  if (origin = .dotted) != dotted then none
  else if (members.find? k).isSome then none
  else some (members.put k (.value v))

/-- A value under a dotted key, seen from one table. -/
def assign (path : List String) (k : String) (v : Toml) : Origin → Members → Option Members :=
  walk (!path.isEmpty) (insert (!path.isEmpty) k v) path

/-- A header opens a table. -/
def openTable (k : String) (_ : Origin) (members : Members) : Option Members :=
  match members.find? k with
  | none => some (members.put k (.table .header []))
  | some (.table .implied inner) => some (members.put k (.table .header inner))
  | some _ => none

/-- A header adds a table to a list. -/
def addTable (k : String) (_ : Origin) (members : Members) : Option Members :=
  match members.find? k with
  | none => some (members.put k (.tables [[]]))
  | some (.tables earlier) => some (members.put k (.tables ([] :: earlier)))
  | some _ => none

mutual

/-- The finished value of a node. -/
def finishNode : Node → Toml
  | .value v => v
  | .table _ members => .table (finishMembers members)
  | .tables elements => .array (finishTables elements).reverse

/-- The finished members of a table. -/
def finishMembers : List (String × Node) → List (String × Toml)
  | [] => []
  | (k, n) :: rest => (k, finishNode n) :: finishMembers rest

/-- The finished tables of a list. -/
def finishTables : List (List (String × Node)) → List Toml
  | [] => []
  | members :: rest => .table (finishMembers members) :: finishTables rest

end

end Members
end Toml
end DebugTree
