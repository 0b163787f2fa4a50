import DebugTree.Fault
import DebugTree.Text.CaseMapping

/-!
# Case of paths

Whether two paths that differ only in letter case are one path is a matter of the file system.
The user may say so, or leave it to the host; on this host, paths are told apart by case.
-/

namespace DebugTree

/-- How paths and URLs are compared with globs. -/
inductive PathCase where
  /-- As the host does. -/
  | auto
  | sensitive
  | insensitive
  deriving DecidableEq

namespace PathCase

/-- The case rule that holds on this host. -/
def resolve : PathCase → PathCase
  | .auto => .sensitive
  | c => c

/-- Paths that differ only in case are one path. -/
def isInsensitive (c : PathCase) : Bool :=
  decide (c.resolve = .insensitive)

/-- The word for a case rule. -/
def word : PathCase → String
  | .auto => "auto"
  | .sensitive => "sensitive"
  | .insensitive => "insensitive"

/-- The case rule that a user's word names; the word's own case does not matter. -/
def ofText (text : String) : Except Fault PathCase :=
  match Text.lowercase text with
  | "auto" => .ok .auto
  | "sensitive" | "case-sensitive" => .ok .sensitive
  | "insensitive" | "case-insensitive" => .ok .insensitive
  | _ => .error (.config (.unknownPathCase text))

@[simp] theorem resolve_ne_auto (c : PathCase) : c.resolve ≠ .auto := by
  cases c <;> simp [resolve]

@[simp] theorem resolve_resolve (c : PathCase) : c.resolve.resolve = c.resolve := by
  cases c <;> rfl

end PathCase
end DebugTree
