import DebugTree.Text.Hexadecimal
import DebugTree.Text.Splitting

/-!
# Universally unique identifiers

An identifier of 128 bits is read in four spellings: 32 hexadecimal digits, the same in five
groups with hyphens, and the groups in braces or after `urn:uuid:`.  It has one written form, the
groups with small digits, so two spellings name one identifier exactly if their written forms are
equal.
-/

namespace DebugTree
namespace Text
namespace Uuid

/-- How many digits each group has. -/
def groups : List Nat := [8, 4, 4, 4, 12]

/-- Groups of digits with hyphens between them: the digits alone. -/
def ungroup? : List Nat → List Char → Option (List Char)
  | [], [] => some []
  | [n], cs => if cs.length = n then some cs else none
  | n :: rest, cs =>
    match cs.drop n with
    | '-' :: after => (ungroup? rest after).map (cs.take n ++ ·)
    | _ => none
  | [], _ :: _ => none

/-- The digits of a spelling. -/
def digits? (cs : List Char) : Option (List Char) :=
  if cs.length = 32 then some cs
  else if cs.length = 36 then ungroup? groups cs
  else if cs.length = 38 then
    match cs.head?, cs.getLast? with
    | some '\x7b', some '\x7d' => ungroup? groups (cs.drop 1).dropLast
    | _, _ => none
  else if cs.length = 45 then (stripPrefix? "urn:uuid:".toList cs).bind (ungroup? groups)
  else none

/-- Digits in groups with hyphens between them. -/
def group : List Nat → List Char → List Char
  | [], _ => []
  | [n], cs => cs.take n
  | n :: rest, cs => cs.take n ++ '-' :: group rest (cs.drop n)

end Uuid

/-- The written form of an identifier, given any of its spellings. -/
def uuid? (s : String) : Option String := do
  let ds ← Uuid.digits? s.toList
  let values ← ds.mapM hexValue?
  some (String.ofList (Uuid.group Uuid.groups (values.map Nat.digitChar)))

end Text
end DebugTree
