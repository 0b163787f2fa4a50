import DebugTree.PathCase
import DebugTree.Pattern.Basic
import DebugTree.Text.Splitting

/-!
# Globs

A glob is a path whose segments may hold stars.  It becomes a pattern segment by segment:

| segment              | pattern                             |
|----------------------|-------------------------------------|
| leading `**`         | any directories, or none            |
| inner `**`           | any directories, at least the slash |
| trailing `**`        | nothing, so the match stays open    |
| `*` inside a segment | any characters but slashes          |

Every other segment ends in a slash, and the last one in the end of the text.  A `**` that is both
leading and trailing counts as leading.

## Case

Patterns are matched without regard to case anyway.  Where paths are not told apart by case, each
letter is moreover *spelled* as a class of its two cases, so that a runtime that does regard case
agrees.
-/

namespace DebugTree

/-- How the literal letters of a glob are spelled in its pattern. -/
inductive Spelling where
  /-- As they stand. -/
  | exact
  /-- As a class of the lower and the upper case, where both are single letters. -/
  | bothCases
  deriving DecidableEq

namespace Spelling

/-- The spelling that a case rule asks for. -/
def ofCase (c : PathCase) : Spelling :=
  if c.isInsensitive then .bothCases else .exact

/-- The pattern of one literal character. -/
def char : Spelling → Char → Pattern
  | .exact, c => .char c
  | .bothCases, c =>
    match Text.lowercaseChar c, Text.uppercaseChar c with
    | [l], [u] => if l = u then .char c else .oneOf l u
    | _, _ => .char c

end Spelling

namespace Glob

/-- The segment that stands for directories. -/
def anyDirectories : List Char := ['*', '*']

/-- Characters up to some slash of the line. -/
def directories : Pattern :=
  .seq (.many .inLine) (.char '/')

/-- The pattern of one character of a segment. -/
def segmentChar (sp : Spelling) (c : Char) : Pattern :=
  if c = '*' then .many .inSegment else sp.char c

/-- The pattern of a segment other than `**`. -/
def segment (sp : Spelling) (cs : List Char) : Pattern :=
  .sequence (cs.map (segmentChar sp))

/-- The pattern of the segments from some segment on. -/
def segments (sp : Spelling) (first : Bool) : List (List Char) → Pattern
  | [] => .empty
  | [s] =>
    if s = anyDirectories then (if first then .optional directories else .empty)
    else .seq (segment sp s) .finish
  | s :: rest =>
    if s = anyDirectories then
      .seq (if first then .optional directories else directories) (segments sp false rest)
    else .seq (segment sp s) (.seq (.char '/') (segments sp false rest))

/-- The pattern of a glob. -/
def pattern (sp : Spelling) (glob : List Char) : Pattern :=
  segments sp true (Text.splitOn '/' glob)

end Glob
end DebugTree
