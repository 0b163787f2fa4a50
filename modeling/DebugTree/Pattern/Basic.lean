/-!
# Patterns

The regular expressions that skip globs turn into, as syntax trees.  The runtime wants them as
text (`source`), the stepping engine wants to match them, and both read the same tree, so that
what is pushed and what is decided here cannot drift apart.

The fragment is small.  There is no alternation, so putting two trees in sequence is putting their
texts side by side, and no text ever needs a bracket that the tree does not show.  Every pattern
is matched from the start of a text; the `^` that says so belongs to `source` and not to the tree.
-/

namespace DebugTree

/-- The two classes that a pattern repeats. -/
inductive CharClass where
  /-- Everything but a line feed, written `.`. -/
  | inLine
  /-- Everything but a slash, written `[^/]`. -/
  | inSegment
  deriving DecidableEq

/-- The class has the character. -/
def CharClass.has : CharClass → Char → Bool
  | .inLine, c => c != '\n'
  | .inSegment, c => c != '/'

/-- A pattern. -/
inductive Pattern where
  /-- Matches nothing in particular. -/
  | empty
  /-- One given character. -/
  | char (c : Char)
  /-- One of two given characters. -/
  | oneOf (a b : Char)
  /-- Any number of characters of a class. -/
  | many (s : CharClass)
  /-- At least one character of a class. -/
  | atLeastOne (s : CharClass)
  /-- The end of the text. -/
  | finish
  /-- The pattern or nothing. -/
  | optional (p : Pattern)
  /-- Matches nothing, where the pattern does not match. -/
  | notAhead (p : Pattern)
  /-- One after the other. -/
  | seq (p q : Pattern)
  deriving DecidableEq

namespace Pattern

/-- The patterns of a list, one after the other. -/
def sequence : List Pattern → Pattern
  | [] => .empty
  | p :: ps => .seq p (sequence ps)

/-- The characters of a text, as they stand. -/
def literal (cs : List Char) : Pattern :=
  sequence (cs.map .char)

/-! ## As text -/

/-- Characters that a regular expression gives a meaning of their own. -/
def reserved : List Char :=
  ['\\', '.', '+', '*', '?', '(', ')', '|', '[', ']', '\x7b', '\x7d', '^', '$', '#']

/-- A character so that it stands for itself. -/
def escape (c : Char) : List Char :=
  if c ∈ reserved then ['\\', c] else [c]

/-- A text so that it stands for itself. -/
def escapeAll (cs : List Char) : List Char :=
  cs.flatMap escape

/-- The text of a class. -/
def classText : CharClass → List Char
  | .inLine => ['.']
  | .inSegment => ['[', '^', '/', ']']

/-- The text of a pattern, without an anchor. -/
def body : Pattern → List Char
  | .empty => []
  | .char c => escape c
  | .oneOf a b => '[' :: escape a ++ escape b ++ [']']
  | .many s => classText s ++ ['*']
  | .atLeastOne s => classText s ++ ['+']
  | .finish => ['$']
  | .optional p => ['(', '?', ':'] ++ body p ++ [')', '?']
  | .notAhead p => ['(', '?', '!'] ++ body p ++ [')']
  | .seq p q => body p ++ body q

/-- The text of a pattern, anchored at the start. -/
def source (p : Pattern) : List Char :=
  '^' :: body p

@[simp] theorem body_seq (p q : Pattern) : body (.seq p q) = body p ++ body q := rfl

@[simp] theorem body_sequence (ps : List Pattern) : body (sequence ps) = ps.flatMap body := by
  induction ps with
  | nil => rfl
  | cons p ps ih => simp [sequence, ih]

theorem body_literal (cs : List Char) : body (literal cs) = escapeAll cs := by
  rw [literal, body_sequence, List.flatMap_map]
  rfl

end Pattern
end DebugTree
