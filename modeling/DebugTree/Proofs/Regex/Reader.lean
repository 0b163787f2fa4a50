import DebugTree.Proofs.Regex.Basic

/-!
# Reading regular expressions

A text is read character by character.  What has been read is a stack of levels, one for every
bracket that is still open, and a level is a list of finished alternatives and the pieces of the one
that is being read.  A repetition sign changes the last piece, a bar finishes an alternative, and
a closing bracket makes its level one piece of the level around it.

Because every character only touches the innermost level, reading one text after another is reading
the two put together (`List.foldlM_append`), and a text can be followed through any context.

## What is not read

The reader gives up where a text uses more of the language than `Regex` has: captures, flags inside
the text, counted, lazy and possessive repetition, ranges and set operations in classes, and escapes
that are not of a punctuation character.  So a text that is read is read as every engine reads it.
-/

namespace DebugTree
namespace Regex

/-! ## The stack -/

/-- A bracket that is open. -/
inductive Bracket where
  /-- `(?:` -/
  | group
  /-- `(?!` -/
  | lookahead
  deriving DecidableEq

/-- What a bracket makes of what it encloses. -/
def Bracket.enclose : Bracket → Regex → Regex
  | .group, p => p
  | .lookahead, p => .notAhead p

/-- What has been read inside a bracket. -/
structure Level where
  /-- The finished alternatives, the last one first. -/
  options : List Regex
  /-- The pieces of the alternative that is being read, the last one first. -/
  pieces : List Regex
  deriving DecidableEq

namespace Level

/-- Nothing has been read. -/
def fresh : Level := ⟨[], []⟩

/-- One more piece. -/
def push (l : Level) (p : Regex) : Level :=
  { l with pieces := p :: l.pieces }

/-- Several more pieces. -/
def append (l : Level) (ps : List Regex) : Level :=
  { l with pieces := ps.reverse ++ l.pieces }

/-- The expression that the level comes to. -/
def regex (l : Level) : Regex :=
  l.options.foldl (fun later earlier => .either earlier later) (sequence l.pieces.reverse)

/-- The alternative ends. -/
def split (l : Level) : Level :=
  ⟨sequence l.pieces.reverse :: l.options, []⟩

@[simp] theorem append_nil (l : Level) : l.append [] = l := rfl

@[simp] theorem append_singleton (l : Level) (p : Regex) : l.append [p] = l.push p := rfl

theorem append_append (l : Level) (ps qs : List Regex) :
    (l.append ps).append qs = l.append (ps ++ qs) := by
  simp [append]

theorem regex_fresh_append (ps : List Regex) : (fresh.append ps).regex = sequence ps := by
  simp [fresh, append, regex]

end Level

/-- The piece may be repeated: it has not been, and it is neither an anchor nor a lookahead. -/
def isRepeatable : Regex → Bool
  | .star _ | .plus _ | .opt _ | .start | .finish | .notAhead _ => false
  | _ => true

/-- The last piece is repeated. -/
def Level.repeated (l : Level) (f : Regex → Regex) : Option Level :=
  match l.pieces with
  | p :: ps => if p.isRepeatable then some { l with pieces := f p :: ps } else none
  | [] => none

/-! ## The reader -/

/-- In the middle of what the reader is. -/
inductive Mode where
  | plain
  /-- After a backslash. -/
  | escaped
  /-- After `(`. -/
  | opened
  /-- After `(?`. -/
  | marked
  /-- After `[`. -/
  | classOpened
  /-- In a class with some members, the last one first. -/
  | inClass (negated : Bool) (members : List Char)
  /-- After a backslash in a class. -/
  | classEscaped (negated : Bool) (members : List Char)
  deriving DecidableEq

/-- A reader. -/
structure Reader where
  /-- The open brackets, the innermost first, with the levels around them. -/
  outer : List (Bracket × Level)
  level : Level
  mode : Mode
  deriving DecidableEq

/-- A character that stands for itself after a backslash. -/
def isPunctuation (c : Char) : Bool :=
  decide (0x20 < c.toNat) && decide (c.toNat < 0x7F) && !c.isAlphanum

namespace Reader

/-- Nothing has been read. -/
def fresh : Reader := ⟨[], .fresh, .plain⟩

/-- One more piece has been read. -/
def push (r : Reader) (p : Regex) : Reader :=
  { r with level := r.level.push p, mode := .plain }

/-- A bracket opens. -/
def enter (r : Reader) (b : Bracket) : Reader :=
  ⟨(b, r.level) :: r.outer, .fresh, .plain⟩

/-- A bracket closes, if one is open. -/
def exit (r : Reader) : Option Reader :=
  match r.outer with
  | (b, around) :: outer => some ⟨outer, around.push (b.enclose r.level.regex), .plain⟩
  | [] => none

/-- A character outside classes and escapes. -/
def plain (r : Reader) (c : Char) : Option Reader :=
  match c with
  | '\\' => some { r with mode := .escaped }
  | '(' => some { r with mode := .opened }
  | '[' => some { r with mode := .classOpened }
  | ')' => r.exit
  | '|' => some { r with level := r.level.split }
  | '*' => (r.level.repeated .star).map fun level => { r with level }
  | '+' => (r.level.repeated .plus).map fun level => { r with level }
  | '?' => (r.level.repeated .opt).map fun level => { r with level }
  | '.' => some (r.push .dot)
  | '^' => some (r.push .start)
  | '$' => some (r.push .finish)
  | '\x7b' => none
  | c => some (r.push (.char c))

/-- A character in a class. -/
def member (r : Reader) (negated : Bool) (members : List Char) (c : Char) : Option Reader :=
  match c with
  | '\\' => some { r with mode := .classEscaped negated members }
  | ']' =>
    if members.isEmpty then none
    else some (r.push (if negated then .noneOf members.reverse else .oneOf members.reverse))
  | '[' | '-' => none
  | c =>
    if (c = '&' ∨ c = '~') ∧ members.head? = some c then none
    else some { r with mode := .inClass negated (c :: members) }

/-- One more character. -/
def step (r : Reader) (c : Char) : Option Reader :=
  match r.mode with
  | .plain => r.plain c
  | .escaped => if isPunctuation c then some (r.push (.char c)) else none
  | .opened => if c = '?' then some { r with mode := .marked } else none
  | .marked =>
    match c with
    | ':' => some (r.enter .group)
    | '!' => some (r.enter .lookahead)
    | _ => none
  | .classOpened =>
    if c = '^' then some { r with mode := .inClass true [] } else r.member false [] c
  | .inClass negated members => r.member negated members c
  | .classEscaped negated members =>
    if isPunctuation c then some { r with mode := .inClass negated (c :: members) } else none

/-- What has been read, if nothing is open any more. -/
def result? (r : Reader) : Option Regex :=
  match r.outer, r.mode with
  | [], .plain => some r.level.regex
  | _, _ => none

end Reader

/-- The expression that a text stands for. -/
def read? (cs : List Char) : Option Regex :=
  (cs.foldlM Reader.step Reader.fresh).bind Reader.result?

/-! A bar splits all that stands around it, so an anchor before it holds for the first part only,
and a character that means something has to be escaped in order to stand for itself. -/

example : read? "^a|b".toList = some (.either (.seq .start (.seq (.char 'a') .empty))
    (.seq (.char 'b') .empty)) := by decide

example : read? "a\\|b".toList = some (.seq (.char 'a') (.seq (.char '|') (.seq (.char 'b') .empty)))
    ∧ read? "a)".toList = none := by decide

end Regex
end DebugTree
