import DebugTree.Json.Basic
import DebugTree.Text.Hexadecimal

/-!
# Reading JSON texts

The strict grammar: no comments, no trailing commas, no leading zeros, blanks are space, tab, line
feed and carriage return only.  Every reader takes the characters that are left and gives back
a value with the characters after it.

Nothing here limits nesting or refuses a number that is out of range, because a reader who skips
a member does not care; `Json.storable` says what may be kept.

Fuel bounds the nesting of calls.  A call consumes a character before it makes another one of its
kind, so twice the length of the text is always enough.
-/

namespace DebugTree
namespace Json
namespace Reader

/-! ## Blanks and words -/

def isSpace (c : Char) : Bool :=
  c == ' ' || c == '\t' || c == '\n' || c == '\r'

/-- The text after its leading blanks. -/
def skipSpace (cs : List Char) : List Char :=
  cs.dropWhile isSpace

/-- The text after a word that has to stand here. -/
def word : List Char → List Char → Option (List Char)
  | [], cs => some cs
  | w :: ws, c :: cs => if w == c then word ws cs else none
  | _ :: _, [] => none

/-! ## Numbers -/

def digitValue (c : Char) : Nat :=
  c.toNat - '0'.toNat

/-- The digits at the front of a text, and the rest. -/
def digits (cs : List Char) : List Nat × List Char :=
  ((cs.takeWhile Char.isDigit).map digitValue, cs.dropWhile Char.isDigit)

/-- The digits left of the point: a zero stands alone. -/
def wholePart (cs : List Char) : Option (List Nat × List Char) :=
  match digits cs with
  | ([], _) => none
  | (0 :: _ :: _, _) => none
  | (ds, rest) => some (ds, rest)

/-- The digits right of the point, if there is a point. -/
def fractionPart : List Char → Option (Option (List Nat) × List Char)
  | '.' :: cs =>
    match digits cs with
    | ([], _) => none
    | (ds, rest) => some (some ds, rest)
  | cs => some (none, cs)

/-- The value of a list of decimal digits. -/
def ofDigits (ds : List Nat) : Nat :=
  ds.foldl (fun n d => n * 10 + d) 0

/-- The digits of an exponent, with its sign. -/
def exponentDigits (negative : Bool) (cs : List Char) : Option (Option Int × List Char) :=
  match digits cs with
  | ([], _) => none
  | (ds, rest) =>
    some (some (if negative then -(ofDigits ds : Int) else (ofDigits ds : Int)), rest)

/-- The exponent, if there is one. -/
def exponentPart : List Char → Option (Option Int × List Char)
  | e :: cs =>
    if e == 'e' || e == 'E' then
      match cs with
      | '-' :: rest => exponentDigits true rest
      | '+' :: rest => exponentDigits false rest
      | _ => exponentDigits false cs
    else some (none, e :: cs)
  | [] => some (none, [])

/-- A number without its sign. -/
def unsigned (negative : Bool) (cs : List Char) : Option (Json × List Char) := do
  let (whole, cs) ← wholePart cs
  let (fraction, cs) ← fractionPart cs
  let (exponent, cs) ← exponentPart cs
  match Number.ofDecimal? negative whole fraction exponent with
  | some n => some (.number n, cs)
  | none => some (.unrepresentable, cs)

/-! ## Strings -/

/-- One piece of a string: a character, or a 16-bit unit given by its number. -/
inductive Piece where
  | char (c : Char)
  | unit (n : Nat)

/-- The piece after a backslash. -/
def escape : List Char → Option (Piece × List Char)
  | 'u' :: a :: b :: c :: d :: rest => do
    let n ← Text.hexNumber? [a, b, c, d]
    some (.unit n, rest)
  | '"' :: rest => some (.char '"', rest)
  | '\\' :: rest => some (.char '\\', rest)
  | '/' :: rest => some (.char '/', rest)
  | 'b' :: rest => some (.char '\x08', rest)
  | 'f' :: rest => some (.char '\x0c', rest)
  | 'n' :: rest => some (.char '\n', rest)
  | 'r' :: rest => some (.char '\r', rest)
  | 't' :: rest => some (.char '\t', rest)
  | _ => none

/-- The pieces up to the closing quote. -/
def pieces : Nat → List Char → Option (List Piece × List Char)
  | 0, _ => none
  | _ + 1, [] => none
  | fuel + 1, c :: cs =>
    if c == '"' then some ([], cs)
    else if c == '\\' then do
      let (p, cs) ← escape cs
      let (ps, cs) ← pieces fuel cs
      some (p :: ps, cs)
    else if c.toNat < 0x20 then none
    else do
      let (ps, cs) ← pieces fuel cs
      some (.char c :: ps, cs)

/-- The text of a list of pieces: two units that form a surrogate pair are one character, and a
unit that is half a pair has no value. -/
def assemble : List Piece → Option (List Char)
  | [] => some []
  | .char c :: ps => (assemble ps).map (c :: ·)
  | .unit hi :: .unit lo :: ps =>
    if 0xD800 ≤ hi ∧ hi < 0xDC00 then
      if 0xDC00 ≤ lo ∧ lo < 0xE000 then
        (assemble ps).map (Char.ofNat (0x10000 + (hi - 0xD800) * 0x400 + (lo - 0xDC00)) :: ·)
      else none
    else if 0xDC00 ≤ hi ∧ hi < 0xE000 then none
    else (assemble (.unit lo :: ps)).map (Char.ofNat hi :: ·)
  | .unit n :: ps =>
    if 0xD800 ≤ n ∧ n < 0xE000 then none else (assemble ps).map (Char.ofNat n :: ·)

/-- A string after its opening quote: its value, if it has one. -/
def text (cs : List Char) : Option (Option String × List Char) := do
  let (ps, rest) ← pieces (cs.length + 1) cs
  some ((assemble ps).map String.ofList, rest)

/-! ## Values -/

mutual

/-- A value at the front of a text. -/
def value : Nat → List Char → Option (Json × List Char)
  | 0, _ => none
  | fuel + 1, cs =>
    match skipSpace cs with
    | '"' :: rest => (text rest).map fun (s, rest) =>
        ((s.map Json.string).getD .unrepresentable, rest)
    | '[' :: rest =>
      match skipSpace rest with
      | ']' :: rest => some (.array [], rest)
      | rest => (items fuel rest).map fun (js, rest) => (.array js, rest)
    | '\x7b' :: rest =>
      match skipSpace rest with
      | '\x7d' :: rest => some (.object [], rest)
      | rest => (members fuel rest).map fun (ms, rest) =>
          ((ms.map Json.object).getD .unrepresentable, rest)
    | 't' :: rest => (word ['r', 'u', 'e'] rest).map fun rest => (.bool true, rest)
    | 'f' :: rest => (word ['a', 'l', 's', 'e'] rest).map fun rest => (.bool false, rest)
    | 'n' :: rest => (word ['u', 'l', 'l'] rest).map fun rest => (.null, rest)
    | '-' :: rest => unsigned true rest
    | rest => unsigned false rest

/-- The items of an array, from its first item on. -/
def items : Nat → List Char → Option (List Json × List Char)
  | 0, _ => none
  | fuel + 1, cs => do
    let (j, cs) ← value fuel cs
    match skipSpace cs with
    | ',' :: cs => do
      let (js, cs) ← items fuel cs
      some (j :: js, cs)
    | ']' :: cs => some ([j], cs)
    | _ => none

/-- The members of an object, from its first member on; no value if a name has none. -/
def members : Nat → List Char → Option (Option (List (String × Json)) × List Char)
  | 0, _ => none
  | fuel + 1, cs =>
    match skipSpace cs with
    | '"' :: cs => do
      let (name, cs) ← text cs
      match skipSpace cs with
      | ':' :: cs => do
        let (j, cs) ← value fuel cs
        let here : Option (List (String × Json)) := name.map fun k => [(k, j)]
        match skipSpace cs with
        | ',' :: cs => do
          let (ms, cs) ← members fuel cs
          some (here.bind fun m => ms.map (m ++ ·), cs)
        | '\x7d' :: cs => some (here, cs)
        | _ => none
      | _ => none
    | _ => none

end

/-- The value of a whole text. -/
def document (cs : List Char) : Option Json :=
  match value (2 * cs.length + 2) cs with
  | some (j, rest) => if (skipSpace rest).isEmpty then some j else none
  | none => none

end Reader

/-- The value that a text holds, if it is well formed. -/
def parse? (s : String) : Option Json :=
  Reader.document s.toList

end Json
end DebugTree
