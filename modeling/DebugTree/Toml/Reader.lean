import DebugTree.Toml.Quotation
import DebugTree.Toml.Scalar
import DebugTree.Toml.Table

/-!
# Reading TOML files

A file is a sequence of lines: a header, a key with its value, or nothing, and perhaps a comment.
Headers say which table the keys after them belong to.  Arrays may be spread over lines with
comments between their items and a comma after the last one; tables in braces stay on one line and
have no such comma.

Arrays and braces may be nested up to `nestingLimit`, which is also the fuel that bounds the
nesting of calls; the length of the text bounds everything else.
-/

namespace DebugTree
namespace Toml
namespace Reader

open Quotation (lineBreak? skipBlanks)

/-- The deepest nesting of arrays and tables in one value. -/
def nestingLimit : Nat := 80

/-! ## Comments and line ends -/

/-- The text after a comment, if there is one at the front. -/
def skipComment : List Char → Option (List Char)
  | '#' :: cs =>
    let rest := cs.dropWhile Quotation.isPlain
    match rest with
    | [] => some []
    | _ => if (lineBreak? rest).isSome then some rest else none
  | cs => some cs

/-- Nothing but blanks and a comment up to the end of the line; the text after the line. -/
def lineEnd (cs : List Char) : Option (List Char) := do
  let rest ← skipComment (skipBlanks cs)
  match rest with
  | [] => some []
  | _ => (lineBreak? rest).map (·.2)

/-- The text after blanks, line breaks and comments. -/
def skipFiller : Nat → List Char → Option (List Char)
  | 0, _ => none
  | fuel + 1, cs => do
    let rest ← skipComment (skipBlanks cs)
    match lineBreak? rest with
    | some (_, rest) => skipFiller fuel rest
    | none => some rest

/-! ## Keys -/

def isKeyChar (c : Char) : Bool :=
  c.isAlphanum || c == '_' || c == '-'

/-- One part of a key. -/
def keyPart (cs : List Char) : Option (String × List Char) :=
  match cs with
  | '"' :: _ | '\'' :: _ => Quotation.lineText? cs
  | _ =>
    let part := cs.takeWhile isKeyChar
    if part.isEmpty then none else some (String.ofList part, cs.drop part.length)

/-- A key: its parts, with dots and blanks between them. -/
def key : Nat → List Char → Option (List String × List Char)
  | 0, _ => none
  | fuel + 1, cs => do
    let (part, rest) ← keyPart (skipBlanks cs)
    match skipBlanks rest with
    | '.' :: rest => do
      let (parts, rest) ← key fuel rest
      some (part :: parts, rest)
    | rest => some ([part], rest)

/-- A key with the sign after it: the path to its table, its last part, and the text after. -/
def keySign (cs : List Char) : Option (List String × String × List Char) := do
  let (parts, rest) ← key (cs.length + 1) cs
  match rest, parts.getLast? with
  | '=' :: rest, some last => some (parts.dropLast, last, skipBlanks rest)
  | _, _ => none

/-! ## Values -/

/-- The character ends a scalar without quotes. -/
def endsLiteral (c : Char) : Bool :=
  [' ', '\t', '\r', '\n', '#', ',', '=', '[', ']', '\x7b', '\x7d', '"', '\''].contains c

/-- A scalar without quotes.  A day and a time may have one blank between them. -/
def literal (cs : List Char) : Option (Toml × List Char) := do
  let first := cs.takeWhile (!endsLiteral ·)
  let rest := cs.drop first.length
  let (whole, rest) := match rest with
    | ' ' :: c :: more =>
      if Scalar.isDay first && c.isDigit then
        let time := (c :: more).takeWhile (!endsLiteral ·)
        (first ++ ' ' :: time, (c :: more).drop time.length)
      else (first, rest)
    | _ => (first, rest)
  let v ← Scalar.ofLiteral? whole
  some (v, rest)

/-- The items of an array after its opening bracket, given a reader of items. -/
def items (item : List Char → Option (Toml × List Char)) :
    Nat → List Char → Option (List Toml × List Char)
  | 0, _ => none
  | fuel + 1, cs => do
    match ← skipFiller (cs.length + 1) cs with
    | ']' :: rest => some ([], rest)
    | cs => do
      let (v, rest) ← item cs
      match ← skipFiller (rest.length + 1) rest with
      | ',' :: rest => do
        let (vs, rest) ← items item fuel rest
        some (v :: vs, rest)
      | ']' :: rest => some ([v], rest)
      | _ => none

/-- The members of a table in braces after its opening brace, put into what is there. -/
def members (item : List Char → Option (Toml × List Char)) :
    Nat → Members → List Char → Option (Members × List Char)
  | 0, _, _ => none
  | fuel + 1, known, cs => do
    let (path, last, rest) ← keySign cs
    let (v, rest) ← item rest
    let known ← Members.assign path last v .header known
    match skipBlanks rest with
    | ',' :: rest => members item fuel known rest
    | '\x7d' :: rest => some (known, rest)
    | _ => none

/-- A value at the front of a text, with so many containers allowed inside one another. -/
def value (depth : Nat) (cs : List Char) : Option (Toml × List Char) :=
  match cs with
  | '"' :: _ | '\'' :: _ => (Quotation.text? cs).map fun (s, rest) => (.text s, rest)
  | '[' :: cs =>
    match depth with
    | 0 => none
    | depth + 1 =>
      (items (value depth) (cs.length + 1) cs).map fun (vs, rest) => (.array vs, rest)
  | '\x7b' :: cs =>
    match depth with
    | 0 => none
    | depth + 1 =>
      match skipBlanks cs with
      | '\x7d' :: rest => some (.table [], rest)
      | cs => (members (value depth) (cs.length + 1) [] cs).map fun (known, rest) =>
          (.table (Members.finishMembers known), rest)
  | cs => literal cs

/-! ## Files -/

/-- A header after its opening brackets: the path to its table, its last part, and the text after
its closing brackets. -/
def header (close : List Char) (cs : List Char) : Option (List String × String × List Char) := do
  let (parts, rest) ← key (cs.length + 1) cs
  let last ← parts.getLast?
  let rest ← Text.stripPrefix? close rest
  some (parts.dropLast, last, rest)

/-- The lines of a file.  Keys belong to the table at `here`. -/
def lines : Nat → List String → Members → List Char → Option Members
  | 0, _, _, _ => none
  | fuel + 1, here, root, cs =>
    match skipBlanks cs with
    | [] => some root
    | '[' :: '[' :: rest => do
      let (path, last, rest) ← header [']', ']'] rest
      let root ← Members.walk false (Members.addTable last) path .header root
      lines fuel (path ++ [last]) root (← lineEnd rest)
    | '[' :: rest => do
      let (path, last, rest) ← header [']'] rest
      let root ← Members.walk false (Members.openTable last) path .header root
      lines fuel (path ++ [last]) root (← lineEnd rest)
    | c :: rest =>
      if c == '#' || (lineBreak? (c :: rest)).isSome then do
        lines fuel here root (← lineEnd (c :: rest))
      else do
        let (path, last, rest) ← keySign (c :: rest)
        let (v, rest) ← value nestingLimit rest
        let root ← Members.walk false (Members.assign path last v) here .header root
        lines fuel here root (← lineEnd rest)

end Reader

/-- The table that a text holds, if it is well formed.  A byte order mark at the front is passed
over. -/
def parse? (s : String) : Option Toml :=
  let cs := match s.toList with
    | '\ufeff' :: rest => rest
    | cs => cs
  (Reader.lines (cs.length + 1) [] [] cs).map fun root => .table (Members.finishMembers root)

end Toml
end DebugTree
