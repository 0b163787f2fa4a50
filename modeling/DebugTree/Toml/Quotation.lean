import DebugTree.Text.Hexadecimal

/-!
# Quoted texts of TOML

Four kinds: between double quotes with escapes, between single quotes without, and each of the two
again between three quotes, where line breaks are allowed.  A line break right after three opening
quotes is dropped.  Up to two quotes may stand directly before three closing ones.

Control characters other than the tab may not stand in any of them, except that line breaks may
where line breaks are allowed.
-/

namespace DebugTree
namespace Toml
namespace Quotation

/-- The character may stand in a text. -/
def isPlain (c : Char) : Bool :=
  c == '\t' || (0x20 ≤ c.toNat && c.toNat != 0x7F)

/-- The character with a number, if there is one. -/
def scalar? (n : Nat) : Option Char :=
  if n.isValidChar then some (Char.ofNat n) else none

/-- The character that an escape stands for, and the text after the escape. -/
def escape : List Char → Option (Char × List Char)
  | 'b' :: rest => some ('\x08', rest)
  | 't' :: rest => some ('\t', rest)
  | 'n' :: rest => some ('\n', rest)
  | 'f' :: rest => some ('\x0c', rest)
  | 'r' :: rest => some ('\r', rest)
  | '"' :: rest => some ('"', rest)
  | '\\' :: rest => some ('\\', rest)
  | 'u' :: rest => do
    if rest.length < 4 then none
    let c ← (Text.hexNumber? (rest.take 4)).bind scalar?
    some (c, rest.drop 4)
  | 'U' :: rest => do
    if rest.length < 8 then none
    let c ← (Text.hexNumber? (rest.take 8)).bind scalar?
    some (c, rest.drop 8)
  | _ => none

/-- A text on one line, after its opening quote. -/
def line (quote : Char) (escapes : Bool) : Nat → List Char → Option (List Char × List Char)
  | 0, _ => none
  | _ + 1, [] => none
  | fuel + 1, c :: cs =>
    if c == quote then some ([], cs)
    else if escapes && c == '\\' then do
      let (e, cs) ← escape cs
      let (chars, rest) ← line quote escapes fuel cs
      some (e :: chars, rest)
    else if isPlain c then do
      let (chars, rest) ← line quote escapes fuel cs
      some (c :: chars, rest)
    else none

/-- A line break at the front, and what follows it. -/
def lineBreak? : List Char → Option (List Char × List Char)
  | '\n' :: rest => some (['\n'], rest)
  | '\r' :: '\n' :: rest => some (['\r', '\n'], rest)
  | _ => none

def skipBlanks (cs : List Char) : List Char :=
  cs.dropWhile fun c => c == ' ' || c == '\t'

/-- The text after all blanks and line breaks at its front. -/
def skipBreaks : Nat → List Char → List Char
  | 0, cs => cs
  | fuel + 1, cs =>
    match lineBreak? (skipBlanks cs) with
    | some (_, rest) => skipBreaks fuel rest
    | none => skipBlanks cs

/-- What an escape before a line break swallows: the break and every blank and break after it.
Nothing if only blanks and no break follow the backslash. -/
def continuation? (cs : List Char) : Option (List Char) :=
  (lineBreak? (skipBlanks cs)).map fun r => skipBreaks r.2.length r.2

/-- A text between three quotes, after its opening quotes and the line break after them. -/
def block (quote : Char) (escapes : Bool) : Nat → List Char → Option (List Char × List Char)
  | 0, _ => none
  | _ + 1, [] => none
  | fuel + 1, c :: cs =>
    if c == quote then
      let quotes := (c :: cs).takeWhile (· == quote)
      let rest := (c :: cs).dropWhile (· == quote)
      if quotes.length < 3 then do
        let (chars, rest) ← block quote escapes fuel rest
        some (quotes ++ chars, rest)
      else if quotes.length ≤ 5 then some (quotes.drop 3, rest)
      else none
    else if escapes && c == '\\' then
      match continuation? cs with
      | some cs => block quote escapes fuel cs
      | none => do
        let (e, cs) ← escape cs
        let (chars, rest) ← block quote escapes fuel cs
        some (e :: chars, rest)
    else
      match lineBreak? (c :: cs) with
      | some (b, cs) => do
        let (chars, rest) ← block quote escapes fuel cs
        some (b ++ chars, rest)
      | none =>
        if isPlain c then do
          let (chars, rest) ← block quote escapes fuel cs
          some (c :: chars, rest)
        else none

/-- The text of a pair of quotes of one kind, after the first quote. -/
def after (quote : Char) (escapes : Bool) (cs : List Char) : Option (List Char × List Char) :=
  match cs with
  | a :: b :: rest =>
    if a == quote && b == quote then
      let rest := match lineBreak? rest with
        | some (_, rest) => rest
        | none => rest
      block quote escapes (rest.length + 1) rest
    else line quote escapes (cs.length + 1) cs
  | _ => line quote escapes (cs.length + 1) cs

/-- A quoted text at the front, if there is one, and what follows it. -/
def text? : List Char → Option (String × List Char)
  | '"' :: cs => (after '"' true cs).map fun (t, rest) => (String.ofList t, rest)
  | '\'' :: cs => (after '\'' false cs).map fun (t, rest) => (String.ofList t, rest)
  | _ => none

/-- A quoted text that has to be on one line. -/
def lineText? : List Char → Option (String × List Char)
  | '"' :: cs => (line '"' true (cs.length + 1) cs).map fun (t, rest) => (String.ofList t, rest)
  | '\'' :: cs => (line '\'' false (cs.length + 1) cs).map fun (t, rest) => (String.ofList t, rest)
  | _ => none

end Quotation
end Toml
end DebugTree
