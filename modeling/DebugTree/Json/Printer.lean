import DebugTree.Json.Basic

/-!
# Writing JSON texts

One value on one line, without blanks.  Quotes, backslashes and control characters are escaped
and every other character stands for itself.  A leaf without a value is written as `null`.
-/

namespace DebugTree
namespace Json
namespace Printer

/-- The digit of a number below sixteen. -/
def hexDigit (n : Nat) : Char :=
  (Nat.toDigits 16 n).headD '0'

/-- How one character stands in a string. -/
def char (c : Char) : List Char :=
  if c = '"' then ['\\', '"']
  else if c = '\\' then ['\\', '\\']
  else if c = '\n' then ['\\', 'n']
  else if c = '\r' then ['\\', 'r']
  else if c = '\t' then ['\\', 't']
  else if c.toNat < 0x20 then
    ['\\', 'u', '0', '0', hexDigit (c.toNat / 16), hexDigit (c.toNat % 16)]
  else [c]

/-- A string between its quotes. -/
def string (s : String) : List Char :=
  '"' :: s.toList.flatMap char ++ ['"']

mutual

/-- The text of a value. -/
def value : Json → List Char
  | .null | .unrepresentable => "null".toList
  | .bool b => (if b then "true" else "false").toList
  | .number n => n.text
  | .string s => string s
  | .array items => '[' :: separated items ++ [']']
  | .object members => '\x7b' :: pairs members ++ ['\x7d']

/-- The items of an array with commas between them. -/
def separated : List Json → List Char
  | [] => []
  | [j] => value j
  | j :: rest => value j ++ ',' :: separated rest

/-- The members of an object with commas between them. -/
def pairs : List (String × Json) → List Char
  | [] => []
  | [(k, j)] => string k ++ ':' :: value j
  | (k, j) :: rest => string k ++ ':' :: value j ++ ',' :: pairs rest

end

end Printer

/-- The value on one line. -/
def render (j : Json) : String :=
  String.ofList (Printer.value j)

end Json
end DebugTree
