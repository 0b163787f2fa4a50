import DebugTree.Text.Hexadecimal
import DebugTree.Text.Quoted.Table

/-!
# Quoted texts

How a message shows a text whose blanks and controls must stay visible: between double quotes,
with a backslash before a quote or a backslash, short escapes for the four common controls, and
`\u{…}` for every character that has no glyph or that would combine with the one before it.
-/

namespace DebugTree
namespace Text

/-- How one character stands between quotes. -/
def quoteChar (c : Char) : List Char :=
  if c = '\x00' then ['\\', '0']
  else if c = '\t' then ['\\', 't']
  else if c = '\r' then ['\\', 'r']
  else if c = '\n' then ['\\', 'n']
  else if c = '\\' then ['\\', '\\']
  else if c = '"' then ['\\', '"']
  else if inRanges combiningRanges c || inRanges unprintableRanges c then
    ['\\', 'u', '\x7b'] ++ hexDigits c.toNat ++ ['\x7d']
  else [c]

/-- The text between quotes. -/
def quoted (s : String) : String :=
  String.ofList ('"' :: s.toList.flatMap quoteChar ++ ['"'])

end Text
end DebugTree
