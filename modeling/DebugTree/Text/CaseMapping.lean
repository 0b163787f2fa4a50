import DebugTree.Text.CaseMapping.Table

/-!
# Upper and lower case

The full Unicode mappings: one letter may become several (`ß` in upper case, `İ` in lower case),
and a text is not lowered letter by letter, because a capital sigma at the end of a word
becomes `ς` and any other becomes `σ`.  No language-dependent rule applies.
-/

namespace DebugTree
namespace Text

/-! ## One letter -/

/-- The lower case of one letter. -/
def lowercaseChar (c : Char) : List Char :=
  if c.toNat < 128 then [c.toLower]
  else if c = 'İ' then ['i', '\u0307']
  else [moveBy lowercaseRuns c]

/-- The upper case of one letter. -/
def uppercaseChar (c : Char) : List Char :=
  if c.toNat < 128 then [c.toUpper]
  else match uppercaseSequences.lookup c.toNat with
    | some ns => ns.map Char.ofNat
    | none => [moveBy uppercaseRuns c]

/-! ## A text -/

/-- The characters that do not end a word are skipped; what comes next is a cased letter. -/
def meetsCased (cs : List Char) : Bool :=
  match cs.dropWhile (inRanges caseIgnorableRanges) with
  | [] => false
  | c :: _ => inRanges casedRanges c

/-- A sigma ends a word: a cased letter stands before it and none after it. -/
def endsWord (reversedBefore after : List Char) : Bool :=
  meetsCased reversedBefore && !meetsCased after

/-- The lower case of the rest of a text, given what has been read, last character first. -/
def lowercaseFrom (reversedBefore : List Char) : List Char → List Char
  | [] => []
  | c :: after =>
    let image :=
      if c = 'Σ' then [if endsWord reversedBefore after then 'ς' else 'σ'] else lowercaseChar c
    image ++ lowercaseFrom (c :: reversedBefore) after

/-- The lower case of a text. -/
def lowercase (s : String) : String :=
  String.ofList (lowercaseFrom [] s.toList)

end Text
end DebugTree
