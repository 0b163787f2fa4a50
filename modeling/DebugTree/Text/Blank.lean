import DebugTree.Text.CodeRange

/-!
# Blank characters

The Unicode property White_Space, and texts without the blanks at their two ends.  A character
without width that is not a space (such as U+200B) is not blank.
-/

namespace DebugTree
namespace Text

/-- The property White_Space. -/
def blankRanges : List CodeRange := [
  ⟨0x9, 0xD⟩, ⟨0x20, 0x20⟩, ⟨0x85, 0x85⟩, ⟨0xA0, 0xA0⟩, ⟨0x1680, 0x1680⟩, ⟨0x2000, 0x200A⟩,
  ⟨0x2028, 0x2029⟩, ⟨0x202F, 0x202F⟩, ⟨0x205F, 0x205F⟩, ⟨0x3000, 0x3000⟩]

def isBlank (c : Char) : Bool :=
  inRanges blankRanges c

/-- The text without the characters of a class at its two ends. -/
def trimWhere (drop : Char → Bool) (cs : List Char) : List Char :=
  ((cs.dropWhile drop).reverse.dropWhile drop).reverse

/-- The text without the blanks at its two ends. -/
def trim (s : String) : String :=
  String.ofList (trimWhere isBlank s.toList)

end Text
end DebugTree
