import DebugTree.Text.SimpleFolding.Table

/-!
# Simple case folding

Two letters match without regard to case when they fold to one letter.  The folding is the
*simple* one, letter by letter: `ß` and `ẞ` are one letter, `ß` and `ss` are not, and the
Kelvin sign, `k` and `K` are all one.  A text and its folding have the same length, which is
what lets a pattern be matched against positions of the text as it stands.
-/

namespace DebugTree
namespace Text

/-- The representative of a letter's case class. -/
def simpleFold (c : Char) : Char :=
  if c.toNat < 128 then c.toLower else moveBy foldingRuns c

/-- Two characters are the same up to simple case folding. -/
def sameFolded (a b : Char) : Bool :=
  simpleFold a == simpleFold b

@[simp] theorem sameFolded_refl (c : Char) : sameFolded c c = true := by
  simp [sameFolded]

theorem sameFolded_comm (a b : Char) : sameFolded a b = sameFolded b a := by
  simp only [sameFolded]
  exact Bool.beq_comm

theorem sameFolded_trans {a b c : Char} (hab : sameFolded a b = true)
    (hbc : sameFolded b c = true) : sameFolded a c = true := by
  simp only [sameFolded, beq_iff_eq] at *
  exact hab.trans hbc

end Text
end DebugTree
