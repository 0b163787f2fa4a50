/-!
# Tables of code points

A Unicode property is a long list of intervals, and a case mapping a long list of letters that
all move by one distance.  Both are kept as data and read by the two functions here, so that a
table module holds nothing but numbers.
-/

namespace DebugTree
namespace Text

/-- A closed interval of code points. -/
structure CodeRange where
  first : Nat
  last : Nat
  deriving DecidableEq

/-- The interval has this code point. -/
def CodeRange.has (r : CodeRange) (n : Nat) : Bool :=
  decide (r.first ≤ n) && decide (n ≤ r.last)

/-- One of the intervals has the character. -/
def inRanges (table : List CodeRange) (c : Char) : Bool :=
  table.any (·.has c.toNat)

/-- Letters from `first` to `last`, every `step`-th of them, that move by `offset`.  A step of
two is how alphabets that alternate capital and small letters come out. -/
structure CaseRun where
  first : Nat
  last : Nat
  step : Nat
  offset : Int
  deriving DecidableEq

/-- Where the run sends a code point, if the code point is in it. -/
def CaseRun.image? (r : CaseRun) (n : Nat) : Option Nat :=
  if r.first ≤ n ∧ n ≤ r.last ∧ (n - r.first) % r.step = 0 then
    some (n + r.offset).toNat
  else
    none

/-- Where the first run that has the character sends it; a character in no run stays. -/
def moveBy (table : List CaseRun) (c : Char) : Char :=
  match table.findSome? (·.image? c.toNat) with
  | some n => Char.ofNat n
  | none => c

end Text
end DebugTree
