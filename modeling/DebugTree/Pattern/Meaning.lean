import DebugTree.Pattern.Basic

/-!
# What a pattern means

`Matches key p t r` says that `p` matches at the front of `t` and leaves `r`.  Characters are
compared by `key`: the identity where case counts, a case folding where it does not.  Classes are
not folded, as neither class has or lacks a letter because of its case.

This is the meaning that the matcher of `Pattern.Matching` computes.
-/

namespace DebugTree
namespace Pattern

/-- The pattern matches at the front of a text and leaves the rest. -/
def Matches (key : Char → Char) : Pattern → List Char → List Char → Prop
  | .empty, t, r => r = t
  | .char c, t, r => ∃ x, t = x :: r ∧ key x = key c
  | .oneOf a b, t, r => ∃ x, t = x :: r ∧ (key x = key a ∨ key x = key b)
  | .many s, t, r => ∃ w, t = w ++ r ∧ ∀ x ∈ w, s.has x = true
  | .atLeastOne s, t, r => ∃ w, t = w ++ r ∧ w ≠ [] ∧ ∀ x ∈ w, s.has x = true
  | .finish, t, r => t = [] ∧ r = []
  | .optional p, t, r => r = t ∨ Matches key p t r
  | .notAhead p, t, r => r = t ∧ ¬ ∃ q, Matches key p t q
  | .seq p q, t, r => ∃ m, Matches key p t m ∧ Matches key q m r

/-- The pattern matches a beginning of the text. -/
def MatchesStart (key : Char → Char) (p : Pattern) (t : List Char) : Prop :=
  ∃ r, Matches key p t r

end Pattern
end DebugTree
