import Mathlib.Logic.Relation
import DebugTree.Pattern.Meaning

/-!
# Regular expressions

The patterns of this library are trees of a small fragment, and the runtime reads their *text*.  A
text has no brackets that its tree does not ask for, so whether a text means what its tree means is
a question about the language in which regular expressions are written: a bar that nobody escaped
would split the text into alternatives, and an anchor would belong to the first of them only.

So here is that language, independent of `Pattern`: alternatives, sequences, repetition of any
expression, classes with any members, both anchors, and negative lookahead.  `Proofs.Regex.Reader`
reads texts as trees of this language, and `Proofs.Pattern.Source` shows what the text of a pattern
is read as.

## Positions

An expression is matched inside a text.  A position is what remains of the text after it, so the
start of the text is the position at which all of it remains.
-/

namespace DebugTree

/-- A regular expression. -/
inductive Regex where
  /-- Matches nothing in particular. -/
  | empty
  | char (c : Char)
  /-- Any character but a line feed. -/
  | dot
  /-- One of some characters. -/
  | oneOf (cs : List Char)
  /-- None of some characters, but a character. -/
  | noneOf (cs : List Char)
  /-- The start of the text. -/
  | start
  /-- The end of the text. -/
  | finish
  | seq (p q : Regex)
  | either (p q : Regex)
  | star (p : Regex)
  | plus (p : Regex)
  | opt (p : Regex)
  /-- Matches nothing, where the expression does not match. -/
  | notAhead (p : Regex)
  deriving DecidableEq

namespace Regex

/-! ## Meaning -/

/-- Inside a text, the expression matches from one position up to another.  Characters are compared
by a key. -/
def Matches (key : Char → Char) (text : List Char) : Regex → List Char → List Char → Prop
  | .empty, t, r => r = t
  | .char c, t, r => ∃ x, t = x :: r ∧ key x = key c
  | .dot, t, r => ∃ x, t = x :: r ∧ x ≠ '\n'
  | .oneOf cs, t, r => ∃ x, t = x :: r ∧ ∃ c ∈ cs, key x = key c
  | .noneOf cs, t, r => ∃ x, t = x :: r ∧ ∀ c ∈ cs, key x ≠ key c
  | .start, t, r => r = t ∧ t = text
  | .finish, t, r => r = t ∧ t = []
  | .seq p q, t, r => ∃ m, p.Matches key text t m ∧ q.Matches key text m r
  | .either p q, t, r => p.Matches key text t r ∨ q.Matches key text t r
  | .star p, t, r => Relation.ReflTransGen (p.Matches key text) t r
  | .plus p, t, r => Relation.TransGen (p.Matches key text) t r
  | .opt p, t, r => r = t ∨ p.Matches key text t r
  | .notAhead p, t, r => r = t ∧ ¬ ∃ q, p.Matches key text t q

/-- The expression matches somewhere in the text. -/
def Finds (key : Char → Char) (p : Regex) (text : List Char) : Prop :=
  ∃ t r, t <:+ text ∧ p.Matches key text t r

/-- An expression that begins at the start of the text is found only there. -/
theorem finds_start_seq {key : Char → Char} {p : Regex} {text : List Char} :
    (Regex.seq .start p).Finds key text ↔ ∃ r, p.Matches key text text r := by
  constructor
  · rintro ⟨t, r, -, m, ⟨rfl, rfl⟩, h⟩
    exact ⟨r, h⟩
  · rintro ⟨r, h⟩
    exact ⟨text, r, List.suffix_rfl, text, ⟨rfl, rfl⟩, h⟩

/-! ## Sequences -/

/-- The expressions of a list, one after the other. -/
def sequence : List Regex → Regex
  | [] => .empty
  | p :: ps => .seq p (sequence ps)

theorem matches_sequence_append {key : Char → Char} {text : List Char} {ps qs : List Regex}
    {t r : List Char} :
    (sequence (ps ++ qs)).Matches key text t r ↔
      ∃ m, (sequence ps).Matches key text t m ∧ (sequence qs).Matches key text m r := by
  induction ps generalizing t with
  | nil => simp [sequence, Matches]
  | cons p ps ih =>
    simp only [List.cons_append, sequence, Matches, ih]
    constructor
    · rintro ⟨m, hp, n, hps, hqs⟩
      exact ⟨n, ⟨m, hp, hps⟩, hqs⟩
    · rintro ⟨n, ⟨m, hp, hps⟩, hqs⟩
      exact ⟨m, hp, n, hps, hqs⟩

theorem matches_sequence_singleton {key : Char → Char} {text : List Char} {p : Regex}
    {t r : List Char} :
    (sequence [p]).Matches key text t r ↔ p.Matches key text t r := by
  simp [sequence, Matches]

/-! ## Repeating one character -/

/-- One character that passes a test lies between two positions. -/
def OneChar (ok : Char → Prop) (t r : List Char) : Prop :=
  ∃ x, t = x :: r ∧ ok x

theorem oneChar_iterate_iff {ok : Char → Prop} {t r : List Char} :
    Relation.ReflTransGen (OneChar ok) t r ↔ ∃ w, t = w ++ r ∧ ∀ x ∈ w, ok x := by
  constructor
  · intro h
    induction h using Relation.ReflTransGen.head_induction_on with
    | refl => exact ⟨[], by simp⟩
    | head hstep _ ih =>
      obtain ⟨x, rfl, hx⟩ := hstep
      obtain ⟨w, rfl, hw⟩ := ih
      exact ⟨x :: w, rfl, by simpa [hx] using hw⟩
  · rintro ⟨w, rfl, hw⟩
    induction w with
    | nil => exact .refl
    | cons x w ih =>
      have hrest := ih fun y hy => hw y (List.mem_cons_of_mem x hy)
      exact .head ⟨x, rfl, hw x List.mem_cons_self⟩ hrest

theorem oneChar_iterate_pos_iff {ok : Char → Prop} {t r : List Char} :
    Relation.TransGen (OneChar ok) t r ↔ ∃ w, t = w ++ r ∧ w ≠ [] ∧ ∀ x ∈ w, ok x := by
  rw [Relation.TransGen.head'_iff]
  constructor
  · rintro ⟨m, ⟨x, rfl, hx⟩, h⟩
    obtain ⟨w, rfl, hw⟩ := oneChar_iterate_iff.mp h
    exact ⟨x :: w, rfl, List.cons_ne_nil x w, by simpa [hx] using hw⟩
  · rintro ⟨w, rfl, hne, hw⟩
    obtain ⟨x, w, rfl⟩ := List.exists_cons_of_ne_nil hne
    refine ⟨w ++ r, ⟨x, rfl, hw x List.mem_cons_self⟩, oneChar_iterate_iff.mpr ⟨w, rfl, ?_⟩⟩
    exact fun y hy => hw y (List.mem_cons_of_mem x hy)

end Regex
end DebugTree
