import Mathlib.Tactic.Common
import DebugTree.Pattern.Basic
import DebugTree.Proofs.Regex.Reader

/-!
# The text of a pattern is read as the pattern

`read?_source` says as which expression the text of a pattern is read, and `finds_source_iff` that
this expression is found in a text exactly if the pattern matches at the start of it.  Both hold of
every pattern whose classes of two characters can be written down (`Writable`): two different
characters, neither of them a hyphen.

The text is followed through an arbitrary reader (`foldlM_step_body`), which is what makes the
statement go through brackets: what stands inside one is read at a fresh level, with the rest of the
text around it.  No special character of a pattern reaches the level around it, since `escape` puts
a backslash before every character to which the reader gives a meaning.
-/

namespace DebugTree
namespace Pattern

open Regex (Reader Level Bracket)

/-! ## The expression of a pattern -/

/-- One character of a class. -/
def classRegex : CharClass → Regex
  | .inLine => .dot
  | .inSegment => .noneOf ['/']

/-- What the text of a pattern adds to the level in which it stands. -/
def pieces : Pattern → List Regex
  | .empty => []
  | .char c => [.char c]
  | .oneOf a b => [.oneOf [a, b]]
  | .many s => [.star (classRegex s)]
  | .atLeastOne s => [.plus (classRegex s)]
  | .finish => [.finish]
  | .optional p => [.opt (Regex.sequence (pieces p))]
  | .notAhead p => [.notAhead (Regex.sequence (pieces p))]
  | .seq p q => pieces p ++ pieces q

/-- The expression of an anchored pattern. -/
def regex (p : Pattern) : Regex :=
  .seq .start (Regex.sequence (pieces p))

/-- The classes of the pattern can be written down. -/
def Writable : Pattern → Prop
  | .oneOf a b => a ≠ b ∧ a ≠ '-' ∧ b ≠ '-'
  | .optional p | .notAhead p => Writable p
  | .seq p q => Writable p ∧ Writable q
  | _ => True

/-! ## Single characters -/

theorem isPunctuation_of_mem_reserved {c : Char} (h : c ∈ reserved) :
    Regex.isPunctuation c = true := by
  have hall : reserved.all Regex.isPunctuation = true := by decide
  exact List.all_eq_true.mp hall c h

theorem plain_of_notMem_reserved {r : Reader} {c : Char} (h : c ∉ reserved) :
    r.plain c = some (r.push (.char c)) := by
  unfold Reader.plain
  split <;> first | rfl | exact absurd (by decide) h

theorem member_of_notMem_reserved (r : Reader) (negated : Bool) {members : List Char} {c : Char}
    (h : c ∉ reserved) (hyphen : c ≠ '-') (new : members.head? ≠ some c) :
    r.member negated members c = some { r with mode := .inClass negated (c :: members) } := by
  unfold Reader.member
  split
  · exact absurd (by decide) h
  · exact absurd (by decide) h
  · exact absurd (by decide) h
  · exact absurd rfl hyphen
  · rw [if_neg fun hc => new hc.2]

/-- A written character is read as itself. -/
theorem foldlM_step_escape (r : Reader) (hr : r.mode = .plain) (c : Char) :
    (escape c).foldlM Reader.step r = some (r.push (.char c)) := by
  unfold escape
  split
  · next h =>
    have hc := isPunctuation_of_mem_reserved h
    simp [Reader.step, hr, Reader.plain, hc, Reader.push]
  · next h => simp [Reader.step, hr, plain_of_notMem_reserved h]

/-- A written member of a class is read as a member. -/
theorem foldlM_step_escape_member (r : Reader) {negated : Bool} {members : List Char}
    (hr : r.mode = .inClass negated members) {c : Char} (hyphen : c ≠ '-')
    (new : members.head? ≠ some c) :
    (escape c).foldlM Reader.step r =
      some { r with mode := .inClass negated (c :: members) } := by
  unfold escape
  split
  · next h =>
    have hc := isPunctuation_of_mem_reserved h
    simp [Reader.step, hr, Reader.member, hc]
  · next h => simp [Reader.step, hr, member_of_notMem_reserved r negated h hyphen new]

/-- The first member of a class is read as a member, as it is no circumflex that stands alone. -/
theorem foldlM_step_escape_first (r : Reader) (hr : r.mode = .classOpened) {c : Char}
    (hyphen : c ≠ '-') :
    (escape c).foldlM Reader.step r = some { r with mode := .inClass false [c] } := by
  unfold escape
  split
  · next h =>
    have hc := isPunctuation_of_mem_reserved h
    simp [Reader.step, hr, Reader.member, hc]
  · next h =>
    have hcirc : c ≠ '^' := fun hc => h (hc ▸ by decide)
    have hnew : ([] : List Char).head? ≠ some c := by simp
    simp [Reader.step, hr, hcirc, member_of_notMem_reserved r false h hyphen hnew]

/-! ## Whole patterns -/

theorem foldlM_step_classText (r : Reader) (hr : r.mode = .plain) (s : CharClass) :
    (classText s).foldlM Reader.step r = some (r.push (classRegex s)) := by
  cases s <;> simp [classText, classRegex, Reader.step, Reader.plain, Reader.member, Reader.push, hr]

theorem repeated_push {l : Level} {p : Regex} (h : p.isRepeatable = true) (f : Regex → Regex) :
    (l.push p).repeated f = some (l.push (f p)) := by
  simp [Level.push, Level.repeated, h]

theorem isRepeatable_classRegex (s : CharClass) : (classRegex s).isRepeatable = true := by
  cases s <;> rfl

theorem isRepeatable_sequence (ps : List Regex) : (Regex.sequence ps).isRepeatable = true := by
  cases ps <;> rfl

/-- **Reading the text of a pattern adds the pieces of the pattern to the innermost level**, in
whatever context the text stands. -/
theorem foldlM_step_body {p : Pattern} (hp : p.Writable) (r : Reader) (hr : r.mode = .plain) :
    (body p).foldlM Reader.step r = some { r with level := r.level.append (pieces p) } := by
  induction p generalizing r with
  | empty => rfl
  | char c =>
    rw [body, foldlM_step_escape r hr]
    simp [pieces, Reader.push, hr]
  | oneOf a b =>
    obtain ⟨hab, ha, hb⟩ := hp
    have hnew : ([a] : List Char).head? ≠ some b := by simpa using hab
    have hopen : Reader.step r '[' = some { r with mode := .classOpened } := by
      simp [Reader.step, hr, Reader.plain]
    rw [body, List.cons_append, List.cons_append, List.foldlM_cons, hopen, Option.bind_eq_bind,
      Option.bind_some, List.append_assoc, List.foldlM_append, foldlM_step_escape_first _ rfl ha,
      Option.bind_eq_bind, Option.bind_some, List.foldlM_append,
      foldlM_step_escape_member _ rfl hb hnew, Option.bind_eq_bind, Option.bind_some]
    simp [Reader.step, Reader.member, Reader.push, pieces, hr]
  | many s =>
    rw [body, List.foldlM_append, foldlM_step_classText r hr]
    simp [Reader.step, Reader.plain, Reader.push, pieces, hr,
      repeated_push (isRepeatable_classRegex s)]
  | atLeastOne s =>
    rw [body, List.foldlM_append, foldlM_step_classText r hr]
    simp [Reader.step, Reader.plain, Reader.push, pieces, hr,
      repeated_push (isRepeatable_classRegex s)]
  | finish => simp [body, Reader.step, hr, Reader.plain, Reader.push, pieces]
  | optional p ih =>
    have henter : ['(', '?', ':'].foldlM Reader.step r = some (r.enter .group) := by
      simp [Reader.step, hr, Reader.plain, Reader.enter]
    rw [body, List.append_assoc, List.foldlM_append, henter, Option.bind_eq_bind, Option.bind_some,
      List.foldlM_append, ih hp _ rfl]
    simp [Reader.step, Reader.plain, Reader.enter, Reader.exit, Bracket.enclose, pieces, hr,
      Level.regex_fresh_append, repeated_push (isRepeatable_sequence (pieces p))]
  | notAhead p ih =>
    have henter : ['(', '?', '!'].foldlM Reader.step r = some (r.enter .lookahead) := by
      simp [Reader.step, hr, Reader.plain, Reader.enter]
    rw [body, List.append_assoc, List.foldlM_append, henter, Option.bind_eq_bind, Option.bind_some,
      List.foldlM_append, ih hp _ rfl]
    simp [Reader.step, Reader.plain, Reader.enter, Reader.exit, Bracket.enclose, pieces, hr,
      Level.regex_fresh_append]
  | seq p q ihp ihq =>
    have hq := ihq hp.2 { r with level := r.level.append (pieces p) } hr
    rw [body, List.foldlM_append, ihp hp.1 r hr, Option.bind_eq_bind, Option.bind_some, hq,
      Level.append_append]
    rfl

/-- **The text of a pattern is a regular expression**, and it is read as the expression of the
pattern. -/
theorem read?_source {p : Pattern} (hp : p.Writable) : Regex.read? p.source = some p.regex := by
  have hstart : Reader.step .fresh '^' = some (Reader.fresh.push .start) := rfl
  rw [Regex.read?, source, List.foldlM_cons, hstart, Option.bind_eq_bind, Option.bind_some,
    foldlM_step_body hp _ rfl]
  simp [Reader.result?, Reader.push, Reader.fresh, Level.regex, Level.append, Level.push, regex,
    Level.fresh, Regex.sequence]

/-! ## The meaning of the expression -/

section Meaning

variable {key : Char → Char} (hslash : ∀ x, key x = key '/' → x = '/')
include hslash

theorem matches_classRegex (s : CharClass) (text t r : List Char) :
    (classRegex s).Matches key text t r ↔ Regex.OneChar (fun x => s.has x = true) t r := by
  cases s with
  | inLine => simp [classRegex, Regex.Matches, Regex.OneChar, CharClass.has]
  | inSegment =>
    have hkey : ∀ x, key x ≠ key '/' ↔ x ≠ '/' := fun x =>
      not_congr ⟨hslash x, fun h => h ▸ rfl⟩
    simp [classRegex, Regex.Matches, Regex.OneChar, CharClass.has, hkey]

/-- The pieces of a pattern mean what the pattern means, wherever in a text they are matched. -/
theorem matches_sequence_pieces (p : Pattern) (text t r : List Char) :
    (Regex.sequence (pieces p)).Matches key text t r ↔ p.Matches key t r := by
  have hclass : ∀ s, (classRegex s).Matches key text = Regex.OneChar fun x => s.has x = true :=
    fun s => funext₂ fun t r => propext (matches_classRegex hslash s text t r)
  induction p generalizing t r with
  | empty => simp [pieces, Regex.sequence, Regex.Matches, Matches]
  | char c =>
    rw [pieces, Regex.matches_sequence_singleton]
    rfl
  | oneOf a b => simp [pieces, Regex.matches_sequence_singleton, Regex.Matches, Matches]
  | many s =>
    rw [pieces, Regex.matches_sequence_singleton, Regex.Matches, hclass,
      Regex.oneChar_iterate_iff]
    rfl
  | atLeastOne s =>
    rw [pieces, Regex.matches_sequence_singleton, Regex.Matches, hclass,
      Regex.oneChar_iterate_pos_iff]
    rfl
  | finish =>
    rw [pieces, Regex.matches_sequence_singleton, Regex.Matches, Matches]
    constructor
    · rintro ⟨rfl, rfl⟩
      exact ⟨rfl, rfl⟩
    · rintro ⟨rfl, rfl⟩
      exact ⟨rfl, rfl⟩
  | optional p ih =>
    rw [pieces, Regex.matches_sequence_singleton, Regex.Matches, Matches]
    simp only [ih]
  | notAhead p ih =>
    rw [pieces, Regex.matches_sequence_singleton, Regex.Matches, Matches]
    simp only [ih]
  | seq p q ihp ihq =>
    rw [pieces, Regex.matches_sequence_append, Matches]
    simp only [ihp, ihq]

/-- **The expression of a pattern is found in a text exactly if the pattern matches at its
start.** -/
theorem finds_regex_iff (p : Pattern) (text : List Char) :
    p.regex.Finds key text ↔ p.MatchesStart key text := by
  rw [regex, Regex.finds_start_seq]
  simp only [matches_sequence_pieces hslash]
  rfl

end Meaning

end Pattern
end DebugTree
