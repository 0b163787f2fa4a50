import DebugTree.Pattern.Meaning

/-!
# Matching

All positions of the text are tracked at once: a set of positions is a list of flags, one before
each character and one at the end, and a pattern turns the set where it may start into the set
where it may end.  Nothing is tried twice, so the work is the length of the pattern times the
length of the text, however many stars there are.

`mem_step` says that the flags are right: a position is reached exactly if the pattern matches
from a flagged position up to it.  `accepts_iff` is the case of a match from the start.
-/

namespace DebugTree
namespace Pattern

/-! ## Sets of positions -/

/-- The position that leaves `r` of the text is flagged. -/
def Flagged : List Char → List Bool → List Char → Prop
  | [], m :: _, r => m = true ∧ r = []
  | c :: t, m :: ms, r => (m = true ∧ r = c :: t) ∨ Flagged t ms r
  | _, [], _ => False

/-- Only the start of the text. -/
def startOnly (t : List Char) : List Bool :=
  true :: t.map fun _ => false

/-- One character further, where the character is allowed. -/
def advance (ok : Char → Bool) (carry : Bool) : List Char → List Bool → List Bool
  | c :: t, m :: ms => carry :: advance ok (m && ok c) t ms
  | _, _ => [carry]

/-- Any number of characters further, as long as they are allowed. -/
def spread (ok : Char → Bool) (carry : Bool) : List Char → List Bool → List Bool
  | c :: t, m :: ms => (carry || m) :: spread ok ((carry || m) && ok c) t ms
  | _, m :: _ => [carry || m]
  | _, [] => [carry]

/-- Only the end of the text, if it is there. -/
def endOnly : List Char → List Bool → List Bool
  | _ :: t, _ :: ms => false :: endOnly t ms
  | _, m :: _ => [m]
  | _, [] => [false]

/-- Only positions from where the rest of the text passes a test. -/
def restrict (test : List Char → Bool) : List Char → List Bool → List Bool
  | c :: t, m :: ms => (m && test (c :: t)) :: restrict test t ms
  | [], m :: _ => [m && test []]
  | _, [] => [false]

/-- Positions of one set or the other. -/
def union (ms ns : List Bool) : List Bool :=
  List.zipWith (· || ·) ms ns

/-! ## The matcher -/

/-- Where a pattern may end, given where it may start. -/
def step (key : Char → Char) : Pattern → List Char → List Bool → List Bool
  | .empty, _, ms => ms
  | .char c, t, ms => advance (fun x => key x == key c) false t ms
  | .oneOf a b, t, ms => advance (fun x => key x == key a || key x == key b) false t ms
  | .many s, t, ms => spread s.has false t ms
  | .atLeastOne s, t, ms => spread s.has false t (advance s.has false t ms)
  | .finish, t, ms => endOnly t ms
  | .optional p, t, ms => union ms (step key p t ms)
  | .notAhead p, t, ms => restrict (fun r => !(step key p r (startOnly r)).any id) t ms
  | .seq p q, t, ms => step key q t (step key p t ms)

/-- The pattern matches a beginning of the text. -/
def accepts (key : Char → Char) (p : Pattern) (t : List Char) : Bool :=
  (step key p t (startOnly t)).any id

/-! ## The flags are right -/

/-- There is one flag for each position. -/
def Aligned (t : List Char) (ms : List Bool) : Prop :=
  ms.length = t.length + 1

theorem Aligned.tail {c : Char} {t : List Char} {m : Bool} {ms : List Bool}
    (h : Aligned (c :: t) (m :: ms)) : Aligned t ms := by
  simpa [Aligned] using h

theorem aligned_startOnly (t : List Char) : Aligned t (startOnly t) := by
  simp [Aligned, startOnly]

theorem aligned_advance (ok : Char → Bool) (carry : Bool) {t : List Char} {ms : List Bool}
    (h : Aligned t ms) : Aligned t (advance ok carry t ms) := by
  induction t generalizing carry ms with
  | nil => cases ms <;> simp [advance, Aligned]
  | cons c t ih =>
    cases ms with
    | nil => simp [Aligned] at h
    | cons m ms =>
      have := ih (m && ok c) h.tail
      simpa [advance, Aligned] using this

theorem aligned_spread (ok : Char → Bool) (carry : Bool) {t : List Char} {ms : List Bool}
    (h : Aligned t ms) : Aligned t (spread ok carry t ms) := by
  induction t generalizing carry ms with
  | nil => cases ms <;> simp [spread, Aligned]
  | cons c t ih =>
    cases ms with
    | nil => simp [Aligned] at h
    | cons m ms =>
      have := ih ((carry || m) && ok c) h.tail
      simpa [spread, Aligned] using this

theorem aligned_endOnly {t : List Char} {ms : List Bool} (h : Aligned t ms) :
    Aligned t (endOnly t ms) := by
  induction t generalizing ms with
  | nil => cases ms <;> simp [endOnly, Aligned]
  | cons c t ih =>
    cases ms with
    | nil => simp [Aligned] at h
    | cons m ms =>
      have := ih h.tail
      simpa [endOnly, Aligned] using this

theorem aligned_restrict (test : List Char → Bool) {t : List Char} {ms : List Bool}
    (h : Aligned t ms) : Aligned t (restrict test t ms) := by
  induction t generalizing ms with
  | nil => cases ms <;> simp [restrict, Aligned]
  | cons c t ih =>
    cases ms with
    | nil => simp [Aligned] at h
    | cons m ms =>
      have := ih h.tail
      simpa [restrict, Aligned] using this

theorem aligned_union {t : List Char} {ms ns : List Bool} (hm : Aligned t ms)
    (hn : Aligned t ns) : Aligned t (union ms ns) := by
  simp only [Aligned] at *
  simp [union, hm, hn]

theorem aligned_step (key : Char → Char) (p : Pattern) {t : List Char} {ms : List Bool}
    (h : Aligned t ms) : Aligned t (step key p t ms) := by
  induction p generalizing ms with
  | empty => exact h
  | char c => exact aligned_advance _ _ h
  | oneOf a b => exact aligned_advance _ _ h
  | many s => exact aligned_spread _ _ h
  | atLeastOne s => exact aligned_spread _ _ (aligned_advance _ _ h)
  | finish => exact aligned_endOnly h
  | optional p ih => exact aligned_union h (ih h)
  | notAhead p _ => exact aligned_restrict _ h
  | seq p q ihp ihq => exact ihq (ihp h)

theorem flagged_startOnly {t r : List Char} : Flagged t (startOnly t) r ↔ r = t := by
  have none_flagged : ∀ u : List Char, ¬ Flagged u (false :: u.map fun _ => false) r := by
    intro u
    induction u with
    | nil => simp [Flagged]
    | cons c u ih => simpa [Flagged] using ih
  cases t with
  | nil => simp [startOnly, Flagged]
  | cons c t =>
    constructor
    · rintro (⟨-, h⟩ | h)
      · exact h
      · exact absurd h (none_flagged t)
    · intro h
      exact Or.inl ⟨rfl, h⟩

theorem any_iff_flagged {t : List Char} {ms : List Bool} (h : Aligned t ms) :
    ms.any id = true ↔ ∃ r, Flagged t ms r := by
  induction t generalizing ms with
  | nil =>
    match ms, h with
    | [m], _ => simp [Flagged]
  | cons c t ih =>
    match ms, h with
    | m :: ms, h =>
      have := ih h.tail
      simp only [List.any_cons, id_eq, Bool.or_eq_true, this, Flagged]
      constructor
      · rintro (hm | ⟨r, hr⟩)
        · exact ⟨_, Or.inl ⟨hm, rfl⟩⟩
        · exact ⟨r, Or.inr hr⟩
      · rintro ⟨r, hm | hr⟩
        · exact Or.inl hm.1
        · exact Or.inr ⟨r, hr⟩

theorem flagged_advance (ok : Char → Bool) (carry : Bool) {t r : List Char} {ms : List Bool}
    (h : Aligned t ms) :
    Flagged t (advance ok carry t ms) r ↔
      (carry = true ∧ r = t) ∨ ∃ x, Flagged t ms (x :: r) ∧ ok x = true := by
  induction t generalizing carry ms with
  | nil =>
    match ms, h with
    | [m], _ => simp [advance, Flagged]
  | cons c t ih =>
    match ms, h with
    | m :: ms, h =>
      simp only [advance, Flagged, ih (m && ok c) h.tail,
        Bool.and_eq_true, List.cons.injEq]
      constructor
      · rintro (hc | ⟨⟨hm, hok⟩, rfl⟩ | ⟨x, hx, hok⟩)
        · exact Or.inl hc
        · exact Or.inr ⟨c, Or.inl ⟨hm, rfl, rfl⟩, hok⟩
        · exact Or.inr ⟨x, Or.inr hx, hok⟩
      · rintro (hc | ⟨x, ⟨hm, rfl, rfl⟩ | hx, hok⟩)
        · exact Or.inl hc
        · exact Or.inr (Or.inl ⟨⟨hm, hok⟩, rfl⟩)
        · exact Or.inr (Or.inr ⟨x, hx, hok⟩)

/-- A flagged position leaves an end of the text. -/
theorem Flagged.isSuffix {t r : List Char} {ms : List Bool} (h : Flagged t ms r) :
    ∃ w, t = w ++ r := by
  induction t generalizing ms with
  | nil =>
    cases ms with
    | nil => exact h.elim
    | cons m ms => exact ⟨[], by simpa [Flagged] using h.2.symm⟩
  | cons c t ih =>
    cases ms with
    | nil => exact h.elim
    | cons m ms =>
      rcases h with ⟨_, rfl⟩ | h
      · exact ⟨[], rfl⟩
      · obtain ⟨w, hw⟩ := ih h
        exact ⟨c :: w, by simp [hw]⟩

theorem flagged_spread (ok : Char → Bool) (carry : Bool) {t r : List Char} {ms : List Bool}
    (h : Aligned t ms) :
    Flagged t (spread ok carry t ms) r ↔
      (carry = true ∧ ∃ w, t = w ++ r ∧ ∀ x ∈ w, ok x = true) ∨
        ∃ q, Flagged t ms q ∧ ∃ w, q = w ++ r ∧ ∀ x ∈ w, ok x = true := by
  induction t generalizing carry ms with
  | nil =>
    match ms, h with
    | [m], _ =>
      simp only [spread, Flagged, Bool.or_eq_true]
      constructor
      · rintro ⟨hc | hm, rfl⟩
        · exact Or.inl ⟨hc, [], by simp⟩
        · exact Or.inr ⟨[], ⟨hm, rfl⟩, [], by simp⟩
      · rintro (⟨hc, w, hw, -⟩ | ⟨q, ⟨hm, rfl⟩, w, hw, -⟩)
        · exact ⟨Or.inl hc, (List.append_eq_nil_iff.1 hw.symm).2⟩
        · exact ⟨Or.inr hm, (List.append_eq_nil_iff.1 hw.symm).2⟩
  | cons c t ih =>
    match ms, h with
    | m :: ms, h =>
      simp only [spread, Flagged,
        ih ((carry || m) && ok c) h.tail,
        Bool.and_eq_true, Bool.or_eq_true]
      constructor
      · rintro (⟨hc | hm, rfl⟩ | ⟨⟨hc | hm, hok⟩, w, hw, hall⟩ | ⟨q, hq, w, hw, hall⟩)
        · exact Or.inl ⟨hc, [], by simp⟩
        · exact Or.inr ⟨c :: t, Or.inl ⟨hm, rfl⟩, [], by simp⟩
        · exact Or.inl ⟨hc, c :: w, by simp [hw], by simpa [hok] using hall⟩
        · exact Or.inr ⟨c :: t, Or.inl ⟨hm, rfl⟩, c :: w, by simp [hw], by simpa [hok] using hall⟩
        · exact Or.inr ⟨q, Or.inr hq, w, hw, hall⟩
      · rintro (⟨hc, w, hw, hall⟩ | ⟨q, ⟨hm, rfl⟩ | hq, w, hw, hall⟩)
        · cases w with
          | nil => exact Or.inl ⟨Or.inl hc, by simpa using hw.symm⟩
          | cons x w =>
            simp only [List.cons_append, List.cons.injEq] at hw
            obtain ⟨rfl, hw⟩ := hw
            exact Or.inr (Or.inl ⟨⟨Or.inl hc, hall _ (by simp)⟩, w, hw,
              fun y hy => hall y (by simp [hy])⟩)
        · cases w with
          | nil => exact Or.inl ⟨Or.inr hm, by simpa using hw.symm⟩
          | cons x w =>
            simp only [List.cons_append, List.cons.injEq] at hw
            obtain ⟨rfl, hw⟩ := hw
            exact Or.inr (Or.inl ⟨⟨Or.inr hm, hall _ (by simp)⟩, w, hw,
              fun y hy => hall y (by simp [hy])⟩)
        · exact Or.inr (Or.inr ⟨q, hq, w, hw, hall⟩)

theorem flagged_endOnly {t r : List Char} {ms : List Bool} (h : Aligned t ms) :
    Flagged t (endOnly t ms) r ↔ Flagged t ms [] ∧ r = [] := by
  induction t generalizing ms with
  | nil =>
    match ms, h with
    | [m], _ => simp [endOnly, Flagged]
  | cons c t ih =>
    match ms, h with
    | m :: ms, h =>
      simp [endOnly, Flagged, ih h.tail]

theorem flagged_restrict (test : List Char → Bool) {t r : List Char} {ms : List Bool}
    (h : Aligned t ms) :
    Flagged t (restrict test t ms) r ↔ Flagged t ms r ∧ test r = true := by
  induction t generalizing ms with
  | nil =>
    match ms, h with
    | [m], _ =>
      simp only [restrict, Flagged, Bool.and_eq_true]
      constructor
      · rintro ⟨⟨hm, ht⟩, rfl⟩; exact ⟨⟨hm, rfl⟩, ht⟩
      · rintro ⟨⟨hm, rfl⟩, ht⟩; exact ⟨⟨hm, ht⟩, rfl⟩
  | cons c t ih =>
    match ms, h with
    | m :: ms, h =>
      simp only [restrict, Flagged, ih h.tail,
        Bool.and_eq_true]
      constructor
      · rintro (⟨⟨hm, ht⟩, rfl⟩ | ⟨hr, ht⟩)
        · exact ⟨Or.inl ⟨hm, rfl⟩, ht⟩
        · exact ⟨Or.inr hr, ht⟩
      · rintro ⟨⟨hm, rfl⟩ | hr, ht⟩
        · exact Or.inl ⟨⟨hm, ht⟩, rfl⟩
        · exact Or.inr ⟨hr, ht⟩

theorem flagged_union {t r : List Char} {ms ns : List Bool} (hm : Aligned t ms)
    (hn : Aligned t ns) :
    Flagged t (union ms ns) r ↔ Flagged t ms r ∨ Flagged t ns r := by
  induction t generalizing ms ns with
  | nil =>
    match ms, ns, hm, hn with
    | [m], [n], _, _ => simp only [union, List.zipWith, Flagged, Bool.or_eq_true]; grind
  | cons c t ih =>
    match ms, ns, hm, hn with
    | m :: ms, n :: ns, hm, hn =>
      have := ih hm.tail hn.tail
      simp only [union, List.zipWith_cons_cons, Flagged, Bool.or_eq_true] at this ⊢
      grind

/-- A position is reached exactly if the pattern matches up to it from a flagged one. -/
theorem flagged_step (key : Char → Char) (p : Pattern) {t r : List Char} {ms : List Bool}
    (h : Aligned t ms) :
    Flagged t (step key p t ms) r ↔ ∃ q, Flagged t ms q ∧ Matches key p q r := by
  induction p generalizing t ms r with
  | empty => simp [step, Matches]
  | char c =>
    simp only [step, flagged_advance _ _ h, Matches]
    grind
  | oneOf a b =>
    simp only [step, flagged_advance _ _ h, Matches]
    grind
  | many s => simp [step, flagged_spread _ _ h, Matches]
  | atLeastOne s =>
    simp only [step, flagged_spread _ _ (aligned_advance _ _ h), flagged_advance _ _ h, Matches]
    constructor
    · rintro (⟨h, -⟩ | ⟨q, ⟨h, -⟩ | ⟨x, hx, hok⟩, w, rfl, hall⟩)
      · exact absurd h (by simp)
      · exact absurd h (by simp)
      · exact ⟨_, hx, x :: w, by simp, by simp, by simpa [hok] using hall⟩
    · rintro ⟨q, hq, w, rfl, hne, hall⟩
      cases w with
      | nil => exact absurd rfl hne
      | cons x w =>
        exact Or.inr ⟨w ++ r, Or.inr ⟨x, hq, hall x (by simp)⟩, w, rfl,
          fun y hy => hall y (by simp [hy])⟩
  | finish => simp only [step, flagged_endOnly h, Matches]; grind
  | optional p ih =>
    simp only [step, flagged_union h (aligned_step key p h), ih h, Matches]
    grind
  | notAhead p ih =>
    have inner : ∀ q : List Char,
        (!(step key p q (startOnly q)).any id) = true ↔ ¬ ∃ r, Matches key p q r := by
      intro q
      rw [Bool.not_eq_true', ← Bool.not_eq_true,
        any_iff_flagged (aligned_step key p (aligned_startOnly q))]
      simp [ih (aligned_startOnly q), flagged_startOnly]
    simp only [step, flagged_restrict _ h, inner, Matches]
    grind
  | seq p q ihp ihq =>
    simp only [step, ihq (aligned_step key p h), ihp h, Matches]
    grind

/-- The matcher decides the meaning. -/
theorem accepts_iff (key : Char → Char) (p : Pattern) (t : List Char) :
    accepts key p t = true ↔ MatchesStart key p t := by
  rw [accepts, any_iff_flagged (aligned_step key p (aligned_startOnly t))]
  simp [flagged_step key p (aligned_startOnly t), flagged_startOnly, MatchesStart]

end Pattern
end DebugTree
