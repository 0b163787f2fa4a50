import DebugTree.Proofs.Glob.Exact

/-!
# Globs do not regard case

Texts that are equal up to case are matched by the same globs, whatever is spelled out in them and
whatever is left to stars.  For what is spelled out this is how characters are compared.  For stars
it is to be shown: no case folding leads into or out of a class, because only a line feed folds to a
line feed, and only a slash to a slash.

The induction is on the pattern, and says of the rest that is left what it says of the text.  A
lookahead turns the statement round, so it is about both directions at once.
-/

namespace DebugTree

open Text (simpleFold EqUpToCase)

/-! ## Texts -/

theorem CharClass.has_eq_of_simpleFold (s : CharClass) {x y : Char}
    (h : simpleFold x = simpleFold y) : s.has x = s.has y := by
  have hexcepted : ∀ d : Char, (∀ c, simpleFold c = simpleFold d → c = d) → (x = d ↔ y = d) := by
    intro d hd
    constructor
    · rintro rfl
      exact hd y h.symm
    · rintro rfl
      exact hd x h
  cases s with
  | inLine =>
    have hfeed := hexcepted '\n' fun _ => Text.eq_lineFeed_of_simpleFold
    rw [Bool.eq_iff_iff, has, has, bne_iff_ne, bne_iff_ne, ne_eq, ne_eq, hfeed]
  | inSegment =>
    have hslash := hexcepted '/' fun _ => Text.eq_slash_of_simpleFold
    rw [Bool.eq_iff_iff, has, has, bne_iff_ne, bne_iff_ne, ne_eq, ne_eq, hslash]

namespace Text

variable {s t w r : List Char} {x : Char}

theorem EqUpToCase.refl (s : List Char) : EqUpToCase s s :=
  Eq.refl (s.map simpleFold)

theorem EqUpToCase.symm (h : EqUpToCase s t) : EqUpToCase t s :=
  Eq.symm h

theorem EqUpToCase.exists_cons (h : EqUpToCase (x :: r) t) :
    ∃ y r', t = y :: r' ∧ simpleFold y = simpleFold x ∧ EqUpToCase r r' := by
  obtain ⟨y, r', rfl, hy, hr⟩ := List.map_eq_cons_iff.mp h.symm
  exact ⟨y, r', rfl, hy, hr.symm⟩

theorem EqUpToCase.exists_append (h : EqUpToCase (w ++ r) t) :
    ∃ w' r', t = w' ++ r' ∧ EqUpToCase w w' ∧ EqUpToCase r r' := by
  rw [EqUpToCase, List.map_append, eq_comm] at h
  obtain ⟨w', r', rfl, hw, hr⟩ := List.map_eq_append_iff.mp h
  exact ⟨w', r', rfl, hw.symm, hr.symm⟩

theorem EqUpToCase.eq_nil (h : EqUpToCase [] t) : t = [] :=
  List.map_eq_nil_iff.mp (Eq.symm h)

/-- A class has all characters of both texts or not. -/
theorem EqUpToCase.all_has (h : EqUpToCase s t) {c : CharClass} (hs : ∀ x ∈ s, c.has x = true) :
    ∀ y ∈ t, c.has y = true := by
  intro y hy
  have hfold : simpleFold y ∈ s.map simpleFold := h ▸ List.mem_map_of_mem hy
  obtain ⟨x, hx, heq⟩ := List.mem_map.mp hfold
  rw [← c.has_eq_of_simpleFold heq]
  exact hs x hx

/-- Lowering a text changes it in case only, as long as no letter becomes several. -/
theorem eqUpToCase_lowercase {text : String} (h : 'İ' ∉ text.toList) :
    EqUpToCase (lowercase text).toList text.toList := by
  rw [lowercase, String.toList_ofList]
  exact map_simpleFold_lowercaseFrom h []

end Text

/-! ## Patterns -/

/-- What a pattern matches and leaves of a text, it matches and leaves of every text that is equal
to it up to case. -/
theorem Pattern.Matches.of_eqUpToCase {p : Pattern} {t r t' : List Char}
    (h : Matches simpleFold p t r) (ht : EqUpToCase t t') :
    ∃ r', EqUpToCase r r' ∧ Matches simpleFold p t' r' := by
  induction p generalizing t r t' with
  | empty => exact ⟨t', h ▸ ht, rfl⟩
  | char c =>
    obtain ⟨x, rfl, hx⟩ := h
    obtain ⟨y, r', rfl, hy, hr⟩ := ht.exists_cons
    exact ⟨r', hr, y, rfl, hy.trans hx⟩
  | oneOf a b =>
    obtain ⟨x, rfl, hx⟩ := h
    obtain ⟨y, r', rfl, hy, hr⟩ := ht.exists_cons
    exact ⟨r', hr, y, rfl, hy ▸ hx⟩
  | many s =>
    obtain ⟨w, rfl, hw⟩ := h
    obtain ⟨w', r', rfl, hww, hr⟩ := ht.exists_append
    exact ⟨r', hr, w', rfl, hww.all_has hw⟩
  | atLeastOne s =>
    obtain ⟨w, rfl, hne, hw⟩ := h
    obtain ⟨w', r', rfl, hww, hr⟩ := ht.exists_append
    refine ⟨r', hr, w', rfl, ?_, hww.all_has hw⟩
    rintro rfl
    exact hne hww.symm.eq_nil
  | finish =>
    obtain ⟨rfl, rfl⟩ := h
    exact ⟨[], rfl, ht.eq_nil, rfl⟩
  | optional p ih =>
    rcases h with rfl | h
    · exact ⟨t', ht, Or.inl rfl⟩
    · obtain ⟨r', hr, h'⟩ := ih h ht
      exact ⟨r', hr, Or.inr h'⟩
  | notAhead p ih =>
    obtain ⟨rfl, hnone⟩ := h
    refine ⟨t', ht, rfl, fun ⟨q, hq⟩ => ?_⟩
    obtain ⟨q', -, hq'⟩ := ih hq ht.symm
    exact hnone ⟨q', hq'⟩
  | seq p q ihp ihq =>
    obtain ⟨m, hp, hq⟩ := h
    obtain ⟨m', hm, hp'⟩ := ihp hp ht
    obtain ⟨r', hr, hq'⟩ := ihq hq hm
    exact ⟨r', hr, m', hp', hq'⟩

theorem Pattern.accepts_eq_of_eqUpToCase (p : Pattern) {t t' : List Char} (h : EqUpToCase t t') :
    p.accepts simpleFold t = p.accepts simpleFold t' := by
  rw [Bool.eq_iff_iff, accepts_iff, accepts_iff]
  constructor
  · rintro ⟨r, hr⟩
    obtain ⟨r', -, hr'⟩ := hr.of_eqUpToCase h
    exact ⟨r', hr'⟩
  · rintro ⟨r, hr⟩
    obtain ⟨r', -, hr'⟩ := hr.of_eqUpToCase h.symm
    exact ⟨r', hr'⟩

/-! ## Lists of globs -/

/-- A glob covers with a text every text that is equal to it up to case. -/
theorem Glob.covers_of_eqUpToCase {sp : Spelling} {glob : List Char} {text text' : String}
    (hcov : Covers sp glob text) (h : EqUpToCase text.toList text'.toList) :
    Covers sp glob text' := by
  obtain ⟨r, hr⟩ := covers_iff.mp hcov
  obtain ⟨r', -, hr'⟩ := hr.of_eqUpToCase h
  exact covers_iff.mpr ⟨r', hr'⟩

/-- **A list of globs gives one answer** to texts that are equal up to case. -/
theorem GlobList.isMatch_eq_of_eqUpToCase (l : GlobList) {text text' : String}
    (h : EqUpToCase text.toList text'.toList) : l.isMatch text = l.isMatch text' := by
  have hone : ∀ g : CompiledGlob, g.isMatch text = g.isMatch text' :=
    fun g => g.pattern.accepts_eq_of_eqUpToCase h
  rw [isMatch, isMatch, funext hone]

end DebugTree
