import DebugTree.Proofs.Glob.Exact
import DebugTree.Proofs.Policy.Editing

/-!
# Choices and other files

A choice about one file takes entries away that a user may have written, and what it appends is
spliced into the patterns of all entries before it.  Still it has no effect on any other file.  An
entry that names the file, positive or negated, covers one text only, up to case, as long as there
are no stars in it (`Glob.covers_iff_eqUpToCase`); and an entry that does not cover a text neither
matches the text nor takes it out, so it may be dropped from the list
(`Glob.any_isMatch_compile_filter`).  Before and after a choice, the list without the entries that
name the file is the same (`unnamed_editLiterals`).

Patterns ignore case, so a file whose name differs in case only counts as named, even where paths
are told apart by case.
-/

namespace DebugTree

namespace Glob

variable {sp : Spelling} {entries : List String} {text : String}

/-! ## Entries without effect -/

/-- The entry neither matches the text nor takes it out. -/
def Idle (sp : Spelling) (text entry : String) : Prop :=
  (isPositive entry = true → ¬ Covers sp entry.toList text) ∧
    ∀ n, exception? entry = some n → ¬ Covers sp n text

theorem spares_filter {keep : String → Bool}
    (h : ∀ e ∈ entries, keep e = false → Idle sp text e) :
    Spares sp (entries.filter keep) text ↔ Spares sp entries text := by
  rw [spares_iff, spares_iff]
  constructor
  · intro hkept e he n hn
    cases hk : keep e with
    | true => exact hkept e (List.mem_filter.mpr ⟨he, hk⟩) n hn
    | false => exact (h e he hk).2 n hn
  · exact fun hall e he => hall e (List.mem_of_mem_filter he)

/-- **Entries without effect on a text may be dropped**, wherever they stand. -/
theorem any_isMatch_compile_filter {keep : String → Bool}
    (h : ∀ e ∈ entries, keep e = false → Idle sp text e) :
    (compile sp (entries.filter keep)).any (·.isMatch text) = true ↔
      (compile sp entries).any (·.isMatch text) = true := by
  induction entries with
  | nil => exact Iff.rfl
  | cons e rest ih =>
    obtain ⟨hhead, htail⟩ := List.forall_mem_cons.mp h
    rw [any_isMatch_compile_cons, ← ih htail]
    cases hk : keep e with
    | true =>
      -- what is dropped behind the entry would not have taken the text out of it
      rw [List.filter_cons_of_pos hk, any_isMatch_compile_cons, spares_filter htail]
    | false =>
      rw [List.filter_cons_of_neg (by simp [hk])]
      exact (or_iff_right fun hmatch => (hhead hk).1 hmatch.1.1 hmatch.1.2).symm

end Glob

open Glob

namespace SkipPolicy

variable {p : SkipPolicy} {c : PathCase} {l : GlobList} {literals : List String} {text u v : String}

theorem unmarked_of_positive {entry : String} (h : isPositive entry = true) :
    unmarked entry = entry :=
  unmarked_of_no_mark (bne_iff_ne.mp h)

theorem toList_unmarked_of_exception {entry : String} {n : List Char}
    (h : exception? entry = some n) : (unmarked entry).toList = n := by
  rw [unmarked, (exception?_eq_some.mp h).1]
  exact String.toList_ofList

theorem idle_of_not_covers_unmarked {sp : Spelling} {entry : String}
    (h : ¬ Covers sp (unmarked entry).toList text) : Idle sp text entry := by
  refine ⟨fun hpos => ?_, fun n hn => ?_⟩
  · rwa [unmarked_of_positive hpos] at h
  · rwa [toList_unmarked_of_exception hn] at h

/-! ## Texts that are not named -/

/-- The text is none of the spellings, not even up to case. -/
def IsUnnamed (literals : List String) (text : String) : Prop :=
  ∀ t ∈ literals, ¬ Text.EqUpToCase text.toList t.toList

instance (literals : List String) (text : String) : Decidable (IsUnnamed literals text) :=
  inferInstanceAs (Decidable (∀ t ∈ literals, ¬ Text.EqUpToCase text.toList t.toList))

/-- A spelling without stars covers no text that is not named. -/
theorem IsUnnamed.not_covers (htext : IsUnnamed literals text)
    (hstars : ∀ t ∈ literals, '*' ∉ t.toList) : ∀ t ∈ literals, ¬ Covers .exact t.toList text :=
  fun t ht hcov => htext t ht ((covers_iff_eqUpToCase (hstars t ht)).mp hcov)

/-- A list that is asked about a text that no spelling covers answers as if it had no entry for the
spellings. -/
theorem isMatch_iff_unnamed (h : l.Sound)
    (hfree : ∀ t ∈ literals, ¬ Covers l.spelling t.toList text) :
    l.isMatch text = true ↔
      (compile l.spelling (unnamed literals l.globs)).any (·.isMatch text) = true := by
  have hidle : ∀ e ∈ l.globs, (!literals.contains (unmarked e)) = false →
      Idle l.spelling text e := by
    intro e _ hnamed
    have hmem : unmarked e ∈ literals := by simpa using hnamed
    exact idle_of_not_covers_unmarked (hfree _ hmem)
  rw [unnamed, any_isMatch_compile_filter hidle, GlobList.isMatch, h.compiled_eq]

/-- **An edit has no effect on texts that no spelling covers.** -/
theorem isMatch_editLiterals (h : l.Sound)
    (hmark : ∀ t ∈ literals, t.toList.head? ≠ some '!')
    (hfree : ∀ t ∈ literals, ¬ Covers l.spelling t.toList text) (skipped : Bool)
    (isMatch : GlobList → Bool) :
    (editLiterals l literals skipped isMatch).isMatch text = l.isMatch text := by
  obtain ⟨hsound, hspelling⟩ := sound_editLiterals h literals skipped isMatch
  rw [Bool.eq_iff_iff, isMatch_iff_unnamed hsound (by rwa [hspelling]), hspelling,
    unnamed_editLiterals hmark, isMatch_iff_unnamed h hfree]

/-! ## Other files -/

/-- An entry for the URL stands for one text, whichever spelling it has: there are no stars in it,
and it does not look like a negation. -/
structure StandsForOne (u : String) : Prop where
  no_star : ∀ t ∈ spellings u, '*' ∉ t.toList
  no_mark : u.toList.head? ≠ some '!'
  no_star_name : '*' ∉ (moduleName u).toList
  no_mark_name : (moduleName u).toList.head? ≠ some '!'

/-- Nothing names both URLs: they are recorded under different keys, no form of the one under which
it is compared with globs is a spelling of the other, and their names as modules differ. -/
structure Apart (c : PathCase) (u v : String) : Prop where
  keys : normalizeText c v ≠ normalizeText c u
  forms : ∀ t ∈ spellings v, IsUnnamed (spellings u) (normalizeText c t)
  names : ¬ Text.EqUpToCase (moduleName v).toList (moduleName u).toList

theorem matchesEitherForm_congr {m : GlobList}
    (h : ∀ t ∈ spellings v, m.isMatch (normalizeText c t) = l.isMatch (normalizeText c t)) :
    matchesEitherForm c m v = matchesEitherForm c l v := by
  rw [matchesEitherForm, matchesEitherForm, h v List.mem_cons_self]
  congr 1
  cases hpath : FileUrl.toPath? v with
  | none => rfl
  | some path => exact h path (List.mem_cons_of_mem v (Option.mem_toList.mpr hpath))

theorem testNodeInternal_chooseInternal (h : p.Lawful) (hc : p.pathCase.isInsensitive = false)
    (hu : StandsForOne u) (hv : Apart p.pathCase u v) (skipped : Bool) :
    (p.chooseInternal u skipped).testNodeInternal v = p.testNodeInternal v := by
  obtain ⟨hsound, hspelling⟩ := h.internals_getD
  have hexact := hspelling.trans (Spelling.ofCase_of_sensitive hc)
  have hstars : ∀ t ∈ [moduleName u], '*' ∉ t.toList := by simpa using hu.no_star_name
  have hmarks : ∀ t ∈ [moduleName u], t.toList.head? ≠ some '!' := by simpa using hu.no_mark_name
  have hnames : IsUnnamed [moduleName u] (moduleName v) := by simpa [IsUnnamed] using hv.names
  have hedit := isMatch_editLiterals hsound hmarks (hexact ▸ hnames.not_covers hstars) skipped
    (·.isMatch (moduleName u))
  rw [testNodeInternal, testNodeInternal]
  congr 1
  refine hedit.trans ?_
  -- without a list nothing is matched, and the empty list matches nothing either
  cases p.nodeInternals <;> rfl

theorem testAuthored_chooseAuthored (h : p.Lawful) (hc : p.pathCase.isInsensitive = false)
    (hu : StandsForOne u) (hv : Apart p.pathCase u v) (skipped : Bool) :
    (p.chooseAuthored u skipped).testAuthored v = p.testAuthored v :=
  matchesEitherForm_congr fun t ht => isMatch_editLiterals h.authored
    (fun _ => no_mark_of_mem_spellings hu.no_mark)
    (h.spelling_eq_exact hc ▸ (hv.forms t ht).not_covers hu.no_star) skipped _

/-- A choice has no effect on another file.  A runtime module is tested against the globs for such
modules only, a file against the authored ones only, so there is something to show only if both URLs
are of one kind. -/
theorem isSkipped_setExplicitSkip_of_apart (h : p.Lawful) (hc : p.pathCase.isInsensitive = false)
    (hu : StandsForOne u) (hv : Apart p.pathCase u v) (skipped : Bool) :
    (p.setExplicitSkip u skipped).isSkipped v = p.isSkipped v := by
  cases hint : p.isNodeInternal u with
  | true =>
    have htest := testNodeInternal_chooseInternal h hc hu hv skipped
    rw [setExplicitSkip_of_internal hint, isSkipped, isSkipped, htest]
    rfl
  | false =>
    have htest := testAuthored_chooseAuthored h hc hu hv skipped
    have hrecord : (p.chooseAuthored u skipped).overrideFor v = p.overrideFor v :=
      (Index.get?_erase p.overrides _ _).trans (if_neg (Ne.symm hv.keys))
    rw [setExplicitSkip_of_not_internal hint, isSkipped, isSkipped, htest, hrecord]
    rfl

/-- **A choice about one file has an effect on that file only.**  Another one is skipped before and
after it or not at all, however many choices are made in a row; and the file itself, unless it is a
runtime module or has backslashes in its URL, is skipped as chosen. -/
theorem bystanders_spec (h : p.Lawful) (hc : p.pathCase.isInsensitive = false)
    (hu : StandsForOne u) (hv : Apart p.pathCase u v) :
    (∀ skipped, (p.setExplicitSkip u skipped).isSkipped v = p.isSkipped v) ∧
    (∀ choices, (p.chooseAll u choices).isSkipped v = p.isSkipped v) ∧
    (IsPlainUrl u → p.isNodeInternal u = false →
      ∀ skipped, (p.setExplicitSkip u skipped).isSkipped u = skipped) := by
  refine ⟨isSkipped_setExplicitSkip_of_apart h hc hu hv, fun choices => ?_,
    fun hplain hint => isSkipped_setExplicitSkip h hc hplain hint⟩
  induction choices generalizing p with
  | nil => rfl
  | cons choice choices ih =>
    have hcase := (p.fixed_setExplicitSkip u choice).1
    refine (ih (h.setExplicitSkip u choice) ?_ ?_).trans
      (isSkipped_setExplicitSkip_of_apart h hc hu hv choice)
    · rw [hcase]
      exact hc
    · rw [hcase]
      exact hv

/-- A file whose exception is dropped, beside one of the same directory. -/
theorem bystanders_spec_exception :
    let p := ofGlobs ["/app/**", "!/app/a.js", "**/lib/**"] none .sensitive
    let u := "file:///app/a.js"
    let v := "file:///app/b.js"
    (p.isSkipped u = false ∧ (p.setExplicitSkip u true).isSkipped u = true) ∧
      (p.isSkipped v = true ∧ (p.setExplicitSkip u true).isSkipped v = p.isSkipped v) ∧
      (p.setExplicitSkip u true).authored.globs = ["/app/**", "**/lib/**"] := by
  intro p u v
  have hu : StandsForOne u :=
    ⟨by decide +kernel, by decide +kernel, by decide +kernel, by decide +kernel⟩
  have hv : Apart p.pathCase u v := ⟨by decide +kernel, by decide +kernel, by decide +kernel⟩
  have hplain : IsPlainUrl u := ⟨by decide, by decide, by decide⟩
  obtain ⟨hother, -, hself⟩ := bystanders_spec (lawful_ofGlobs _ none .sensitive) rfl hu hv
  exact ⟨⟨by decide +kernel, hself hplain (by decide +kernel) true⟩,
    ⟨by decide +kernel, hother true⟩, by decide +kernel⟩

end SkipPolicy
end DebugTree
