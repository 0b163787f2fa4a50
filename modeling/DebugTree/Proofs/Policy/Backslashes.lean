import DebugTree.Proofs.Glob.Exact
import DebugTree.Proofs.Policy.Explicit

/-!
# Choices about URLs with backslashes

An explicit choice puts the URL into the list of globs as it stands, and questions are asked about
the URL with forward slashes.  As long as there is no backslash in the URL the two are the same text
and the choice is obeyed (`isSkipped_setExplicitSkip`).  A glob with a backslash in it, however,
covers no text without one.  So what a choice appends for a URL with backslashes decides nothing
about that URL: a positive entry has no effect at all, and of two negations only the one of the
decoded path has any.

The obvious statement, that every choice is obeyed, therefore holds only where the list without
entries for the URL already decides as wanted (`AgreesAnyway`), and nowhere else.
-/

namespace DebugTree

open Glob

namespace SkipPolicy

variable {p : SkipPolicy} {c : PathCase} {l : GlobList} {url : String}

/-- The entries that do not name the URL decide as wanted: to skip it they match either form of it,
and to keep it they leave the form with forward slashes alone.  The decoded path is spelled without
backslashes anyway, so its negation does what it should. -/
def AgreesAnyway (p : SkipPolicy) (url : String) (skipped : Bool) : Prop :=
  let rest := withoutLiterals p.authored (spellings url)
  if skipped then matchesEitherForm p.pathCase rest url = true
  else rest.isMatch (p.normalize url) = false

/-! ## Backslashes in globs -/

/-- **A glob with a backslash covers no text without one.** -/
theorem not_covers_of_backslash {glob : List Char} {text : String} (hglob : '\\' ∈ glob)
    (htext : '\\' ∉ text.toList) : ¬ Covers .exact glob text := by
  intro hcov
  obtain ⟨x, hx, hfold⟩ := exists_simpleFold_eq_of_covers hglob (by decide) (by decide) hcov
  exact htext (Text.eq_backslash_of_simpleFold hfold ▸ hx)

theorem toList_normalizeText (hc : c.isInsensitive = false) (url : String) :
    (normalizeText c url).toList = Text.replaceChar '\\' '/' url.toList := by
  simp only [normalizeText, hc, Bool.false_eq_true, if_false, String.toList_ofList]

theorem notMem_backslash_normalizeText (hc : c.isInsensitive = false) (url : String) :
    '\\' ∉ (normalizeText c url).toList := by
  rw [toList_normalizeText hc]
  exact FileUrl.replaceChar_ne (by decide) url.toList

/-- A file URL does not begin with a slash of either kind, and no lowering makes it. -/
theorem normalizeText_ne_slash {path : String} (hpath : FileUrl.toPath? url = some path)
    (t : List Char) : (normalizeText c url).toList ≠ '/' :: t := by
  intro hnormal
  have hreplaced : ∃ rest, Text.replaceChar '\\' '/' url.toList = '/' :: rest := by
    rw [normalizeText] at hnormal
    split at hnormal
    · rw [Text.lowercase, String.toList_ofList, String.toList_ofList] at hnormal
      exact Text.exists_of_lowercaseFrom_slash hnormal
    · rw [String.toList_ofList] at hnormal
      exact ⟨t, hnormal⟩
  obtain ⟨rest, hreplaced⟩ := hreplaced
  rw [Text.replaceChar, List.map_eq_cons_iff] at hreplaced
  obtain ⟨d, ds, hurl, hd, -⟩ := hreplaced
  have hslash : FileUrl.isSlash d = true := by
    split at hd
    · next hback => rw [hback]; rfl
    · rw [hd]; rfl
  rw [FileUrl.isSlash_eq_false_of_toPath? hpath hurl] at hslash
  exact absurd hslash (by decide)

/-- The decoded path begins with a slash and the URL does not, so no negation of the path takes out
the URL. -/
theorem not_covers_path {sp : Spelling} {path : String} (hpath : FileUrl.toPath? url = some path) :
    ¬ Covers sp path.toList (normalizeText c url) := by
  intro hcov
  obtain ⟨⟨rest, hrest⟩, -⟩ := FileUrl.toPath?_shape hpath
  rw [hrest] at hcov
  obtain ⟨t, ht⟩ := exists_of_covers_slash hcov
  exact normalizeText_ne_slash hpath t ht

/-! ## The edit of the globs -/

/-- An entry with a backslash at the end of the list has no effect on either form of a URL. -/
theorem matchesEitherForm_push_backslash (hc : c.isInsensitive = false) (h : l.Sound)
    (hsp : l.spelling = .exact) (hback : '\\' ∈ url.toList) (hmark : url.toList.head? ≠ some '!') :
    matchesEitherForm c (l.push url) url = true ↔ matchesEitherForm c l url = true := by
  have hpush : ∀ text : String, '\\' ∉ text.toList →
      ((l.push url).isMatch text = true ↔ l.isMatch text = true) := by
    intro text htext
    rw [h.isMatch_push_positive (bne_iff_ne.mpr hmark), hsp]
    exact or_iff_left (not_covers_of_backslash hback htext)
  rw [matchesEitherForm_iff_or hc, matchesEitherForm_iff_or hc,
    hpush _ (notMem_backslash_normalizeText hc url)]
  refine or_congr Iff.rfl (exists_congr fun path => and_congr_right fun hpath => ?_)
  exact hpush path (FileUrl.toPath?_shape hpath).2

/-- The negations of both spellings take out the path, and leave the URL as it was. -/
theorem matchesEitherForm_negations_backslash (hc : c.isInsensitive = false) (h : l.Sound)
    (hsp : l.spelling = .exact) (hback : '\\' ∈ url.toList) :
    matchesEitherForm c (((spellings url).map negation).foldl GlobList.push l) url = true ↔
      l.isMatch (normalizeText c url) = true := by
  have hurl : url ≠ "" := by
    rintro rfl
    exact absurd hback (by decide)
  have hall := isMatch_foldl_negation h (fun t => ne_nil_of_mem_spellings hurl (t := t))
  have hpaths : ¬ ∃ path, FileUrl.toPath? url = some path ∧
      (((spellings url).map negation).foldl GlobList.push l).isMatch path = true := by
    rintro ⟨path, hpath, hmatch⟩
    have hmem : path ∈ spellings url := List.mem_cons_of_mem url (Option.mem_toList.mpr hpath)
    rw [hall, hsp] at hmatch
    exact hmatch.2 path hmem (covers_self path)
  rw [matchesEitherForm_iff_or hc, or_iff_left hpaths, hall, hsp]
  refine and_iff_left fun t ht => ?_
  rcases List.mem_cons.mp ht with rfl | ht
  · exact not_covers_of_backslash hback (notMem_backslash_normalizeText hc t)
  · exact not_covers_path (Option.mem_toList.mp ht)

/-- The edited list decides as chosen only if it would have without the new entries. -/
theorem matchesEitherForm_editLiterals_backslash (h : p.Lawful)
    (hc : p.pathCase.isInsensitive = false) (hback : '\\' ∈ url.toList)
    (hmark : url.toList.head? ≠ some '!') (skipped : Bool) :
    matchesEitherForm p.pathCase (editLiterals p.authored (spellings url) skipped
      (matchesEitherForm p.pathCase · url)) url = skipped ↔ AgreesAnyway p url skipped := by
  have hsp : (withoutLiterals p.authored (spellings url)).spelling = .exact :=
    h.spelling_eq_exact hc
  have hrest : (withoutLiterals p.authored (spellings url)).Sound := h.authored.retain _
  unfold editLiterals AgreesAnyway
  simp only
  cases skipped with
  | true =>
    split
    · next hagrees => simp only [hagrees, if_true]
    · rw [if_pos rfl, if_pos rfl]
      exact matchesEitherForm_push_backslash hc hrest hsp hback hmark
  | false =>
    rw [if_neg Bool.false_ne_true, if_neg Bool.false_ne_true]
    split
    · next hagrees =>
      -- nothing is appended to entries that match neither form
      have hform := mt (matchesEitherForm_iff_or hc _ url).mpr (Bool.eq_false_iff.mp hagrees)
      exact iff_of_true hagrees (Bool.eq_false_iff.mpr fun hurl => hform (Or.inl hurl))
    · rw [← Bool.not_eq_true, ← Bool.not_eq_true, not_iff_not]
      exact matchesEitherForm_negations_backslash hc hrest hsp hback

/-! ## The decision -/

/-- **Which choices are obeyed.**  The policy says about a URL what has been chosen for it exactly
if the URL has no backslash, or if the globs that do not name it decide so anyway. -/
theorem setExplicitSkip_obeyed_iff (h : p.Lawful) (hc : p.pathCase.isInsensitive = false)
    (hne : url ≠ "") (hmark : url.toList.head? ≠ some '!') (hint : p.isNodeInternal url = false)
    (skipped : Bool) :
    (p.setExplicitSkip url skipped).isSkipped url = skipped ↔
      '\\' ∉ url.toList ∨ AgreesAnyway p url skipped := by
  by_cases hback : '\\' ∈ url.toList
  · rw [isSkipped_setExplicitSkip_eq hint, or_iff_right (not_not_intro hback)]
    exact matchesEitherForm_editLiterals_backslash h hc hback hmark skipped
  · exact iff_of_true (isSkipped_setExplicitSkip h hc ⟨hne, hback, hmark⟩ hint skipped)
      (Or.inl hback)

/-- A file of a skipped directory is kept, as its URL was not matched in the first place. -/
theorem setExplicitSkip_obeyed_iff_drive :
    let p := ofGlobs ["/C:/app/**"] none .sensitive
    let url := "file:///C:\\app\\a.js"
    p.isNodeInternal url = false ∧
      ((p.setExplicitSkip url false).isSkipped url = false ↔
        '\\' ∉ url.toList ∨ AgreesAnyway p url false) ∧
      AgreesAnyway p url false :=
  ⟨by decide +kernel,
    setExplicitSkip_obeyed_iff (lawful_ofGlobs ["/C:/app/**"] none .sensitive) rfl (by decide)
      (by decide) (by decide +kernel) false,
    by unfold AgreesAnyway; decide +kernel⟩

/-- **Not every choice is obeyed.**  A path with backslashes that is chosen to be skipped is not. -/
theorem skipped_path_not_skipped :
    let p := ofGlobs [] none .sensitive
    let url := "C:\\app\\a.js"
    p.Lawful ∧ p.pathCase.isInsensitive = false ∧ url ≠ "" ∧ url.toList.head? ≠ some '!' ∧
      p.isNodeInternal url = false ∧ (p.setExplicitSkip url true).isSkipped url = false :=
  ⟨lawful_ofGlobs [] none .sensitive, rfl, by decide, by decide, by decide +kernel,
    by decide +kernel⟩

end SkipPolicy
end DebugTree
