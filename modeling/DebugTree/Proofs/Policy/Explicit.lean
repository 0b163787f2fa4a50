import DebugTree.Policy.Edit
import DebugTree.Proofs.FileUrl.Shape
import DebugTree.Proofs.Glob.Folding
import DebugTree.Skipper.Change

/-!
# An explicit choice is carried out

Whoever decides about a file finds the file in the chosen state afterwards, whatever the policy was.
A decision goes one of three ways: an edit of the globs, a record for the URL, and records for
everything below it.  The last two are looked up again under the same key.  The first one has to
reckon with the rest of the list: an entry at the end has the last word, and the spelling
of a file matches itself; to take a file out, every spelling of it is negated.

## Which policies there are

A policy that was made of globs is *lawful*: what its lists remember is up to date, and they are
spelled as its case rule asks for.  Every edit keeps a policy lawful.
-/

namespace DebugTree

open Glob

theorem Spelling.ofCase_of_sensitive {c : PathCase} (hc : c.isInsensitive = false) :
    Spelling.ofCase c = .exact :=
  if_neg (Bool.eq_false_iff.mp hc)

/-- The lists of the policy are spelled by its case rule and remember what they compile to. -/
structure SkipPolicy.Lawful (p : SkipPolicy) : Prop where
  authored : p.authored.Sound
  authored_spelling : p.authored.spelling = .ofCase p.pathCase
  internals : ∀ l, p.nodeInternals = some l → l.Sound ∧ l.spelling = .ofCase p.pathCase

/-- The URL can be written as an entry of a list of globs: it is not empty, does not look like a
negation, and is compared with globs as it stands. -/
structure IsPlainUrl (url : String) : Prop where
  ne_empty : url ≠ ""
  no_backslash : '\\' ∉ url.toList
  no_mark : url.toList.head? ≠ some '!'

/-- Lowering the URL or its path replaces letters one by one, if it is done at all: there is no `İ`,
the only letter whose lower case is two characters. -/
def LowersByLetter (c : PathCase) (url : String) : Prop :=
  c.isInsensitive = true → ∀ t ∈ SkipPolicy.spellings url, 'İ' ∉ t.toList

theorem lowersByLetter_of_sensitive {c : PathCase} (hc : c.isInsensitive = false) (url : String) :
    LowersByLetter c url :=
  fun hc' => Bool.noConfusion (hc.symm.trans hc')

/-- The URL can be written as an entry of a list of globs that goes by a case rule: it is not empty,
does not look like a negation, and each of its spellings covers the form under which it is compared
with globs. -/
structure IsWritable (c : PathCase) (url : String) : Prop where
  ne_empty : url ≠ ""
  no_mark : url.toList.head? ≠ some '!'
  covers : ∀ t ∈ SkipPolicy.spellings url,
    Covers (.ofCase c) t.toList (SkipPolicy.normalizeText c t)

namespace SkipPolicy

variable {p : SkipPolicy}

/-! ## Lawful policies -/

theorem lawful_ofGlobs (authored : List String) (internals : Option (List String)) (c : PathCase) :
    (ofGlobs authored internals c).Lawful where
  authored := GlobList.sound_ofList _ _
  authored_spelling := rfl
  internals := by
    intro l hl
    obtain ⟨globs, -, rfl⟩ := Option.map_eq_some_iff.mp hl
    exact ⟨GlobList.sound_ofList _ _, rfl⟩

theorem Lawful.spelling_eq_exact (h : p.Lawful) (hc : p.pathCase.isInsensitive = false) :
    p.authored.spelling = .exact :=
  h.authored_spelling.trans (Spelling.ofCase_of_sensitive hc)

/-- A choice about a runtime module edits the empty list if there is none yet. -/
theorem Lawful.internals_getD (h : p.Lawful) :
    (p.nodeInternals.getD (.ofList (.ofCase p.pathCase) [])).Sound ∧
      (p.nodeInternals.getD (.ofList (.ofCase p.pathCase) [])).spelling = .ofCase p.pathCase := by
  cases hi : p.nodeInternals with
  | none => exact ⟨GlobList.sound_ofList _ _, rfl⟩
  | some internals => exact h.internals internals hi

theorem Lawful.setOverride (h : p.Lawful) (url : String) (skipped : Bool) :
    (p.setOverride url skipped).Lawful :=
  ⟨h.authored, h.authored_spelling, h.internals⟩

theorem Lawful.setBuiltins (h : p.Lawful) (names : List String) : (p.setBuiltins names).Lawful :=
  ⟨h.authored, h.authored_spelling, h.internals⟩

theorem foldl_push {l : GlobList} (h : l.Sound) (globs : List String) :
    (globs.foldl GlobList.push l).Sound ∧
      (globs.foldl GlobList.push l).spelling = l.spelling := by
  induction globs generalizing l with
  | nil => exact ⟨h, rfl⟩
  | cons glob globs ih => exact ih (GlobList.sound_push l glob)

theorem sound_editLiterals {l : GlobList} (h : l.Sound) (literals : List String) (skipped : Bool)
    (isMatch : GlobList → Bool) :
    (editLiterals l literals skipped isMatch).Sound ∧
      (editLiterals l literals skipped isMatch).spelling = l.spelling := by
  have hrest : (withoutLiterals l literals).Sound := h.retain _
  unfold editLiterals
  simp only
  split
  · exact ⟨hrest, rfl⟩
  · split <;> exact foldl_push hrest _

theorem Lawful.setExplicitSkip (h : p.Lawful) (url : String) (skipped : Bool) :
    (p.setExplicitSkip url skipped).Lawful := by
  unfold SkipPolicy.setExplicitSkip
  split
  · refine ⟨h.authored, h.authored_spelling, fun l hl => ?_⟩
    obtain ⟨hinternals, hinternals_spelling⟩ := h.internals_getD
    obtain ⟨hsound, hspelling⟩ :=
      sound_editLiterals hinternals [moduleName url] skipped (·.isMatch (moduleName url))
    rw [← Option.some.inj hl]
    exact ⟨hsound, hspelling.trans hinternals_spelling⟩
  · obtain ⟨hsound, hspelling⟩ := sound_editLiterals h.authored (spellings url) skipped
      (matchesEitherForm p.pathCase · url)
    exact ⟨hsound, hspelling.trans h.authored_spelling, h.internals⟩

end SkipPolicy

/-! ## Records below a source -/

namespace Ranges

mutual

/-- Forcing a state below a source is a row of records. -/
theorem forceTree_induction {P : SkipPolicy → Prop} {skipped : Bool}
    (hset : ∀ p url, P p → P (p.setOverride url skipped)) {p : SkipPolicy} (hp : P p) :
    ∀ t : SourceTree, P (forceTree p skipped t)
  | .seen _ => hp
  | .node _ below => forceAll_induction hset hp below

theorem forceAll_induction {P : SkipPolicy → Prop} {skipped : Bool}
    (hset : ∀ p url, P p → P (p.setOverride url skipped)) {p : SkipPolicy} (hp : P p) :
    ∀ below : List (AuthoredSource × SourceTree), P (forceAll p skipped below)
  | [] => hp
  | (a, tree) :: rest =>
    forceAll_induction hset (forceTree_induction hset (hset p a.url hp) tree) rest

end

mutual

/-- Recording the state of a loaded source is a row of records. -/
theorem inherit_induction {P : SkipPolicy → Prop}
    (hset : ∀ p url skipped, P p → P (p.setOverride url skipped)) {p : SkipPolicy} (hp : P p) :
    ∀ t : SourceTree, P (inherit p t)
  | .seen _ => hp
  | .node s below => inheritAll_induction hset hp (p.isSkipped s.url) below

theorem inheritAll_induction {P : SkipPolicy → Prop}
    (hset : ∀ p url skipped, P p → P (p.setOverride url skipped)) {p : SkipPolicy} (hp : P p)
    (parent : Bool) :
    ∀ below : List (AuthoredSource × SourceTree), P (inheritAll p parent below)
  | [] => hp
  | (a, tree) :: rest => by
    rw [inheritAll]
    refine inheritAll_induction hset (inherit_induction hset ?_ tree) parent rest
    split
    · exact hset p a.url _ hp
    · exact hp

end

end Ranges

theorem SkipChange.lawful_revise (g : SourceGraph) {p : SkipPolicy} (h : p.Lawful)
    (c : SkipChange) : (c.revise g p).Lawful := by
  cases c with
  | load source => exact Ranges.inherit_induction (fun _ url b hp => hp.setOverride url b) h _
  | decide url source skipped =>
    simp only [SkipChange.revise]
    split
    · cases source with
      | none => exact h.setExplicitSkip url skipped
      | some s =>
        exact Ranges.forceTree_induction (fun _ url' hp => hp.setOverride url' skipped)
          (h.setExplicitSkip url skipped) _
    · exact h.setOverride url skipped

/-! ## The edit of the globs -/

namespace SkipPolicy

variable {p : SkipPolicy} {url : String}

theorem normalizeText_of_plain {c : PathCase} (hc : c.isInsensitive = false) {text : String}
    (h : '\\' ∉ text.toList) : normalizeText c text = text := by
  rw [normalizeText, FileUrl.replaceChar_of_notMem h, String.ofList_toList]
  simp only [hc, Bool.false_eq_true, if_false]

/-- A file is matched if its URL with forward slashes is, or its path. -/
theorem matchesEitherForm_iff_or {c : PathCase} (hc : c.isInsensitive = false) (l : GlobList)
    (url : String) :
    matchesEitherForm c l url = true ↔ l.isMatch (normalizeText c url) = true ∨
      ∃ path, FileUrl.toPath? url = some path ∧ l.isMatch path = true := by
  rw [matchesEitherForm, Bool.or_eq_true, Option.any_eq_true]
  refine or_congr Iff.rfl (exists_congr fun path => and_congr_right fun hpath => ?_)
  rw [normalizeText_of_plain hc (FileUrl.toPath?_shape hpath).2]

/-- A file is matched if one of its spellings is, in the form under which it is compared. -/
theorem matchesEitherForm_iff_spellings (c : PathCase) (l : GlobList) (url : String) :
    matchesEitherForm c l url = true ↔
      ∃ t ∈ spellings url, l.isMatch (normalizeText c t) = true := by
  rw [matchesEitherForm, Bool.or_eq_true, Option.any_eq_true, spellings]
  simp only [List.mem_cons, exists_eq_or_imp, Option.mem_toList]

theorem matchesEitherForm_iff {c : PathCase} (hc : c.isInsensitive = false) (l : GlobList)
    (h : '\\' ∉ url.toList) :
    matchesEitherForm c l url = true ↔ ∃ t ∈ spellings url, l.isMatch t = true := by
  rw [matchesEitherForm_iff_or hc, normalizeText_of_plain hc h, spellings]
  simp only [List.mem_cons, exists_eq_or_imp, Option.mem_toList]

theorem no_backslash_of_mem_spellings (hurl : '\\' ∉ url.toList) {t : String}
    (ht : t ∈ spellings url) : '\\' ∉ t.toList := by
  rw [spellings, List.mem_cons, Option.mem_toList] at ht
  rcases ht with rfl | ht
  · exact hurl
  · exact (FileUrl.toPath?_shape ht).2

/-- The form of a text under which it is compared with globs is the text up to case. -/
theorem eqUpToCase_normalizeText {c : PathCase} {text : String} (hback : '\\' ∉ text.toList)
    (hlower : c.isInsensitive = true → 'İ' ∉ text.toList) :
    Text.EqUpToCase (normalizeText c text).toList text.toList := by
  rw [normalizeText, FileUrl.replaceChar_of_notMem hback, String.ofList_toList]
  split
  · next hc => exact Text.eqUpToCase_lowercase (hlower hc)
  · exact .refl _

/-- **A plain URL can be written into any list of globs.**  Whether or not case counts, each of its
spellings covers itself, and differs in case only from the form under which it is compared. -/
theorem isWritable_of_isPlainUrl (hurl : IsPlainUrl url) {c : PathCase}
    (hlower : LowersByLetter c url) : IsWritable c url where
  ne_empty := hurl.ne_empty
  no_mark := hurl.no_mark
  covers t ht := covers_of_eqUpToCase (covers_self t) (eqUpToCase_normalizeText
    (no_backslash_of_mem_spellings hurl.no_backslash ht) fun hc => hlower hc t ht).symm

theorem ne_nil_of_mem_spellings (hurl : url ≠ "") {t : String} (ht : t ∈ spellings url) :
    t.toList ≠ [] := by
  rw [spellings, List.mem_cons, Option.mem_toList] at ht
  rcases ht with rfl | ht
  · exact fun h => hurl (String.toList_eq_nil_iff.mp h)
  · obtain ⟨⟨rest, hrest⟩, -⟩ := FileUrl.toPath?_shape ht
    rw [hrest]
    exact List.cons_ne_nil _ _

/-- Negations at the end of a list take out what one of them matches. -/
theorem isMatch_foldl_negation {l : GlobList} (h : l.Sound) {literals : List String}
    (hne : ∀ t ∈ literals, t.toList ≠ []) (text : String) :
    ((literals.map negation).foldl GlobList.push l).isMatch text = true ↔
      l.isMatch text = true ∧ ∀ t ∈ literals, ¬ Covers l.spelling t.toList text := by
  induction literals generalizing l with
  | nil => simp
  | cons literal literals ih =>
    obtain ⟨hhead, htail⟩ := List.forall_mem_cons.mp hne
    have hglob : (negation literal).toList = '!' :: literal.toList := String.toList_ofList
    rw [List.map_cons, List.foldl_cons, ih (GlobList.sound_push l (negation literal)) htail,
      h.isMatch_push_negation hglob hhead, GlobList.spelling_push, List.forall_mem_cons, and_assoc]

/-- **The edited list decides as chosen.** -/
theorem matchesEitherForm_editLiterals {c : PathCase} {l : GlobList} (h : l.Sound)
    (hsp : l.spelling = .ofCase c) (hurl : IsWritable c url) (skipped : Bool) :
    matchesEitherForm c (editLiterals l (spellings url) skipped (matchesEitherForm c · url)) url =
      skipped := by
  have hrest : (withoutLiterals l (spellings url)).Sound := h.retain _
  have hrsp : (withoutLiterals l (spellings url)).spelling = .ofCase c := hsp
  unfold editLiterals
  simp only
  split
  · assumption
  · cases skipped with
    | true =>
      have hpos : isPositive url = true := bne_iff_ne.mpr hurl.no_mark
      rw [if_pos rfl, matchesEitherForm_iff_spellings]
      refine ⟨url, List.mem_cons_self, (hrest.isMatch_push_positive hpos _).mpr (Or.inr ?_)⟩
      rw [hrsp]
      exact hurl.covers url List.mem_cons_self
    | false =>
      rw [if_neg Bool.false_ne_true, ← Bool.not_eq_true, matchesEitherForm_iff_spellings]
      rintro ⟨t, ht, hmatch⟩
      rw [isMatch_foldl_negation hrest fun t => ne_nil_of_mem_spellings hurl.ne_empty,
        hrsp] at hmatch
      exact hmatch.2 t ht (hurl.covers t ht)

/-! ## The decision -/

theorem isSkipped_of_not_internal (h : p.isNodeInternal url = false) :
    p.isSkipped url = (p.overrideFor url).getD (p.testAuthored url) := by
  rw [isSkipped, h]
  cases p.overrideFor url <;> rfl

theorem overrideFor_setOverride (url' : String) (skipped : Bool) :
    (p.setOverride url' skipped).overrideFor url =
      if p.normalize url' = p.normalize url then some skipped else p.overrideFor url :=
  Index.get?_insert _ _ _ _

theorem isSkipped_setOverride_self (h : p.isNodeInternal url = false) (skipped : Bool) :
    (p.setOverride url skipped).isSkipped url = skipped := by
  have h' : (p.setOverride url skipped).isNodeInternal url = false := h
  rw [isSkipped_of_not_internal h', overrideFor_setOverride, if_pos rfl, Option.getD_some]

/-- A record under another key decides nothing about the URL. -/
theorem isSkipped_setOverride_of_ne {url' : String} (hne : p.normalize url' ≠ p.normalize url)
    (skipped : Bool) : (p.setOverride url' skipped).isSkipped url = p.isSkipped url := by
  rw [isSkipped, isSkipped, overrideFor_setOverride, if_neg hne]
  rfl

/-- URLs with one key share their record. -/
theorem overrideFor_congr {url' : String} (h : p.normalize url' = p.normalize url) :
    p.overrideFor url' = p.overrideFor url := by
  rw [overrideFor, h, overrideFor]

/-- A record for another URL in the state that the URL has anyway. -/
theorem isSkipped_setOverride_of_eq {skipped : Bool} (h : p.isNodeInternal url = false)
    (hs : p.isSkipped url = skipped) (url' : String) :
    (p.setOverride url' skipped).isSkipped url = skipped := by
  have h' : (p.setOverride url' skipped).isNodeInternal url = false := h
  rw [isSkipped_of_not_internal h] at hs
  rw [isSkipped_of_not_internal h', overrideFor_setOverride]
  split
  · rfl
  · exact hs

/-- The names of the builtin modules matter to builtin modules only. -/
theorem isSkipped_setBuiltins {names : List String} (h : p.isNodeInternal url = false)
    (h' : (p.setBuiltins names).isNodeInternal url = false) :
    (p.setBuiltins names).isSkipped url = p.isSkipped url := by
  rw [isSkipped_of_not_internal h', isSkipped_of_not_internal h]
  rfl

theorem setExplicitSkip_of_internal (hint : p.isNodeInternal url = true) (skipped : Bool) :
    p.setExplicitSkip url skipped = p.chooseInternal url skipped :=
  if_pos hint

theorem setExplicitSkip_of_not_internal (hint : p.isNodeInternal url = false) (skipped : Bool) :
    p.setExplicitSkip url skipped = p.chooseAuthored url skipped :=
  if_neg (Bool.eq_false_iff.mp hint)

theorem fixed_setExplicitSkip (p : SkipPolicy) (url : String) (skipped : Bool) :
    (p.setExplicitSkip url skipped).pathCase = p.pathCase ∧
      (p.setExplicitSkip url skipped).builtins = p.builtins := by
  unfold setExplicitSkip
  split <;> exact ⟨rfl, rfl⟩

theorem normalize_setExplicitSkip (p : SkipPolicy) (url : String) (skipped : Bool)
    (other : String) : (p.setExplicitSkip url skipped).normalize other = p.normalize other := by
  rw [normalize, (p.fixed_setExplicitSkip url skipped).1, normalize]

theorem isNodeInternal_setExplicitSkip (p : SkipPolicy) (url : String) (skipped : Bool)
    (other : String) :
    (p.setExplicitSkip url skipped).isNodeInternal other = p.isNodeInternal other := by
  rw [isNodeInternal, (p.fixed_setExplicitSkip url skipped).2, isNodeInternal]

/-- A choice about a file takes away no record but its own. -/
theorem overrideFor_setExplicitSkip_of_ne (hint : p.isNodeInternal url = false) (skipped : Bool)
    {other : String} (hne : p.normalize url ≠ p.normalize other) :
    (p.setExplicitSkip url skipped).overrideFor other = p.overrideFor other := by
  rw [overrideFor, normalize_setExplicitSkip, setExplicitSkip_of_not_internal hint, overrideFor]
  exact (Index.get?_erase _ _ _).trans (if_neg hne)

/-- After a choice about a file, nothing is recorded for it, and the edited list decides. -/
theorem isSkipped_setExplicitSkip_eq (hint : p.isNodeInternal url = false) (skipped : Bool) :
    (p.setExplicitSkip url skipped).isSkipped url =
      matchesEitherForm p.pathCase (editLiterals p.authored (spellings url) skipped
        (matchesEitherForm p.pathCase · url)) url := by
  have hint' : (p.chooseAuthored url skipped).isNodeInternal url = false := hint
  have hoverride : (p.chooseAuthored url skipped).overrideFor url = none :=
    Index.get?_erase_self _ _
  rw [setExplicitSkip_of_not_internal hint, isSkipped_of_not_internal hint', hoverride]
  rfl

theorem isSkipped_setExplicitSkip_of_isWritable (h : p.Lawful) (hurl : IsWritable p.pathCase url)
    (hint : p.isNodeInternal url = false) (skipped : Bool) :
    (p.setExplicitSkip url skipped).isSkipped url = skipped := by
  rw [isSkipped_setExplicitSkip_eq hint]
  exact matchesEitherForm_editLiterals h.authored h.authored_spelling hurl skipped

theorem isSkipped_setExplicitSkip (h : p.Lawful) (hc : p.pathCase.isInsensitive = false)
    (hurl : IsPlainUrl url) (hint : p.isNodeInternal url = false) (skipped : Bool) :
    (p.setExplicitSkip url skipped).isSkipped url = skipped :=
  isSkipped_setExplicitSkip_of_isWritable h
    (isWritable_of_isPlainUrl hurl (lowersByLetter_of_sensitive hc url)) hint skipped

end SkipPolicy

/-! ## Choices about everything below a source -/

namespace Ranges

/-- Forcing touches neither the case rule nor the names of the builtin modules. -/
theorem fixed_force (p : SkipPolicy) (g : SourceGraph) (s : Source) (skipped : Bool) :
    (force p g s skipped).pathCase = p.pathCase ∧ (force p g s skipped).builtins = p.builtins :=
  forceTree_induction (P := fun q => q.pathCase = p.pathCase ∧ q.builtins = p.builtins)
    (fun _ _ h => h) ⟨rfl, rfl⟩ _

theorem normalize_force (p : SkipPolicy) (g : SourceGraph) (s : Source) (skipped : Bool)
    (url : String) : (force p g s skipped).normalize url = p.normalize url := by
  rw [SkipPolicy.normalize, (fixed_force p g s skipped).1, SkipPolicy.normalize]

theorem isNodeInternal_force (p : SkipPolicy) (g : SourceGraph) (s : Source) (skipped : Bool)
    (url : String) : (force p g s skipped).isNodeInternal url = p.isNodeInternal url := by
  rw [SkipPolicy.isNodeInternal, (fixed_force p g s skipped).2, SkipPolicy.isNodeInternal]

/-- A file that is in the chosen state stays in it. -/
theorem isSkipped_force_of_eq {p : SkipPolicy} {url : String} {skipped : Bool}
    (hint : p.isNodeInternal url = false) (hskip : p.isSkipped url = skipped) (g : SourceGraph)
    (s : Source) : (force p g s skipped).isSkipped url = skipped := by
  have hforced := forceTree_induction
    (P := fun q => q.isNodeInternal url = false ∧ q.isSkipped url = skipped)
    (fun q url' hq => ⟨hq.1, SkipPolicy.isSkipped_setOverride_of_eq hq.1 hq.2 url'⟩)
    ⟨hint, hskip⟩ (g.walk s)
  exact hforced.2

end Ranges

/-! ## Changes -/

namespace SkipChange

/-- No change touches the case rule or the names of the builtin modules. -/
theorem fixed_revise (g : SourceGraph) (p : SkipPolicy) (c : SkipChange) :
    (c.revise g p).pathCase = p.pathCase ∧ (c.revise g p).builtins = p.builtins := by
  cases c with
  | load source =>
    exact Ranges.inherit_induction
      (P := fun q => q.pathCase = p.pathCase ∧ q.builtins = p.builtins) (fun _ _ _ h => h)
      ⟨rfl, rfl⟩ _
  | decide url source skipped =>
    simp only [revise]
    split
    · cases source with
      | none => exact p.fixed_setExplicitSkip url skipped
      | some s =>
        obtain ⟨hcase, hbuiltins⟩ := p.fixed_setExplicitSkip url skipped
        obtain ⟨hcase', hbuiltins'⟩ := Ranges.fixed_force (p.setExplicitSkip url skipped) g s skipped
        exact ⟨hcase'.trans hcase, hbuiltins'.trans hbuiltins⟩
    · exact ⟨rfl, rfl⟩

@[simp] theorem pathCase_revise (g : SourceGraph) (p : SkipPolicy) (c : SkipChange) :
    (c.revise g p).pathCase = p.pathCase :=
  (fixed_revise g p c).1

@[simp] theorem isNodeInternal_revise (g : SourceGraph) (p : SkipPolicy) (c : SkipChange)
    (url : String) : (c.revise g p).isNodeInternal url = p.isNodeInternal url := by
  rw [SkipPolicy.isNodeInternal, (fixed_revise g p c).2, SkipPolicy.isNodeInternal]

/-- **A decision about a URL is what the policy says about it afterwards**, in whichever of the
three ways it is recorded. -/
theorem isSkipped_revise_decide_of_isWritable (g : SourceGraph) {p : SkipPolicy} {url : String}
    (h : p.Lawful) (hurl : IsWritable p.pathCase url) (hint : p.isNodeInternal url = false)
    (source : Option Source) (skipped : Bool) :
    ((SkipChange.decide url source skipped).revise g p).isSkipped url = skipped := by
  have hint' : (p.setExplicitSkip url skipped).isNodeInternal url = false := by
    rw [SkipPolicy.isNodeInternal_setExplicitSkip, hint]
  have hskip := SkipPolicy.isSkipped_setExplicitSkip_of_isWritable h hurl hint skipped
  simp only [revise]
  split
  · cases source with
    | none => exact hskip
    | some s => exact Ranges.isSkipped_force_of_eq hint' hskip g s
  · exact SkipPolicy.isSkipped_setOverride_self hint skipped

theorem isSkipped_revise_decide (g : SourceGraph) {p : SkipPolicy} {url : String}
    (h : p.Lawful) (hc : p.pathCase.isInsensitive = false) (hurl : IsPlainUrl url)
    (hint : p.isNodeInternal url = false) (source : Option Source) (skipped : Bool) :
    ((SkipChange.decide url source skipped).revise g p).isSkipped url = skipped :=
  isSkipped_revise_decide_of_isWritable g h
    (SkipPolicy.isWritable_of_isPlainUrl hurl (lowersByLetter_of_sensitive hc url)) hint source
    skipped

end SkipChange
end DebugTree
