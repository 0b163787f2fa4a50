import DebugTree.Proofs.Index
import DebugTree.Proofs.Policy.Explicit

/-!
# Choices made over and over

Of all the choices that are made about one file, only the last one counts: the policy holds
afterwards what it would hold if no other had been made.  A choice takes every entry away that names
the file, looks at what the remaining entries decide, and appends what is needed.  What an earlier
choice appended names the file, so the next one takes it away again and sees the same remaining
entries; and nothing but these and the wish goes into the decision.

So the list does not grow with the number of choices: it is the list without entries for the file
and at most one more entry for each spelling of it (`editedGlobs_setExplicitSkip`).

What the lists remember is left out of the comparison.  It depends on who asked what in between, and
has no effect on any answer (`SameState.isSkipped_eq`).
-/

namespace DebugTree

namespace SkipPolicy

variable {p q r : SkipPolicy} {url : String}

/-- The two policies hold the same globs and the same records, under one case rule. -/
structure SameState (p q : SkipPolicy) : Prop where
  authored : p.authored.globs = q.authored.globs
  nodeInternals : p.nodeInternals.map (·.globs) = q.nodeInternals.map (·.globs)
  overrides : p.overrides = q.overrides
  builtins : p.builtins = q.builtins
  pathCase : p.pathCase = q.pathCase

/-! ## Policies that hold the same -/

namespace SameState

theorem refl (p : SkipPolicy) : SameState p p :=
  ⟨rfl, rfl, rfl, rfl, rfl⟩

theorem symm (h : SameState p q) : SameState q p where
  authored := h.authored.symm
  nodeInternals := h.nodeInternals.symm
  overrides := h.overrides.symm
  builtins := h.builtins.symm
  pathCase := h.pathCase.symm

theorem trans (hpq : SameState p q) (hqr : SameState q r) : SameState p r where
  authored := hpq.authored.trans hqr.authored
  nodeInternals := hpq.nodeInternals.trans hqr.nodeInternals
  overrides := hpq.overrides.trans hqr.overrides
  builtins := hpq.builtins.trans hqr.builtins
  pathCase := hpq.pathCase.trans hqr.pathCase

theorem isNodeInternal_eq (h : SameState p q) (url : String) :
    p.isNodeInternal url = q.isNodeInternal url := by
  rw [isNodeInternal, h.builtins, isNodeInternal]

theorem editedGlobs_eq (h : SameState p q) (url : String) :
    p.editedGlobs url = q.editedGlobs url := by
  rw [editedGlobs, h.isNodeInternal_eq, h.nodeInternals, h.authored, editedGlobs]

theorem testNodeInternal_eq (hp : p.Lawful) (hq : q.Lawful) (h : SameState p q) (url : String) :
    p.testNodeInternal url = q.testNodeInternal url := by
  rw [testNodeInternal, testNodeInternal, h.builtins]
  congr 1
  have hglobs := h.nodeInternals
  cases hi : p.nodeInternals with
  | none =>
    rw [hi, Option.map_none, eq_comm, Option.map_eq_none_iff] at hglobs
    rw [hglobs]
  | some l =>
    rw [hi, Option.map_some, eq_comm, Option.map_eq_some_iff] at hglobs
    obtain ⟨m, hm, hml⟩ := hglobs
    obtain ⟨hl_sound, hl_spelling⟩ := hp.internals l hi
    obtain ⟨hm_sound, hm_spelling⟩ := hq.internals m hm
    have hsp : l.spelling = m.spelling := by rw [hl_spelling, h.pathCase, hm_spelling]
    rw [hm, Option.any_some, Option.any_some]
    exact hl_sound.isMatch_congr hm_sound hml.symm hsp _

theorem testAuthored_eq (hp : p.Lawful) (hq : q.Lawful) (h : SameState p q) (url : String) :
    p.testAuthored url = q.testAuthored url := by
  have hsp : p.authored.spelling = q.authored.spelling := by
    rw [hp.authored_spelling, h.pathCase, hq.authored_spelling]
  have hmatch := hp.authored.isMatch_congr hq.authored h.authored hsp
  simp only [testAuthored, matchesEitherForm, h.pathCase, hmatch]

/-- **Policies that hold the same decide the same**, whatever their lists remember. -/
theorem isSkipped_eq (hp : p.Lawful) (hq : q.Lawful) (h : SameState p q) (url : String) :
    p.isSkipped url = q.isSkipped url := by
  have hoverride : p.overrideFor url = q.overrideFor url := by
    rw [overrideFor, overrideFor, normalize, normalize, h.overrides, h.pathCase]
  rw [isSkipped, isSkipped, h.isNodeInternal_eq, h.testNodeInternal_eq hp hq, hoverride,
    h.testAuthored_eq hp hq]

end SameState

/-! ## Entries that name a file -/

/-- The entries that name none of the spellings. -/
def unnamed (literals globs : List String) : List String :=
  globs.filter fun entry => !literals.contains (unmarked entry)

/-- What a choice appends to a list that decides in some way without it. -/
def appended (literals : List String) (decided skipped : Bool) : List String :=
  if decided = skipped then [] else if skipped then literals.take 1 else literals.map negation

theorem unmarked_of_no_mark {entry : String} (h : entry.toList.head? ≠ some '!') :
    unmarked entry = entry := by
  unfold unmarked
  split
  · next rest hrest => exact absurd (hrest ▸ List.head?_cons) h
  · rfl

theorem unmarked_negation (literal : String) : unmarked (negation literal) = literal := by
  rw [unmarked, negation, String.toList_ofList]
  exact String.ofList_toList

/-- No spelling of a file looks like a negation unless the URL itself does. -/
theorem no_mark_of_mem_spellings (hmark : url.toList.head? ≠ some '!') {t : String}
    (ht : t ∈ spellings url) : t.toList.head? ≠ some '!' := by
  rcases List.mem_cons.mp ht with rfl | ht
  · exact hmark
  · obtain ⟨⟨rest, hrest⟩, -⟩ := FileUrl.toPath?_shape (Option.mem_toList.mp ht)
    rw [hrest, List.head?_cons]
    decide

theorem unnamed_unnamed (literals globs : List String) :
    unnamed literals (unnamed literals globs) = unnamed literals globs := by
  simp only [unnamed, List.filter_filter, Bool.and_self]

/-- Whatever a choice appends names the file. -/
theorem unnamed_appended {literals : List String}
    (hmark : ∀ t ∈ literals, t.toList.head? ≠ some '!') (decided skipped : Bool) :
    unnamed literals (appended literals decided skipped) = [] := by
  have hnames : ∀ entry ∈ appended literals decided skipped, unmarked entry ∈ literals := by
    intro entry hentry
    unfold appended at hentry
    split at hentry
    · exact absurd hentry List.not_mem_nil
    · split at hentry
      · have hmem := List.mem_of_mem_take hentry
        rwa [unmarked_of_no_mark (hmark entry hmem)]
      · obtain ⟨t, ht, rfl⟩ := List.mem_map.mp hentry
        rwa [unmarked_negation]
  rw [unnamed, List.filter_eq_nil_iff]
  intro entry hentry
  simpa using hnames entry hentry

theorem length_appended_le (literals : List String) (decided skipped : Bool) :
    (appended literals decided skipped).length ≤ literals.length := by
  unfold appended
  split
  · exact Nat.zero_le _
  · split
    · exact List.length_take_le' 1 literals
    · exact Nat.le_of_eq (List.length_map negation)

/-! ## One list -/

/-- The answer depends on the entries of a list alone. -/
def AsksEntries (isMatch : GlobList → Bool) : Prop :=
  ∀ l m : GlobList, l.Sound → m.Sound → l.globs = m.globs → l.spelling = m.spelling →
    isMatch l = isMatch m

theorem asksEntries_isMatch (text : String) : AsksEntries (·.isMatch text) :=
  fun _ _ hl hm hglobs hsp => hl.isMatch_congr hm hglobs hsp text

theorem asksEntries_matchesEitherForm (c : PathCase) (url : String) :
    AsksEntries (matchesEitherForm c · url) := by
  intro l m hl hm hglobs hsp
  simp only [matchesEitherForm, hl.isMatch_congr hm hglobs hsp]

section

variable {l : GlobList} {literals : List String} {isMatch : GlobList → Bool}

theorem globs_foldl_push (l : GlobList) (globs : List String) :
    (globs.foldl GlobList.push l).globs = l.globs ++ globs := by
  induction globs generalizing l with
  | nil => exact (List.append_nil _).symm
  | cons glob globs ih =>
    rw [List.foldl_cons, ih, GlobList.globs_push, List.append_assoc, List.singleton_append]

/-- **An edited list** is what remains, and what is appended. -/
theorem globs_editLiterals (l : GlobList) (literals : List String) (skipped : Bool)
    (isMatch : GlobList → Bool) :
    (editLiterals l literals skipped isMatch).globs = unnamed literals l.globs ++
      appended literals (isMatch (withoutLiterals l literals)) skipped := by
  unfold editLiterals appended
  simp only
  split
  · exact (List.append_nil _).symm
  · split <;> exact globs_foldl_push _ _

/-- A choice leaves the entries alone that do not name the file. -/
theorem unnamed_editLiterals (hmark : ∀ t ∈ literals, t.toList.head? ≠ some '!')
    (l : GlobList) (skipped : Bool) (isMatch : GlobList → Bool) :
    unnamed literals (editLiterals l literals skipped isMatch).globs =
      unnamed literals l.globs := by
  rw [globs_editLiterals, unnamed, List.filter_append, ← unnamed, ← unnamed, unnamed_unnamed,
    unnamed_appended hmark, List.append_nil]

/-- The edited list in terms of its entries alone. -/
theorem globs_editLiterals_of_sound (h : l.Sound) (hasks : AsksEntries isMatch)
    (literals : List String) (skipped : Bool) :
    (editLiterals l literals skipped isMatch).globs = unnamed literals l.globs ++
      appended literals (isMatch (.ofList l.spelling (unnamed literals l.globs))) skipped := by
  have hdecided := hasks (withoutLiterals l literals)
    (.ofList l.spelling (unnamed literals l.globs)) (h.retain _) (GlobList.sound_ofList _ _) rfl rfl
  rw [globs_editLiterals, hdecided]

/-- **The second of two edits is the only one that counts.** -/
theorem globs_editLiterals_editLiterals (h : l.Sound)
    (hmark : ∀ t ∈ literals, t.toList.head? ≠ some '!') (hasks : AsksEntries isMatch)
    (first second : Bool) :
    (editLiterals (editLiterals l literals first isMatch) literals second isMatch).globs =
      (editLiterals l literals second isMatch).globs := by
  obtain ⟨hsound, hspelling⟩ := sound_editLiterals h literals first isMatch
  -- both edits look at the entries that do not name the file, and these are the same
  rw [globs_editLiterals_of_sound hsound hasks, unnamed_editLiterals hmark, hspelling,
    globs_editLiterals_of_sound h hasks]

end

/-! ## One policy -/

/-- **The second of two choices is the only one that counts.** -/
theorem sameState_setExplicitSkip (h : p.Lawful) (hmark : url.toList.head? ≠ some '!')
    (hname : (moduleName url).toList.head? ≠ some '!') (first second : Bool) :
    SameState ((p.setExplicitSkip url first).setExplicitSkip url second)
      (p.setExplicitSkip url second) := by
  cases hint : p.isNodeInternal url with
  | true =>
    have hint' : (p.chooseInternal url first).isNodeInternal url = true := hint
    have hmarks : ∀ t ∈ [moduleName url], t.toList.head? ≠ some '!' := by simpa using hname
    rw [setExplicitSkip_of_internal hint, setExplicitSkip_of_internal hint,
      setExplicitSkip_of_internal hint']
    exact ⟨rfl, congrArg some (globs_editLiterals_editLiterals h.internals_getD.1 hmarks
      (asksEntries_isMatch (moduleName url)) first second), rfl, rfl, rfl⟩
  | false =>
    have hint' : (p.chooseAuthored url first).isNodeInternal url = false := hint
    have hmarks : ∀ t ∈ spellings url, t.toList.head? ≠ some '!' :=
      fun t ht => no_mark_of_mem_spellings hmark ht
    rw [setExplicitSkip_of_not_internal hint, setExplicitSkip_of_not_internal hint,
      setExplicitSkip_of_not_internal hint']
    exact ⟨globs_editLiterals_editLiterals h.authored hmarks
      (asksEntries_matchesEitherForm p.pathCase url) first second, rfl,
      Index.erase_erase p.overrides (p.normalize url), rfl, rfl⟩

/-- Of a row of choices the last one counts.  By induction on the choices before it: the first of
them makes another policy, for which the rest of the row does what it should, and the last choice
undoes what the first one did. -/
theorem sameState_chooseAll (h : p.Lawful) (hmark : url.toList.head? ≠ some '!')
    (hname : (moduleName url).toList.head? ≠ some '!') (choices : List Bool) (last : Bool) :
    SameState (p.chooseAll url (choices ++ [last])) (p.setExplicitSkip url last) := by
  induction choices generalizing p with
  | nil => exact SameState.refl _
  | cons choice choices ih =>
    exact (ih (h.setExplicitSkip url choice)).trans
      (sameState_setExplicitSkip h hmark hname choice last)

/-! ## The list that is edited -/

/-- The spellings of a URL in the list that a choice about it edits. -/
def namesOf (p : SkipPolicy) (url : String) : List String :=
  if p.isNodeInternal url then [moduleName url] else spellings url

/-- The entries of that list which do not name the URL. -/
def remaining (p : SkipPolicy) (url : String) : List String :=
  unnamed (p.namesOf url) (p.editedGlobs url)

/-- What these entries by themselves decide about the URL. -/
def decidedAnyway (p : SkipPolicy) (url : String) : Bool :=
  let rest : GlobList := .ofList (.ofCase p.pathCase) (p.remaining url)
  if p.isNodeInternal url then rest.isMatch (moduleName url)
  else matchesEitherForm p.pathCase rest url

/-- **What a choice makes of the list**: the entries that do not name the URL, and nothing else if
they decide as wanted; otherwise one entry, or one negation for each spelling. -/
theorem editedGlobs_setExplicitSkip (h : p.Lawful) (url : String) (skipped : Bool) :
    (p.setExplicitSkip url skipped).editedGlobs url =
      p.remaining url ++ appended (p.namesOf url) (p.decidedAnyway url) skipped := by
  unfold decidedAnyway remaining editedGlobs namesOf
  cases hint : p.isNodeInternal url with
  | true =>
    have hint' : (p.chooseInternal url skipped).isNodeInternal url = true := hint
    obtain ⟨hsound, hspelling⟩ := h.internals_getD
    have hglobs : (p.nodeInternals.getD (.ofList (.ofCase p.pathCase) [])).globs =
        (p.nodeInternals.map (·.globs)).getD [] := by
      cases p.nodeInternals <;> rfl
    have hedited := globs_editLiterals_of_sound hsound (asksEntries_isMatch (moduleName url))
      [moduleName url] skipped
    rw [hspelling, hglobs] at hedited
    rw [setExplicitSkip_of_internal hint, hint']
    simp only [if_true]
    exact hedited
  | false =>
    have hint' : (p.chooseAuthored url skipped).isNodeInternal url = false := hint
    have hedited := globs_editLiterals_of_sound h.authored
      (asksEntries_matchesEitherForm p.pathCase url) (spellings url) skipped
    rw [h.authored_spelling] at hedited
    rw [setExplicitSkip_of_not_internal hint, hint']
    simp only [Bool.false_eq_true, if_false]
    exact hedited

/-- **Only the last choice counts.**  However often a URL has been skipped and un-skipped, the
policy holds the same as after the last of the choices alone.  So to choose the same again changes
nothing, and the list that is edited is made of the entries that do not name the URL and of what has
to be appended to them: nothing if they decide as wanted, and no more than one entry for each
spelling in any case. -/
theorem chooseAll_spec (h : p.Lawful) (hmark : url.toList.head? ≠ some '!')
    (hname : (moduleName url).toList.head? ≠ some '!') (choices : List Bool) (last : Bool) :
    let final := p.chooseAll url (choices ++ [last])
    SameState final (p.setExplicitSkip url last) ∧
    (SameState (final.setExplicitSkip url last) final ∧
      final.explicitSkipChanges url last = false) ∧
    final.editedGlobs url =
      p.remaining url ++ appended (p.namesOf url) (p.decidedAnyway url) last ∧
    (p.decidedAnyway url = last → final.editedGlobs url = p.remaining url) ∧
    (final.editedGlobs url).length ≤ (p.remaining url).length + (p.namesOf url).length := by
  intro final
  have hfinal : SameState final (p.setExplicitSkip url last) :=
    sameState_chooseAll h hmark hname choices last
  have hrow : final.setExplicitSkip url last = p.chooseAll url ((choices ++ [last]) ++ [last]) := by
    rw [chooseAll, List.foldl_append]
    rfl
  have hagain : SameState (final.setExplicitSkip url last) final := by
    rw [hrow]
    exact (sameState_chooseAll h hmark hname (choices ++ [last]) last).trans hfinal.symm
  have hedited : final.editedGlobs url =
      p.remaining url ++ appended (p.namesOf url) (p.decidedAnyway url) last := by
    rw [hfinal.editedGlobs_eq, editedGlobs_setExplicitSkip h]
  refine ⟨hfinal, ⟨hagain, ?_⟩, hedited, fun hagrees => ?_, ?_⟩
  · rw [explicitSkipChanges, hagain.editedGlobs_eq]
    exact bne_self_eq_false _
  · rw [hedited, appended, if_pos hagrees, List.append_nil]
  · rw [hedited, List.length_append]
    exact Nat.add_le_add_left (length_appended_le _ _ _) _

/-- A file of a skipped directory that is taken out of it, put back and taken out again. -/
theorem chooseAll_spec_modules :
    let p := ofGlobs ["**/node_modules/**"] none .sensitive
    let url := "file:///app/node_modules/a.js"
    SameState (p.chooseAll url [false, true, false]) (p.setExplicitSkip url false) ∧
      (p.chooseAll url [false, true]).editedGlobs url = ["**/node_modules/**"] ∧
      (p.chooseAll url [false, true, false]).editedGlobs url = ["**/node_modules/**",
        "!file:///app/node_modules/a.js", "!/app/node_modules/a.js"] := by
  intro p url
  have hlawful : p.Lawful := lawful_ofGlobs ["**/node_modules/**"] none .sensitive
  have hmark : url.toList.head? ≠ some '!' := by decide
  have hall := fun row last => chooseAll_spec hlawful hmark (by decide) row last
  exact ⟨(hall [false, true] false).1,
    ((hall [false] true).2.2.2.1 (by decide +kernel)).trans (by decide +kernel),
    (hall [false, true] false).2.2.1.trans (by decide +kernel)⟩

end SkipPolicy
end DebugTree
