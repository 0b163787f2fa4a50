import DebugTree.Proofs.Glob.Parts
import DebugTree.Proofs.Policy.Builtins
import DebugTree.Proofs.Policy.Editing

/-!
# What the runtime steps over all the same

A user who takes a file out of what is skipped edits one list of globs, and the runtime is given the
patterns of both lists.  It reads them letter for letter, while the stepping engine matches them
without regard to case.  So the two may part after such a choice, and `stepsOver_keep_iff` says
when: which URLs that are to be kept does some pattern still match?

* A file is matched only if the list is not edited at all, because the other entries do not match it
  without regard to case, while they do match it letter for letter.  Then one of the negations that
  spare it does so by ignoring case (`exists_blind_negation`).
* A module inside the runtime is matched by authored patterns as before, since the choice edits the
  other list; and if it has the shape of an internal module, by the one pattern for all of these,
  which is given as long as there are globs for modules at all.

Left out are names that were discovered under the scheme and are matched under it: about those the
two sides do not agree in the first place.
-/

namespace DebugTree

/-! ## Letter for letter -/

namespace Pattern

/-- The pattern does not look ahead. -/
def LooksAhead : Pattern → Prop
  | .notAhead _ => True
  | .optional p => LooksAhead p
  | .seq p q => LooksAhead p ∨ LooksAhead q
  | _ => False

/-- What matches letter for letter matches however characters are compared, as long as nothing is
required not to match. -/
theorem Matches.of_id {key : Char → Char} {p : Pattern} (hp : ¬ p.LooksAhead) {t r : List Char}
    (h : p.Matches id t r) : p.Matches key t r := by
  induction p generalizing t r with
  | empty | many s | atLeastOne s | finish => exact h
  | char c =>
    obtain ⟨x, rfl, rfl⟩ := h
    exact ⟨x, rfl, rfl⟩
  | oneOf a b =>
    obtain ⟨x, rfl, hx⟩ := h
    exact ⟨x, rfl, hx.imp (congrArg key) (congrArg key)⟩
  | optional p ih => exact h.imp_right (ih hp)
  | notAhead p => exact absurd trivial hp
  | seq p q ihp ihq =>
    obtain ⟨hp, hq⟩ := not_or.mp hp
    obtain ⟨m, hpm, hqm⟩ := h
    exact ⟨m, ihp hp hpm, ihq hq hqm⟩

end Pattern

namespace Glob

theorem not_looksAhead_segment (sp : Spelling) (s : List Char) : ¬ (segment sp s).LooksAhead := by
  induction s with
  | nil => exact id
  | cons c cs ih =>
    refine not_or.mpr ⟨?_, ih⟩
    unfold segmentChar
    split
    · exact id
    · rcases sp.char_cases c with ⟨-, hchar⟩ | ⟨l, u, -, hchar⟩ <;> rw [hchar] <;> exact id

theorem not_looksAhead_segments (sp : Spelling) (first : Bool) (ss : List (List Char)) :
    ¬ (segments sp first ss).LooksAhead := by
  have hdirectories : ¬ directories.LooksAhead := not_or.mpr ⟨id, id⟩
  fun_induction segments sp first ss with
  | case1 | case3 => exact id
  | case2 => exact hdirectories
  | case4 first s hs => exact not_or.mpr ⟨not_looksAhead_segment sp s, id⟩
  | case5 first rest hrest ih =>
    refine not_or.mpr ⟨?_, ih⟩
    split <;> exact hdirectories
  | case6 first s rest hrest hs ih =>
    exact not_or.mpr ⟨not_looksAhead_segment sp s, not_or.mpr ⟨id, ih⟩⟩

/-- A glob matches a text letter for letter: its pattern, read as a regular expression, is found in
it, with the cases told apart. -/
def CoversByLetter (glob : List Char) (text : String) : Prop :=
  ∃ r, Regex.read? (pattern .exact glob).source = some r ∧ r.Finds id text.toList

theorem coversByLetter_iff {glob : List Char} {text : String} :
    CoversByLetter glob text ↔ (pattern .exact glob).MatchesStart id text.toList := by
  rw [CoversByLetter, Pattern.read?_source (writable_pattern .exact glob),
    ← @Pattern.finds_regex_iff id fun _ => id]
  simp only [Option.some_inj, exists_eq_left']

theorem covers_of_coversByLetter {glob : List Char} {text : String}
    (h : CoversByLetter glob text) : Covers .exact glob text := by
  obtain ⟨r, hr⟩ := coversByLetter_iff.mp h
  exact covers_iff.mpr ⟨r, hr.of_id (not_looksAhead_segments .exact true _)⟩

/-- Behind the negations of some texts, no pattern of a list matches one of these texts. -/
theorem not_matchesStart_of_negated {key : Char → Char} {entries literals : List String}
    {text : String} (htext : text ∈ literals) (hne : text ≠ "") {g : CompiledGlob}
    (hg : g ∈ compile .exact (entries ++ literals.map SkipPolicy.negation)) :
    ¬ g.pattern.MatchesStart key text.toList := by
  have hmarks : ∀ t : String, (SkipPolicy.negation t).toList = '!' :: t.toList :=
    fun t => String.toList_ofList
  have hnone : compile .exact (literals.map SkipPolicy.negation) = [] := by
    rw [← List.map_eq_nil_iff, map_glob_compile, List.filter_eq_nil_iff]
    intro e he
    obtain ⟨t, -, rfl⟩ := List.mem_map.mp he
    simp [isPositive, hmarks t]
  have hexception : exception? (SkipPolicy.negation text) = some text.toList :=
    exception?_eq_some.mpr ⟨hmarks text, fun h => hne (String.toList_eq_nil_iff.mp h)⟩
  rw [compile_append, hnone, List.append_nil] at hg
  obtain ⟨g, -, rfl⟩ := List.mem_map.mp hg
  rw [matchesStart_carve]
  refine fun h => h.2 text.toList (List.mem_filterMap.mpr ⟨_, ?_, hexception⟩)
    (matchesStart_self (Spelling.matches_exact_self key) text.toList)
  exact List.mem_map_of_mem htext

end Glob

namespace SkipPolicy

open Glob
open Pattern (exactly)

variable {p : SkipPolicy} {url : String}

/-! ## What the runtime does with a pattern -/

/-- The runtime steps over a URL for the sake of the patterns: one of them, read as a regular
expression, is found in the URL letter for letter. -/
def StepsOver (sources : List String) (url : String) : Prop :=
  ∃ s ∈ sources, ∃ r, Regex.read? s.toList = some r ∧ r.Finds id url.toList

theorem stepsOver_append_iff {sources more : List String} :
    StepsOver (sources ++ more) url ↔ StepsOver sources url ∨ StepsOver more url := by
  simp only [StepsOver, List.mem_append, or_and_right, exists_or]

theorem stepsOver_map_iff {ps : List Pattern} (h : ∀ q ∈ ps, q.Writable) :
    StepsOver (ps.map fun q => String.ofList q.source) url ↔
      ∃ q ∈ ps, q.MatchesStart id url.toList := by
  simp only [StepsOver, List.mem_map, exists_exists_and_eq_and]
  refine exists_congr fun q => and_congr_right fun hq => ?_
  rw [String.toList_ofList, Pattern.read?_source (h q hq),
    ← @Pattern.finds_regex_iff id fun _ => id]
  simp only [Option.some_inj, exists_eq_left']

/-- The patterns of some globs. -/
def sourcesOf (entries : List String) : List String :=
  (compile .exact entries).map (·.source)

theorem stepsOver_sourcesOf_iff {entries : List String} :
    StepsOver (sourcesOf entries) url ↔
      ∃ g ∈ compile .exact entries, g.pattern.MatchesStart id url.toList := by
  have hsources : sourcesOf entries =
      ((compile .exact entries).map (·.pattern)).map fun q => String.ofList q.source := by
    rw [sourcesOf, List.map_map]
    rfl
  rw [hsources, stepsOver_map_iff]
  · simp only [List.mem_map, exists_exists_and_eq_and]
  intro q hq
  obtain ⟨g, hg, rfl⟩ := List.mem_map.mp hq
  exact writable_of_mem_compile hg

/-- The patterns of both lists. -/
theorem blackboxSources_eq (h : p.Lawful) (hc : p.pathCase.isInsensitive = false) :
    p.blackboxSources = sourcesOf p.authored.globs ++ p.internalSources := by
  have hcompiled : p.authored.compiled = compile .exact p.authored.globs := by
    rw [h.authored.compiled_eq, h.spelling_eq_exact hc]
  rw [internalSources, hcompiled, blackboxSources, blackbox, hcompiled, List.map_append,
    List.map_map, List.drop_left' (by rw [List.length_map]), sourcesOf]
  rfl

theorem matchesStart_exactly_iff {cs t : List Char} :
    (exactly cs).MatchesStart id t ↔ t = cs := by
  constructor
  · rintro ⟨r, m, hm, rfl, rfl⟩
    rw [matches_literal_iff.mp hm, List.append_nil]
  · rintro rfl
    exact ⟨[], [], matches_literal_iff.mpr (List.append_nil t).symm, rfl, rfl⟩

theorem writable_of_mem_internalPatterns {globs : GlobList} {names : List String} {q : Pattern}
    (hq : q ∈ internalPatterns globs names) : q.Writable := by
  rw [internalPatterns, List.mem_cons, List.mem_flatMap] at hq
  rcases hq with rfl | ⟨n, -, hq⟩
  · exact writable_internalModule
  · rcases List.mem_pair.mp hq with rfl | rfl <;> exact Pattern.writable_exactly _

theorem exists_internalPatterns_iff {globs : GlobList} {names : List String} :
    (∃ q ∈ internalPatterns globs names, q.MatchesStart id url.toList) ↔
      internalModule.accepts id url.toList = true ∨
        ∃ n ∈ names, globs.isMatch n = true ∧ (url = n ∨ url = nodeScheme ++ n) := by
  have hbuiltin : ∀ n, (∃ q ∈ builtinPatterns n, q.MatchesStart id url.toList) ↔
      url = n ∨ url = nodeScheme ++ n := by
    intro n
    have hpair : builtinPatterns n = [exactly n.toList, exactly (nodeScheme ++ n).toList] := by
      rw [String.toList_append]
      rfl
    simp only [hpair, List.mem_cons, List.not_mem_nil, or_false, exists_eq_or_imp, exists_eq_left,
      matchesStart_exactly_iff, String.toList_inj]
  simp only [internalPatterns, List.exists_mem_cons_iff, Pattern.accepts_iff]
  refine or_congr_right ?_
  constructor
  · rintro ⟨q, hq, hmatch⟩
    obtain ⟨n, hn, hq⟩ := List.mem_flatMap.mp hq
    obtain ⟨hn, hglobs⟩ := List.mem_filter.mp hn
    exact ⟨n, hn, hglobs, (hbuiltin n).mp ⟨q, hq, hmatch⟩⟩
  · rintro ⟨n, hn, hglobs, hurl⟩
    obtain ⟨q, hq, hmatch⟩ := (hbuiltin n).mpr hurl
    exact ⟨q, List.mem_flatMap.mpr ⟨n, List.mem_filter.mpr ⟨hn, hglobs⟩, hq⟩, hmatch⟩

/-- **Which URLs the patterns for modules match**: those with the shape of an internal module, if
there are globs for modules and the builtins are known, and the builtins that the globs match, under
either spelling. -/
theorem stepsOver_internalSources_iff :
    StepsOver p.internalSources url ↔ ∃ globs names, p.nodeInternals = some globs ∧
      p.builtins = some names ∧ globs.isEmpty = false ∧
      (internalModule.accepts id url.toList = true ∨
        ∃ n ∈ names, globs.isMatch n = true ∧ (url = n ∨ url = nodeScheme ++ n)) := by
  have hdrop : p.internalSources =
      (p.blackbox.drop p.authored.compiled.length).map fun q => String.ofList q.source :=
    List.map_drop.symm
  rw [hdrop, blackbox, List.drop_left' (List.length_map _)]
  cases hglobs : p.nodeInternals with
  | none => simp [StepsOver]
  | some globs =>
    cases hknown : p.builtins with
    | none => simp [StepsOver]
    | some names =>
      simp only [Option.some_inj, exists_and_left, exists_eq_left']
      cases globs.isEmpty with
      | true => simp [StepsOver]
      | false =>
        rw [if_neg Bool.false_ne_true, stepsOver_map_iff fun q => writable_of_mem_internalPatterns,
          exists_internalPatterns_iff, and_iff_right rfl]

/-- What the runtime does can be computed. -/
theorem stepsOver_blackboxSources_iff (h : p.Lawful) :
    StepsOver p.blackboxSources url ↔ p.blackbox.any (·.accepts id url.toList) = true := by
  have hwritable : ∀ q ∈ p.blackbox, q.Writable := by
    intro q hq
    rcases List.mem_append.mp hq with hq | hq
    · rw [h.authored.compiled_eq] at hq
      obtain ⟨g, hg, rfl⟩ := List.mem_map.mp hq
      exact writable_of_mem_compile hg
    · split at hq
      · split at hq
        · exact absurd hq List.not_mem_nil
        · exact writable_of_mem_internalPatterns hq
      · exact absurd hq List.not_mem_nil
  rw [blackboxSources, stepsOver_map_iff hwritable, List.any_eq_true]
  simp only [Pattern.accepts_iff]

/-! ## Files -/

/-- No pattern for modules matches a file. -/
theorem not_stepsOver_internalSources (hint : p.isNodeInternal url = false) :
    ¬ StepsOver p.internalSources url := by
  rw [stepsOver_internalSources_iff]
  rintro ⟨globs, names, -, hknown, -, hurl⟩
  rw [isNodeInternal, hknown, Bool.or_eq_false_iff, Bool.or_eq_false_iff] at hint
  obtain ⟨⟨hscheme, hshape⟩, hnames⟩ := hint
  rcases hurl with hurl | ⟨n, hn, -, rfl | rfl⟩
  · rw [hurl] at hshape
    cases hshape
  · simp [hn] at hnames
  · have hstrip : Text.stripPrefix? nodeScheme.toList (nodeScheme ++ n).toList = some n.toList :=
      Text.stripPrefix?_eq_some.mpr String.toList_append
    rw [hstrip] at hscheme
    cases hscheme

/-- **A file that is to be kept** is matched only if the other entries do not match it without
regard to case, and do letter for letter. -/
theorem stepsOver_keep_file_iff (h : p.Lawful) (hc : p.pathCase.isInsensitive = false)
    (hurl : url ≠ "") (hint : p.isNodeInternal url = false) :
    StepsOver (p.setExplicitSkip url false).blackboxSources url ↔
      p.decidedAnyway url = false ∧ StepsOver (sourcesOf (p.remaining url)) url := by
  have hkept := h.setExplicitSkip url false
  have hc' : (p.setExplicitSkip url false).pathCase.isInsensitive = false := by
    rwa [(p.fixed_setExplicitSkip url false).1]
  have hint' : (p.setExplicitSkip url false).isNodeInternal url = false := by
    rwa [isNodeInternal_setExplicitSkip]
  have hglobs := editedGlobs_setExplicitSkip h url false
  rw [editedGlobs, hint', if_neg Bool.false_ne_true, namesOf, hint, if_neg Bool.false_ne_true]
    at hglobs
  rw [blackboxSources_eq hkept hc', stepsOver_append_iff,
    or_iff_left (not_stepsOver_internalSources hint'), hglobs]
  cases hdecided : p.decidedAnyway url with
  | false => rw [appended, if_pos rfl, List.append_nil, and_iff_right rfl]
  | true =>
    refine iff_of_false ?_ (by simp)
    rw [stepsOver_sourcesOf_iff]
    rintro ⟨g, hg, hmatch⟩
    exact not_matchesStart_of_negated List.mem_cons_self hurl hg hmatch

/-- Entries that match a text letter for letter, and do not match it without regard to case, have
a negation that takes the text out by ignoring case. -/
theorem exists_blind_negation {entries : List String}
    (hsteps : StepsOver (sourcesOf entries) url)
    (hspared : (compile .exact entries).any (·.isMatch url) = false) :
    ∃ e ∈ entries, ∃ n, exception? e = some n ∧ Covers .exact n url ∧ ¬ CoversByLetter n url := by
  obtain ⟨g, hg, hmatch⟩ := stepsOver_sourcesOf_iff.mp hsteps
  obtain ⟨i, entry, hi, hpos, rfl⟩ := mem_compile_iff.mp hg
  rw [matchesStart_carve] at hmatch
  obtain ⟨hentry, hspares⟩ := hmatch
  have hnot := List.any_eq_false.mp hspared _ hg
  rw [isMatch_carve, isMatch_alone] at hnot
  have hcovers := covers_of_coversByLetter (coversByLetter_iff.mpr hentry)
  obtain ⟨n, hn, hcov⟩ :
      ∃ n ∈ (entries.drop (i + 1)).filterMap exception?, Covers .exact n url := by
    by_contra hnone
    exact hnot ⟨hcovers, fun n hn hcov => hnone ⟨n, hn, hcov⟩⟩
  obtain ⟨e, he, hen⟩ := List.mem_filterMap.mp hn
  exact ⟨e, List.mem_of_mem_drop he, n, hen, hcov, fun hletter =>
    hspares n hn (coversByLetter_iff.mp hletter)⟩

/-- What the entries decide without regard to case is asked about the URL as it stands. -/
theorem not_isMatch_of_decidedAnyway (hc : p.pathCase.isInsensitive = false)
    (hback : '\\' ∉ url.toList) (hint : p.isNodeInternal url = false)
    (hdecided : p.decidedAnyway url = false) :
    (compile .exact (p.remaining url)).any (·.isMatch url) = false := by
  rw [decidedAnyway, hint, Spelling.ofCase_of_sensitive hc] at hdecided
  have hform := mt (matchesEitherForm_iff hc _ hback).mpr (Bool.eq_false_iff.mp hdecided)
  exact Bool.eq_false_iff.mpr fun hmatch => hform ⟨url, List.mem_cons_self, hmatch⟩

/-! ## Modules -/

theorem isMatch_editLiterals_keep {l : GlobList} (h : l.Sound) (hsp : l.spelling = .exact)
    {name : String} (hname : name ≠ "") :
    (editLiterals l [name] false (·.isMatch name)).isMatch name = false := by
  have hrest : (withoutLiterals l [name]).Sound := h.retain _
  have hrsp : (withoutLiterals l [name]).spelling = .exact := hsp
  have hne : ∀ t ∈ [name], t.toList ≠ [] := by
    simpa using hname
  unfold editLiterals
  simp only
  split
  · assumption
  · rw [if_neg Bool.false_ne_true, ← Bool.not_eq_true, isMatch_foldl_negation hrest hne, hrsp]
    exact fun hmatch => hmatch.2 name List.mem_cons_self (covers_self name)

/-- After the choice to keep it, the globs do not match a module under its name. -/
theorem internalsMatch_keep (h : p.Lawful) (hc : p.pathCase.isInsensitive = false)
    (hname : moduleName url ≠ "") (hint : p.isNodeInternal url = true) :
    (p.setExplicitSkip url false).internalsMatch (moduleName url) = false := by
  obtain ⟨hsound, hspelling⟩ := h.internals_getD
  rw [Spelling.ofCase_of_sensitive hc] at hspelling
  rw [setExplicitSkip_of_internal hint]
  exact isMatch_editLiterals_keep hsound (by rw [Spelling.ofCase_of_sensitive hc, hspelling]) hname

/-- **A module that is to be kept** is matched by authored patterns, and by the pattern for internal
modules, and by no other. -/
theorem stepsOver_keep_module_iff (h : p.Lawful) (hc : p.pathCase.isInsensitive = false)
    (hname : moduleName url ≠ "") (hint : p.isNodeInternal url = true)
    (hscheme : ∀ names, p.builtins = some names → url ∈ names →
      nodeScheme.toList <+: url.toList → (p.setExplicitSkip url false).internalsMatch url = false) :
    StepsOver (p.setExplicitSkip url false).blackboxSources url ↔
      StepsOver (sourcesOf p.authored.globs) url ∨ (p.builtins.isSome = true ∧
        (p.setExplicitSkip url false).editedGlobs url ≠ [] ∧
        internalModule.accepts id url.toList = true) := by
  have hkept := h.setExplicitSkip url false
  obtain ⟨hcase, hbuiltins⟩ := p.fixed_setExplicitSkip url false
  have hint' := (p.isNodeInternal_setExplicitSkip url false url).trans hint
  have hauthored : (p.setExplicitSkip url false).authored = p.authored := by
    rw [setExplicitSkip_of_internal hint]
    rfl
  have hmatch := internalsMatch_keep h hc hname hint
  rw [blackboxSources_eq hkept (hcase ▸ hc), stepsOver_append_iff, hauthored,
    stepsOver_internalSources_iff, editedGlobs, if_pos hint', hbuiltins]
  refine or_congr_right ?_
  constructor
  · rintro ⟨globs, names, hglobs, hknown, hne, hurl⟩
    rw [hknown, hglobs]
    refine ⟨rfl, by simpa [GlobList.isEmpty] using hne, hurl.resolve_right ?_⟩
    rw [internalsMatch, hglobs, Option.any_some] at hmatch
    rintro ⟨n, hn, hglobs_n, rfl | rfl⟩
    · by_cases hplain : nodeScheme.toList <+: url.toList
      · have hnone := hscheme names hknown hn hplain
        rw [internalsMatch, hglobs, Option.any_some, hglobs_n] at hnone
        cases hnone
      · rw [moduleName_of_plain hplain, hglobs_n] at hmatch
        cases hmatch
    · rw [moduleName_append, hglobs_n] at hmatch
      cases hmatch
  · rintro ⟨hknown, hne, hurl⟩
    obtain ⟨names, hnames⟩ := Option.isSome_iff_exists.mp hknown
    cases hglobs : (p.setExplicitSkip url false).nodeInternals with
    | none => exact absurd (by rw [hglobs]; rfl) hne
    | some globs =>
      rw [hglobs] at hne
      exact ⟨globs, names, rfl, hnames, by simpa [GlobList.isEmpty] using hne, Or.inl hurl⟩

/-! ## Both -/

/-- **When the runtime steps over a URL that is to be kept.**  Over a file it does only if the
entries that do not name the file leave it alone without regard to case, so that nothing is appended
to them, and match it letter for letter; and then one of them is a negation that takes the file out
by ignoring case.  Over a module it does if an authored pattern matches the module, or if the module
has the shape of an internal one, the builtins are known and there are globs for modules after the
choice.  Names that were discovered under the scheme and are matched under it are left out. -/
theorem stepsOver_keep_iff (h : p.Lawful) (hc : p.pathCase.isInsensitive = false)
    (hback : '\\' ∉ url.toList) (hname : moduleName url ≠ "")
    (hscheme : ∀ names, p.builtins = some names → url ∈ names →
      nodeScheme.toList <+: url.toList → (p.setExplicitSkip url false).internalsMatch url = false) :
    let sources := (p.setExplicitSkip url false).blackboxSources
    (p.isNodeInternal url = false →
      (StepsOver sources url ↔
        p.decidedAnyway url = false ∧ StepsOver (sourcesOf (p.remaining url)) url) ∧
      (StepsOver sources url → ∃ e ∈ p.remaining url, ∃ n, exception? e = some n ∧
        Covers .exact n url ∧ ¬ CoversByLetter n url)) ∧
    (p.isNodeInternal url = true →
      (StepsOver sources url ↔ StepsOver (sourcesOf p.authored.globs) url ∨
        (p.builtins.isSome = true ∧ (p.setExplicitSkip url false).editedGlobs url ≠ [] ∧
          internalModule.accepts id url.toList = true))) := by
  intro sources
  refine ⟨fun hint => ?_, fun hint => stepsOver_keep_module_iff h hc hname hint hscheme⟩
  have hurl : url ≠ "" := by
    rintro rfl
    exact hname rfl
  have hfile := stepsOver_keep_file_iff h hc hurl hint
  refine ⟨hfile, fun hsteps => ?_⟩
  obtain ⟨hdecided, hletter⟩ := hfile.mp hsteps
  exact exists_blind_negation hletter (not_isMatch_of_decidedAnyway hc hback hint hdecided)

/-- A file of a skipped directory and a builtin module, over which the runtime steps, are taken out
of what is skipped, and it does not any more. -/
theorem stepsOver_keep_iff_taken_out :
    let p := (ofGlobs ["**/node_modules/**"] (some ["**"]) .sensitive).setBuiltins ["fs", "path"]
    let file := "file:///app/node_modules/a.js"
    (StepsOver p.blackboxSources file ∧
      ¬ StepsOver (p.setExplicitSkip file false).blackboxSources file) ∧
    (StepsOver p.blackboxSources "node:fs" ∧
      ¬ StepsOver (p.setExplicitSkip "node:fs" false).blackboxSources "node:fs") := by
  intro p file
  have hlawful : p.Lawful := (lawful_ofGlobs _ _ _).setBuiltins _
  have hsteps := fun url => @stepsOver_blackboxSources_iff p url hlawful
  refine ⟨⟨(hsteps file).mpr (by decide +kernel), fun hkept => ?_⟩,
    (hsteps "node:fs").mpr (by decide +kernel), fun hkept => ?_⟩
  · have hspec := @stepsOver_keep_iff p file hlawful rfl (by decide) (by decide)
      fun _ _ _ => by decide +kernel
    obtain ⟨e, he, n, hen, -⟩ := (hspec.1 (by decide +kernel)).2 hkept
    have hremaining : p.remaining file = ["**/node_modules/**"] := by decide +kernel
    have hpositive : exception? "**/node_modules/**" = none := by decide
    rw [hremaining, List.mem_singleton] at he
    rw [he, hpositive] at hen
    cases hen
  · have hnames : p.builtins = some ["fs", "path"] := by decide +kernel
    have hplain : ∀ names, p.builtins = some names → "node:fs" ∉ names := by
      rintro names hknown
      obtain rfl := Option.some.inj (hnames.symm.trans hknown)
      decide
    have hspec := @stepsOver_keep_iff p "node:fs" hlawful rfl (by decide) (by decide)
      fun names hknown hmem => absurd hmem (hplain names hknown)
    have hnone : (compile .exact p.authored.globs).any
        (fun g => g.pattern.accepts id "node:fs".toList) = false := by decide +kernel
    rcases (hspec.2 (by decide +kernel)).mp hkept with hauthored | ⟨-, -, hshape⟩
    · obtain ⟨g, hg, hmatch⟩ := stepsOver_sourcesOf_iff.mp hauthored
      exact List.any_eq_false.mp hnone g hg ((Pattern.accepts_iff _ _ _).mpr hmatch)
    · exact absurd hshape (by decide +kernel)

/-- **The runtime may step over what is to be kept**: over an internal module, over a builtin that
an authored glob matches, and over a file that is spared only if case is ignored. -/
theorem kept_url_stepped_over :
    let timers := (ofGlobs [] (some ["**"]) .sensitive).setBuiltins ["fs"]
    let builtin := (ofGlobs ["**/fs"] none .sensitive).setBuiltins ["fs"]
    let cased := ofGlobs ["**/lib/**", "!**/LIB/**"] none .sensitive
    (timers.Lawful ∧ timers.isSkipped "internal/timers.js" = true ∧
      (timers.setExplicitSkip "internal/timers.js" false).isSkipped "internal/timers.js" = false ∧
      StepsOver (timers.setExplicitSkip "internal/timers.js" false).blackboxSources
        "internal/timers.js") ∧
    (builtin.Lawful ∧ StepsOver (builtin.setExplicitSkip "fs" false).blackboxSources "fs") ∧
    (cased.Lawful ∧ cased.isSkipped "/app/lib/a.js" = false ∧
      StepsOver (cased.setExplicitSkip "/app/lib/a.js" false).blackboxSources "/app/lib/a.js") := by
  intro timers builtin cased
  have htimers : timers.Lawful := (lawful_ofGlobs _ _ _).setBuiltins _
  have hbuiltin : builtin.Lawful := (lawful_ofGlobs _ _ _).setBuiltins _
  have hcased : cased.Lawful := lawful_ofGlobs _ _ _
  refine ⟨⟨htimers, by decide +kernel, by decide +kernel, ?_⟩, ⟨hbuiltin, ?_⟩,
    ⟨hcased, by decide +kernel, ?_⟩⟩
  · exact (stepsOver_blackboxSources_iff (htimers.setExplicitSkip _ _)).mpr (by decide +kernel)
  · exact (stepsOver_blackboxSources_iff (hbuiltin.setExplicitSkip _ _)).mpr (by decide +kernel)
  · exact (stepsOver_blackboxSources_iff (hcased.setExplicitSkip _ _)).mpr (by decide +kernel)

end SkipPolicy
end DebugTree
