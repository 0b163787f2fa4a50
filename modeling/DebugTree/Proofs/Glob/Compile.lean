import DebugTree.Proofs.Glob.Memory
import DebugTree.Proofs.Pattern.Source
import DebugTree.Proofs.Text.Folding

/-!
# What a list of globs compiles to

A negation is spliced into the pattern of every positive glob before it, so the pattern of an entry
depends on the entry and on what follows it, and on nothing before it.  `compile_cons` says so: the
first entry of a list, carved by the negations of the rest, stands before what the rest compiles to.
Everything else is read off from there.

`Covers` is what one glob means by itself: the text of its pattern, read as a regular expression, is
found in a text.  It is stated about the text of the pattern and not about its tree, as a negation
becomes part of the text of other globs; `compile_spec` is then a statement about texts
that are put together, and says among other things that each of them can be read.
-/

namespace DebugTree

/-! ## Patterns of globs can be written down -/

theorem Spelling.writable_char (sp : Spelling) (c : Char) : (sp.char c).Writable := by
  cases sp with
  | exact => trivial
  | bothCases =>
    simp only [Spelling.char]
    split
    · next l u hl hu =>
      split
      · trivial
      · next hne =>
        have hc : c ≠ '-' := by
          rintro rfl
          have hl' : l = '-' := by simpa using hl.symm.trans (by decide : _ = ['-'])
          have hu' : u = '-' := by simpa using hu.symm.trans (by decide : _ = ['-'])
          exact hne (hl'.trans hu'.symm)
        refine ⟨hne, ?_, ?_⟩
        · rintro rfl
          exact Text.lowercaseChar_ne_hyphen hc hl
        · rintro rfl
          exact Text.uppercaseChar_ne_hyphen hc hu
    · trivial

namespace Pattern

theorem writable_sequence {ps : List Pattern} (h : ∀ p ∈ ps, p.Writable) :
    (sequence ps).Writable := by
  induction ps with
  | nil => trivial
  | cons p ps ih =>
    exact ⟨h p List.mem_cons_self, ih fun q hq => h q (List.mem_cons_of_mem p hq)⟩

end Pattern

namespace Glob

open Pattern (Writable)

theorem writable_segment (sp : Spelling) (cs : List Char) : (segment sp cs).Writable := by
  refine Pattern.writable_sequence fun p hp => ?_
  obtain ⟨c, -, rfl⟩ := List.mem_map.mp hp
  unfold segmentChar
  split
  · trivial
  · exact sp.writable_char c

theorem writable_segments (sp : Spelling) (first : Bool) (ss : List (List Char)) :
    (segments sp first ss).Writable := by
  fun_induction segments sp first ss with
  | case1 => trivial
  | case2 => exact ⟨trivial, trivial⟩
  | case3 => trivial
  | case4 => exact ⟨writable_segment sp _, trivial⟩
  | case5 _ _ _ ih =>
    refine ⟨?_, ih⟩
    split <;> exact ⟨trivial, trivial⟩
  | case6 _ _ _ _ _ ih => exact ⟨writable_segment sp _, trivial, ih⟩

theorem writable_pattern (sp : Spelling) (glob : List Char) : (pattern sp glob).Writable :=
  writable_segments sp true _

/-! ## One glob by itself -/

/-- A glob matches a text: its pattern, read as a regular expression, is found in it. -/
def Covers (sp : Spelling) (glob : List Char) (text : String) : Prop :=
  ∃ r, Regex.read? (pattern sp glob).source = some r ∧ r.Finds Text.simpleFold text.toList

theorem covers_iff {sp : Spelling} {glob : List Char} {text : String} :
    Covers sp glob text ↔ (pattern sp glob).MatchesStart Text.simpleFold text.toList := by
  have hread := Pattern.read?_source (writable_pattern sp glob)
  rw [Covers, hread, ← Pattern.finds_regex_iff fun _ => Text.eq_slash_of_simpleFold]
  constructor
  · rintro ⟨r, hr, h⟩
    rw [Option.some.injEq] at hr
    exact hr ▸ h
  · exact fun h => ⟨_, rfl, h⟩

/-! ## Negations -/

/-- The entry stands for a pattern of its own. -/
def isPositive (entry : String) : Bool :=
  entry.toList.head? != some '!'

/-- What an entry takes out, if it is a negation of something. -/
def exception? (entry : String) : Option (List Char) :=
  match entry.toList with
  | '!' :: c :: cs => some (c :: cs)
  | _ => none

theorem exception?_eq_some {entry : String} {n : List Char} :
    exception? entry = some n ↔ entry.toList = '!' :: n ∧ n ≠ [] := by
  unfold exception?
  split
  · next c cs h =>
    rw [h, Option.some.injEq, List.cons.injEq]
    constructor
    · rintro rfl
      exact ⟨⟨rfl, rfl⟩, List.cons_ne_nil c cs⟩
    · exact fun hn => hn.1.2
  · next h =>
    refine iff_of_false (by simp) fun hn => ?_
    obtain ⟨c, cs, rfl⟩ := List.exists_cons_of_ne_nil hn.2
    exact h c cs hn.1

/-- The pattern of a glob without anything taken out. -/
def alone (sp : Spelling) (glob : String) : CompiledGlob :=
  ⟨glob, pattern sp glob.toList⟩

/-- A compiled glob when more entries have followed. -/
def carve (sp : Spelling) (later : List String) (g : CompiledGlob) : CompiledGlob :=
  (later.filterMap exception?).foldl (fun g n => g.except (pattern sp n)) g

theorem carve_singleton (sp : Spelling) (entry : String) (g : CompiledGlob) :
    carve sp [entry] g = ((exception? entry).map fun n => g.except (pattern sp n)).getD g := by
  unfold carve
  cases h : exception? entry <;> simp [h]

theorem addEntry_eq (sp : Spelling) (done : List CompiledGlob) (entry : String) :
    addEntry sp done entry =
      done.map (carve sp [entry]) ++ if isPositive entry then [alone sp entry] else [] := by
  rw [funext (carve_singleton sp entry)]
  unfold addEntry
  split
  · next h => simp [exception?, isPositive, h]
  · next n hn h =>
    have hex : exception? entry = some n := exception?_eq_some.mpr ⟨h, hn⟩
    simp [isPositive, h, hex]
  · next hbare hneg =>
    have hex : exception? entry = none := by
      rw [Option.eq_none_iff_forall_ne_some]
      exact fun n hn => hneg n (exception?_eq_some.mp hn).1
    have hpos : isPositive entry = true := by
      rw [isPositive, bne_iff_ne]
      intro hhead
      obtain ⟨n, hn⟩ := List.head?_eq_some_iff.mp hhead
      exact hneg n hn
    simp [hex, hpos, alone]

theorem carve_cons (sp : Spelling) (entry : String) (later : List String) (g : CompiledGlob) :
    carve sp (entry :: later) g = carve sp later (carve sp [entry] g) := by
  rw [carve, carve, carve, ← List.foldl_append, ← List.filterMap_append, List.singleton_append]

/-- Compiling goes on after some entries: those compiled so far are carved by what follows. -/
theorem foldl_addEntry (sp : Spelling) (done : List CompiledGlob) (entries : List String) :
    entries.foldl (addEntry sp) done = done.map (carve sp entries) ++ compile sp entries := by
  induction entries generalizing done with
  | nil =>
    have hid : carve sp [] = id := rfl
    rw [List.foldl_nil, compile_nil, List.append_nil, hid, List.map_id]
  | cons entry rest ih =>
    have hcons : carve sp (entry :: rest) = carve sp rest ∘ carve sp [entry] :=
      funext fun g => carve_cons sp entry rest g
    have hstep : compile sp (entry :: rest) = rest.foldl (addEntry sp) (addEntry sp [] entry) := rfl
    rw [List.foldl_cons, ih, hstep, ih, addEntry_eq, addEntry_eq, hcons, List.map_append,
      List.map_map, List.map_nil, List.nil_append, List.append_assoc]

/-- **An entry is carved by what follows it**, and does nothing to what follows it. -/
theorem compile_cons (sp : Spelling) (entry : String) (rest : List String) :
    compile sp (entry :: rest) =
      (if isPositive entry then [carve sp rest (alone sp entry)] else []) ++ compile sp rest := by
  rw [compile, List.foldl_cons, foldl_addEntry, addEntry_eq, List.map_nil, List.nil_append]
  split <;> rfl

theorem compile_append (sp : Spelling) (entries later : List String) :
    compile sp (entries ++ later) =
      (compile sp entries).map (carve sp later) ++ compile sp later := by
  rw [compile, List.foldl_append]
  exact foldl_addEntry sp _ later

@[simp] theorem glob_carve (sp : Spelling) (later : List String) (g : CompiledGlob) :
    (carve sp later g).glob = g.glob := by
  induction later generalizing g with
  | nil => rfl
  | cons entry later ih =>
    rw [carve_cons, ih]
    unfold carve
    cases h : exception? entry <;> simp [h, CompiledGlob.except]

theorem writable_carve {sp : Spelling} {later : List String} {g : CompiledGlob}
    (h : g.pattern.Writable) : (carve sp later g).pattern.Writable := by
  unfold carve
  induction later.filterMap exception? generalizing g with
  | nil => exact h
  | cons n ns ih => exact ih ⟨writable_pattern sp n, h⟩

/-- No entry of a list takes the text out. -/
def Spares (sp : Spelling) (later : List String) (text : String) : Prop :=
  ∀ n ∈ later.filterMap exception?, ¬ Covers sp n text

theorem matchesStart_except {key : Char → Char} {exception : Pattern} {g : CompiledGlob}
    {t : List Char} :
    (g.except exception).pattern.MatchesStart key t ↔
      g.pattern.MatchesStart key t ∧ ¬ exception.MatchesStart key t := by
  simp only [CompiledGlob.except, Pattern.MatchesStart, Pattern.Matches]
  constructor
  · rintro ⟨r, m, ⟨rfl, hn⟩, h⟩
    exact ⟨⟨r, h⟩, hn⟩
  · rintro ⟨⟨r, h⟩, hn⟩
    exact ⟨r, _, ⟨rfl, hn⟩, h⟩

/-- However characters are compared, a carved pattern matches what the pattern matches and no later
negation does. -/
theorem matchesStart_carve {key : Char → Char} (sp : Spelling) (later : List String)
    (g : CompiledGlob) (t : List Char) :
    (carve sp later g).pattern.MatchesStart key t ↔ g.pattern.MatchesStart key t ∧
      ∀ n ∈ later.filterMap exception?, ¬ (pattern sp n).MatchesStart key t := by
  unfold carve
  induction later.filterMap exception? generalizing g with
  | nil => simp
  | cons n ns ih =>
    simp only [List.foldl_cons, ih, matchesStart_except, List.forall_mem_cons, and_assoc]

/-- A carved glob matches what the glob matches and no later negation takes out. -/
theorem isMatch_carve (sp : Spelling) (later : List String) (g : CompiledGlob) (text : String) :
    (carve sp later g).isMatch text = true ↔ g.isMatch text = true ∧ Spares sp later text := by
  simp only [CompiledGlob.isMatch, Pattern.accepts_iff, matchesStart_carve, Spares, covers_iff]

theorem isMatch_alone (sp : Spelling) (glob text : String) :
    (alone sp glob).isMatch text = true ↔ Covers sp glob.toList text := by
  rw [CompiledGlob.isMatch, Pattern.accepts_iff, covers_iff]
  rfl

theorem spares_iff {sp : Spelling} {later : List String} {text : String} :
    Spares sp later text ↔ ∀ e ∈ later, ∀ n, exception? e = some n → ¬ Covers sp n text := by
  simp only [Spares, List.mem_filterMap, forall_exists_index, and_imp]
  exact ⟨fun h e he n hn => h n e he hn, fun h n e he hn => h e he n hn⟩

/-- A list matches what its first entry matches and the rest does not take out, and what the rest
matches. -/
theorem any_isMatch_compile_cons {sp : Spelling} {entry : String} {rest : List String}
    {text : String} :
    (compile sp (entry :: rest)).any (·.isMatch text) = true ↔
      ((isPositive entry = true ∧ Covers sp entry.toList text) ∧ Spares sp rest text) ∨
        (compile sp rest).any (·.isMatch text) = true := by
  rw [compile_cons, List.any_append, Bool.or_eq_true]
  refine or_congr_left ?_
  split
  · next hpos => simp [hpos, isMatch_carve, isMatch_alone]
  · next hneg => simp [hneg]

/-! ## Whole lists -/

/-- A later entry of the list takes a text out: it is the negation of a glob that matches. -/
def TakenOutAfter (sp : Spelling) (entries : List String) (i : Nat) (text : String) : Prop :=
  ∃ j e n, i < j ∧ entries[j]? = some e ∧ e.toList = '!' :: n ∧ n ≠ [] ∧ Covers sp n text

theorem spares_drop_iff {sp : Spelling} {entries : List String} {i : Nat} {text : String} :
    Spares sp (entries.drop (i + 1)) text ↔ ¬ TakenOutAfter sp entries i text := by
  rw [Spares, TakenOutAfter]
  constructor
  · rintro h ⟨j, e, n, hij, hj, he, hn, hcov⟩
    have hdrop : (entries.drop (i + 1))[j - (i + 1)]? = some e := by
      rw [List.getElem?_drop, Nat.add_sub_cancel' hij, hj]
    have hmem := List.mem_of_getElem? hdrop
    exact h n (List.mem_filterMap.mpr ⟨e, hmem, exception?_eq_some.mpr ⟨he, hn⟩⟩) hcov
  · intro h n hmem hcov
    obtain ⟨e, he, hen⟩ := List.mem_filterMap.mp hmem
    obtain ⟨k, hk⟩ := List.mem_iff_getElem?.mp he
    rw [List.getElem?_drop] at hk
    obtain ⟨he', hn⟩ := exception?_eq_some.mp hen
    exact h ⟨i + 1 + k, e, n, by omega, hk, he', hn, hcov⟩

theorem map_glob_compile (sp : Spelling) (entries : List String) :
    (compile sp entries).map (·.glob) = entries.filter isPositive := by
  induction entries with
  | nil => rfl
  | cons entry rest ih =>
    rw [compile_cons, List.map_append, ih, List.filter_cons]
    split
    · rw [List.map_singleton, glob_carve, List.singleton_append]
      rfl
    · rfl

/-- The pattern of a positive entry stands where the positive entries before it leave off. -/
theorem getElem?_compile {sp : Spelling} {entries : List String} {i : Nat} {entry : String}
    (hi : entries[i]? = some entry) (hpos : isPositive entry = true) :
    (compile sp entries)[(entries.take i).countP isPositive]? =
      some (carve sp (entries.drop (i + 1)) (alone sp entry)) := by
  induction entries generalizing i with
  | nil => exact absurd hi (by simp)
  | cons e rest ih =>
    cases i with
    | zero =>
      have he : e = entry := by simpa using hi
      rw [compile_cons, he, if_pos hpos]
      rfl
    | succ i =>
      rw [List.getElem?_cons_succ] at hi
      rw [compile_cons, List.take_succ_cons, List.countP_cons, List.drop_succ_cons]
      split
      · rw [List.singleton_append, List.getElem?_cons_succ, ih hi]
      · rw [List.nil_append, Nat.add_zero, ih hi]

/-- Every compiled pattern is that of some positive entry. -/
theorem mem_compile_iff {sp : Spelling} {entries : List String} {g : CompiledGlob} :
    g ∈ compile sp entries ↔ ∃ i entry, entries[i]? = some entry ∧ isPositive entry = true ∧
      g = carve sp (entries.drop (i + 1)) (alone sp entry) := by
  constructor
  · intro h
    induction entries with
    | nil => exact absurd h (by simp)
    | cons e rest ih =>
      rw [compile_cons, List.mem_append] at h
      rcases h with h | h
      · split at h
        · next hpos => exact ⟨0, e, rfl, hpos, List.mem_singleton.mp h⟩
        · exact absurd h (by simp)
      · obtain ⟨i, entry, hi, hpos, hg⟩ := ih h
        exact ⟨i + 1, entry, hi, hpos, hg⟩
  · rintro ⟨i, entry, hi, hpos, rfl⟩
    exact List.mem_of_getElem? (getElem?_compile hi hpos)

theorem writable_of_mem_compile {sp : Spelling} {entries : List String} {g : CompiledGlob}
    (h : g ∈ compile sp entries) : g.pattern.Writable := by
  obtain ⟨i, entry, -, -, rfl⟩ := mem_compile_iff.mp h
  exact writable_carve (writable_pattern sp entry.toList)

/-- The text of a compiled pattern can be read, and means what the matcher computes. -/
theorem read?_source_of_mem_compile {sp : Spelling} {entries : List String} {g : CompiledGlob}
    (h : g ∈ compile sp entries) :
    ∃ r, Regex.read? g.source.toList = some r ∧
      ∀ text, g.isMatch text = true ↔ r.Finds Text.simpleFold text.toList := by
  refine ⟨g.pattern.regex, ?_, fun text => ?_⟩
  · rw [CompiledGlob.source, String.toList_ofList]
    exact Pattern.read?_source (writable_of_mem_compile h)
  · rw [Pattern.finds_regex_iff fun _ => Text.eq_slash_of_simpleFold, CompiledGlob.isMatch,
      Pattern.accepts_iff]

theorem isMatch_carve_drop (sp : Spelling) (entries : List String) (i : Nat)
    (entry text : String) :
    (carve sp (entries.drop (i + 1)) (alone sp entry)).isMatch text = true ↔
      Covers sp entry.toList text ∧ ¬ TakenOutAfter sp entries i text := by
  rw [isMatch_carve, isMatch_alone, spares_drop_iff]

theorem any_isMatch_compile {sp : Spelling} {entries : List String} {text : String} :
    (compile sp entries).any (·.isMatch text) = true ↔
      ∃ i entry, entries[i]? = some entry ∧ isPositive entry = true ∧
        Covers sp entry.toList text ∧ ¬ TakenOutAfter sp entries i text := by
  rw [List.any_eq_true]
  constructor
  · rintro ⟨g, hg, hmatch⟩
    obtain ⟨i, entry, hi, hpos, rfl⟩ := mem_compile_iff.mp hg
    exact ⟨i, entry, hi, hpos, (isMatch_carve_drop sp entries i entry text).mp hmatch⟩
  · rintro ⟨i, entry, hi, hpos, hcov⟩
    exact ⟨_, mem_compile_iff.mpr ⟨i, entry, hi, hpos, rfl⟩,
      (isMatch_carve_drop sp entries i entry text).mpr hcov⟩

theorem filterMap_exception?_filter_bare (entries : List String) :
    (entries.filter (· ≠ "!")).filterMap exception? = entries.filterMap exception? := by
  induction entries with
  | nil => rfl
  | cons e rest ih =>
    by_cases he : e = "!"
    · rw [List.filter_cons_of_neg (by simpa using he), ih, he]
      rfl
    · rw [List.filter_cons_of_pos (by simpa using he), List.filterMap_cons, List.filterMap_cons, ih]

theorem compile_filter_bare (sp : Spelling) (entries : List String) :
    compile sp (entries.filter (· ≠ "!")) = compile sp entries := by
  induction entries with
  | nil => rfl
  | cons e rest ih =>
    by_cases he : e = "!"
    · rw [List.filter_cons_of_neg (by simpa using he), ih, compile_cons, he]
      rfl
    · rw [List.filter_cons_of_pos (by simpa using he), compile_cons, compile_cons, ih, carve,
        filterMap_exception?_filter_bare, carve]

/-- **What a list of globs compiles to.**  There is one pattern for each positive entry, in order,
and the text of every one of them is a regular expression, which is found in exactly the texts
that the pattern matches.  The pattern of a positive entry matches what the glob matches and no
later negation does; it is the pattern that the list from the entry on begins with, so what stands
before an entry does not matter to it, and a bare `!` matters to nothing.  A list matches a text
exactly if one of its patterns does, whatever it remembers. -/
theorem compile_spec (sp : Spelling) (entries : List String) :
    (compile sp entries).map (·.glob) = entries.filter isPositive ∧
    (∀ g ∈ compile sp entries, ∃ r, Regex.read? g.source.toList = some r ∧
      ∀ text, g.isMatch text = true ↔ r.Finds Text.simpleFold text.toList) ∧
    (∀ i entry, entries[i]? = some entry → isPositive entry = true →
      ∃ g, (compile sp entries)[(entries.take i).countP isPositive]? = some g ∧
        (compile sp (entries.drop i)).head? = some g ∧ g.glob = entry ∧
        ∀ text, g.isMatch text = true ↔
          Covers sp entry.toList text ∧ ¬ TakenOutAfter sp entries i text) ∧
    compile sp (entries.filter (· ≠ "!")) = compile sp entries ∧
    (∀ l : GlobList, l.Sound → l.globs = entries → l.spelling = sp → ∀ text,
      (l.isMatch text = true ↔
        ∃ i entry, entries[i]? = some entry ∧ isPositive entry = true ∧
          Covers sp entry.toList text ∧ ¬ TakenOutAfter sp entries i text)) := by
  refine ⟨map_glob_compile sp entries, fun g => read?_source_of_mem_compile, ?_,
    compile_filter_bare sp entries, ?_⟩
  · intro i entry hi hpos
    refine ⟨carve sp (entries.drop (i + 1)) (alone sp entry), getElem?_compile hi hpos, ?_,
      glob_carve sp _ _, isMatch_carve_drop sp entries i entry⟩
    obtain ⟨hlt, hget⟩ := List.getElem?_eq_some_iff.mp hi
    rw [List.drop_eq_getElem_cons hlt, hget, compile_cons, if_pos hpos]
    rfl
  · rintro l hsound rfl rfl text
    rw [GlobList.isMatch, hsound.compiled_eq, any_isMatch_compile]

/-- An exception carved from a directory, with a bare negation after it. -/
theorem compile_spec_directory :
    (∃ g, (compile .exact ["!**/lib/**", "**/foo/**", "!**/foo/bar/**", "!"])[0]? = some g ∧
      (compile .exact ["**/foo/**", "!**/foo/bar/**", "!"]).head? = some g ∧
      g.glob = "**/foo/**" ∧
      ∀ text, g.isMatch text = true ↔ Covers .exact "**/foo/**".toList text ∧
        ¬ TakenOutAfter .exact ["!**/lib/**", "**/foo/**", "!**/foo/bar/**", "!"] 1 text) ∧
    ((GlobList.ofList .exact ["**/foo/**"]).isMatch "/a/foo/b" = true ↔
      ∃ i entry, ["**/foo/**"][i]? = some entry ∧ isPositive entry = true ∧
        Covers .exact entry.toList "/a/foo/b" ∧ ¬ TakenOutAfter .exact ["**/foo/**"] i "/a/foo/b") :=
  ⟨(compile_spec .exact ["!**/lib/**", "**/foo/**", "!**/foo/bar/**", "!"]).2.2.1 1 "**/foo/**" rfl
      (by decide),
    (compile_spec .exact ["**/foo/**"]).2.2.2.2 (.ofList .exact ["**/foo/**"])
      (GlobList.sound_ofList .exact ["**/foo/**"]) rfl rfl "/a/foo/b"⟩

end Glob
end DebugTree
