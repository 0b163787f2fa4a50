import DebugTree.Proofs.Glob.Compile
import DebugTree.Proofs.Text.Lowering

/-!
# A path as a glob

A user's choice about one file is recorded by putting the spelling of the file into the list of
globs, as it stands.  For this to work the spelling has to match itself, whatever is in it: every
character but a star is taken literally, a star takes in itself, and a segment `**` takes in
itself with the slash after it.  So no spelling needs to be escaped, and there is no way to.  A
letter that is written in both of its cases still matches itself, as both fold to one letter.

The rest says what one more entry at the end of a list does to its answers.
-/

namespace DebugTree

open Pattern (Matches)

/-- A character that is written as it stands matches itself, however characters are compared. -/
theorem Spelling.matches_exact_self (key : Char → Char) (c : Char) (rest : List Char) :
    Matches key (Spelling.exact.char c) (c :: rest) rest :=
  ⟨c, rfl, rfl⟩

/-- A character is matched by what is written for it, if case does not count. -/
theorem Spelling.matches_char_self (sp : Spelling) (c : Char) (rest : List Char) :
    Matches Text.simpleFold (sp.char c) (c :: rest) rest := by
  fun_cases Spelling.char sp c with
  | case1 | case2 | case4 => exact ⟨c, rfl, rfl⟩
  | case3 c l u hu hl hne =>
    have hdot : c ≠ 'İ' := by
      rintro rfl
      cases hl
    obtain ⟨l', hl', hfold⟩ := Text.exists_lowercaseChar_eq hdot
    obtain rfl : l' = l := List.singleton_inj.mp (hl'.symm.trans hl)
    exact ⟨c, rfl, Or.inl hfold.symm⟩

namespace Glob

/-! ## A glob matches itself -/

section

variable {key : Char → Char} {sp : Spelling}
  (hself : ∀ c rest, Matches key (sp.char c) (c :: rest) rest)

include hself

theorem matches_segment_self (cs rest : List Char) :
    Matches key (segment sp cs) (cs ++ rest) rest := by
  induction cs with
  | nil => rfl
  | cons c cs ih =>
    refine ⟨cs ++ rest, ?_, ih⟩
    unfold segmentChar
    split
    · next hstar =>
      refine ⟨[c], rfl, fun x hx => ?_⟩
      rw [List.mem_singleton.mp hx, hstar]
      rfl
    · exact hself c _

omit hself in
/-- Two stars and a slash are some characters up to a slash. -/
theorem matches_directories_self (key : Char → Char) (rest : List Char) :
    Matches key directories (anyDirectories ++ '/' :: rest) rest := by
  have hall : anyDirectories.all CharClass.inLine.has = true := by decide
  exact ⟨'/' :: rest, ⟨anyDirectories, rfl, List.all_eq_true.mp hall⟩, ⟨'/', rfl, rfl⟩⟩

/-- Segments match the text in which they stand, with slashes between them. -/
theorem matchesStart_segments_self (first : Bool) (ss : List (List Char)) :
    (segments sp first ss).MatchesStart key (Text.joinWith '/' ss) := by
  fun_induction segments sp first ss with
  | case1 => exact ⟨_, rfl⟩
  | case2 => exact ⟨_, Or.inl rfl⟩
  | case3 => exact ⟨_, rfl⟩
  | case4 first s =>
    refine ⟨[], [], ?_, rfl, rfl⟩
    rw [Text.joinWith]
    simpa using matches_segment_self hself s []
  | case5 first rest hrest ih =>
    obtain ⟨r, hr⟩ := ih
    rw [Text.joinWith_cons '/' anyDirectories hrest]
    refine ⟨r, _, ?_, hr⟩
    have hdirs := matches_directories_self key (Text.joinWith '/' rest)
    split
    · exact Or.inr hdirs
    · exact hdirs
  | case6 first s rest hrest hs ih =>
    obtain ⟨r, hr⟩ := ih
    rw [Text.joinWith_cons '/' s hrest]
    exact ⟨r, _, matches_segment_self hself s _, _, ⟨'/', rfl, rfl⟩, hr⟩

/-- **Every glob matches itself as a text**, however characters are spelled and compared, as long as
each of them is matched by what is written for it. -/
theorem matchesStart_self (cs : List Char) : (pattern sp cs).MatchesStart key cs := by
  have h := matchesStart_segments_self hself true (Text.splitOn '/' cs)
  rwa [Text.joinWith_splitOn] at h

end

theorem covers_self {sp : Spelling} (text : String) : Covers sp text.toList text :=
  covers_iff.mpr (matchesStart_self sp.matches_char_self text.toList)

end Glob

/-! ## One more entry at the end -/

namespace GlobList

open Glob

theorem Sound.isMatch_push {l : GlobList} (h : l.Sound) (glob text : String) :
    (l.push glob).isMatch text = true ↔
      (l.isMatch text = true ∧ Spares l.spelling [glob] text) ∨
        (isPositive glob = true ∧ Covers l.spelling glob.toList text) := by
  have hcompiled : (l.push glob).compiled =
      l.compiled.map (carve l.spelling [glob]) ++
        if isPositive glob then [alone l.spelling glob] else [] := by
    rw [(sound_push l glob).compiled_eq, h.compiled_eq, globs_push, spelling_push,
      compile_append_singleton, addEntry_eq]
  rw [isMatch, hcompiled, List.any_append, Bool.or_eq_true]
  refine or_congr ?_ ?_
  · rw [isMatch, List.any_map, List.any_eq_true, List.any_eq_true]
    simp only [Function.comp_apply, isMatch_carve]
    constructor
    · rintro ⟨g, hg, hm, hs⟩
      exact ⟨⟨g, hg, hm⟩, hs⟩
    · rintro ⟨⟨g, hg, hm⟩, hs⟩
      exact ⟨g, hg, hm, hs⟩
  · split
    · next hpos => simp only [List.any_cons, List.any_nil, Bool.or_false, isMatch_alone, hpos,
        true_and]
    · next hneg => simp [hneg]

/-- A positive entry at the end adds what it matches and takes nothing out. -/
theorem Sound.isMatch_push_positive {l : GlobList} (h : l.Sound) {glob : String}
    (hpos : isPositive glob = true) (text : String) :
    (l.push glob).isMatch text = true ↔
      l.isMatch text = true ∨ Covers l.spelling glob.toList text := by
  have hspares : Spares l.spelling [glob] text := by
    intro n hn
    obtain ⟨e, he, hen⟩ := List.mem_filterMap.mp hn
    rw [List.mem_singleton.mp he] at hen
    rw [isPositive, (exception?_eq_some.mp hen).1] at hpos
    exact absurd hpos (by simp)
  rw [h.isMatch_push]
  simp only [hspares, hpos, and_true, true_and]

/-- A negation at the end takes out what its glob matches. -/
theorem Sound.isMatch_push_negation {l : GlobList} (h : l.Sound) {glob : String} {n : List Char}
    (hglob : glob.toList = '!' :: n) (hn : n ≠ []) (text : String) :
    (l.push glob).isMatch text = true ↔ l.isMatch text = true ∧ ¬ Covers l.spelling n text := by
  have hex : exception? glob = some n := exception?_eq_some.mpr ⟨hglob, hn⟩
  have hneg : isPositive glob = false := by simp [isPositive, hglob]
  rw [h.isMatch_push]
  simp [Spares, hex, hneg]

end GlobList
end DebugTree
