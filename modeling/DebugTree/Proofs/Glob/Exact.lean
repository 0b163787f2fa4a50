import DebugTree.Proofs.Glob.Literal
import Mathlib.Data.List.Basic

/-!
# What a path covers as a glob

A path that is put into a list of globs covers itself (`covers_self`).  What else it covers depends
on its characters.  A path without stars covers the texts that are equal to it up to case, and no
others: every segment is matched character by character, and the last one up to the end of the
text.  With stars in it a path may cover other texts, but no star stands for what is written out:
each character other than a star and a slash is found again in every text that is covered, and so is
a slash at the front.

In particular a path with a backslash covers only texts with a backslash, although backslashes are
not told apart from slashes elsewhere.
-/

namespace DebugTree

/-! ## Parts of a text -/

namespace Text

variable {α : Type}

theorem mem_joinWith_of_mem {sep c : α} {part : List α} {parts : List (List α)}
    (hpart : part ∈ parts) (hc : c ∈ part) : c ∈ joinWith sep parts := by
  fun_induction joinWith sep parts with
  | case1 => exact absurd hpart List.not_mem_nil
  | case2 s => rwa [← List.mem_singleton.mp hpart]
  | case3 s parts hne ih =>
    rcases List.mem_cons.mp hpart with rfl | hpart
    · exact List.mem_append_left _ hc
    · exact List.mem_append_right _ (List.mem_cons_of_mem sep (ih hpart))

theorem exists_mem_of_mem_joinWith {sep c : α} {parts : List (List α)} (hsep : c ≠ sep)
    (hc : c ∈ joinWith sep parts) : ∃ part ∈ parts, c ∈ part := by
  fun_induction joinWith sep parts with
  | case1 => exact absurd hc List.not_mem_nil
  | case2 s => exact ⟨s, List.mem_singleton_self s, hc⟩
  | case3 s parts hne ih =>
    rcases List.mem_append.mp hc with hc | hc
    · exact ⟨s, List.mem_cons_self, hc⟩
    · obtain ⟨part, hpart, hc⟩ := ih ((List.mem_cons.mp hc).resolve_left hsep)
      exact ⟨part, List.mem_cons_of_mem s hpart, hc⟩

/-- The two texts are equal up to simple case folding. -/
def EqUpToCase (s t : List Char) : Prop :=
  s.map simpleFold = t.map simpleFold

instance (s t : List Char) : Decidable (EqUpToCase s t) :=
  inferInstanceAs (Decidable (s.map simpleFold = t.map simpleFold))

end Text

namespace Pattern

/-- What a pattern leaves is an end of the text. -/
theorem Matches.isSuffix {key : Char → Char} {p : Pattern} {t r : List Char}
    (h : Matches key p t r) : r <:+ t := by
  induction p generalizing t r with
  | empty => exact h ▸ List.suffix_refl r
  | char c =>
    obtain ⟨x, rfl, -⟩ := h
    exact List.suffix_cons x r
  | oneOf a b =>
    obtain ⟨x, rfl, -⟩ := h
    exact List.suffix_cons x r
  | many s =>
    obtain ⟨w, rfl, -⟩ := h
    exact List.suffix_append w r
  | atLeastOne s =>
    obtain ⟨w, rfl, -⟩ := h
    exact List.suffix_append w r
  | finish => exact h.1 ▸ h.2 ▸ List.suffix_refl []
  | optional p ih => exact h.elim (· ▸ List.suffix_refl r) ih
  | notAhead p _ => exact h.1 ▸ List.suffix_refl r
  | seq p q ihp ihq =>
    obtain ⟨m, hp, hq⟩ := h
    exact (ihq hq).trans (ihp hp)

end Pattern

namespace Glob

open Pattern (Matches)

/-! ## Globs without stars -/

theorem matches_segment_iff {key : Char → Char} {cs t r : List Char} (h : '*' ∉ cs) :
    Matches key (segment .exact cs) t r ↔ ∃ w, t = w ++ r ∧ w.map key = cs.map key := by
  induction cs generalizing t with
  | nil =>
    rw [List.map_nil]
    constructor
    · rintro rfl
      exact ⟨[], rfl, rfl⟩
    · rintro ⟨w, rfl, hw⟩
      rw [List.map_eq_nil_iff.mp hw]
      rfl
  | cons c cs ih =>
    rw [List.mem_cons, not_or] at h
    have hchar : segmentChar .exact c = .char c := if_neg (Ne.symm h.1)
    have hseq : Matches key (segment .exact (c :: cs)) t r ↔
        ∃ m, (∃ x, t = x :: m ∧ key x = key c) ∧ Matches key (segment .exact cs) m r := by
      rw [segment, List.map_cons, hchar]
      rfl
    rw [hseq, List.map_cons]
    constructor
    · rintro ⟨m, ⟨x, rfl, hx⟩, hrest⟩
      obtain ⟨w, rfl, hw⟩ := (ih h.2).mp hrest
      exact ⟨x :: w, rfl, by rw [List.map_cons, hx, hw]⟩
    · rintro ⟨w, rfl, hw⟩
      obtain ⟨x, w, rfl, hx, hrest⟩ := List.map_eq_cons_iff.mp hw
      exact ⟨w ++ r, ⟨x, rfl, hx⟩, (ih h.2).mpr ⟨w, rfl, hrest⟩⟩

theorem ne_anyDirectories {s : List Char} (h : '*' ∉ s) : s ≠ anyDirectories := by
  rintro rfl
  exact h List.mem_cons_self

/-- Segments without stars match one text up to its end. -/
theorem matches_segments_iff {key : Char → Char} {first : Bool} {ss : List (List Char)}
    {t r : List Char} (hne : ss ≠ []) (h : ∀ s ∈ ss, '*' ∉ s) :
    Matches key (segments .exact first ss) t r ↔
      t.map key = (Text.joinWith '/' ss).map key ∧ r = [] := by
  fun_induction segments .exact first ss generalizing t with
  | case1 => exact absurd rfl hne
  | case2 => exact absurd rfl (ne_anyDirectories (h _ List.mem_cons_self))
  | case3 => exact absurd rfl (ne_anyDirectories (h _ List.mem_cons_self))
  | case4 first s =>
    rw [Text.joinWith]
    constructor
    · rintro ⟨m, hs, rfl, rfl⟩
      obtain ⟨w, rfl, hw⟩ := (matches_segment_iff (h s List.mem_cons_self)).mp hs
      exact ⟨(List.append_nil w).symm ▸ hw, rfl⟩
    · rintro ⟨hw, rfl⟩
      refine ⟨[], (matches_segment_iff (h s List.mem_cons_self)).mpr ⟨t, ?_, hw⟩, rfl, rfl⟩
      exact (List.append_nil t).symm
  | case5 => exact absurd rfl (ne_anyDirectories (h _ List.mem_cons_self))
  | case6 first s rest hrest hs ih =>
    obtain ⟨hstar, hstars⟩ := List.forall_mem_cons.mp h
    have hslash : ∀ m, Matches key (segments .exact false rest) m r ↔
        m.map key = (Text.joinWith '/' rest).map key ∧ r = [] := fun m => ih hrest hstars
    rw [Text.joinWith_cons '/' s hrest, List.map_append, List.map_cons]
    constructor
    · rintro ⟨_, hs, m, ⟨x, rfl, hx⟩, hm⟩
      obtain ⟨w, rfl, hw⟩ := (matches_segment_iff hstar).mp hs
      obtain ⟨hkeys, rfl⟩ := (hslash m).mp hm
      exact ⟨by rw [List.map_append, List.map_cons, hw, hx, hkeys], rfl⟩
    · rintro ⟨ht, rfl⟩
      obtain ⟨w, t', rfl, hw, ht'⟩ := List.map_eq_append_iff.mp ht
      obtain ⟨x, m, rfl, hx, hm⟩ := List.map_eq_cons_iff.mp ht'
      exact ⟨x :: m, (matches_segment_iff hstar).mpr ⟨w, rfl, hw⟩, m, ⟨x, rfl, hx⟩,
        (hslash m).mpr ⟨hm, rfl⟩⟩

theorem notMem_of_mem_splitOn {c : Char} {glob s : List Char} (h : c ∉ glob)
    (hs : s ∈ Text.splitOn '/' glob) : c ∉ s := by
  intro hc
  have hmem : c ∈ Text.joinWith '/' (Text.splitOn '/' glob) := Text.mem_joinWith_of_mem hs hc
  rw [Text.joinWith_splitOn] at hmem
  exact h hmem

/-- **A glob without stars covers one text**, up to case. -/
theorem covers_iff_eqUpToCase {glob : List Char} (h : '*' ∉ glob) {text : String} :
    Covers .exact glob text ↔ Text.EqUpToCase text.toList glob := by
  have hstars : ∀ s ∈ Text.splitOn '/' glob, '*' ∉ s := fun s hs => notMem_of_mem_splitOn h hs
  have hsegments : ∀ r, Matches Text.simpleFold (pattern .exact glob) text.toList r ↔
      text.toList.map Text.simpleFold = glob.map Text.simpleFold ∧ r = [] := by
    intro r
    rw [pattern, matches_segments_iff (Text.splitOn_ne_nil '/' glob) hstars, Text.joinWith_splitOn]
  rw [covers_iff, Pattern.MatchesStart, Text.EqUpToCase]
  simp only [hsegments, exists_and_left, exists_eq, and_true]

/-! ## What a glob spells out -/

/-- A segment matches nothing without the characters in it. -/
theorem exists_key_eq_of_matches_segment {key : Char → Char} {cs t r : List Char} {c : Char}
    (hc : c ∈ cs) (hstar : c ≠ '*') (h : Matches key (segment .exact cs) t r) :
    ∃ x ∈ t, key x = key c := by
  induction cs generalizing t with
  | nil => exact absurd hc List.not_mem_nil
  | cons d cs ih =>
    obtain ⟨m, hd, hrest⟩ := h
    rcases List.mem_cons.mp hc with rfl | hc
    · rw [segmentChar, if_neg hstar] at hd
      obtain ⟨x, rfl, hx⟩ := hd
      exact ⟨x, List.mem_cons_self, hx⟩
    · obtain ⟨x, hx, hkey⟩ := ih hc hrest
      exact ⟨x, hd.isSuffix.subset hx, hkey⟩

theorem exists_key_eq_of_matches_segments {key : Char → Char} {first : Bool}
    {ss : List (List Char)} {t r : List Char} {c : Char} (hc : ∃ s ∈ ss, c ∈ s) (hstar : c ≠ '*')
    (h : Matches key (segments .exact first ss) t r) : ∃ x ∈ t, key x = key c := by
  have hdirs : c ∉ anyDirectories := by simpa [anyDirectories] using hstar
  fun_induction segments .exact first ss generalizing t with
  | case1 =>
    obtain ⟨s, hs, -⟩ := hc
    exact absurd hs List.not_mem_nil
  | case2 | case3 =>
    obtain ⟨s, hs, hc⟩ := hc
    exact absurd (List.mem_singleton.mp hs ▸ hc) hdirs
  | case4 first s =>
    obtain ⟨s', hs', hc⟩ := hc
    obtain ⟨m, hs, -⟩ := h
    exact exists_key_eq_of_matches_segment (List.mem_singleton.mp hs' ▸ hc) hstar hs
  | case5 first rest hrest ih =>
    rw [List.exists_mem_cons_iff] at hc
    obtain ⟨m, hm, hrest⟩ := h
    obtain ⟨x, hx, hkey⟩ := ih (hc.resolve_left hdirs) hrest
    exact ⟨x, hm.isSuffix.subset hx, hkey⟩
  | case6 first s rest hrest hs ih =>
    rw [List.exists_mem_cons_iff] at hc
    obtain ⟨m, hm, m', hslash, hrest⟩ := h
    rcases hc with hc | hc
    · exact exists_key_eq_of_matches_segment hc hstar hm
    · obtain ⟨x, hx, hkey⟩ := ih hc hrest
      exact ⟨x, hm.isSuffix.subset (hslash.isSuffix.subset hx), hkey⟩

/-- What a glob spells out is found in every text that it covers. -/
theorem exists_simpleFold_eq_of_covers {glob : List Char} {text : String} {c : Char}
    (hc : c ∈ glob) (hstar : c ≠ '*') (hslash : c ≠ '/') (h : Covers .exact glob text) :
    ∃ x ∈ text.toList, Text.simpleFold x = Text.simpleFold c := by
  obtain ⟨r, hr⟩ := covers_iff.mp h
  rw [← Text.joinWith_splitOn '/' glob] at hc
  exact exists_key_eq_of_matches_segments (Text.exists_mem_of_mem_joinWith hslash hc) hstar hr

/-- A glob that begins with a slash covers only texts that do. -/
theorem exists_of_covers_slash {sp : Spelling} {rest : List Char} {text : String}
    (h : Covers sp ('/' :: rest) text) : ∃ t, text.toList = '/' :: t := by
  obtain ⟨r, hr⟩ := covers_iff.mp h
  have hsplit : Text.splitOn '/' ('/' :: rest) = [] :: Text.splitOn '/' rest := if_pos rfl
  rw [pattern, hsplit] at hr
  cases hparts : Text.splitOn '/' rest with
  | nil => exact absurd hparts (Text.splitOn_ne_nil '/' rest)
  | cons s ss =>
    rw [hparts] at hr
    obtain ⟨m, hm, m', ⟨x, rfl, hx⟩, -⟩ := hr
    exact ⟨m', Text.eq_slash_of_simpleFold hx ▸ hm.symm⟩

end Glob
end DebugTree
