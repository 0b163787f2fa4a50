import DebugTree.Proofs.Glob.Compile

/-!
# The parts of a text that a glob matches

A glob matches a text by cutting it up: every segment takes one part, in order, and what is left
over at the end is nothing, unless the glob ends in `**`.  `covers_iff_parts` says so of the text of
the pattern, read as a regular expression, and with it what each segment may take (`IsPart`).

| segment              | part                                           |
|----------------------|------------------------------------------------|
| leading `**`         | nothing, or characters of one line and a slash |
| inner `**`           | characters of one line and a slash             |
| trailing `**`        | nothing                                        |
| any other            | a word of the segment, and a slash unless last |

A word of a segment has a character for each character of the segment, and for a star any number of
characters but slashes (`Spells`).  So none of them is read as anything but itself, whatever a
regular expression would make of it; the second half of `covers_iff_parts` says the same of the
reader, which takes the text of such a character for one more piece in any context.
-/

namespace DebugTree

namespace Spelling

/-- The characters that are written for a character of a glob. -/
def expansion : Spelling → Char → List Char
  | .exact, c => [c]
  | .bothCases, c =>
    match Text.lowercaseChar c, Text.uppercaseChar c with
    | [l], [u] => if l = u then [c] else [l, u]
    | _, _ => [c]

/-- A character of a text stands where the glob has a character: it folds to what one of the
characters folds to that are written for it. -/
def Accepts (sp : Spelling) (c x : Char) : Prop :=
  ∃ d ∈ sp.expansion c, Text.simpleFold x = Text.simpleFold d

/-- A character is written as itself or as a class of two. -/
theorem char_cases (sp : Spelling) (c : Char) :
    (sp.expansion c = [c] ∧ sp.char c = .char c) ∨
      ∃ l u, sp.expansion c = [l, u] ∧ sp.char c = .oneOf l u := by
  fun_cases expansion sp c with
  | case1 => exact Or.inl ⟨rfl, rfl⟩
  | case2 c l hu hl => exact Or.inl ⟨rfl, by simp only [char, hl, hu, if_true]⟩
  | case3 c l u hu hl hne => exact Or.inr ⟨l, u, rfl, by simp only [char, hl, hu, if_neg hne]⟩
  | case4 c hlong => exact Or.inl ⟨rfl, by simp only [char]⟩

/-- What is written for a character matches one character. -/
theorem matches_char_iff (sp : Spelling) (c : Char) {t r : List Char} :
    (sp.char c).Matches Text.simpleFold t r ↔ ∃ x, t = x :: r ∧ sp.Accepts c x := by
  rcases sp.char_cases c with ⟨hexp, hchar⟩ | ⟨l, u, hexp, hchar⟩
  · simp only [hchar, Accepts, hexp, Pattern.Matches, List.mem_singleton, exists_eq_left]
  · simp only [hchar, Accepts, hexp, Pattern.Matches, List.mem_cons, List.not_mem_nil, or_false,
      exists_eq_or_imp, exists_eq_left]

end Spelling

namespace Glob

open Pattern (Matches)

/-! ## Words of a segment -/

/-- The word has a character for each character of the segment, and any characters but slashes for
a star. -/
def Spells (sp : Spelling) : List Char → List Char → Prop
  | [], w => w = []
  | c :: cs, w =>
    if c = '*' then ∃ u v, w = u ++ v ∧ '/' ∉ u ∧ Spells sp cs v
    else ∃ x v, w = x :: v ∧ sp.Accepts c x ∧ Spells sp cs v

theorem spells_cons_iff {sp : Spelling} {c : Char} {cs w : List Char} :
    Spells sp (c :: cs) w ↔
      if c = '*' then ∃ u v, w = u ++ v ∧ '/' ∉ u ∧ Spells sp cs v
      else ∃ x v, w = x :: v ∧ sp.Accepts c x ∧ Spells sp cs v :=
  Iff.rfl

theorem matches_inSegment_iff {t r : List Char} :
    Matches Text.simpleFold (.many .inSegment) t r ↔ ∃ u, t = u ++ r ∧ '/' ∉ u := by
  simp only [Matches, CharClass.has, bne_iff_ne]
  refine exists_congr fun u => and_congr_right fun _ => ?_
  exact ⟨fun h hmem => h '/' hmem rfl, fun h x hx heq => h (heq ▸ hx)⟩

/-- A segment matches its words. -/
theorem matches_segment_iff_spells (sp : Spelling) (s : List Char) {t r : List Char} :
    Matches Text.simpleFold (segment sp s) t r ↔ ∃ w, t = w ++ r ∧ Spells sp s w := by
  induction s generalizing t with
  | nil =>
    constructor
    · rintro rfl
      exact ⟨[], rfl, rfl⟩
    · rintro ⟨w, rfl, rfl⟩
      rfl
  | cons c cs ih =>
    have hseq : Matches Text.simpleFold (segment sp (c :: cs)) t r ↔
        ∃ m, Matches Text.simpleFold (segmentChar sp c) t m ∧
          ∃ w, m = w ++ r ∧ Spells sp cs w := by
      simp only [← ih]
      rfl
    rw [hseq]
    simp only [spells_cons_iff]
    unfold segmentChar
    split
    · simp only [matches_inSegment_iff]
      constructor
      · rintro ⟨_, ⟨u, rfl, hu⟩, w, rfl, hw⟩
        exact ⟨u ++ w, by rw [List.append_assoc], u, w, rfl, hu, hw⟩
      · rintro ⟨_, rfl, u, w, rfl, hu, hw⟩
        exact ⟨w ++ r, ⟨u, by rw [List.append_assoc], hu⟩, w, rfl, hw⟩
    · simp only [sp.matches_char_iff]
      constructor
      · rintro ⟨_, ⟨x, rfl, hx⟩, w, rfl, hw⟩
        exact ⟨x :: w, rfl, x, w, rfl, hx, hw⟩
      · rintro ⟨_, rfl, x, w, rfl, hx, hw⟩
        exact ⟨w ++ r, ⟨x, rfl, hx⟩, w, rfl, hw⟩

instance (sp : Spelling) (s w : List Char) : Decidable (Spells sp s w) :=
  decidable_of_iff ((Pattern.seq (segment sp s) .finish).accepts Text.simpleFold w = true) <| by
    rw [Pattern.accepts_iff, Pattern.MatchesStart]
    simp only [Matches, matches_segment_iff_spells]
    constructor
    · rintro ⟨_, _, ⟨v, rfl, hv⟩, rfl, rfl⟩
      rwa [List.append_nil]
    · exact fun hw => ⟨[], [], ⟨w, (List.append_nil w).symm, hw⟩, rfl, rfl⟩

/-! ## Parts -/

/-- Some characters of one line, and a slash. -/
def IsDirectories (part : List Char) : Prop :=
  ∃ w, '\n' ∉ w ∧ part = w ++ ['/']

/-- What a segment may take of a text, as the first segment or a later one, and as the last segment
or an earlier one. -/
def IsPart (sp : Spelling) (first last : Bool) (s part : List Char) : Prop :=
  if s = anyDirectories then
    if first then part = [] ∨ IsDirectories part
    else if last then part = []
    else IsDirectories part
  else ∃ w, Spells sp s w ∧ part = w ++ if last then [] else ['/']

/-- One part for each segment, in order. -/
def AreParts (sp : Spelling) (first : Bool) : List (List Char) → List (List Char) → Prop
  | [], [] => True
  | s :: ss, part :: parts => IsPart sp first ss.isEmpty s part ∧ AreParts sp false ss parts
  | _, _ => False

theorem areParts_nil_iff {sp : Spelling} {first : Bool} {parts : List (List Char)} :
    AreParts sp first [] parts ↔ parts = [] := by
  cases parts with
  | nil => exact iff_of_true trivial rfl
  | cons part parts => exact iff_of_false id (List.cons_ne_nil part parts)

theorem areParts_cons_iff {sp : Spelling} {first : Bool} {s : List Char}
    {ss parts : List (List Char)} :
    AreParts sp first (s :: ss) parts ↔ ∃ part parts', parts = part :: parts' ∧
      IsPart sp first ss.isEmpty s part ∧ AreParts sp false ss parts' := by
  cases parts with
  | nil => exact iff_of_false id (by simp)
  | cons part parts =>
    constructor
    · exact fun h => ⟨part, parts, rfl, h⟩
    · rintro ⟨_, _, ⟨⟩, h⟩
      exact h

theorem matches_directories_iff {t r : List Char} :
    Matches Text.simpleFold directories t r ↔ ∃ part, t = part ++ r ∧ IsDirectories part := by
  constructor
  · rintro ⟨_, ⟨w, rfl, hw⟩, x, rfl, hx⟩
    obtain rfl := Text.eq_slash_of_simpleFold hx
    refine ⟨w ++ ['/'], by simp, w, fun hmem => ?_, rfl⟩
    exact absurd (hw '\n' hmem) (by decide)
  · rintro ⟨_, rfl, w, hw, rfl⟩
    refine ⟨'/' :: r, ⟨w, by simp, fun x hx => ?_⟩, '/', rfl, rfl⟩
    exact bne_iff_ne.mpr fun heq => hw (heq ▸ hx)

theorem matches_optional_directories_iff {t r : List Char} :
    Matches Text.simpleFold (.optional directories) t r ↔
      ∃ part, t = part ++ r ∧ (part = [] ∨ IsDirectories part) := by
  rw [Matches, matches_directories_iff]
  constructor
  · rintro (rfl | ⟨part, ht, hpart⟩)
    · exact ⟨[], rfl, Or.inl rfl⟩
    · exact ⟨part, ht, Or.inr hpart⟩
  · rintro ⟨part, rfl, rfl | hpart⟩
    · exact Or.inl rfl
    · exact Or.inr ⟨part, rfl, hpart⟩

/-- A segment that another one follows takes one of its parts. -/
theorem matches_part_iff (sp : Spelling) (s : List Char) {t r : List Char} :
    Matches Text.simpleFold (.seq (segment sp s) (.char '/')) t r ↔
      ∃ part, t = part ++ r ∧ ∃ w, Spells sp s w ∧ part = w ++ ['/'] := by
  constructor
  · rintro ⟨_, hs, x, rfl, hx⟩
    obtain ⟨w, rfl, hw⟩ := (matches_segment_iff_spells sp s).mp hs
    obtain rfl := Text.eq_slash_of_simpleFold hx
    exact ⟨w ++ ['/'], by simp, w, hw, rfl⟩
  · rintro ⟨_, rfl, w, hw, rfl⟩
    exact ⟨'/' :: r, (matches_segment_iff_spells sp s).mpr ⟨w, by simp, hw⟩, '/', rfl, rfl⟩

/-- One segment takes its part, and the rest of the segments go on from there. -/
theorem exists_parts_cons_iff {sp : Spelling} {first : Bool} {s : List Char}
    {rest : List (List Char)} (hrest : rest ≠ []) {p : Pattern} {t r : List Char}
    (hp : ∀ m, p.Matches Text.simpleFold t m ↔
      ∃ part, t = part ++ m ∧ IsPart sp first false s part)
    (ih : ∀ m, Matches Text.simpleFold (segments sp false rest) m r ↔
      ∃ parts, m = parts.flatten ++ r ∧ AreParts sp false rest parts ∧
        (rest.getLast? ≠ some anyDirectories → r = [])) :
    (∃ m, p.Matches Text.simpleFold t m ∧ Matches Text.simpleFold (segments sp false rest) m r) ↔
      ∃ parts, t = parts.flatten ++ r ∧ AreParts sp first (s :: rest) parts ∧
        ((s :: rest).getLast? ≠ some anyDirectories → r = []) := by
  have hlast : (s :: rest).getLast? = rest.getLast? := by
    rw [List.getLast?_cons]
    cases hget : rest.getLast? with
    | none => exact absurd (List.getLast?_eq_none_iff.mp hget) hrest
    | some _ => rfl
  have hmore : rest.isEmpty = false := by simpa using hrest
  simp only [hp, ih, areParts_cons_iff, hmore, hlast]
  constructor
  · rintro ⟨_, ⟨part, rfl, hpart⟩, parts, rfl, hparts, hend⟩
    exact ⟨part :: parts, by simp, ⟨part, parts, rfl, hpart, hparts⟩, hend⟩
  · rintro ⟨_, rfl, ⟨part, parts, rfl, hpart, hparts⟩, hend⟩
    exact ⟨parts.flatten ++ r, ⟨part, by simp, hpart⟩, parts, rfl, hparts, hend⟩

/-- The last segment takes its part, and leaves the rest of the text or nothing. -/
theorem exists_parts_singleton_iff {sp : Spelling} {first : Bool} {s t r : List Char} :
    (∃ parts, t = parts.flatten ++ r ∧ AreParts sp first [s] parts ∧
        ([s].getLast? ≠ some anyDirectories → r = [])) ↔
      ∃ part, t = part ++ r ∧ IsPart sp first true s part ∧ (s ≠ anyDirectories → r = []) := by
  simp only [areParts_cons_iff, areParts_nil_iff, List.getLast?_singleton, ne_eq, Option.some_inj]
  constructor
  · rintro ⟨_, rfl, ⟨part, _, rfl, hpart, rfl⟩, hend⟩
    exact ⟨part, by simp, hpart, hend⟩
  · rintro ⟨part, rfl, hpart, hend⟩
    exact ⟨[part], by simp, ⟨part, [], rfl, hpart, rfl⟩, hend⟩

/-- **Segments match by taking one part each.** -/
theorem matches_segments_iff_parts {sp : Spelling} {first : Bool} {ss : List (List Char)}
    (hne : ss ≠ []) {t r : List Char} :
    Matches Text.simpleFold (segments sp first ss) t r ↔
      ∃ parts, t = parts.flatten ++ r ∧ AreParts sp first ss parts ∧
        (ss.getLast? ≠ some anyDirectories → r = []) := by
  fun_induction segments sp first ss generalizing t with
  | case1 => exact absurd rfl hne
  | case2 =>
    rw [exists_parts_singleton_iff, matches_optional_directories_iff]
    simp [IsPart]
  | case3 first hfirst =>
    rw [exists_parts_singleton_iff, Matches]
    simp [IsPart, hfirst, eq_comm]
  | case4 first s hs =>
    rw [exists_parts_singleton_iff]
    constructor
    · rintro ⟨m, hm, rfl, rfl⟩
      obtain ⟨w, rfl, hw⟩ := (matches_segment_iff_spells sp s).mp hm
      exact ⟨w, rfl, by simpa [IsPart, hs] using hw, fun _ => rfl⟩
    · rintro ⟨part, rfl, hpart, hend⟩
      obtain rfl := hend hs
      have hw : Spells sp s part := by simpa [IsPart, hs] using hpart
      exact ⟨[], (matches_segment_iff_spells sp s).mpr ⟨part, rfl, hw⟩, rfl, rfl⟩
  | case5 first rest hrest ih =>
    refine exists_parts_cons_iff hrest (fun m => ?_) fun m => ih hrest
    cases first with
    | true => simp [IsPart, matches_optional_directories_iff]
    | false => simp [IsPart, matches_directories_iff]
  | case6 first s rest hrest hs ih =>
    -- the pattern is bracketed the other way round: the slash belongs to what follows
    have hassoc : Matches Text.simpleFold
        (.seq (segment sp s) (.seq (.char '/') (segments sp false rest))) t r ↔
          ∃ m, (Pattern.seq (segment sp s) (.char '/')).Matches Text.simpleFold t m ∧
            Matches Text.simpleFold (segments sp false rest) m r := by
      simp only [Matches]
      grind
    rw [hassoc]
    refine exists_parts_cons_iff hrest (fun m => ?_) fun m => ih hrest
    simpa [IsPart, hs] using matches_part_iff sp s

/-! ## What the reader makes of a segment -/

/-- What a character of a segment is read as. -/
def piece (sp : Spelling) (c : Char) : Regex :=
  if c = '*' then .star (.noneOf ['/'])
  else match sp.expansion c with
    | [d] => .char d
    | ds => .oneOf ds

theorem pieces_char (sp : Spelling) {c : Char} (hstar : c ≠ '*') :
    (sp.char c).pieces = [piece sp c] := by
  rw [piece, if_neg hstar]
  rcases sp.char_cases c with ⟨hexp, hchar⟩ | ⟨l, u, hexp, hchar⟩ <;> rw [hexp, hchar] <;> rfl

/-- Every character of a segment is one piece. -/
theorem pieces_segment (sp : Spelling) (s : List Char) :
    (segment sp s).pieces = s.map (piece sp) := by
  induction s with
  | nil => rfl
  | cons c cs ih =>
    have hcons : (segment sp (c :: cs)).pieces =
        (segmentChar sp c).pieces ++ (segment sp cs).pieces := rfl
    rw [hcons, ih, List.map_cons, segmentChar]
    split
    · next hstar =>
      rw [piece, if_pos hstar]
      rfl
    · next hstar =>
      rw [pieces_char sp hstar]
      rfl

/-- **What a glob matches.**  The text of its pattern is found in a text exactly if a beginning of
the text can be cut into one part for each segment, and this beginning is all of the text unless the
glob ends in `**`.  And wherever the text of a segment stands, every character of it is read as one
more piece: a star as any characters but slashes, and any other character as itself or as one of the
two characters that are written for it. -/
theorem covers_iff_parts (sp : Spelling) (glob : List Char) (text : String) :
    (Covers sp glob text ↔ ∃ parts rest, text.toList = parts.flatten ++ rest ∧
      AreParts sp true (Text.splitOn '/' glob) parts ∧
      ((Text.splitOn '/' glob).getLast? ≠ some anyDirectories → rest = [])) ∧
    ∀ s ∈ Text.splitOn '/' glob, ∀ r : Regex.Reader, r.mode = .plain →
      (segment sp s).body.foldlM Regex.Reader.step r =
        some { r with level := r.level.append (s.map (piece sp)) } := by
  constructor
  · rw [covers_iff, Pattern.MatchesStart, pattern]
    simp only [matches_segments_iff_parts (Text.splitOn_ne_nil '/' glob)]
    exact exists_comm
  · intro s _ r hr
    rw [Pattern.foldlM_step_body (writable_segment sp s) r hr, pieces_segment]

/-- A glob with a dot, a star and brackets in it, which matches what is in a folder whose name has a
letter of the other case. -/
theorem covers_iff_parts_folder :
    Covers .exact "**/v1.(*)/**".toList "/app/V1.(a)/b.js" ∧
      (segment .exact "v1.(*)".toList).body.foldlM Regex.Reader.step .fresh =
        some ⟨[], Regex.Level.fresh.append [.char 'v', .char '1', .char '.', .char '(',
          .star (.noneOf ['/']), .char ')'], .plain⟩ := by
  have hspec := covers_iff_parts .exact "**/v1.(*)/**".toList "/app/V1.(a)/b.js"
  have hname : Spells .exact "v1.(*)".toList "V1.(a)".toList := by decide
  have hsplit : Text.splitOn '/' "**/v1.(*)/**".toList =
      [anyDirectories, "v1.(*)".toList, anyDirectories] := by decide
  refine ⟨hspec.1.mpr ⟨["/app/".toList, "V1.(a)/".toList, []], "b.js".toList, by decide, ?_, ?_⟩,
    hspec.2 "v1.(*)".toList (by decide) .fresh rfl⟩
  · rw [hsplit]
    exact ⟨Or.inr ⟨"/app".toList, by decide, rfl⟩, ⟨"V1.(a)".toList, hname, rfl⟩, rfl, trivial⟩
  · exact fun hlast => absurd (congrArg List.getLast? hsplit) hlast

end Glob
end DebugTree
