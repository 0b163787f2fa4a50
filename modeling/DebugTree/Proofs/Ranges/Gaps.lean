import DebugTree.Proofs.Ranges.Coverage

/-!
# What lies between neighbours

Files that follow each other in the source map share a range if they all differ from the script.
The range reaches from the first place of the one to the last place of the other, so it also has
what lies between them in the script.  The source map says nothing about that: its order need not be
the order of the places, and a file that is listed later may lie there.  If this file does not
differ, it is inverted with its neighbours although it should not be.

This is the only way in which a position gets into a range that has no business there: the ranges
cover the files that differ, and the gaps between two such files that follow each other
(`exists_has_spans_iff`).  A position of a file that does not differ, and of no file that does, is
left alone if and only if it is in none of these gaps (`kept_spared_iff`), and so is the whole file
if the source map lists its files in the order of their places and no two of them overlap.
-/

namespace DebugTree

/-! ## Gaps -/

namespace Span

/-- The position comes after one span and before another one. -/
def Between (s t : Span) (q : Position) : Prop :=
  s.last.Before q ∧ q.Before t.first

/-- A span that is lengthened up to the end of one that does not begin before it has what the two
spans have, and what lies between them. -/
theorem has_upTo_iff_or_between {s t : Span} {q : Position} (hs : s.IsUpright) (ht : t.IsUpright)
    (hst : s.first.le t.first = true) :
    (s.upTo t.last).has q = true ↔ (s.has q = true ∨ t.has q = true) ∨ s.Between t q := by
  constructor
  · intro h
    obtain ⟨hfirst, hlast⟩ := has_iff.mp h
    by_cases hqs : q.le s.last = true
    · exact Or.inl (Or.inl (has_iff.mpr ⟨hfirst, hqs⟩))
    have hqt : q.le t.last = true := (Position.le_later_iff.mp hlast).resolve_left hqs
    by_cases htq : t.first.le q = true
    · exact Or.inl (Or.inr (has_iff.mpr ⟨htq, hqt⟩))
    · exact Or.inr ⟨eq_false_of_ne_true hqs, eq_false_of_ne_true htq⟩
  · rintro (h | ⟨hsq, hqt⟩)
    · exact has_upTo_of_or hst h
    · have hsq : s.last.le q = true := (Position.before_iff.mp hsq).1
      have hqt : q.le t.first = true := (Position.before_iff.mp hqt).1
      exact has_iff.mpr ⟨Position.le_trans hs hsq,
        Position.le_later_iff.mpr (Or.inr (Position.le_trans hqt ht))⟩

/-- Nothing lies between two spans of which the second one begins first. -/
theorem not_between_of_before {s t : Span} {q : Position} (hs : s.IsUpright)
    (hts : t.first.Before s.first) : ¬ s.Between t q := by
  rintro ⟨hsq, hqt⟩
  have hst : s.first.le t.first = true :=
    Position.le_trans (Position.le_trans hs (Position.before_iff.mp hsq).1)
      (Position.before_iff.mp hqt).1
  exact Bool.false_ne_true (hts.symm.trans hst)

/-- Lengthening a span up to the end of another one makes the gap behind it that of the other one,
but for what the span has anyway. -/
theorem between_upTo_iff {o s t : Span} {q : Position} (hs : s.IsUpright)
    (hos : o.first.le s.first = true) (hoq : ¬ o.has q = true) :
    (o.upTo s.last).Between t q ↔ s.Between t q := by
  refine and_congr_left fun _ => ?_
  have hlater : (o.upTo s.last).last.Before q ↔ o.last.Before q ∧ s.last.Before q := by
    simp only [upTo, Position.Before, ← Bool.not_eq_true, Position.le_later_iff, not_or]
  rw [hlater, and_iff_right_iff_imp]
  intro hsq
  have hfirst : o.first.le q = true :=
    Position.le_trans (Position.le_trans hos hs) (Position.before_iff.mp hsq).1
  exact eq_false_of_ne_true fun hlast => hoq (has_iff.mpr ⟨hfirst, hlast⟩)

end Span

namespace Ranges

variable {p : SkipPolicy} {g : SourceGraph} {compiled : Source} {q : Position}

/-- The position lies between two spans that follow each other in the list. -/
def Gap (spans : List (Option Span)) (q : Position) : Prop :=
  ∃ s t, [some s, some t] <:+: spans ∧ s.Between t q

theorem gap_cons_cons_iff {a b : Option Span} {rest : List (Option Span)} :
    Gap (a :: b :: rest) q ↔
      (∃ s t, a = some s ∧ b = some t ∧ s.Between t q) ∨ Gap (b :: rest) q := by
  simp only [Gap, List.infix_cons_iff (a := a), List.cons_prefix_cons, List.nil_prefix, and_true,
    or_and_right, exists_or, and_assoc, eq_comm]

theorem not_gap_singleton (a : Option Span) : ¬ Gap [a] q := by
  rintro ⟨s, t, hinfix, -⟩
  exact absurd hinfix.length_le (by simp)

theorem gap_cons_none_iff {a : Option Span} {rest : List (Option Span)} :
    Gap (a :: none :: rest) q ↔ Gap (none :: rest) q := by
  simp [gap_cons_cons_iff]

theorem gap_none_cons_iff {rest : List (Option Span)} : Gap (none :: rest) q ↔ Gap rest q := by
  cases rest with
  | nil =>
    exact iff_of_false (not_gap_singleton none) fun ⟨_, _, h, _⟩ => absurd h.length_le (by simp)
  | cons b rest => simp [gap_cons_cons_iff]

theorem gap_some_cons_some_iff {s t : Span} {rest : List (Option Span)} :
    Gap (some s :: some t :: rest) q ↔ s.Between t q ∨ Gap (some t :: rest) q := by
  simp [gap_cons_cons_iff]

/-! ## What the first pass adds -/

/-- The joined span has the same gap behind it as the one that was joined last, but for what the
open span has anyway. -/
theorem gap_upTo_cons_iff {o s : Span} {rest : List (Option Span)} (hs : s.IsUpright)
    (hos : o.first.le s.first = true) (hoq : ¬ o.has q = true) :
    Gap (some (o.upTo s.last) :: rest) q ↔ Gap (some s :: rest) q := by
  match rest with
  | [] => exact iff_of_false (not_gap_singleton _) (not_gap_singleton _)
  | none :: rest => rw [gap_cons_none_iff, gap_cons_none_iff]
  | some t :: rest =>
    rw [gap_some_cons_some_iff, gap_some_cons_some_iff, Span.between_upTo_iff hs hos hoq]

/-- **The first pass adds the gaps**, and nothing else, to the spans that it joins. -/
theorem exists_has_joinNeighbours_iff {opened : Option Span} {spans : List (Option Span)}
    (hupright : ∀ t ∈ joined opened spans, t.IsUpright) :
    (∃ t ∈ joinNeighbours opened spans, t.has q = true) ↔
      (∃ t ∈ joined opened spans, t.has q = true) ∨ Gap (opened :: spans) q := by
  fun_induction joinNeighbours opened spans with
  | case1 opened => rw [joined_nil, or_iff_left (not_gap_singleton opened)]
  | case2 opened rest ih =>
    rw [joined_none_cons, List.forall_mem_append] at hupright
    simp only [joined_none_cons, gap_cons_none_iff, List.mem_append, or_and_right, exists_or]
    rw [ih hupright.2, or_assoc]
  | case3 s rest ih => rw [ih hupright, gap_none_cons_iff]; rfl
  | case4 o s rest hle ih =>
    have huprights := hupright
    rw [joined_some, joined_some_cons, List.forall_mem_cons, List.forall_mem_cons] at huprights
    obtain ⟨ho, hs, hrest⟩ := huprights
    have hopened : ∀ t ∈ joined (some (o.upTo s.last)) rest, t.IsUpright := by
      rw [joined_some]
      exact List.forall_mem_cons.mpr ⟨ho.upTo s.last, hrest⟩
    rw [ih hopened, joined_some, joined_some, joined_some_cons, List.exists_mem_cons_iff,
      List.exists_mem_cons_iff, List.exists_mem_cons_iff, gap_some_cons_some_iff,
      Span.has_upTo_iff_or_between ho hs hle]
    -- both sides have what the open span has, and on anything else the gaps agree
    by_cases hoq : o.has q = true
    · simp only [hoq, true_or]
    · rw [gap_upTo_cons_iff hs hle hoq, or_right_comm (b := o.Between s q)]
      simp only [or_assoc]
  | case5 o s rest hle ih =>
    rw [joined_some, List.forall_mem_cons] at hupright
    have hbefore : s.first.Before o.first := eq_false_of_ne_true hle
    rw [joined_some, List.exists_mem_cons_iff, List.exists_mem_cons_iff, ih hupright.2,
      gap_some_cons_some_iff, or_iff_right (Span.not_between_of_before hupright.1 hbefore), or_assoc]
    rfl

/-! ## What the ranges of a script have -/

/-- Two files that follow each other in the source map differ from the script, and the position lies
between them. -/
def Bridged (p : SkipPolicy) (g : SourceGraph) (compiled : Source) (q : Position) : Prop :=
  ∃ a b s t, [a, b] <:+: g.authoredOf compiled ∧ (Differs p compiled a ∧ LiesAt g compiled a s) ∧
    (Differs p compiled b ∧ LiesAt g compiled b t) ∧ s.Between t q

theorem gap_map_iff {files : List AuthoredSource} :
    Gap (files.map (invertedSpan? p g compiled)) q ↔
      ∃ a b s t, [a, b] <:+: files ∧ invertedSpan? p g compiled a = some s ∧
        invertedSpan? p g compiled b = some t ∧ s.Between t q := by
  constructor
  · rintro ⟨s, t, hinfix, hbetween⟩
    obtain ⟨files', hfiles, hmap⟩ := List.infix_map_iff.mp hinfix
    obtain ⟨a, rest, rfl, ha, hrest⟩ := List.map_eq_cons_iff.mp hmap.symm
    obtain ⟨b, rest, rfl, hb, hnil⟩ := List.map_eq_cons_iff.mp hrest
    obtain rfl := List.map_eq_nil_iff.mp hnil
    exact ⟨a, b, s, t, hfiles, ha, hb, hbetween⟩
  · rintro ⟨a, b, s, t, hinfix, ha, hb, hbetween⟩
    refine ⟨s, t, List.infix_map_iff.mpr ⟨[a, b], hinfix, ?_⟩, hbetween⟩
    rw [List.map_cons, List.map_singleton, ha, hb]

/-- **The ranges of a script have the files that differ**, and what lies between two of them that
follow each other in the source map. -/
theorem exists_has_spans_iff : (∃ r ∈ spans p g compiled, r.has q = true) ↔
    (∃ a ∈ g.authoredOf compiled, ∃ s, (Differs p compiled a ∧ LiesAt g compiled a s) ∧
      s.has q = true) ∨ Bridged p g compiled q := by
  have hupright : ∀ t ∈ joined none ((g.authoredOf compiled).map (invertedSpan? p g compiled)),
      t.IsUpright := by
    intro t ht
    obtain ⟨a, -, -, hlies⟩ := mem_joined_iff.mp ht
    exact hlies.upright
  rw [spans, Span.exists_has_merge_iff, exists_has_joinNeighbours_iff hupright, gap_none_cons_iff,
    gap_map_iff]
  refine or_congr ?_ (by simp only [invertedSpan?_eq_some_iff, Bridged])
  simp only [mem_joined_iff]
  constructor
  · rintro ⟨s, ⟨a, ha, hdiffers, hlies⟩, hq⟩
    exact ⟨a, ha, s, ⟨hdiffers, hlies⟩, hq⟩
  · rintro ⟨a, ha, s, ⟨hdiffers, hlies⟩, hq⟩
    exact ⟨s, ⟨a, ha, hdiffers, hlies⟩, hq⟩

/-! ## Files that stay as the script is -/

/-- The source map lists its files in the order of their places, and no two of them overlap. -/
def InOrder (g : SourceGraph) (compiled : Source) : Prop :=
  ((g.authoredOf compiled).filterMap (placed? g compiled)).Pairwise fun s t =>
    s.last.Before t.first

instance : Decidable (InOrder g compiled) :=
  inferInstanceAs (Decidable (List.Pairwise _ _))

/-- In a source map that is in order, nothing of a file that stays as the script is lies between
neighbours that differ: it lies before both of them or behind both of them. -/
theorem InOrder.not_bridged (h : InOrder g compiled) {b : AuthoredSource} {s : Span}
    (hb : b ∈ g.authoredOf compiled) (hsame : ¬ Differs p compiled b) (hlies : LiesAt g compiled b s)
    (hq : s.has q = true) : ¬ Bridged p g compiled q := by
  rintro ⟨a, a', t, t', ⟨before, after, hsplit⟩, ⟨ha, hat⟩, ⟨ha', hat'⟩, htq, hqt'⟩
  obtain ⟨hsq, hqs⟩ := Span.has_iff.mp hq
  rw [InOrder, List.pairwise_filterMap, ← hsplit] at h
  obtain ⟨hfront, -, hbehind⟩ := List.pairwise_append.mp h
  obtain ⟨-, -, hfront⟩ := List.pairwise_append.mp hfront
  rw [← hsplit, List.mem_append, List.mem_append, List.mem_pair] at hb
  rcases hb with (hb | rfl | rfl) | hb
  · have hst : s.last.Before t.first :=
      hfront b hb a (by simp) s (placed?_eq_some_iff.mpr hlies) t (placed?_eq_some_iff.mpr hat)
    have htq : t.first.le q = true := Position.le_trans hat.upright (Position.before_iff.mp htq).1
    exact Bool.false_ne_true (hst.symm.trans (Position.le_trans htq hqs))
  · exact hsame ha
  · exact hsame ha'
  · have hts : t'.last.Before s.first :=
      hbehind a' (by simp) b hb t' (placed?_eq_some_iff.mpr hat') s (placed?_eq_some_iff.mpr hlies)
    have hqt : q.le t'.last = true :=
      Position.le_trans (Position.before_iff.mp hqt').1 hat'.upright
    exact Bool.false_ne_true (hts.symm.trans (Position.le_trans hsq hqt))

/-- **A position of a file that stays as the script is**, and of no file that differs, is in none of
the ranges if and only if it does not lie between two files that differ and follow each other in the
source map.  If the source map lists its files in the order of their places and no two of them
overlap, it is in none of them. -/
theorem kept_spared_iff (p : SkipPolicy) (g : SourceGraph) (compiled : Source) :
    ∃ ranges : List Span, compute p g compiled = Span.ends ranges ∧ Span.Ascending ranges ∧
      ∀ b ∈ g.authoredOf compiled, ∀ s, ¬ Differs p compiled b → LiesAt g compiled b s →
        ∀ q, s.has q = true →
          (∀ a ∈ g.authoredOf compiled, ∀ t, Differs p compiled a → LiesAt g compiled a t →
            ¬ t.has q = true) →
          ((∀ r ∈ ranges, ¬ r.has q = true) ↔ ¬ Bridged p g compiled q) ∧
            (InOrder g compiled → ∀ r ∈ ranges, ¬ r.has q = true) := by
  refine ⟨spans p g compiled, rfl, ascending_rangesOf _, fun b hb s hsame hlies q hq hnone => ?_⟩
  have hiff : (∀ r ∈ spans p g compiled, ¬ r.has q = true) ↔ ¬ Bridged p g compiled q := by
    have hfiles : ¬ ∃ a ∈ g.authoredOf compiled, ∃ t,
        (Differs p compiled a ∧ LiesAt g compiled a t) ∧ t.has q = true := by
      rintro ⟨a, ha, t, ⟨hdiffers, hat⟩, htq⟩
      exact hnone a ha t hdiffers hat htq
    rw [← or_iff_right hfiles (b := Bridged p g compiled q), ← exists_has_spans_iff]
    simp only [not_exists, not_and]
  exact ⟨hiff, fun hin => hiff.mpr (hin.not_bridged hb hsame hlies hq)⟩

/-- Three files in the order of their places. -/
def listedInOrder : SourceGraph :=
  SourceGraph.empty
    |>.addMapped tangledScript (tangledFile 2 "/a.ts") ⟨0, 0⟩ ⟨9, 0⟩
    |>.addMapped tangledScript (tangledFile 3 "/b.ts") ⟨10, 0⟩ ⟨19, 0⟩
    |>.addMapped tangledScript (tangledFile 4 "/c.ts") ⟨20, 0⟩ ⟨29, 0⟩

/-- The files of `listedInOrder` at the same places, but the one in the middle is listed last. -/
def listedOutOfOrder : SourceGraph :=
  SourceGraph.empty
    |>.addMapped tangledScript (tangledFile 2 "/a.ts") ⟨0, 0⟩ ⟨9, 0⟩
    |>.addMapped tangledScript (tangledFile 4 "/c.ts") ⟨20, 0⟩ ⟨29, 0⟩
    |>.addMapped tangledScript (tangledFile 3 "/b.ts") ⟨10, 0⟩ ⟨19, 0⟩

/-- The outer files are skipped, and neither the script nor the file in the middle is. -/
def outerSkipped : SkipPolicy :=
  ["/a.ts", "/c.ts"].foldl (·.setOverride · true) (.ofGlobs [] none .sensitive)

/-- The file in the middle is spared if it is listed in the middle. -/
theorem kept_spared_iff_in_order : InOrder listedInOrder tangledScript ∧
    ¬ Bridged outerSkipped listedInOrder tangledScript ⟨15, 0⟩ ∧
    ∃ ranges : List Span, compute outerSkipped listedInOrder tangledScript = Span.ends ranges ∧
      Span.Ascending ranges ∧ ∀ r ∈ ranges, ¬ r.has ⟨15, 0⟩ = true := by
  have hin : InOrder listedInOrder tangledScript := by decide
  have hlies : LiesAt listedInOrder tangledScript (tangledFile 3 "/b.ts") ⟨⟨10, 0⟩, ⟨19, 0⟩⟩ :=
    ⟨by decide, by decide, by decide⟩
  have hnone : ∀ a ∈ listedInOrder.authoredOf tangledScript,
      ∀ t ∈ invertedSpan? outerSkipped listedInOrder tangledScript a, ¬ t.has ⟨15, 0⟩ = true := by
    decide +kernel
  obtain ⟨ranges, hends, hascending, hkept⟩ :=
    kept_spared_iff outerSkipped listedInOrder tangledScript
  obtain ⟨hiff, hspared⟩ := hkept _ (by decide) _ (by decide +kernel) hlies ⟨15, 0⟩ (by decide)
    fun a ha t hdiffers hat => hnone a ha t (invertedSpan?_eq_some_iff.mpr ⟨hdiffers, hat⟩)
  exact ⟨hin, hiff.mp (hspared hin), ranges, hends, hascending, hspared hin⟩

theorem joinNeighbours_listedOutOfOrder : joinNeighbours none
      ((listedOutOfOrder.authoredOf tangledScript).map
        (invertedSpan? outerSkipped listedOutOfOrder tangledScript)) = [⟨⟨0, 0⟩, ⟨29, 0⟩⟩] := by
  decide +kernel

/-- The file in the middle is inverted with the outer ones if it is listed last: the outer ones then
follow each other in the source map, and share a range. -/
theorem kept_file_inverted :
    tangledFile 3 "/b.ts" ∈ listedOutOfOrder.authoredOf tangledScript ∧
    ¬ Differs outerSkipped tangledScript (tangledFile 3 "/b.ts") ∧
    LiesAt listedOutOfOrder tangledScript (tangledFile 3 "/b.ts") ⟨⟨10, 0⟩, ⟨19, 0⟩⟩ ∧
    (⟨⟨10, 0⟩, ⟨19, 0⟩⟩ : Span).has ⟨15, 0⟩ = true ∧
    (∀ a ∈ listedOutOfOrder.authoredOf tangledScript, ∀ t, Differs outerSkipped tangledScript a →
      LiesAt listedOutOfOrder tangledScript a t → ¬ t.has ⟨15, 0⟩ = true) ∧
    compute outerSkipped listedOutOfOrder tangledScript = Span.ends [⟨⟨0, 0⟩, ⟨29, 0⟩⟩] ∧
    (⟨⟨0, 0⟩, ⟨29, 0⟩⟩ : Span).has ⟨15, 0⟩ = true := by
  have hnone : ∀ a ∈ listedOutOfOrder.authoredOf tangledScript,
      ∀ t ∈ invertedSpan? outerSkipped listedOutOfOrder tangledScript a,
        ¬ t.has ⟨15, 0⟩ = true := by
    decide +kernel
  refine ⟨by decide, by decide +kernel, ⟨by decide, by decide, by decide⟩, by decide,
    fun a ha t hdiffers hat => ?_, ?_, by decide⟩
  · exact hnone a ha t (invertedSpan?_eq_some_iff.mpr ⟨hdiffers, hat⟩)
  · rw [compute, spans, joinNeighbours_listedOutOfOrder, Span.merge, List.mergeSort_singleton]
    rfl

end Ranges
end DebugTree
