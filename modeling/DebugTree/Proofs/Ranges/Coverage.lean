import DebugTree.Proofs.Ranges.Merging
import DebugTree.Ranges.Inverted
import Mathlib.Data.List.ReduceOption

/-!
# What the ranges of a script cover

A script gets its ranges in two passes.  The first one goes through the files in the order of the
source map and keeps one range open, which a neighbour with a different state makes longer.  It is
given no order of the places: a file may lie before the one that is listed before it, and files may
overlap.  So what comes out of the first pass is neither sorted nor disjoint.  All that can be said
of it is that every range is upright, that its ends are ends of files, and that the range of no
file is lost; a range may have more than its files have, as two neighbours are joined across what
lies between them.  The second pass then merges, and merging needs no more than that.

A file without a place closes the open range.  So what stands before such a file in the source map
and what stands behind it give ranges as if either stood alone, and the script has what the two
have together (`exists_has_rangesOf_append_iff`).
-/

namespace DebugTree
namespace Ranges

variable {p : SkipPolicy} {g : SourceGraph} {compiled : Source} {a : AuthoredSource} {s : Span}

/-! ## Files that count -/

/-- The file has another state than the script. -/
def Differs (p : SkipPolicy) (compiled : Source) (a : AuthoredSource) : Prop :=
  effective p (p.isSkipped compiled.url) a ≠ p.isSkipped compiled.url

instance : Decidable (Differs p compiled a) :=
  inferInstanceAs (Decidable (_ ≠ _))

/-- The ends of the file have places in the script, and the last one does not come before the first
one. -/
structure LiesAt (g : SourceGraph) (compiled : Source) (a : AuthoredSource) (s : Span) : Prop where
  first : g.place? a.source compiled .start = some s.first
  last : g.place? a.source compiled a.finish = some s.last
  upright : s.IsUpright

theorem placed?_eq_some_iff : placed? g compiled a = some s ↔ LiesAt g compiled a s := by
  unfold placed?
  split
  · next first last hfirst hlast =>
    rw [Option.ite_none_right_eq_some, Option.some_inj]
    constructor
    · rintro ⟨hle, rfl⟩
      exact ⟨hfirst, hlast, hle⟩
    · intro h
      obtain rfl : first = s.first := Option.some_inj.mp (hfirst.symm.trans h.first)
      obtain rfl : last = s.last := Option.some_inj.mp (hlast.symm.trans h.last)
      exact ⟨h.upright, rfl⟩
  · next hnone => exact iff_of_false (by simp) fun h => hnone s.first s.last h.first h.last

theorem invertedSpan?_eq_some_iff :
    invertedSpan? p g compiled a = some s ↔ Differs p compiled a ∧ LiesAt g compiled a s := by
  rw [invertedSpan?, Option.ite_none_left_eq_some, placed?_eq_some_iff]
  rfl

/-! ## The first pass -/

/-- The spans that are to be joined: the open one and those of the list. -/
def joined (opened : Option Span) (spans : List (Option Span)) : List Span :=
  opened.toList ++ spans.reduceOption

theorem joined_nil (opened : Option Span) : joined opened [] = opened.toList :=
  List.append_nil _

theorem joined_none_cons (opened : Option Span) (rest : List (Option Span)) :
    joined opened (none :: rest) = opened.toList ++ joined none rest := rfl

theorem joined_some_cons (s : Span) (rest : List (Option Span)) :
    joined none (some s :: rest) = s :: joined none rest := rfl

theorem joined_some (o : Span) (rest : List (Option Span)) :
    joined (some o) rest = o :: joined none rest := rfl

theorem isUpright_of_mem_joinNeighbours {opened : Option Span} {spans : List (Option Span)}
    (hupright : ∀ t ∈ joined opened spans, t.IsUpright) :
    ∀ t ∈ joinNeighbours opened spans, t.IsUpright := by
  fun_induction joinNeighbours opened spans with
  | case1 opened => rwa [joined_nil] at hupright
  | case2 opened rest ih =>
    rw [joined_none_cons, List.forall_mem_append] at hupright
    exact List.forall_mem_append.mpr ⟨hupright.1, ih hupright.2⟩
  | case3 s rest ih => exact ih hupright
  | case4 o s rest hle ih =>
    rw [joined_some, joined_some_cons, List.forall_mem_cons, List.forall_mem_cons] at hupright
    refine ih ?_
    rw [joined_some, List.forall_mem_cons]
    exact ⟨hupright.1.upTo s.last, hupright.2.2⟩
  | case5 o s rest hle ih =>
    rw [joined_some, List.forall_mem_cons] at hupright
    exact List.forall_mem_cons.mpr ⟨hupright.1, ih hupright.2⟩

/-- A range of the first pass begins and ends where files do. -/
theorem hasEnds_of_mem_joinNeighbours {opened : Option Span} {spans : List (Option Span)} :
    ∀ t ∈ joinNeighbours opened spans, Span.HasEnds (joined opened spans) t := by
  fun_induction joinNeighbours opened spans with
  | case1 opened =>
    rw [joined_nil]
    exact fun t ht => .of_mem ht
  | case2 opened rest ih =>
    rw [joined_none_cons, List.forall_mem_append]
    exact ⟨fun t ht => .of_mem (List.mem_append_left _ ht),
      fun t ht => (ih t ht).of_subset (List.subset_append_right _ _)⟩
  | case3 s rest ih => exact ih
  | case4 o s rest hle ih =>
    intro t ht
    refine (ih t ht).trans ?_
    rw [joined_some, List.forall_mem_cons]
    exact ⟨(Span.hasEnds_upTo o s).of_subset (by simp [joined_some, joined_some_cons]),
      fun u hu => .of_mem (by simp [joined_some, joined_some_cons, hu])⟩
  | case5 o s rest hle ih =>
    rw [List.forall_mem_cons]
    exact ⟨.of_mem List.mem_cons_self, fun t ht => (ih t ht).of_subset (List.subset_cons_self _ _)⟩

/-- The first pass loses no position of a file. -/
theorem exists_has_joinNeighbours {opened : Option Span} {spans : List (Option Span)}
    {q : Position} (h : ∃ t ∈ joined opened spans, t.has q = true) :
    ∃ t ∈ joinNeighbours opened spans, t.has q = true := by
  fun_induction joinNeighbours opened spans with
  | case1 opened => rwa [joined_nil] at h
  | case2 opened rest ih =>
    rw [joined_none_cons] at h
    simp only [List.mem_append, or_and_right, exists_or] at h ⊢
    exact h.imp_right ih
  | case3 s rest ih => exact ih h
  | case4 o s rest hle ih =>
    refine ih ?_
    rw [joined_some, joined_some_cons, List.exists_mem_cons_iff, List.exists_mem_cons_iff,
      ← or_assoc] at h
    rw [joined_some, List.exists_mem_cons_iff]
    exact h.imp_left (Span.has_upTo_of_or hle)
  | case5 o s rest hle ih =>
    rw [joined_some, List.exists_mem_cons_iff] at h
    rw [List.exists_mem_cons_iff]
    exact h.imp_right ih

/-- A gap separates what stands before it from what stands behind it. -/
theorem joinNeighbours_append_none (opened : Option Span) (before after : List (Option Span)) :
    joinNeighbours opened (before ++ none :: after) =
      joinNeighbours opened before ++ joinNeighbours none after := by
  fun_induction joinNeighbours opened before with
  | case1 opened => rw [List.nil_append, joinNeighbours]
  | case2 opened rest ih => rw [List.cons_append, joinNeighbours, ih, List.append_assoc]
  | case3 s rest ih => rw [List.cons_append, joinNeighbours, ih]
  | case4 o s rest hle ih => rw [List.cons_append, joinNeighbours, if_pos hle, ih]
  | case5 o s rest hle ih => rw [List.cons_append, joinNeighbours, if_neg hle, ih, List.cons_append]

/-! ## Both passes -/

/-- The ranges that some of the files of a script give. -/
def rangesOf (p : SkipPolicy) (g : SourceGraph) (compiled : Source)
    (files : List AuthoredSource) : List Span :=
  Span.merge (joinNeighbours none (files.map (invertedSpan? p g compiled)))

theorem spans_eq_rangesOf (p : SkipPolicy) (g : SourceGraph) (compiled : Source) :
    spans p g compiled = rangesOf p g compiled (g.authoredOf compiled) := rfl

/-- The spans of files that count are what the first pass joins. -/
theorem mem_joined_iff {files : List AuthoredSource} :
    s ∈ joined none (files.map (invertedSpan? p g compiled)) ↔
      ∃ a ∈ files, Differs p compiled a ∧ LiesAt g compiled a s := by
  rw [joined, Option.toList_none, List.nil_append, List.reduceOption_mem_iff, List.mem_map]
  simp only [invertedSpan?_eq_some_iff]

theorem ascending_rangesOf (files : List AuthoredSource) :
    Span.Ascending (rangesOf p g compiled files) := by
  refine Span.ascending_merge (isUpright_of_mem_joinNeighbours fun t ht => ?_)
  obtain ⟨a, -, -, hlies⟩ := mem_joined_iff.mp ht
  exact hlies.upright

/-- A range begins and ends where a file does that counts. -/
theorem hasEnds_of_mem_rangesOf {files : List AuthoredSource}
    (h : s ∈ rangesOf p g compiled files) :
    Span.HasEnds (joined none (files.map (invertedSpan? p g compiled))) s :=
  (Span.hasEnds_of_mem_merge h).trans hasEnds_of_mem_joinNeighbours

/-- A file that counts lies in the ranges. -/
theorem exists_has_rangesOf {files : List AuthoredSource} (ha : a ∈ files)
    (hdiffers : Differs p compiled a) (hlies : LiesAt g compiled a s) {q : Position}
    (hq : s.has q = true) : ∃ r ∈ rangesOf p g compiled files, r.has q = true := by
  refine Span.exists_has_merge_iff.mpr (exists_has_joinNeighbours ⟨s, ?_, hq⟩)
  exact mem_joined_iff.mpr ⟨a, ha, hdiffers, hlies⟩

/-- **A file that does not count gives nothing**: the ranges cover what the files before it and the
files after it give by themselves. -/
theorem exists_has_rangesOf_append_iff {before after : List AuthoredSource}
    (h : invertedSpan? p g compiled a = none) {q : Position} :
    (∃ r ∈ rangesOf p g compiled (before ++ a :: after), r.has q = true) ↔
      (∃ r ∈ rangesOf p g compiled before, r.has q = true) ∨
        ∃ r ∈ rangesOf p g compiled after, r.has q = true := by
  rw [rangesOf, rangesOf, rangesOf, Span.exists_has_merge_iff, Span.exists_has_merge_iff,
    Span.exists_has_merge_iff, List.map_append, List.map_cons, h, joinNeighbours_append_none]
  simp only [List.mem_append, or_and_right, exists_or]

/-! ## The ranges of a script -/

theorem length_ends (spans : List Span) : (Span.ends spans).length = 2 * spans.length := by
  induction spans with
  | nil => rfl
  | cons s rest ih =>
    have hcons : Span.ends (s :: rest) = s.first :: s.last :: Span.ends rest := rfl
    rw [hcons, List.length_cons, List.length_cons, ih, List.length_cons]
    omega

theorem mem_ends_iff {spans : List Span} {q : Position} :
    q ∈ Span.ends spans ↔ ∃ r ∈ spans, q = r.first ∨ q = r.last := by
  simp [Span.ends]

/-- **The ranges of a script**, written as their ends in turn, are upright, ascending and apart from
each other.  Every position of a file that differs from the script lies in exactly one of them, and
every end of a range is an end of such a file.  A file without a place in the script, or with its
ends the wrong way round, gives nothing and takes nothing away from the others: the ranges cover
what the files before it and those after it give. -/
theorem compute_spec (p : SkipPolicy) (g : SourceGraph) (compiled : Source) :
    ∃ ranges : List Span, compute p g compiled = Span.ends ranges ∧
      (compute p g compiled).length = 2 * ranges.length ∧ Span.Ascending ranges ∧
      (∀ a ∈ g.authoredOf compiled, ∀ s, Differs p compiled a → LiesAt g compiled a s →
        ∀ q, s.has q = true → ∃! r, r ∈ ranges ∧ r.has q = true) ∧
      (∀ q ∈ compute p g compiled, ∃ a ∈ g.authoredOf compiled, ∃ s,
        Differs p compiled a ∧ LiesAt g compiled a s ∧ (q = s.first ∨ q = s.last)) ∧
      ∀ before a after, g.authoredOf compiled = before ++ a :: after →
        (∀ s, ¬ LiesAt g compiled a s) → ∀ q,
          ((∃ r ∈ ranges, r.has q = true) ↔
            (∃ r ∈ rangesOf p g compiled before, r.has q = true) ∨
              ∃ r ∈ rangesOf p g compiled after, r.has q = true) := by
  have hcompute : compute p g compiled =
      Span.ends (rangesOf p g compiled (g.authoredOf compiled)) := by
    rw [compute, spans_eq_rangesOf]
  have hascending : Span.Ascending (rangesOf p g compiled (g.authoredOf compiled)) :=
    ascending_rangesOf _
  refine ⟨_, hcompute, ?_, hascending, ?_, ?_, ?_⟩
  · rw [hcompute, length_ends]
  · intro a ha s hdiffers hlies q hq
    obtain ⟨r, hr, hrq⟩ := exists_has_rangesOf ha hdiffers hlies hq
    exact ⟨r, ⟨hr, hrq⟩, fun r' hr' => hascending.eq_of_has hr'.1 hr hr'.2 hrq⟩
  · intro q hq
    rw [hcompute, mem_ends_iff] at hq
    obtain ⟨r, hr, hend⟩ := hq
    obtain ⟨⟨s, hs, hfirst⟩, t, ht, hlast⟩ := hasEnds_of_mem_rangesOf hr
    obtain ⟨a, ha, hdiffers, hlies⟩ := mem_joined_iff.mp hs
    obtain ⟨b, hb, hdiffers', hlies'⟩ := mem_joined_iff.mp ht
    rcases hend with rfl | rfl
    · exact ⟨a, ha, s, hdiffers, hlies, Or.inl hfirst⟩
    · exact ⟨b, hb, t, hdiffers', hlies', Or.inr hlast⟩
  · intro before a after hsplit hnowhere q
    have hnone : invertedSpan? p g compiled a = none := by
      rw [Option.eq_none_iff_forall_ne_some]
      exact fun s hs => hnowhere s (invertedSpan?_eq_some_iff.mp hs).2
    rw [hsplit]
    exact exists_has_rangesOf_append_iff hnone

/-- The script of `tangled`. -/
def tangledScript : Source := ⟨1, "/app/out.js"⟩

/-- A file of `tangled`. -/
def tangledFile (n : Nat) (url : String) : AuthoredSource := ⟨⟨n, url⟩, ⟨9, 0⟩⟩

/-- Two neighbours, one file with its ends the wrong way round, one that overlaps the neighbours but
comes behind them, one without a place, and one by itself. -/
def tangled : SourceGraph :=
  SourceGraph.empty
    |>.addMapped tangledScript (tangledFile 2 "/a.ts") ⟨0, 0⟩ ⟨9, 0⟩
    |>.addMapped tangledScript (tangledFile 3 "/b.ts") ⟨10, 0⟩ ⟨19, 0⟩
    |>.addMapped tangledScript (tangledFile 4 "/c.ts") ⟨40, 0⟩ ⟨30, 0⟩
    |>.addMapped tangledScript (tangledFile 5 "/d.ts") ⟨15, 0⟩ ⟨25, 0⟩
    |>.addAuthored tangledScript (tangledFile 6 "/e.ts")
    |>.addMapped tangledScript (tangledFile 7 "/f.ts") ⟨50, 0⟩ ⟨59, 0⟩

/-- All files are skipped, and the script is not. -/
def allSkipped : SkipPolicy :=
  ["/a.ts", "/b.ts", "/c.ts", "/d.ts", "/e.ts", "/f.ts"].foldl (·.setOverride · true)
    (.ofGlobs [] none .sensitive)

theorem joinNeighbours_tangled : joinNeighbours none
      ((tangled.authoredOf tangledScript).map (invertedSpan? allSkipped tangled tangledScript)) =
    [⟨⟨0, 0⟩, ⟨19, 0⟩⟩, ⟨⟨15, 0⟩, ⟨25, 0⟩⟩, ⟨⟨50, 0⟩, ⟨59, 0⟩⟩] := by
  decide +kernel

theorem compute_tangled :
    compute allSkipped tangled tangledScript = [⟨0, 0⟩, ⟨25, 0⟩, ⟨50, 0⟩, ⟨59, 0⟩] := by
  rw [compute, spans, joinNeighbours_tangled, Span.merge, List.mergeSort_of_pairwise (by decide)]
  rfl

/-- A position that two files share, an end of a range, and a file with its ends the wrong way
round. -/
theorem compute_spec_tangled : ∃ ranges : List Span,
    compute allSkipped tangled tangledScript = Span.ends ranges ∧ Span.Ascending ranges ∧
    (∃! r, r ∈ ranges ∧ r.has ⟨17, 0⟩ = true) ∧
    (∃ a ∈ tangled.authoredOf tangledScript, ∃ s, Differs allSkipped tangledScript a ∧
      LiesAt tangled tangledScript a s ∧ (⟨25, 0⟩ = s.first ∨ ⟨25, 0⟩ = s.last)) ∧
    ∀ q, ((∃ r ∈ ranges, r.has q = true) ↔
      (∃ r ∈ rangesOf allSkipped tangled tangledScript
        [tangledFile 2 "/a.ts", tangledFile 3 "/b.ts"], r.has q = true) ∨
      ∃ r ∈ rangesOf allSkipped tangled tangledScript
        [tangledFile 5 "/d.ts", tangledFile 6 "/e.ts", tangledFile 7 "/f.ts"], r.has q = true) := by
  obtain ⟨ranges, hends, -, hascending, hone, hfile, hnothing⟩ :=
    compute_spec allSkipped tangled tangledScript
  have hlies : LiesAt tangled tangledScript (tangledFile 3 "/b.ts") ⟨⟨10, 0⟩, ⟨19, 0⟩⟩ :=
    ⟨by decide, by decide, by decide⟩
  have hwrong : ∀ s, ¬ LiesAt tangled tangledScript (tangledFile 4 "/c.ts") s := by
    rintro ⟨first, last⟩ ⟨hfirst, hlast, hupright⟩
    obtain rfl : ⟨40, 0⟩ = first := Option.some_inj.mp hfirst
    obtain rfl : ⟨30, 0⟩ = last := Option.some_inj.mp hlast
    exact absurd hupright (by decide)
  exact ⟨ranges, hends, hascending, hone _ (by decide) _ (by decide +kernel) hlies _ (by decide),
    hfile _ (by rw [compute_tangled]; decide),
    hnothing [tangledFile 2 "/a.ts", tangledFile 3 "/b.ts"] _ _ rfl hwrong⟩

end Ranges
end DebugTree
