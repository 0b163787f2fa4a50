import DebugTree.Ranges.Span
import Mathlib.Data.List.Basic

/-!
# Merged spans

Merging first sorts the spans and then goes once through them, with one span that is still growing.
Behind the growing span nothing begins before it, and that is all that the pass has to know of the
order: a span that begins where the growing one has not ended yet makes it longer, and the
positions of the longer one are those of the two; a span that begins later leaves it as it is, and
then all that follow begin later too.

So merged spans are in ascending order and apart from each other (`ascending_merge`), have the
positions of the spans that were merged (`exists_has_merge_iff`), and begin and end where some of
these do (`hasEnds_of_mem_merge`).
-/

namespace DebugTree

/-! ## Places -/

namespace Position

/-- The place comes before another one. -/
def Before (a b : Position) : Prop :=
  b.le a = false

instance (a b : Position) : Decidable (a.Before b) :=
  inferInstanceAs (Decidable (_ = false))

/-- This is the strict order that belongs to `le`. -/
theorem before_iff {a b : Position} : a.Before b ↔ a.le b = true ∧ a ≠ b := by
  rw [Before, ← Bool.not_eq_true]
  constructor
  · intro h
    refine ⟨(le_total a b).resolve_right h, ?_⟩
    rintro rfl
    exact h (le_refl a)
  · rintro ⟨hab, hne⟩ hba
    exact hne (le_antisymm hab hba)

theorem le_later_iff {a b p : Position} :
    p.le (a.later b) = true ↔ p.le a = true ∨ p.le b = true := by
  unfold later
  split
  · next h => exact ⟨Or.inr, fun hp => hp.elim (le_trans · h) id⟩
  · next h =>
    have hba := (le_total a b).resolve_left h
    exact ⟨Or.inl, fun hp => hp.elim id (le_trans · hba)⟩

theorem later_eq_or (a b : Position) : a.later b = a ∨ a.later b = b := by
  unfold later
  split
  · exact Or.inr rfl
  · exact Or.inl rfl

end Position

namespace Span

/-! ## Spans -/

/-- The span does not end before it begins. -/
def IsUpright (s : Span) : Prop :=
  s.first.le s.last = true

instance (s : Span) : Decidable s.IsUpright :=
  inferInstanceAs (Decidable (_ = true))

/-- The span begins where some span of a list begins, and ends where some span of it ends. -/
structure HasEnds (spans : List Span) (s : Span) : Prop where
  first : ∃ a ∈ spans, s.first = a.first
  last : ∃ a ∈ spans, s.last = a.last

/-- The spans are upright, in ascending order and apart from each other. -/
structure Ascending (spans : List Span) : Prop where
  upright : ∀ s ∈ spans, s.IsUpright
  apart : spans.Pairwise fun s t => s.last.Before t.first

theorem has_iff {s : Span} {p : Position} :
    s.has p = true ↔ s.first.le p = true ∧ p.le s.last = true := by
  rw [has, Bool.and_eq_true]

theorem HasEnds.of_mem {spans : List Span} {s : Span} (h : s ∈ spans) : HasEnds spans s :=
  ⟨⟨s, h, rfl⟩, s, h, rfl⟩

theorem HasEnds.of_subset {spans spans' : List Span} {s : Span} (h : HasEnds spans s)
    (hsub : spans ⊆ spans') : HasEnds spans' s := by
  obtain ⟨⟨a, ha, hfirst⟩, b, hb, hlast⟩ := h
  exact ⟨⟨a, hsub ha, hfirst⟩, b, hsub hb, hlast⟩

/-- Spans whose ends are ends of given spans may be put in the place of these. -/
theorem HasEnds.trans {spans spans' : List Span} {s : Span} (h : HasEnds spans s)
    (hall : ∀ t ∈ spans, HasEnds spans' t) : HasEnds spans' s := by
  obtain ⟨⟨a, ha, hfirst⟩, b, hb, hlast⟩ := h
  exact ⟨hfirst ▸ (hall a ha).first, hlast ▸ (hall b hb).last⟩

theorem IsUpright.upTo {s : Span} (h : s.IsUpright) (p : Position) : (s.upTo p).IsUpright :=
  Position.le_later_iff.mpr (Or.inl h)

theorem hasEnds_upTo (s t : Span) : HasEnds [s, t] (s.upTo t.last) where
  first := ⟨s, List.mem_cons_self, rfl⟩
  last := by
    rcases Position.later_eq_or s.last t.last with h | h
    · exact ⟨s, by simp, h⟩
    · exact ⟨t, by simp, h⟩

/-- A lengthened span has what the two spans have, unless the second one begins before it. -/
theorem has_upTo_of_or {s t : Span} {p : Position} (hst : s.first.le t.first = true)
    (h : s.has p = true ∨ t.has p = true) : (s.upTo t.last).has p = true := by
  rw [has_iff, has_iff] at h
  refine has_iff.mpr ⟨?_, Position.le_later_iff.mpr (h.imp And.right And.right)⟩
  exact h.elim And.left fun ht => Position.le_trans hst ht.1

/-- A span has no more positions for being lengthened up to the end of one that begins in it. -/
theorem has_upTo_iff {s t : Span} {p : Position} (hst : s.first.le t.first = true)
    (hts : t.first.le s.last = true) :
    (s.upTo t.last).has p = true ↔ s.has p = true ∨ t.has p = true := by
  refine ⟨fun h => ?_, has_upTo_of_or hst⟩
  obtain ⟨hfirst, hlast⟩ := has_iff.mp h
  rw [has_iff, has_iff]
  rcases Position.le_total p s.last with hps | hsp
  · exact Or.inl ⟨hfirst, hps⟩
  · have htp : t.first.le p = true := Position.le_trans hts hsp
    exact (Position.le_later_iff.mp hlast).imp (⟨hfirst, ·⟩) (⟨htp, ·⟩)

/-! ## The pass -/

/-- No span of the list begins before one that stands in front of it. -/
def ByFirst (spans : List Span) : Prop :=
  spans.Pairwise fun s t => s.first.le t.first = true

/-- The growing span may take in the next one and keeps its place in the order. -/
theorem ByFirst.upTo {s t : Span} {rest : List Span} (h : ByFirst (s :: t :: rest))
    (p : Position) : ByFirst (s.upTo p :: rest) := by
  obtain ⟨hs, hrest⟩ := List.pairwise_cons.mp h
  exact List.pairwise_cons.mpr ⟨fun u hu => hs u (List.mem_cons_of_mem t hu), hrest.of_cons⟩

/-- The spans that come out begin where the growing span begins, or later. -/
theorem first_le_of_mem_mergeInto {growing : Span} {rest : List Span}
    (hsorted : ByFirst (growing :: rest)) :
    ∀ s ∈ mergeInto growing rest, growing.first.le s.first = true := by
  induction rest generalizing growing with
  | nil =>
    intro s hs
    rw [List.mem_singleton.mp hs]
    exact Position.le_refl growing.first
  | cons t rest ih =>
    obtain ⟨hgrowing, hrest⟩ := List.pairwise_cons.mp hsorted
    rw [mergeInto]
    split
    · exact ih (hsorted.upTo t.last)
    · intro s hs
      rcases List.mem_cons.mp hs with rfl | hs
      · exact Position.le_refl _
      · exact Position.le_trans (hgrowing t List.mem_cons_self) (ih hrest s hs)

theorem ascending_mergeInto {growing : Span} {rest : List Span}
    (hsorted : ByFirst (growing :: rest)) (hupright : ∀ s ∈ growing :: rest, s.IsUpright) :
    Ascending (mergeInto growing rest) := by
  induction rest generalizing growing with
  | nil => exact ⟨hupright, List.pairwise_singleton _ _⟩
  | cons t rest ih =>
    obtain ⟨hup, huprest⟩ := List.forall_mem_cons.mp hupright
    rw [mergeInto]
    split
    · refine ih (hsorted.upTo t.last) (List.forall_mem_cons.mpr ⟨hup.upTo t.last, fun u hu => ?_⟩)
      exact huprest u (List.mem_cons_of_mem t hu)
    · next hapart =>
      have hrest : ByFirst (t :: rest) := List.Pairwise.of_cons hsorted
      have hmerged := ih hrest huprest
      refine ⟨List.forall_mem_cons.mpr ⟨hup, hmerged.upright⟩,
        List.pairwise_cons.mpr ⟨fun s hs => ?_, hmerged.apart⟩⟩
      have hfirst := first_le_of_mem_mergeInto hrest s hs
      rw [Position.Before, ← Bool.not_eq_true]
      exact fun hle => hapart (Position.le_trans hfirst hle)

theorem exists_has_mergeInto_iff {growing : Span} {rest : List Span} {p : Position}
    (hsorted : ByFirst (growing :: rest)) :
    (∃ s ∈ mergeInto growing rest, s.has p = true) ↔
      growing.has p = true ∨ ∃ s ∈ rest, s.has p = true := by
  induction rest generalizing growing with
  | nil => simp [mergeInto]
  | cons t rest ih =>
    obtain ⟨hgrowing, hrest⟩ := List.pairwise_cons.mp hsorted
    rw [mergeInto, List.exists_mem_cons_iff]
    split
    · next htouch =>
      rw [ih (hsorted.upTo t.last), has_upTo_iff (hgrowing t List.mem_cons_self) htouch, or_assoc]
    · rw [List.exists_mem_cons_iff, ih hrest]

theorem hasEnds_of_mem_mergeInto {growing : Span} {rest : List Span} :
    ∀ s ∈ mergeInto growing rest, HasEnds (growing :: rest) s := by
  induction rest generalizing growing with
  | nil => exact fun s hs => .of_mem hs
  | cons t rest ih =>
    intro s hs
    rw [mergeInto] at hs
    split at hs
    · refine (ih s hs).trans (List.forall_mem_cons.mpr ⟨?_, fun u hu => ?_⟩)
      · exact (hasEnds_upTo growing t).of_subset (by simp)
      · exact .of_mem (by simp [hu])
    · rcases List.mem_cons.mp hs with rfl | hs
      · exact .of_mem List.mem_cons_self
      · exact (ih s hs).of_subset (List.subset_cons_self _ _)

/-! ## Sorting first -/

theorem le_iff {a b : Span} :
    a.le b = true ↔ a.first.le b.first = true ∧ (a.first = b.first → a.last.le b.last = true) := by
  unfold le
  split
  · next h => simp [h, Position.le_refl]
  · next h => simp [h]

theorem le_trans {a b c : Span} (hab : a.le b = true) (hbc : b.le c = true) : a.le c = true := by
  obtain ⟨hab, hab'⟩ := le_iff.mp hab
  obtain ⟨hbc, hbc'⟩ := le_iff.mp hbc
  refine le_iff.mpr ⟨Position.le_trans hab hbc, fun hac => ?_⟩
  have hfirst : a.first = b.first := Position.le_antisymm hab (hac ▸ hbc)
  exact Position.le_trans (hab' hfirst) (hbc' (hfirst ▸ hac))

theorem le_total (a b : Span) : a.le b = true ∨ b.le a = true := by
  by_cases hfirst : a.first = b.first
  · rw [le_iff, le_iff, hfirst]
    exact (Position.le_total a.last b.last).imp (fun h => ⟨Position.le_refl _, fun _ => h⟩)
      fun h => ⟨Position.le_refl _, fun _ => h⟩
  · rw [le_iff, le_iff]
    exact (Position.le_total a.first b.first).imp (⟨·, fun h => absurd h hfirst⟩)
      (⟨·, fun h => absurd h.symm hfirst⟩)

theorem pairwise_mergeSort (spans : List Span) :
    (spans.mergeSort le).Pairwise fun s t => s.le t = true := by
  have htrans : ∀ a b c : Span, a.le b = true → b.le c = true → a.le c = true :=
    fun _ _ _ => le_trans
  have htotal : ∀ a b : Span, (a.le b || b.le a) = true := fun a b => by
    rw [Bool.or_eq_true]
    exact le_total a b
  exact List.pairwise_mergeSort htrans htotal spans

theorem byFirst_mergeSort (spans : List Span) : ByFirst (spans.mergeSort le) :=
  (pairwise_mergeSort spans).imp fun h => (le_iff.mp h).1

theorem mem_mergeSort_iff {spans : List Span} {s : Span} : s ∈ spans.mergeSort le ↔ s ∈ spans :=
  (List.mergeSort_perm spans le).mem_iff

/-- **Merged spans are in ascending order and apart from each other.** -/
theorem ascending_merge {spans : List Span} (h : ∀ s ∈ spans, s.IsUpright) :
    Ascending (merge spans) := by
  have hsorted := byFirst_mergeSort spans
  have hupright : ∀ s ∈ spans.mergeSort le, s.IsUpright := fun s hs => h s (mem_mergeSort_iff.mp hs)
  rw [merge]
  cases hlist : spans.mergeSort le with
  | nil => exact ⟨by simp [mergeSorted], List.Pairwise.nil⟩
  | cons s rest =>
    rw [hlist] at hsorted hupright
    exact ascending_mergeInto hsorted hupright

/-- **Merged spans have the positions of the spans that were merged.** -/
theorem exists_has_merge_iff {spans : List Span} {p : Position} :
    (∃ s ∈ merge spans, s.has p = true) ↔ ∃ s ∈ spans, s.has p = true := by
  have hsorted := byFirst_mergeSort spans
  have hsame : (∃ s ∈ spans, s.has p = true) ↔ ∃ s ∈ spans.mergeSort le, s.has p = true := by
    simp only [mem_mergeSort_iff]
  rw [merge, hsame]
  cases hlist : spans.mergeSort le with
  | nil => rfl
  | cons s rest =>
    rw [hlist] at hsorted
    rw [mergeSorted, exists_has_mergeInto_iff hsorted, List.exists_mem_cons_iff]

/-- Merged spans begin and end where spans begin and end that were merged. -/
theorem hasEnds_of_mem_merge {spans : List Span} {s : Span} (h : s ∈ merge spans) :
    HasEnds spans s := by
  rw [merge] at h
  cases hlist : spans.mergeSort le with
  | nil =>
    rw [hlist] at h
    exact absurd h List.not_mem_nil
  | cons t rest =>
    rw [hlist] at h
    exact (hasEnds_of_mem_mergeInto s h).of_subset fun u hu => mem_mergeSort_iff.mp (hlist ▸ hu)

/-! ## One span for a position -/

/-- Spans that are apart have no position in common. -/
theorem Ascending.eq_of_has {spans : List Span} (h : Ascending spans) {s t : Span} {p : Position}
    (hs : s ∈ spans) (ht : t ∈ spans) (hsp : s.has p = true) (htp : t.has p = true) : s = t := by
  have hclash : ∀ {s t : Span}, s.has p = true → t.has p = true → ¬ s.last.Before t.first := by
    intro s t hsp htp hbefore
    have hle : t.first.le s.last = true :=
      Position.le_trans (has_iff.mp htp).1 (has_iff.mp hsp).2
    exact Bool.false_ne_true (hbefore.symm.trans hle)
  obtain ⟨i, hi, rfl⟩ := List.getElem_of_mem hs
  obtain ⟨j, hj, rfl⟩ := List.getElem_of_mem ht
  have hapart := List.pairwise_iff_getElem.mp h.apart
  rcases Nat.lt_trichotomy i j with hij | rfl | hij
  · exact absurd (hapart i j hi hj hij) (hclash hsp htp)
  · rfl
  · exact absurd (hapart j i hj hi hij) (hclash htp hsp)

end Span
end DebugTree
