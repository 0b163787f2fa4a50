import DebugTree.Proofs.Ranges.Merging

/-!
# Merged spans are a normal form

What spans merge to does not depend on how they were arranged, and merging it once more changes
nothing.

The first is due to the sorting.  Of two different spans one comes before the other
(`le_antisymm`), so there is only one way to sort given spans, whichever way they came.  Spans that
merely began in ascending order would not do: two that begin together could then stand either way
round.

The second holds of all spans that are in ascending order and apart from each other, not only of
those that merging has made (`merge_of_ascending`).  The sorting leaves such spans as they stand,
and the pass through them finds nothing that begins before the growing span has ended.
-/

namespace DebugTree

/-- What is not after a place comes before everything that this place comes before. -/
theorem Position.Before.of_le {a b c : Position} (h : b.Before c) (hab : a.le b = true) :
    a.Before c := by
  rw [Before, ← Bool.not_eq_true] at h ⊢
  exact fun hca => h (le_trans hca hab)

namespace Span

variable {s t : Span} {spans spans' : List Span}

/-! ## One way to sort -/

theorem le_antisymm (hst : s.le t = true) (hts : t.le s = true) : s = t := by
  obtain ⟨hst, hst'⟩ := le_iff.mp hst
  obtain ⟨hts, hts'⟩ := le_iff.mp hts
  have hfirst : s.first = t.first := Position.le_antisymm hst hts
  have hlast : s.last = t.last := Position.le_antisymm (hst' hfirst) (hts' hfirst.symm)
  cases s
  cases t
  exact congrArg₂ mk hfirst hlast

/-- Spans that are arranged in another way are sorted to the same list. -/
theorem mergeSort_eq_of_perm (h : spans.Perm spans') : spans.mergeSort le = spans'.mergeSort le := by
  have hsame : (spans.mergeSort le).Perm (spans'.mergeSort le) :=
    (List.mergeSort_perm spans le).trans (h.trans (List.mergeSort_perm spans' le).symm)
  exact List.Perm.eq_of_pairwise (fun _ _ _ _ => le_antisymm) (pairwise_mergeSort spans)
    (pairwise_mergeSort spans') hsame

theorem merge_eq_of_perm (h : spans.Perm spans') : merge spans = merge spans' := by
  rw [merge, merge, mergeSort_eq_of_perm h]

/-! ## Nothing is left to merge -/

/-- Spans that are apart also begin one after the other. -/
theorem Ascending.first_before (h : Ascending spans) :
    spans.Pairwise fun s t => s.first.Before t.first :=
  List.Pairwise.imp_of_mem (fun hs _ hapart => hapart.of_le (h.upright _ hs)) h.apart

theorem Ascending.mergeSort_eq (h : Ascending spans) : spans.mergeSort le = spans := by
  refine List.mergeSort_of_pairwise (h.first_before.imp fun hbefore => ?_)
  obtain ⟨hle, hne⟩ := Position.before_iff.mp hbefore
  exact le_iff.mpr ⟨hle, fun hfirst => absurd hfirst hne⟩

theorem mergeInto_of_apart {growing : Span} {rest : List Span}
    (h : (growing :: rest).Pairwise fun s t => s.last.Before t.first) :
    mergeInto growing rest = growing :: rest := by
  induction rest generalizing growing with
  | nil => rfl
  | cons t rest ih =>
    obtain ⟨hgrowing, hrest⟩ := List.pairwise_cons.mp h
    have hapart : ¬ t.first.le growing.last = true := by
      rw [Bool.not_eq_true]
      exact hgrowing t List.mem_cons_self
    rw [mergeInto, if_neg hapart, ih hrest]

/-- Spans that are in ascending order and apart from each other are merged already. -/
theorem merge_of_ascending (h : Ascending spans) : merge spans = spans := by
  rw [merge, h.mergeSort_eq]
  cases spans with
  | nil => rfl
  | cons s rest => exact mergeInto_of_apart h.apart

/-- **What upright spans merge to**: spans in ascending order, each of which has ended before the
next one begins, with the positions that the given spans have together, and no others, and with no
ends but theirs.  It is the same for every arrangement of the given spans, and it is merged
already. -/
theorem merge_spec (hupright : ∀ s ∈ spans, s.IsUpright) :
    Ascending (merge spans) ∧
      ((merge spans).Pairwise fun s t => s.first.Before t.first) ∧
      (∀ p : Position, (∃ s ∈ merge spans, s.has p = true) ↔ ∃ s ∈ spans, s.has p = true) ∧
      (∀ s ∈ merge spans, HasEnds spans s) ∧
      (∀ spans', spans'.Perm spans → merge spans' = merge spans) ∧
      merge (merge spans) = merge spans := by
  have hascending : Ascending (merge spans) := ascending_merge hupright
  refine ⟨hascending, hascending.first_before, fun p => exists_has_merge_iff,
    fun s hs => hasEnds_of_mem_merge hs, fun spans' hperm => merge_eq_of_perm hperm,
    merge_of_ascending hascending⟩

/-- Spans in disorder: one that lies within another one, two that share no more than an end, one
that is there twice, two that begin together, and one of a single position. -/
def disordered : List Span :=
  [⟨⟨20, 0⟩, ⟨30, 0⟩⟩, ⟨⟨5, 0⟩, ⟨9, 4⟩⟩, ⟨⟨22, 1⟩, ⟨22, 8⟩⟩, ⟨⟨0, 0⟩, ⟨5, 0⟩⟩, ⟨⟨25, 0⟩, ⟨40, 0⟩⟩,
    ⟨⟨5, 0⟩, ⟨9, 4⟩⟩, ⟨⟨9, 5⟩, ⟨9, 5⟩⟩, ⟨⟨20, 0⟩, ⟨21, 0⟩⟩]

example : merge disordered =
    [⟨⟨0, 0⟩, ⟨9, 4⟩⟩, ⟨⟨9, 5⟩, ⟨9, 5⟩⟩, ⟨⟨20, 0⟩, ⟨40, 0⟩⟩] := by
  cbv

/-- The spans in disorder cover the position at which two of them meet and not the one behind the
last of them; read backwards they merge to the same. -/
theorem merge_spec_disordered : (∀ s ∈ disordered, s.IsUpright) ∧
    Ascending (merge disordered) ∧
    ((merge disordered).Pairwise fun s t => s.first.Before t.first) ∧
    (∃ s ∈ merge disordered, s.has ⟨5, 0⟩ = true) ∧
    (¬ ∃ s ∈ merge disordered, s.has ⟨40, 1⟩ = true) ∧
    (∀ s ∈ merge disordered, HasEnds disordered s) ∧
    merge disordered.reverse = merge disordered ∧
    merge (merge disordered) = merge disordered := by
  have hupright : ∀ s ∈ disordered, s.IsUpright := by decide
  obtain ⟨hascending, hbefore, hcover, hends, hperm, htwice⟩ := merge_spec hupright
  refine ⟨hupright, hascending, hbefore, (hcover ⟨5, 0⟩).mpr (by decide), ?_, hends,
    hperm _ (List.reverse_perm _), htwice⟩
  rw [hcover ⟨40, 1⟩]
  decide

end Span
end DebugTree
