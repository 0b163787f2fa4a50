import DebugTree.Ranges.Below
import Mathlib.Data.List.Nodup

/-!
# What a walk enters

A walk remembers the numbers of the sources that it has entered and enters none of them again, so a
source that lists others is a level of the walk at most once, however often source maps lead to it.
Source maps lead only to sources that they mention; so the levels of a walk are the source where it
began and sources that are mentioned.

Two walks remember nothing of each other: a source can be a level of both.
-/

namespace DebugTree
namespace SourceGraph

open Ranges

variable {g : SourceGraph}

/-- Some source map mentions the source, as a file that it lists or as the source that it is of. -/
def Mentions (g : SourceGraph) (c : Source) : Prop :=
  ∃ s, c ∈ (g.authoredOf s).map (·.source) ∨ c ∈ g.compiledOf s

/-- On its way from some sources a walk enters these ones, each for the first time. -/
structure Enters (g : SourceGraph) (starts : List Source) (before after : List SourceReference)
    (cs : List Source) : Prop where
  subset : before ⊆ after
  mem : ∀ c ∈ cs, c.reference ∈ after
  fresh : ∀ c ∈ cs, c.reference ∉ before
  nodup : (cs.map (·.reference)).Nodup
  known : ∀ c ∈ cs, c ∈ starts ∨ g.Mentions c

namespace Enters

variable {starts starts' cs ds : List Source} {e e' e'' : List SourceReference}

theorem nil (starts : List Source) (e : List SourceReference) : g.Enters starts e e [] :=
  ⟨List.Subset.refl e, by simp, by simp, List.nodup_nil, by simp⟩

theorem append (h : g.Enters starts e e' cs) (h' : g.Enters starts' e' e'' ds) :
    g.Enters (starts ++ starts') e e'' (cs ++ ds) where
  subset := fun _ hr => h'.subset (h.subset hr)
  mem c hc := (List.mem_append.mp hc).elim (fun hc => h'.subset (h.mem c hc)) (h'.mem c)
  fresh c hc := (List.mem_append.mp hc).elim (h.fresh c) fun hc he => h'.fresh c hc (h.subset he)
  nodup := by
    rw [List.map_append]
    refine h.nodup.append h'.nodup fun r hr hr' => ?_
    obtain ⟨c, hc, rfl⟩ := List.mem_map.mp hr
    obtain ⟨d, hd, heq⟩ := List.mem_map.mp hr'
    exact h'.fresh d hd (heq ▸ h.mem c hc)
  known c hc := by
    rw [List.mem_append, or_assoc]
    rcases List.mem_append.mp hc with hc | hc
    · exact (h.known c hc).imp_right Or.inr
    · exact Or.inr (h'.known c hc)

/-- A source is entered before the sources that it lists, and is a level if it lists any. -/
theorem node {s : Source} (h : g.Enters ((g.authoredOf s).map (·.source)) (s.reference :: e) e' cs)
    (hs : s.reference ∉ e) (lists : Bool) :
    g.Enters [s] e e' (cs ++ if lists then [] else [s]) := by
  have hbelow : g.Enters [s] e e' cs :=
    ⟨fun r hr => h.subset (List.mem_cons_of_mem _ hr), h.mem,
      fun c hc he => h.fresh c hc (List.mem_cons_of_mem _ he), h.nodup,
      fun c hc => Or.inr ((h.known c hc).elim (fun hm => ⟨s, Or.inl hm⟩) id)⟩
  cases lists with
  | true => rwa [if_pos rfl, List.append_nil]
  | false =>
    have hnew : s.reference ∉ cs.map (·.reference) := by
      intro hmem
      obtain ⟨c, hc, heq⟩ := List.mem_map.mp hmem
      exact h.fresh c hc (heq ▸ List.mem_cons_self)
    rw [if_neg Bool.false_ne_true]
    refine ⟨hbelow.subset, fun c hc => ?_, fun c hc => ?_, ?_, fun c hc => ?_⟩
    · rcases List.mem_append.mp hc with hc | hc
      · exact hbelow.mem c hc
      · exact List.mem_singleton.mp hc ▸ h.subset List.mem_cons_self
    · rcases List.mem_append.mp hc with hc | hc
      · exact hbelow.fresh c hc
      · exact List.mem_singleton.mp hc ▸ hs
    · rw [List.map_append]
      exact hbelow.nodup.append (List.nodup_singleton _) (List.disjoint_singleton.mpr hnew)
    · exact (List.mem_append.mp hc).elim (hbelow.known c) Or.inl

end Enters

/-- Walks one after the other, given what one of them enters. -/
theorem enters_walkAll {fuel : Nat}
    (h : ∀ e s, g.Enters [s] e (walkFrom g fuel e s).2 (levels (walkFrom g fuel e s).1))
    (as : List AuthoredSource) (e : List SourceReference) :
    g.Enters (as.map (·.source)) e (walkAll g fuel e as).2 (levelsAll (walkAll g fuel e as).1) := by
  induction as generalizing e with
  | nil =>
    rw [walkAll, levelsAll]
    exact .nil _ e
  | cons a rest ih =>
    rw [walkAll, levelsAll]
    exact (h e a.source).append (ih _)

theorem enters_walkFrom (fuel : Nat) (e : List SourceReference) (s : Source) :
    g.Enters [s] e (walkFrom g fuel e s).2 (levels (walkFrom g fuel e s).1) := by
  induction fuel generalizing e s with
  | zero =>
    rw [walkFrom, levels]
    exact .nil _ e
  | succ fuel ih =>
    rw [walkFrom]
    split
    · rw [levels]
      exact .nil _ e
    · next hs =>
      rw [levels]
      exact (enters_walkAll ih (g.authoredOf s) (s.reference :: e)).node hs _

/-- **A walk has no source as a level twice.** -/
theorem nodup_levels_walk (g : SourceGraph) (s : Source) :
    ((levels (g.walk s)).map (·.reference)).Nodup :=
  (enters_walkFrom _ [] s).nodup

theorem mem_levels_walk {s c : Source} (h : c ∈ levels (g.walk s)) : c = s ∨ g.Mentions c :=
  ((enters_walkFrom _ [] s).known c h).imp_left List.mem_singleton.mp

theorem exists_of_mem_levelsAll {fuel : Nat} {as : List AuthoredSource} {e : List SourceReference}
    {c : Source} (h : c ∈ levelsAll (walkAll g fuel e as).1) :
    ∃ a e', c ∈ levels (walkFrom g fuel e' a).1 := by
  induction as generalizing e with
  | nil =>
    rw [walkAll, levelsAll] at h
    exact absurd h List.not_mem_nil
  | cons a rest ih =>
    rw [walkAll, levelsAll] at h
    exact (List.mem_append.mp h).elim (fun h => ⟨a.source, e, h⟩) ih

theorem authoredOf_ne_nil_of_mem_levels {fuel : Nat} {e : List SourceReference} {s c : Source}
    (h : c ∈ levels (walkFrom g fuel e s).1) : g.authoredOf c ≠ [] := by
  induction fuel generalizing e s with
  | zero =>
    rw [walkFrom, levels] at h
    exact absurd h List.not_mem_nil
  | succ fuel ih =>
    rw [walkFrom] at h
    split at h
    · rw [levels] at h
      exact absurd h List.not_mem_nil
    · rw [levels] at h
      rcases List.mem_append.mp h with h | h
      · obtain ⟨a, e', h⟩ := exists_of_mem_levelsAll h
        exact ih h
      · intro hnil
        split at h
        · exact List.not_mem_nil h
        · next hlists =>
          rw [List.mem_singleton.mp h] at hnil
          rw [hnil, walkAll] at hlists
          exact hlists rfl

/-- **A source is a level of its own walk** exactly if its map lists something. -/
theorem mem_levels_walk_self_iff {s : Source} : s ∈ levels (g.walk s) ↔ g.authoredOf s ≠ [] := by
  refine ⟨authoredOf_ne_nil_of_mem_levels, fun hlists => ?_⟩
  rw [walk, walkFrom, if_neg List.not_mem_nil, levels]
  refine List.mem_append_right _ ?_
  obtain ⟨a, rest, hauthored⟩ := List.exists_cons_of_ne_nil hlists
  rw [hauthored, walkAll]
  exact List.mem_singleton_self s

/-- Levels of one walk with the same number are the same source. -/
theorem eq_of_mem_levels_walk {s c d : Source} (hc : c ∈ levels (g.walk s))
    (hd : d ∈ levels (g.walk s)) (heq : c.reference = d.reference) : c = d :=
  List.inj_on_of_nodup_map (nodup_levels_walk g s) hc hd heq

end SourceGraph
end DebugTree
