import DebugTree.Proofs.Index
import DebugTree.Proofs.Source.Walks
import Mathlib.Data.Finset.Card
import Mathlib.Logic.Relation

/-!
# How far down a walk comes

Source maps lead from a source down to the sources that it lists, and on from these (`LeadsTo`).
They may lead to one source on several ways, and round in circles.  A walk is nevertheless finite,
since it enters every source once; what it leaves out is what it has seen before.

## Without a bound

A walk is computed with a bound on its depth.  `Walks` describes a walk that has none: it goes
through a list of files one after the other, passes over those whose source has been entered, and
enters all others.  A derivation of `Walks` is a walk that has come to its end, and there is one
from every source (`exists_walks_walk`): whenever a walk goes deeper, the number of sources that
list something and have not been entered has become smaller, so the bound is never met.

## What it finds

What has been entered is closed under going down, so a walk enters everything that lies below its
start: the files that it finds listed are those that are listed by the sources it leads to
(`mem_listed_walk_iff`), and its levels are, by their numbers, the sources it leads to that list
something (`mem_map_levels_walk_iff`).
-/

namespace DebugTree
namespace SourceGraph

open Ranges Relation

variable {g : SourceGraph} {s c d : Source} {e e' : List SourceReference}
  {as : List AuthoredSource} {below : List (AuthoredSource × SourceTree)}

/-! ## Ways down -/

/-- The map of a source lists another source. -/
def Lists (g : SourceGraph) (s c : Source) : Prop :=
  ∃ a ∈ g.authoredOf s, a.source = c

/-- Source maps lead from a source down to another one, or the two are the same. -/
def LeadsTo (g : SourceGraph) : Source → Source → Prop :=
  ReflTransGen g.Lists

/-- Source maps lead from a source down to another one, in at least one step. -/
def LeadsBelow (g : SourceGraph) : Source → Source → Prop :=
  TransGen g.Lists

/-- Sources are told apart by number. -/
theorem authoredOf_congr (h : s.reference = c.reference) : g.authoredOf s = g.authoredOf c := by
  rw [authoredOf, authoredOf, h]

/-- What is listed stands in some entry of the graph. -/
theorem exists_entry_of_mem_authoredOf {a : AuthoredSource} (h : a ∈ g.authoredOf s) :
    ∃ entry ∈ g.authored.entries, entry.1 = s.reference ∧ a ∈ entry.2 := by
  rw [authoredOf] at h
  cases hget : g.authored.get? s.reference with
  | none =>
    rw [hget] at h
    exact absurd h List.not_mem_nil
  | some files =>
    rw [hget] at h
    exact ⟨(s.reference, files), Index.mem_entries_of_get? hget, rfl, h⟩

theorem Lists.congr (h : s.reference = c.reference) (hlists : g.Lists s d) : g.Lists c d := by
  rwa [Lists, ← authoredOf_congr h]

theorem LeadsBelow.congr (h : s.reference = c.reference) (hbelow : g.LeadsBelow s d) :
    g.LeadsBelow c d := by
  obtain ⟨t, hst, htd⟩ := TransGen.head'_iff.mp hbelow
  exact TransGen.head' (hst.congr h) htd

theorem LeadsBelow.authoredOf_ne_nil (h : g.LeadsBelow s d) : g.authoredOf s ≠ [] := by
  obtain ⟨t, ⟨a, ha, -⟩, -⟩ := TransGen.head'_iff.mp h
  exact List.ne_nil_of_mem ha

theorem LeadsTo.lists (h : g.LeadsTo s c) {a : AuthoredSource} (ha : a ∈ g.authoredOf c) :
    g.LeadsTo s a.source :=
  ReflTransGen.tail h ⟨a, ha, rfl⟩

/-- Whatever lies on the way stands in the graph, as a listed source. -/
theorem LeadsTo.eq_or_exists_entry (h : g.LeadsTo c s) :
    s = c ∨ ∃ entry ∈ g.authored.entries, ∃ a ∈ entry.2, a.source = s := by
  rcases ReflTransGen.cases_tail h with heq | ⟨t, -, a, ha, has⟩
  · exact Or.inl heq
  · obtain ⟨entry, hentry, -, hae⟩ := exists_entry_of_mem_authoredOf ha
    exact Or.inr ⟨entry, hentry, a, hae, has⟩

/-! ## Walks without a bound -/

/-- A walk through the files of a list that has come to its end: what it was given as entered, the
files, what it has seen from each of them, and what is entered after it. -/
inductive Walks (g : SourceGraph) : List SourceReference → List AuthoredSource →
    List (AuthoredSource × SourceTree) → List SourceReference → Prop
  | nil (e : List SourceReference) : Walks g e [] [] e
  | seen {e e' a as trees} (entered : a.source.reference ∈ e) (rest : Walks g e as trees e') :
      Walks g e (a :: as) ((a, .seen a.source) :: trees) e'
  | node {e e' e'' a as below trees} (fresh : a.source.reference ∉ e)
      (down : Walks g (a.source.reference :: e) (g.authoredOf a.source) below e')
      (rest : Walks g e' as trees e'') :
      Walks g e (a :: as) ((a, .node a.source below) :: trees) e''

/-- How many sources list something and have not been entered. -/
def unentered (g : SourceGraph) (e : List SourceReference) : Nat :=
  (g.authored.keys.toFinset \ e.toFinset).card

theorem unentered_nil_le (g : SourceGraph) : g.unentered [] ≤ g.authored.size := by
  have hle := g.authored.keys.toFinset_card_le
  rwa [Index.keys, List.length_map] at hle

theorem unentered_le (h : e ⊆ e') : g.unentered e' ≤ g.unentered e := by
  refine Finset.card_le_card (Finset.sdiff_subset_sdiff (Finset.Subset.refl _) ?_)
  exact fun r hr => List.mem_toFinset.mpr (h (List.mem_toFinset.mp hr))

theorem unentered_cons_lt (hlists : g.authoredOf s ≠ []) (hs : s.reference ∉ e) :
    g.unentered (s.reference :: e) < g.unentered e := by
  have hkey : s.reference ∈ g.authored.keys := by
    by_contra hkey
    rw [← Index.get?_eq_none_iff] at hkey
    exact hlists (by rw [authoredOf, hkey]; rfl)
  refine Finset.card_lt_card ((Finset.ssubset_iff_of_subset ?_).mpr ⟨s.reference, ?_, ?_⟩)
  · refine Finset.sdiff_subset_sdiff (Finset.Subset.refl _) ?_
    exact fun r hr => List.mem_toFinset.mpr (List.mem_cons_of_mem _ (List.mem_toFinset.mp hr))
  · simpa using ⟨hkey, hs⟩
  · simp

/-- A bound that is larger than the number of sources left to enter is never met. -/
theorem walks_walkAll {fuel : Nat} (h : as = [] ∨ g.unentered e < fuel) :
    g.Walks e as (walkAll g fuel e as).1 (walkAll g fuel e as).2 := by
  induction fuel generalizing e as with
  | zero =>
    rw [h.resolve_right (Nat.not_lt_zero _), walkAll]
    exact .nil e
  | succ fuel ih =>
    induction as generalizing e with
    | nil =>
      rw [walkAll]
      exact .nil e
    | cons a as ihas =>
      have hfuel : g.unentered e < fuel + 1 := h.resolve_left (List.cons_ne_nil a as)
      rw [walkAll, walkFrom]
      by_cases ha : a.source.reference ∈ e
      · rw [if_pos ha]
        exact .seen ha (ihas (Or.inr hfuel))
      · rw [if_neg ha]
        have hdown : g.authoredOf a.source = [] ∨
            g.unentered (a.source.reference :: e) < fuel := by
          refine or_iff_not_imp_left.mpr fun hlists => ?_
          exact Nat.lt_of_lt_of_le (unentered_cons_lt hlists ha) (Nat.le_of_lt_succ hfuel)
        have hsub : e ⊆ (walkAll g fuel (a.source.reference :: e) (g.authoredOf a.source)).2 :=
          List.subset_of_cons_subset (enters_walkAll (enters_walkFrom fuel) _ _).subset
        exact .node ha (ih hdown) (ihas (Or.inr (Nat.lt_of_le_of_lt (unentered_le hsub) hfuel)))

/-- **A walk comes to its end**, however the source maps lead. -/
theorem exists_walks_walk (g : SourceGraph) (c : Source) :
    ∃ below e, g.walk c = .node c below ∧ g.Walks [c.reference] (g.authoredOf c) below e := by
  have hfuel : g.authoredOf c = [] ∨ g.unentered [c.reference] < g.authored.size := by
    refine or_iff_not_imp_left.mpr fun hlists => ?_
    exact Nat.lt_of_lt_of_le (unentered_cons_lt hlists List.not_mem_nil) (unentered_nil_le g)
  refine ⟨_, _, ?_, walks_walkAll hfuel⟩
  rw [walk, walkFrom, if_neg List.not_mem_nil]

/-! ## What is entered -/

namespace Walks

theorem subset (h : g.Walks e as below e') : e ⊆ e' := by
  induction h with
  | nil e => exact List.Subset.refl e
  | seen _ _ ih => exact ih
  | node _ _ _ ihdown ihrest => exact fun r hr => ihrest (ihdown (List.mem_cons_of_mem _ hr))

/-- The source of every file has been entered after the walk. -/
theorem mem_of_mem (h : g.Walks e as below e') {a : AuthoredSource} (ha : a ∈ as) :
    a.source.reference ∈ e' := by
  induction h with
  | nil e => exact absurd ha List.not_mem_nil
  | seen hseen hrest ih =>
    rcases List.mem_cons.mp ha with rfl | ha
    · exact hrest.subset hseen
    · exact ih ha
  | node _ hdown hrest _ ih =>
    rcases List.mem_cons.mp ha with rfl | ha
    · exact hrest.subset (hdown.subset List.mem_cons_self)
    · exact ih ha

/-- A walk enters whatever the sources list that it enters. -/
theorem mem_of_entered (h : g.Walks e as below e') (hnew : s.reference ∉ e)
    (hs : s.reference ∈ e') {a : AuthoredSource} (ha : a ∈ g.authoredOf s) :
    a.source.reference ∈ e' := by
  induction h with
  | nil e => exact absurd hs hnew
  | seen _ _ ih => exact ih hnew hs
  | @node e e' e'' b as below trees _ hdown hrest ihdown ihrest =>
    by_cases hmid : s.reference ∈ e'
    · by_cases hb : s.reference = b.source.reference
      · rw [authoredOf_congr hb] at ha
        exact hrest.subset (hdown.mem_of_mem ha)
      · exact hrest.subset (ihdown (by simp [hb, hnew]) hmid)
    · exact ihrest hmid hs

/-! ## What is found on the way -/

end Walks

mutual

/-- The files that the maps along a walk list, in the order in which the walk comes to them. -/
def listed : SourceTree → List AuthoredSource
  | .seen _ => []
  | .node _ below => listedAll below

/-- `listed` for the sources below one parent. -/
def listedAll : List (AuthoredSource × SourceTree) → List AuthoredSource
  | [] => []
  | (a, tree) :: rest => a :: (listed tree ++ listedAll rest)

end

/-- What is seen from the sources below one parent is a list in which every entered source has such
a list of its own. -/
theorem below_induction {P : List (AuthoredSource × SourceTree) → Prop} (nil : P [])
    (seen : ∀ a s rest, P rest → P ((a, .seen s) :: rest))
    (node : ∀ a s below rest, P below → P rest → P ((a, .node s below) :: rest)) :
    ∀ below, P below
  | [] => nil
  | (a, .seen s) :: rest => seen a s rest (below_induction nil seen node rest)
  | (a, .node s below) :: rest =>
    node a s below rest (below_induction nil seen node below) (below_induction nil seen node rest)

namespace Walks

variable {a : AuthoredSource}

/-- The files that are found are those that were given and those that are listed by what is
entered. -/
theorem mem_listedAll_iff (h : g.Walks e as below e') :
    a ∈ listedAll below ↔
      a ∈ as ∨ ∃ s, s.reference ∉ e ∧ s.reference ∈ e' ∧ a ∈ g.authoredOf s := by
  induction h with
  | nil e =>
    rw [listedAll]
    simp only [List.not_mem_nil, false_or, false_iff]
    rintro ⟨s, hnew, hs, -⟩
    exact hnew hs
  | seen _ _ ih =>
    rw [listedAll, listed, List.nil_append, List.mem_cons, List.mem_cons, ih, or_assoc]
  | @node e e' e'' b as below trees hb hdown hrest ihdown ihrest =>
    rw [listedAll, listed, List.mem_cons, List.mem_append, ihdown, ihrest, List.mem_cons]
    refine Iff.trans (or_congr_right ⟨?_, ?_⟩) or_assoc.symm
    · rintro ((ha | ⟨s, hnew, hs, ha⟩) | ha | ⟨s, hnew, hs, ha⟩)
      · exact Or.inr ⟨b.source, hb, hrest.subset (hdown.subset List.mem_cons_self), ha⟩
      · exact Or.inr ⟨s, fun he => hnew (List.mem_cons_of_mem _ he), hrest.subset hs, ha⟩
      · exact Or.inl ha
      · refine Or.inr ⟨s, fun he => hnew (hdown.subset (List.mem_cons_of_mem _ he)), hs, ha⟩
    · rintro (ha | ⟨s, hnew, hs, ha⟩)
      · exact Or.inr (Or.inl ha)
      · by_cases hmid : s.reference ∈ e'
        · by_cases heq : s.reference = b.source.reference
          · exact Or.inl (Or.inl (authoredOf_congr heq ▸ ha))
          · exact Or.inl (Or.inr ⟨s, by simp [heq, hnew], hmid, ha⟩)
        · exact Or.inr (Or.inr ⟨s, hmid, hs, ha⟩)

/-- Source maps lead to whatever is found. -/
theorem leadsTo_of_mem (h : g.Walks e as below e') (ha : a ∈ listedAll below) :
    a ∈ as ∨ ∃ b ∈ as, ∃ s, g.LeadsTo b.source s ∧ a ∈ g.authoredOf s := by
  induction h with
  | nil e =>
    rw [listedAll] at ha
    exact absurd ha List.not_mem_nil
  | seen _ _ ih =>
    rw [listedAll, listed, List.nil_append, List.mem_cons] at ha
    rcases ha with rfl | ha
    · exact Or.inl List.mem_cons_self
    · exact (ih ha).imp (List.mem_cons_of_mem _) fun ⟨b, hb, h⟩ =>
        ⟨b, List.mem_cons_of_mem _ hb, h⟩
  | @node e e' e'' b as below trees _ _ _ ihdown ihrest =>
    rw [listedAll, listed, List.mem_cons, List.mem_append] at ha
    rcases ha with rfl | ha | ha
    · exact Or.inl List.mem_cons_self
    · refine Or.inr ⟨b, List.mem_cons_self, ?_⟩
      rcases ihdown ha with ha | ⟨b', hb', s, hs, ha⟩
      · exact ⟨b.source, ReflTransGen.refl, ha⟩
      · exact ⟨s, ReflTransGen.head ⟨b', hb', rfl⟩ hs, ha⟩
    · exact (ihrest ha).imp (List.mem_cons_of_mem _) fun ⟨b, hb, h⟩ =>
        ⟨b, List.mem_cons_of_mem _ hb, h⟩

/-- What lists nothing has nothing below it in the walk. -/
theorem isEmpty_eq (h : g.Walks e as below e') : below.isEmpty = as.isEmpty := by
  cases h <;> rfl

/-- A level is the source of a file that has been found. -/
theorem exists_listed_of_level (h : g.Walks e as below e') (hd : d ∈ levelsAll below) :
    ∃ a ∈ listedAll below, a.source = d := by
  induction h with
  | nil e =>
    rw [levelsAll] at hd
    exact absurd hd List.not_mem_nil
  | seen _ _ ih =>
    rw [levelsAll, levels, List.nil_append] at hd
    obtain ⟨a, ha, had⟩ := ih hd
    rw [listedAll, listed, List.nil_append]
    exact ⟨a, List.mem_cons_of_mem _ ha, had⟩
  | @node e e' e'' b as below trees _ _ _ ihdown ihrest =>
    rw [levelsAll, levels, List.mem_append, List.mem_append] at hd
    rw [listedAll, listed]
    rcases hd with (hd | hd) | hd
    · obtain ⟨a, ha, had⟩ := ihdown hd
      exact ⟨a, List.mem_cons_of_mem _ (List.mem_append_left _ ha), had⟩
    · have hbd : d = b.source := by
        split at hd
        · exact absurd hd List.not_mem_nil
        · exact List.mem_singleton.mp hd
      exact ⟨b, List.mem_cons_self, hbd.symm⟩
    · obtain ⟨a, ha, had⟩ := ihrest hd
      exact ⟨a, List.mem_cons_of_mem _ (List.mem_append_right _ ha), had⟩

/-- Whatever is entered and lists something is a level. -/
theorem exists_level (h : g.Walks e as below e') (hnew : s.reference ∉ e) (hs : s.reference ∈ e')
    (hlists : g.authoredOf s ≠ []) : ∃ d ∈ levelsAll below, d.reference = s.reference := by
  induction h with
  | nil e => exact absurd hs hnew
  | seen _ _ ih =>
    rw [levelsAll, levels, List.nil_append]
    exact ih hnew hs
  | @node e e' e'' b as below trees _ hdown hrest ihdown ihrest =>
    rw [levelsAll, levels]
    by_cases hmid : s.reference ∈ e'
    · by_cases hb : s.reference = b.source.reference
      · have hlevel : below.isEmpty = false := by
          rw [hdown.isEmpty_eq, ← authoredOf_congr hb]
          exact List.isEmpty_eq_false_iff.mpr hlists
        refine ⟨b.source, List.mem_append_left _ (List.mem_append_right _ ?_), hb.symm⟩
        rw [hlevel, if_neg Bool.false_ne_true]
        exact List.mem_singleton_self _
      · obtain ⟨d, hd, hds⟩ := ihdown (by simp [hb, hnew]) hmid
        exact ⟨d, List.mem_append_left _ (List.mem_append_left _ hd), hds⟩
    · obtain ⟨d, hd, hds⟩ := ihrest hmid hs
      exact ⟨d, List.mem_append_right _ hd, hds⟩

/-- A walk from the files of a source enters all that source maps lead to. -/
theorem mem_of_leadsTo (h : g.Walks [c.reference] (g.authoredOf c) below e) (hs : g.LeadsTo c s) :
    s.reference ∈ e := by
  induction hs with
  | refl => exact h.subset (List.mem_singleton_self _)
  | @tail t d _ hlists ih =>
    obtain ⟨a, ha, rfl⟩ := hlists
    by_cases htop : t.reference = c.reference
    · exact h.mem_of_mem (authoredOf_congr htop ▸ ha)
    · exact h.mem_of_entered (by simpa using htop) ih ha

end Walks

/-! ## The walk from a source -/

/-- **A walk finds what is listed by the sources that it leads to.** -/
theorem mem_listed_walk_iff {a : AuthoredSource} :
    a ∈ listed (g.walk c) ↔ ∃ s, g.LeadsTo c s ∧ a ∈ g.authoredOf s := by
  obtain ⟨below, e, hwalk, h⟩ := exists_walks_walk g c
  rw [hwalk, listed]
  constructor
  · intro ha
    rcases h.leadsTo_of_mem ha with ha | ⟨b, hb, s, hs, ha⟩
    · exact ⟨c, ReflTransGen.refl, ha⟩
    · exact ⟨s, ReflTransGen.head ⟨b, hb, rfl⟩ hs, ha⟩
  · rintro ⟨s, hs, ha⟩
    by_cases htop : s.reference = c.reference
    · exact h.mem_listedAll_iff.mpr (Or.inl (authoredOf_congr htop ▸ ha))
    · exact h.mem_listedAll_iff.mpr (Or.inr ⟨s, by simpa using htop, h.mem_of_leadsTo hs, ha⟩)

theorem leadsTo_of_mem_levels_walk (h : d ∈ levels (g.walk c)) : g.LeadsTo c d := by
  obtain ⟨below, e, hwalk, hwalks⟩ := exists_walks_walk g c
  rw [hwalk, levels] at h
  rcases List.mem_append.mp h with h | h
  · obtain ⟨a, ha, rfl⟩ := hwalks.exists_listed_of_level h
    obtain ⟨s, hs, has⟩ := mem_listed_walk_iff.mp (show a ∈ listed (g.walk c) by rwa [hwalk, listed])
    exact hs.lists has
  · split at h
    · exact absurd h List.not_mem_nil
    · rw [List.mem_singleton.mp h]
      exact ReflTransGen.refl

/-- **The levels of a walk** are, by their numbers, the sources it leads to that list something. -/
theorem mem_map_levels_walk_iff {r : SourceReference} :
    r ∈ (levels (g.walk c)).map (·.reference) ↔
      ∃ s, g.LeadsTo c s ∧ s.reference = r ∧ g.authoredOf s ≠ [] := by
  rw [List.mem_map]
  constructor
  · rintro ⟨d, hd, rfl⟩
    exact ⟨d, leadsTo_of_mem_levels_walk hd, rfl, authoredOf_ne_nil_of_mem_levels hd⟩
  · rintro ⟨s, hs, rfl, hlists⟩
    by_cases htop : s.reference = c.reference
    · rw [authoredOf_congr htop] at hlists
      exact ⟨c, mem_levels_walk_self_iff.mpr hlists, htop.symm⟩
    · obtain ⟨below, e, hwalk, h⟩ := exists_walks_walk g c
      obtain ⟨d, hd, hds⟩ := h.exists_level (by simpa using htop) (h.mem_of_leadsTo hs) hlists
      rw [hwalk, levels]
      exact ⟨d, List.mem_append_left _ hd, hds⟩

end SourceGraph
end DebugTree
