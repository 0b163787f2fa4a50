import DebugTree.Proofs.Ranges.Inheriting

/-!
# Which listing decides about a file

Several maps below a loaded source may list a file under one URL.  The walk goes through the
listings in a fixed order (`listings`), and as a record that is there stays, the first listing of a
URL without a record is the one that decides: the file is skipped if the source of that map was
skipped when the walk entered it, or if a glob matches the file (`overrideFor_propagate_of_none`).

When the walk enters a source below its start, there is a record for the source.  So the state that
the source has then is the one that it has in the end, and the start itself is the only source for
which the two may differ (`enteredState`).

With this a load is described for every URL, whether or not the sources form a tree: it changes the
state of a file exactly if nothing is recorded for the file and its first listing decides
otherwise than the globs do (`isSkipped_propagate_ne_iff`).
-/

namespace DebugTree
namespace Ranges

open SkipPolicy SourceGraph

/-! ## Listings -/

mutual

/-- The listings along a walk, each with the source whose map it stands in, in the order in which
the walk comes to them. -/
def listings : SourceTree → List (Source × AuthoredSource)
  | .seen _ => []
  | .node s below => listingsAll s below

/-- `listings` for the sources below one parent. -/
def listingsAll (s : Source) :
    List (AuthoredSource × SourceTree) → List (Source × AuthoredSource)
  | [] => []
  | (a, tree) :: rest => (s, a) :: (listings tree ++ listingsAll s rest)

end

variable {p q : SkipPolicy} {k url : String} {state : Source → Bool} {c : Source}
  {a : AuthoredSource} {ls ls' : List (Source × AuthoredSource)}

/-- What the first listing under a URL says, given the states of the sources whose maps they are:
that the file is skipped if its parent is, or if a glob matches it. -/
def listedState? (p : SkipPolicy) (state : Source → Bool) (k : String)
    (ls : List (Source × AuthoredSource)) : Option Bool :=
  (ls.find? fun l => p.normalize l.2.url = k).map fun l => state l.1 || p.testAuthored l.2.url

theorem listedState?_cons_of_eq (h : p.normalize a.url = k) :
    listedState? p state k ((c, a) :: ls) = some (state c || p.testAuthored a.url) := by
  simp only [listedState?, List.find?_cons, h, decide_true, Option.map_some]

theorem listedState?_cons_of_ne (h : p.normalize a.url ≠ k) :
    listedState? p state k ((c, a) :: ls) = listedState? p state k ls := by
  simp only [listedState?, List.find?_cons, h, decide_false]

theorem listedState?_append : listedState? p state k (ls ++ ls') =
    (listedState? p state k ls).or (listedState? p state k ls') := by
  rw [listedState?, List.find?_append, Option.map_or]
  rfl

/-- A listing says the same under a policy with more records. -/
theorem listedState?_of_extends (h : p.Extends q) :
    listedState? q state k ls = listedState? p state k ls := by
  simp only [listedState?, h.normalize_eq, h.testAuthored_eq]

/-! ## One walk -/

section Walk

variable {g : SourceGraph} {e e' : List SourceReference} {as : List AuthoredSource}
  {below : List (AuthoredSource × SourceTree)} {parent : Bool}

theorem get?_inheritOne_of_eq (hold : p.overrides.get? k = none) (ha : p.normalize a.url = k) :
    (inheritOne p parent a).overrides.get? k = some (parent || p.testAuthored a.url) := by
  have hnone : p.normalize a.url ∉ p.overrides.keys := by
    rw [ha]
    exact Index.get?_eq_none_iff.mp hold
  rw [inheritOne_of_notMem hnone, ← ha]
  exact Index.get?_insert_self _ _ _

theorem get?_inheritOne_of_ne (hold : p.overrides.get? k = none) (ha : p.normalize a.url ≠ k) :
    (inheritOne p parent a).overrides.get? k = none := by
  rw [Index.get?_eq_none_iff] at hold ⊢
  rw [mem_keys_inheritOne_iff]
  exact fun hk => hk.elim hold ha

/-- **The first listing decides.**  What a walk leaves on record under a URL that had no record is
what the first listing on its way says. -/
theorem get?_inheritAll (h : g.Walks e as below e')
    (hlater : (inheritAll p (state c) below).Extends q)
    (hstate : ∀ t : Source, t.reference ∉ e → state t = q.isSkipped t.url)
    (hold : p.overrides.get? k = none) :
    (inheritAll p (state c) below).overrides.get? k =
      listedState? p state k (listingsAll c below) := by
  induction h generalizing p c with
  | nil e =>
    rw [inheritAll, hold, listingsAll]
    rfl
  | @seen e e' a as trees _ _ ih =>
    rw [inheritAll_seen] at hlater ⊢
    have hone := extends_inheritOne p (state c) a
    have hrest := extends_inheritAll (inheritOne p (state c) a) (state c) trees
    rw [listingsAll, listings, List.nil_append]
    by_cases ha : p.normalize a.url = k
    · rw [listedState?_cons_of_eq ha]
      exact hrest.records k _ (get?_inheritOne_of_eq hold ha)
    · have hmid := ih hlater hstate (get?_inheritOne_of_ne hold ha)
      rw [listedState?_cons_of_ne ha, hmid, listedState?_of_extends hone]
  | @node e e' e'' a as below trees hfresh hdown _ ihdown ihrest =>
    rw [inheritAll_node] at hlater ⊢
    have hone := extends_inheritOne p (state c) a
    -- the walk enters the source with a record for it, so its state is the one under `q`
    have henter : (inheritOne p (state c) a).isSkipped a.source.url = state a.source := by
      have hmid := (extends_inheritAll (inheritOne p (state c) a)
        ((inheritOne p (state c) a).isSkipped a.source.url) below).trans
          ((extends_inheritAll _ (state c) trees).trans hlater)
      rw [hstate a.source hfresh]
      refine (hmid.isSkipped_eq_of_mem ?_).symm
      rw [hone.normalize_eq]
      exact mem_keys_inheritOne_iff.mpr (Or.inr rfl)
    rw [henter] at hlater ⊢
    have hbelow := extends_inheritAll (inheritOne p (state c) a) (state a.source) below
    have hrest := extends_inheritAll
      (inheritAll (inheritOne p (state c) a) (state a.source) below) (state c) trees
    rw [listingsAll, listings]
    by_cases ha : p.normalize a.url = k
    · rw [listedState?_cons_of_eq ha]
      exact (hbelow.trans hrest).records k _ (get?_inheritOne_of_eq hold ha)
    · have hmid := ihdown (hrest.trans hlater)
        (fun t ht => hstate t fun he => ht (List.mem_cons_of_mem _ he))
        (get?_inheritOne_of_ne hold ha)
      rw [listedState?_of_extends hone] at hmid
      rw [listedState?_cons_of_ne ha, listedState?_append, ← hmid]
      cases hend : (inheritAll (inheritOne p (state c) a) (state a.source)
          below).overrides.get? k with
      | some v => exact hrest.records k v hend
      | none =>
        have hlast := ihrest hlater
          (fun t ht => hstate t fun he => ht (hdown.subset (List.mem_cons_of_mem _ he))) hend
        rw [hlast, listedState?_of_extends (hone.trans hbelow), Option.none_or]

end Walk

/-! ## A loaded source -/

variable {g : SourceGraph}

/-- The first listing of a URL that a walk from a source comes to. -/
def firstListing? (p : SkipPolicy) (g : SourceGraph) (c : Source) (url : String) :
    Option (Source × AuthoredSource) :=
  (listings (g.walk c)).find? fun l => p.normalize l.2.url = p.normalize url

/-- The state that a source has when a walk enters it: what it is in the end, except for the source
where the walk begins. -/
def enteredState (p : SkipPolicy) (g : SourceGraph) (c t : Source) : Bool :=
  if t.reference = c.reference then p.isSkipped c.url else (propagate p g c).isSkipped t.url

/-- **A new record is what the first listing says.** -/
theorem overrideFor_propagate_of_none (hold : p.overrideFor url = none) :
    (propagate p g c).overrideFor url =
      (firstListing? p g c url).map fun l => enteredState p g c l.1 || p.testAuthored l.2.url := by
  obtain ⟨below, e, hwalk, hwalks, heq⟩ := propagate_eq_inheritAll p g c
  have hstart : enteredState p g c c = p.isSkipped c.url := if_pos rfl
  have hstate : ∀ t : Source, t.reference ∉ [c.reference] →
      enteredState p g c t = (propagate p g c).isSkipped t.url := fun t ht =>
    if_neg (List.mem_singleton.not.mp ht)
  have hlater : (inheritAll p (enteredState p g c c) below).Extends (propagate p g c) := by
    rw [hstart, ← heq]
    exact .refl _
  have hfirst := get?_inheritAll hwalks hlater hstate hold
  rw [hstart, ← heq] at hfirst
  rw [overrideFor, (extends_propagate p g c).normalize_eq, hfirst, firstListing?, hwalk, listings]
  rfl

/-- Nothing is recorded for a file, and its first listing decides about it otherwise than the globs
do. -/
def Overrules (p : SkipPolicy) (g : SourceGraph) (c : Source) (url : String) : Prop :=
  p.overrideFor url = none ∧ ∃ t a, firstListing? p g c url = some (t, a) ∧
    (enteredState p g c t || p.testAuthored a.url) ≠ p.testAuthored url

/-- **A load changes the state of a file exactly if a listing overrules it.** -/
theorem isSkipped_propagate_ne_iff (hfile : p.isNodeInternal url = false) :
    (propagate p g c).isSkipped url ≠ p.isSkipped url ↔ Overrules p g c url := by
  have hext := extends_propagate p g c
  have hfile' : (propagate p g c).isNodeInternal url = false := by
    rw [hext.isNodeInternal_eq, hfile]
  rw [isSkipped_of_not_internal hfile', isSkipped_of_not_internal hfile, hext.testAuthored_eq,
    Overrules]
  cases hold : p.overrideFor url with
  | some v =>
    have hkept : (propagate p g c).overrideFor url = some v := by
      rw [overrideFor, hext.normalize_eq]
      exact hext.records _ v hold
    rw [hkept]
    simp
  | none =>
    rw [overrideFor_propagate_of_none hold]
    cases hfirst : firstListing? p g c url with
    | none => simp
    | some l => simp [Prod.ext_iff]

/-- If the listing spells the URL as it is, the file is overruled exactly if no glob matches it and
the source whose map lists it is skipped. -/
theorem overrules_iff_of_spelled {t : Source}
    (hfirst : firstListing? p g c url = some (t, a)) (hspelled : a.url = url) :
    Overrules p g c url ↔ p.overrideFor url = none ∧ p.testAuthored url = false ∧
      enteredState p g c t = true := by
  rw [Overrules, hfirst]
  refine and_congr_right fun _ => ?_
  constructor
  · rintro ⟨t', a', heq, hne⟩
    cases heq
    rw [hspelled] at hne
    cases htest : p.testAuthored url <;> cases hstate : enteredState p g c t <;>
      simp [htest, hstate] at hne ⊢
  · rintro ⟨htest, hstate⟩
    exact ⟨t, a, rfl, by rw [hspelled, htest, hstate]; exact Bool.noConfusion⟩

end Ranges
end DebugTree
