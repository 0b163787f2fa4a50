import DebugTree.Proofs.Policy.Explicit
import DebugTree.Proofs.Source.Descent

/-!
# What a loaded source leaves on record

When a source is loaded, a state is recorded for every file below it that has none yet.  The walk
that does so asks the policy for the state of every source that it enters, and changes the policy
between two such questions.  It is well-behaved all the same, for one reason: a record that is
there stays (`Extends`).  So a question about a source that has a record is answered in the same way
at any later time, and a file that has been given a state keeps it, however often the walk comes
to its URL again.

What is on record afterwards is what was there before and the URLs of all files that the walk finds
(`mem_keys_propagate_iff`).  Hence a second walk finds nothing to do.  Where a new record comes from
is said by `comesFrom_of_walks`: some file of that URL was listed, and it is skipped if a glob
matches it or the source that lists it is skipped.  Which file that was depends on the order of the
walk if several have the same URL.  If the sources form a tree and their URLs are all different
there is only one.

The source where the walk began is the exception: it has no record of its own, and a record under
its URL may come up on the way.
-/

namespace DebugTree

namespace SkipPolicy

/-! ## Policies with more records -/

/-- The later policy has all records of the earlier one, and is the same otherwise. -/
structure Extends (p q : SkipPolicy) : Prop where
  authored : q.authored = p.authored
  nodeInternals : q.nodeInternals = p.nodeInternals
  builtins : q.builtins = p.builtins
  pathCase : q.pathCase = p.pathCase
  records : ∀ k v, p.overrides.get? k = some v → q.overrides.get? k = some v

variable {p q r : SkipPolicy} {url k : String}

theorem Extends.refl (p : SkipPolicy) : p.Extends p :=
  ⟨rfl, rfl, rfl, rfl, fun _ _ h => h⟩

theorem Extends.trans (h : p.Extends q) (h' : q.Extends r) : p.Extends r :=
  ⟨h'.authored.trans h.authored, h'.nodeInternals.trans h.nodeInternals,
    h'.builtins.trans h.builtins, h'.pathCase.trans h.pathCase,
    fun k v hk => h'.records k v (h.records k v hk)⟩

theorem Extends.normalize_eq (h : p.Extends q) (url : String) :
    q.normalize url = p.normalize url := by
  rw [normalize, normalize, h.pathCase]

theorem Extends.isNodeInternal_eq (h : p.Extends q) (url : String) :
    q.isNodeInternal url = p.isNodeInternal url := by
  rw [isNodeInternal, isNodeInternal, h.builtins]

theorem Extends.testAuthored_eq (h : p.Extends q) (url : String) :
    q.testAuthored url = p.testAuthored url := by
  rw [testAuthored, testAuthored, h.pathCase, h.authored]

/-- If the later policy has no other record for a URL, it decides about the URL as the earlier
one. -/
theorem Extends.isSkipped_eq (h : p.Extends q)
    (hrecord : q.overrides.get? (p.normalize url) = p.overrides.get? (p.normalize url)) :
    q.isSkipped url = p.isSkipped url := by
  have hoverride : q.overrideFor url = p.overrideFor url := by
    rw [overrideFor, h.normalize_eq, hrecord, overrideFor]
  have hinternal : q.testNodeInternal url = p.testNodeInternal url := by
    rw [testNodeInternal, testNodeInternal, h.builtins, h.nodeInternals]
  rw [isSkipped, isSkipped, h.isNodeInternal_eq, hoverride, hinternal, h.testAuthored_eq]

theorem Extends.isSkipped_eq_of_mem (h : p.Extends q) (hk : p.normalize url ∈ p.overrides.keys) :
    q.isSkipped url = p.isSkipped url := by
  rw [← Index.contains_iff, Index.contains] at hk
  obtain ⟨v, hv⟩ := Option.isSome_iff_exists.mp hk
  exact h.isSkipped_eq (by rw [hv, h.records _ v hv])

end SkipPolicy

namespace Ranges

open SkipPolicy SourceGraph

variable {p q : SkipPolicy} {parent : Bool} {a : AuthoredSource} {k : String} {v : Bool}
  {below : List (AuthoredSource × SourceTree)}

/-! ## One file -/

/-- The policy with a record for a file, which is new if there was none. -/
def inheritOne (p : SkipPolicy) (parent : Bool) (a : AuthoredSource) : SkipPolicy :=
  if (p.overrideFor a.url).isNone then p.setOverride a.url (parent || p.testAuthored a.url) else p

theorem inheritOne_of_mem (h : p.normalize a.url ∈ p.overrides.keys) :
    inheritOne p parent a = p := by
  rw [← Index.contains_iff, Index.contains, Option.isSome_iff_ne_none] at h
  exact if_neg fun hnone => h (Option.isNone_iff_eq_none.mp hnone)

theorem inheritOne_of_notMem (h : p.normalize a.url ∉ p.overrides.keys) :
    inheritOne p parent a = p.setOverride a.url (parent || p.testAuthored a.url) := by
  rw [← Index.get?_eq_none_iff] at h
  exact if_pos (Option.isNone_iff_eq_none.mpr h)

theorem extends_inheritOne (p : SkipPolicy) (parent : Bool) (a : AuthoredSource) :
    p.Extends (inheritOne p parent a) := by
  by_cases h : p.normalize a.url ∈ p.overrides.keys
  · rw [inheritOne_of_mem h]
    exact .refl p
  · rw [inheritOne_of_notMem h]
    refine ⟨rfl, rfl, rfl, rfl, fun k v hk => ?_⟩
    have hne : p.normalize a.url ≠ k := fun heq => h (heq ▸ Index.mem_keys_of_get? hk)
    rwa [setOverride, Index.get?_insert, if_neg hne]

theorem mem_keys_inheritOne_iff :
    k ∈ (inheritOne p parent a).overrides.keys ↔ k ∈ p.overrides.keys ∨ p.normalize a.url = k := by
  by_cases h : p.normalize a.url ∈ p.overrides.keys
  · rw [inheritOne_of_mem h]
    exact ⟨Or.inl, fun hk => hk.elim id fun heq => heq ▸ h⟩
  · rw [inheritOne_of_notMem h, setOverride,
      Index.keys_insert_of_get?_eq_none (Index.get?_eq_none_iff.mpr h), List.mem_append,
      List.mem_singleton, eq_comm (a := k)]

/-- A new record is one for the file. -/
theorem of_get?_inheritOne (hold : p.overrides.get? k = none)
    (hnew : (inheritOne p parent a).overrides.get? k = some v) :
    p.normalize a.url = k ∧ v = (parent || p.testAuthored a.url) := by
  by_cases h : p.normalize a.url ∈ p.overrides.keys
  · rw [inheritOne_of_mem h, hold] at hnew
    cases hnew
  · rw [inheritOne_of_notMem h] at hnew
    rcases Index.of_get?_insert_eq_some hnew with ⟨hk, hv⟩ | hnew
    · exact ⟨hk, hv.symm⟩
    · rw [hold] at hnew
      cases hnew

/-! ## All files of a walk -/

theorem inheritAll_seen (p : SkipPolicy) (parent : Bool) (a : AuthoredSource) (s : Source)
    (rest : List (AuthoredSource × SourceTree)) :
    inheritAll p parent ((a, .seen s) :: rest) = inheritAll (inheritOne p parent a) parent rest := by
  rw [inheritAll, inherit, inheritOne]

theorem inheritAll_node (p : SkipPolicy) (parent : Bool) (a : AuthoredSource) (s : Source)
    (below rest : List (AuthoredSource × SourceTree)) :
    inheritAll p parent ((a, .node s below) :: rest) =
      inheritAll (inheritAll (inheritOne p parent a) ((inheritOne p parent a).isSkipped s.url) below)
        parent rest := by
  rw [inheritAll, inherit, inheritOne]

/-- **A record that is there stays.** -/
theorem extends_inheritAll (p : SkipPolicy) (parent : Bool)
    (below : List (AuthoredSource × SourceTree)) : p.Extends (inheritAll p parent below) := by
  induction below using below_induction generalizing p parent with
  | nil =>
    rw [inheritAll]
    exact .refl p
  | seen a s rest ih =>
    rw [inheritAll_seen]
    exact (extends_inheritOne p parent a).trans (ih _ parent)
  | node a s below rest ihbelow ihrest =>
    rw [inheritAll_node]
    exact ((extends_inheritOne p parent a).trans (ihbelow _ _)).trans (ihrest _ parent)

/-- **What is on record after a walk** is what was there before and what the walk finds. -/
theorem mem_keys_inheritAll_iff :
    k ∈ (inheritAll p parent below).overrides.keys ↔
      k ∈ p.overrides.keys ∨ ∃ a ∈ listedAll below, p.normalize a.url = k := by
  induction below using below_induction generalizing p parent with
  | nil =>
    rw [inheritAll, listedAll]
    simp
  | seen a s rest ih =>
    have hone := extends_inheritOne p parent a
    rw [inheritAll_seen, ih, mem_keys_inheritOne_iff, listedAll, listed, List.nil_append,
      List.exists_mem_cons_iff, or_assoc]
    simp only [hone.normalize_eq]
  | node a s below rest ihbelow ihrest =>
    have hone := extends_inheritOne p parent a
    have hall := hone.trans
      (extends_inheritAll (inheritOne p parent a) ((inheritOne p parent a).isSkipped s.url) below)
    rw [inheritAll_node, ihrest, ihbelow, mem_keys_inheritOne_iff, listedAll, listed,
      List.exists_mem_cons_iff, or_assoc, or_assoc]
    simp only [hone.normalize_eq, hall.normalize_eq, List.mem_append, or_and_right, exists_or]

/-- Where everything is on record there is nothing to do. -/
theorem inheritAll_of_mem (h : ∀ a ∈ listedAll below, p.normalize a.url ∈ p.overrides.keys) :
    inheritAll p parent below = p := by
  induction below using below_induction generalizing parent with
  | nil => rw [inheritAll]
  | seen a s rest ih =>
    rw [listedAll, listed, List.nil_append, List.forall_mem_cons] at h
    rw [inheritAll_seen, inheritOne_of_mem h.1, ih h.2]
  | node a s below rest ihbelow ihrest =>
    rw [listedAll, listed, List.forall_mem_cons, List.forall_mem_append] at h
    rw [inheritAll_node, inheritOne_of_mem h.1, ihbelow h.2.1, ihrest h.2.2]

/-! ## Where a new record comes from -/

section Origins

variable {g : SourceGraph} {e e' : List SourceReference} {as : List AuthoredSource}

/-- The record is what a file has from the source that lists it and from the globs.  The file is one
of those that were given, whose parent has a state of its own, or is listed by a source below
them, which has its state from `q`. -/
def ComesFrom (g : SourceGraph) (p q : SkipPolicy) (parent : Bool) (as : List AuthoredSource)
    (k : String) (v : Bool) : Prop :=
  (∃ a ∈ as, p.normalize a.url = k ∧ v = (parent || p.testAuthored a.url)) ∨
    ∃ b ∈ as, ∃ s, g.LeadsTo b.source s ∧ ∃ a ∈ g.authoredOf s, p.normalize a.url = k ∧
      v = (q.isSkipped s.url || p.testAuthored a.url)

theorem ComesFrom.of_extends {p' : SkipPolicy} (hext : p.Extends p')
    (h : ComesFrom g p' q parent as k v) : ComesFrom g p q parent as k v := by
  unfold ComesFrom at h ⊢
  simpa only [hext.normalize_eq, hext.testAuthored_eq] using h

theorem ComesFrom.cons (h : ComesFrom g p q parent as k v) :
    ComesFrom g p q parent (a :: as) k v :=
  h.imp (fun ⟨b, hb, h⟩ => ⟨b, List.mem_cons_of_mem _ hb, h⟩)
    fun ⟨b, hb, h⟩ => ⟨b, List.mem_cons_of_mem _ hb, h⟩

/-- What is listed below a file, or by its source. -/
theorem ComesFrom.down
    (h : ComesFrom g p q (q.isSkipped a.source.url) (g.authoredOf a.source) k v) :
    ComesFrom g p q parent (a :: as) k v := by
  refine Or.inr ⟨a, List.mem_cons_self, ?_⟩
  rcases h with ⟨b, hb, h⟩ | ⟨b, hb, s, hs, h⟩
  · exact ⟨a.source, Relation.ReflTransGen.refl, b, hb, h⟩
  · exact ⟨s, Relation.ReflTransGen.head ⟨b, hb, rfl⟩ hs, h⟩

/-- The state of a source below is the same at the end of the walk as it was when the walk entered
it, and it is the same under all policies with more records. -/
theorem comesFrom_of_walks (h : g.Walks e as below e')
    (hlater : (inheritAll p parent below).Extends q) (hold : p.overrides.get? k = none)
    (hnew : (inheritAll p parent below).overrides.get? k = some v) :
    ComesFrom g p q parent as k v := by
  induction h generalizing p parent v with
  | nil e =>
    rw [inheritAll, hold] at hnew
    cases hnew
  | @seen e e' a as trees _ _ ih =>
    rw [inheritAll_seen] at hlater hnew
    have hone := extends_inheritOne p parent a
    cases hmid : (inheritOne p parent a).overrides.get? k with
    | some w =>
      have hw := (extends_inheritAll (inheritOne p parent a) parent trees).records k w hmid
      obtain rfl : w = v := Option.some_inj.mp (hw.symm.trans hnew)
      exact Or.inl ⟨a, List.mem_cons_self, of_get?_inheritOne hold hmid⟩
    | none => exact (ih hlater hmid hnew).cons.of_extends hone
  | @node e e' e'' a as below trees _ _ _ ihdown ihrest =>
    rw [inheritAll_node] at hlater hnew
    have hone := extends_inheritOne p parent a
    have hdown := extends_inheritAll (inheritOne p parent a)
      ((inheritOne p parent a).isSkipped a.source.url) below
    have hrest := extends_inheritAll (inheritAll (inheritOne p parent a)
      ((inheritOne p parent a).isSkipped a.source.url) below) parent trees
    -- the walk enters the source with a record for it, so its state is the one under `q`
    have hstate : q.isSkipped a.source.url = (inheritOne p parent a).isSkipped a.source.url := by
      refine (hdown.trans (hrest.trans hlater)).isSkipped_eq_of_mem ?_
      rw [hone.normalize_eq]
      exact mem_keys_inheritOne_iff.mpr (Or.inr rfl)
    cases hmid : (inheritOne p parent a).overrides.get? k with
    | some w =>
      have hw := (hdown.trans hrest).records k w hmid
      obtain rfl : w = v := Option.some_inj.mp (hw.symm.trans hnew)
      exact Or.inl ⟨a, List.mem_cons_self, of_get?_inheritOne hold hmid⟩
    | none =>
      cases hend : (inheritAll (inheritOne p parent a)
          ((inheritOne p parent a).isSkipped a.source.url) below).overrides.get? k with
      | some w =>
        obtain rfl : w = v := Option.some_inj.mp ((hrest.records k w hend).symm.trans hnew)
        have hbelow := ihdown (hrest.trans hlater) hmid hend
        rw [← hstate] at hbelow
        exact hbelow.down.of_extends hone
      | none => exact ((ihrest hlater hend hnew).cons).of_extends (hone.trans hdown)

end Origins

/-! ## A loaded source -/

variable {g : SourceGraph} {c : Source}

theorem propagate_eq_inheritAll (p : SkipPolicy) (g : SourceGraph) (c : Source) :
    ∃ below e, g.walk c = .node c below ∧ g.Walks [c.reference] (g.authoredOf c) below e ∧
      propagate p g c = inheritAll p (p.isSkipped c.url) below := by
  obtain ⟨below, e, hwalk, hwalks⟩ := exists_walks_walk g c
  exact ⟨below, e, hwalk, hwalks, by rw [propagate, hwalk, inherit]⟩

theorem extends_propagate (p : SkipPolicy) (g : SourceGraph) (c : Source) :
    p.Extends (propagate p g c) := by
  obtain ⟨below, e, -, -, h⟩ := propagate_eq_inheritAll p g c
  rw [h]
  exact extends_inheritAll p _ below

theorem mem_keys_propagate_iff : k ∈ (propagate p g c).overrides.keys ↔
    k ∈ p.overrides.keys ∨ ∃ s a, g.LeadsTo c s ∧ a ∈ g.authoredOf s ∧ p.normalize a.url = k := by
  obtain ⟨below, e, hwalk, -, h⟩ := propagate_eq_inheritAll p g c
  have hlisted : ∀ a, a ∈ listedAll below ↔ ∃ s, g.LeadsTo c s ∧ a ∈ g.authoredOf s := by
    intro a
    rw [← mem_listed_walk_iff, hwalk, listed]
  rw [h, mem_keys_inheritAll_iff]
  refine or_congr_right ⟨?_, ?_⟩
  · rintro ⟨a, ha, hk⟩
    obtain ⟨s, hs, has⟩ := (hlisted a).mp ha
    exact ⟨s, a, hs, has, hk⟩
  · rintro ⟨s, a, hs, has, hk⟩
    exact ⟨a, (hlisted a).mpr ⟨s, hs, has⟩, hk⟩

/-- **A second load changes nothing.** -/
theorem propagate_propagate (p : SkipPolicy) (g : SourceGraph) (c : Source) :
    propagate (propagate p g c) g c = propagate p g c := by
  obtain ⟨below, e, hwalk, -, h⟩ := propagate_eq_inheritAll (propagate p g c) g c
  rw [h]
  refine inheritAll_of_mem fun a ha => ?_
  have hfound : a ∈ listed (g.walk c) := by rwa [hwalk, listed]
  obtain ⟨s, hs, has⟩ := mem_listed_walk_iff.mp hfound
  rw [(extends_propagate p g c).normalize_eq]
  exact mem_keys_propagate_iff.mpr (Or.inr ⟨s, a, hs, has, rfl⟩)

end Ranges

/-! ## Trees of sources -/

/-- The sources below a source are a tree: the source itself is not among them, and each of the
others is listed in one place. -/
structure SourceGraph.IsTreeBelow (g : SourceGraph) (c : Source) : Prop where
  top : ∀ s a, g.LeadsTo c s → a ∈ g.authoredOf s → a.source.reference ≠ c.reference
  once : ∀ s s' a a', g.LeadsTo c s → g.LeadsTo c s' → a ∈ g.authoredOf s → a' ∈ g.authoredOf s' →
    a.source.reference = a'.source.reference → s.reference = s'.reference ∧ a = a'

/-- The sources below a source have different URLs, as the policy compares them, and none has the
URL of the source itself. -/
structure SkipPolicy.NamesApart (p : SkipPolicy) (g : SourceGraph) (c : Source) : Prop where
  top : ∀ s a, g.LeadsTo c s → a ∈ g.authoredOf s → p.normalize a.url ≠ p.normalize c.url
  apart : ∀ s s' a a', g.LeadsTo c s → g.LeadsTo c s' → a ∈ g.authoredOf s → a' ∈ g.authoredOf s' →
    p.normalize a.url = p.normalize a'.url → a.source.reference = a'.source.reference

namespace SourceGraph

variable {g : SourceGraph} {c s s' : Source}

/-- In a tree a number stands for one source. -/
theorem IsTreeBelow.eq_of_reference_eq (h : g.IsTreeBelow c) (hs : g.LeadsTo c s)
    (hs' : g.LeadsTo c s') (heq : s.reference = s'.reference) : s = s' := by
  rcases Relation.ReflTransGen.cases_tail hs with rfl | ⟨t, ht, a, ha, rfl⟩
  · rcases Relation.ReflTransGen.cases_tail hs' with rfl | ⟨t', ht', a', ha', rfl⟩
    · rfl
    · exact absurd heq.symm (h.top t' a' ht' ha')
  · rcases Relation.ReflTransGen.cases_tail hs' with rfl | ⟨t', ht', a', ha', rfl⟩
    · exact absurd heq (h.top t a ht ha)
    · rw [(h.once t t' a a' ht ht' ha ha' heq).2]

theorem IsTreeBelow.of_entries
    (htop : ∀ x ∈ g.authored.entries, ∀ a ∈ x.2, a.source.reference ≠ c.reference)
    (honce : ∀ x ∈ g.authored.entries, ∀ y ∈ g.authored.entries, ∀ a ∈ x.2, ∀ b ∈ y.2,
      a.source.reference = b.source.reference → x.1 = y.1 ∧ a = b) : g.IsTreeBelow c where
  top s a _ ha := by
    obtain ⟨x, hx, -, hax⟩ := exists_entry_of_mem_authoredOf ha
    exact htop x hx a hax
  once s s' a a' _ _ ha ha' heq := by
    obtain ⟨x, hx, hxs, hax⟩ := exists_entry_of_mem_authoredOf ha
    obtain ⟨y, hy, hys, hay⟩ := exists_entry_of_mem_authoredOf ha'
    rw [← hxs, ← hys]
    exact honce x hx y hy a hax a' hay heq

end SourceGraph

theorem SkipPolicy.NamesApart.of_entries {p : SkipPolicy} {g : SourceGraph} {c : Source}
    (htop : ∀ x ∈ g.authored.entries, ∀ a ∈ x.2, p.normalize a.url ≠ p.normalize c.url)
    (hapart : ∀ x ∈ g.authored.entries, ∀ y ∈ g.authored.entries, ∀ a ∈ x.2, ∀ b ∈ y.2,
      p.normalize a.url = p.normalize b.url → a.source.reference = b.source.reference) :
    p.NamesApart g c where
  top s a _ ha := by
    obtain ⟨x, hx, -, hax⟩ := SourceGraph.exists_entry_of_mem_authoredOf ha
    exact htop x hx a hax
  apart s s' a a' _ _ ha ha' heq := by
    obtain ⟨x, hx, -, hax⟩ := SourceGraph.exists_entry_of_mem_authoredOf ha
    obtain ⟨y, hy, -, hay⟩ := SourceGraph.exists_entry_of_mem_authoredOf ha'
    exact hapart x hx y hy a hax a' hay heq

namespace Ranges

open SkipPolicy SourceGraph

variable {p : SkipPolicy} {g : SourceGraph} {c s : Source} {a : AuthoredSource}

/-- In a tree of different URLs a new record says whether the source that lists the file is skipped,
or a glob matches the file. -/
theorem overrideFor_propagate (htree : g.IsTreeBelow c) (hnames : p.NamesApart g c)
    (hs : g.LeadsTo c s) (ha : a ∈ g.authoredOf s) (hold : p.overrideFor a.url = none) :
    (propagate p g c).overrideFor a.url =
      some ((propagate p g c).isSkipped s.url || (propagate p g c).testAuthored a.url) := by
  have hext := extends_propagate p g c
  obtain ⟨v, hv⟩ : ∃ v, (propagate p g c).overrides.get? (p.normalize a.url) = some v := by
    have hkey : p.normalize a.url ∈ (propagate p g c).overrides.keys :=
      mem_keys_propagate_iff.mpr (Or.inr ⟨s, a, hs, ha, rfl⟩)
    rwa [← Index.contains_iff, Index.contains, Option.isSome_iff_exists] at hkey
  -- nothing is recorded under the URL of the source where the walk began
  have htop : (propagate p g c).isSkipped c.url = p.isSkipped c.url := by
    refine hext.isSkipped_eq ?_
    cases hget : p.overrides.get? (p.normalize c.url) with
    | some w => exact hext.records _ w hget
    | none =>
      rw [Index.get?_eq_none_iff] at hget ⊢
      rw [mem_keys_propagate_iff]
      rintro (hk | ⟨t, b, ht, hb, hk⟩)
      · exact hget hk
      · exact hnames.top t b ht hb hk
  obtain ⟨t, b, ht, hb, hkey, hvalue⟩ : ∃ t b, g.LeadsTo c t ∧ b ∈ g.authoredOf t ∧
      p.normalize b.url = p.normalize a.url ∧
      v = ((propagate p g c).isSkipped t.url || p.testAuthored b.url) := by
    obtain ⟨below, e, -, hwalks, heq⟩ := propagate_eq_inheritAll p g c
    have hlater : (inheritAll p (p.isSkipped c.url) below).Extends (propagate p g c) := by
      rw [heq]
      exact .refl _
    rw [heq] at hv
    rcases comesFrom_of_walks hwalks hlater hold hv with
      ⟨b, hb, hkey, hvalue⟩ | ⟨b, hb, t, ht, b', hb', hkey, hvalue⟩
    · exact ⟨c, b, Relation.ReflTransGen.refl, hb, hkey, htop ▸ hvalue⟩
    · exact ⟨t, b', Relation.ReflTransGen.head ⟨b, hb, rfl⟩ ht, hb', hkey, hvalue⟩
  obtain ⟨hts, rfl⟩ := htree.once t s b a ht hs hb ha (hnames.apart t s b a ht hs hb ha hkey)
  rw [overrideFor, hext.normalize_eq, hv, hvalue, htree.eq_of_reference_eq ht hs hts,
    hext.testAuthored_eq]

/-- **What a load leaves on record.**  The walk comes to its end, however the source maps lead.
Afterwards there are records for the URLs that had one and for all files that are listed by the
source or below it; records that were there are the same as before, and so is all else of the
policy.  A second load changes nothing.  Where the sources form a tree and their URLs are
different, a file that had no record is skipped if the source that lists it is skipped in the
end, or if a glob matches the file. -/
theorem propagate_spec (p : SkipPolicy) (g : SourceGraph) (c : Source) :
    (∃ below e, g.Walks [c.reference] (g.authoredOf c) below e ∧
      propagate p g c = inheritAll p (p.isSkipped c.url) below) ∧
    (∀ k, k ∈ (propagate p g c).overrides.keys ↔ k ∈ p.overrides.keys ∨
      ∃ s a, g.LeadsTo c s ∧ a ∈ g.authoredOf s ∧ p.normalize a.url = k) ∧
    p.Extends (propagate p g c) ∧
    propagate (propagate p g c) g c = propagate p g c ∧
    (g.IsTreeBelow c → p.NamesApart g c → ∀ s a, g.LeadsTo c s → a ∈ g.authoredOf s →
      p.overrideFor a.url = none → (propagate p g c).overrideFor a.url =
        some ((propagate p g c).isSkipped s.url || (propagate p g c).testAuthored a.url)) := by
  refine ⟨?_, fun k => mem_keys_propagate_iff, extends_propagate p g c, propagate_propagate p g c,
    fun htree hnames s a hs ha hold => overrideFor_propagate htree hnames hs ha hold⟩
  obtain ⟨below, e, -, hwalks, heq⟩ := propagate_eq_inheritAll p g c
  exact ⟨below, e, hwalks, heq⟩

/-! ## A bundle of bundles -/

/-- The bundle on top. -/
def outerBundle : Source := ⟨1, "/app/out.js"⟩

/-- A bundle that is listed by another one. -/
def innerBundle : AuthoredSource := ⟨⟨2, "/app/lib/in.js"⟩, ⟨9, 0⟩⟩

/-- A file of the inner bundle. -/
def innerFile : AuthoredSource := ⟨⟨4, "/app/y.ts"⟩, ⟨9, 0⟩⟩

/-- A bundle that lists another bundle and a file. -/
def nestedBundles : SourceGraph :=
  SourceGraph.empty
    |>.addAuthored outerBundle innerBundle
    |>.addAuthored outerBundle ⟨⟨3, "/app/x.ts"⟩, ⟨9, 0⟩⟩
    |>.addAuthored innerBundle.source innerFile

/-- What stands in the directory of the inner bundle is skipped. -/
def skipsLib : SkipPolicy :=
  .ofGlobs ["**/lib/**"] none .sensitive

/-- The file of the inner bundle is skipped as its parent is, although no glob matches it. -/
theorem propagate_spec_nested : nestedBundles.IsTreeBelow outerBundle ∧
    skipsLib.NamesApart nestedBundles outerBundle ∧ skipsLib.testAuthored "/app/y.ts" = false ∧
    (propagate skipsLib nestedBundles outerBundle).overrideFor "/app/y.ts" = some true := by
  have htree : nestedBundles.IsTreeBelow outerBundle := .of_entries (by decide) (by decide)
  have hnames : skipsLib.NamesApart nestedBundles outerBundle :=
    .of_entries (by decide) (by decide)
  obtain ⟨-, -, hext, -, hrecords⟩ := propagate_spec skipsLib nestedBundles outerBundle
  have hinner : innerBundle ∈ nestedBundles.authoredOf outerBundle := by decide
  have hfile : innerFile ∈ nestedBundles.authoredOf innerBundle.source := by decide
  have hrecord := hrecords htree hnames outerBundle innerBundle Relation.ReflTransGen.refl hinner
    (by decide)
  rw [hext.testAuthored_eq, show skipsLib.testAuthored innerBundle.url = true by decide,
    Bool.or_true] at hrecord
  have hskipped : (propagate skipsLib nestedBundles outerBundle).isSkipped innerBundle.source.url =
      true := by
    rw [isSkipped_of_not_internal (by rw [hext.isNodeInternal_eq]; decide)]
    exact congrArg (Option.getD · _) hrecord
  have hbelow := hrecords htree hnames innerBundle.source innerFile
    (Relation.ReflTransGen.single ⟨innerBundle, hinner, rfl⟩) hfile (by decide)
  rw [hskipped, Bool.true_or] at hbelow
  exact ⟨htree, hnames, by decide, hbelow⟩

end Ranges
end DebugTree
