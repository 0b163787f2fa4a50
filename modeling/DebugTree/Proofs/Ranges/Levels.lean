import DebugTree.Proofs.Source.Descent

/-!
# Children before parents

The ranges of a source and of everything below it come as one list, and if a script gets ranges more
than once in it, the last ones count.  So its order matters: a source has to come after all sources
that its source maps lead to.

A walk puts a source into the list when it has been through all that the source lists.  At that
moment each listed source has been entered.  It is one of three things: it lists nothing, or it is
in the list already, and then everything below it stands before it (`Ordered`); or the walk is still
below it (it is *open*).  An open source leads to the one that is being left, so if it is also
listed by it, there is a circle.  Without circles the third case does not arise, and the invariant
holds for one more source (`Standing.leave`).

With circles there is no such order.  The list still has every source once.
-/

namespace DebugTree
namespace Ranges

open SourceGraph

variable {g : SourceGraph} {c s d : Source} {e e' : List SourceReference}
  {as : List AuthoredSource} {below : List (AuthoredSource × SourceTree)} {out opened : List Source}

/-! ## Sources in order -/

/-- Whatever lies below a source of the list and lists something stands before it, by its number. -/
def Ordered (g : SourceGraph) (out : List Source) : Prop :=
  ∀ before s after, out = before ++ s :: after → ∀ d, g.LeadsBelow s d → g.authoredOf d ≠ [] →
    ∃ t ∈ before, t.reference = d.reference

/-- The source lists nothing, or the list has it, by its number. -/
def IsOut (g : SourceGraph) (out : List Source) (s : Source) : Prop :=
  g.authoredOf s = [] ∨ ∃ t ∈ out, t.reference = s.reference

theorem IsOut.append (h : IsOut g out s) (more : List Source) : IsOut g (out ++ more) s :=
  h.imp_right fun ⟨t, ht, hts⟩ => ⟨t, List.mem_append_left _ ht, hts⟩

theorem ordered_nil (g : SourceGraph) : Ordered g [] := by
  intro before s after hsplit
  exact absurd hsplit.symm (by simp)

/-- What lies below a source that is out is out as well. -/
theorem Ordered.isOut_of_leadsBelow (h : Ordered g out) (hs : IsOut g out s)
    (hd : g.LeadsBelow s d) : IsOut g out d := by
  refine or_iff_not_imp_left.mpr fun hlists => ?_
  obtain ⟨t, ht, hts⟩ := hs.resolve_left hd.authoredOf_ne_nil
  obtain ⟨before, after, hsplit⟩ := List.append_of_mem ht
  obtain ⟨u, hu, hud⟩ := h before t after hsplit d (hd.congr hts.symm) hlists
  exact ⟨u, hsplit ▸ List.mem_append_left _ hu, hud⟩

/-- A source may follow if all that it lists is out. -/
theorem Ordered.append_singleton (h : Ordered g out)
    (hs : ∀ a ∈ g.authoredOf s, IsOut g out a.source) : Ordered g (out ++ [s]) := by
  intro before t after hsplit d hd hlists
  rcases List.eq_nil_or_concat after with rfl | ⟨after', u, rfl⟩
  · obtain ⟨rfl, hts⟩ := List.append_inj' hsplit rfl
    obtain rfl : s = t := List.singleton_inj.mp hts
    have hout : IsOut g out d := by
      obtain ⟨_, ⟨a, ha, rfl⟩, had⟩ := Relation.TransGen.head'_iff.mp hd
      rcases Relation.reflTransGen_iff_eq_or_transGen.mp had with rfl | had
      · exact hs a ha
      · exact h.isOut_of_leadsBelow (hs a ha) had
    exact hout.resolve_left hlists
  · rw [List.concat_eq_append, ← List.cons_append, ← List.append_assoc] at hsplit
    exact h before t after' (List.append_inj' hsplit rfl).1 d hd hlists

/-! ## Open sources -/

/-- Where a walk stands: what it has entered it is still below, or it has put it out, and what is
out is in order. -/
structure Standing (g : SourceGraph) (entered : List SourceReference) (opened out : List Source) :
    Prop where
  entered : ∀ t, t.reference ∈ entered → (∃ o ∈ opened, o.reference = t.reference) ∨ IsOut g out t
  ordered : Ordered g out

/-- The walk goes below one source more. -/
theorem Standing.enter (h : Standing g e opened out) (s : Source) :
    Standing g (s.reference :: e) (s :: opened) out := by
  refine ⟨fun t ht => ?_, h.ordered⟩
  rcases List.mem_cons.mp ht with ht | ht
  · exact Or.inl ⟨s, List.mem_cons_self, ht.symm⟩
  · exact (h.entered t ht).imp_left fun ⟨o, ho, hot⟩ => ⟨o, List.mem_cons_of_mem _ ho, hot⟩

/-- The walk leaves a source of which all files are out, and puts it out if it lists any. -/
theorem Standing.leave (h : Standing g e (s :: opened) out)
    (hs : ∀ a ∈ g.authoredOf s, IsOut g out a.source) :
    Standing g e opened (out ++ if (g.authoredOf s).isEmpty then [] else [s]) := by
  refine ⟨fun t ht => ?_, ?_⟩
  · rcases h.entered t ht with ⟨o, ho, hot⟩ | hout
    · rcases List.mem_cons.mp ho with rfl | ho
      · refine Or.inr (or_iff_not_imp_left.mpr fun hlists => ⟨o, ?_, hot⟩)
        rw [← authoredOf_congr hot] at hlists
        rw [if_neg (fun hempty => hlists (List.isEmpty_iff.mp hempty))]
        exact List.mem_append_right _ (List.mem_singleton_self o)
      · exact Or.inl ⟨o, ho, hot⟩
    · exact Or.inr (hout.append _)
  · split
    · rw [List.append_nil]
      exact h.ordered
    · exact h.ordered.append_singleton hs

/-! ## Walks without circles -/

/-- No source that source maps lead to lies below itself. -/
def IsAcyclicBelow (g : SourceGraph) (c : Source) : Prop :=
  ∀ s d, g.LeadsTo c s → g.LeadsBelow s d → d.reference ≠ s.reference

/-- An open source that leads to another one is not this one, so the other one is out. -/
theorem Standing.isOut (h : Standing g e opened out) (hacyclic : IsAcyclicBelow g c)
    (hopened : ∀ o ∈ opened, g.LeadsTo c o ∧ g.LeadsBelow o d) (hd : d.reference ∈ e) :
    IsOut g out d := by
  rcases h.entered d hd with ⟨o, ho, hod⟩ | hout
  · exact absurd hod.symm (hacyclic o d (hopened o ho).1 (hopened o ho).2)
  · exact hout

/-- **A walk without circles keeps the order**, if the sources that are open when it begins lead to
all files that it is given. -/
theorem Standing.walks (hacyclic : IsAcyclicBelow g c) (hwalks : g.Walks e as below e')
    (h : Standing g e opened out)
    (hopened : ∀ o ∈ opened, g.LeadsTo c o ∧ ∀ a ∈ as, g.LeadsBelow o a.source)
    (hto : ∀ a ∈ as, g.LeadsTo c a.source) :
    Standing g e' opened (out ++ levelsAll below) := by
  induction hwalks generalizing out opened with
  | nil e =>
    rw [levelsAll, List.append_nil]
    exact h
  | seen _ _ ih =>
    rw [levelsAll, levels, List.nil_append]
    refine ih h (fun o ho => ⟨(hopened o ho).1, ?_⟩) (List.forall_mem_cons.mp hto).2
    exact (List.forall_mem_cons.mp (hopened o ho).2).2
  | @node e e' e'' a as below trees _ hdown _ ihdown ihrest =>
    obtain ⟨hca, hcas⟩ := List.forall_mem_cons.mp hto
    have hfiles : ∀ b ∈ g.authoredOf a.source, g.LeadsBelow a.source b.source := fun b hb =>
      Relation.TransGen.single ⟨b, hb, rfl⟩
    -- the source itself is open now, and whatever leads to it leads on to its files
    have hopened' : ∀ o ∈ a.source :: opened,
        g.LeadsTo c o ∧ ∀ b ∈ g.authoredOf a.source, g.LeadsBelow o b.source := by
      refine List.forall_mem_cons.mpr ⟨⟨hca, hfiles⟩, fun o ho => ⟨(hopened o ho).1, fun b hb => ?_⟩⟩
      exact Relation.TransGen.trans ((hopened o ho).2 a List.mem_cons_self) (hfiles b hb)
    have hbelow := ihdown (h.enter a.source) hopened' fun b hb => hca.lists hb
    have hleft := hbelow.leave fun b hb => hbelow.isOut hacyclic
      (fun o ho => ⟨(hopened' o ho).1, (hopened' o ho).2 b hb⟩) (hdown.mem_of_mem hb)
    rw [← hdown.isEmpty_eq, List.append_assoc] at hleft
    rw [levelsAll, levels, ← List.append_assoc]
    exact ihrest hleft
      (fun o ho => ⟨(hopened o ho).1, (List.forall_mem_cons.mp (hopened o ho).2).2⟩) hcas

/-- The levels of a walk without circles are in order. -/
theorem ordered_levels_walk (h : IsAcyclicBelow g c) : Ordered g (levels (g.walk c)) := by
  obtain ⟨below, e, hwalk, hwalks⟩ := exists_walks_walk g c
  have hfiles : ∀ a ∈ g.authoredOf c, g.LeadsBelow c a.source := fun a ha =>
    Relation.TransGen.single ⟨a, ha, rfl⟩
  have hopened : ∀ o ∈ [c], g.LeadsTo c o ∧ ∀ a ∈ g.authoredOf c, g.LeadsBelow o a.source := by
    rw [List.forall_mem_singleton]
    exact ⟨Relation.ReflTransGen.refl, hfiles⟩
  have hstart : Standing g [c.reference] [c] [] :=
    Standing.enter ⟨fun t ht => absurd ht List.not_mem_nil, ordered_nil g⟩ c
  have hbelow := hstart.walks h hwalks hopened fun a ha => (hfiles a ha).to_reflTransGen
  have hleft := hbelow.leave fun a ha => hbelow.isOut h
    (fun o ho => ⟨(hopened o ho).1, (hopened o ho).2 a ha⟩) (hwalks.mem_of_mem ha)
  rw [← hwalks.isEmpty_eq, List.nil_append] at hleft
  rw [hwalk, levels]
  exact hleft.ordered

/-! ## Updates -/

variable {p : SkipPolicy}

theorem map_source_collect (p : SkipPolicy) (g : SourceGraph) (c : Source) :
    (collect p g c).map (·.source) = levels (g.walk c) := by
  rw [collect, List.map_map]
  exact List.map_id _

theorem map_reference_collect (p : SkipPolicy) (g : SourceGraph) (c : Source) :
    (collect p g c).map (·.source.reference) = (levels (g.walk c)).map (·.reference) := by
  rw [← map_source_collect p g c, List.map_map]
  rfl

theorem mem_collect_iff {u : Update} :
    u ∈ collect p g c ↔ u.source ∈ levels (g.walk c) ∧ u.positions = compute p g u.source := by
  rw [collect, List.mem_map]
  constructor
  · rintro ⟨d, hd, rfl⟩
    exact ⟨hd, rfl⟩
  · rintro ⟨hd, hpositions⟩
    exact ⟨u.source, hd, by rw [← hpositions]⟩

/-- Without circles what lies below the source of an update has its update before it. -/
theorem mem_of_leadsBelow (h : IsAcyclicBelow g c) {before after : List Update} {u v : Update}
    (hsplit : collect p g c = before ++ u :: after) (hv : v ∈ collect p g c)
    (hd : g.LeadsBelow u.source d) (hdv : d.reference = v.source.reference) : v ∈ before := by
  have hlists : g.authoredOf d ≠ [] := by
    rw [authoredOf_congr hdv]
    exact authoredOf_ne_nil_of_mem_levels (mem_collect_iff.mp hv).1
  have hlevels : levels (g.walk c) =
      before.map (·.source) ++ u.source :: after.map (·.source) := by
    rw [← map_source_collect p g c, hsplit, List.map_append, List.map_cons]
  obtain ⟨t, ht, htd⟩ := ordered_levels_walk h _ _ _ hlevels d hd hlists
  obtain ⟨w, hw, rfl⟩ := List.mem_map.mp ht
  have hnodup : ((collect p g c).map (·.source.reference)).Nodup := by
    rw [map_reference_collect]
    exact nodup_levels_walk g c
  have hwc : w ∈ collect p g c := hsplit ▸ List.mem_append_left _ hw
  rwa [List.inj_on_of_nodup_map hnodup hv hwc (hdv.symm.trans htd.symm)]

/-- **The updates of a source and of everything below it.**  The walk comes to its end, however the
source maps lead.  Each source number that source maps lead to has one update if it lists
something and none otherwise, with the ranges of that source.  Where source maps do not lead round
in a circle, an update comes after the updates of all sources that lie below its source. -/
theorem collect_spec (p : SkipPolicy) (g : SourceGraph) (c : Source) :
    (∃ below e, g.Walks [c.reference] (g.authoredOf c) below e ∧
      collect p g c = (levelsAll below ++ if below.isEmpty then [] else [c]).map fun s =>
        ⟨s, compute p g s⟩) ∧
    ((collect p g c).map (·.source.reference)).Nodup ∧
    (∀ r, r ∈ (collect p g c).map (·.source.reference) ↔
      ∃ s, g.LeadsTo c s ∧ s.reference = r ∧ g.authoredOf s ≠ []) ∧
    (∀ u ∈ collect p g c, g.LeadsTo c u.source ∧ u.positions = compute p g u.source) ∧
    (IsAcyclicBelow g c → ∀ before u after, collect p g c = before ++ u :: after →
      ∀ v ∈ collect p g c, ∀ d, g.LeadsBelow u.source d → d.reference = v.source.reference →
        v ∈ before) := by
  refine ⟨?_, ?_, fun r => ?_, fun u hu => ?_, fun hacyclic before u after hsplit v hv d hd hdv =>
    mem_of_leadsBelow hacyclic hsplit hv hd hdv⟩
  · obtain ⟨below, e, hwalk, hwalks⟩ := exists_walks_walk g c
    exact ⟨below, e, hwalks, by rw [collect, hwalk, levels]⟩
  · rw [map_reference_collect]
    exact nodup_levels_walk g c
  · rw [map_reference_collect]
    exact mem_map_levels_walk_iff
  · obtain ⟨hlevel, hpositions⟩ := mem_collect_iff.mp hu
    exact ⟨leadsTo_of_mem_levels_walk hlevel, hpositions⟩

/-! ## A source that two others share -/

theorem IsAcyclicBelow.of_entries
    (h : ∀ x ∈ g.authored.entries, ∀ a ∈ x.2, x.1 < a.source.reference) (c : Source) :
    IsAcyclicBelow g c := by
  have hlists : ∀ s d, g.Lists s d → s.reference < d.reference := by
    rintro s _ ⟨a, ha, rfl⟩
    obtain ⟨x, hx, hxs, hax⟩ := exists_entry_of_mem_authoredOf ha
    exact hxs ▸ h x hx a hax
  intro s d _ hd
  have hlt : s.reference < d.reference := by
    induction hd with
    | single hsd => exact hlists s _ hsd
    | tail _ htd ih => exact ih.trans (hlists _ _ htd)
  exact hlt.ne'

/-- A source of `diamond`. -/
def diamondFile (n : Nat) (url : String) : AuthoredSource := ⟨⟨n, url⟩, ⟨9, 0⟩⟩

/-- The source on top of `diamond`. -/
def diamondTop : Source := ⟨1, "/app/top.js"⟩

/-- The source that lists the shared one second. -/
def diamondRight : AuthoredSource := diamondFile 3 "/app/right.js"

/-- The source that two others list. -/
def diamondShared : AuthoredSource := diamondFile 4 "/app/shared.js"

/-- Two sources that list the same one. -/
def diamond : SourceGraph :=
  SourceGraph.empty
    |>.addAuthored diamondTop (diamondFile 2 "/app/left.js")
    |>.addAuthored diamondTop diamondRight
    |>.addAuthored ⟨2, "/app/left.js"⟩ diamondShared
    |>.addAuthored diamondRight.source diamondShared
    |>.addAuthored diamondShared.source (diamondFile 5 "/app/file.ts")

/-- The shared source comes before the second source that lists it, although the walk has been
through it on its way from the first one. -/
theorem collect_spec_diamond : IsAcyclicBelow diamond diamondTop ∧
    ∃ u ∈ collect (.ofGlobs [] none .sensitive) diamond diamondTop, u.source.reference = 3 ∧
      ∀ before after, collect (.ofGlobs [] none .sensitive) diamond diamondTop =
        before ++ u :: after → ∃ v ∈ before, v.source.reference = 4 := by
  have hacyclic : IsAcyclicBelow diamond diamondTop := .of_entries (by decide) _
  obtain ⟨-, -, hnumbers, hupdates, horder⟩ :=
    collect_spec (.ofGlobs [] none .sensitive) diamond diamondTop
  have hright : diamond.Lists diamondTop diamondRight.source := ⟨diamondRight, by decide, rfl⟩
  have hshared : diamond.Lists diamondRight.source diamondShared.source :=
    ⟨diamondShared, by decide, rfl⟩
  have htop := Relation.ReflTransGen.single hright
  obtain ⟨u, hu, hu3⟩ := List.mem_map.mp
    ((hnumbers 3).mpr ⟨diamondRight.source, htop, rfl, by decide⟩)
  obtain ⟨v, hv, hv4⟩ := List.mem_map.mp
    ((hnumbers 4).mpr ⟨diamondShared.source, htop.tail hshared, rfl, by decide⟩)
  have hbelow : diamond.LeadsBelow u.source diamondShared.source :=
    LeadsBelow.congr hu3.symm (Relation.TransGen.single hshared)
  refine ⟨hacyclic, u, hu, hu3, fun before after hsplit => ⟨v, ?_, hv4⟩⟩
  exact horder hacyclic before u after hsplit v hv diamondShared.source hbelow hv4.symm

end Ranges
end DebugTree
