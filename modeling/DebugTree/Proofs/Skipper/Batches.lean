import DebugTree.Proofs.Index
import DebugTree.Proofs.Source.Walks
import DebugTree.Skipper.Batch
import DebugTree.Skipper.Change

/-!
# What a batch holds

A batch is put together from calls, one for each source and each of its scripts, and a call may be
overtaken by a later one for its script.  `RangePlan.ComesOf` says what is left of the calls in the
end.  It says so of any calls: where two of them disagree about a script, one of them is sent.

The calls of one change do not disagree if no script runs two sources.  A source may come up more
than once, since the bundles of a file may have parts in common; but it comes up with the same
ranges, as ranges are computed after the policy has been revised.
-/

namespace DebugTree

/-- No script runs two sources.  Scripts are listed by number, so scripts of different numbers are
different; and since a source is its number and its URL, a number that some script runs is mentioned
with one URL only. -/
structure SourceGraph.Unshared (g : SourceGraph) : Prop where
  apart : ∀ a b x, x ∈ g.scriptsOf a → x ∈ g.scriptsOf b → a.reference = b.reference
  named : ∀ a b x, g.Mentions a → g.Mentions b → x ∈ g.scriptsOf a → x ∈ g.scriptsOf b → a = b

/-- A graph of which every entry is about known sources, and no two entries are about one script. -/
theorem SourceGraph.Unshared.of_entries {g : SourceGraph}
    (hscripts : ∀ e ∈ g.scripts.entries, ∀ f ∈ g.scripts.entries, ∀ x ∈ e.2, x ∈ f.2 → e.1 = f.1)
    (hauthored : ∀ e ∈ g.authored.entries, ∀ a ∈ e.2,
      g.sources.get? a.source.reference = some a.source)
    (hcompiled : ∀ e ∈ g.compiled.entries, ∀ a ∈ e.2, g.sources.get? a.reference = some a) :
    g.Unshared := by
  have hvalue : ∀ {α : Type} {ix : Index SourceReference (List α)} {r : SourceReference} {a : α},
      a ∈ (ix.get? r).getD [] → ∃ e ∈ ix.entries, e.1 = r ∧ a ∈ e.2 := by
    intro α ix r a ha
    cases hget : ix.get? r with
    | none =>
      rw [hget] at ha
      exact absurd ha List.not_mem_nil
    | some l =>
      rw [hget] at ha
      exact ⟨(r, l), Index.mem_entries_of_get? hget, rfl, ha⟩
  have hapart : ∀ a b x, x ∈ g.scriptsOf a → x ∈ g.scriptsOf b → a.reference = b.reference := by
    intro a b x hxa hxb
    obtain ⟨e, he, hea, hxe⟩ := hvalue hxa
    obtain ⟨f, hf, hfb, hxf⟩ := hvalue hxb
    rw [← hea, ← hfb]
    exact hscripts e he f hf x hxe hxf
  have hknown : ∀ a, g.Mentions a → g.sources.get? a.reference = some a := by
    rintro a ⟨s, ha | ha⟩
    · obtain ⟨b, hb, rfl⟩ := List.mem_map.mp ha
      obtain ⟨e, he, -, hbe⟩ := hvalue hb
      exact hauthored e he b hbe
    · obtain ⟨e, he, -, hae⟩ := hvalue ha
      exact hcompiled e he a hae
  refine ⟨hapart, fun a b x ha hb hxa hxb => ?_⟩
  have hka := hknown a ha
  rw [hapart a b x hxa hxb, hknown b hb, Option.some.injEq] at hka
  exact hka.symm

namespace RangePlan

/-! ## One call -/

theorem get?_add (ps : List Position) (plan : RangePlan) (x y : ScriptId) :
    (add ps plan x).batch.get? y =
      if x = y ∧ (ps ≠ [] ∨ x ∈ plan.skipping) then some ps else plan.batch.get? y := by
  unfold add
  by_cases hps : ps = []
  · by_cases hx : x ∈ plan.skipping <;> simp [hps, hx, Index.get?_insert]
  · simp [hps, Index.get?_insert]

theorem mem_skipping_add (ps : List Position) (plan : RangePlan) (x y : ScriptId) :
    y ∈ (add ps plan x).skipping ↔ if x = y then ps ≠ [] else y ∈ plan.skipping := by
  unfold add
  by_cases hxy : x = y
  · subst hxy
    by_cases hps : ps = []
    · by_cases hx : x ∈ plan.skipping <;> simp [hps, hx]
    · simp [hps]
  · have hyx : y ≠ x := Ne.symm hxy
    by_cases hps : ps = []
    · by_cases hx : x ∈ plan.skipping <;> simp [hps, hx, hxy, hyx]
    · simp [hps, hxy, hyx]

theorem add_nil_of_notMem {plan : RangePlan} {x : ScriptId} (hx : x ∉ plan.skipping) :
    add [] plan x = plan := by
  simp [add, hx]

/-! ## All calls -/

/-- The plan is what calls come to that are made one after the other, given the scripts that had
ranges before them. -/
structure ComesOf (plan : RangePlan) (had : List ScriptId)
    (calls : List (ScriptId × List Position)) : Prop where
  nodup : plan.batch.keys.Nodup
  sent : ∀ x ps, plan.batch.get? x = some ps → (x, ps) ∈ calls ∧ (x ∈ plan.skipping ↔ ps ≠ [])
  unsent : ∀ x, plan.batch.get? x = none →
    (x ∈ plan.skipping ↔ x ∈ had) ∧ ∀ ps, (x, ps) ∈ calls → ps = [] ∧ x ∉ had
  idle : ∀ x, x ∉ had → (∀ ps, (x, ps) ∈ calls → ps = []) → plan.batch.get? x = none

namespace ComesOf

variable {plan : RangePlan} {had : List ScriptId} {calls : List (ScriptId × List Position)}

theorem start (had : List ScriptId) : (RangePlan.start had).ComesOf had [] where
  nodup := List.nodup_nil
  sent _ _ h := absurd h (by simp [RangePlan.start])
  unsent _ _ := ⟨Iff.rfl, by simp⟩
  idle _ _ _ := rfl

theorem of_mem_append_singleton {x y : ScriptId} {ps qs : List Position}
    (h : (y, qs) ∈ calls ++ [(x, ps)]) : (y, qs) ∈ calls ∨ y = x ∧ qs = ps :=
  (List.mem_append.mp h).imp_right fun h => Prod.mk.inj (List.mem_singleton.mp h)

/-- A call without ranges is passed over if the script has none. -/
theorem pass (h : plan.ComesOf had calls) {x : ScriptId} (hx : x ∉ plan.skipping) :
    plan.ComesOf had (calls ++ [(x, [])]) where
  nodup := h.nodup
  sent y qs hy := (h.sent y qs hy).imp_left (List.mem_append_left _)
  unsent y hy := by
    refine ⟨(h.unsent y hy).1, fun qs hqs => ?_⟩
    rcases of_mem_append_singleton hqs with hqs | ⟨rfl, rfl⟩
    · exact (h.unsent y hy).2 qs hqs
    · exact ⟨rfl, mt (h.unsent y hy).1.mpr hx⟩
  idle y hy hempty := h.idle y hy fun qs hqs => hempty qs (List.mem_append_left _ hqs)

/-- Any other call is put into the batch. -/
theorem put (h : plan.ComesOf had calls) {ps : List Position} {x : ScriptId}
    (hx : ps ≠ [] ∨ x ∈ plan.skipping) :
    (RangePlan.add ps plan x).ComesOf had (calls ++ [(x, ps)]) where
  nodup := by
    unfold RangePlan.add
    split
    · split
      · exact Index.nodup_keys_insert h.nodup _ _
      · exact h.nodup
    · exact Index.nodup_keys_insert h.nodup _ _
  sent y qs hy := by
    rw [get?_add] at hy
    rw [mem_skipping_add]
    by_cases hxy : x = y
    · rw [if_pos ⟨hxy, hx⟩] at hy
      rw [if_pos hxy, ← hxy, Option.some.inj hy]
      exact ⟨List.mem_append_right _ (List.mem_singleton_self _), Iff.rfl⟩
    · rw [if_neg fun hboth => hxy hboth.1] at hy
      rw [if_neg hxy]
      exact (h.sent y qs hy).imp_left (List.mem_append_left _)
  unsent y hy := by
    rw [get?_add] at hy
    rw [mem_skipping_add]
    by_cases hxy : x = y
    · rw [if_pos ⟨hxy, hx⟩] at hy
      cases hy
    · rw [if_neg fun hboth => hxy hboth.1] at hy
      rw [if_neg hxy]
      refine ⟨(h.unsent y hy).1, fun qs hqs => ?_⟩
      rcases of_mem_append_singleton hqs with hqs | ⟨heq, -⟩
      · exact (h.unsent y hy).2 qs hqs
      · exact absurd heq.symm hxy
  idle y hy hempty := by
    have hold := h.idle y hy fun qs hqs => hempty qs (List.mem_append_left _ hqs)
    rw [get?_add, if_neg, hold]
    -- A call without ranges is put in only if the script was remembered, and then it still is.
    rintro ⟨rfl, -⟩
    rcases hx with hps | hx
    · exact hps (hempty ps (List.mem_append_right _ (List.mem_singleton_self _)))
    · exact hy ((h.unsent x hold).1.mp hx)

theorem add (h : plan.ComesOf had calls) (ps : List Position) (x : ScriptId) :
    (RangePlan.add ps plan x).ComesOf had (calls ++ [(x, ps)]) := by
  by_cases hx : ps ≠ [] ∨ x ∈ plan.skipping
  · exact h.put hx
  · rw [not_or, not_not] at hx
    obtain ⟨rfl, hx⟩ := hx
    rw [add_nil_of_notMem hx]
    exact h.pass hx

theorem foldl_add (h : plan.ComesOf had calls) (ps : List Position) (xs : List ScriptId) :
    (xs.foldl (RangePlan.add ps) plan).ComesOf had (calls ++ xs.map fun x => (x, ps)) := by
  induction xs generalizing plan calls with
  | nil => rwa [List.map_nil, List.append_nil]
  | cons x xs ih =>
    rw [List.map_cons, List.append_cons]
    exact ih (h.add ps x)

/-- If no two calls disagree, nobody is told that he has no ranges who had none. -/
theorem mem_had (h : plan.ComesOf had calls)
    (hunique : ∀ x ps qs, (x, ps) ∈ calls → (x, qs) ∈ calls → ps = qs) {x : ScriptId}
    (hx : plan.batch.get? x = some []) : x ∈ had := by
  by_contra hhad
  have hcall := (h.sent x [] hx).1
  rw [h.idle x hhad fun ps hps => hunique x ps [] hps hcall] at hx
  cases hx

/-- If no two calls disagree, a call is sent, or it is one without ranges to a script that had
none. -/
theorem get?_of_mem (h : plan.ComesOf had calls)
    (hunique : ∀ x ps qs, (x, ps) ∈ calls → (x, qs) ∈ calls → ps = qs) {x : ScriptId}
    {ps : List Position} (hx : (x, ps) ∈ calls) :
    plan.batch.get? x = some ps ∨ plan.batch.get? x = none ∧ ps = [] ∧ x ∉ had := by
  cases hget : plan.batch.get? x with
  | none => exact Or.inr ⟨rfl, (h.unsent x hget).2 ps hx⟩
  | some qs => exact Or.inl (by rw [hunique x ps qs hx (h.sent x qs hget).1])

end ComesOf

/-- The calls that updates ask for, one after the other. -/
def calls (g : SourceGraph) (updates : List Ranges.Update) : List (ScriptId × List Position) :=
  updates.flatMap fun u => (g.scriptsOf u.source).map fun x => (x, u.positions)

theorem mem_calls_iff {g : SourceGraph} {updates : List Ranges.Update} {x : ScriptId}
    {ps : List Position} :
    (x, ps) ∈ calls g updates ↔ ∃ u ∈ updates, x ∈ g.scriptsOf u.source ∧ u.positions = ps := by
  simp [calls]

/-- **What several sources come to.** -/
theorem comesOf_ofUpdates (g : SourceGraph) (had : List ScriptId)
    (updates : List Ranges.Update) : (ofUpdates g had updates).ComesOf had (calls g updates) := by
  have hfold : ∀ {plan : RangePlan} {made : List (ScriptId × List Position)},
      plan.ComesOf had made →
        (updates.foldl (addUpdate g) plan).ComesOf had (made ++ calls g updates) := by
    induction updates with
    | nil =>
      intro plan made h
      rwa [calls, List.flatMap_nil, List.append_nil]
    | cons u updates ih =>
      intro plan made h
      rw [calls, List.flatMap_cons, ← List.append_assoc]
      exact ih (h.foldl_add u.positions (g.scriptsOf u.source))
  exact hfold (.start had)

end RangePlan

/-! ## The calls of one change -/

namespace SkipChange

variable {g : SourceGraph} {p : SkipPolicy} {c : SkipChange}

/-- Ranges are computed from one source on, or from sources that source maps mention. -/
theorem origins_cases (g : SourceGraph) (c : SkipChange) :
    (∀ s ∈ c.origins g, ∀ t ∈ c.origins g, s = t) ∨ ∀ s ∈ c.origins g, g.Mentions s := by
  cases c with
  | load source => exact Or.inl (by simp [origins])
  | decide url source skipped =>
    cases source with
    | none => exact Or.inl (by simp [origins, bundles])
    | some source =>
      by_cases hempty : (g.compiledOf source).isEmpty = true
      · exact Or.inl (by simp [origins, bundles, hempty])
      · refine Or.inr fun s hs => ⟨source, Or.inr ?_⟩
        simpa [origins, bundles, hempty] using hs

theorem mem_updates_iff {u : Ranges.Update} : u ∈ c.updates g p ↔
    ∃ s ∈ c.origins g, u.source ∈ Ranges.levels (g.walk s) ∧
      u.positions = Ranges.compute p g u.source := by
  rw [updates, List.mem_flatMap]
  refine exists_congr fun s => and_congr_right fun _ => ?_
  rw [Ranges.collect, List.mem_map]
  constructor
  · rintro ⟨d, hd, rfl⟩
    exact ⟨hd, rfl⟩
  · rintro ⟨hd, hps⟩
    exact ⟨u.source, hd, by rw [← hps]⟩

/-- **The calls of one change do not disagree** if no script runs two sources. -/
theorem calls_unique (hg : g.Unshared) (p : SkipPolicy) (c : SkipChange) {x : ScriptId}
    {ps qs : List Position} (hps : (x, ps) ∈ RangePlan.calls g (c.updates g p))
    (hqs : (x, qs) ∈ RangePlan.calls g (c.updates g p)) : ps = qs := by
  obtain ⟨u, hu, hxu, rfl⟩ := RangePlan.mem_calls_iff.mp hps
  obtain ⟨v, hv, hxv, rfl⟩ := RangePlan.mem_calls_iff.mp hqs
  obtain ⟨s, hs, hus, hups⟩ := mem_updates_iff.mp hu
  obtain ⟨t, ht, hvt, hvps⟩ := mem_updates_iff.mp hv
  have hsource : u.source = v.source := by
    rcases origins_cases g c with hone | hmentioned
    · obtain rfl := hone s hs t ht
      exact SourceGraph.eq_of_mem_levels_walk hus hvt (hg.apart _ _ x hxu hxv)
    · have hu := (SourceGraph.mem_levels_walk hus).elim (· ▸ hmentioned s hs) id
      have hv := (SourceGraph.mem_levels_walk hvt).elim (· ▸ hmentioned t ht) id
      exact hg.named _ _ x hu hv hxu hxv
  rw [hups, hvps, hsource]

end SkipChange
end DebugTree
