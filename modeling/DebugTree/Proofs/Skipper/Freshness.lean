import DebugTree.Proofs.Skipper.Deeds
import DebugTree.Proofs.Skipper.Ranges

/-!
# Which ranges are up to date

A change has ranges computed again from its origins on, for the sources that it *reaches*.  What the
runtime was told about a source is therefore what the last turn computed that reached it, and
nothing tells it of changes that did not.  So the ranges of all loaded sources are up to date
throughout a run exactly if whatever alters the ranges of a loaded source is a turn that reaches it
(`ranges_fresh_iff`).

## Where the turns fall short

A decision about a file that some bundle lists reaches all bundles that list it.  A decision about a
whole bundle is taken over by every file that the bundle lists, but it reaches the bundle only: if
another bundle lists one of these files, its ranges stay what they were
(`shared_file_outdated`).
-/

namespace DebugTree

namespace SkipChange

variable {g : SourceGraph} {p : SkipPolicy} {c : SkipChange} {d : Source}

/-- A change has the ranges of a source computed again. -/
def Reaches (g : SourceGraph) (c : SkipChange) (d : Source) : Prop :=
  ∃ o ∈ c.origins g, d = o ∨ d ∈ Ranges.levels (g.walk o)

theorem reaches_load (g : SourceGraph) (d : Source) : (SkipChange.load d).Reaches g d :=
  ⟨d, List.mem_singleton_self d, Or.inl rfl⟩

theorem reaches_of_mem_updates {u : Ranges.Update} (h : u ∈ c.updates g p) :
    c.Reaches g u.source := by
  obtain ⟨o, ho, hlevel, -⟩ := mem_updates_iff.mp h
  exact ⟨o, ho, Or.inr hlevel⟩

theorem Reaches.mem_updates (h : c.Reaches g d) (hlists : g.authoredOf d ≠ []) (p : SkipPolicy) :
    ⟨d, Ranges.compute p g d⟩ ∈ c.updates g p := by
  obtain ⟨o, ho, hd⟩ := h
  refine mem_updates_iff.mpr ⟨o, ho, ?_, rfl⟩
  rcases hd with rfl | hlevel
  · exact SourceGraph.mem_levels_walk_self_iff.mpr hlists
  · exact hlevel

end SkipChange

/-- A source whose map lists nothing has no ranges. -/
theorem Ranges.compute_of_authoredOf_eq_nil {g : SourceGraph} {d : Source}
    (h : g.authoredOf d = []) (p : SkipPolicy) : Ranges.compute p g d = [] := by
  rw [Ranges.compute, Ranges.spans, h]
  simp [Ranges.joinNeighbours, Span.merge, Span.mergeSorted, Span.ends]

namespace Skipper
namespace World

variable {w : World} {actions : List Action} {k : Listener} {g : SourceGraph} {n : Nat}
  {c : SkipChange} {s s' : Skipper} {d : Source} {x : ScriptId}

/-! ## Turns of a run -/

/-- At this moment of a run somebody has his turn at a session, with this change. -/
def TurnAt (w : World) (actions : List Action) (n : Nat) (k : Listener) (c : SkipChange)
    (s : Skipper) : Prop :=
  ∃ j refused, actions[n]? = some (.proceed j refused) ∧ (w.before actions n).Plans j k c s

/-- A session lives on after a turn. -/
theorem TurnAt.exists_succ (h : start.TurnAt actions n k c s) :
    ∃ s', (start.before actions (n + 1)).sessions.get? k = some s' ∧
      s'.policy = c.revise s.graph s.policy := by
  obtain ⟨j, refused, hn, hplans⟩ := h
  rw [before_succ hn]
  exact ⟨_, hplans.get?_act (inLine_before actions n) (seated_before actions n) refused, rfl⟩

theorem TurnAt.policy_succ (h : start.TurnAt actions n k c s)
    (hs' : (start.before actions (n + 1)).sessions.get? k = some s') :
    s'.policy = c.revise s.graph s.policy := by
  obtain ⟨t, ht, hpolicy⟩ := h.exists_succ
  rwa [Option.some.inj (hs'.symm.trans ht)]

/-- Before this moment of a run a source has been loaded. -/
def LoadedBefore (w : World) (actions : List Action) (n : Nat) (k : Listener) (d : Source) : Prop :=
  ∃ m < n, ∃ s, w.TurnAt actions m k (.load d) s

theorem LoadedBefore.mono {m : Nat} (h : w.LoadedBefore actions m k d) (hm : m ≤ n) :
    w.LoadedBefore actions n k d := by
  obtain ⟨i, hi, hturn⟩ := h
  exact ⟨i, Nat.lt_of_lt_of_le hi hm, hturn⟩

/-- A load reaches its source, so a turn that does not reach a loaded source came after the load. -/
theorem LoadedBefore.of_not_reaches (h : w.LoadedBefore actions (n + 1) k d)
    (hnot : ∀ c s, w.TurnAt actions n k c s → ¬ c.Reaches g d) : w.LoadedBefore actions n k d := by
  obtain ⟨m, hm, s, hload⟩ := h
  rcases Nat.lt_succ_iff_lt_or_eq.mp hm with hm | rfl
  · exact ⟨m, hm, s, hload⟩
  · exact absurd (SkipChange.reaches_load g d) (hnot _ s hload)

/-- Throughout a run a session has these sources, no script runs two of them, and every source that
comes up is the one that is known under its number. -/
structure Sourced (w : World) (actions : List Action) (k : Listener) (g : SourceGraph) : Prop where
  graph : ∀ n s, (w.before actions n).sessions.get? k = some s → s.graph = g
  unshared : g.Unshared
  known : ∀ n c s d, w.TurnAt actions n k c s → c.Reaches g d →
    g.sourceByReference? d.reference = some d

theorem Sourced.graph_eq (h : w.Sourced actions k g) (hturn : w.TurnAt actions n k c s) :
    s.graph = g := by
  obtain ⟨j, refused, -, hplans⟩ := hturn
  exact h.graph n s hplans.session

/-- A script that runs two sources that come up runs one. -/
theorem Sourced.eq_of_mem_scriptsOf (h : w.Sourced actions k g) {m : Nat} {c' : SkipChange}
    {s' : Skipper} {e : Source} (hturn : w.TurnAt actions n k c s) (hd : c.Reaches g d)
    (hturn' : w.TurnAt actions m k c' s') (he : c'.Reaches g e) (hxd : x ∈ g.scriptsOf d)
    (hxe : x ∈ g.scriptsOf e) : d = e := by
  have hknown := h.known n c s d hturn hd
  rw [h.unshared.apart d e x hxd hxe, h.known m c' s' e hturn' he] at hknown
  exact (Option.some.inj hknown).symm

/-! ## What a step does to what was sent -/

/-- What was sent last for a script changes only at a turn that computes the ranges of a source that
the script runs. -/
theorem Sourced.latest_succ (h : World.start.Sourced actions k g) (n : Nat) (x : ScriptId) :
    latest k x (World.start.heard actions (n + 1)) = latest k x (World.start.heard actions n) ∨
      ∃ c s u, World.start.TurnAt actions n k c s ∧ u ∈ c.updates g (c.revise g s.policy) ∧
        x ∈ g.scriptsOf u.source := by
  cases hn : actions[n]? with
  | none => exact Or.inl (by rw [heard_succ_of_none hn])
  | some a =>
    rw [heard_succ hn]
    rcases (World.start.before actions n).take_cases a with
      ⟨o, rfl⟩ | hr | ⟨j, refused, k', c, s, rfl, hplans⟩
    · exact Or.inl (latest_append_of_sentTo_eq_nil rfl x)
    · exact Or.inl (latest_append_of_sentTo_eq_nil (hr.unsent k) x)
    by_cases hk : k' = k
    · subst hk
      have hturn : World.start.TurnAt actions n k' c s := ⟨j, refused, hn, hplans⟩
      have hcomes := comesOf_carryOut s c
      rw [h.graph_eq hturn] at hcomes
      have hsent : latest k' x (World.start.heard actions n ++
          ((World.start.before actions n).act (.proceed j refused)).2) =
            ((s.carryOut c).1.get? x).getD (latest k' x (World.start.heard actions n)) :=
        (congrArg _ (congrArg _ (hplans.sent refused))).trans (latest_append_batch _ _ _ _)
      rw [hsent]
      cases hx : (s.carryOut c).1.get? x with
      | none => exact Or.inl rfl
      | some ps =>
        obtain ⟨u, hu, hxu, -⟩ := RangePlan.mem_calls_iff.mp (hcomes.sent x ps hx).1
        exact Or.inr ⟨c, s, u, hturn, hu, hxu⟩
    · exact Or.inl (latest_append_of_sentTo_eq_nil (hplans.sentTo_of_ne refused hk) x)

/-- Nothing is ever sent to a script of a source whose map lists nothing. -/
theorem Sourced.latest_eq_nil (h : World.start.Sourced actions k g) (hd : g.authoredOf d = [])
    (hx : x ∈ g.scriptsOf d) (n : Nat) : latest k x (World.start.heard actions n) = [] := by
  induction n with
  | zero => rw [heard_zero]; rfl
  | succ n ih =>
    rcases h.latest_succ n x with hsame | ⟨c, s, u, -, hu, hxu⟩
    · rw [hsame, ih]
    · obtain ⟨o, -, hlevel, -⟩ := SkipChange.mem_updates_iff.mp hu
      have hlists := SourceGraph.authoredOf_ne_nil_of_mem_levels hlevel
      rw [SourceGraph.authoredOf, h.unshared.apart u.source d x hxu hx] at hlists
      exact absurd hd hlists

theorem Sourced.inStep (h : World.start.Sourced actions k g) (n : Nat) :
    (World.start.before actions n).InStep k (World.start.heard actions n) :=
  (inStep_start k).before inLine_start seated_start (fun n s hs => h.graph n s hs ▸ h.unshared) n

/-- **A turn sends what it computes** for the sources that it reaches. -/
theorem Sourced.latest_of_reaches (h : World.start.Sourced actions k g)
    (hturn : World.start.TurnAt actions n k c s) (hreaches : c.Reaches g d)
    (hx : x ∈ g.scriptsOf d) :
    latest k x (World.start.heard actions (n + 1)) =
      Ranges.compute (c.revise g s.policy) g d := by
  by_cases hlists : g.authoredOf d = []
  · rw [Ranges.compute_of_authoredOf_eq_nil hlists, h.latest_eq_nil hlists hx]
  have hgraph := h.graph_eq hturn
  obtain ⟨j, refused, hn, hplans⟩ := hturn
  have hmem := hreaches.mem_updates hlists (c.revise g s.policy)
  rw [← hgraph] at hmem hx ⊢
  rw [heard_succ hn]
  exact (h.inStep n).latest_turn hplans (hgraph ▸ h.unshared) refused hmem hx

/-- A turn that does not reach a loaded source sends nothing to its scripts. -/
theorem Sourced.latest_of_not_reaches (h : World.start.Sourced actions k g)
    (hloaded : World.start.LoadedBefore actions n k d) (hx : x ∈ g.scriptsOf d)
    (hnot : ∀ c s, World.start.TurnAt actions n k c s → ¬ c.Reaches g d) :
    latest k x (World.start.heard actions (n + 1)) = latest k x (World.start.heard actions n) := by
  rcases h.latest_succ n x with hsame | ⟨c, s, u, hturn, hu, hxu⟩
  · exact hsame
  · obtain ⟨m, -, s', hload⟩ := hloaded
    have hreaches := SkipChange.reaches_of_mem_updates hu
    have heq := h.eq_of_mem_scriptsOf hturn hreaches hload (SkipChange.reaches_load g d) hxu hx
    exact absurd (heq ▸ hreaches) (hnot c s hturn)

/-- **What was sent last for a loaded source is what the last turn computed that reached it.** -/
theorem Sourced.exists_last_turn (h : World.start.Sourced actions k g)
    (hloaded : World.start.LoadedBefore actions n k d) :
    ∃ m < n, ∃ c s, World.start.TurnAt actions m k c s ∧ c.Reaches g d ∧
      (∀ i, m < i → i < n → ∀ c' s', World.start.TurnAt actions i k c' s' → ¬ c'.Reaches g d) ∧
      ∀ x ∈ g.scriptsOf d, latest k x (World.start.heard actions n) =
        Ranges.compute (c.revise g s.policy) g d := by
  induction n with
  | zero =>
    obtain ⟨m, hm, -⟩ := hloaded
    exact absurd hm (Nat.not_lt_zero m)
  | succ n ih =>
    by_cases hreached : ∃ c s, World.start.TurnAt actions n k c s ∧ c.Reaches g d
    · obtain ⟨c, s, hturn, hreaches⟩ := hreached
      refine ⟨n, Nat.lt_succ_self n, c, s, hturn, hreaches, fun i hi hin => ?_, fun x hx =>
        h.latest_of_reaches hturn hreaches hx⟩
      exact absurd hin (Nat.not_lt_of_le hi)
    · have hnot : ∀ c s, World.start.TurnAt actions n k c s → ¬ c.Reaches g d :=
        fun c s hturn hreaches => hreached ⟨c, s, hturn, hreaches⟩
      have hbefore := hloaded.of_not_reaches hnot
      obtain ⟨m, hm, c, s, hturn, hreaches, hlast, hsent⟩ := ih hbefore
      refine ⟨m, Nat.lt_succ_of_lt hm, c, s, hturn, hreaches, fun i hi hin => ?_, fun x hx => ?_⟩
      · rcases Nat.lt_succ_iff_lt_or_eq.mp hin with hin | rfl
        · exact hlast i hi hin
        · exact hnot
      · rw [h.latest_of_not_reaches hbefore hx hnot]
        exact hsent x hx

/-! ## Sessions from one moment to the next -/

/-- A session that has loaded a source and lives has lived before: a number that has been given out
is not given out again. -/
theorem LoadedBefore.exists_session (h : World.start.LoadedBefore actions n k d) {s' : Skipper}
    (hs' : (World.start.before actions (n + 1)).sessions.get? k = some s') :
    ∃ s, (World.start.before actions n).sessions.get? k = some s := by
  obtain ⟨m, hm, s, j, refused, -, hplans⟩ := h
  exact exists_session_before (seated_before actions n)
    (lt_nextListener_before (Nat.le_of_lt hm) hplans.session) hs'

/-- After a turn a session has the policy that the change has made. -/
theorem Sourced.policy_succ (h : World.start.Sourced actions k g)
    (hturn : World.start.TurnAt actions n k c s) {s' : Skipper}
    (hs' : (World.start.before actions (n + 1)).sessions.get? k = some s') :
    s'.policy = c.revise g s.policy := by
  rw [hturn.policy_succ hs', h.graph_eq hturn]

/-! ## When all ranges are up to date -/

/-- At this moment of a run, what was sent last for every loaded source is what its ranges are. -/
def FreshAt (w : World) (actions : List Action) (n : Nat) (k : Listener) (g : SourceGraph) : Prop :=
  ∀ s, (w.before actions n).sessions.get? k = some s → ∀ d, w.LoadedBefore actions n k d →
    ∀ x ∈ g.scriptsOf d, latest k x (w.heard actions n) = Ranges.compute s.policy g d

/-- The step at this moment of a run does not alter the ranges of any loaded source that some script
runs, unless it is a turn that reaches the source. -/
def ThoroughAt (w : World) (actions : List Action) (n : Nat) (k : Listener) (g : SourceGraph) :
    Prop :=
  ∀ s s', (w.before actions n).sessions.get? k = some s →
    (w.before actions (n + 1)).sessions.get? k = some s' →
    ∀ d, w.LoadedBefore actions n k d → g.scriptsOf d ≠ [] →
      Ranges.compute s'.policy g d ≠ Ranges.compute s.policy g d →
        ∃ c, w.TurnAt actions n k c s ∧ c.Reaches g d

theorem Sourced.thoroughAt (h : World.start.Sourced actions k g)
    (hbefore : World.start.FreshAt actions n k g)
    (hafter : World.start.FreshAt actions (n + 1) k g) : World.start.ThoroughAt actions n k g := by
  intro s s' hs hs' d hloaded hscripts haltered
  by_contra hnone
  have hnot : ∀ c t, World.start.TurnAt actions n k c t → ¬ c.Reaches g d := by
    intro c t hturn hreaches
    obtain ⟨j, refused, hn, hplans⟩ := hturn
    obtain rfl : s = t := Option.some.inj (hs.symm.trans hplans.session)
    exact hnone ⟨c, ⟨j, refused, hn, hplans⟩, hreaches⟩
  obtain ⟨x, hx⟩ := List.exists_mem_of_ne_nil _ hscripts
  refine haltered ?_
  rw [← hafter s' hs' d (hloaded.mono (Nat.le_succ n)) x hx,
    h.latest_of_not_reaches hloaded hx hnot, hbefore s hs d hloaded x hx]

theorem Sourced.freshAt_succ (h : World.start.Sourced actions k g)
    (hfresh : World.start.FreshAt actions n k g) (hstep : World.start.ThoroughAt actions n k g) :
    World.start.FreshAt actions (n + 1) k g := by
  intro s' hs' d hloaded x hx
  by_cases hreached : ∃ c s, World.start.TurnAt actions n k c s ∧ c.Reaches g d
  · obtain ⟨c, s, hturn, hreaches⟩ := hreached
    rw [h.latest_of_reaches hturn hreaches hx, h.policy_succ hturn hs']
  · have hnot : ∀ c s, World.start.TurnAt actions n k c s → ¬ c.Reaches g d :=
      fun c s hturn hreaches => hreached ⟨c, s, hturn, hreaches⟩
    have hbefore := hloaded.of_not_reaches hnot
    obtain ⟨s, hs⟩ := hbefore.exists_session hs'
    rw [h.latest_of_not_reaches hbefore hx hnot, hfresh s hs d hbefore x hx]
    by_contra haltered
    obtain ⟨c, hturn, hreaches⟩ :=
      hstep s s' hs hs' d hbefore (List.ne_nil_of_mem hx) (Ne.symm haltered)
    exact hnot c s hturn hreaches

end World

/-- **When the ranges of all loaded sources are up to date.**  What was sent last for a loaded
source is always what the last turn computed that reached it.  And up to any moment of a run, what
was sent last for every loaded source has been what its ranges are exactly if no step has altered
the ranges of a loaded source but turns that reach it. -/
theorem ranges_fresh_iff {actions : List Action} {k : Listener} {g : SourceGraph}
    (h : World.start.Sourced actions k g) (N : Nat) :
    (∀ d, World.start.LoadedBefore actions N k d →
      ∃ m < N, ∃ c s, World.start.TurnAt actions m k c s ∧ c.Reaches g d ∧
        (∀ i, m < i → i < N → ∀ c' s', World.start.TurnAt actions i k c' s' → ¬ c'.Reaches g d) ∧
        ∀ x ∈ g.scriptsOf d, latest k x (World.start.heard actions N) =
          Ranges.compute (c.revise g s.policy) g d) ∧
    ((∀ n ≤ N, World.start.FreshAt actions n k g) ↔
      ∀ n < N, World.start.ThoroughAt actions n k g) := by
  refine ⟨fun d hloaded => h.exists_last_turn hloaded, fun hfresh n hn => ?_, fun hthorough n => ?_⟩
  · exact h.thoroughAt (hfresh n (Nat.le_of_lt hn)) (hfresh (n + 1) hn)
  · induction n with
    | zero =>
      rintro - s - d ⟨m, hm, -⟩
      exact absurd hm (Nat.not_lt_zero m)
    | succ n ih => exact fun hn => h.freshAt_succ (ih (Nat.le_of_lt hn)) (hthorough n hn)

/-! ## Two bundles of one file -/

/-- Two scripts that run a bundle each; both bundles list one file. -/
def sharing : SourceGraph :=
  (((SourceGraph.empty.addScript ⟨1, "/app/a.js"⟩ ⟨"10"⟩).addMapped ⟨1, "/app/a.js"⟩
    ⟨⟨3, "/app/lib.ts"⟩, ⟨9, 0⟩⟩ .start ⟨9, 0⟩).addScript ⟨2, "/app/b.js"⟩ ⟨"20"⟩).addMapped
      ⟨2, "/app/b.js"⟩ ⟨⟨3, "/app/lib.ts"⟩, ⟨9, 0⟩⟩ .start ⟨9, 0⟩

/-- Both bundles are loaded, and then the first one is toggled as a whole. -/
def wholesale : List Action :=
  [.openSession ⟨⟨"page"⟩, ⟨"page"⟩, lenient, sharing, 500, false⟩,
    .begin ⟨0⟩ (.load ⟨0⟩ ⟨1, "/app/a.js"⟩), .proceed ⟨0⟩ [], .proceed ⟨0⟩ [],
    .begin ⟨1⟩ (.load ⟨0⟩ ⟨2, "/app/b.js"⟩), .proceed ⟨1⟩ [], .proceed ⟨1⟩ [],
    .begin ⟨2⟩ (.toggle ⟨0⟩ (.resource "/app/a.js")), .proceed ⟨2⟩ [], .proceed ⟨2⟩ []]

theorem walk_sharing_first : sharing.walk ⟨1, "/app/a.js"⟩ =
    .node ⟨1, "/app/a.js"⟩ [(⟨⟨3, "/app/lib.ts"⟩, ⟨9, 0⟩⟩, .node ⟨3, "/app/lib.ts"⟩ [])] := by
  cbv

theorem walk_sharing_second : sharing.walk ⟨2, "/app/b.js"⟩ =
    .node ⟨2, "/app/b.js"⟩ [(⟨⟨3, "/app/lib.ts"⟩, ⟨9, 0⟩⟩, .node ⟨3, "/app/lib.ts"⟩ [])] := by
  cbv

/-- The policy once the file has been recorded as not skipped. -/
def recorded : SkipPolicy :=
  lenient.setOverride "/app/lib.ts" false

theorem propagate_sharing_first :
    Ranges.propagate lenient sharing ⟨1, "/app/a.js"⟩ = recorded := by
  rw [Ranges.propagate, walk_sharing_first]
  rfl

theorem propagate_sharing_second :
    Ranges.propagate recorded sharing ⟨2, "/app/b.js"⟩ = recorded := by
  rw [Ranges.propagate, walk_sharing_second]
  rfl

/-- What is decided about the first bundle. -/
def wholeDecision : SkipChange :=
  .decide "/app/a.js" (some ⟨1, "/app/a.js"⟩) true

/-- The turns of the run, and what they find. -/
theorem turns_wholesale {n : Nat} {c : SkipChange} {s : Skipper}
    (h : World.start.TurnAt wholesale n ⟨0⟩ c s) :
    n = 2 ∧ c = .load ⟨1, "/app/a.js"⟩ ∧ s.policy = lenient ∨
      n = 5 ∧ c = .load ⟨2, "/app/b.js"⟩ ∧ s.policy = recorded ∨
      n = 8 ∧ c = wholeDecision ∧ s.policy = recorded := by
  obtain ⟨j, refused, hn, ⟨keeps, sequel, hjob⟩, hs, -⟩ := h
  have hlen : n < 10 := (List.getElem?_eq_some_iff.mp hn).1
  have hpolicy : Ranges.propagate (Ranges.propagate lenient sharing ⟨1, "/app/a.js"⟩) sharing
      ⟨2, "/app/b.js"⟩ = recorded := by rw [propagate_sharing_first, propagate_sharing_second]
  interval_cases n
  · cases hn
  · cases hn
  · cases hn
    cases hjob
    cases hs
    exact Or.inl ⟨rfl, rfl, rfl⟩
  · cases hn
    cases hjob
  · cases hn
  · cases hn
    cases hjob
    cases hs
    exact Or.inr (Or.inl ⟨rfl, rfl, propagate_sharing_first⟩)
  · cases hn
    cases hjob
  · cases hn
  · cases hn
    cases hs
    have hwas : ∀ p, p = recorded → SkipChange.decide "/app/a.js" (some ⟨1, "/app/a.js"⟩)
        (!p.isSkipped "/app/a.js") = wholeDecision := by
      rintro _ rfl
      decide
    cases hjob
    exact Or.inr (Or.inr ⟨rfl, hwas _ hpolicy, hpolicy⟩)
  · cases hn
    cases hjob

theorem levels_sharing_first :
    Ranges.levels (sharing.walk ⟨1, "/app/a.js"⟩) = [⟨1, "/app/a.js"⟩] := by
  rw [walk_sharing_first]
  rfl

theorem levels_sharing_second :
    Ranges.levels (sharing.walk ⟨2, "/app/b.js"⟩) = [⟨2, "/app/b.js"⟩] := by
  rw [walk_sharing_second]
  rfl

/-- The turns of the first bundle reach this bundle only, and the turn of the second one reaches the
second one only. -/
theorem reaches_wholesale {n : Nat} {c : SkipChange} {s : Skipper} {d : Source}
    (h : World.start.TurnAt wholesale n ⟨0⟩ c s) (hd : c.Reaches sharing d) :
    d = ⟨1, "/app/a.js"⟩ ∨ d = ⟨2, "/app/b.js"⟩ ∧ n = 5 ∧ c = .load ⟨2, "/app/b.js"⟩ ∧
      s.policy = recorded := by
  have hfirst : ∀ c : SkipChange, c.origins sharing = [⟨1, "/app/a.js"⟩] → c.Reaches sharing d →
      d = ⟨1, "/app/a.js"⟩ := by
    rintro c horigins ⟨o, ho, hlevel⟩
    rw [horigins, List.mem_singleton] at ho
    rw [ho, levels_sharing_first, List.mem_singleton, or_self] at hlevel
    exact hlevel
  rcases turns_wholesale h with ⟨-, rfl, -⟩ | ⟨hn, rfl, hpolicy⟩ | ⟨-, rfl, -⟩
  · exact Or.inl (hfirst _ rfl hd)
  · obtain ⟨o, ho, hlevel⟩ := hd
    rw [List.mem_singleton.mp ho, levels_sharing_second, List.mem_singleton, or_self] at hlevel
    exact Or.inr ⟨hlevel, hn, rfl, hpolicy⟩
  · exact Or.inl (hfirst _ (by decide) hd)

theorem sourced_wholesale : World.start.Sourced wholesale ⟨0⟩ sharing where
  graph n s hs := by
    refine World.graph_before (fun o ho => ?_) (fun g' => by simp [wholesale]) hs
    have hopen : o = ⟨⟨"page"⟩, ⟨"page"⟩, lenient, sharing, 500, false⟩ := by
      simpa [wholesale] using ho
    rw [hopen]
  unshared := .of_entries (by decide) (by decide) (by decide)
  known n c s d hturn hd := by
    rcases reaches_wholesale hturn hd with rfl | ⟨rfl, -⟩ <;> decide

theorem loadedBefore_wholesale :
    World.start.LoadedBefore wholesale 10 ⟨0⟩ ⟨2, "/app/b.js"⟩ :=
  ⟨5, by decide, _, ⟨1⟩, [], rfl, ⟨_, _, rfl⟩, rfl, rfl⟩

/-- The second bundle is never told anything: when it was loaded, it had no ranges. -/
theorem latest_wholesale : latest ⟨0⟩ ⟨"20"⟩ (World.start.heard wholesale 10) = [] := by
  obtain ⟨m, -, c, s, hturn, hd, -, hlatest⟩ :=
    sourced_wholesale.exists_last_turn loadedBefore_wholesale
  have hx : (⟨"20"⟩ : ScriptId) ∈ sharing.scriptsOf ⟨2, "/app/b.js"⟩ := by decide
  rw [hlatest _ hx]
  rcases reaches_wholesale hturn hd with hfirst | ⟨-, -, rfl, hpolicy⟩
  · exact absurd hfirst (by decide)
  · rw [SkipChange.revise, hpolicy, propagate_sharing_second]
    decide +kernel

/-- The policy once the first bundle is skipped, and the file with it. -/
def whole : SkipPolicy :=
  (recorded.setExplicitSkip "/app/a.js" true).setOverride "/app/lib.ts" true

theorem revise_wholeDecision : wholeDecision.revise sharing recorded = whole := by
  have hforce : wholeDecision.revise sharing recorded =
      Ranges.force (recorded.setExplicitSkip "/app/a.js" true) sharing ⟨1, "/app/a.js"⟩ true := rfl
  rw [hforce, Ranges.force, walk_sharing_first]
  rfl

theorem compute_whole :
    Ranges.compute whole sharing ⟨2, "/app/b.js"⟩ = [⟨0, 0⟩, ⟨9, 0⟩] := by
  decide +kernel

/-- Whatever the session thinks of the bundle, the toggle ends when its ranges are answered, as
there are no siblings to tell. -/
theorem jobs_wholesale : (World.start.before wholesale 10).jobs = .empty := by
  rw [World.before_succ (a := .proceed ⟨2⟩ []) rfl]
  refine (World.jobs_proceed_of_alone (w := World.start.before wholesale 9) (j := ⟨2⟩) rfl rfl ?_
    []).trans rfl
  rintro ⟨root, origin, url, skipped⟩ rfl rfl
  rfl

theorem exists_wholesale : ∃ s, (World.start.before wholesale 10).sessions.get? ⟨0⟩ = some s := by
  rw [World.before_succ (a := .proceed ⟨2⟩ []) rfl]
  obtain ⟨s, hs, -⟩ := World.exists_act_of_isOwned (World.seated_before wholesale 9) rfl rfl
    (a := .proceed ⟨2⟩ []) (k := ⟨0⟩) (by simp)
  exact ⟨s, hs⟩

theorem policy_wholesale {s : Skipper}
    (hs : (World.start.before wholesale 10).sessions.get? ⟨0⟩ = some s) : s.policy = whole := by
  have hturn : World.start.TurnAt wholesale 8 ⟨0⟩ _ _ := ⟨⟨2⟩, [], rfl, ⟨_, _, rfl⟩, rfl, rfl⟩
  rcases World.session_before_succ (a := .proceed ⟨2⟩ []) (World.seated_before wholesale 9) rfl hs
    with ⟨o, _, ho, -⟩ | ⟨t, ht, hdeed⟩
  · cases ho
  have hbefore := sourced_wholesale.policy_succ hturn ht
  rcases turns_wholesale hturn with ⟨hn, -⟩ | ⟨hn, -⟩ | ⟨-, hc, hpolicy⟩
  · cases hn
  · cases hn
  rw [hc, hpolicy, revise_wholeDecision] at hbefore
  rcases hdeed.policy_cases with hsame | ⟨j, refused, c, ha, hplans, -⟩ | ⟨reply, names, ha, -⟩
  · rw [hsame, hbefore]
  · have hlate : World.start.TurnAt wholesale 9 ⟨0⟩ c t := ⟨j, refused, congrArg some ha, hplans⟩
    rcases turns_wholesale hlate with ⟨hn, -⟩ | ⟨hn, -⟩ | ⟨hn, -⟩ <;> cases hn
  · cases ha

theorem not_freshAt_wholesale : ¬ World.start.FreshAt wholesale 10 ⟨0⟩ sharing := by
  intro hfresh
  obtain ⟨s, hs⟩ := exists_wholesale
  have hx : (⟨"20"⟩ : ScriptId) ∈ sharing.scriptsOf ⟨2, "/app/b.js"⟩ := by decide
  have heq := hfresh s hs ⟨2, "/app/b.js"⟩ loadedBefore_wholesale _ hx
  rw [latest_wholesale, policy_wholesale hs, compute_whole] at heq
  cases heq

/-- **A file of two bundles gets out of date** when one of the bundles is toggled as a whole.  All
operations are over, and the runtime has never been told about the script of the other bundle, whose
ranges are those of the file now. -/
theorem shared_file_outdated :
    World.start.Sourced wholesale ⟨0⟩ sharing ∧
    (World.start.before wholesale 10).jobs = .empty ∧
    World.start.LoadedBefore wholesale 10 ⟨0⟩ ⟨2, "/app/b.js"⟩ ∧
    (⟨"20"⟩ : ScriptId) ∈ sharing.scriptsOf ⟨2, "/app/b.js"⟩ ∧
    latest ⟨0⟩ ⟨"20"⟩ (World.start.heard wholesale 10) = [] ∧
    ∃ s, (World.start.before wholesale 10).sessions.get? ⟨0⟩ = some s ∧
      Ranges.compute s.policy sharing ⟨2, "/app/b.js"⟩ = [⟨0, 0⟩, ⟨9, 0⟩] := by
  obtain ⟨s, hs⟩ := exists_wholesale
  refine ⟨sourced_wholesale, jobs_wholesale, loadedBefore_wholesale, by decide, latest_wholesale, s,
    hs, ?_⟩
  rw [policy_wholesale hs, compute_whole]

/-- One of the steps of this run alters ranges that it does not reach. -/
theorem ranges_fresh_iff_wholesale : World.start.Sourced wholesale ⟨0⟩ sharing ∧
    ∃ n < 10, ¬ World.start.ThoroughAt wholesale n ⟨0⟩ sharing := by
  refine ⟨sourced_wholesale, ?_⟩
  by_contra hthorough
  have hfresh := (ranges_fresh_iff sourced_wholesale 10).2.mpr fun n hn =>
    not_not.mp fun hnot => hthorough ⟨n, hn, hnot⟩
  exact not_freshAt_wholesale (hfresh 10 (Nat.le_refl 10))

end Skipper
end DebugTree
