import DebugTree.Proofs.Skipper.Batches
import DebugTree.Proofs.Skipper.Deeds
import Mathlib.Data.List.Chain
import Mathlib.Tactic.IntervalCases

/-!
# Ranges in the runtime

A session never asks its runtime which scripts have ranges.  It remembers what it sent, and brings
the memory up to date while it puts a batch together.  Since the batch is sent in the same stretch,
the memory is right at every moment, whether or not an answer is still to come (`InStep`).

The first in line has its turn, and stays the first until its batch has been answered.  So nothing
is sent to the session from when a job plans its batch until the job leaves, whatever is sent to
other sessions meanwhile; what the job sent is still the last word about its scripts when it leaves
(`Awaits.cases_act`).  All of this needs a graph in which no script runs two sources: ranges of one
source would count as ranges of the other.
-/

namespace DebugTree
namespace Skipper

theorem comesOf_carryOut (s : Skipper) (c : SkipChange) :
    RangePlan.ComesOf ⟨(s.carryOut c).1, (s.carryOut c).2.skipping⟩ s.skipping
      (RangePlan.calls s.graph (c.updates s.graph (c.revise s.graph s.policy))) :=
  RangePlan.comesOf_ofUpdates _ _ _

namespace World

variable {w w' : World} {j : JobId} {k k' : Listener} {c : SkipChange} {s : Skipper}
  {batch : RangeBatch} {seen more : List Event} {actions : List Action} {n : Nat}

/-! ## What a turn does -/

theorem Plans.proceed_eq (h : w.Plans j k c s) (refused : List ScriptId) :
    ∃ keeps sequel, w.proceed j refused =
      ((w.update k fun _ => (s.carryOut c).2).suspend j keeps
        (.ranges k (s.carryOut c).1 (c.renewsPatterns s.graph) sequel),
       if (s.carryOut c).1.entries.isEmpty then [] else [.rangesSent k (s.carryOut c).1]) := by
  obtain ⟨keeps, sequel, hjob⟩ := h.job
  exact ⟨keeps, sequel, proceed_turn hjob h.session h.turn⟩

theorem Plans.get?_sessions (h : w.Plans j k c s) (refused : List ScriptId) (k' : Listener) :
    (w.proceed j refused).1.sessions.get? k' =
      if k = k' then some (s.carryOut c).2 else w.sessions.get? k' := by
  obtain ⟨keeps, sequel, heq⟩ := h.proceed_eq refused
  rw [heq]
  refine (Index.get?_modify _ _ _ _).trans ?_
  rw [h.session, Option.map_some]

/-- Whoever has his turn at a session keeps it alive. -/
theorem Plans.get?_act (h : w.Plans j k c s) (hin : w.InLine) (hseated : w.Seated)
    (refused : List ScriptId) :
    (w.act (.proceed j refused)).1.sessions.get? k = some (s.carryOut c).2 := by
  obtain ⟨keeps, sequel, hjob⟩ := h.job
  have hk : k ∈ keeps := hin.lined.kept j _ hjob k List.mem_cons_self
  have hafter := h.get?_sessions refused k
  rw [if_pos rfl] at hafter
  refine get?_act_of_isKept hseated hafter ?_
  rw [take, proceed_turn hjob h.session h.turn]
  exact isKept_of_mem_keeps (Index.get?_insert_self _ _ _) hk _

theorem Plans.sent (h : w.Plans j k c s) (refused : List ScriptId) :
    (w.proceed j refused).2 =
      if (s.carryOut c).1.entries.isEmpty then [] else [.rangesSent k (s.carryOut c).1] := by
  obtain ⟨keeps, sequel, heq⟩ := h.proceed_eq refused
  rw [heq]

theorem Plans.sentTo_of_ne (h : w.Plans j k c s) (refused : List ScriptId) (hk : k ≠ k') :
    sentTo k' (w.proceed j refused).2 = [] := by
  rw [h.sent]
  split
  · rfl
  · exact List.filterMap_cons_none (if_neg hk)

/-! ## What a session remembers -/

/-- What a session remembers of its scripts is what was sent to it; it clears the ranges of a script
only if the script has some. -/
structure InStep (w : World) (k : Listener) (seen : List Event) : Prop where
  nodup : ∀ batch ∈ sentTo k seen, batch.keys.Nodup
  alternate : ∀ x, ([] :: issued k x seen).IsChain fun ps qs => ¬ (ps = [] ∧ qs = [])
  skipping : ∀ s, w.sessions.get? k = some s → ∀ x, x ∈ s.skipping ↔ latest k x seen ≠ []
  fresh : w.nextListener ≤ k.number → sentTo k seen = []

theorem inStep_start (k : Listener) : start.InStep k [] where
  nodup _ hbatch := absurd hbatch List.not_mem_nil
  alternate _ := List.isChain_singleton _
  skipping _ hs := absurd hs (by simp [start])
  fresh _ := rfl

/-- Nothing is sent to the session, and it is gone or remembers what it did. -/
theorem InStep.quiet (h : w.InStep k seen) (hsent : sentTo k more = [])
    (hnext : w.nextListener ≤ w'.nextListener)
    (hold : ∀ s', w'.sessions.get? k = some s' →
      ∃ s, w.sessions.get? k = some s ∧ s'.skipping = s.skipping) :
    w'.InStep k (seen ++ more) where
  nodup := by
    rw [sentTo_append, hsent, List.append_nil]
    exact h.nodup
  alternate x := by
    rw [issued_append_of_sentTo_eq_nil hsent]
    exact h.alternate x
  skipping s' hs' x := by
    obtain ⟨s, hs, heq⟩ := hold s' hs'
    rw [heq, latest_append_of_sentTo_eq_nil hsent]
    exact h.skipping s hs x
  fresh hk := by
    rw [sentTo_append, hsent, List.append_nil]
    exact h.fresh (Nat.le_trans hnext hk)

theorem InStep.reap (h : w.InStep k seen) (hseated : w.Seated) : w.reap.InStep k seen := by
  rw [← List.append_nil seen]
  refine h.quiet rfl (Nat.le_refl _) fun s hs => ⟨s, ?_, rfl⟩
  rw [World.reap, Index.get?_filter hseated.nodup, Option.filter_eq_some_iff] at hs
  exact hs.1

/-- A session opens without any memory, and nothing was ever sent to it. -/
theorem InStep.openSession (h : w.InStep k seen) (o : Opening) :
    (w.openSession o).2.InStep k (seen ++ []) := by
  rw [List.append_nil]
  refine ⟨h.nodup, h.alternate, fun s hs x => ?_, fun hk => h.fresh (Nat.le_of_succ_le hk)⟩
  rcases Index.of_get?_insert_eq_some hs with ⟨rfl, rfl⟩ | hs
  · have hnone : latest ⟨w.nextListener⟩ x seen = [] := by
      rw [latest, issued, h.fresh (Nat.le_refl _)]
      rfl
    exact iff_of_false List.not_mem_nil (not_not.mpr hnone)
  · exact h.skipping s hs x

theorem InStep.unplanned (h : w.InStep k seen) {r : World × List Event} (hr : w.Unplanned r)
    (hnext : w.nextListener ≤ r.1.nextListener) : r.1.InStep k (seen ++ r.2) := by
  refine h.quiet (hr.unsent k) hnext fun s' hs' => ?_
  have hmap := hr.skipping k
  rw [hs', Option.map_some] at hmap
  obtain ⟨s, hs, heq⟩ := Option.map_eq_some_iff.mp hmap.symm
  exact ⟨s, hs, heq.symm⟩

/-- An empty list goes only to scripts that the session remembers, so it follows one that is not
empty. -/
theorem InStep.alternate_append (h : w.InStep k seen) (hs : w.sessions.get? k = some s)
    {plan : RangePlan} {calls : List (ScriptId × List Position)}
    (hcomes : plan.ComesOf s.skipping calls)
    (hunique : ∀ x ps qs, (x, ps) ∈ calls → (x, qs) ∈ calls → ps = qs) (x : ScriptId) :
    ([] :: (issued k x seen ++ (plan.batch.get? x).toList)).IsChain
      fun ps qs => ¬ (ps = [] ∧ qs = []) := by
  cases hx : plan.batch.get? x with
  | none =>
    rw [Option.toList_none, List.append_nil]
    exact h.alternate x
  | some ps =>
    rw [Option.toList_some, ← List.cons_append, List.isChain_append]
    refine ⟨h.alternate x, List.isChain_singleton _, fun qs hqs ps' hps' => ?_⟩
    rintro ⟨rfl, rfl⟩
    obtain rfl : ps = [] := Option.some.inj hps'
    refine (h.skipping s hs x).mp (hcomes.mem_had hunique hx) ?_
    rw [List.getLast?_cons] at hqs
    exact Option.some.inj hqs

/-- A turn changes what is sent and what is remembered in the same way. -/
theorem InStep.turn (h : w.InStep k seen) (hseated : w.Seated) (hplans : w.Plans j k c s)
    (hg : s.graph.Unshared) (refused : List ScriptId) :
    (w.proceed j refused).1.InStep k (seen ++ (w.proceed j refused).2) := by
  have hcomes := comesOf_carryOut s c
  rw [hplans.sent]
  refine ⟨fun batch hbatch => ?_, fun x => ?_, fun s' hs' x => ?_, fun hk => ?_⟩
  · rw [sentTo_append, List.mem_append] at hbatch
    rcases hbatch with hbatch | hbatch
    · exact h.nodup batch hbatch
    · rw [mem_sentTo_iff] at hbatch
      split at hbatch
      · exact absurd hbatch List.not_mem_nil
      · obtain ⟨-, rfl⟩ := Event.rangesSent.inj (List.mem_singleton.mp hbatch)
        exact hcomes.nodup
  · rw [issued_append_batch]
    exact h.alternate_append hplans.session hcomes
      (fun _ _ _ => SkipChange.calls_unique hg _ c) x
  · rw [hplans.get?_sessions, if_pos rfl] at hs'
    rw [latest_append_batch, ← Option.some.inj hs']
    cases hx : (s.carryOut c).1.get? x with
    | none => exact (hcomes.unsent x hx).1.trans (h.skipping s hplans.session x)
    | some ps => exact (hcomes.sent x ps hx).2
  · have halive := hseated.fresh _ (seat_mem_of_get? hplans.session)
    rw [(evolves_proceed j refused).nextListener_eq] at hk
    exact absurd hk (Nat.not_le_of_lt halive)

/-- **What was sent for a source is what was computed for it**, whether or not it had to be sent. -/
theorem InStep.latest_turn (h : w.InStep k seen) (hplans : w.Plans j k c s)
    (hg : s.graph.Unshared) (refused : List ScriptId) {u : Ranges.Update}
    (hu : u ∈ c.updates s.graph (c.revise s.graph s.policy)) {x : ScriptId}
    (hx : x ∈ s.graph.scriptsOf u.source) :
    latest k x (seen ++ (w.proceed j refused).2) =
      Ranges.compute (c.revise s.graph s.policy) s.graph u.source := by
  obtain ⟨-, -, -, hps⟩ := SkipChange.mem_updates_iff.mp hu
  have hcall := RangePlan.mem_calls_iff.mpr ⟨u, hu, hx, hps⟩
  rw [hplans.sent, latest_append_batch]
  rcases (comesOf_carryOut s c).get?_of_mem (fun _ _ _ => SkipChange.calls_unique hg _ c) hcall with
    hsent | ⟨hnone, hempty, hhad⟩
  · rw [hsent, Option.getD_some]
  · rw [hnone, Option.getD_none, hempty]
    exact not_not.mp (mt (h.skipping s hplans.session x).mpr hhad)

/-- **Every step keeps the memory right.** -/
theorem InStep.take (h : w.InStep k seen) (hseated : w.Seated)
    (hg : ∀ s, w.sessions.get? k = some s → s.graph.Unshared) (a : Action) :
    (w.take a).1.InStep k (seen ++ (w.take a).2) := by
  rcases w.take_cases a with ⟨o, rfl⟩ | hr | ⟨j, refused, k', c, s, rfl, hplans⟩
  · exact h.openSession o
  · exact h.unplanned hr (w.nextListener_le_take a)
  · change (w.proceed j refused).1.InStep k (seen ++ (w.proceed j refused).2)
    by_cases hk : k' = k
    · subst hk
      exact h.turn hseated hplans (hg s hplans.session) refused
    · refine h.quiet (hplans.sentTo_of_ne refused hk)
        (w.nextListener_le_take (.proceed j refused)) fun s' hs' => ⟨s', ?_, rfl⟩
      rwa [hplans.get?_sessions, if_neg hk] at hs'

theorem InStep.act (h : w.InStep k seen) (hseated : w.Seated)
    (hg : ∀ s, w.sessions.get? k = some s → s.graph.Unshared) (a : Action) :
    (w.act a).1.InStep k (seen ++ (w.act a).2) :=
  (h.take hseated hg a).reap (hseated.take a)

theorem InStep.before (h : w.InStep k []) (hin : w.InLine) (hseated : w.Seated)
    (hg : ∀ n s, (w.before actions n).sessions.get? k = some s → s.graph.Unshared) (n : Nat) :
    (w.before actions n).InStep k (w.heard actions n) := by
  induction n with
  | zero => rwa [before_zero, heard_zero]
  | succ n ih =>
    cases hn : actions[n]? with
    | none => rwa [before_succ_of_none hn, heard_succ_of_none hn]
    | some a =>
      rw [before_succ hn, heard_succ hn]
      exact ih.act (hin.before hseated actions n).2 (hg n) a

/-! ## While a batch is on its way -/

theorem Awaits.not_plans (h : w.Awaits j k batch) : ¬ w.Plans j k' c s := by
  intro hplans
  obtain ⟨keeps, renews, sequel, hjob⟩ := h
  obtain ⟨keeps', sequel', hjob'⟩ := hplans.job
  rw [hjob] at hjob'
  cases hjob'

/-- **A job that waits for an answer has just sent its batch, or has waited before and nothing was
sent to the session meanwhile.**  Nobody else has his turn there, as the job is the first in
line. -/
theorem Awaits.cases_act (hin : w.InLine) {a : Action} (h : (w.act a).1.Awaits j k batch) :
    (w.Awaits j k batch ∧ sentTo k (w.act a).2 = []) ∨
      ∃ refused c s, a = .proceed j refused ∧ w.Plans j k c s ∧ (s.carryOut c).1 = batch := by
  obtain ⟨keeps, renews, sequel, hjob⟩ := h
  rcases w.take_cases a with ⟨o, rfl⟩ | hr | ⟨j', refused, k', c, s, rfl, hplans⟩
  · exact Or.inl ⟨⟨keeps, renews, sequel, hjob⟩, rfl⟩
  · exact Or.inl ⟨⟨keeps, renews, sequel, hr.waiting j _ hjob trivial⟩, hr.unsent k⟩
  · obtain ⟨keeps', sequel', heq⟩ := hplans.proceed_eq refused
    have hjob' : (w.proceed j' refused).1.jobs.get? j =
        some ⟨keeps, .ranges k batch renews sequel⟩ := hjob
    rw [heq] at hjob'
    rcases Index.of_get?_insert_eq_some hjob' with ⟨rfl, hnew⟩ | hold
    · injection hnew with _ hwait
      obtain ⟨rfl, hbatch, -, -⟩ := Wait.ranges.inj hwait
      exact Or.inr ⟨refused, c, s, rfl, hplans, hbatch⟩
    · have hawaits : w.Awaits j k batch := ⟨keeps, renews, sequel, hold⟩
      refine Or.inl ⟨hawaits, hplans.sentTo_of_ne refused ?_⟩
      rintro rfl
      have hfirst := hin.lined.first j _ k' s hold trivial rfl hplans.session
      rw [of_decide_eq_true hplans.turn, Option.some.injEq] at hfirst
      exact hawaits.not_plans (hfirst ▸ hplans)

/-- Nothing is sent when the answer comes. -/
theorem Awaits.sentTo_act (h : w.Awaits j k batch) (refused : List ScriptId) (k' : Listener) :
    sentTo k' (w.act (.proceed j refused)).2 = [] := by
  rcases w.proceed_cases j refused with hr | ⟨k₁, c, s, hplans⟩
  · exact hr.unsent k'
  · exact absurd hplans h.not_plans

/-- A job that waits for an answer at some moment has planned its batch before, has waited since,
and what it sent is still the last word about every source that it had computed. -/
theorem Awaits.exists_plans (hstart : w.InStep k []) (hin : w.InLine) (hseated : w.Seated)
    (hg : ∀ n s, (w.before actions n).sessions.get? k = some s → s.graph.Unshared)
    (hnone : ∀ j batch, ¬ w.Awaits j k batch) (h : (w.before actions n).Awaits j k batch) :
    ∃ m < n, ∃ c s, (w.before actions m).Plans j k c s ∧ (s.carryOut c).1 = batch ∧
      (∀ i, m < i → i ≤ n → (w.before actions i).Awaits j k batch) ∧
      ∀ u ∈ c.updates s.graph (c.revise s.graph s.policy), ∀ x ∈ s.graph.scriptsOf u.source,
        latest k x (w.heard actions n) =
          Ranges.compute (c.revise s.graph s.policy) s.graph u.source := by
  induction n with
  | zero =>
    rw [before_zero] at h
    exact absurd h (hnone j batch)
  | succ n ih =>
    have hextend : (∀ m, (∀ i, m < i → i ≤ n → (w.before actions i).Awaits j k batch) →
        ∀ i, m < i → i ≤ n + 1 → (w.before actions i).Awaits j k batch) := by
      intro m hm i hi hin
      rcases Nat.le_succ_iff.mp hin with hin | rfl
      · exact hm i hi hin
      · exact h
    cases hn : actions[n]? with
    | none =>
      rw [before_succ_of_none hn] at h
      obtain ⟨m, hm, c, s, hplans, hbatch, hwait, hlatest⟩ := ih h
      rw [heard_succ_of_none hn]
      exact ⟨m, Nat.lt_succ_of_lt hm, c, s, hplans, hbatch, hextend m hwait, hlatest⟩
    | some a =>
      rw [heard_succ hn]
      have hact := h
      rw [before_succ hn] at hact
      rcases hact.cases_act (hin.before hseated actions n).1 with
        ⟨hbefore, hsent⟩ | ⟨refused, c, s, rfl, hplans, hbatch⟩
      · obtain ⟨m, hm, c, s, hplans, hbatch, hwait, hlatest⟩ := ih hbefore
        refine ⟨m, Nat.lt_succ_of_lt hm, c, s, hplans, hbatch, hextend m hwait, fun u hu x hx => ?_⟩
        rw [latest_append_of_sentTo_eq_nil hsent]
        exact hlatest u hu x hx
      · have hstep := hstart.before hin hseated hg n
        refine ⟨n, Nat.lt_succ_self n, c, s, hplans, hbatch, hextend n fun i hi hin => ?_,
          fun u hu x hx => hstep.latest_turn hplans (hg n s hplans.session) refused hu hx⟩
        exact absurd hin (Nat.not_le_of_lt hi)

end World

/-- **What a session sends for its scripts**, at any moment of any run in which no script of it
runs two sources at a time.  No batch names a script twice.  For each script the first ranges that
are sent are not empty, and no two in a row are.  The scripts that the session remembers are those
whose last ranges were not empty, whether or not an answer is still to come.  And when a job leaves
the line because its batch has been answered, then it planned that batch at some moment before and
has been waiting since, and of every source that it computed then, the last ranges that were sent
for each script are those of the source under the policy that it revised. -/
theorem ranges_spec {actions : List Action} {k : Listener}
    (hgraph : ∀ n s, (World.start.before actions n).sessions.get? k = some s → s.graph.Unshared)
    (n : Nat) :
    (∀ batch, Event.rangesSent k batch ∈ World.start.heard actions n → batch.keys.Nodup) ∧
    (∀ x, (issued k x (World.start.heard actions n)).head? ≠ some [] ∧
      (issued k x (World.start.heard actions n)).IsChain fun ps qs => ¬ (ps = [] ∧ qs = [])) ∧
    (∀ s, (World.start.before actions n).sessions.get? k = some s →
      ∀ x, x ∈ s.skipping ↔ latest k x (World.start.heard actions n) ≠ []) ∧
    ∀ j batch refused, (World.start.before actions n).Awaits j k batch →
      actions[n]? = some (.proceed j refused) →
        ∃ m < n, ∃ c s, (World.start.before actions m).Plans j k c s ∧ (s.carryOut c).1 = batch ∧
          (∀ i, m < i → i ≤ n → (World.start.before actions i).Awaits j k batch) ∧
          ∀ u ∈ c.updates s.graph (c.revise s.graph s.policy), ∀ x ∈ s.graph.scriptsOf u.source,
            latest k x (World.start.heard actions (n + 1)) =
              Ranges.compute (c.revise s.graph s.policy) s.graph u.source := by
  have hstart := World.inStep_start k
  have hstep := hstart.before World.inLine_start World.seated_start hgraph n
  refine ⟨fun batch hbatch => hstep.nodup batch (mem_sentTo_iff.mpr hbatch), fun x => ?_,
    hstep.skipping, fun j batch refused hawaits hn => ?_⟩
  · obtain ⟨hfirst, hrest⟩ := List.isChain_cons.mp (hstep.alternate x)
    exact ⟨fun hhead => hfirst [] hhead ⟨rfl, rfl⟩, hrest⟩
  · have hnone : ∀ j batch, ¬ World.start.Awaits j k batch := by
      rintro j batch ⟨keeps, renews, sequel, hjob⟩
      cases hjob
    obtain ⟨m, hm, c, s, hplans, hbatch, hwait, hlatest⟩ :=
      hawaits.exists_plans hstart World.inLine_start World.seated_start hgraph hnone
    refine ⟨m, hm, c, s, hplans, hbatch, hwait, fun u hu x hx => ?_⟩
    rw [World.heard_succ hn, latest_append_of_sentTo_eq_nil (hawaits.sentTo_act refused k)]
    exact hlatest u hu x hx

/-! ## A bundle that is toggled twice -/

/-- A script that runs a bundle of one file. -/
def bundled : SourceGraph :=
  (SourceGraph.empty.addScript ⟨1, "/app/bundle.js"⟩ ⟨"7"⟩).addMapped ⟨1, "/app/bundle.js"⟩
    ⟨⟨2, "/app/a.ts"⟩, ⟨0, 9⟩⟩ .start ⟨0, 9⟩

theorem walk_bundled : bundled.walk ⟨1, "/app/bundle.js"⟩ =
    .node ⟨1, "/app/bundle.js"⟩ [(⟨⟨2, "/app/a.ts"⟩, ⟨0, 9⟩⟩, .node ⟨2, "/app/a.ts"⟩ [])] := by
  cbv

theorem authoredOf_bundled (c : Source) :
    bundled.authoredOf c = if 1 = c.reference then [⟨⟨2, "/app/a.ts"⟩, ⟨0, 9⟩⟩] else [] := by
  by_cases hc : 1 = c.reference
  · rw [if_pos hc]
    exact congrArg (Option.getD · []) (if_pos hc)
  · rw [if_neg hc]
    exact congrArg (Option.getD · []) (if_neg hc)

theorem unshared_bundled : bundled.Unshared := by
  have hscripts : ∀ a x, x ∈ bundled.scriptsOf a → a.reference = 1 := by
    intro a x hx
    by_contra hne
    have hnone : bundled.scripts.get? a.reference = none := if_neg (Ne.symm hne)
    rw [SourceGraph.scriptsOf, hnone] at hx
    exact List.not_mem_nil hx
  have hmentions : ∀ a, bundled.Mentions a → a.reference = 1 → a = ⟨1, "/app/bundle.js"⟩ := by
    rintro a ⟨s, ha | ha⟩ href
    · rw [authoredOf_bundled] at ha
      split at ha
      · rw [List.mem_singleton.mp ha] at href
        exact absurd href (by decide)
      · exact absurd ha List.not_mem_nil
    · by_cases hs : 2 = s.reference
      · have hlist : bundled.compiledOf s = [⟨1, "/app/bundle.js"⟩] :=
          congrArg (Option.getD · []) (if_pos hs)
        rw [hlist] at ha
        exact List.mem_singleton.mp ha
      · have hlist : bundled.compiledOf s = [] := congrArg (Option.getD · []) (if_neg hs)
        rw [hlist] at ha
        exact absurd ha List.not_mem_nil
  refine ⟨fun a b x ha hb => (hscripts a x ha).trans (hscripts b x hb).symm,
    fun a b x hma hmb ha hb => ?_⟩
  exact (hmentions a hma (hscripts a x ha)).trans (hmentions b hmb (hscripts b x hb)).symm

/-- Nothing is skipped. -/
def lenient : SkipPolicy :=
  .ofGlobs [] none .sensitive

/-- The file is to be skipped. -/
def firstDecision : SkipChange :=
  .decide "/app/a.ts" (some ⟨2, "/app/a.ts"⟩) true

/-- The file is toggled again before the ranges of the first toggle have been answered. -/
def hasty : List Action :=
  [.openSession ⟨⟨"page"⟩, ⟨"page"⟩, lenient, bundled, 500, false⟩,
    .begin ⟨0⟩ (.toggle ⟨0⟩ (.resource "/app/a.ts")), .proceed ⟨0⟩ [],
    .begin ⟨1⟩ (.toggle ⟨0⟩ (.resource "/app/a.ts")), .proceed ⟨1⟩ [],
    .proceed ⟨0⟩ [⟨"7"⟩]]

theorem graph_hasty (n : Nat) (s : Skipper)
    (hs : (World.start.before hasty n).sessions.get? ⟨0⟩ = some s) : s.graph = bundled := by
  match n with
  | 0 => cases hs
  | 1 | 2 | 3 | 4 | 5 => cases hs; rfl
  | n + 6 =>
    rw [World.before, List.take_of_length_le (Nat.le_add_left 6 n)] at hs
    cases hs
    rfl

/-- Only the file differs from the bundle. -/
theorem compute_bundled :
    Ranges.compute (firstDecision.revise bundled lenient) bundled ⟨1, "/app/bundle.js"⟩ =
      [⟨0, 0⟩, ⟨0, 9⟩] := by
  have hspans : (bundled.authoredOf ⟨1, "/app/bundle.js"⟩).map (Ranges.invertedSpan?
      (firstDecision.revise bundled lenient) bundled ⟨1, "/app/bundle.js"⟩) =
        [some ⟨⟨0, 0⟩, ⟨0, 9⟩⟩] := by decide
  rw [Ranges.compute, Ranges.spans, hspans]
  simp [Ranges.joinNeighbours, Span.merge, Span.mergeSorted, Span.mergeInto, Span.ends]

theorem mem_updates_bundled :
    ⟨⟨1, "/app/bundle.js"⟩, [⟨0, 0⟩, ⟨0, 9⟩]⟩ ∈
      firstDecision.updates bundled (firstDecision.revise bundled lenient) := by
  have horigins : firstDecision.origins bundled = [⟨1, "/app/bundle.js"⟩] := by decide
  have hlevels : Ranges.levels (bundled.walk ⟨1, "/app/bundle.js"⟩) = [⟨1, "/app/bundle.js"⟩] := by
    cbv
  refine SkipChange.mem_updates_iff.mpr ⟨⟨1, "/app/bundle.js"⟩, ?_, ?_, compute_bundled.symm⟩
  · rw [horigins]
    exact List.mem_singleton_self _
  · rw [hlevels]
    exact List.mem_singleton_self _

/-- The only turn of the first toggle. -/
theorem plans_hasty {m : Nat} (hm : m < 5) {c : SkipChange} {s : Skipper}
    (hplans : (World.start.before hasty m).Plans ⟨0⟩ ⟨0⟩ c s) :
    c = firstDecision ∧ s.policy = lenient ∧ s.graph = bundled := by
  obtain ⟨keeps, sequel, hjob⟩ := hplans.job
  have hs := hplans.session
  interval_cases m
  · cases hjob
  · cases hjob
  · have hfirst : (World.start.before hasty 2).jobs.get? ⟨0⟩ =
        some ⟨[⟨0⟩], .turn ⟨0⟩ firstDecision (.announce "/app/a.ts" false)⟩ := by decide
    rw [hfirst, Option.some.injEq] at hjob
    injection hjob with _ hwait
    injection hwait with _ hchange
    cases hs
    exact ⟨hchange.symm, rfl, rfl⟩
  · cases hjob
  · cases hjob

/-- When the first toggle leaves, its ranges are still the last word about the script, although the
runtime refuses them and another toggle is waiting. -/
theorem ranges_spec_hasty :
    (∀ n s, (World.start.before hasty n).sessions.get? ⟨0⟩ = some s → s.graph.Unshared) ∧
    (∃ batch, (World.start.before hasty 5).Awaits ⟨0⟩ ⟨0⟩ batch) ∧
    latest ⟨0⟩ ⟨"7"⟩ (World.start.heard hasty 6) = [⟨0, 0⟩, ⟨0, 9⟩] := by
  have hgraph : ∀ n s, (World.start.before hasty n).sessions.get? ⟨0⟩ = some s →
      s.graph.Unshared := fun n s hs => graph_hasty n s hs ▸ unshared_bundled
  have hawaits : ∃ batch, (World.start.before hasty 5).Awaits ⟨0⟩ ⟨0⟩ batch :=
    ⟨_, _, _, _, rfl⟩
  refine ⟨hgraph, hawaits, ?_⟩
  obtain ⟨batch, hbatch⟩ := hawaits
  obtain ⟨m, hm, c, s, hplans, -, -, hlatest⟩ :=
    (ranges_spec hgraph 5).2.2.2 ⟨0⟩ batch [⟨"7"⟩] hbatch rfl
  obtain ⟨rfl, hpolicy, hbundled⟩ := plans_hasty hm hplans
  rw [hpolicy, hbundled] at hlatest
  exact (hlatest _ mem_updates_bundled ⟨"7"⟩ (List.mem_singleton_self _)).trans compute_bundled

end Skipper
end DebugTree
