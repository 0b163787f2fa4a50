import DebugTree.Proofs.Skipper.Freshness

/-!
# What the runtime really has

A session remembers what it has sent, and not what became of it: the runtime may refuse the ranges
of a script and keep those that it had.  What it has is therefore read off the answers (`held`),
while `latest` is read off what was sent.

Nobody else is answered between a turn and its answer, as the job is the first in line.  So what the
runtime has after the answer depends on what it had at the turn only, and the next computation puts
right whatever an earlier refusal has left behind, with one exception: ranges that should have been
cleared.  The memory drops a script when the empty list is put into a batch, so once the runtime has
refused to clear a script, another empty list is not sent (`held_eq_iff`, `refused_clear_kept`).
-/

namespace DebugTree
namespace Skipper

open Protocol

/-! ## What is held for a script -/

/-- The ranges that an answer makes the runtime hold for a script. -/
def Event.installs? (x : ScriptId) : Event → Option (List Position)
  | .rangesAnswered _ batch refused => if x ∈ refused then none else batch.get? x
  | _ => none

/-- The ranges that the runtime of a session holds for a script: the last ones that it has not
refused. -/
def held (k : Listener) (x : ScriptId) (seen : List Event) : List Position :=
  ((seenBy k seen).filterMap (Event.installs? x)).getLast?.getD []

variable {k : Listener} {x : ScriptId} {seen more : List Event} {batch : RangeBatch}
  {refused : List ScriptId}

theorem held_append_of_forall (h : ∀ e ∈ seenBy k more, e.installs? x = none) :
    held k x (seen ++ more) = held k x seen := by
  rw [held, seenBy_append, List.filterMap_append, List.filterMap_eq_nil_iff.mpr h, List.append_nil,
    held]

/-- An answer installs what it does not refuse. -/
theorem held_append_answer
    (h : seenBy k more = if batch.entries.isEmpty then [] else [.rangesAnswered k batch refused]) :
    held k x (seen ++ more) =
      if x ∈ refused then held k x seen else (batch.get? x).getD (held k x seen) := by
  have hmore : (seenBy k more).filterMap (Event.installs? x) =
      if x ∈ refused then [] else (batch.get? x).toList := by
    rw [h]
    split
    · next hempty =>
      have hnone : batch.get? x = none := by
        rw [Index.get?, List.isEmpty_iff.mp hempty, Index.find?_nil]
      rw [hnone, Option.toList_none, ite_self]
      rfl
    · by_cases hx : x ∈ refused
      · simp [Event.installs?, hx]
      · cases hget : batch.get? x <;> simp [Event.installs?, hx, hget]
  rw [held, seenBy_append, List.filterMap_append, hmore]
  split
  · rw [List.append_nil, held]
  · rw [List.getLast?_append, held]
    cases batch.get? x <;> rfl

namespace World

variable {w : World} {actions : List Action} {j j' : JobId} {k' : Listener} {g : SourceGraph}
  {n m : Nat} {c : SkipChange} {s t : Skipper} {d : Source} {a : Action}

/-! ## While an answer is awaited -/

/-- A job whose ranges have been answered does not wait for an answer any more. -/
theorem Awaits.not_awaits_act (hin : w.InLine) (h : w.Awaits j k batch)
    (refused : List ScriptId) (batch' : RangeBatch) :
    ¬ (w.act (.proceed j refused)).1.Awaits j k' batch' := by
  obtain ⟨keeps, renews, sequel, hjob⟩ := h
  obtain ⟨s, hs⟩ := hin.exists_of_place? hjob rfl
  rintro ⟨keeps', renews', sequel', hjob'⟩
  have hgoOn : (w.proceed j refused).1.jobs.get? j =
      some ⟨keeps', .ranges k' batch' renews' sequel'⟩ := hjob'
  rw [proceed_ranges hjob] at hgoOn
  obtain ⟨e, audience, rest, k₁, keeps₁, source, outcome, -, hturn, -⟩ :=
    exists_of_jobs_goOn ((Index.get?_modify_self _ _ _).trans (congrArg (Option.map _) hs)) hgoOn
  cases hturn

/-- Until the job is answered, nobody else is. -/
theorem Awaits.held_act (hin : w.InLine) (hseated : w.Seated) (h : w.Awaits j k batch)
    (ha : ∀ refused, a ≠ .proceed j refused) (x : ScriptId) (seen : List Event) :
    held k x (seen ++ (w.act a).2) = held k x seen := by
  obtain ⟨keeps, renews, sequel, hjob⟩ := h
  obtain ⟨s, hs⟩ := hin.exists_of_place? hjob rfl
  obtain ⟨s', hs'⟩ := exists_take hseated hs a
  refine held_append_of_forall fun e he => ?_
  change e ∈ seenBy k (w.take a).2 at he
  rcases opened_or_deed hs' with ⟨o, rfl, -⟩ | ⟨t, ht, hdeed⟩
  · cases he
  generalize seenBy k (w.take a).2 = told at hdeed he
  cases hdeed with
  | turn hplans =>
    split at he
    · cases he
    · rw [List.mem_singleton.mp he]
      rfl
  | @leave j' refused _ _ _ _ _ hjob' =>
    have hfirst := hin.lined.first j _ k s hjob trivial rfl hs
    rw [hin.lined.first j' _ k s hjob' trivial rfl hs, Option.some.injEq] at hfirst
    exact absurd (congrArg (Action.proceed · refused) hfirst) (ha refused)
  | order | ordered | push | pushed | inquire | learn =>
    rw [List.mem_singleton.mp he]
    rfl
  | _ => cases he

/-- A turn is not an answer. -/
theorem Plans.held_act (h : w.Plans j k c s) (refused : List ScriptId) (x : ScriptId)
    (seen : List Event) : held k x (seen ++ (w.act (.proceed j refused)).2) = held k x seen := by
  refine held_append_of_forall fun e he => ?_
  have hsent : (w.act (.proceed j refused)).2 = _ := h.sent refused
  rw [hsent] at he
  have hmem := (List.mem_filter.mp he).1
  split at hmem
  · cases hmem
  · rw [List.mem_singleton.mp hmem]
    rfl

theorem Awaits.held_answer (h : w.Awaits j k batch) (refused : List ScriptId) (x : ScriptId)
    (seen : List Event) :
    held k x (seen ++ (w.act (.proceed j refused)).2) =
      if x ∈ refused then held k x seen else (batch.get? x).getD (held k x seen) := by
  obtain ⟨keeps, renews, sequel, hjob⟩ := h
  exact held_append_answer ((seenBy_proceed_ranges hjob refused k).trans (if_pos rfl))

theorem held_succ_of_silent (hn : actions[n]? = some a)
    (hsilent : ((start.before actions n).act a).2 = []) :
    held k x (start.heard actions (n + 1)) = held k x (start.heard actions n) := by
  rw [heard_succ hn, hsilent, List.append_nil]

/-! ## From a turn to its answer -/

/-- Nobody has his turn at a session while an answer is awaited there. -/
theorem Awaits.not_plans_of_inLine (hin : w.InLine) (h : w.Awaits j k batch) :
    ¬ w.Plans j' k c s := by
  intro hplans
  obtain ⟨keeps, renews, sequel, hjob⟩ := h
  have hfirst := hin.lined.first j _ k s hjob trivial rfl hplans.session
  rw [of_decide_eq_true hplans.turn, Option.some.injEq] at hfirst
  have hawaits : w.Awaits j k batch := ⟨keeps, renews, sequel, hjob⟩
  exact hawaits.not_plans (hfirst ▸ hplans)

/-- A job that had its turn at one moment and waits for the answer at the next one has taken it. -/
theorem Plans.turnAt (hplans : (start.before actions m).Plans j k c s)
    (hawaits : (start.before actions (m + 1)).Awaits j k batch) : start.TurnAt actions m k c s := by
  obtain ⟨keeps, sequel, hjob⟩ := hplans.job
  obtain ⟨keeps', renews, sequel', hjob'⟩ := hawaits
  cases hm : actions[m]? with
  | none =>
    rw [before_succ_of_none hm, hjob] at hjob'
    cases hjob'
  | some a =>
    by_cases ha : ∃ refused, a = .proceed j refused
    · obtain ⟨refused, rfl⟩ := ha
      exact ⟨j, refused, hm, hplans⟩
    · rw [before_succ hm, get?_jobs_act_of_some hjob fun refused hr => ha ⟨refused, hr⟩] at hjob'
      cases hjob'

theorem TurnAt.held_succ (h : start.TurnAt actions m k c s) (x : ScriptId) :
    held k x (start.heard actions (m + 1)) = held k x (start.heard actions m) := by
  obtain ⟨j, refused, hm, hplans⟩ := h
  rw [heard_succ hm]
  exact hplans.held_act refused x _

/-- From its turn on until its answer a job waits. -/
def AwaitsFrom (actions : List Action) (m n : Nat) (j : JobId) (k : Listener)
    (batch : RangeBatch) : Prop :=
  ∀ i, m < i → i ≤ n → (start.before actions i).Awaits j k batch

theorem AwaitsFrom.held_eq (h : AwaitsFrom actions m n j k batch)
    (hturn : start.TurnAt actions m k c s) (hmn : m < n) (x : ScriptId) :
    held k x (start.heard actions n) = held k x (start.heard actions m) := by
  induction n with
  | zero => exact absurd hmn (Nat.not_lt_zero m)
  | succ n ih =>
    rcases Nat.lt_succ_iff_lt_or_eq.mp hmn with hlt | rfl
    · rw [← ih (fun i hi hin => h i hi (Nat.le_succ_of_le hin)) hlt]
      have hin := inLine_before actions n
      have hbefore := h n hlt (Nat.le_succ n)
      have hafter := h (n + 1) hmn (Nat.le_refl _)
      cases hn : actions[n]? with
      | none => rw [heard_succ_of_none hn]
      | some a =>
        rw [heard_succ hn]
        refine hbefore.held_act hin (seated_before actions n) (fun refused ha => ?_) x _
        rw [before_succ hn, ha] at hafter
        exact hbefore.not_awaits_act hin refused batch hafter
    · exact hturn.held_succ x

/-- Between a turn and its answer nothing changes a policy but the names of the builtin modules. -/
theorem AwaitsFrom.policy (h : AwaitsFrom actions m n j k batch)
    (hsourced : start.Sourced actions k g) (hturn : start.TurnAt actions m k c s) (hmn : m < n)
    (ht : (start.before actions n).sessions.get? k = some t) :
    ∃ names, t.policy = { c.revise g s.policy with builtins := names } := by
  induction n generalizing t with
  | zero => exact absurd hmn (Nat.not_lt_zero m)
  | succ n ih =>
    rcases Nat.lt_succ_iff_lt_or_eq.mp hmn with hlt | rfl
    · have hearlier : ∀ u, (start.before actions n).sessions.get? k = some u →
          ∃ names, u.policy = { c.revise g s.policy with builtins := names } :=
        fun u hu => ih (fun i hi hin => h i hi (Nat.le_succ_of_le hin)) hlt hu
      cases hn : actions[n]? with
      | none =>
        rw [before_succ_of_none hn] at ht
        exact hearlier t ht
      | some a =>
        have hbefore := h n hlt (Nat.le_succ n)
        rcases session_before_succ (seated_before actions n) hn ht with
          ⟨o, _, rfl, hk, -⟩ | ⟨u, hu, hdeed⟩
        · obtain ⟨keeps, renews, sequel, hjob⟩ := hbefore
          obtain ⟨u, hu⟩ := (inLine_before actions n).exists_of_place? hjob rfl
          rw [hk, (seated_before actions n).get?_nextListener] at hu
          cases hu
        · obtain ⟨names, hnames⟩ := hearlier u hu
          rcases hdeed.policy_cases with hsame | ⟨j', refused, c', -, hplans, -⟩ |
            ⟨reply, builtins, -, -, hset⟩
          · exact ⟨names, hsame.trans hnames⟩
          · exact absurd hplans (hbefore.not_plans_of_inLine (inLine_before actions n))
          · rw [hnames] at hset
            exact ⟨_, hset⟩
    · exact ⟨_, hsourced.policy_succ hturn ht⟩

/-- A job that waits for an answer has had its turn, and has waited since. -/
theorem Sourced.exists_turn (h : start.Sourced actions k g)
    (hawaits : (start.before actions n).Awaits j k batch) :
    ∃ m < n, ∃ c s, start.TurnAt actions m k c s ∧ (s.carryOut c).1 = batch ∧
      AwaitsFrom actions m n j k batch := by
  have hnone : ∀ j batch, ¬ start.Awaits j k batch := by
    rintro j batch ⟨keeps, renews, sequel, hjob⟩
    cases hjob
  obtain ⟨m, hm, c, s, hplans, hbatch, hwait, -⟩ :=
    hawaits.exists_plans (inStep_start k) inLine_start seated_start
      (fun n s hs => h.graph n s hs ▸ h.unshared) hnone
  exact ⟨m, hm, c, s, hplans.turnAt (hwait (m + 1) (Nat.lt_succ_self m) hm), hbatch, hwait⟩

/-! ## What is put into a batch -/

/-- **The ranges of a source are sent** unless there are none and there were none. -/
theorem Sourced.get?_batch (h : start.Sourced actions k g) (hturn : start.TurnAt actions m k c s)
    (hreaches : c.Reaches g d) (hx : x ∈ g.scriptsOf d) :
    (s.carryOut c).1.get? x =
      if Ranges.compute (c.revise g s.policy) g d = [] ∧ latest k x (start.heard actions m) = []
      then none else some (Ranges.compute (c.revise g s.policy) g d) := by
  have hcomes := comesOf_carryOut s c
  have hgraph := h.graph_eq hturn
  rw [hgraph] at hcomes
  have hsession : (start.before actions m).sessions.get? k = some s := by
    obtain ⟨j, refused, -, hplans⟩ := hturn
    exact hplans.session
  have hhad := (h.inStep m).skipping s hsession x
  by_cases hlists : g.authoredOf d = []
  · rw [if_pos ⟨Ranges.compute_of_authoredOf_eq_nil hlists _, h.latest_eq_nil hlists hx m⟩]
    cases hget : (s.carryOut c).1.get? x with
    | none => rfl
    | some ps =>
      obtain ⟨u, hu, hxu, -⟩ := RangePlan.mem_calls_iff.mp (hcomes.sent x ps hget).1
      obtain ⟨o, -, hlevel, -⟩ := SkipChange.mem_updates_iff.mp hu
      have hne := SourceGraph.authoredOf_ne_nil_of_mem_levels hlevel
      rw [SourceGraph.authoredOf, h.unshared.apart u.source d x hxu hx] at hne
      exact absurd hlists hne
  · have hcall := RangePlan.mem_calls_iff.mpr
      ⟨_, hreaches.mem_updates hlists (c.revise g s.policy), hx, rfl⟩
    split
    · next hempty =>
      refine hcomes.idle x (fun hmem => hhad.mp hmem hempty.2) fun ps hps => ?_
      rw [SkipChange.calls_unique h.unshared _ c hps hcall]
      exact hempty.1
    · next hne =>
      rcases hcomes.get?_of_mem (fun _ _ _ => SkipChange.calls_unique h.unshared _ c) hcall with
        hsent | ⟨-, hps, hnot⟩
      · exact hsent
      · exact absurd ⟨hps, not_not.mp (mt hhad.mpr hnot)⟩ hne

/-- **What the runtime holds after an answer**, in terms of what it held at the turn. -/
theorem Sourced.held_answer (h : start.Sourced actions k g)
    (hawaits : (start.before actions n).Awaits j k batch)
    (hn : actions[n]? = some (.proceed j refused)) :
    ∃ m < n, ∃ c s, start.TurnAt actions m k c s ∧ AwaitsFrom actions m n j k batch ∧
      ∀ d, c.Reaches g d → ∀ x ∈ g.scriptsOf d, held k x (start.heard actions (n + 1)) =
        if x ∈ refused then held k x (start.heard actions m)
        else if Ranges.compute (c.revise g s.policy) g d = [] ∧
          latest k x (start.heard actions m) = []
        then held k x (start.heard actions m) else Ranges.compute (c.revise g s.policy) g d := by
  obtain ⟨m, hm, c, s, hturn, hbatch, hwait⟩ := h.exists_turn hawaits
  refine ⟨m, hm, c, s, hturn, hwait, fun d hd x hx => ?_⟩
  rw [heard_succ hn, hawaits.held_answer refused, hwait.held_eq hturn hm x, ← hbatch,
    h.get?_batch hturn hd hx]
  refine if_congr Iff.rfl rfl ?_
  split <;> rfl

end World

/-- **What the runtime holds after a computation**, whatever it has refused before.  A job whose
ranges are answered has had its turn, and between the turn and the answer nothing has changed the
policy but the names of the builtin modules.  Of each source that the turn reached, the runtime
holds for a script what it held before if it refuses the script.  Otherwise it holds the ranges of
the source, unless these are empty, the last ranges that were sent for the script were empty, too,
and yet the runtime held some: then nothing is sent, and it holds them still. -/
theorem held_eq_iff {actions : List Action} {k : Listener} {g : SourceGraph}
    (h : World.start.Sourced actions k g) {n : Nat} {j : JobId} {batch : RangeBatch}
    {refused : List ScriptId} (hawaits : (World.start.before actions n).Awaits j k batch)
    (hn : actions[n]? = some (.proceed j refused)) :
    ∃ m < n, ∃ c s, World.start.TurnAt actions m k c s ∧
      World.AwaitsFrom actions m n j k batch ∧
      (∀ t, (World.start.before actions n).sessions.get? k = some t →
        ∃ names, t.policy = { c.revise g s.policy with builtins := names }) ∧
      ∀ d, c.Reaches g d → ∀ x ∈ g.scriptsOf d,
        (x ∈ refused → held k x (World.start.heard actions (n + 1)) =
          held k x (World.start.heard actions m)) ∧
        (x ∉ refused → (held k x (World.start.heard actions (n + 1)) =
            Ranges.compute (c.revise g s.policy) g d ↔
          ¬ (Ranges.compute (c.revise g s.policy) g d = [] ∧
            latest k x (World.start.heard actions m) = [] ∧
              held k x (World.start.heard actions m) ≠ []))) := by
  obtain ⟨m, hm, c, s, hturn, hwait, hheld⟩ := h.held_answer hawaits hn
  refine ⟨m, hm, c, s, hturn, hwait, fun t ht => hwait.policy h hturn hm ht, fun d hd x hx => ?_⟩
  rw [hheld d hd x hx]
  refine ⟨fun hrefused => if_pos hrefused, fun hrefused => ?_⟩
  rw [if_neg hrefused]
  split
  · next hempty => simp [hempty.1, hempty.2]
  · next hne => exact iff_of_true rfl fun hlost => hne ⟨hlost.1, hlost.2.1⟩

/-! ## Ranges that are not cleared -/

/-- A file is skipped, and toggled back while the runtime refuses the ranges; then its bundle is
loaded. -/
def forgotten : List Action :=
  [.openSession ⟨⟨"page"⟩, ⟨"page"⟩, lenient, bundled, 500, false⟩,
    .begin ⟨0⟩ (.toggle ⟨0⟩ (.resource "/app/a.ts")), .proceed ⟨0⟩ [], .proceed ⟨0⟩ [],
    .begin ⟨1⟩ (.toggle ⟨0⟩ (.resource "/app/a.ts")), .proceed ⟨1⟩ [], .proceed ⟨1⟩ [⟨"7"⟩],
    .begin ⟨2⟩ (.load ⟨0⟩ ⟨1, "/app/bundle.js"⟩), .proceed ⟨2⟩ [], .proceed ⟨2⟩ []]

/-- The file is not to be skipped any more. -/
def secondDecision : SkipChange :=
  .decide "/app/a.ts" (some ⟨2, "/app/a.ts"⟩) false

/-- The turns of the run, and what comes out of them. -/
theorem turns_forgotten {n : Nat} {c : SkipChange} {s : Skipper}
    (h : World.start.TurnAt forgotten n ⟨0⟩ c s) :
    n = 2 ∧ c = firstDecision ∧ s.policy = lenient ∨
      n = 5 ∧ c = secondDecision ∧ s.policy = firstDecision.revise bundled lenient ∨
      n = 8 ∧ c = .load ⟨1, "/app/bundle.js"⟩ ∧
        s.policy = secondDecision.revise bundled (firstDecision.revise bundled lenient) := by
  obtain ⟨j, refused, hn, ⟨keeps, sequel, hjob⟩, hs, -⟩ := h
  have hlen : n < 10 := (List.getElem?_eq_some_iff.mp hn).1
  interval_cases n
  · cases hn
  · cases hn
  · cases hn
    have hfirst : (World.start.before forgotten 2).jobs.get? ⟨0⟩ =
        some ⟨[⟨0⟩], .turn ⟨0⟩ firstDecision (.announce "/app/a.ts" false)⟩ := by decide
    cases hfirst.symm.trans hjob
    cases hs
    exact Or.inl ⟨rfl, rfl, rfl⟩
  · cases hn
    cases hjob
  · cases hn
  · cases hn
    have hsecond : (World.start.before forgotten 5).jobs.get? ⟨1⟩ =
        some ⟨[⟨0⟩], .turn ⟨0⟩ secondDecision (.announce "/app/a.ts" true)⟩ := by decide
    cases hsecond.symm.trans hjob
    cases hs
    exact Or.inr (Or.inl ⟨rfl, rfl, rfl⟩)
  · cases hn
    cases hjob
  · cases hn
  · cases hn
    cases hjob
    cases hs
    exact Or.inr (Or.inr ⟨rfl, rfl, rfl⟩)
  · cases hn
    cases hjob

theorem origins_forgotten {n : Nat} {c : SkipChange} {s : Skipper}
    (h : World.start.TurnAt forgotten n ⟨0⟩ c s) : c.origins bundled = [⟨1, "/app/bundle.js"⟩] := by
  rcases turns_forgotten h with ⟨-, rfl, -⟩ | ⟨-, rfl, -⟩ | ⟨-, rfl, -⟩ <;> decide

theorem reaches_forgotten {n : Nat} {c : SkipChange} {s : Skipper}
    (h : World.start.TurnAt forgotten n ⟨0⟩ c s) : c.Reaches bundled ⟨1, "/app/bundle.js"⟩ :=
  ⟨_, (origins_forgotten h).symm ▸ List.mem_singleton_self _, Or.inl rfl⟩

theorem sourced_forgotten : World.start.Sourced forgotten ⟨0⟩ bundled where
  graph n s hs := by
    refine World.graph_before (fun o ho => ?_) (fun g' => by simp [forgotten]) hs
    have hopen : o = ⟨⟨"page"⟩, ⟨"page"⟩, lenient, bundled, 500, false⟩ := by
      simpa [forgotten] using ho
    rw [hopen]
  unshared := unshared_bundled
  known n c s d hturn hd := by
    obtain ⟨o, ho, hlevel⟩ := hd
    rw [origins_forgotten hturn, List.mem_singleton] at ho
    rw [ho, walk_bundled] at hlevel
    obtain rfl : d = ⟨1, "/app/bundle.js"⟩ :=
      hlevel.elim id fun hmem => List.mem_singleton.mp hmem
    decide

/-- The policy after both toggles, which the load leaves alone. -/
def undecided : SkipPolicy :=
  secondDecision.revise bundled (firstDecision.revise bundled lenient)

theorem propagate_undecided :
    Ranges.propagate undecided bundled ⟨1, "/app/bundle.js"⟩ = undecided := by
  rw [Ranges.propagate, walk_bundled]
  rfl

theorem compute_undecided : Ranges.compute undecided bundled ⟨1, "/app/bundle.js"⟩ = [] := by
  decide +kernel

theorem mem_scriptsOf_bundled : (⟨"7"⟩ : ScriptId) ∈ bundled.scriptsOf ⟨1, "/app/bundle.js"⟩ :=
  List.mem_singleton_self _

/-- The first toggle is answered, and the runtime holds the ranges of the file. -/
theorem held_forgotten_first :
    held ⟨0⟩ ⟨"7"⟩ (World.start.heard forgotten 4) = [⟨0, 0⟩, ⟨0, 9⟩] := by
  obtain ⟨m, hm, c, s, hturn, -, hheld⟩ :=
    sourced_forgotten.held_answer (n := 3) ⟨_, _, _, rfl⟩ rfl
  have heq := hheld _ (reaches_forgotten hturn) ⟨"7"⟩ mem_scriptsOf_bundled
  rcases turns_forgotten hturn with ⟨-, rfl, hpolicy⟩ | ⟨rfl, -⟩ | ⟨rfl, -⟩
  · rw [hpolicy, compute_bundled] at heq
    exact heq
  · exact absurd hm (by decide)
  · exact absurd hm (by decide)

/-- The second toggle is refused, and the runtime holds them still. -/
theorem held_forgotten_second :
    held ⟨0⟩ ⟨"7"⟩ (World.start.heard forgotten 8) = [⟨0, 0⟩, ⟨0, 9⟩] := by
  obtain ⟨m, hm, c, s, hturn, hwait, hheld⟩ :=
    sourced_forgotten.held_answer (n := 6) ⟨_, _, _, rfl⟩ rfl
  have heq := hheld _ (reaches_forgotten hturn) ⟨"7"⟩ mem_scriptsOf_bundled
  rcases turns_forgotten hturn with ⟨rfl, -⟩ | ⟨rfl, -⟩ | ⟨rfl, -⟩
  · obtain ⟨_, _, _, hjob⟩ := hwait 3 (by decide) (by decide)
    cases hjob
  · rw [World.held_succ_of_silent (n := 7) rfl rfl, heq, if_pos (List.mem_singleton_self _),
      World.held_succ_of_silent (n := 4) rfl rfl, held_forgotten_first]
  · exact absurd hm (by decide)

/-- But the last ranges that were sent are empty. -/
theorem latest_forgotten : latest ⟨0⟩ ⟨"7"⟩ (World.start.heard forgotten 8) = [] := by
  have hquiet : ∀ n, n ≠ 2 → n ≠ 5 → n ≠ 8 →
      latest ⟨0⟩ ⟨"7"⟩ (World.start.heard forgotten (n + 1)) =
        latest ⟨0⟩ ⟨"7"⟩ (World.start.heard forgotten n) := by
    intro n h₂ h₅ h₈
    rcases sourced_forgotten.latest_succ n ⟨"7"⟩ with hsame | ⟨c, s, -, hturn, -⟩
    · exact hsame
    · rcases turns_forgotten hturn with ⟨hn, -⟩ | ⟨hn, -⟩ | ⟨hn, -⟩
      · exact absurd hn h₂
      · exact absurd hn h₅
      · exact absurd hn h₈
  have hturn : World.start.TurnAt forgotten 5 ⟨0⟩ _ _ := ⟨⟨1⟩, [], rfl, ⟨_, _, rfl⟩, rfl, rfl⟩
  rw [hquiet 7 (by decide) (by decide) (by decide), hquiet 6 (by decide) (by decide) (by decide),
    sourced_forgotten.latest_of_reaches hturn (reaches_forgotten hturn) mem_scriptsOf_bundled]
  rcases turns_forgotten hturn with ⟨hn, -⟩ | ⟨-, hc, hpolicy⟩ | ⟨hn, -⟩
  · cases hn
  · rw [hc, hpolicy]
    exact compute_undecided
  · cases hn

/-- Only the load can have had its turn for the answer that ends the run. -/
theorem turn_forgotten {m : Nat} {batch : RangeBatch} {c : SkipChange} {s : Skipper}
    (hturn : World.start.TurnAt forgotten m ⟨0⟩ c s)
    (hwait : World.AwaitsFrom forgotten m 9 ⟨2⟩ ⟨0⟩ batch) :
    m = 8 ∧ c.revise bundled s.policy = undecided := by
  rcases turns_forgotten hturn with ⟨rfl, -⟩ | ⟨rfl, -⟩ | ⟨rfl, rfl, hpolicy⟩
  · obtain ⟨_, _, _, hjob⟩ := hwait 3 (by decide) (by decide)
    cases hjob
  · obtain ⟨_, _, _, hjob⟩ := hwait 6 (by decide) (by decide)
    cases hjob
  · rw [hpolicy]
    exact ⟨rfl, propagate_undecided⟩

/-- **Ranges that the runtime has refused to clear are not cleared again.**  The load of the bundle
is answered, nothing of it has been refused, and the runtime holds ranges for the script, although
the bundle has none. -/
theorem refused_clear_kept :
    World.start.Sourced forgotten ⟨0⟩ bundled ∧
    (∃ batch, (World.start.before forgotten 9).Awaits ⟨2⟩ ⟨0⟩ batch) ∧
    (World.start.before forgotten 10).jobs = .empty ∧
    held ⟨0⟩ ⟨"7"⟩ (World.start.heard forgotten 10) = [⟨0, 0⟩, ⟨0, 9⟩] ∧
    ∀ s, (World.start.before forgotten 10).sessions.get? ⟨0⟩ = some s →
      Ranges.compute s.policy bundled ⟨1, "/app/bundle.js"⟩ = [] := by
  have hawaits : ∃ batch, (World.start.before forgotten 9).Awaits ⟨2⟩ ⟨0⟩ batch :=
    ⟨_, _, _, _, rfl⟩
  refine ⟨sourced_forgotten, hawaits, rfl, ?_, fun s hs => ?_⟩
  · obtain ⟨batch, hbatch⟩ := hawaits
    obtain ⟨m, -, c, s, hturn, hwait, hheld⟩ := sourced_forgotten.held_answer hbatch rfl
    obtain ⟨rfl, hpolicy⟩ := turn_forgotten hturn hwait
    rw [hheld _ (reaches_forgotten hturn) ⟨"7"⟩ mem_scriptsOf_bundled, hpolicy, latest_forgotten,
      compute_undecided, held_forgotten_second]
    decide
  · cases hs
    exact (congrArg (Ranges.compute · bundled ⟨1, "/app/bundle.js"⟩) propagate_undecided).trans
      compute_undecided

/-- So the ranges after the load are not those of the bundle. -/
theorem held_eq_iff_forgotten :
    World.start.Sourced forgotten ⟨0⟩ bundled ∧
    (∃ batch, (World.start.before forgotten 9).Awaits ⟨2⟩ ⟨0⟩ batch) ∧
    held ⟨0⟩ ⟨"7"⟩ (World.start.heard forgotten 10) ≠
      Ranges.compute undecided bundled ⟨1, "/app/bundle.js"⟩ := by
  have hawaits : ∃ batch, (World.start.before forgotten 9).Awaits ⟨2⟩ ⟨0⟩ batch :=
    ⟨_, _, _, _, rfl⟩
  refine ⟨sourced_forgotten, hawaits, fun heq => ?_⟩
  obtain ⟨batch, hbatch⟩ := hawaits
  obtain ⟨m, -, c, s, hturn, hwait, -, hheld⟩ := held_eq_iff sourced_forgotten hbatch rfl
  obtain ⟨rfl, hpolicy⟩ := turn_forgotten hturn hwait
  have hiff := (hheld _ (reaches_forgotten hturn) ⟨"7"⟩ mem_scriptsOf_bundled).2 List.not_mem_nil
  rw [hpolicy] at hiff
  refine hiff.mp heq ⟨compute_undecided, latest_forgotten, ?_⟩
  rw [held_forgotten_second]
  exact List.cons_ne_nil _ _

end Skipper
end DebugTree
