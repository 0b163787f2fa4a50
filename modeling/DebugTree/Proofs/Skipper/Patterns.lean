import DebugTree.Proofs.Debouncer
import DebugTree.Proofs.Skipper.Deeds
import DebugTree.Proofs.Skipper.Ranges

/-!
# Patterns in the runtime

Patterns are pushed some time after they have changed, and what is pushed is what the policy says
when the push begins.  So a session is allowed to lag behind, but only while it is *due* to push:
while a push is scheduled that has not begun, or while a job that will schedule one waits for the
answer to its ranges (`World.Due`).  At any other moment the list that was sent last is the one that
the policy calls for (`patterns_spec`).

The debouncer gives up requests, but never the last one, and a push that has begun keeps the next
one waiting.  So lists reach the runtime one after the other, in the order in which they were read.

Before the first request nothing has been sent at all.  The list is then the one that the session
was opened with: a change that alters the list schedules a push.
-/

namespace DebugTree

open Protocol

/-! ## Which changes alter the list of patterns -/

/-- A record for a URL is nothing to do with patterns. -/
theorem SkipPolicy.blackboxSources_setOverride (p : SkipPolicy) (url : String) (skipped : Bool) :
    (p.setOverride url skipped).blackboxSources = p.blackboxSources :=
  rfl

/-- A change that does not renew the patterns leaves them as they are. -/
theorem SkipChange.blackboxSources_revise {g : SourceGraph} {c : SkipChange}
    (h : c.renewsPatterns g = false) (p : SkipPolicy) :
    (c.revise g p).blackboxSources = p.blackboxSources := by
  cases c with
  | load source => cases h
  | decide url source skipped =>
    have hbundles : ¬ (bundles g source).isEmpty = true := Bool.eq_false_iff.mp h
    rw [revise, if_neg hbundles]
    exact p.blackboxSources_setOverride url skipped

namespace Skipper

/-! ## What is sent and what is answered -/

/-- The list of patterns that an event sends. -/
def Event.sentPatterns? : Event → Option (List String)
  | .patternsSent _ patterns => some patterns
  | _ => none

/-- The list of patterns that an event answers. -/
def Event.answeredPatterns? : Event → Option (List String)
  | .patternsAnswered _ patterns => some patterns
  | _ => none

/-- The lists of patterns that are sent to the runtime of a session, in their order. -/
def patternsSentTo (k : Listener) (seen : List Event) : List (List String) :=
  (seenBy k seen).filterMap Event.sentPatterns?

/-- The lists of patterns that the runtime of a session has answered, in their order. -/
def patternsAnsweredTo (k : Listener) (seen : List Event) : List (List String) :=
  (seenBy k seen).filterMap Event.answeredPatterns?

variable {k : Listener}

theorem patternsSentTo_append (k : Listener) (seen more : List Event) :
    patternsSentTo k (seen ++ more) =
      patternsSentTo k seen ++ (seenBy k more).filterMap Event.sentPatterns? := by
  rw [patternsSentTo, seenBy_append, List.filterMap_append, patternsSentTo]

theorem patternsAnsweredTo_append (k : Listener) (seen more : List Event) :
    patternsAnsweredTo k (seen ++ more) =
      patternsAnsweredTo k seen ++ (seenBy k more).filterMap Event.answeredPatterns? := by
  rw [patternsAnsweredTo, seenBy_append, List.filterMap_append, patternsAnsweredTo]

/-- The debouncer of a session is sound, and busy exactly while patterns are on their way. -/
structure Paced (s : Skipper) : Prop where
  sound : s.debouncer.Sound
  sending : s.sending.isSome = true ↔ s.debouncer.IsBusy

theorem Paced.schedule {s : Skipper} (h : s.Paced) : s.schedule.Paced :=
  ⟨h.sound.fire _ _, h.sending.trans (Debouncer.isBusy_fire _ _ _).symm⟩

theorem paced_opening (o : Opening) (subscription : Subscription) :
    (o.skipper subscription).Paced :=
  ⟨Debouncer.sound_idle, iff_of_false (by simp [Opening.skipper]) Debouncer.not_isBusy_idle⟩

namespace World

variable {w : World} {actions : List Action} {n : Nat} {a : Action} {s s' : Skipper}
  {told : List Event}

/-- **Whatever is done to a session, its pushes keep their pace.** -/
theorem Deed.paced (h : w.Deed k s a s' told) (hs : s.Paced) : s'.Paced := by
  cases h with
  | @leave _ _ _ _ renews _ _ _ =>
    cases renews with
    | true => exact ⟨hs.schedule.sound, hs.schedule.sending⟩
    | false => exact ⟨hs.sound, hs.sending⟩
  | @push now latency d more hstep =>
    obtain ⟨hsound, ⟨hes, -⟩ | ⟨_, -, -, hbusy, -⟩ | ⟨_, hes, -⟩⟩ := (hs.sound.arm now).step hstep
    · cases hes
    · exact ⟨hsound, iff_of_true rfl hbusy⟩
    · cases hes
  | @pushed now latency d more hstep =>
    obtain ⟨hsound, ⟨hes, -⟩ | ⟨_, hes, -⟩ | ⟨_, -, -, hidle, -⟩⟩ := (hs.sound.arm now).step hstep
    · cases hes
    · cases hes
    · exact ⟨hsound, iff_of_false Bool.false_ne_true hidle⟩
  | @drop now latency d hstep =>
    obtain ⟨hsound, ⟨-, hbefore, hafter, -⟩ | ⟨_, hes, -⟩ | ⟨_, hes, -⟩⟩ :=
      (hs.sound.arm now).step hstep
    · refine ⟨hsound, iff_of_false (fun hsending => hbefore ?_) hafter⟩
      exact (Debouncer.isBusy_arm _ _).mpr (hs.sending.mp hsending)
    · cases hes
    · cases hes
  | @arm now latency =>
    exact ⟨hs.sound.arm now, hs.sending.trans (Debouncer.isBusy_arm _ _).symm⟩
  | learn reply =>
    unfold Skipper.learn
    split
    · exact ⟨hs.schedule.sound, hs.schedule.sending⟩
    · exact ⟨hs.sound, hs.sending⟩
  | _ => exact ⟨hs.sound, hs.sending⟩

theorem paced_before (hs : (start.before actions n).sessions.get? k = some s) : s.Paced :=
  session_induction inLine_start seated_start (P := fun _ s => s.Paced) (fun _ h => by cases h)
    (fun _ o subscription _ _ => paced_opening o subscription) (fun _ _ _ h => h)
    (fun _ _ _ _ _ _ _ hdeed h => hdeed.paced h) hs

/-! ## The order of the lists -/

/-- At this moment of a run the policy of a session calls for these patterns. -/
def PatternsAt (w : World) (actions : List Action) (n : Nat) (k : Listener)
    (patterns : List String) : Prop :=
  ∃ s, (w.before actions n).sessions.get? k = some s ∧ patterns = s.policy.blackboxSources

/-- An action sends no list, or the one that the policy calls for before and after it. -/
theorem Deed.sentPatterns (h : w.Deed k s a s' told) :
    told.filterMap Event.sentPatterns? = [] ∨
      told.filterMap Event.sentPatterns? = [s.policy.blackboxSources] ∧ s'.policy = s.policy := by
  cases h with
  | turn => exact Or.inl (by split <;> rfl)
  | leave => exact Or.inl (by split <;> rfl)
  | order | push => exact Or.inr ⟨rfl, rfl⟩
  | _ => exact Or.inl rfl

/-- **Lists are sent in the order in which they were read.** -/
theorem exists_moments (actions : List Action) (k : Listener) (n : Nat) :
    ∃ moments : List Nat, moments.Pairwise (· < ·) ∧ (∀ m ∈ moments, m < n) ∧
      List.Forall₂ (fun m patterns => start.PatternsAt actions m k patterns) moments
        (patternsSentTo k (start.heard actions n)) := by
  induction n with
  | zero =>
    rw [heard_zero]
    exact ⟨[], List.Pairwise.nil, fun _ hm => absurd hm List.not_mem_nil, List.Forall₂.nil⟩
  | succ n ih =>
    obtain ⟨moments, hsorted, hlt, hread⟩ := ih
    have hlater : ∀ m ∈ moments, m < n + 1 := fun m hm => Nat.lt_succ_of_lt (hlt m hm)
    cases hn : actions[n]? with
    | none =>
      rw [heard_succ_of_none hn]
      exact ⟨moments, hsorted, hlater, hread⟩
    | some a =>
      rw [heard_succ hn, patternsSentTo_append]
      have hsent : (seenBy k ((start.before actions n).act a).2).filterMap Event.sentPatterns? =
          [] ∨ ∃ s, (start.before actions n).sessions.get? k = some s ∧
            (seenBy k ((start.before actions n).act a).2).filterMap Event.sentPatterns? =
              [s.policy.blackboxSources] := by
        rcases seenBy_act_cases (inLine_before actions n) (seated_before actions n) k a with
          hnone | ⟨s, s', hs, hdeed⟩
        · exact Or.inl (by rw [hnone]; rfl)
        · exact hdeed.sentPatterns.imp_right fun hone => ⟨s, hs, hone.1⟩
      rcases hsent with hnone | ⟨s, hs, hone⟩
      · rw [hnone, List.append_nil]
        exact ⟨moments, hsorted, hlater, hread⟩
      · rw [hone]
        refine ⟨moments ++ [n], ?_, fun m hm => ?_, ?_⟩
        · rw [List.pairwise_append]
          exact ⟨hsorted, List.pairwise_singleton _ _,
            fun m hm i hi => List.mem_singleton.mp hi ▸ hlt m hm⟩
        · rcases List.mem_append.mp hm with hm | hm
          · exact hlater m hm
          · exact List.mem_singleton.mp hm ▸ Nat.lt_succ_self n
        · exact List.rel_append hread (List.Forall₂.cons ⟨s, hs, rfl⟩ List.Forall₂.nil)

/-! ## One list after the other -/

theorem patterns_of_begin {j : JobId} {operation : Operation} {keeps : List Listener}
    {patterns : List String} (hnone : w.jobs.get? j = none)
    (h : (w.begin j operation).1.jobs.get? j = some ⟨keeps, .patterns k patterns⟩) :
    operation = .pushPatterns k := by
  have hturn : ∀ {k' : Listener} {c : SkipChange} {sequel : Sequel} {keeps' : List Listener},
      (w.bring j keeps' k' c sequel).jobs.get? j ≠ some ⟨keeps, .patterns k patterns⟩ := by
    intro k' c sequel keeps' hjob
    cases (Index.get?_insert_self _ _ _).symm.trans hjob
  have hover : ∀ {outcome : Outcome},
      (w.finish j outcome).1.jobs.get? j ≠ some ⟨keeps, .patterns k patterns⟩ :=
    fun hjob => absurd rfl (Index.get?_erase_eq_some_iff.mp hjob).1
  have hsame : w.jobs.get? j ≠ some ⟨keeps, .patterns k patterns⟩ := by
    rw [hnone]
    exact nofun
  cases operation with
  | load k' source =>
    simp only [begin] at h
    split at h
    · exact absurd h hturn
    · exact absurd h hsame
  | toggle k' request =>
    simp only [begin] at h
    split at h
    · split at h
      · exact absurd h hturn
      · exact absurd h hover
    · exact absurd h hsame
  | ask k' url =>
    simp only [begin] at h
    split at h
    · exact absurd h hover
    · exact absurd h hsame
  | pushPatterns k' =>
    simp only [begin] at h
    split at h
    · cases (Index.get?_insert_self _ _ _).symm.trans h
      rfl
    · exact absurd h hsame
  | publish e =>
    obtain ⟨k', rest, source, -, hjob⟩ := exists_of_jobs_tell h
    cases hjob

/-- Whoever waits for the answer to patterns has waited before, or has just ordered the push. -/
theorem patterns_of_act (hin : w.InLine) {j : JobId} {keeps : List Listener}
    {patterns : List String}
    (h : (w.act a).1.jobs.get? j = some ⟨keeps, .patterns k patterns⟩) :
    w.jobs.get? j = some ⟨keeps, .patterns k patterns⟩ ∨ a = .begin j (.pushPatterns k) := by
  cases hold : w.jobs.get? j with
  | none =>
    obtain ⟨operation, rfl, hjob⟩ := exists_begin_of_act hold h
    exact Or.inr (congrArg (Action.begin j) (patterns_of_begin hold hjob))
  | some job =>
    by_cases ha : ∃ refused, a = .proceed j refused
    · obtain ⟨refused, rfl⟩ := ha
      rcases jobs_proceed_cases hin hold h with
        ⟨hsame, -⟩ | ⟨k', c, s, sequel, -, -, hsent⟩ | ⟨k', batch, renews, sequel, s, -, hs, hgoOn⟩
      · exact Or.inl (congrArg some hsame.symm)
      · cases hsent
      · obtain ⟨e, audience, rest, k₁, keeps₁, source, outcome, -, hturn, -⟩ :=
          exists_of_jobs_goOn ((Index.get?_modify_self _ _ _).trans
            (congrArg (Option.map _) hs)) hgoOn
        cases hturn
    · rw [get?_jobs_act_of_some hold fun refused hr => ha ⟨refused, hr⟩] at h
      exact Or.inl h

/-- Where nobody orders a push, nobody waits for the answer to one. -/
theorem not_patterns_before (hdebounced : ∀ j, Action.begin j (.pushPatterns k) ∉ actions)
    (n : Nat) (j : JobId) (keeps : List Listener) (patterns : List String) :
    (start.before actions n).jobs.get? j ≠ some ⟨keeps, .patterns k patterns⟩ := by
  induction n with
  | zero => exact nofun
  | succ n ih =>
    intro hjob
    cases hn : actions[n]? with
    | none =>
      rw [before_succ_of_none hn] at hjob
      exact ih hjob
    | some a =>
      rw [before_succ hn] at hjob
      rcases patterns_of_act (inLine_before actions n) hjob with hold | rfl
      · exact ih hold
      · exact hdebounced j (List.mem_of_getElem? hn)

/-- Where nobody orders a push, a list is answered before the next one is sent. -/
theorem Deed.answeredPatterns (h : w.Deed k s a s' told) (hs : s.Paced)
    (hbegin : ∀ j, a ≠ .begin j (.pushPatterns k))
    (hwait : ∀ j keeps patterns, w.jobs.get? j ≠ some ⟨keeps, .patterns k patterns⟩) :
    told.filterMap Event.answeredPatterns? ++ s'.sending.toList =
      s.sending.toList ++ told.filterMap Event.sentPatterns? := by
  have hquiet : ∀ t : Skipper, t.sending = s.sending →
      [] ++ t.sending.toList = s.sending.toList ++ [] := by
    intro t ht
    rw [ht, List.nil_append, List.append_nil]
  cases h with
  | turn =>
    split <;> exact hquiet _ rfl
  | @leave _ _ _ _ renews _ _ _ =>
    split <;> cases renews <;> exact hquiet _ rfl
  | order => exact absurd rfl (hbegin _)
  | ordered hjob => exact absurd hjob (hwait _ _ _)
  | @push now latency d more hstep =>
    obtain ⟨-, ⟨hes, -⟩ | ⟨_, -, hidle, -⟩ | ⟨_, hes, -⟩⟩ := (hs.sound.arm now).step hstep
    · cases hes
    · rw [Debouncer.isBusy_arm, ← hs.sending, Bool.not_eq_true, Option.isSome_eq_false_iff,
        Option.isNone_iff_eq_none] at hidle
      rw [hidle]
      rfl
    · cases hes
  | @pushed now latency d more hstep =>
    obtain ⟨-, ⟨hes, -⟩ | ⟨_, hes, -⟩ | ⟨_, -, hbusy, -⟩⟩ := (hs.sound.arm now).step hstep
    · cases hes
    · cases hes
    · rw [Debouncer.isBusy_arm, ← hs.sending, Option.isSome_iff_exists] at hbusy
      obtain ⟨patterns, hsending⟩ := hbusy
      rw [hsending]
      simp [Event.answeredPatterns?, Event.sentPatterns?, endPush, hsending]
  | learn reply =>
    refine hquiet _ ?_
    unfold Skipper.learn
    split <;> rfl
  | _ => exact hquiet _ rfl

theorem answered_before (hdebounced : ∀ j, Action.begin j (.pushPatterns k) ∉ actions)
    (hs : (start.before actions n).sessions.get? k = some s) :
    patternsAnsweredTo k (start.heard actions n) ++ s.sending.toList =
      patternsSentTo k (start.heard actions n) := by
  refine session_induction inLine_start seated_start (P := fun n s =>
      patternsAnsweredTo k (start.heard actions n) ++ s.sending.toList =
        patternsSentTo k (start.heard actions n))
    (fun _ h => by cases h) (fun n o subscription hn hk => ?_) (fun n s hn h => ?_)
    (fun n a s s' hn hs _ hdeed h => ?_) hs
  · have hsilent : seenBy k (start.heard actions (n + 1)) = [] := by
      rw [heard_succ hn, seenBy_append, seenBy_heard_of_le (Nat.le_of_eq (by rw [hk]))]
      rfl
    rw [patternsAnsweredTo, patternsSentTo, hsilent]
    rfl
  · rwa [heard_succ_of_none hn]
  · have hstep := hdeed.answeredPatterns (paced_before hs)
      (fun j ha => hdebounced j (ha ▸ List.mem_of_getElem? hn))
      (not_patterns_before hdebounced n)
    rw [heard_succ hn, patternsAnsweredTo_append, patternsSentTo_append, List.append_assoc, hstep,
      ← List.append_assoc, h]

/-! ## When a session is due -/

/-- A push of the session is scheduled that has not begun, or a job that will schedule one waits for
the answer to its ranges. -/
def Due (w : World) (k : Listener) (s : Skipper) : Prop :=
  s.debouncer.IsDue ∨
    ∃ j keeps batch sequel, w.jobs.get? j = some ⟨keeps, .ranges k batch true sequel⟩

/-- **A session stays due until it pushes**, and then it pushes what its policy calls for. -/
theorem Deed.due (h : w.Deed k s a s' told) (hs : s.Paced) (hdue : w.Due k s) :
    (w.act a).1.Due k s' ∨ told.filterMap Event.sentPatterns? ≠ [] := by
  rcases hdue with hdue | ⟨j, keeps, batch, sequel, hjob⟩
  · cases h with
    | @leave _ _ _ _ renews _ _ _ =>
      cases renews with
      | true => exact Or.inl (Or.inl (Debouncer.isDue_fire _ _ _))
      | false => exact Or.inl (Or.inl hdue)
    | order | push => exact Or.inr (List.cons_ne_nil _ _)
    | @pushed now latency d more hstep =>
      obtain ⟨-, ⟨hes, -⟩ | ⟨_, hes, -⟩ | ⟨_, -, -, -, hiff⟩⟩ := (hs.sound.arm now).step hstep
      · cases hes
      · cases hes
      · exact Or.inl (Or.inl (hiff.mpr ((Debouncer.isDue_arm _ _).mpr hdue)))
    | @drop now latency d hstep =>
      obtain ⟨-, ⟨-, -, -, hiff⟩ | ⟨_, hes, -⟩ | ⟨_, hes, -⟩⟩ := (hs.sound.arm now).step hstep
      · exact Or.inl (Or.inl (hiff.mpr ((Debouncer.isDue_arm _ _).mpr hdue)))
      · cases hes
      · cases hes
    | arm => exact Or.inl (Or.inl ((Debouncer.isDue_arm _ _).mpr hdue))
    | learn reply =>
      refine Or.inl (Or.inl ?_)
      unfold Skipper.learn
      split
      · exact Debouncer.isDue_fire _ _ _
      · exact hdue
    | _ => exact Or.inl (Or.inl hdue)
  · by_cases ha : ∃ refused, a = .proceed j refused
    · -- The job is answered, and schedules a push.
      obtain ⟨refused, rfl⟩ := ha
      cases h with
      | join line hserves =>
        exact absurd ⟨j, refused, rfl, Or.inr ⟨batch, keeps, true, sequel, hjob⟩⟩ hserves
      | turn hplans =>
        obtain ⟨keeps', sequel', hjob'⟩ := hplans.job
        cases hjob.symm.trans hjob'
      | leave line hjob' =>
        cases hjob.symm.trans hjob'
        exact Or.inl (Or.inl (Debouncer.isDue_fire _ _ _))
      | ordered hjob' => cases hjob.symm.trans hjob'
    · have hstays := get?_jobs_act_of_some hjob fun refused hr => ha ⟨refused, hr⟩
      exact Or.inl (Or.inr ⟨j, keeps, batch, sequel, hstays⟩)

/-- **Whatever alters the list of patterns makes the session due.** -/
theorem Deed.blackboxSources (h : w.Deed k s a s' told) :
    s'.policy.blackboxSources = s.policy.blackboxSources ∨ (w.act a).1.Due k s' := by
  cases h with
  | @turn j refused c hplans =>
    cases hrenews : c.renewsPatterns s.graph with
    | true =>
      obtain ⟨keeps, sequel, heq⟩ := hplans.proceed_eq refused
      refine Or.inr (Or.inr ⟨j, keeps, (s.carryOut c).1, sequel, ?_⟩)
      change (w.proceed j refused).1.jobs.get? j = _
      rw [heq, hrenews]
      exact Index.get?_insert_self _ _ _
    | false => exact Or.inl (SkipChange.blackboxSources_revise hrenews s.policy)
  | @leave _ _ _ _ renews _ _ _ => cases renews <;> exact Or.inl rfl
  | learn reply =>
    unfold Skipper.learn
    split
    · exact Or.inr (Or.inl (Debouncer.isDue_fire _ _ _))
    · exact Or.inl rfl
  | _ => exact Or.inl rfl

/-- A session that has never scheduled a push does not do so without being due. -/
theorem Deed.calls_eq_nil (h : w.Deed k s a s' told) (hnil : s.debouncer.calls = []) :
    s'.debouncer.calls = [] ∨ s'.debouncer.IsDue := by
  have hnone : ∀ {now : Instant} {latency : Nat} {es : List (Debouncer.Event Unit)}
      {d : Debouncer Unit},
      (s.debouncer.arm now).step? now (fun _ => latency) ≠ some (es, d) := by
    intro now latency es d hstep
    obtain ⟨c, rest, hcalls, -⟩ := Debouncer.step?_cases hstep
    rw [Debouncer.arm, hnil] at hcalls
    cases hcalls
  cases h with
  | @leave _ _ _ _ renews _ _ _ =>
    cases renews with
    | true => exact Or.inr (Debouncer.isDue_fire _ _ _)
    | false => exact Or.inl hnil
  | push hstep | pushed hstep | drop hstep => exact absurd hstep hnone
  | arm =>
    refine Or.inl ?_
    rw [Debouncer.arm, hnil]
    rfl
  | learn reply =>
    unfold Skipper.learn
    split
    · exact Or.inr (Debouncer.isDue_fire _ _ _)
    · exact Or.inl hnil
  | _ => exact Or.inl hnil

/-! ## What was sent last -/

/-- Up to this moment the session has never scheduled a push and nothing was sent to it, and its
policy calls for the patterns that it was opened with. -/
structure Untouched (actions : List Action) (n : Nat) (k : Listener) (s : Skipper) : Prop where
  silent : patternsSentTo k (start.heard actions n) = []
  idle : ∀ m ≤ n, ∀ t, (start.before actions m).sessions.get? k = some t → t.debouncer.calls = []
  opened : ∃ m o, m < n ∧ actions[m]? = some (.openSession o) ∧
    k = ⟨(start.before actions m).nextListener⟩ ∧
      s.policy.blackboxSources = o.policy.blackboxSources

theorem untouched_opening {o : Opening} (hn : actions[n]? = some (.openSession o))
    (hk : k = ⟨(start.before actions n).nextListener⟩) (subscription : Subscription) :
    Untouched actions (n + 1) k (o.skipper subscription) where
  silent := by
    rw [heard_succ hn, patternsSentTo_append, patternsSentTo,
      seenBy_heard_of_le (Nat.le_of_eq (by rw [hk]))]
    rfl
  idle m hm t ht := by
    have hnew : ∀ i ≤ n, ∀ u, (start.before actions i).sessions.get? k ≠ some u := by
      intro i hi u hu
      have hlt := lt_nextListener_before hi hu
      rw [hk] at hlt
      exact Nat.lt_irrefl _ hlt
    rcases Nat.le_succ_iff.mp hm with hm | rfl
    · exact absurd ht (hnew m hm t)
    · rcases session_before_succ (seated_before actions n) hn ht with ⟨o', _, -, -, rfl⟩ | ⟨u, hu, -⟩
      · rfl
      · exact absurd hu (hnew n (Nat.le_refl n) u)
  opened := ⟨n, o, Nat.lt_succ_self n, hn, hk, rfl⟩

theorem Untouched.succ (h : Untouched actions n k s)
    (hsilent : patternsSentTo k (start.heard actions (n + 1)) = [])
    (hidle : ∀ t, (start.before actions (n + 1)).sessions.get? k = some t → t.debouncer.calls = [])
    (hsame : s'.policy.blackboxSources = s.policy.blackboxSources) :
    Untouched actions (n + 1) k s' where
  silent := hsilent
  idle m hm t ht := by
    rcases Nat.le_succ_iff.mp hm with hm | rfl
    · exact h.idle m hm t ht
    · exact hidle t ht
  opened := by
    obtain ⟨m, o, hm, hopen, hk, hpolicy⟩ := h.opened
    exact ⟨m, o, Nat.lt_succ_of_lt hm, hopen, hk, hsame.trans hpolicy⟩

/-- **The list that was sent last is the one that the policy calls for**, unless the session is due,
or has never had anything to push. -/
theorem last_patterns (hs : (start.before actions n).sessions.get? k = some s) :
    (start.before actions n).Due k s ∨
      (patternsSentTo k (start.heard actions n)).getLast? = some s.policy.blackboxSources ∨
        Untouched actions n k s := by
  induction n generalizing s with
  | zero => cases hs
  | succ n ih =>
    cases hn : actions[n]? with
    | none =>
      have hheard := heard_succ_of_none hn (w := start)
      have hbefore := before_succ_of_none hn (w := start)
      rw [hbefore] at hs
      rw [hbefore, hheard]
      refine (ih hs).imp_right fun h => h.imp_right fun h => h.succ (hheard ▸ h.silent) ?_ rfl
      rw [hbefore]
      exact h.idle n (Nat.le_refl n)
    | some a =>
      rcases session_before_succ (seated_before actions n) hn hs with
        ⟨o, subscription, rfl, hk, rfl⟩ | ⟨t, ht, hdeed⟩
      · exact Or.inr (Or.inr (untouched_opening hn hk subscription))
      · have hsent := congrArg (patternsSentTo k) (heard_succ hn (w := start))
        rw [patternsSentTo_append] at hsent
        rw [before_succ hn, hsent]
        rcases hdeed.sentPatterns with hsilent | ⟨hone, hpolicy⟩
        · rw [hsilent, List.append_nil] at hsent ⊢
          rcases hdeed.blackboxSources with hsame | hdue
          · rcases ih ht with hdue | hlast | huntouched
            · exact (hdeed.due (paced_before ht) hdue).imp_right fun h => absurd hsilent h
            · exact Or.inr (Or.inl (hsame.symm ▸ hlast))
            · rcases hdeed.calls_eq_nil (huntouched.idle n (Nat.le_refl n) t ht) with hnil | hdue
              · refine Or.inr (Or.inr (huntouched.succ (hsent.trans huntouched.silent) ?_ hsame))
                exact fun u hu => Option.some.inj (hs.symm.trans hu) ▸ hnil
              · exact Or.inl (Or.inl hdue)
          · exact Or.inl hdue
        · rw [hone, hpolicy, List.getLast?_concat]
          exact Or.inr (Or.inl rfl)

end World

/-- **Patterns in the runtime**, at any moment of any run in which nobody orders a push by hand.
The lists that were sent to a session are those that its policy called for at moments of the run,
one after the other.  All of them have been answered but the one that is on its way, if there is
one.  The last one is what the policy calls for, unless the session is due or has never had anything
to push.  So if no push is scheduled or on its way, and no answer to ranges is awaited, and a push
was scheduled at some moment, then the runtime has been sent what the policy calls for. -/
theorem patterns_spec {actions : List Action} {k : Listener}
    (hdebounced : ∀ j, Action.begin j (.pushPatterns k) ∉ actions) (n : Nat) :
    (∃ moments : List Nat, moments.Pairwise (· < ·) ∧ (∀ m ∈ moments, m < n) ∧
      List.Forall₂ (fun m patterns => World.start.PatternsAt actions m k patterns) moments
        (patternsSentTo k (World.start.heard actions n))) ∧
    ∀ s, (World.start.before actions n).sessions.get? k = some s →
      patternsAnsweredTo k (World.start.heard actions n) ++ s.sending.toList =
        patternsSentTo k (World.start.heard actions n) ∧
      ((World.start.before actions n).Due k s ∨
        (patternsSentTo k (World.start.heard actions n)).getLast? =
          some s.policy.blackboxSources ∨
        World.Untouched actions n k s) ∧
      (s.debouncer.isPending = false →
        (∀ j batch, ¬ (World.start.before actions n).Awaits j k batch) →
        (∃ m ≤ n, ∃ t, (World.start.before actions m).sessions.get? k = some t ∧
          t.debouncer.isPending = true) →
        (patternsSentTo k (World.start.heard actions n)).getLast? =
          some s.policy.blackboxSources) := by
  refine ⟨World.exists_moments actions k n, fun s hs => ⟨World.answered_before hdebounced hs,
    World.last_patterns hs, fun hidle hnone hscheduled => ?_⟩⟩
  rcases World.last_patterns hs with hdue | hlast | huntouched
  · rcases hdue with ⟨c, hc, -⟩ | ⟨j, keeps, batch, sequel, hjob⟩
    · have hne : s.debouncer.calls.isEmpty = false :=
        List.isEmpty_eq_false_iff.mpr (List.ne_nil_of_mem (List.mem_of_getLast? hc))
      rw [Debouncer.isPending, hne] at hidle
      cases hidle
    · exact absurd ⟨keeps, true, sequel, hjob⟩ (hnone j batch)
  · exact hlast
  · obtain ⟨m, hm, t, ht, hpending⟩ := hscheduled
    rw [Debouncer.isPending, huntouched.idle m hm t ht] at hpending
    cases hpending

/-! ## One toggle, one push -/

/-- A file is toggled, and then nothing happens until the push is over. -/
def unhurried : List Action :=
  [.openSession ⟨⟨"page"⟩, ⟨"page"⟩, .ofGlobs [] none .sensitive, .empty, 500, false⟩,
    .begin ⟨0⟩ (.toggle ⟨0⟩ (.resource "/app/main.js")), .proceed ⟨0⟩ [], .proceed ⟨0⟩ [],
    .tick ⟨0⟩ 0 0, .tick ⟨0⟩ 500 50, .tick ⟨0⟩ 550 0]

/-- The push sends the patterns of the policy that the toggle has made. -/
theorem patterns_spec_unhurried :
    (∀ j, Action.begin j (.pushPatterns ⟨0⟩) ∉ unhurried) ∧
    ∃ s, (World.start.before unhurried 7).sessions.get? ⟨0⟩ = some s ∧
      s.policy = (SkipPolicy.ofGlobs [] none .sensitive).setExplicitSkip "/app/main.js" true ∧
      (patternsSentTo ⟨0⟩ (World.start.heard unhurried 7)).getLast? =
        some s.policy.blackboxSources := by
  have hdebounced : ∀ j, Action.begin j (.pushPatterns ⟨0⟩) ∉ unhurried := by simp [unhurried]
  refine ⟨hdebounced, _, rfl, rfl, ?_⟩
  refine ((patterns_spec hdebounced 7).2 _ rfl).2.2 rfl ?_ ⟨4, by decide, _, rfl, rfl⟩
  rintro j batch ⟨keeps, renews, sequel, hjob⟩
  cases hjob

end Skipper
end DebugTree
