import DebugTree.Proofs.Run
import DebugTree.Proofs.Skipper.Lines

/-!
# What is sent to a session, and when

Ranges leave a session at one place only: where a job has its turn and carries its change out.  A
step that does nothing of the kind is *unplanned*.  It sends no ranges, no session forgets or learns
which scripts have ranges, and nobody begins to wait for an answer to ranges.  Whatever an action
does, it is an opening, or it is unplanned, or it is somebody's turn (`take_cases`).

What was sent to a session is read off the events of a run; `issued` is what was sent for one
script, and `latest` what holds of it according to what was sent.
-/

namespace DebugTree

open Protocol

namespace Skipper

/-! ## Moments of a run -/

namespace World

variable {w : World} {actions : List Action} {n : Nat} {a : Action}

@[simp] theorem before_zero (w : World) (actions : List Action) : w.before actions 0 = w :=
  rfl

@[simp] theorem heard_zero (w : World) (actions : List Action) : w.heard actions 0 = [] :=
  rfl

theorem before_succ (hn : actions[n]? = some a) :
    w.before actions (n + 1) = ((w.before actions n).act a).1 :=
  fst_runOf_take_succ hn

theorem heard_succ (hn : actions[n]? = some a) :
    w.heard actions (n + 1) = w.heard actions n ++ ((w.before actions n).act a).2 :=
  snd_runOf_take_succ hn

theorem before_succ_of_none (hn : actions[n]? = none) :
    w.before actions (n + 1) = w.before actions n :=
  congrArg Prod.fst (runOf_take_succ_of_none hn)

theorem heard_succ_of_none (hn : actions[n]? = none) :
    w.heard actions (n + 1) = w.heard actions n :=
  congrArg Prod.snd (runOf_take_succ_of_none hn)

/-- The lines and the seats stay right throughout a run. -/
theorem InLine.before (hin : w.InLine) (hseated : w.Seated) (actions : List Action) (n : Nat) :
    (w.before actions n).InLine ∧ (w.before actions n).Seated := by
  refine runOf_induction (P := fun w : World => w.InLine ∧ w.Seated) ⟨hin, hseated⟩
    (fun w a h => ?_) (actions.take n)
  have hseats := h.2.take a
  exact ⟨(h.1.take h.2 a).reap hseats, hseats.reap⟩

end World

/-! ## What is sent for a script -/

/-- The batch that an event sends to a session. -/
def Event.batchFor? (k : Listener) : Event → Option RangeBatch
  | .rangesSent k' batch => if k' = k then some batch else none
  | _ => none

/-- The batches that are sent to a session, in their order. -/
def sentTo (k : Listener) (seen : List Event) : List RangeBatch :=
  seen.filterMap (Event.batchFor? k)

/-- The ranges that are sent for a script of a session, in their order. -/
def issued (k : Listener) (x : ScriptId) (seen : List Event) : List (List Position) :=
  (sentTo k seen).filterMap (·.get? x)

/-- The ranges that were sent for a script last, if any were. -/
def latest (k : Listener) (x : ScriptId) (seen : List Event) : List Position :=
  (issued k x seen).getLast?.getD []

variable {k : Listener} {x : ScriptId} {seen more : List Event} {batch : RangeBatch}

theorem mem_sentTo_iff : batch ∈ sentTo k seen ↔ .rangesSent k batch ∈ seen := by
  rw [sentTo, List.mem_filterMap]
  constructor
  · rintro ⟨e, he, hbatch⟩
    unfold Event.batchFor? at hbatch
    split at hbatch
    · next k' batch' =>
      split at hbatch
      · next hk => rwa [← hk, ← Option.some.inj hbatch]
      · cases hbatch
    · cases hbatch
  · exact fun he => ⟨_, he, if_pos rfl⟩

theorem sentTo_append (k : Listener) (seen more : List Event) :
    sentTo k (seen ++ more) = sentTo k seen ++ sentTo k more :=
  List.filterMap_append

theorem issued_append_of_sentTo_eq_nil (h : sentTo k more = []) (x : ScriptId) :
    issued k x (seen ++ more) = issued k x seen := by
  rw [issued, sentTo_append, h, List.append_nil, issued]

theorem latest_append_of_sentTo_eq_nil (h : sentTo k more = []) (x : ScriptId) :
    latest k x (seen ++ more) = latest k x seen := by
  rw [latest, issued_append_of_sentTo_eq_nil h, latest]

/-- A batch without entries is not sent at all, which makes no difference to any script. -/
theorem issued_append_batch (k : Listener) (x : ScriptId) (seen : List Event)
    (batch : RangeBatch) :
    issued k x (seen ++ if batch.entries.isEmpty then [] else [.rangesSent k batch]) =
      issued k x seen ++ (batch.get? x).toList := by
  have hone : issued k x [.rangesSent k batch] = (batch.get? x).toList := by
    simp only [issued, sentTo, Event.batchFor?, List.filterMap_cons, if_true, List.filterMap_nil]
    cases batch.get? x <;> rfl
  split
  · next hempty =>
    have hnone : batch.get? x = none := by
      rw [Index.get?, List.isEmpty_iff.mp hempty, Index.find?_nil]
    rw [List.append_nil, hnone, Option.toList_none, List.append_nil]
  · rw [← hone, issued, sentTo_append, List.filterMap_append]
    rfl

theorem latest_append_batch (k : Listener) (x : ScriptId) (seen : List Event)
    (batch : RangeBatch) :
    latest k x (seen ++ if batch.entries.isEmpty then [] else [.rangesSent k batch]) =
      (batch.get? x).getD (latest k x seen) := by
  rw [latest, issued_append_batch, List.getLast?_append, latest]
  cases batch.get? x <;> rfl

/-! ## Unplanned steps -/

/-- A step at which nobody has its turn: no ranges are sent, every session remembers the same
scripts, and whoever waits for an answer to ranges did so before. -/
structure World.Unplanned (w : World) (r : World × List Event) : Prop where
  skipping : ∀ k, (r.1.sessions.get? k).map (·.skipping) = (w.sessions.get? k).map (·.skipping)
  waiting : ∀ j job, r.1.jobs.get? j = some job → job.wait.IsSent → w.jobs.get? j = some job
  unsent : ∀ k, sentTo k r.2 = []

namespace World

variable {w w' : World} {j : JobId} {r : World × List Event}

theorem Unplanned.self (w : World) : w.Unplanned (w, []) :=
  ⟨fun _ => rfl, fun _ _ hj _ => hj, fun _ => rfl⟩

theorem Unplanned.trans (h : w.Unplanned (w', [])) (h' : w'.Unplanned r) : w.Unplanned r where
  skipping k := (h'.skipping k).trans (h.skipping k)
  waiting j job hj hsent := h.waiting j job (h'.waiting j job hj hsent) hsent
  unsent := h'.unsent

/-- Other things may be seen of a step as well. -/
theorem Unplanned.see (h : w.Unplanned r) (e : Event) (he : ∀ k, e.batchFor? k = none) :
    w.Unplanned (r.1, e :: r.2) :=
  ⟨h.skipping, h.waiting, fun k => (List.filterMap_cons_none (he k)).trans (h.unsent k)⟩

theorem unplanned_update {f : Skipper → Skipper}
    (hf : ∀ s, w.sessions.get? k = some s → (f s).skipping = s.skipping)
    (hseen : ∀ k, sentTo k seen = []) : w.Unplanned (w.update k f, seen) := by
  refine ⟨fun k' => ?_, fun _ _ hj _ => hj, hseen⟩
  rw [update, Index.get?_modify]
  split
  · next hk =>
    subst hk
    cases hs : w.sessions.get? k with
    | none => rfl
    | some s => exact congrArg some (hf s hs)
  · rfl

theorem unplanned_suspend (w : World) (j : JobId) (keeps : List Listener) (wait : Wait)
    (hwait : ¬ wait.IsSent) : w.Unplanned (w.suspend j keeps wait, []) := by
  refine ⟨fun _ => rfl, fun j' job hj hsent => ?_, fun _ => rfl⟩
  rcases Index.of_get?_insert_eq_some hj with ⟨-, rfl⟩ | hj
  · exact absurd hsent hwait
  · exact hj

theorem unplanned_finish (w : World) (j : JobId) (outcome : Outcome) :
    w.Unplanned (w.finish j outcome) :=
  ⟨fun _ => rfl, fun _ _ hj _ => (Index.get?_erase_eq_some_iff.mp hj).2, fun _ => rfl⟩

theorem unplanned_bring (w : World) (j : JobId) (keeps : List Listener) (k : Listener)
    (c : SkipChange) (sequel : Sequel) : w.Unplanned (w.bring j keeps k c sequel, []) := by
  have hjoin : w.Unplanned (w.update k (·.join j), []) :=
    unplanned_update (fun _ _ => rfl) fun _ => rfl
  exact hjoin.trans (unplanned_suspend _ j keeps (.turn k c sequel) id)

theorem unplanned_tell (w : World) (j : JobId) (keeps : List Listener) (e : SkipToggled)
    (outcome : Outcome) (audience : List Listener) :
    w.Unplanned (w.tell j keeps e outcome audience) := by
  induction audience with
  | nil => exact unplanned_finish w j outcome
  | cons k rest ih =>
    rw [tell]
    split
    · exact (unplanned_bring _ _ _ _ _ _).see _ fun _ => rfl
    · exact ih

theorem unplanned_goOn (w : World) (j : JobId) (keeps : List Listener) (k : Listener)
    (sequel : Sequel) : w.Unplanned (w.goOn j keeps k sequel) := by
  cases sequel with
  | finish => exact unplanned_finish w j _
  | announce url was =>
    simp only [goOn]
    split
    · split
      · exact unplanned_finish w j _
      · exact unplanned_tell _ _ _ _ _ _
    · exact .self w
  | deliver e rest outcome => exact unplanned_tell _ _ _ _ _ _

theorem unplanned_begin (w : World) (j : JobId) (operation : Operation) :
    w.Unplanned (w.begin j operation) := by
  cases operation with
  | load k source =>
    simp only [begin]
    split
    · exact unplanned_bring _ _ _ _ _ _
    · exact .self w
  | toggle k request =>
    simp only [begin]
    split
    · split
      · exact unplanned_bring _ _ _ _ _ _
      · exact unplanned_finish w j _
    · exact .self w
  | ask k url =>
    simp only [begin]
    split
    · exact unplanned_finish w j _
    · exact .self w
  | pushPatterns k =>
    simp only [begin]
    split
    · exact (unplanned_suspend w j [k] (.patterns k _) id).see _ fun _ => rfl
    · exact .self w
  | publish e => exact unplanned_tell _ _ _ _ _ _

theorem unplanned_tick (w : World) (k : Listener) (now : Instant) (latency : Nat) :
    w.Unplanned (w.tick k now latency) := by
  unfold tick
  split
  · next s hs =>
    have hreplace : ∀ (t : Skipper) (seen : List Event), t.skipping = s.skipping →
        (∀ k, sentTo k seen = []) → w.Unplanned (w.update k fun _ => t, seen) := by
      intro t seen ht
      refine unplanned_update fun s' hs' => ?_
      rw [hs] at hs'
      exact Option.some.inj hs' ▸ ht
    simp only
    split <;> exact hreplace _ _ rfl fun _ => rfl
  · exact .self w

theorem unplanned_inquire (w : World) (k : Listener) : w.Unplanned (w.inquire k) := by
  unfold inquire
  split
  · split
    · exact unplanned_update (fun _ _ => rfl) fun _ => rfl
    · exact .self w
  · exact .self w

theorem unplanned_answer (w : World) (k : Listener) (reply : Except Fault Json) :
    w.Unplanned (w.answer k reply) := by
  unfold answer
  split
  · split
    · refine unplanned_update (fun s _ => ?_) fun _ => rfl
      unfold learn
      split <;> rfl
    · exact .self w
  · exact .self w

/-! ## Turns -/

/-- It is the turn of a job, which brings a change to a session. -/
structure Plans (w : World) (j : JobId) (k : Listener) (c : SkipChange) (s : Skipper) : Prop where
  job : ∃ keeps sequel, w.jobs.get? j = some ⟨keeps, .turn k c sequel⟩
  session : w.sessions.get? k = some s
  turn : s.isTurnOf j = true

/-- A job has its turn at a session and waits for the answer to a batch. -/
def Awaits (w : World) (j : JobId) (k : Listener) (batch : RangeBatch) : Prop :=
  ∃ keeps renews sequel, w.jobs.get? j = some ⟨keeps, .ranges k batch renews sequel⟩

/-- A job takes its turn, or its step is unplanned. -/
theorem proceed_cases (w : World) (j : JobId) (refused : List ScriptId) :
    w.Unplanned (w.proceed j refused) ∨ ∃ k c s, w.Plans j k c s := by
  rcases hjob : w.jobs.get? j with _ | ⟨keeps, ⟨k, c, sequel⟩ | ⟨k, batch, renews, sequel⟩ | _⟩
  · rw [proceed, hjob]
    exact Or.inl (.self w)
  · cases hs : w.sessions.get? k with
    | none =>
      simp only [proceed, hjob, hs]
      exact Or.inl (.self w)
    | some s =>
      by_cases hturn : s.isTurnOf j = true
      · exact Or.inr ⟨k, c, s, ⟨keeps, sequel, hjob⟩, hs, hturn⟩
      · rw [proceed_turn_of_not hjob hs hturn]
        exact Or.inl (.self w)
  · rw [proceed_ranges hjob]
    have hleave : w.Unplanned
        (w.update k fun s => (if renews then s.schedule else s).leave, []) :=
      unplanned_update (fun s _ => by cases renews <;> rfl) fun _ => rfl
    have hgoOn := hleave.trans (unplanned_goOn _ j keeps k sequel)
    refine Or.inl ?_
    cases hempty : batch.entries.isEmpty with
    | true => exact hgoOn
    | false => exact hgoOn.see _ fun _ => rfl
  · simp only [proceed, hjob]
    exact Or.inl ((unplanned_finish w j _).see _ fun _ => rfl)

/-- **What an action does, as far as ranges are concerned.** -/
theorem take_cases (w : World) (a : Action) :
    (∃ o, a = .openSession o) ∨ w.Unplanned (w.take a) ∨
      ∃ j refused k c s, a = .proceed j refused ∧ w.Plans j k c s := by
  cases a with
  | openSession o => exact Or.inl ⟨o, rfl⟩
  | closeSession k => exact Or.inr (Or.inl (unplanned_update (fun _ _ => rfl) fun _ => rfl))
  | replaceGraph k graph => exact Or.inr (Or.inl (unplanned_update (fun _ _ => rfl) fun _ => rfl))
  | begin j operation =>
    simp only [take]
    split
    · exact Or.inr (Or.inl (.self w))
    · exact Or.inr (Or.inl (unplanned_begin w j operation))
  | proceed j refused =>
    refine Or.inr ((proceed_cases w j refused).imp_right ?_)
    rintro ⟨k, c, s, hplans⟩
    exact ⟨j, refused, k, c, s, rfl, hplans⟩
  | tick k now latency => exact Or.inr (Or.inl (unplanned_tick w k now latency))
  | inquire k => exact Or.inr (Or.inl (unplanned_inquire w k))
  | answer k reply => exact Or.inr (Or.inl (unplanned_answer w k reply))

end World
end Skipper
end DebugTree
