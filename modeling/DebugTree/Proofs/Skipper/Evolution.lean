import DebugTree.Proofs.Index
import DebugTree.Proofs.Policy.Explicit
import DebugTree.Skipper.World
import Mathlib.Logic.Relation

/-!
# How a world of sessions evolves

There are many actions but few things that can happen to a session: it is joined and left by jobs,
carries a change out, sends patterns, learns the builtin modules, is let go of, or gets another
graph.  `Skipper.Move` lists them.  Whatever an action does, apart from opening a session and from
burying the dead, is a row of such moves on single sessions together with a change of the jobs; this
is proved once, in `evolves_take`, and a property of sessions that every move keeps is then a
property of every session of every run.

A world is *reachable* if it comes out of a run in which sessions are opened with lawful policies.
-/

namespace DebugTree

open Protocol

namespace Skipper

/-! ## Moves of one session -/

/-- The things that can happen to a living session. -/
inductive Move : Skipper → Skipper → Prop
  | join (s : Skipper) (j : JobId) : Move s (s.join j)
  | leave (s : Skipper) : Move s s.leave
  | carryOut (s : Skipper) (c : SkipChange) : Move s (s.carryOut c).2
  | schedule (s : Skipper) : Move s s.schedule
  | startPush (s : Skipper) : Move s s.startPush.2
  | endPush (s : Skipper) : Move s s.endPush.2
  | debounce (s : Skipper) (d : Debouncer Unit) : Move s { s with debouncer := d }
  | inquire (s : Skipper) : Move s { s with discovery := .asked }
  | learn (s : Skipper) (reply : Except Fault Json) : Move s (s.learn reply)
  | release (s : Skipper) : Move s { s with isOwned := false }
  | regraph (s : Skipper) (g : SourceGraph) : Move s { s with graph := g }

/-- A row of moves. -/
abbrev Moves : Skipper → Skipper → Prop :=
  Relation.ReflTransGen Move

theorem Moves.of_move {s t : Skipper} (h : Move s t) : Moves s t :=
  Relation.ReflTransGen.single h

theorem Moves.preserves {P : Skipper → Prop} (hP : ∀ s t, Move s t → P s → P t) {s t : Skipper}
    (h : Moves s t) (hs : P s) : P t := by
  induction h with
  | refl => exact hs
  | tail _ hmove ih => exact hP _ _ hmove ih

@[simp] theorem learn_target (s : Skipper) (reply : Except Fault Json) :
    (s.learn reply).target = s.target := by
  unfold learn
  split <;> rfl

@[simp] theorem learn_root (s : Skipper) (reply : Except Fault Json) :
    (s.learn reply).root = s.root := by
  unfold learn
  split <;> rfl

@[simp] theorem learn_subscription (s : Skipper) (reply : Except Fault Json) :
    (s.learn reply).subscription = s.subscription := by
  unfold learn
  split <;> rfl

@[simp] theorem learn_line (s : Skipper) (reply : Except Fault Json) :
    (s.learn reply).line = s.line := by
  unfold learn
  split <;> rfl

theorem Move.lawful {s t : Skipper} (h : Move s t) (hs : s.policy.Lawful) : t.policy.Lawful := by
  cases h with
  | carryOut c => exact SkipChange.lawful_revise s.graph hs c
  | learn reply =>
    unfold Skipper.learn
    split
    · exact hs.setBuiltins _
    · exact hs
  | _ => exact hs

/-! ## Evolution of a world -/

/-- One world comes out of another by moves of single sessions, and some change of the jobs. -/
inductive Evolves (w : World) : World → Prop
  | refl : Evolves w w
  | update {w' : World} (h : Evolves w w') (k : Listener) (f : Skipper → Skipper)
      (hf : ∀ s, w'.sessions.get? k = some s → Moves s (f s)) : Evolves w (w'.update k f)
  | jobs {w' : World} (h : Evolves w w') (jobs : Index JobId Job) : Evolves w { w' with jobs }

namespace Evolves

variable {w w' w'' : World}

theorem trans (h : Evolves w w') (h' : Evolves w' w'') : Evolves w w'' := by
  induction h' with
  | refl => exact h
  | update _ k f hf ih => exact ih.update k f hf
  | jobs _ jobs ih => exact ih.jobs jobs

theorem bus_eq (h : Evolves w w') : w'.bus = w.bus := by
  induction h with
  | refl => rfl
  | update _ _ _ _ ih => exact ih
  | jobs _ _ ih => exact ih

theorem nextListener_eq (h : Evolves w w') : w'.nextListener = w.nextListener := by
  induction h with
  | refl => rfl
  | update _ _ _ _ ih => exact ih
  | jobs _ _ ih => exact ih

theorem keys_eq (h : Evolves w w') : w'.sessions.keys = w.sessions.keys := by
  induction h with
  | refl => rfl
  | update _ k f _ ih => exact (Index.keys_modify _ k f).trans ih
  | jobs _ _ ih => exact ih

/-- Every session comes from the session of that number by moves. -/
theorem exists_moves (h : Evolves w w') {k : Listener} {t : Skipper}
    (ht : w'.sessions.get? k = some t) : ∃ s, w.sessions.get? k = some s ∧ Moves s t := by
  induction h generalizing t with
  | refl => exact ⟨t, ht, .refl⟩
  | update _ k' f hf ih =>
    rw [World.update, Index.get?_modify] at ht
    split at ht
    · next hk =>
      subst hk
      obtain ⟨s', hs', rfl⟩ := Option.map_eq_some_iff.mp ht
      obtain ⟨s, hs, hmoves⟩ := ih hs'
      exact ⟨s, hs, hmoves.trans (hf s' hs')⟩
    · exact ih ht
  | jobs _ _ ih => exact ih ht

end Evolves

namespace World

variable {w : World}

/-! ## What proceeding does -/

section

variable {j : JobId} {refused : List ScriptId} {keeps : List Listener} {k : Listener}
  {c : SkipChange} {sequel : Sequel} {s : Skipper}

/-- Whoever has its turn carries its change out and sends the batch. -/
theorem proceed_turn (hj : w.jobs.get? j = some ⟨keeps, .turn k c sequel⟩)
    (hs : w.sessions.get? k = some s) (hturn : s.isTurnOf j = true) :
    w.proceed j refused =
      ((w.update k fun _ => (s.carryOut c).2).suspend j keeps
        (.ranges k (s.carryOut c).1 (c.renewsPatterns s.graph) sequel),
       if (s.carryOut c).1.entries.isEmpty then [] else [.rangesSent k (s.carryOut c).1]) := by
  simp only [proceed, hj, hs, hturn, if_true]

theorem proceed_turn_of_not (hj : w.jobs.get? j = some ⟨keeps, .turn k c sequel⟩)
    (hs : w.sessions.get? k = some s) (hturn : ¬ s.isTurnOf j = true) :
    w.proceed j refused = (w, []) := by
  simp only [proceed, hj, hs, if_neg hturn]

/-- A job whose batch is answered leaves the line and goes on. -/
theorem proceed_ranges {batch : RangeBatch} {renews : Bool}
    (hj : w.jobs.get? j = some ⟨keeps, .ranges k batch renews sequel⟩) :
    w.proceed j refused =
      let w' := w.update k fun s => (if renews then s.schedule else s).leave
      ((w'.goOn j keeps k sequel).1,
       if batch.entries.isEmpty then (w'.goOn j keeps k sequel).2
       else .rangesAnswered k batch refused :: (w'.goOn j keeps k sequel).2) := by
  simp only [proceed, hj]

end

/-! ## Every action but an opening is an evolution -/

theorem evolves_update {k : Listener} {f : Skipper → Skipper}
    (hf : ∀ s, w.sessions.get? k = some s → Moves s (f s)) : Evolves w (w.update k f) :=
  .update .refl k f hf

theorem evolves_move {k : Listener} {f : Skipper → Skipper} (hf : ∀ s, Move s (f s)) :
    Evolves w (w.update k f) :=
  evolves_update fun s _ => .of_move (hf s)

/-- A session is replaced by one that it moves to. -/
theorem evolves_replace {k : Listener} {s t : Skipper} (hs : w.sessions.get? k = some s)
    (h : Moves s t) : Evolves w (w.update k fun _ => t) :=
  evolves_update fun s' hs' => by
    rw [hs] at hs'
    exact Option.some.inj hs' ▸ h

/-- A session whose first in line leaves, after a change that concerns the patterns or not. -/
theorem evolves_leave (w : World) (k : Listener) (renews : Bool) :
    Evolves w (w.update k fun s => (if renews then s.schedule else s).leave) := by
  refine evolves_update fun s _ => ?_
  cases renews with
  | true => exact .tail (Moves.of_move (.schedule s)) (.leave _)
  | false => exact Moves.of_move (.leave s)

theorem evolves_bring (j : JobId) (keeps : List Listener) (k : Listener) (c : SkipChange)
    (sequel : Sequel) : Evolves w (w.bring j keeps k c sequel) :=
  .jobs (evolves_move fun s => .join s j) _

theorem evolves_tell (j : JobId) (keeps : List Listener) (e : SkipToggled) (outcome : Outcome)
    (audience : List Listener) : Evolves w (w.tell j keeps e outcome audience).1 := by
  induction audience with
  | nil => exact .jobs .refl _
  | cons k rest ih =>
    rw [tell]
    split
    · exact evolves_bring _ _ _ _ _
    · exact ih

theorem evolves_goOn (j : JobId) (keeps : List Listener) (k : Listener) (sequel : Sequel) :
    Evolves w (w.goOn j keeps k sequel).1 := by
  cases sequel with
  | finish => exact .jobs .refl _
  | announce url was =>
    simp only [goOn]
    split
    · split
      · exact .jobs .refl _
      · exact evolves_tell _ _ _ _ _
    · exact .refl
  | deliver e rest outcome => exact evolves_tell _ _ _ _ _

theorem evolves_begin (j : JobId) (operation : Operation) :
    Evolves w (w.begin j operation).1 := by
  cases operation with
  | load k source =>
    simp only [begin]
    split
    · exact evolves_bring _ _ _ _ _
    · exact .refl
  | toggle k request =>
    simp only [begin]
    split
    · split
      · exact evolves_bring _ _ _ _ _
      · exact .jobs .refl _
    · exact .refl
  | ask k url =>
    simp only [begin]
    split
    · exact .jobs .refl _
    · exact .refl
  | pushPatterns k =>
    simp only [begin]
    split
    · exact .jobs .refl _
    · exact .refl
  | publish e => exact evolves_tell _ _ _ _ _

theorem evolves_proceed (j : JobId) (refused : List ScriptId) :
    Evolves w (w.proceed j refused).1 := by
  unfold proceed
  split
  · split
    · next s hs =>
      split
      · exact .jobs (evolves_replace hs (Moves.of_move (.carryOut s _))) _
      · exact .refl
    · exact .refl
  · next k batch renews sequel _ =>
    exact (evolves_leave w k renews).trans (evolves_goOn _ _ _ _)
  · exact .jobs .refl _
  · exact .refl

theorem evolves_tick (k : Listener) (now : Instant) (latency : Nat) :
    Evolves w (w.tick k now latency).1 := by
  unfold tick
  split
  · next s hs =>
    simp only
    split
    · exact evolves_replace hs (.tail (Moves.of_move (.startPush s)) (.debounce _ _))
    · exact evolves_replace hs (.tail (Moves.of_move (.endPush s)) (.debounce _ _))
    · exact evolves_replace hs (Moves.of_move (.debounce s _))
    · exact evolves_replace hs (Moves.of_move (.debounce s _))
  · exact .refl

theorem evolves_inquire (k : Listener) : Evolves w (w.inquire k).1 := by
  unfold inquire
  split
  · split
    · exact evolves_move fun s => .inquire s
    · exact .refl
  · exact .refl

theorem evolves_answer (k : Listener) (reply : Except Fault Json) :
    Evolves w (w.answer k reply).1 := by
  unfold answer
  split
  · split
    · exact evolves_move fun s => .learn s reply
    · exact .refl
  · exact .refl

end World

/-- The action opens a session. -/
def Action.IsOpening : Action → Prop
  | .openSession _ => True
  | _ => False

namespace World

variable {w : World}

/-- **What an action does to the sessions is a row of moves**, unless it opens one. -/
theorem evolves_take {a : Action} (ha : ¬ a.IsOpening) : Evolves w (w.take a).1 := by
  cases a with
  | openSession o => exact absurd trivial ha
  | closeSession k => exact evolves_move fun s => .release s
  | replaceGraph k graph => exact evolves_move fun s => .regraph s graph
  | begin j operation =>
    simp only [take]
    split
    · exact .refl
    · exact evolves_begin j operation
  | proceed j refused => exact evolves_proceed j refused
  | tick k now latency => exact evolves_tick k now latency
  | inquire k => exact evolves_inquire k
  | answer k reply => exact evolves_answer k reply

/-! ## Reachable worlds -/

end World

/-- The action is one that can happen: sessions are opened with policies made of globs. -/
def Action.Lawful : Action → Prop
  | .openSession o => o.policy.Lawful
  | _ => True

/-- The worlds that runs come to. -/
inductive Reachable : World → Prop
  | start : Reachable World.start
  | act {w : World} (h : Reachable w) {a : Action} (ha : a.Lawful) : Reachable (w.act a).1

theorem Reachable.run {w : World} (h : Reachable w) {actions : List Action}
    (ha : ∀ a ∈ actions, a.Lawful) : Reachable (w.run actions).1 := by
  induction actions generalizing w with
  | nil => exact h
  | cons a rest ih =>
    exact ih (h.act (ha a List.mem_cons_self)) fun b hb => ha b (List.mem_cons_of_mem a hb)

/-- The session that an opening makes. -/
def Opening.skipper (o : Opening) (subscription : Subscription) : Skipper where
  target := o.target
  root := o.root
  policy := o.policy
  graph := o.graph
  skipping := []
  line := []
  window := o.window
  debouncer := .idle
  sending := none
  discovery := if o.hasBuiltins then .due else .closed
  subscription := subscription
  isOwned := true

theorem Evolves.forall_entries {P : Skipper → Prop} (hP : ∀ s t, Move s t → P s → P t)
    {w w' : World} (h : Evolves w w') (hw : ∀ e ∈ w.sessions.entries, P e.2) :
    ∀ e ∈ w'.sessions.entries, P e.2 := by
  induction h with
  | refl => exact hw
  | @update w' _ k f hf ih =>
    rw [World.update]
    cases hs : w'.sessions.get? k with
    | none => rwa [Index.modify_of_get?_eq_none hs]
    | some s =>
      rw [Index.modify_of_get? hs]
      intro e he
      rcases Index.mem_entries_insert he with rfl | he
      · exact (hf s hs).preserves hP (ih _ (Index.mem_entries_of_get? hs))
      · exact ih e he
  | jobs _ _ ih => exact ih

/-- **An invariant of sessions holds in every reachable world** if sessions are opened with it and
every move keeps it. -/
theorem Reachable.forall_sessions {P : Skipper → Prop}
    (hopen : ∀ (o : Opening) (subscription : Subscription), o.policy.Lawful →
      P (o.skipper subscription))
    (hmove : ∀ s t, Move s t → P s → P t) {w : World} (h : Reachable w) :
    ∀ e ∈ w.sessions.entries, P e.2 := by
  induction h with
  | start => exact fun e he => absurd he (List.not_mem_nil)
  | @act w _ a ha ih =>
    have htake : ∀ e ∈ (w.take a).1.sessions.entries, P e.2 := by
      by_cases hopening : a.IsOpening
      · cases a with
        | openSession o =>
          intro e he
          rcases Index.mem_entries_insert he with rfl | he
          · exact hopen o _ ha
          · exact ih e he
        | _ => exact absurd hopening (by simp [Action.IsOpening])
      · exact (World.evolves_take hopening).forall_entries hmove ih
    exact fun e he => htake e (List.mem_filter.mp he).1

/-- Every policy in a reachable world is lawful. -/
theorem Reachable.lawful {w : World} (h : Reachable w) {k : Listener} {s : Skipper}
    (hs : w.sessions.get? k = some s) : s.policy.Lawful :=
  h.forall_sessions (P := fun s => s.policy.Lawful) (fun _ _ ho => ho)
    (fun _ _ hmove => hmove.lawful) _ (Index.mem_entries_of_get? hs)

end Skipper
end DebugTree
