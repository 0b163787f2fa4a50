import DebugTree.Proofs.Run
import DebugTree.Proofs.Session.Ledger

/-!
# Whose step an action is

Most actions are a stretch of one call: they begin it, take it further or break it off.  Such an
action leaves every other call where it is, and all that is seen of it is about its own call
(`World.Confined`).  The other actions concern targets or records, and no call notices them until it
goes on.

A name is used for one call at a time.  To begin a call under the name of one that still waits
breaks the older one off, just as `abort` does: it never ends.
-/

namespace DebugTree
namespace Session

open Protocol

/-- The call whose stretch an action is. -/
def Action.call? : Action → Option CallId
  | .acquire c _ | .connection c _ | .complete c _ _ | .replay c _ | .resume c | .answer c _
  | .abort c => some c
  | .addTarget _ _ _ _ | .removeTarget _ | .forget _ | .hold _ | .letGo _ | .release _
  | .releaseSubtree _ => none

/-- The call that is no more after an action: it is broken off, or another one gets its name. -/
def Action.displaced? : Action → Option CallId
  | .acquire c _ | .connection c _ | .complete c _ _ | .replay c _ | .abort c => some c
  | _ => none

/-- The call that an event is about. -/
def Event.call : Event → CallId
  | .requested c _ _ | .asked c _ | .finished c _ => c

/-- A stretch of a call that does not put an end to it lets it go on, or answers it. -/
theorem Action.eq_resume_or_answer {a : Action} {c : CallId} (ha : a.call? = some c)
    (hstays : a.displaced? ≠ some c) : a = .resume c ∨ ∃ reply, a = .answer c reply := by
  cases a with
  | resume c' => cases ha; exact Or.inl rfl
  | answer c' reply => cases ha; exact Or.inr ⟨reply, rfl⟩
  | addTarget id name kind parent => cases ha
  | removeTarget id => cases ha
  | forget id => cases ha
  | hold target => cases ha
  | letGo target => cases ha
  | release id => cases ha
  | releaseSubtree target => cases ha
  | _ => exact absurd ha hstays

namespace World

variable {w w' : World} {c c' : CallId} {a : Action} {e : Event}

/-- A stretch of one call leaves targets and all other calls alone. -/
structure Confined (w : World) (c : CallId) (w' : World) (seen : List Event) : Prop where
  tree : w'.tree = w.tree
  root : w'.root = w.root
  debugType : w'.debugType = w.debugType
  calls : ∀ c', c ≠ c' → w'.calls.get? c' = w.calls.get? c'
  seen : ∀ e ∈ seen, e.call = c

namespace Confined

theorem same (w : World) (c : CallId) : w.Confined c w [] :=
  ⟨rfl, rfl, rfl, fun _ _ => rfl, fun _ he => absurd he List.not_mem_nil⟩

theorem finish (g : Registry) (result : Except Fault Outcome) :
    w.Confined c (({ w with registry := g } : World).finish c result).1
      (({ w with registry := g } : World).finish c result).2 := by
  refine ⟨rfl, rfl, rfl, fun c' hne => ?_, fun e he => ?_⟩
  · exact (Index.get?_erase _ _ _).trans (if_neg hne)
  · rw [List.mem_singleton.mp he]
    rfl

theorem suspend (g : Registry) (call : Call) {seen : List Event}
    (hseen : ∀ e ∈ seen, e.call = c) :
    w.Confined c (({ w with registry := g } : World).suspend c call) seen :=
  ⟨rfl, rfl, rfl, fun _ hne => (Index.get?_insert _ _ _ _).trans (if_neg hne), hseen⟩

theorem request (g : Registry) (target : TargetHandle) (own : RecordHandle)
    (route : ConnectionId) :
    w.Confined c (({ w with registry := g } : World).request c target own route).1
      (({ w with registry := g } : World).request c target own route).2 := by
  refine suspend g _ fun e he => ?_
  rw [List.mem_singleton.mp he]
  rfl

theorem ask (g : Registry) (target : TargetHandle) (todo : List AdapterCall) :
    w.Confined c (({ w with registry := g } : World).ask c target todo).1
      (({ w with registry := g } : World).ask c target todo).2 := by
  cases todo with
  | nil => exact finish _ _
  | cons call rest =>
    refine suspend g _ fun e he => ?_
    rw [List.mem_singleton.mp he]
    rfl

theorem acquire (target : TargetHandle) :
    w.Confined c (w.acquire c target).1 (w.acquire c target).2 := by
  unfold World.acquire
  dsimp only
  split
  · exact finish _ _
  · split
    · exact suspend _ _ fun _ he => absurd he List.not_mem_nil
    · exact request _ _ _ _

theorem connection (id : TargetId) :
    w.Confined c (w.connection c id).1 (w.connection c id).2 := by
  unfold World.connection
  split
  · exact finish _ _
  · exact suspend _ _ fun _ he => absurd he List.not_mem_nil

theorem complete (p : PendingConnection) (args : Launch) :
    w.Confined c (w.complete c p args).1 (w.complete c p args).2 := by
  unfold World.complete
  split
  · exact finish _ _
  · split
    · exact finish _ _
    · split
      · exact finish _ _
      · exact suspend _ _ fun _ he => absurd he List.not_mem_nil

theorem replay (target : TargetHandle) :
    w.Confined c (w.replay c target).1 (w.replay c target).2 := by
  unfold World.replay
  dsimp only
  split
  · exact finish _ _
  · exact ask _ _ _

theorem resume : w.Confined c (w.resume c).1 (w.resume c).2 := by
  unfold World.resume
  split
  · split
    · exact request _ _ _ _
    · exact finish _ _
    · exact same w c
  · split
    · exact finish _ _
    · exact finish _ _
    · exact same w c
  · split
    · exact finish _ _
    · exact finish _ _
    · exact same w c
  · split
    · exact finish _ _
    · exact finish _ _
    · exact same w c
  all_goals exact same w c

theorem answer (reply : Except Fault Unit) :
    w.Confined c (w.answer c reply).1 (w.answer c reply).2 := by
  unfold World.answer
  split
  · exact suspend _ _ fun _ he => absurd he List.not_mem_nil
  · exact finish _ _
  · exact ask _ _ _
  · exact finish _ _
  · exact same w c

/-- **A stretch of a call concerns that call only.** -/
theorem act (ha : a.call? = some c) : w.Confined c (w.act a).1 (w.act a).2 := by
  cases a with
  | acquire c' target => cases ha; exact acquire target
  | connection c' id => cases ha; exact connection id
  | complete c' p args => cases ha; exact complete p args
  | replay c' target => cases ha; exact replay target
  | resume c' => cases ha; exact resume
  | answer c' reply => cases ha; exact answer reply
  | abort c' =>
    cases ha
    exact ⟨rfl, rfl, rfl, fun _ hne => (Index.get?_erase _ _ _).trans (if_neg hne),
      fun _ he => absurd he List.not_mem_nil⟩
  | _ => cases ha

end Confined

/-- An action that is no stretch of a call is not seen, and no call notices it. -/
theorem act_of_call?_eq_none (ha : a.call? = none) :
    (w.act a).1.calls = w.calls ∧ (w.act a).2 = [] ∧ (w.act a).1.root = w.root ∧
      (w.act a).1.debugType = w.debugType := by
  cases a with
  | addTarget id name kind parent =>
    rw [act]
    split
    · next w' hadd =>
      rw [addTarget] at hadd
      cases htree : w.tree.add id name kind parent with
      | error f => rw [htree] at hadd; cases hadd
      | ok x => rw [htree] at hadd; cases hadd; exact ⟨rfl, rfl, rfl, rfl⟩
    · exact ⟨rfl, rfl, rfl, rfl⟩
  | removeTarget id => exact ⟨rfl, rfl, rfl, rfl⟩
  | forget id => exact ⟨rfl, rfl, rfl, rfl⟩
  | hold target => exact ⟨rfl, rfl, rfl, rfl⟩
  | letGo target => exact ⟨rfl, rfl, rfl, rfl⟩
  | release id => exact ⟨rfl, rfl, rfl, rfl⟩
  | releaseSubtree target => exact ⟨rfl, rfl, rfl, rfl⟩
  | _ => cases ha

theorem get?_calls_act (hne : a.call? ≠ some c) :
    (w.act a).1.calls.get? c = w.calls.get? c := by
  cases ha : a.call? with
  | none => rw [(act_of_call?_eq_none ha).1]
  | some c' => exact (Confined.act ha).calls c fun hcc => hne (hcc ▸ ha)

theorem call?_of_mem_act (he : e ∈ (w.act a).2) : a.call? = some e.call := by
  cases ha : a.call? with
  | none =>
    rw [(act_of_call?_eq_none ha).2.1] at he
    cases he
  | some c => rw [(Confined.act ha).seen e he]

theorem root_act (w : World) (a : Action) : (w.act a).1.root = w.root := by
  cases ha : a.call? with
  | none => exact (act_of_call?_eq_none ha).2.2.1
  | some c => exact (Confined.act ha).root

theorem debugType_act (w : World) (a : Action) : (w.act a).1.debugType = w.debugType := by
  cases ha : a.call? with
  | none => exact (act_of_call?_eq_none ha).2.2.2
  | some c => exact (Confined.act ha).debugType

/-! ## The steps of a run -/

variable {actions : List Action} {n : Nat}

@[simp] theorem before_zero (w : World) (actions : List Action) : w.before actions 0 = w :=
  rfl

theorem before_succ (hn : actions[n]? = some a) :
    w.before actions (n + 1) = ((w.before actions n).act a).1 :=
  fst_runOf_take_succ hn

theorem before_succ_of_none (hn : actions[n]? = none) :
    w.before actions (n + 1) = w.before actions n :=
  congrArg Prod.fst (runOf_take_succ_of_none hn)

theorem seenAt_of_getElem? (hn : actions[n]? = some a) :
    w.seenAt actions n = ((w.before actions n).act a).2 := by
  rw [seenAt, hn]

theorem exists_of_mem_seenAt (he : e ∈ w.seenAt actions n) :
    ∃ a, actions[n]? = some a ∧ e ∈ ((w.before actions n).act a).2 := by
  rw [seenAt] at he
  split at he
  · next a hn => exact ⟨a, hn, he⟩
  · cases he

/-- **What every step keeps holds before every step of a run.** -/
theorem before_induction {P : World → Prop} (hw : P w) (hstep : ∀ w a, P w → P (w.act a).1)
    (actions : List Action) (n : Nat) : P (w.before actions n) :=
  runOf_induction hw hstep (actions.take n)

theorem root_before (w : World) (actions : List Action) (n : Nat) :
    (w.before actions n).root = w.root :=
  before_induction (P := fun w' => w'.root = w.root) rfl
    (fun w' a hw => (root_act w' a).trans hw) actions n

theorem debugType_before (w : World) (actions : List Action) (n : Nat) :
    (w.before actions n).debugType = w.debugType :=
  before_induction (P := fun w' => w'.debugType = w.debugType) rfl
    (fun w' a hw => (debugType_act w' a).trans hw) actions n

end World
end Session
end DebugTree
