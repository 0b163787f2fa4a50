import DebugTree.Proofs.Session.Records
import DebugTree.Session.World

/-!
# What happened to a record

The state of a record is a word that the registry writes down.  Whether the word is right is a
question about the past: was a connection brought for *this* record, and has *its* adapter heard
everything that was said on it?  The ledger answers that.  It is kept beside a run and never looked
at by it.

* `brought` says which connection a call to `complete` has brought for a record, with what had been
  said on it;
* `taken` says of which record a call to `replay` has taken the traffic;
* `answered` says what the adapters that were told the traffic of a record have answered so far.

The ledger goes by handle throughout.  So it tells records of one name apart even where the calls
themselves do not.

## What an action can do

For the records of a registry there are eight things an action can do (`World.Advance`), and what is
left to be told to adapters is all that has to be known of the calls.
-/

namespace DebugTree
namespace Session

open Protocol

/-- The past of the records of a registry. -/
structure Ledger where
  brought : Index RecordHandle (ConnectionId × Traffic)
  taken : Index CallId RecordHandle
  answered : Index RecordHandle (List AdapterCall)

namespace Ledger

/-- Nothing has happened. -/
def empty : Ledger := ⟨.empty, .empty, .empty⟩

/-- What adapters have answered of the traffic of a record, oldest first. -/
def answeredFor (l : Ledger) (h : RecordHandle) : List AdapterCall :=
  (l.answered.get? h).getD []

/-- An adapter has answered a call that was told the traffic of some record. -/
def hear (l : Ledger) (c : CallId) (call : AdapterCall) : Ledger :=
  match l.taken.get? c with
  | some h => { l with answered := l.answered.insert h (l.answeredFor h ++ [call]) }
  | none => l

@[simp] theorem brought_hear (l : Ledger) (c : CallId) (call : AdapterCall) :
    (l.hear c call).brought = l.brought := by
  unfold hear
  split <;> rfl

@[simp] theorem taken_hear (l : Ledger) (c : CallId) (call : AdapterCall) :
    (l.hear c call).taken = l.taken := by
  unfold hear
  split <;> rfl

theorem answeredFor_hear {l : Ledger} {c : CallId} {h : RecordHandle}
    (htaken : l.taken.get? c = some h) (call : AdapterCall) (h' : RecordHandle) :
    (l.hear c call).answeredFor h' =
      if h = h' then l.answeredFor h ++ [call] else l.answeredFor h' := by
  rw [hear, htaken, answeredFor, Index.get?_insert]
  split <;> rfl

/-- What an action adds to the ledger. -/
def note (l : Ledger) (w : World) : Action → Ledger
  | .complete c p args =>
    -- A call that has brought its connection waits at the gate of the record; every other one ends.
    match (w.complete c p args).1.calls.get? c with
    | some (.gated _ h) => { l with brought := l.brought.insert h (p.id, p.traffic) }
    | _ => l
  | .replay c target =>
    match w.registry.session? (w.tree.idOf target) with
    | some (h, r) => if r.traffic.isSome then { l with taken := l.taken.insert c h } else l
    | none => l
  | .answer c (.ok ()) =>
    match w.calls.get? c with
    | some (.replaying _ call _) => l.hear c call
    | _ => l
  | _ => l

end Ledger

/-- What a call has left to tell an adapter. -/
def Call.todo? : Call → Option (List AdapterCall)
  | .replaying _ call rest => some (call :: rest)
  | _ => none

namespace World

variable {w w' : World} {c : CallId}

/-- The ledger of a run. -/
def ledger (w : World) (l : Ledger) : List Action → Ledger
  | [] => l
  | a :: rest => (w.act a).1.ledger (l.note w a) rest

/-- What a call has left to tell an adapter. -/
def todo? (w : World) (c : CallId) : Option (List AdapterCall) :=
  (w.calls.get? c).bind Call.todo?

/-- No call has something to tell that it had not before. -/
def NoNews (w w' : World) : Prop :=
  ∀ c todo, w'.todo? c = some todo → w.todo? c = some todo

/-! ## Ends and waits -/

theorem todo?_finish (w : World) (c : CallId) (result : Except Fault Outcome) (c' : CallId) :
    (w.finish c result).1.todo? c' = if c = c' then none else w.todo? c' := by
  rw [todo?, finish, Index.get?_erase]
  split
  · rfl
  · rfl

theorem todo?_suspend (w : World) (c : CallId) (call : Call) (c' : CallId) :
    (w.suspend c call).todo? c' = if c = c' then call.todo? else w.todo? c' := by
  rw [todo?, suspend, Index.get?_insert]
  split
  · rfl
  · rfl

theorem noNews_of_eq (hcalls : w'.calls = w.calls) : w.NoNews w' := by
  intro c todo htodo
  rwa [todo?, hcalls] at htodo

theorem noNews_of_erase (hcalls : w'.calls = w.calls.erase c) : w.NoNews w' := by
  intro c' todo htodo
  rw [todo?, hcalls, Index.get?_erase] at htodo
  split at htodo
  · cases htodo
  · exact htodo

theorem noNews_of_insert {call : Call} (hcalls : w'.calls = w.calls.insert c call)
    (hcall : call.todo? = none) : w.NoNews w' := by
  intro c' todo htodo
  rw [todo?, hcalls, Index.get?_insert] at htodo
  split at htodo
  · rw [Option.bind_some, hcall] at htodo
    cases htodo
  · exact htodo

/-! ## What an action can do -/

/-- What an action can do to the registry, to what is left to be told, and to the ledger. -/
inductive Advance (w : World) (l : Ledger) (a : Action) (w' : World) (l' : Ledger) : Prop
  /-- Nothing that matters here. -/
  | quiet (hreg : w'.registry = w.registry) (hcalls : w.NoNews w') (hl : l' = l)
  /-- A record is registered. -/
  | registers {target : TargetHandle} {id : TargetId} {name : String} {own : RecordHandle}
      (hreg : w.registry.register target id name = .ok (own, w'.registry))
      (hcalls : w.NoNews w') (hl : l' = l)
  /-- Records are released. -/
  | releases (ids : List TargetId) (hreg : w'.registry = (w.registry.releaseAll ids).2)
      (hcalls : w.NoNews w') (hl : l' = l)
  /-- A connection is brought for a record. -/
  | matches {id : TargetId} {connection : ConnectionId} {t : Traffic} {h : RecordHandle}
      (hreg : w.registry.match? id connection t = .ok (h, w'.registry)) (hcalls : w.NoNews w')
      (hl : l' = { l with brought := l.brought.insert h (connection, t) })
  /-- A call takes the traffic of a record. -/
  | takes {c : CallId} {target : TargetHandle} {h : RecordHandle} {r : Record} {t : Traffic}
      (hsession : w.registry.session? (w.tree.idOf target) = some (h, r))
      (htraffic : r.traffic = some t)
      (hreg : w'.registry = w.registry.revise h { r with traffic := none })
      (hcalls : ∀ c', w'.todo? c' = if c = c' then some t.replay else w.todo? c')
      (hl : l' = { l with taken := l.taken.insert c h }) (haction : a = .replay c target)
  /-- An adapter has answered, and is asked the next thing. -/
  | hears {c : CallId} {call : AdapterCall} {rest : List AdapterCall}
      (htodo : w.todo? c = some (call :: rest)) (hreg : w'.registry = w.registry)
      (hcalls : ∀ c', w'.todo? c' = if c = c' then some rest else w.todo? c')
      (hl : l' = l.hear c call)
  /-- An adapter has answered for the last time. -/
  | ends {c : CallId} {target : TargetHandle} {call : AdapterCall}
      (haction : a = .answer c (.ok ()))
      (hcall : w.calls.get? c = some (.replaying target call []))
      (hreg : w'.registry = (w.registry.ready (w.tree.idOf target)).2)
      (hcalls : ∀ c', w'.todo? c' = if c = c' then none else w.todo? c')
      (hl : l' = l.hear c call)
  /-- An adapter has refused. -/
  | fails {c : CallId} {target : TargetHandle} {call : AdapterCall} {rest : List AdapterCall}
      {f : Fault} (hcall : w.calls.get? c = some (.replaying target call rest))
      (hreg : w'.registry = w.registry.failed (w.tree.idOf target) f.message)
      (hcalls : w.NoNews w') (hl : l' = l) (haction : a = .answer c (.error f))

variable {l : Ledger} {a : Action}

theorem advance_of_eq (hreg : w'.registry = w.registry) (hcalls : w'.calls = w.calls) :
    w.Advance l a w' l :=
  .quiet hreg (noNews_of_eq hcalls) rfl

theorem advance_finish (result : Except Fault Outcome) :
    w.Advance l a (w.finish c result).1 l :=
  .quiet rfl (noNews_of_erase rfl) rfl

theorem advance_suspend {call : Call} (hcall : call.todo? = none) :
    w.Advance l a (w.suspend c call) l :=
  .quiet rfl (noNews_of_insert rfl hcall) rfl

theorem advance_giveUp (target : TargetHandle) (f : Fault) :
    w.Advance l a (w.giveUp c target f).1 l :=
  .releases [w.tree.idOf target] rfl (noNews_of_erase rfl) rfl

theorem advance_acquire (target : TargetHandle) : w.Advance l a (w.acquire c target).1 l := by
  unfold acquire
  dsimp only
  split
  · exact advance_finish _
  · next own g hreg =>
    split
    · exact .registers hreg (noNews_of_insert rfl rfl) rfl
    · exact .registers hreg (noNews_of_insert rfl rfl) rfl

theorem advance_connection (id : TargetId) : w.Advance l a (w.connection c id).1 l := by
  unfold connection
  split
  · exact advance_finish _
  · exact advance_suspend rfl

theorem get?_finish (w : World) (c : CallId) (result : Except Fault Outcome) :
    (w.finish c result).1.calls.get? c = none :=
  Index.get?_erase_self _ _

theorem advance_complete (p : PendingConnection) (args : Launch) :
    w.Advance l a (w.complete c p args).1 (l.note w (.complete c p args)) := by
  rw [Ledger.note]
  unfold complete
  split
  · rw [get?_finish]
    exact advance_finish _
  · split
    · rw [get?_finish]
      exact advance_finish _
    · split
      · rw [get?_finish]
        exact advance_finish _
      · next h g hmatch =>
        simp only [suspend, Index.get?_insert_self]
        exact .matches hmatch (noNews_of_insert rfl rfl) rfl

theorem advance_replay (target : TargetHandle) :
    w.Advance l (.replay c target) (w.replay c target).1 (l.note w (.replay c target)) := by
  rw [Ledger.note, replay]
  cases hsession : w.registry.session? (w.tree.idOf target) with
  | none =>
    rw [Registry.takeTraffic_of_none hsession]
    exact .quiet rfl (noNews_of_erase rfl) rfl
  | some e =>
    obtain ⟨h, r⟩ := e
    rw [Registry.takeTraffic_of_session? hsession]
    dsimp only
    cases htraffic : r.traffic with
    | none =>
      have hsame : w.registry.revise h { r with traffic := none } = w.registry := by
        rw [← htraffic]
        exact Registry.revise_self (Registry.session?_eq_some_iff.mp hsession).2
      exact .quiet hsame (noNews_of_erase rfl) rfl
    | some t =>
      obtain ⟨call, rest, hreplay⟩ := List.exists_cons_of_ne_nil t.replay_ne_nil
      dsimp only
      rw [hreplay, ask]
      refine .takes hsession htraffic rfl (fun c' => ?_) rfl rfl
      rw [hreplay]
      exact todo?_suspend w c (.replaying target call rest) c'

theorem advance_resume : w.Advance l a (w.resume c).1 l := by
  unfold resume
  split
  · split
    · exact advance_suspend rfl
    · exact advance_giveUp _ _
    · exact advance_of_eq rfl rfl
  · split
    · exact advance_finish _
    · exact advance_finish _
    · exact advance_of_eq rfl rfl
  · split
    · exact advance_finish _
    · exact advance_finish _
    · exact advance_of_eq rfl rfl
  · split
    · exact advance_finish _
    · exact advance_finish _
    · exact advance_of_eq rfl rfl
  all_goals exact advance_of_eq rfl rfl

theorem answer_replaying_ok {target : TargetHandle} {call : AdapterCall}
    {rest : List AdapterCall} (hcall : w.calls.get? c = some (.replaying target call rest)) :
    w.answer c (.ok ()) = w.ask c target rest := by
  simp only [answer, hcall]

theorem answer_replaying_error {target : TargetHandle} {call : AdapterCall}
    {rest : List AdapterCall} (hcall : w.calls.get? c = some (.replaying target call rest))
    (f : Fault) : w.answer c (.error f) =
      ({ w with registry := w.registry.failed (w.tree.idOf target) f.message }).finish c
        (.error f) := by
  simp only [answer, hcall]

theorem advance_answer (reply : Except Fault Unit) :
    w.Advance l (.answer c reply) (w.answer c reply).1 (l.note w (.answer c reply)) := by
  cases hcall : w.calls.get? c with
  | none =>
    cases reply <;> simp only [Ledger.note, answer, hcall] <;> exact advance_of_eq rfl rfl
  | some call =>
    cases call with
    | replaying target call rest =>
      cases reply with
      | error f =>
        rw [answer_replaying_error hcall]
        exact .fails hcall rfl (noNews_of_erase rfl) rfl rfl
      | ok =>
        rw [answer_replaying_ok hcall]
        simp only [Ledger.note, hcall]
        cases rest with
        | nil => exact .ends rfl hcall rfl (todo?_finish w c (.ok (.replayed true))) rfl
        | cons next rest =>
          rw [ask]
          refine .hears ?_ rfl (todo?_suspend w c (.replaying target next rest)) rfl
          rw [todo?, hcall]
          rfl
    | requesting target own route =>
      cases reply with
      | error f =>
        simp only [Ledger.note, answer, hcall]
        exact advance_giveUp _ _
      | ok =>
        simp only [Ledger.note, answer, hcall]
        exact advance_suspend rfl
    | _ => cases reply <;> simp only [Ledger.note, answer, hcall] <;> exact advance_of_eq rfl rfl

/-- **What an action can do.** -/
theorem advance_act (w : World) (l : Ledger) (a : Action) :
    w.Advance l a (w.act a).1 (l.note w a) := by
  cases a with
  | addTarget id name kind parent =>
    rw [act]
    split
    · next w' hadd =>
      rw [addTarget] at hadd
      cases htree : w.tree.add id name kind parent with
      | error f => rw [htree] at hadd; cases hadd
      | ok x => rw [htree] at hadd; cases hadd; exact advance_of_eq rfl rfl
    · exact advance_of_eq rfl rfl
  | removeTarget id => exact advance_of_eq rfl rfl
  | forget id => exact advance_of_eq rfl rfl
  | hold target => exact advance_of_eq rfl rfl
  | letGo target => exact advance_of_eq rfl rfl
  | acquire c target => exact advance_acquire target
  | connection c id => exact advance_connection id
  | complete c p args => exact advance_complete p args
  | replay c target => exact advance_replay target
  | resume c => exact advance_resume
  | answer c reply => exact advance_answer reply
  | abort c => exact .quiet rfl (noNews_of_erase rfl) rfl
  | release id => exact .releases [id] rfl (noNews_of_eq rfl) rfl
  | releaseSubtree target => exact .releases (w.subtreeIds target) rfl (noNews_of_eq rfl) rfl

end World
end Session
end DebugTree
