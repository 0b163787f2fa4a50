import DebugTree.Run
import DebugTree.Session.Registry

/-!
# Calls on the registry, and how they interleave

A caller that asks for a session waits more than once: for the session of an ancestor, for the
editor to take the request, for the connection that the editor opens.  Between two waits it runs
alone.  So a run is a list of actions, each of which is one such stretch, and every interleaving
of calls is some list of actions.  An action that is not possible changes nothing.

## The calls

* `acquire` registers a record for a target.  It then waits for the connection of the nearest
  living ancestor that has a record, sends the request over it (or over the root connection if no
  ancestor has one), and waits for its own record's connection.  If the ancestor's connection is
  refused or the request fails, it releases the record of its target's name.
* `connection` waits for the connection of a name.
* `complete` brings a connection for the name that its terminal request is tagged with, and waits
  for the gate of that record.
* `replay` tells an adapter what was said on the connection of a name, one call after the other,
  and opens the gate of the name afterwards.

## Who keeps a target alive

Apart from the tree and from callers that hold a target, a registered record keeps its target, and
so does a call that was made for it, as long as it has not ended.  A call that waits for the
connection of an ancestor keeps this ancestor as well.  A caller may hold a target under its name,
and take hold of any living target once more; so it can keep two targets that had one name.
-/

namespace DebugTree
namespace Session

open Protocol

/-- The name of a call. -/
structure CallId where
  text : String
  deriving DecidableEq

/-- What a call ends with. -/
inductive Outcome where
  | connected (connection : ConnectionId)
  | completed
  /-- Whether there was something to replay, and a record left to be ready. -/
  | replayed (done : Bool)
  deriving DecidableEq

/-- A call that waits. -/
inductive Call where
  /-- `acquire`, for the connection of an ancestor. -/
  | awaitingAncestor (target : TargetHandle) (own : RecordHandle) (ancestor : TargetHandle)
      (record : RecordHandle)
  /-- `acquire`, for the editor to take the request. -/
  | requesting (target : TargetHandle) (own : RecordHandle) (route : ConnectionId)
  /-- `acquire`, for the connection of its own record. -/
  | expecting (target : TargetHandle) (own : RecordHandle)
  /-- `connection`. -/
  | listening (id : TargetId) (record : RecordHandle)
  /-- `complete`, for the gate. -/
  | gated (id : TargetId) (record : RecordHandle)
  /-- `replay`, for the adapter to answer `call`. -/
  | replaying (target : TargetHandle) (call : AdapterCall) (rest : List AdapterCall)

namespace Call

/-- The targets that a call keeps alive. -/
def targets : Call → List TargetHandle
  | .awaitingAncestor t _ ancestor _ => [t, ancestor]
  | .requesting t _ _ | .expecting t _ | .replaying t _ _ => [t]
  | .listening _ _ | .gated _ _ => []

/-- How many more actions a call can take at most. -/
def stepsLeft : Call → Nat
  | .awaitingAncestor _ _ _ _ => 3
  | .requesting _ _ _ => 2
  | .expecting _ _ | .listening _ _ | .gated _ _ => 1
  | .replaying _ _ rest => rest.length + 1

end Call

/-- What others can see of a run. -/
inductive Event where
  /-- A request for a nested session goes to the editor. -/
  | requested (call : CallId) (route : ConnectionId) (args : StartDebugging)
  /-- An adapter is asked to do something. -/
  | asked (call : CallId) (what : AdapterCall)
  | finished (call : CallId) (result : Except Fault Outcome)

/-- Targets, records and calls. -/
structure World where
  tree : TargetTree
  /-- The targets that callers hold under their names. -/
  held : Index TargetId TargetHandle
  /-- The targets that callers hold besides, once for each time. -/
  clones : List TargetHandle
  registry : Registry
  /-- The connection for targets without ancestors. -/
  root : ConnectionId
  /-- The type of nested sessions. -/
  debugType : String
  /-- The calls that have not ended. -/
  calls : Index CallId Call

namespace World

/-- Nothing has happened. -/
def start (root : ConnectionId) (debugType : String) : World :=
  ⟨.empty, .empty, [], .empty, root, debugType, .empty⟩

/-! ## Targets -/

/-- Every target that somebody keeps alive. -/
def kept (w : World) : List TargetHandle :=
  w.held.values ++ w.clones ++ w.registry.registered.map (·.target) ++
    w.calls.values.flatMap Call.targets

/-- The nearest living ancestor that has a record, with its record. -/
def nearest? (w : World) (target : TargetHandle) : Option (TargetHandle × RecordHandle) :=
  (w.tree.ancestors w.kept target).findSome? fun a =>
    (w.registry.session? (w.tree.idOf a)).map fun s => (a, s.1)

/-- The names of a target and everything below it, descendants before ancestors. -/
def subtreeIds (w : World) (h : TargetHandle) : List TargetId :=
  (w.tree.subtree h).map w.tree.idOf

/-! ## Ends and waits -/

/-- A call ends. -/
def finish (w : World) (c : CallId) (result : Except Fault Outcome) : World × List Event :=
  ({ w with calls := w.calls.erase c }, [.finished c result])

/-- A call waits. -/
def suspend (w : World) (c : CallId) (call : Call) : World :=
  { w with calls := w.calls.insert c call }

/-- The record of a name is released. -/
def release (w : World) (id : TargetId) : Bool × World :=
  let (found, registry) := w.registry.release id
  (found, { w with registry })

/-- A call that has registered a record ends badly: the record of its target's name goes. -/
def giveUp (w : World) (c : CallId) (target : TargetHandle) (f : Fault) : World × List Event :=
  (w.release (w.tree.idOf target)).2.finish c (.error f)

/-- The request for a target goes out over a connection. -/
def request (w : World) (c : CallId) (target : TargetHandle) (own : RecordHandle)
    (route : ConnectionId) : World × List Event :=
  let name := ((w.tree.target? target).map (·.name)).getD ""
  (w.suspend c (.requesting target own route),
   [.requested c route ⟨.attach, ⟨w.debugType, name, w.tree.idOf target, .empty⟩⟩])

/-- An adapter is asked the first of several things. -/
def ask (w : World) (c : CallId) (target : TargetHandle) :
    List AdapterCall → World × List Event
  | [] =>
    let (found, registry) := w.registry.ready (w.tree.idOf target)
    ({ w with registry }).finish c (.ok (.replayed found))
  | call :: rest => (w.suspend c (.replaying target call rest), [.asked c call])

/-! ## Beginning a call -/

/-- Ask for the session of a target. -/
def acquire (w : World) (c : CallId) (target : TargetHandle) : World × List Event :=
  let id := w.tree.idOf target
  let name := ((w.tree.target? target).map (·.name)).getD ""
  match w.registry.register target id name with
  | .error f => w.finish c (.error f)
  | .ok (own, registry) =>
    let w := { w with registry }
    match w.nearest? target with
    | some (ancestor, record) => (w.suspend c (.awaitingAncestor target own ancestor record), [])
    | none => w.request c target own w.root

/-- Ask for the connection of a name. -/
def connection (w : World) (c : CallId) (id : TargetId) : World × List Event :=
  match w.registry.session? id with
  | none => w.finish c (.error (.unknownPendingTarget id))
  | some (record, _) => (w.suspend c (.listening id record), [])

/-- Bring a connection for the name that its terminal request is tagged with. -/
def complete (w : World) (c : CallId) (p : PendingConnection) (args : Launch) :
    World × List Event :=
  match args.target with
  | none => w.finish c (.error (.protocol (.untagged p.id)))
  | some id =>
    if p.traffic.introduction.isNone then
      w.finish c (.error (.protocol (.launchBeforeInitialize id)))
    else match w.registry.match? id p.id p.traffic with
      | .error f => w.finish c (.error f)
      | .ok (record, registry) => (({ w with registry }).suspend c (.gated id record), [])

/-- Tell an adapter what was said on the connection of a target. -/
def replay (w : World) (c : CallId) (target : TargetHandle) : World × List Event :=
  let (traffic, registry) := w.registry.takeTraffic (w.tree.idOf target)
  let w := { w with registry }
  match traffic with
  | none => w.finish c (.ok (.replayed false))
  | some t => w.ask c target t.replay

/-! ## Going on -/

/-- A call whose wait for a record is over goes on. -/
def resume (w : World) (c : CallId) : World × List Event :=
  match w.calls.get? c with
  | some (.awaitingAncestor target own ancestor record) =>
    match (w.registry.record? record).bind (·.connection.outcome?) with
    | some (.ok route) => w.request c target own route
    | some (.error reason) => w.giveUp c target (.sessionRejected (w.tree.idOf ancestor) reason)
    | none => (w, [])
  | some (.expecting target own) =>
    match (w.registry.record? own).bind (·.connection.outcome?) with
    | some (.ok connection) => w.finish c (.ok (.connected connection))
    | some (.error reason) => w.finish c (.error (.sessionRejected (w.tree.idOf target) reason))
    | none => (w, [])
  | some (.listening id record) =>
    match (w.registry.record? record).bind (·.connection.outcome?) with
    | some (.ok connection) => w.finish c (.ok (.connected connection))
    | some (.error reason) => w.finish c (.error (.sessionRejected id reason))
    | none => (w, [])
  | some (.gated id record) =>
    match (w.registry.record? record).bind (·.gate.outcome?) with
    | some (.ok ()) => w.finish c (.ok .completed)
    | some (.error reason) => w.finish c (.error (.sessionRejected id reason))
    | none => (w, [])
  | some (.requesting _ _ _) | some (.replaying _ _ _) | none => (w, [])

/-- The editor or the adapter answers a call that waits for it. -/
def answer (w : World) (c : CallId) (reply : Except Fault Unit) : World × List Event :=
  match w.calls.get? c, reply with
  | some (.requesting target own _), .ok () => (w.suspend c (.expecting target own), [])
  | some (.requesting target _ _), .error f => w.giveUp c target f
  | some (.replaying target _ rest), .ok () => w.ask c target rest
  | some (.replaying target _ _), .error f =>
    ({ w with registry := w.registry.failed (w.tree.idOf target) f.message }).finish c (.error f)
  | _, _ => (w, [])

/-! ## Actions -/

end World

/-- One stretch of a run. -/
inductive Action where
  | addTarget (id : TargetId) (name : String) (kind : TargetKind) (parent : Option TargetId)
  | removeTarget (id : TargetId)
  /-- A caller lets go of the target that it holds under a name. -/
  | forget (id : TargetId)
  /-- A caller takes hold of a living target once more. -/
  | hold (target : TargetHandle)
  /-- A caller lets go of it again. -/
  | letGo (target : TargetHandle)
  | acquire (c : CallId) (target : TargetHandle)
  | connection (c : CallId) (id : TargetId)
  | complete (c : CallId) (p : PendingConnection) (args : Launch)
  | replay (c : CallId) (target : TargetHandle)
  | resume (c : CallId)
  | answer (c : CallId) (reply : Except Fault Unit)
  /-- A call is broken off and never ends. -/
  | abort (c : CallId)
  | release (id : TargetId)
  | releaseSubtree (target : TargetHandle)

namespace World

/-- One more target; the caller holds it. -/
def addTarget (w : World) (id : TargetId) (name : String) (kind : TargetKind)
    (parent : Option TargetId) : Except Fault World := do
  let (h, tree) ← w.tree.add id name kind parent
  return { w with tree, held := w.held.insert id h }

/-- A subtree leaves the tree; who holds its targets still holds them. -/
def removeTarget (w : World) (id : TargetId) : List TargetHandle × World :=
  let (gone, tree) := w.tree.remove w.kept id
  (gone, { w with tree })

/-- The records of a target and of everything below it are released: how many there were. -/
def releaseSubtree (w : World) (target : TargetHandle) : Nat × World :=
  let (count, registry) := w.registry.releaseAll (w.subtreeIds target)
  (count, { w with registry })

/-- What an action does, and what others see of it. -/
def act (w : World) : Action → World × List Event
  | .addTarget id name kind parent =>
    match w.addTarget id name kind parent with
    | .ok w => (w, [])
    | .error _ => (w, [])
  | .removeTarget id => ((w.removeTarget id).2, [])
  | .forget id => ({ w with held := w.held.erase id }, [])
  | .hold target =>
    let clones := if w.tree.isAlive w.kept target then target :: w.clones else w.clones
    ({ w with clones }, [])
  | .letGo target => ({ w with clones := w.clones.erase target }, [])
  | .acquire c target => w.acquire c target
  | .connection c id => w.connection c id
  | .complete c p args => w.complete c p args
  | .replay c target => w.replay c target
  | .resume c => w.resume c
  | .answer c reply => w.answer c reply
  | .abort c => ({ w with calls := w.calls.erase c }, [])
  | .release id => ((w.release id).2, [])
  | .releaseSubtree target => ((w.releaseSubtree target).2, [])

/-- A run: the actions one after the other, with everything that is seen of them. -/
def run (w : World) (actions : List Action) : World × List Event :=
  runOf act w actions

/-- The world of a run before the step of a number. -/
def before (w : World) (actions : List Action) (n : Nat) : World :=
  (w.run (actions.take n)).1

/-- What is seen of the step of a number. -/
def seenAt (w : World) (actions : List Action) (n : Nat) : List Event :=
  match actions[n]? with
  | some a => ((w.before actions n).act a).2
  | none => []

end World
end Session
end DebugTree
