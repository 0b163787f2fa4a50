import DebugTree.Session.World

/-!
# A bench for the registry

A world in which the editor and the adapters answer at once and write down what they are asked.  A
connection can be told to refuse requests; a refused request is not written down.  An adapter can
be told which of its calls fails, counted from zero, and whether the last one, the launch blocker,
waits until it is unblocked.

The bench is quiet when nothing can go on any more.  Going quiet is a run of the world; which call
goes first is one choice among many, and here it is the one that began to wait first.
-/

namespace DebugTree
namespace Session

open Protocol

/-- An adapter that writes down its calls. -/
structure RecordingAdapter where
  failAt : Option Nat
  /-- The launch blocker waits. -/
  isBlocked : Bool
  calls : List AdapterCall

namespace RecordingAdapter

/-- The answer to the last call, if it does not wait. -/
def answer? (a : RecordingAdapter) : Option (Except Fault Unit) :=
  let number := a.calls.length - 1
  if a.failAt = some number then
    some (.error (.inspector ("call " ++ toString number ++ " failed")))
  else match a.calls.getLast? with
    | some .launchBlocker => if a.isBlocked then none else some (.ok ())
    | _ => some (.ok ())

end RecordingAdapter

/-- A world with its collaborators. -/
structure Bench where
  world : World
  pending : Index ConnectionId PendingConnection
  /-- The connections that refuse requests. -/
  refusing : List ConnectionId
  adapters : Index CallId RecordingAdapter
  /-- Requests that were taken. -/
  requests : List (ConnectionId × StartDebugging)
  asked : List (CallId × AdapterCall)
  finished : List (CallId × Except Fault Outcome)

namespace Bench

def start (root : ConnectionId) (debugType : String) : Bench :=
  ⟨.start root debugType, .empty, [], .empty, [], [], []⟩

/-! ## Writing down -/

/-- What the collaborators make of an event. -/
def observe (b : Bench) : Event → Bench
  | .requested _ route args =>
    if b.refusing.contains route then b else { b with requests := b.requests ++ [(route, args)] }
  | .asked c call =>
    { b with
      asked := b.asked ++ [(c, call)]
      adapters := b.adapters.modify c fun a => { a with calls := a.calls ++ [call] } }
  | .finished c result => { b with finished := b.finished ++ [(c, result)] }

/-- An action, with what the collaborators make of it. -/
def act (b : Bench) (a : Action) : Bench :=
  let (world, seen) := b.world.act a
  seen.foldl observe { b with world }

/-! ## Going quiet -/

/-- The wait of a call is over. -/
def isOver (b : Bench) (record : RecordHandle) (wait : Record → Bool) : Bool :=
  (b.world.registry.record? record).any wait

/-- What a call can do next, given its collaborators. -/
def next? (b : Bench) (c : CallId) : Call → Option Action
  | .awaitingAncestor _ _ _ record | .expecting _ record | .listening _ record =>
    if b.isOver record (·.connection.outcome?.isSome) then some (.resume c) else none
  | .gated _ record => if b.isOver record (·.gate.outcome?.isSome) then some (.resume c) else none
  | .requesting _ _ route =>
    if b.refusing.contains route then
      some (.answer c (.error (.connection "connection closed")))
    else some (.answer c (.ok ()))
  | .replaying _ _ _ => ((b.adapters.get? c).bind (·.answer?)).map (.answer c)

/-- The oldest call that can go on, and how. -/
def firstAction? (b : Bench) : Option Action :=
  b.world.calls.entries.findSome? fun e => b.next? e.1 e.2

def settleFrom : Nat → Bench → Bench
  | 0, b => b
  | fuel + 1, b =>
    match b.firstAction? with
    | some a => settleFrom fuel (b.act a)
    | none => b

/-- Everything goes on until nothing can.  No action makes a new call, and each takes a step of
one. -/
def settle (b : Bench) : Bench :=
  settleFrom (b.world.calls.values.foldr (fun call left => call.stepsLeft + left) 0) b

/-! ## What is asked from outside -/

/-- An action, and everything that follows from it. -/
def perform (b : Bench) (a : Action) : Bench :=
  (b.act a).settle

/-- A connection is opened. -/
def connect (b : Bench) (c : ConnectionId) : Bench :=
  { b with
    pending := b.pending.insert c (.fresh c)
    refusing := b.refusing.filter (· != c) }

/-- A connection refuses requests from now on, or takes them again. -/
def refuse (b : Bench) (c : ConnectionId) (refuses : Bool) : Bench :=
  let others := b.refusing.filter (· != c)
  { b with refusing := if refuses then others ++ [c] else others }

/-- A connection says something. -/
def collect (b : Bench) (c : ConnectionId) (r : Request) :
    Option (Except Fault Collected × Bench) :=
  (b.pending.get? c).map fun p =>
    let (reply, p) := p.collect r
    (reply, { b with pending := b.pending.insert c p })

/-- A connection is brought to the registry, which uses it up. -/
def complete (b : Bench) (call : CallId) (c : ConnectionId) (args : Launch) : Option Bench :=
  (b.pending.get? c).map fun p =>
    ({ b with pending := b.pending.erase c }).perform (.complete call p args)

/-- An adapter is told what was said for a target. -/
def replay (b : Bench) (call : CallId) (target : TargetHandle) (failAt : Option Nat)
    (blocks : Bool) : Bench :=
  ({ b with adapters := b.adapters.insert call ⟨failAt, blocks, []⟩ }).perform
    (.replay call target)

/-- The launch blocker of an adapter does not wait any more. -/
def unblock (b : Bench) (call : CallId) : Bench :=
  ({ b with adapters := b.adapters.modify call fun a => { a with isBlocked := false } }).settle

/-- The notes so far are handed out, and new ones begin. -/
def takeNotes (b : Bench) : Bench :=
  { b with requests := [], asked := [], finished := [] }

end Bench
end Session
end DebugTree
