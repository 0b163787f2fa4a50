import DebugTree.Protocol.Request

/-!
# The traffic before a launch

An editor opens a connection for every session and talks on it before anybody knows which target
the session is for.  That traffic is answered at once and kept.  The request that ends it carries
the tag of a target; from then on the traffic belongs to that target's session and is replayed to
its adapter.

Of exception filters, custom breakpoints and introductions the latest counts.  Breakpoints of all
sources count, in order, and keep the numbers under which the editor knows them: 1, 2, 3 and so
on over the whole connection.
-/

namespace DebugTree
namespace Session

open Protocol

/-- What a connection has said so far. -/
structure Traffic where
  introduction : Option Initialize
  exceptionBreakpoints : Option SetExceptionBreakpoints
  /-- Every list of breakpoints with the numbers that the editor was given for it. -/
  breakpoints : List (SetBreakpoints × List BreakpointId)
  customBreakpoints : Option (List String)
  configurationDone : Bool

namespace Traffic

/-- Nothing has been said. -/
def none : Traffic := ⟨.none, .none, [], .none, false⟩

instance : Inhabited Traffic := ⟨none⟩

end Traffic

/-! ## Replaying -/

/-- What an adapter is asked to do. -/
inductive AdapterCall where
  | setExceptionBreakpoints (args : SetExceptionBreakpoints)
  | setBreakpoints (args : SetBreakpoints) (ids : List BreakpointId)
  | enableCustomBreakpoints (ids : List String)
  | configurationDone
  | introduction (args : Initialize)
  /-- Wait until the target may run. -/
  | launchBlocker

namespace AdapterCall

/-- The word for what is asked. -/
def word : AdapterCall → String
  | .setExceptionBreakpoints _ => "setExceptionBreakpoints"
  | .setBreakpoints _ _ => "setBreakpoints"
  | .enableCustomBreakpoints _ => "enableCustomBreakpoints"
  | .configurationDone => "configurationDone"
  | .introduction _ => "initialize"
  | .launchBlocker => "launchBlocker"

end AdapterCall

/-- The calls that tell an adapter what a connection has said, in the order in which an adapter
wants to hear it. -/
def Traffic.replay (t : Traffic) : List AdapterCall :=
  (t.exceptionBreakpoints.map AdapterCall.setExceptionBreakpoints).toList ++
    (t.breakpoints.map fun b => .setBreakpoints b.1 b.2) ++
    (t.customBreakpoints.map AdapterCall.enableCustomBreakpoints).toList ++
    [.configurationDone] ++
    (t.introduction.map AdapterCall.introduction).toList ++
    [.launchBlocker]

theorem Traffic.replay_ne_nil (t : Traffic) : t.replay ≠ [] := by
  simp [replay]

/-! ## Collecting -/

/-- A connection that has not said which target it is for. -/
structure PendingConnection where
  id : ConnectionId
  traffic : Traffic
  /-- The number of the next breakpoint.  The counter has 64 bits and starts at one, so it agrees
  with this one as long as fewer than `2 ^ 64 - 1` breakpoints are asked for on one connection.
  After that the addition overflows. -/
  nextBreakpoint : BreakpointId

/-- What to do with a request. -/
inductive Collected where
  /-- It is kept; the editor gets an empty answer. -/
  | acknowledged
  /-- It is kept; the editor gets these breakpoints. -/
  | breakpoints (reply : List Breakpoint)
  /-- It ends the traffic. -/
  | terminal (kind : LaunchKind) (args : Launch)

namespace PendingConnection

/-- A connection that has said nothing. -/
def fresh (id : ConnectionId) : PendingConnection := ⟨id, .none, 1⟩

/-- The numbers for the breakpoints of one request. -/
def numbers (p : PendingConnection) (count : Nat) : List BreakpointId :=
  (List.range count).map (p.nextBreakpoint + ·)

/-- The answer to a request for breakpoints: every one of them, under its number. -/
def placeholders (args : SetBreakpoints) (ids : List BreakpointId) : List Breakpoint :=
  List.zipWith (fun (b : SourceBreakpoint) id => .unverified id b.line args.source)
    args.breakpoints ids

/-- Keep a request. -/
def collect (p : PendingConnection) :
    Request → Except Fault Collected × PendingConnection
  | .initialization args =>
    (.ok .acknowledged, { p with traffic := { p.traffic with introduction := some args } })
  | .setExceptionBreakpoints args =>
    (.ok .acknowledged, { p with traffic := { p.traffic with exceptionBreakpoints := some args } })
  | .setBreakpoints args =>
    let ids := p.numbers args.breakpoints.length
    (.ok (.breakpoints (placeholders args ids)),
      { p with
        traffic := { p.traffic with breakpoints := p.traffic.breakpoints ++ [(args, ids)] }
        nextBreakpoint := p.nextBreakpoint + args.breakpoints.length })
  | .enableCustomBreakpoints args =>
    (.ok .acknowledged, { p with traffic := { p.traffic with customBreakpoints := some args.ids } })
  | .configurationDone =>
    (.ok .acknowledged, { p with traffic := { p.traffic with configurationDone := true } })
  | .launch kind args =>
    if p.traffic.introduction.isNone then
      (.error (.protocol (.terminalBeforeInitialize kind p.id)), p)
    else (.ok (.terminal kind args), p)

/-- A connection takes requests one after the other: the answers, and the connection afterwards. -/
def collectAll (p : PendingConnection) :
    List Request → List (Except Fault Collected) × PendingConnection
  | [] => ([], p)
  | r :: rest =>
    let (answer, p) := p.collect r
    let (answers, p) := p.collectAll rest
    (answer :: answers, p)

end PendingConnection
end Session
end DebugTree
