import DebugTree.Deferred
import DebugTree.Session.Handshake
import DebugTree.Target.Tree

/-!
# The records of sessions

A target that wants a session has a record: in which state the session is, the connection that is
expected for it, and a gate that opens when its adapter is ready.  Records are registered under
the names of their targets, one for each.

## Records and names

A name can be released and registered again while somebody still waits for the first record of
that name.  So records are kept under handles, one for each registration, and the names are an
index of handles.  Nothing is ever deleted from the records: a record that is released has both
its connection and its gate refused, unless they are settled already, and whoever waits for them
finds that out from the record itself.

Some operations go by handle and some by name, and which does which matters: who goes by name may
find a later record than the one that was meant.
-/

namespace DebugTree
namespace Session

/-- One registration; a later one has a larger number. -/
structure RecordHandle where
  number : Nat
  deriving DecidableEq

/-- What is known about the session of a target. -/
structure Record where
  target : TargetHandle
  id : TargetId
  name : String
  state : SessionState
  /-- The connection that the editor opens. -/
  connection : Deferred ConnectionId
  /-- Opens when the adapter has been told everything. -/
  gate : Deferred Unit
  /-- What the connection said, until it is replayed. -/
  traffic : Option Traffic

namespace Record

/-- The record of a target whose session has just been asked for. -/
def fresh (target : TargetHandle) (id : TargetId) (name : String) : Record :=
  ⟨target, id, name, .pendingAcquire, .pending, .pending, none⟩

/-- Why those who wait for a released record are let down. -/
def releasedReason : String := "session released"

/-- The record when it has left the registry. -/
def released (r : Record) : Record :=
  { r with
    connection := (r.connection.reject releasedReason).2
    gate := (r.gate.reject releasedReason).2 }

/-- The record when a connection has come for it. -/
def matched (r : Record) (connection : ConnectionId) (traffic : Traffic) : Record :=
  { r with
    state := .matched
    connection := (r.connection.resolve connection).2
    traffic := some traffic }

/-- The record when its adapter is ready. -/
def ready (r : Record) : Record :=
  { r with state := .initialized, gate := (r.gate.resolve ()).2 }

/-- The record when its adapter has failed. -/
def failed (r : Record) (reason : String) : Record :=
  { r with gate := (r.gate.reject reason).2 }

end Record

/-- The records, and which of them are registered. -/
structure Registry where
  /-- Every record that was ever registered. -/
  records : Index RecordHandle Record
  /-- The registered ones, oldest first. -/
  sessions : Index TargetId RecordHandle

namespace Registry

/-- The registry without records. -/
def empty : Registry := ⟨.empty, .empty⟩

instance : Inhabited Registry := ⟨empty⟩

/-! ## Looking -/

/-- The record behind a handle. -/
def record? (g : Registry) (h : RecordHandle) : Option Record :=
  g.records.get? h

/-- The registered record of a name, with its handle. -/
def session? (g : Registry) (id : TargetId) : Option (RecordHandle × Record) :=
  (g.sessions.get? id).bind fun h => (g.record? h).map fun r => (h, r)

/-- In which state the session of a name is. -/
def state? (g : Registry) (id : TargetId) : Option SessionState :=
  (g.session? id).map (·.2.state)

/-- How many records are registered. -/
def size (g : Registry) : Nat :=
  g.sessions.size

/-- The registered records, oldest first. -/
def registered (g : Registry) : List Record :=
  g.sessions.values.filterMap g.record?

/-! ## Changing -/

/-- A new record under a name that has none. -/
def register (g : Registry) (target : TargetHandle) (id : TargetId) (name : String) :
    Except Fault (RecordHandle × Registry) :=
  if g.sessions.contains id then .error (.duplicateTarget id)
  else
    let h : RecordHandle := ⟨g.records.size⟩
    .ok (h, ⟨g.records.insert h (.fresh target id name), g.sessions.insert id h⟩)

/-- The record of a name leaves the registry. -/
def release (g : Registry) (id : TargetId) : Bool × Registry :=
  match g.sessions.get? id with
  | none => (false, g)
  | some h => (true, ⟨g.records.modify h Record.released, g.sessions.erase id⟩)

/-- Several records leave the registry: how many there were. -/
def releaseAll (g : Registry) : List TargetId → Nat × Registry
  | [] => (0, g)
  | id :: ids =>
    let (found, g) := g.release id
    let (count, g) := releaseAll g ids
    (if found then count + 1 else count, g)

/-- A connection comes for a name: the record that it is for. -/
def match? (g : Registry) (id : TargetId) (connection : ConnectionId) (traffic : Traffic) :
    Except Fault (RecordHandle × Registry) :=
  match g.session? id with
  | none => .error (.unknownPendingTarget id)
  | some (h, r) =>
    if r.state = .pendingAcquire then
      .ok (h, { g with records := g.records.insert h (r.matched connection traffic) })
    else .error (.protocol (.alreadyConnected id r.state))

/-- What is there to replay for a name; it can be taken once. -/
def takeTraffic (g : Registry) (id : TargetId) : Option Traffic × Registry :=
  match g.session? id with
  | none => (none, g)
  | some (h, r) => (r.traffic, { g with records := g.records.insert h { r with traffic := none } })

/-- The adapter of a name is ready: whether there is a record to know that. -/
def ready (g : Registry) (id : TargetId) : Bool × Registry :=
  match g.session? id with
  | none => (false, g)
  | some (h, r) => (true, { g with records := g.records.insert h r.ready })

/-- The adapter of a name has failed. -/
def failed (g : Registry) (id : TargetId) (reason : String) : Registry :=
  match g.session? id with
  | none => g
  | some (h, r) => { g with records := g.records.insert h (r.failed reason) }

end Registry
end Session
end DebugTree
