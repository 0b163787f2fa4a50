import DebugTree.Debouncer
import DebugTree.Policy.Blackbox
import DebugTree.Protocol.Toggle
import DebugTree.Skipper.Batch
import DebugTree.Skipper.Change

/-!
# The skip engine of one session

Every session has a policy of its own and keeps the runtime of its target in step with it.  Ranges
go out with every change; patterns are shared by the whole target, so they wait until changes have
stopped for a while.

## One change at a time

A change is put together, sent and answered before the next one begins.  Whoever brings a change
joins the *line* of the session, and the first in line has its turn.  It leaves when its ranges
have been answered, so ranges reach the runtime in the order in which they were computed.

## Builtin modules

Where the target runs a runtime with builtin modules, the session asks for their names once, when
it opens.  Until the answer comes no module inside the runtime is skipped; if it is not a list of
names, none ever is.
-/

namespace DebugTree

open Protocol

/-- The name of a job that somebody does on a session. -/
structure JobId where
  number : Nat
  deriving DecidableEq

/-- How far the question for the builtin modules has come. -/
inductive Discovery where
  /-- The runtime has to be asked. -/
  | due
  /-- The runtime has been asked. -/
  | asked
  /-- The answer has come, or there is nothing to ask for. -/
  | closed
  deriving DecidableEq

namespace Discovery

/-- What the runtime is asked. -/
def expression : String := "require('module').builtinModules"

/-- The names in an answer. -/
def names? (reply : Except Fault Json) : Option (List String) :=
  match reply with
  | .ok answer => answer.list? Json.text?
  | .error _ => none

end Discovery

/-- The skip engine of one session. -/
structure Skipper where
  target : TargetId
  /-- The session at the root of its tree. -/
  root : TargetId
  policy : SkipPolicy
  graph : SourceGraph
  /-- The scripts that have ranges, according to what was sent. -/
  skipping : List ScriptId
  /-- The jobs that want to change something; the first one has its turn. -/
  line : List JobId
  /-- How long changes have to stop before patterns are sent, in milliseconds. -/
  window : Nat
  debouncer : Debouncer Unit
  /-- Patterns on their way to the runtime, by way of the debouncer. -/
  sending : Option (List String)
  discovery : Discovery
  /-- Its place on the bus. -/
  subscription : Subscription
  /-- Its owner has not let go of it. -/
  isOwned : Bool

namespace Skipper

/-! ## Questions -/

/-- The URL that a request names, and the source that is loaded under it.  A URL need not be
loaded; a number has to be known. -/
def resolve? (s : Skipper) : ToggleRequest → Option (String × Option Source)
  | .resource name =>
    match s.graph.sourceByUrl? name with
    | some source => some (source.url, some source)
    | none => some (name, none)
  | .reference number =>
    (s.graph.sourceByReference? number).map fun source => (source.url, some source)

/-- It is the turn of a job. -/
def isTurnOf (s : Skipper) (j : JobId) : Bool :=
  decide (s.line.head? = some j)

/-! ## Changes -/

/-- A job joins the line. -/
def join (s : Skipper) (j : JobId) : Skipper :=
  { s with line := s.line ++ [j] }

/-- The first in line leaves. -/
def leave (s : Skipper) : Skipper :=
  { s with line := s.line.tail }

/-- A change is carried out here; the batch has to be sent. -/
def carryOut (s : Skipper) (c : SkipChange) : RangeBatch × Skipper :=
  let policy := c.revise s.graph s.policy
  let plan := RangePlan.ofUpdates s.graph s.skipping (c.updates s.graph policy)
  (plan.batch, { s with policy, skipping := plan.skipping })

/-! ## Patterns -/

/-- The patterns will be sent when changes have stopped for a while. -/
def schedule (s : Skipper) : Skipper :=
  { s with debouncer := s.debouncer.fire s.window () }

/-- A scheduled push begins.  It sends what the policy says now. -/
def startPush (s : Skipper) : List String × Skipper :=
  let patterns := s.policy.blackboxSources
  (patterns, { s with sending := some patterns })

/-- The push that was begun ends. -/
def endPush (s : Skipper) : List String × Skipper :=
  (s.sending.getD [], { s with sending := none })

/-! ## Builtin modules -/

/-- The answer to the question for the builtin modules. -/
def learn (s : Skipper) (reply : Except Fault Json) : Skipper :=
  let s := { s with discovery := .closed }
  match Discovery.names? reply with
  | some names => { s with policy := s.policy.setBuiltins names }.schedule
  | none => s

end Skipper
end DebugTree
