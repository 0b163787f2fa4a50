import DebugTree.Skipper.World

/-!
# A bench for sessions on one bus

A world with a clock and with runtimes that write down what reaches them.  A runtime takes its
time: what is sent to it, and what it is asked, is written down when it answers.  It can be told
to refuse everything that is sent to it; it still writes it down.

## Which step is taken first

Time passes only while nothing can go on.  At one instant the operations go first, in the order in
which they were handed in, each as far as it can; then the sessions, each with its question for
builtin modules before its scheduled pushes.  So a change that comes at the very instant at which
patterns would be sent still holds them back.  Every order would be a run of the world; this one is
one choice among many.
-/

namespace DebugTree
namespace Skipper

/-- The runtime of a session. -/
structure Runtime where
  /-- How long it takes until something that was sent is answered, in milliseconds. -/
  pushDelay : Nat
  /-- How long it takes until the question for builtin modules is answered, in milliseconds. -/
  builtinsDelay : Nat
  /-- What it answers when asked for builtin modules. -/
  builtins : Except Fault Json
  /-- It refuses what is sent. -/
  refuses : Bool
  /-- What reached it since the notes were last handed out. -/
  patterns : List (List String)
  ranges : List (ScriptId × List Position)
  evaluations : List String

namespace Runtime

/-- A runtime that nothing has reached. -/
def ofDelays (pushDelay builtinsDelay : Nat) (builtins : Option (Except Fault Json))
    (refuses : Bool) : Runtime where
  pushDelay := pushDelay
  builtinsDelay := builtinsDelay
  builtins := builtins.getD (.error (.inspector "evaluation not supported"))
  refuses := refuses
  patterns := []
  ranges := []
  evaluations := []

/-- The notes are handed out. -/
def takeNotes (r : Runtime) : Runtime :=
  { r with patterns := [], ranges := [], evaluations := [] }

/-- The scripts of a batch whose ranges are refused. -/
def refused (r : Runtime) (batch : RangeBatch) : List ScriptId :=
  if r.refuses then batch.keys else []

end Runtime

/-- How far an operation has come. -/
inductive Progress where
  /-- It will begin at an instant. -/
  | delayed (due : Instant) (operation : Operation)
  | begun
  | ended (outcome : Outcome)

/-- A world with its clock and its runtimes. -/
structure Bench where
  world : World
  now : Instant
  tree : TargetTree
  runtimes : Index Listener Runtime
  /-- The operations that were handed in together, in order. -/
  operations : Index JobId Progress
  /-- When the runtime answers a job. -/
  jobReplies : Index JobId Instant
  /-- When the runtime of a session answers the question for builtin modules. -/
  builtinsReplies : Index Listener Instant
  nextJob : Nat

namespace Bench

/-- Nothing has happened. -/
def start : Bench :=
  ⟨.start, 0, .empty, .empty, .empty, .empty, .empty, 0⟩

instance : Inhabited Bench := ⟨start⟩

/-! ## Actions with a clock -/

/-- The runtime of a session. -/
def runtime (b : Bench) (k : Listener) : Runtime :=
  (b.runtimes.get? k).getD (.ofDelays 0 0 none false)

/-- How long the runtime takes for what a job waits for. -/
def latency (b : Bench) : Wait → Nat
  | .turn _ _ _ => 0
  | .ranges k batch _ _ => if batch.entries.isEmpty then 0 else (b.runtime k).pushDelay
  | .patterns k _ => (b.runtime k).pushDelay

/-- What the runtimes and the clock make of an event. -/
def observe (b : Bench) : Event → Bench
  | .rangesAnswered k batch _ =>
    { b with
      runtimes := b.runtimes.modify k fun r => { r with ranges := r.ranges ++ batch.entries } }
  | .patternsAnswered k patterns =>
    { b with
      runtimes := b.runtimes.modify k fun r => { r with patterns := r.patterns ++ [patterns] } }
  | .builtinsAsked k =>
    { b with builtinsReplies := b.builtinsReplies.insert k (b.now + (b.runtime k).builtinsDelay) }
  | .builtinsAnswered k =>
    { b with
      runtimes := b.runtimes.modify k fun r =>
        { r with evaluations := r.evaluations ++ [Discovery.expression] } }
  | .finished j outcome => { b with operations := b.operations.insert j (.ended outcome) }
  | .rangesSent _ _ | .patternsSent _ _ | .told _ _ => b

/-- An action, with what the runtimes and the clock make of it. -/
def act (b : Bench) (a : Action) : Bench :=
  let (world, seen) := b.world.act a
  seen.foldl observe { b with world }

/-- An action of a job, after which the runtime may have something to answer. -/
def actOn (b : Bench) (j : JobId) (a : Action) : Bench :=
  let b := b.act a
  match b.world.jobs.get? j with
  | some job => { b with jobReplies := b.jobReplies.insert j (b.now + b.latency job.wait) }
  | none => b

/-! ## Operations -/

/-- The next action of a job, if it can go on now. -/
def jobAction? (b : Bench) (j : JobId) : Option Action :=
  match b.world.jobs.get? j with
  | some ⟨_, .turn k _ _⟩ =>
    if (b.world.sessions.get? k).any (·.isTurnOf j) then some (.proceed j []) else none
  | some ⟨_, .ranges k batch _ _⟩ =>
    if (b.jobReplies.get? j).any (· ≤ b.now) then
      some (.proceed j ((b.runtime k).refused batch))
    else none
  | some ⟨_, .patterns _ _⟩ =>
    if (b.jobReplies.get? j).any (· ≤ b.now) then some (.proceed j []) else none
  | none => none

/-- The next action of an operation, if it can go on now. -/
def operationAction? (b : Bench) (j : JobId) : Option Action :=
  match b.operations.get? j with
  | some (.delayed due operation) => if due ≤ b.now then some (.begin j operation) else none
  | some .begun => b.jobAction? j
  | some (.ended _) | none => none

/-- An operation takes a step. -/
def advance (b : Bench) (j : JobId) (a : Action) : Bench :=
  { b with operations := b.operations.insert j .begun }.actOn j a

/-- An operation goes on as far as it can. -/
def drive (b : Bench) (j : JobId) : Nat → Bench
  | 0 => b
  | fuel + 1 =>
    match b.operationAction? j with
    | some a => (b.advance j a).drive j fuel
    | none => b

/-- Every operation goes on as far as it can, one after the other, until none can. -/
def settleOperations (b : Bench) : Nat → Bench
  | 0 => b
  | fuel + 1 =>
    if b.operations.keys.any fun j => (b.operationAction? j).isSome then
      (b.operations.keys.foldl (fun b j => b.drive j (fuel + 1)) b).settleOperations fuel
    else b

/-! ## Sessions -/

/-- What a session can do by itself now. -/
def sessionAction? (b : Bench) (k : Listener) (s : Skipper) : Option Action :=
  if s.discovery = .due then some (.inquire k)
  else if s.discovery = .asked ∧ (b.builtinsReplies.get? k).any (· ≤ b.now) then
    some (.answer k (b.runtime k).builtins)
  else if s.debouncer.canStep b.now then some (.tick k b.now (b.runtime k).pushDelay)
  else none

/-- The first session that can do something by itself. -/
def firstSessionAction? (b : Bench) : Option Action :=
  b.world.sessions.entries.findSome? fun e => b.sessionAction? e.1 e.2

/-- Every session does what it can do by itself. -/
def settleSessions (b : Bench) : Nat → Bench
  | 0 => b
  | fuel + 1 =>
    match b.firstSessionAction? with
    | some a => (b.act a).settleSessions fuel
    | none => b

/-! ## Going quiet, and time -/

/-- How many actions can follow at most.  An operation brings a change to at most one session more
than there are; a change takes three actions, and the push that it may schedule takes three.  A
session asks once, which schedules at most one push. -/
def actionsLeft (b : Bench) : Nat :=
  (b.operations.size + 1) * (6 * b.world.sessions.size + 8) +
    b.world.sessions.values.foldr (fun s left => 3 * s.debouncer.calls.length + 5 + left) 0

/-- Everything goes on until nothing can. -/
def settle (b : Bench) : Bench :=
  let b := b.settleOperations b.actionsLeft
  b.settleSessions b.actionsLeft

/-- The instants at which something can go on again. -/
def dues (b : Bench) : List Instant :=
  (b.operations.entries.filterMap fun e =>
    match e.2 with
    | .delayed due _ => some due
    | .begun => b.jobReplies.get? e.1
    | .ended _ => none) ++
  b.world.sessions.entries.filterMap (fun e =>
    if e.2.discovery = .asked then b.builtinsReplies.get? e.1 else none) ++
  b.world.sessions.values.filterMap fun s => s.debouncer.nextDue?

/-- The next instant at which something can go on again. -/
def nextDue? (b : Bench) : Option Instant :=
  (b.dues.filter (b.now < ·)).min?

/-- All operations have ended. -/
def isOver (b : Bench) : Bool :=
  b.operations.values.all fun
    | .ended _ => true
    | .delayed _ _ | .begun => false

/-- Time passes until all operations have ended. -/
def awaitOperations (b : Bench) : Nat → Bench
  | 0 => b
  | fuel + 1 =>
    let b := b.settle
    if b.isOver then b
    else match b.nextDue? with
      | some due => { b with now := due }.awaitOperations fuel
      | none => b

/-- Time passes up to an instant. -/
def passTo (b : Bench) (until_ : Instant) : Nat → Bench
  | 0 => { b with now := until_ }
  | fuel + 1 =>
    let b := b.settle
    match b.nextDue? with
    | some due =>
      if due ≤ until_ then { b with now := due }.passTo until_ fuel else { b with now := until_ }
    | none => { b with now := until_ }

/-! ## What is asked from outside -/

/-- Operations are handed in together, each with the time that it is to wait before it begins: what
they end with, in order. -/
def perform (b : Bench) (operations : List (Nat × Operation)) : List Outcome × Bench :=
  let numbered := operations.zipIdx.map fun e =>
    ((⟨b.nextJob + e.2⟩ : JobId), Progress.delayed (b.now + e.1.1) e.1.2)
  let b := { b with operations := ⟨numbered⟩, nextJob := b.nextJob + operations.length }
  let b := b.awaitOperations b.actionsLeft
  let outcomes := b.operations.values.filterMap fun
    | .ended outcome => some outcome
    | .delayed _ _ | .begun => none
  (outcomes, { b with operations := .empty, jobReplies := .empty })

/-- Time passes. -/
def sleep (b : Bench) (duration : Nat) : Bench :=
  (b.passTo (b.now + duration) b.actionsLeft).settle

/-- A target is found: the name of its root. -/
def addTarget (b : Bench) (id : TargetId) (name : String) (kind : TargetKind)
    (parent : Option TargetId) : Except Fault (TargetId × Bench) := do
  let (h, tree) ← b.tree.add id name kind parent
  return (tree.idOf (tree.root [] h), { b with tree })

/-- A session opens on a target of the tree. -/
def openSession (b : Bench) (id : TargetId) (policy : SkipPolicy) (graph : SourceGraph)
    (window : Nat) (runtime : Runtime) : Option (Listener × Bench) := do
  let h ← b.tree.get? id
  let target ← b.tree.target? h
  let k : Listener := ⟨b.world.nextListener⟩
  let opening : Opening :=
    { target := id
      root := b.tree.idOf (b.tree.root [] h)
      policy
      graph
      window
      hasBuiltins := target.kind.isNodeLike }
  return (k, ({ b with runtimes := b.runtimes.insert k runtime }.act (.openSession opening)).settle)

/-- The owner of a session lets go of it. -/
def closeSession (b : Bench) (k : Listener) : Bench :=
  (b.act (.closeSession k)).settle

/-- The sources of a session become known, or change. -/
def replaceGraph (b : Bench) (k : Listener) (graph : SourceGraph) : Bench :=
  b.act (.replaceGraph k graph)

/-- The runtime of a session refuses what is sent from now on, or takes it again. -/
def refuse (b : Bench) (k : Listener) (refuses : Bool) : Bench :=
  { b with runtimes := b.runtimes.modify k fun r => { r with refuses } }

/-- The session is alive and what it is. -/
def session? (b : Bench) (k : Listener) : Option Skipper :=
  b.world.sessions.get? k

/-- The notes so far are handed out, and new ones begin. -/
def takeNotes (b : Bench) : Bench :=
  { b with runtimes := ⟨b.runtimes.entries.map fun e => (e.1, e.2.takeNotes)⟩ }

end Bench
end Skipper
end DebugTree
