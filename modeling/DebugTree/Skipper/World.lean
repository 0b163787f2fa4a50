import DebugTree.Run
import DebugTree.Skipper.Basic

/-!
# Sessions on one bus, and how their jobs interleave

Whoever asks a session for something starts a job, and a job may have to wait: for its turn in the
line of a session, or for the runtime to take what was sent to it.  Between two waits it runs
alone.  So a run is a list of actions, each of which takes one job, one scheduled push or one
question a step further, and every interleaving is some list of actions.  An action that is not
possible changes nothing.

## The steps of a change

A job that brings a change to a session joins its line.  When it has its turn, the change is
carried out and its batch is sent.  When the batch has been answered, the job leaves the line and
goes on to its *sequel*.  After a toggle this is to compare the state of the file with the one
before: if it has changed, the siblings are told.  They are told one after the other, and each of
them is brought the change in the same way.

## Who keeps a session alive

A session lives as long as its owner holds it, a job works on it or is about to tell it something,
or a scheduled push that has begun is not yet answered.  When the last of these goes, the session
leaves the bus, and what it had scheduled or asked is forgotten.
-/

namespace DebugTree
namespace Skipper

open Protocol

/-- What somebody asks for. -/
inductive Operation where
  /-- Establish the state of a source that has been loaded. -/
  | load (session : Listener) (source : Source)
  /-- Turn the state of a file into its opposite, here and in all sibling sessions. -/
  | toggle (session : Listener) (request : ToggleRequest)
  /-- Say whether a URL is skipped. -/
  | ask (session : Listener) (url : String)
  /-- Send the patterns at once. -/
  | pushPatterns (session : Listener)
  /-- Tell the sessions of a root about a change. -/
  | publish (event : SkipToggled)

/-- What an operation ends with. -/
inductive Outcome where
  | done
  | toggled (outcome : ToggleOutcome)
  | state (skipped : Bool)
  /-- How many sessions were told. -/
  | told (count : Nat)
  deriving DecidableEq

/-- What a job does after its change. -/
inductive Sequel where
  | finish
  /-- Tell the siblings if the state of the URL is not what it was. -/
  | announce (url : String) (was : Bool)
  /-- Tell the rest of the audience. -/
  | deliver (event : SkipToggled) (rest : List Listener) (outcome : Outcome)
  deriving DecidableEq

/-- What a job waits for. -/
inductive Wait where
  /-- Its turn to bring a change. -/
  | turn (session : Listener) (change : SkipChange) (sequel : Sequel)
  /-- The answer to a batch. -/
  | ranges (session : Listener) (batch : RangeBatch) (renews : Bool) (sequel : Sequel)
  /-- The answer to patterns. -/
  | patterns (session : Listener) (patterns : List String)
  deriving DecidableEq

/-- An operation under way. -/
structure Job where
  /-- The sessions that it keeps alive. -/
  keeps : List Listener
  wait : Wait
  deriving DecidableEq

/-- What others can see of a run. -/
inductive Event where
  /-- Ranges are sent to the runtime of a session. -/
  | rangesSent (session : Listener) (batch : RangeBatch)
  /-- The runtime answers, and refuses the ranges of some scripts. -/
  | rangesAnswered (session : Listener) (batch : RangeBatch) (refused : List ScriptId)
  | patternsSent (session : Listener) (patterns : List String)
  | patternsAnswered (session : Listener) (patterns : List String)
  /-- The runtime is asked for the builtin modules. -/
  | builtinsAsked (session : Listener)
  | builtinsAnswered (session : Listener)
  /-- A session is told about a change that another one made. -/
  | told (session : Listener) (event : SkipToggled)
  | finished (job : JobId) (outcome : Outcome)
  deriving DecidableEq

/-- What a session is opened with. -/
structure Opening where
  target : TargetId
  root : TargetId
  policy : SkipPolicy
  graph : SourceGraph
  /-- How long changes have to stop before patterns are sent, in milliseconds. -/
  window : Nat
  /-- The runtime has builtin modules. -/
  hasBuiltins : Bool

/-- The bus, the living sessions and the jobs. -/
structure World where
  bus : SkipBus
  /-- The sessions under the numbers under which they listen. -/
  sessions : Index Listener Skipper
  nextListener : Nat
  jobs : Index JobId Job

namespace World

/-- Nothing has happened. -/
def start : World :=
  ⟨.empty, .empty, 0, .empty⟩

instance : Inhabited World := ⟨start⟩

/-! ## Sessions -/

/-- A session opens: the number under which it listens. -/
def openSession (w : World) (o : Opening) : Listener × World :=
  let k : Listener := ⟨w.nextListener⟩
  let (subscription, bus) := w.bus.subscribe o.root o.target k
  (k,
   { w with
     bus
     sessions := w.sessions.insert k
      { target := o.target
        root := o.root
        policy := o.policy
        graph := o.graph
        skipping := []
        line := []
        window := o.window
        debouncer := .idle
        sending := none
        discovery := if o.hasBuiltins then .due else .closed
        subscription
        isOwned := true }
     nextListener := w.nextListener + 1 })

/-- A session becomes another one. -/
def update (w : World) (k : Listener) (f : Skipper → Skipper) : World :=
  { w with sessions := w.sessions.modify k f }

/-- The session is alive. -/
def isAlive (w : World) (k : Listener) : Bool :=
  w.sessions.contains k

/-- Somebody keeps the session alive. -/
def isKept (w : World) (k : Listener) (s : Skipper) : Bool :=
  s.isOwned || s.sending.isSome || w.jobs.values.any fun job => job.keeps.contains k

/-- Sessions that nobody keeps alive leave. -/
def reap (w : World) : World :=
  let gone := w.sessions.entries.filter fun e => !w.isKept e.1 e.2
  { w with
    bus := gone.foldl (fun bus e => bus.unsubscribe e.2.subscription) w.bus
    sessions := ⟨w.sessions.entries.filter fun e => w.isKept e.1 e.2⟩ }

/-! ## Jobs -/

/-- A job ends. -/
def finish (w : World) (j : JobId) (outcome : Outcome) : World × List Event :=
  ({ w with jobs := w.jobs.erase j }, [.finished j outcome])

/-- A job waits. -/
def suspend (w : World) (j : JobId) (keeps : List Listener) (wait : Wait) : World :=
  { w with jobs := w.jobs.insert j ⟨keeps, wait⟩ }

/-- A job brings a change to a session. -/
def bring (w : World) (j : JobId) (keeps : List Listener) (k : Listener) (c : SkipChange)
    (sequel : Sequel) : World :=
  (w.update k (·.join j)).suspend j keeps (.turn k c sequel)

/-- A job tells the next one of an audience. -/
def tell (w : World) (j : JobId) (keeps : List Listener) (e : SkipToggled) (outcome : Outcome) :
    List Listener → World × List Event
  | [] => w.finish j outcome
  | k :: rest =>
    match w.sessions.get? k with
    | some s =>
      (w.bring j keeps k (.decide e.url (s.graph.sourceByUrl? e.url) e.skipped)
        (.deliver e rest outcome), [.told k e])
    | none => w.tell j keeps e outcome rest

/-- A job publishes a change.  Who is told is settled now, and lives until all have been told. -/
def publish (w : World) (j : JobId) (keeps : List Listener) (e : SkipToggled)
    (outcome : Nat → Outcome) : World × List Event :=
  let audience := w.bus.audience w.isAlive e
  w.tell j (keeps ++ audience) e (outcome audience.length) audience

/-- A job goes on after its change has been answered. -/
def goOn (w : World) (j : JobId) (keeps : List Listener) (k : Listener) :
    Sequel → World × List Event
  | .finish => w.finish j .done
  | .announce url was =>
    match w.sessions.get? k with
    | some s =>
      let skipped := s.policy.isSkipped url
      let outcome := Outcome.toggled (.toggled url skipped)
      if skipped = was then w.finish j outcome
      else w.publish j keeps ⟨s.root, s.target, url, skipped⟩ fun _ => outcome
    | none => (w, [])
  | .deliver e rest outcome => w.tell j keeps e outcome rest

/-! ## Actions on jobs -/

/-- An operation begins. -/
def begin (w : World) (j : JobId) : Operation → World × List Event
  | .load k source =>
    match w.sessions.get? k with
    | some _ => (w.bring j [k] k (.load source) .finish, [])
    | none => (w, [])
  | .toggle k request =>
    match w.sessions.get? k with
    | some s =>
      match s.resolve? request with
      | some (url, source) =>
        let was := s.policy.isSkipped url
        (w.bring j [k] k (.decide url source !was) (.announce url was), [])
      | none => w.finish j (.toggled .notFound)
    | none => (w, [])
  | .ask k url =>
    match w.sessions.get? k with
    | some s => w.finish j (.state (s.policy.isSkipped url))
    | none => (w, [])
  | .pushPatterns k =>
    match w.sessions.get? k with
    | some s =>
      let patterns := s.policy.blackboxSources
      (w.suspend j [k] (.patterns k patterns), [.patternsSent k patterns])
    | none => (w, [])
  | .publish e => w.publish j [] e .told

/-- A job takes a step.  If it has sent something, the runtime answers, and refuses the ranges of
some scripts; nobody minds. -/
def proceed (w : World) (j : JobId) (refused : List ScriptId) : World × List Event :=
  match w.jobs.get? j with
  | some ⟨keeps, .turn k c sequel⟩ =>
    match w.sessions.get? k with
    | some s =>
      if s.isTurnOf j then
        let (batch, s') := s.carryOut c
        let w := w.update k fun _ => s'
        (w.suspend j keeps (.ranges k batch (c.renewsPatterns s.graph) sequel),
         if batch.entries.isEmpty then [] else [.rangesSent k batch])
      else (w, [])
    | none => (w, [])
  | some ⟨keeps, .ranges k batch renews sequel⟩ =>
    let w := w.update k fun s => (if renews then s.schedule else s).leave
    let (w, seen) := w.goOn j keeps k sequel
    (w, if batch.entries.isEmpty then seen else .rangesAnswered k batch refused :: seen)
  | some ⟨_, .patterns k patterns⟩ =>
    let (w, seen) := w.finish j .done
    (w, .patternsAnswered k patterns :: seen)
  | none => (w, [])

/-! ## Actions on sessions -/

/-- The owner of a session lets go of it. -/
def closeSession (w : World) (k : Listener) : World :=
  w.update k fun s => { s with isOwned := false }

/-- The scheduled push of a session takes a step at an instant.  A push that begins takes a while
to be answered. -/
def tick (w : World) (k : Listener) (now : Instant) (latency : Nat) : World × List Event :=
  match w.sessions.get? k with
  | some s =>
    let armed := s.debouncer.arm now
    match armed.step? now fun _ => latency with
    | some (.started _ :: _, debouncer) =>
      let (patterns, s) := s.startPush
      (w.update k fun _ => { s with debouncer }, [.patternsSent k patterns])
    | some (.ended _ :: _, debouncer) =>
      let (patterns, s) := s.endPush
      (w.update k fun _ => { s with debouncer }, [.patternsAnswered k patterns])
    | some ([], debouncer) => (w.update k fun _ => { s with debouncer }, [])
    | none => (w.update k fun _ => { s with debouncer := armed }, [])
  | none => (w, [])

/-- The runtime of a session is asked for the builtin modules. -/
def inquire (w : World) (k : Listener) : World × List Event :=
  match w.sessions.get? k with
  | some s =>
    if s.discovery = .due then
      (w.update k fun s => { s with discovery := .asked }, [.builtinsAsked k])
    else (w, [])
  | none => (w, [])

/-- The runtime of a session answers. -/
def answer (w : World) (k : Listener) (reply : Except Fault Json) : World × List Event :=
  match w.sessions.get? k with
  | some s =>
    if s.discovery = .asked then (w.update k (·.learn reply), [.builtinsAnswered k]) else (w, [])
  | none => (w, [])

end World

/-- One stretch of a run. -/
inductive Action where
  | openSession (o : Opening)
  | closeSession (session : Listener)
  /-- The sources of a session become known, or change. -/
  | replaceGraph (session : Listener) (graph : SourceGraph)
  | begin (job : JobId) (operation : Operation)
  | proceed (job : JobId) (refused : List ScriptId)
  | tick (session : Listener) (now : Instant) (latency : Nat)
  | inquire (session : Listener)
  | answer (session : Listener) (reply : Except Fault Json)

namespace World

/-- What an action does while sessions stay alive. -/
def take (w : World) : Action → World × List Event
  | .openSession o => ((w.openSession o).2, [])
  | .closeSession k => (w.closeSession k, [])
  | .replaceGraph k graph => (w.update k fun s => { s with graph }, [])
  | .begin j operation => if w.jobs.contains j then (w, []) else w.begin j operation
  | .proceed j refused => w.proceed j refused
  | .tick k now latency => w.tick k now latency
  | .inquire k => w.inquire k
  | .answer k reply => w.answer k reply

/-- What an action does, and what others see of it. -/
def act (w : World) (a : Action) : World × List Event :=
  let (w, seen) := w.take a
  (w.reap, seen)

/-- A run: the actions one after the other, with everything that is seen of them. -/
def run (w : World) (actions : List Action) : World × List Event :=
  runOf act w actions

/-- The world after the first actions of a run. -/
def before (w : World) (actions : List Action) (n : Nat) : World :=
  (w.run (actions.take n)).1

/-- What is seen of the first actions of a run. -/
def heard (w : World) (actions : List Action) (n : Nat) : List Event :=
  (w.run (actions.take n)).2

end World
end Skipper
end DebugTree
