import DebugTree.Skipper.World

/-!
# What a session leaves behind

Scheduled pushes and the question for builtin modules are tasks of their own.  Neither keeps its
session alive, so both can outlive it; what is left of them is the *estate* of the session.

When a session leaves, the last request of its debouncer is cancelled, as all the others were when
they were followed by another one, and the task that asks for builtin modules is aborted.  The tasks
do not disappear by this.  They are looked at like those of a living session, and what they do then
is up to them: a request that is not cancelled starts and looks for its session, and a question that
is not aborted goes to the runtime, which the task can reach without the session.

A run with estates goes through the same actions as one without.  An action that looks at the tasks
of a session is about its estate once the session has left.
-/

namespace DebugTree
namespace Skipper

/-- The tasks of a session that has left. -/
structure Estate where
  debouncer : Debouncer Unit
  discovery : Discovery
  /-- The question for builtin modules is not to go on. -/
  isAborted : Bool

/-- The tasks that a session leaves behind. -/
def estate (s : Skipper) : Estate :=
  ⟨s.debouncer.cancelLast, s.discovery, true⟩

/-- The sessions that nobody keeps alive. -/
def World.leaving (w : World) : List (Listener × Skipper) :=
  w.sessions.entries.filter fun e => !w.isKept e.1 e.2

/-- A world, and what sessions have left behind in it. -/
structure Realm where
  world : World
  estates : Index Listener Estate

namespace Realm

/-- Nothing has happened. -/
def start : Realm :=
  ⟨.start, .empty⟩

instance : Inhabited Realm := ⟨start⟩

/-- An estate becomes another one. -/
def settle (r : Realm) (k : Listener) (e : Estate) : Realm :=
  { r with estates := r.estates.insert k e }

/-! ## Tasks without a session -/

/-- What a scheduled push sends once it starts, if it finds its session. -/
def push (r : Realm) (k : Listener) : List Event :=
  match r.world.sessions.get? k with
  | some s => [.patternsSent k s.policy.blackboxSources]
  | none => []

/-- The scheduled pushes that a session has left behind take a step. -/
def tick (r : Realm) (k : Listener) (now : Instant) (latency : Nat) : Realm × List Event :=
  match r.estates.get? k with
  | some e =>
    let armed := e.debouncer.arm now
    match armed.step? now fun _ => latency with
    | some (.started _ :: _, debouncer) => (r.settle k { e with debouncer }, r.push k)
    | some (_, debouncer) => (r.settle k { e with debouncer }, [])
    | none => (r.settle k { e with debouncer := armed }, [])
  | none => (r, [])

/-- The question that a session has left behind goes to the runtime, or ends. -/
def inquire (r : Realm) (k : Listener) : Realm × List Event :=
  match r.estates.get? k with
  | some e =>
    if e.isAborted then (r.settle k { e with discovery := .closed }, [])
    else if e.discovery = .due then
      (r.settle k { e with discovery := .asked }, [.builtinsAsked k])
    else (r, [])
  | none => (r, [])

/-- The question that a session has left behind is answered, or ends. -/
def answer (r : Realm) (k : Listener) (reply : Except Fault Json) : Realm × List Event :=
  match r.estates.get? k with
  | some e =>
    if e.isAborted then (r.settle k { e with discovery := .closed }, [])
    else if e.discovery = .asked then
      ({ r with world := r.world.update k (·.learn reply) }.settle k
        { e with discovery := .closed }, [.builtinsAnswered k])
    else (r, [])
  | none => (r, [])

/-- What an action does to the tasks that were left behind. -/
def stir (r : Realm) : Action → Realm × List Event
  | .tick k now latency => r.tick k now latency
  | .inquire k => r.inquire k
  | .answer k reply => r.answer k reply
  | .openSession _ | .closeSession _ | .replaceGraph _ _ | .begin _ _ | .proceed _ _ => (r, [])

/-! ## Runs -/

/-- What an action does, and what others see of it.  Whoever leaves by it leaves an estate. -/
def act (r : Realm) (a : Action) : Realm × List Event :=
  let (r, stirred) := r.stir a
  let left := (r.world.take a).1.leaving.map fun e => (e.1, e.2.estate)
  let (world, seen) := r.world.act a
  (⟨world, ⟨r.estates.entries ++ left⟩⟩, stirred ++ seen)

/-- A run: the actions one after the other, with everything that is seen of them. -/
def run (r : Realm) (actions : List Action) : Realm × List Event :=
  runOf act r actions

end Realm
end Skipper
end DebugTree
