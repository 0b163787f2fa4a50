import DebugTree.Debouncer

/-!
# The life of a debouncer, with a log

The works that a debouncer is asked for are numbered in the order in which they are asked for, and
everything that can be seen of it is written into a log, with its time: that a work is asked for or
its request is looked at, that it starts or ends, and that the debouncer is dropped.

Nothing is assumed about who runs when.  A *move* is as small as can be: a request is made, the
debouncer is dropped, some of the requests are looked at, the oldest one goes one step, or time
passes while nobody does anything.  Besides, somebody may settle a debouncer, so that everything
happens that can, or sleep, and then it happens as soon as it can.
-/

namespace DebugTree
namespace Debouncer

/-! ## Logs -/

/-- What can be seen of a debouncer. -/
inductive Occurrence where
  | fired (n : Nat)
  | dropped
  | armed (n : Nat)
  | work (e : Event Nat)
  deriving DecidableEq

/-- What a work does, if this is about a work that has started. -/
def Occurrence.event? : Occurrence → Option (Event Nat)
  | .work e => some e
  | _ => none

/-- The work that is asked for, if this is about a request. -/
def Occurrence.fired? : Occurrence → Option Nat
  | .fired n => some n
  | _ => none

/-- What the works have done, in order. -/
def eventsOf (log : List (Occurrence × Instant)) : List (Event Nat) :=
  log.filterMap fun x => x.1.event?

/-- The works that were asked for, in order. -/
def firedOf (log : List (Occurrence × Instant)) : List Nat :=
  log.filterMap fun x => x.1.fired?

/-! ## Moves -/

/-- How long each work is to be put off, and how long it takes. -/
structure Plan where
  delay : Nat → Nat
  duration : Nat → Nat

/-- A debouncer at a point of its life. -/
structure Timeline where
  debouncer : Debouncer Nat
  isLive : Bool
  /-- How many works it was asked for. -/
  fired : Nat
  now : Instant
  log : List (Occurrence × Instant)

/-- Somebody looks at some of the requests. -/
def look (now : Instant) (which : Nat → Bool) (d : Debouncer Nat) : Debouncer Nat :=
  ⟨d.calls.map fun c => if which c.work then c.arm now else c⟩

namespace Timeline

/-- A new debouncer. -/
def start : Timeline := ⟨idle, true, 0, 0, []⟩

/-- One more work is asked for.  Nobody can ask a debouncer that was dropped. -/
def fire (p : Plan) (w : Timeline) : Timeline :=
  if w.isLive then
    { w with
      debouncer := w.debouncer.fire (p.delay w.fired) w.fired
      fired := w.fired + 1
      log := w.log ++ [(.fired w.fired, w.now)] }
  else w

/-- The debouncer is dropped. -/
def drop (w : Timeline) : Timeline :=
  if w.isLive then
    { w with
      debouncer := w.debouncer.cancelLast
      isLive := false
      log := w.log ++ [(.dropped, w.now)] }
  else w

/-- The timers that begin to run when some of the requests are looked at. -/
def arming (w : Timeline) (which : Nat → Bool) : List (Occurrence × Instant) :=
  (w.debouncer.calls.filter fun c => decide (c.stage = .fresh) && which c.work).map fun c =>
    (.armed c.work, w.now)

/-- Some of the requests are looked at. -/
def look (which : Nat → Bool) (w : Timeline) : Timeline :=
  { w with debouncer := w.debouncer.look w.now which, log := w.log ++ w.arming which }

/-- What works do now. -/
def record (w : Timeline) (es : List (Event Nat)) : List (Occurrence × Instant) :=
  es.map fun e => (.work e, w.now)

/-- The oldest request goes one step, if it can. -/
def step (p : Plan) (w : Timeline) : Timeline :=
  match w.debouncer.step? w.now p.duration with
  | none => w
  | some (es, d) => { w with debouncer := d, log := w.log ++ w.record es }

/-- Time passes. -/
def wait (ms : Nat) (w : Timeline) : Timeline :=
  { w with now := w.now + ms }

end Timeline

/-- The least that can happen. -/
inductive Move where
  | fire
  | drop
  | look (which : Nat → Bool)
  | step
  | wait (ms : Nat)

/-- A move is made. -/
def Timeline.act (p : Plan) (w : Timeline) : Move → Timeline
  | .fire => w.fire p
  | .drop => w.drop
  | .look which => w.look which
  | .step => w.step p
  | .wait ms => w.wait ms

/-! ## Schedules -/

namespace Timeline

/-- All requests are looked at, and everything happens that can. -/
def settle (p : Plan) (w : Timeline) : Timeline :=
  let r := w.debouncer.settle w.now p.duration
  { w with
    debouncer := r.2
    log := w.log ++ w.arming (fun _ => true) ++ w.record r.1 }

/-- Time passes, and everything happens that can when it can. -/
def sleep (p : Plan) (ms : Nat) (w : Timeline) : Timeline :=
  let r := w.debouncer.pass p.duration w.now (w.now + ms)
  { w with
    debouncer := r.2
    now := w.now + ms
    log := w.log ++ w.arming (fun _ => true) ++ r.1.map fun e => (.work e.1, e.2) }

/-- Nothing can happen now. -/
def IsSettled (w : Timeline) : Prop :=
  w.debouncer.canStep w.now = false

end Timeline

/-- Something that is done with a debouncer. -/
inductive Action where
  | move (m : Move)
  | settle
  | sleep (ms : Nat)

namespace Timeline

/-- Something is done. -/
def take (p : Plan) (w : Timeline) : Action → Timeline
  | .move m => w.act p m
  | .settle => w.settle p
  | .sleep ms => w.sleep p ms

/-- The life of a debouncer: one thing is done after the other. -/
def run (p : Plan) (actions : List Action) : Timeline :=
  actions.foldl (take p) start

end Timeline

/-- A work is asked for. -/
def Action.isFire : Action → Bool
  | .move .fire => true
  | _ => false

/-- The debouncer is dropped. -/
def Action.isDrop : Action → Bool
  | .move .drop => true
  | _ => false

/-- How many works a list of actions asks for.  Nobody can ask a debouncer that was dropped. -/
def requests (actions : List Action) : Nat :=
  (actions.takeWhile fun a => !a.isDrop).countP Action.isFire

end Debouncer
end DebugTree
