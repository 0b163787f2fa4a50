/-!
# Debouncing

Work that is asked for again and again within a short time is done once, after the asking has
stopped.  Every request (`fire`) cancels the one before it, unless that one has already started.
Work that has started runs to its end, and the next one waits for it even if its own delay is
over.

## How a request lives

A request is *fresh* until somebody looks at it; only then does its delay begin to run, and it is
*armed*.  Requests are looked at in the order in which they were made, and one that is not the
oldest waits for its elder, cancelled or not.  The oldest request ends at once if it is cancelled;
otherwise it starts when its delay is over and is *running* until its work ends.  A request that
has ended is forgotten, so that somebody is waiting exactly if the list is not empty.

Time is a number of milliseconds that the caller supplies.  A step happens at an instant, and the
caller chooses when to take it; `nextDue?` says when the next one becomes possible.
-/

namespace DebugTree

/-- A point in time, in milliseconds. -/
abbrev Instant := Nat

namespace Debouncer

/-- How far a request has come. -/
inductive Stage where
  | fresh
  | armed (due : Instant)
  | running (until_ : Instant)
  deriving DecidableEq

/-- A request for work. -/
structure Call (α : Type) where
  work : α
  delay : Nat
  cancelled : Bool
  stage : Stage
  deriving DecidableEq

/-- What happens to work. -/
inductive Event (α : Type) where
  | started (work : α)
  | ended (work : α)
  deriving DecidableEq

end Debouncer

/-- The requests that have not ended, oldest first. -/
structure Debouncer (α : Type) where
  calls : List (Debouncer.Call α)

namespace Debouncer

variable {α : Type}

/-- A debouncer without requests. -/
def idle : Debouncer α := ⟨[]⟩

instance : Inhabited (Debouncer α) := ⟨idle⟩

/-- Some request has not ended. -/
def isPending (d : Debouncer α) : Bool :=
  !d.calls.isEmpty

/-- The last request is cancelled.  One that is running does not care. -/
def cancelLast (d : Debouncer α) : Debouncer α :=
  match d.calls.getLast? with
  | some c => ⟨d.calls.dropLast ++ [{ c with cancelled := true }]⟩
  | none => d

/-- One more request. -/
def fire (d : Debouncer α) (delay : Nat) (work : α) : Debouncer α :=
  ⟨d.cancelLast.calls ++ [⟨work, delay, false, .fresh⟩]⟩

/-- The delay of a fresh request begins to run. -/
def Call.arm (now : Instant) (c : Call α) : Call α :=
  match c.stage with
  | .fresh => { c with stage := .armed (now + c.delay) }
  | _ => c

/-- Somebody looks at all requests. -/
def arm (now : Instant) (d : Debouncer α) : Debouncer α :=
  ⟨d.calls.map (Call.arm now)⟩

/-- The next thing that happens to the oldest request at an instant, if anything does. -/
def step? (now : Instant) (duration : α → Nat) (d : Debouncer α) :
    Option (List (Event α) × Debouncer α) :=
  match d.calls with
  | [] => none
  | c :: rest =>
    match c.stage with
    | .fresh => none
    | .armed due =>
      if c.cancelled then some ([], ⟨rest⟩)
      else if due ≤ now then
        some ([.started c.work], ⟨{ c with stage := .running (now + duration c.work) } :: rest⟩)
      else none
    | .running until_ => if until_ ≤ now then some ([.ended c.work], ⟨rest⟩) else none

/-- Somebody has to look at a fresh request, or something happens to the oldest one. -/
def canStep (now : Instant) (d : Debouncer α) : Bool :=
  d.calls.any (fun c => decide (c.stage = .fresh)) || (d.step? now fun _ => 0).isSome

/-- Everything that can happen to the requests at an instant. -/
def settleFrom (now : Instant) (duration : α → Nat) :
    Nat → Debouncer α → List (Event α) × Debouncer α
  | 0, d => ([], d)
  | fuel + 1, d =>
    match d.step? now duration with
    | none => ([], d)
    | some (es, d) =>
      let (more, d) := settleFrom now duration fuel d
      (es ++ more, d)

/-- Everything that can happen at an instant, fresh requests being looked at first.  A request
takes part in at most two steps. -/
def settle (now : Instant) (duration : α → Nat) (d : Debouncer α) :
    List (Event α) × Debouncer α :=
  settleFrom now duration (2 * d.calls.length) (d.arm now)

/-- When the oldest request can go on. -/
def nextDue? (d : Debouncer α) : Option Instant :=
  match d.calls with
  | [] => none
  | c :: _ =>
    match c.stage with
    | .fresh => none
    | .armed due => some due
    | .running until_ => some until_

/-- Time passes up to an instant: what happens, each event with its time. -/
def passFrom (duration : α → Nat) (until_ : Instant) :
    Nat → Instant → Debouncer α → List (Event α × Instant) × Debouncer α
  | 0, _, d => ([], d)
  | fuel + 1, now, d =>
    let (es, d) := d.settle now duration
    let here := es.map fun e => (e, now)
    match d.nextDue? with
    | some due =>
      if due ≤ until_ then
        let (more, d) := passFrom duration until_ fuel due d
        (here ++ more, d)
      else (here, d)
    | none => (here, d)

/-- Time passes from an instant up to another: what happens, each event with its time. -/
def pass (duration : α → Nat) (now until_ : Instant) (d : Debouncer α) :
    List (Event α × Instant) × Debouncer α :=
  let (first, d) := passFrom duration until_ (2 * d.calls.length + 1) now d
  let (last, d) := d.settle until_ duration
  (first ++ last.map fun e => (e, until_), d)

end Debouncer
end DebugTree
