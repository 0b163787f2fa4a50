import DebugTree.Deferred

/-!
# Everybody who is concerned with a deferred value

Whoever owns a deferred value settles it, lets callers wait for it, and gives it up, in any order.
The callers are run by somebody else, each at any time or never: a caller that has not been run yet
may find that the value was settled long ago, or given up since.

A caller that is run and finds nothing falls asleep, and from then on it has to be woken.  That
happens when a settlement counts and when the value is given up.

What the owner does can be read off from the actions alone, without looking at the value: what
everybody gets in the end (`ending?`), how often it attempts to settle (`attempts`), and how many
callers it lets wait (`waits`).
-/

namespace DebugTree
namespace Deferred

variable {α : Type}

/-! ## Callers -/

/-- What a caller is doing. -/
inductive Caller (α : Type) where
  /-- It is going to be run. -/
  | ready
  /-- It is not run before somebody wakes it. -/
  | asleep
  | finished (outcome : Except String α)

namespace Caller

/-- The caller is woken. -/
def wake : Caller α → Caller α
  | .asleep => .ready
  | c => c

/-- The caller is run: it takes what there is to get, or falls asleep. -/
def look (d : Deferred α) : Caller α → Caller α
  | .ready =>
    match d.outcome? with
    | some o => .finished o
    | none => .asleep
  | c => c

end Caller

/-! ## The life of a deferred value -/

/-- Something that is done with a value or with those who wait for it. -/
inductive Action (α : Type) where
  | resolve (value : α)
  | reject (reason : String)
  /-- One more caller waits; callers are numbered as they come. -/
  | wait
  | drop
  /-- A caller is run. -/
  | look (caller : Nat)

namespace Action

/-- What the action would give to everybody, if it is an attempt to settle. -/
def offer? : Action α → Option (Except String α)
  | .resolve value => some (.ok value)
  | .reject reason => some (.error reason)
  | _ => none

def isWait : Action α → Bool
  | .wait => true
  | _ => false

def isDrop : Action α → Bool
  | .drop => true
  | _ => false

end Action

/-- A deferred value with everybody who has come to wait for it. -/
structure Scene (α : Type) where
  deferred : Deferred α
  callers : List (Caller α)
  /-- What the owner has been told about its attempts to settle. -/
  verdicts : List Bool

namespace Scene

/-- An open value for which nobody waits. -/
def start : Scene α := ⟨.pending, [], []⟩

/-- The owner attempts to settle the value, unless it has given it up; sleepers are woken if the
attempt counts. -/
def attempt (w : Scene α) (settle : Deferred α → Bool × Deferred α) : Scene α :=
  if w.deferred.dropped then w
  else
    let (counts, d) := settle w.deferred
    { deferred := d
      callers := if counts then w.callers.map .wake else w.callers
      verdicts := w.verdicts ++ [counts] }

/-- One thing is done.  Who has given the value up cannot let callers wait for it either. -/
def act (w : Scene α) : Action α → Scene α
  | .resolve value => w.attempt (·.resolve value)
  | .reject reason => w.attempt (·.reject reason)
  | .wait => if w.deferred.dropped then w else { w with callers := w.callers ++ [.ready] }
  | .drop => { w with deferred := w.deferred.drop, callers := w.callers.map .wake }
  | .look i => { w with callers := w.callers.modify i (·.look w.deferred) }

/-- One thing is done after the other. -/
def run (w : Scene α) (actions : List (Action α)) : Scene α :=
  actions.foldl act w

end Scene

/-! ## What the owner has done -/

/-- What everybody gets: the first settlement, unless the value was given up before. -/
def ending? : List (Action α) → Option (Except String α)
  | [] => none
  | .resolve value :: _ => some (.ok value)
  | .reject reason :: _ => some (.error reason)
  | .drop :: _ => some (.error droppedReason)
  | .wait :: rest => ending? rest
  | .look _ :: rest => ending? rest

/-- What is done until the value is given up. -/
def whileOwned (actions : List (Action α)) : List (Action α) :=
  actions.takeWhile fun a => !a.isDrop

/-- How often the owner attempts to settle the value. -/
def attempts (actions : List (Action α)) : Nat :=
  (whileOwned actions).countP fun a => a.offer?.isSome

/-- How many callers the owner lets wait. -/
def waits (actions : List (Action α)) : Nat :=
  (whileOwned actions).countP Action.isWait

end Deferred
end DebugTree
