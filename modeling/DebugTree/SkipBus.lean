import DebugTree.Identity
import DebugTree.Index

/-!
# The skip bus

Sessions of one debugging tree keep their skip states in step.  Each listens under the name of its
root, and a change that one of them makes is delivered to every other session of that root: in the
order in which they subscribed, and never to the session that made the change.

The bus does not keep its listeners alive.  It is told who is alive when a change is published, and
passes over those who are not.  A subscription is taken back by its number, so it takes back
exactly itself, and a root without subscriptions is not kept.
-/

namespace DebugTree

/-- A change of the skip state of one file. -/
structure SkipToggled where
  root : TargetId
  /-- The session that made the change. -/
  origin : TargetId
  url : String
  skipped : Bool
  deriving DecidableEq

/-- Who is told about changes. -/
structure Listener where
  number : Nat
  deriving DecidableEq

/-- A place on the list of a root. -/
structure Subscriber where
  number : Nat
  session : TargetId
  listener : Listener
  deriving DecidableEq

/-- What a subscriber holds in order to be taken off again. -/
structure Subscription where
  root : TargetId
  number : Nat
  deriving DecidableEq

/-- The subscribers of every root. -/
structure SkipBus where
  topics : Index TargetId (List Subscriber)
  /-- The number of the next subscription.  The counter has 64 bits and starts at one, so it agrees
  with this one as long as fewer than `2 ^ 64` subscriptions are made in the life of a bus.  After
  that it begins anew, and two subscriptions of one root could have one number. -/
  nextNumber : Nat

namespace SkipBus

/-- The bus without subscribers. -/
def empty : SkipBus := ⟨.empty, 1⟩

instance : Inhabited SkipBus := ⟨empty⟩

/-- The subscribers of a root, in order. -/
def subscribers (b : SkipBus) (root : TargetId) : List Subscriber :=
  (b.topics.get? root).getD []

/-- How many subscribers a root has. -/
def count (b : SkipBus) (root : TargetId) : Nat :=
  (b.subscribers root).length

/-- A session listens under a root. -/
def subscribe (b : SkipBus) (root session : TargetId) (listener : Listener) :
    Subscription × SkipBus :=
  (⟨root, b.nextNumber⟩,
   { topics := b.topics.insert root (b.subscribers root ++ [⟨b.nextNumber, session, listener⟩])
     nextNumber := b.nextNumber + 1 })

/-- A subscription is taken back. -/
def unsubscribe (b : SkipBus) (s : Subscription) : SkipBus :=
  match b.topics.get? s.root with
  | none => b
  | some subscribers =>
    let rest := subscribers.filter fun x => x.number != s.number
    { b with
      topics := if rest.isEmpty then b.topics.erase s.root else b.topics.insert s.root rest }

/-- Who is told about a change, in order. -/
def audience (b : SkipBus) (isAlive : Listener → Bool) (e : SkipToggled) : List Listener :=
  ((b.subscribers e.root).filter fun s => s.session != e.origin && isAlive s.listener).map
    (·.listener)

end SkipBus
end DebugTree
