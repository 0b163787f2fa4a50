import DebugTree.SkipBus

/-!
# Everybody who uses a skip bus

A subscription is held apart from the bus, and from the listener that it is for.  It may outlive
both, one listener may hold several subscriptions, and a change may still be on its way to
listeners that have been taken off the list.  `World` is a bus together with all of them, and
`Action` is what they can do, in any order.

A change is given to one listener at a time (`Delivery`).  Who is told is settled when it is
published, and whatever a listener answers, the one after it is told.
-/

namespace DebugTree
namespace SkipBus

/-- Somebody who holds a subscription, or held it. -/
structure Guard where
  subscription : Subscription
  session : TargetId
  listener : Listener
  isHeld : Bool
  deriving DecidableEq

/-- The place that the bus keeps for it. -/
def Guard.subscriber (g : Guard) : Subscriber :=
  ⟨g.subscription.number, g.session, g.listener⟩

/-- The subscription is held under a root. -/
def Guard.IsUnder (g : Guard) (root : TargetId) : Prop :=
  g.isHeld = true ∧ g.subscription.root = root

instance (g : Guard) (root : TargetId) : Decidable (g.IsUnder root) :=
  inferInstanceAs (Decidable (_ ∧ _))

/-! ## Deliveries -/

/-- A change on its way to those who listened when it was published. -/
structure Delivery where
  event : SkipToggled
  listeners : List Listener
  /-- Whom the change was given to, in order. -/
  told : List Listener
  /-- What they have answered so far: whether they could make the change. -/
  answers : List Bool

namespace Delivery

/-- The change is given to the next listener. -/
def next (d : Delivery) : Delivery :=
  match d.listeners[d.told.length]? with
  | some k => { d with told := d.told ++ [k] }
  | none => d

/-- The delivery begins with the first listener. -/
def start (e : SkipToggled) (listeners : List Listener) : Delivery :=
  next ⟨e, listeners, [], []⟩

/-- The listener that was told last answers.  If it has failed, then the next one is told all the
same. -/
def answer (success : Bool) (d : Delivery) : Delivery :=
  if d.answers.length < d.told.length then next { d with answers := d.answers ++ [success] } else d

/-- How many listeners were reached, once all of them have answered. -/
def result? (d : Delivery) : Option Nat :=
  if d.answers.length = d.listeners.length then some d.listeners.length else none

end Delivery

/-! ## The bus and its users -/

/-- A bus and everybody who uses it. -/
structure World where
  /-- It may be gone before its subscriptions are. -/
  bus : Option SkipBus
  /-- Everybody who has subscribed, in order. -/
  guards : List Guard
  /-- The listeners that their owners have dropped. -/
  dropped : List Listener
  /-- All changes that were published, in order. -/
  deliveries : List Delivery

/-- What can be done. -/
inductive Action where
  | subscribe (root session : TargetId) (k : Listener)
  | dropSubscription (i : Nat)
  | dropListener (k : Listener)
  | dropBus
  | publish (e : SkipToggled)
  | answer (i : Nat) (success : Bool)

/-- What the listeners of a delivery answer. -/
def answersTo (i : Nat) (actions : List Action) : List Bool :=
  actions.filterMap fun
    | .answer j success => if j = i then some success else none
    | _ => none

namespace World

/-- A new bus. -/
def start : World := ⟨some empty, [], [], []⟩

/-- A listener lives until its owner drops it, and longer if a change is on its way to it. -/
def isAlive (w : World) (k : Listener) : Bool :=
  !w.dropped.contains k ||
    w.deliveries.any fun d => d.result?.isNone && d.listeners.contains k

/-- The subscriptions that are held under a root, in order. -/
def held (w : World) (root : TargetId) : List Guard :=
  w.guards.filter fun g => g.IsUnder root

/-- Those who listen for a change: whose subscription is held under its root, but not by the session
that made it, and who are alive. -/
def audience (w : World) (e : SkipToggled) : List Listener :=
  ((w.held e.root).filter fun g => g.session != e.origin && w.isAlive g.listener).map (·.listener)

/-- Somebody subscribes, unless the bus is gone. -/
def subscribe (w : World) (root session : TargetId) (k : Listener) : World :=
  match w.bus with
  | some b =>
    let (s, b) := b.subscribe root session k
    { w with bus := some b, guards := w.guards ++ [⟨s, session, k, true⟩] }
  | none => w

/-- A subscription is dropped.  When the bus is gone, there is no list to take it off. -/
def release (w : World) (i : Nat) : World :=
  match w.guards[i]? with
  | some g =>
    if g.isHeld then
      { w with
        bus := w.bus.map (·.unsubscribe g.subscription)
        guards := w.guards.set i { g with isHeld := false } }
    else w
  | none => w

/-- A change is published, unless the bus is gone. -/
def publish (w : World) (e : SkipToggled) : World :=
  match w.bus with
  | some b => { w with deliveries := w.deliveries ++ [.start e (b.audience w.isAlive e)] }
  | none => w

/-- Something is done. -/
def act (w : World) : Action → World
  | .subscribe root session k => w.subscribe root session k
  | .dropSubscription i => w.release i
  | .dropListener k => { w with dropped := k :: w.dropped }
  | .dropBus => { w with bus := none }
  | .publish e => w.publish e
  | .answer i success => { w with deliveries := w.deliveries.modify i (Delivery.answer success) }

/-- One thing is done after the other. -/
def run (w : World) (actions : List Action) : World :=
  actions.foldl act w

end World

end SkipBus
end DebugTree
