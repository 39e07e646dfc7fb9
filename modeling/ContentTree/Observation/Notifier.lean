import ContentTree.Collection.OrderedMap
import ContentTree.Observation.Transition

/-!
# Subscribers to transitions

Each subscriber has a mailbox of limited size. One whose mailbox is full at a notification, or who
does not listen any more, is dropped for good; what is in the mailbox can still be taken out.
-/

namespace ContentTree

/-- What waits for one subscriber. -/
structure Mailbox where
  queue : List Transition
  /-- Notifications still go to this subscriber. -/
  isServed : Bool
  /-- The subscriber still listens. -/
  isHeard : Bool
  deriving DecidableEq, Repr

/-- All mailboxes ever made, by number. -/
structure Notifier where
  boxes : OrderedMap Nat Mailbox
  /-- Number of the next subscriber. -/
  next : Nat
  /-- Transitions that one mailbox holds, at least one. -/
  capacity : Nat

/-- A mailbox after one more transition. -/
def Mailbox.deliver (capacity : Nat) (t : Transition) (b : Mailbox) : Mailbox :=
  if !b.isServed then b
  else if b.isHeard && b.queue.length < capacity then { b with queue := b.queue ++ [t] }
  else { b with isServed := false }

namespace Notifier

/-- The notifier without subscribers. -/
def new (bufferSize : Nat) : Notifier :=
  ⟨.empty, 1, max 1 bufferSize⟩

instance : Inhabited Notifier := ⟨new 1⟩

/-- Adds a subscriber; answers its number. -/
def subscribe (n : Notifier) : Nat × Notifier :=
  (n.next, { n with boxes := n.boxes.insert n.next ⟨[], true, true⟩, next := n.next + 1 })

/-- Tells every subscriber of a transition. -/
def notify (n : Notifier) (id : ItemId) (kind : TransitionKind) : Notifier :=
  { n with boxes := n.boxes.map fun _ b => b.deliver n.capacity ⟨id, kind⟩ }

/-- The mailbox of a subscriber. -/
def box? (n : Notifier) (subscriber : Nat) : Option Mailbox :=
  n.boxes.get? subscriber

/-- Changes the mailbox of a subscriber. -/
def modifyBox (n : Notifier) (subscriber : Nat) (f : Mailbox → Mailbox) : Notifier :=
  { n with boxes := n.boxes.map fun k b => if k = subscriber then f b else b }

/-- Empties the mailbox of a subscriber, who has received all that was in it. -/
def receive (n : Notifier) (subscriber : Nat) : Notifier :=
  n.modifyBox subscriber fun b => { b with queue := [] }

/-- A subscriber stops listening. -/
def hangUp (n : Notifier) (subscriber : Nat) : Notifier :=
  n.modifyBox subscriber fun b => { b with isHeard := false }

end Notifier

end ContentTree
