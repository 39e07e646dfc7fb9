import ContentTree.ChangeLog
import ContentTree.Observation.Event

/-!
# Event bundles on a channel

The events of a commit are derived from the change log before the commit, while the shared instances
are still as they were, and sent as one bundle afterwards. A channel holds a limited number of
bundles; one that finds it full, or that nobody listens to, is lost.
-/

namespace ContentTree

namespace Event

/-- The event of an added item. -/
def ofAdded (l : LocalItem) : Event :=
  match l.id with
  | .node id => .nodeAdded id l.state.parent?
  | .property id => .propertyAdded id

/-- The event of a modified item, given the parent that the shared instance records. A node is only
seen to change when its parent does. -/
def ofModified (sharedParent : Option NodeId) (l : LocalItem) : Option Event :=
  match l.id with
  | .node id =>
    let destination := l.state.parent?
    let source := sharedParent.or destination
    if source = destination then none else some (.nodeMoved id source destination)
  | .property id => some (.propertyChanged id)

/-- The event of a deleted item, given the parent that the shared instance records. -/
def ofDeleted (sharedParent : Option NodeId) (l : LocalItem) : Event :=
  match l.id with
  | .node id => .nodeRemoved id (sharedParent.or l.state.parent?)
  | .property id => .propertyRemoved id

/-- The parent that a shared instance records, unless the instance was given up. -/
def recordedParent (s : ItemState) : Option NodeId :=
  if s.status = .discarded then none else s.parent?

variable {m : Type → Type} [Monad m]

/-- Asks for the shared instance of a node only. -/
def askParent (sharedParent : ItemId → m (Option NodeId)) (id : ItemId) : m (Option NodeId) :=
  match id with
  | .node _ => sharedParent id
  | .property _ => pure none

/-- The events of a change log: items added, then modified, then deleted. `sharedParent` tells the
parent that the shared instance of an item records. -/
def ofLog (sharedParent : ItemId → m (Option NodeId)) (log : ChangeLog LocalItem) :
    m (List Event) := do
  let modified ← log.modifiedItems.values.mapM fun l => do
    return ofModified (← askParent sharedParent l.id) l
  let deleted ← log.deletedItems.values.mapM fun l => do
    return ofDeleted (← askParent sharedParent l.id) l
  return log.addedItems.values.map ofAdded ++ modified.filterMap id ++ deleted

end Event

/-- A channel for bundles. -/
structure Channel where
  capacity : Nat
  queue : List EventBundle
  /-- Somebody still listens. -/
  isHeard : Bool
  deriving DecidableEq, Repr

/-- Sends a bundle, which is lost if there is no room or nobody listens. -/
def Channel.send (c : Channel) (bundle : EventBundle) : Channel :=
  if c.isHeard && c.queue.length < c.capacity then { c with queue := c.queue ++ [bundle] } else c

/-- The events of one commit on their way. -/
structure Collection where
  /-- Root below which the events happened, once they are collected. -/
  root : Option NodeId
  events : List Event
  /-- The commit is about to be made. -/
  isPrepared : Bool
  deriving DecidableEq, Repr

namespace Collection

/-- Nothing collected yet. -/
def empty : Collection :=
  ⟨none, [], false⟩

/-- Takes up events below a root. -/
def collect (c : Collection) (root : NodeId) (events : List Event) : Collection :=
  { c with root := some root, events := c.events ++ events }

/-- Sends the events, if they were collected and prepared and there are any. -/
def dispatch (c : Collection) (channel : Channel) : Channel :=
  match c.root with
  | some root =>
    if c.isPrepared && !c.events.isEmpty then channel.send ⟨root, c.events⟩ else channel
  | none => channel

end Collection

end ContentTree
