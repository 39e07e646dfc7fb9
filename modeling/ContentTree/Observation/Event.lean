import ContentTree.Identity

/-!
# Observation events

What a listener learns of a commit: items that were added or removed, properties that changed, and
nodes that moved to another parent. The events of one commit come together in a bundle.
-/

namespace ContentTree

/-- A change as listeners see it. -/
inductive Event where
  | nodeAdded (id : NodeId) (parent : Option NodeId)
  | nodeRemoved (id : NodeId) (parent : Option NodeId)
  | nodeMoved (id : NodeId) (source destination : Option NodeId)
  | propertyAdded (id : PropertyId)
  | propertyChanged (id : PropertyId)
  | propertyRemoved (id : PropertyId)
  deriving DecidableEq, Repr

/-- The events of one commit below a root. -/
structure EventBundle where
  root : NodeId
  events : List Event
  deriving DecidableEq, Repr

end ContentTree
