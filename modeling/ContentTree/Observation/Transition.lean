import ContentTree.Identity

/-!
# Transitions

The steps in the life of a shared item state that subscribers are told of.
-/

namespace ContentTree

/-- A step in the life of a shared item state. -/
inductive TransitionKind where
  /-- A new item became durable. -/
  | created
  /-- A durable item was changed. -/
  | modified
  /-- A durable item was removed. -/
  | destroyed
  /-- An item was given up without becoming durable, or could not be restored. -/
  | discarded
  deriving DecidableEq, Repr

/-- One step of one item. -/
structure Transition where
  id : ItemId
  kind : TransitionKind
  deriving DecidableEq, Repr

end ContentTree
