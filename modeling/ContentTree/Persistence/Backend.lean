import ContentTree.ChangeSet
import ContentTree.Error

/-!
# Backends

What a workspace asks of durable storage, as a record of actions on the state of the storage. An
action that fails leaves the state as it is at that point.
-/

namespace ContentTree

/-- Durable storage for items and reference records. -/
structure Backend (σ : Type) where
  /-- The state of a persisted item. -/
  load : ItemId → EStateM Error σ ItemState
  /-- Whether an item is persisted. -/
  contains : ItemId → EStateM Error σ Bool
  /-- A fresh state for an item that is not persisted yet. -/
  createNew : σ → ItemId → ItemState
  /-- Applies a batch. -/
  store : ChangeSet → EStateM Error σ Unit
  /-- The reference record of a target. -/
  loadReferences : NodeId → EStateM Error σ NodeReferences
  /-- Whether there is a reference record for a target. -/
  containsReferences : NodeId → EStateM Error σ Bool

namespace Backend

/-- A step on a part of a state. -/
def onPart {σ τ α : Type} (part : τ → σ) (replace : τ → σ → τ) (step : EStateM Error σ α) :
    EStateM Error τ α := fun t =>
  match step (part t) with
  | .ok a s => .ok a (replace t s)
  | .error e s => .error e (replace t s)

/-- A backend for a part of a state as one for the whole. -/
def focus {σ τ : Type} (part : τ → σ) (replace : τ → σ → τ) (b : Backend σ) : Backend τ where
  load id := onPart part replace (b.load id)
  contains id := onPart part replace (b.contains id)
  createNew t id := b.createNew (part t) id
  store set := onPart part replace (b.store set)
  loadReferences target := onPart part replace (b.loadReferences target)
  containsReferences target := onPart part replace (b.containsReferences target)

end Backend

end ContentTree
