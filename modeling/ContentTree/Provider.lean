import ContentTree.Collection.OrderedMap
import ContentTree.Item.Heap
import ContentTree.References

/-!
# Virtual subtrees

A subtree that is not persisted: its items live on the heap and its reference records are its own.
It claims the identity of its root for itself, and owns the items it holds.
-/

namespace ContentTree

/-- A virtual subtree held in memory. -/
structure Provider where
  root : NodeId
  items : OrderedMap ItemId Handle
  records : OrderedMap NodeId NodeReferences
  /-- Whether every reference record is turned down. -/
  refuses : Bool

namespace Provider

/-- Whether an identity is the root of the subtree. -/
def isRoot (p : Provider) (id : ItemId) : Bool :=
  id = .node p.root

/-- Whether the subtree holds an item. -/
def has (p : Provider) (id : ItemId) : Bool :=
  p.items.contains id

/-- The instance of an item of the subtree. -/
def get (p : Provider) (id : ItemId) : Except Error Handle :=
  match p.items.get? id with
  | some h => .ok h
  | none => .error (.noSuchItem id)

/-- Adds or replaces an item, as a new instance that exists. -/
def insert (p : Provider) (heap : Heap) (s : ItemState) : Handle × Provider × Heap :=
  let (h, heap) := heap.alloc (s.withStatus .existing)
  (h, { p with items := p.items.insert s.id h }, heap)

/-- Takes an item out; answers its instance. -/
def remove (p : Provider) (id : ItemId) : Option Handle × Provider :=
  (p.items.get? id, { p with items := p.items.erase id })

/-- The subtree that holds its root only, which has to be a node. -/
def new (heap : Heap) (root : ItemState) (refuses : Bool) : Except Error (Provider × Heap) :=
  match root.id with
  | .node id =>
    let (_, p, heap) := insert ⟨id, .empty, .empty, refuses⟩ heap root
    .ok (p, heap)
  | .property id => .error (.itemState (.virtualRootNotNode (.property id)))

/-- Whether there is a reference record for a target. -/
def hasReferences (p : Provider) (target : NodeId) : Bool :=
  p.records.contains target

/-- The reference record of a target. -/
def references (p : Provider) (target : NodeId) : Except Error NodeReferences :=
  match p.records.get? target with
  | some r => .ok r
  | none => .error (.noSuchReferences ⟨target⟩)

/-- Takes a reference record whose target is in the subtree; an empty one removes the record. Tells
whether it was taken. -/
def setReferences (p : Provider) (r : NodeReferences) : Bool × Provider :=
  if p.refuses || !p.has (.node r.target) then (false, p)
  else if r.hasReferences then (true, { p with records := p.records.insert r.target r })
  else (true, { p with records := p.records.erase r.target })

end Provider

end ContentTree
