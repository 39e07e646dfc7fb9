import ContentTree.Collection.OrderedMap
import ContentTree.Persistence.Backend

/-!
# Storage in memory

A backend that keeps items and reference records in maps. A batch is applied as a whole or not at
all: items that it modifies or deletes have to be there.
-/

namespace ContentTree

/-- Items and reference records in memory. -/
structure MemoryStore where
  items : OrderedMap ItemId ItemState
  records : OrderedMap NodeId NodeReferences
  /-- Number of items loaded. -/
  loads : Nat
  /-- Number of batches applied. -/
  stores : Nat
  /-- Whether the next batch is to fail. -/
  failNext : Bool

namespace MemoryStore

/-- The store that holds nothing. -/
def empty : MemoryStore :=
  ⟨.empty, .empty, 0, 0, false⟩

instance : EmptyCollection MemoryStore := ⟨empty⟩

instance : Inhabited MemoryStore := ⟨empty⟩

/-- Puts an item in, apart from any batch. -/
def put (m : MemoryStore) (s : ItemState) : MemoryStore :=
  { m with items := m.items.insert s.id (s.withStatus .existing) }

/-- Takes an item out, apart from any batch; answers its state. -/
def remove (m : MemoryStore) (id : ItemId) : Option ItemState × MemoryStore :=
  (m.items.get? id, { m with items := m.items.erase id })

/-- Writes or, if it is empty, removes a reference record. -/
def putReferences (records : OrderedMap NodeId NodeReferences) (r : NodeReferences) :
    OrderedMap NodeId NodeReferences :=
  if r.hasReferences then records.insert r.target r else records.erase r.target

/-- The first item that a batch modifies or deletes and that is not there. -/
def missing? (m : MemoryStore) (set : ChangeSet) : Option ItemId :=
  (set.modified.map ItemState.id ++ set.deleted).find? fun id => !m.items.contains id

/-- The store after a batch: items written, then items removed, then reference records. -/
def applied (m : MemoryStore) (set : ChangeSet) : MemoryStore :=
  { m with
    items :=
      set.deleted.foldl OrderedMap.erase
        (set.written.foldl (fun items s => items.insert s.id (s.withStatus .existing)) m.items)
    records := set.references.foldl putReferences m.records
    stores := m.stores + 1 }

/-- Applies a batch. -/
def apply (set : ChangeSet) : EStateM Error MemoryStore Unit := do
  let m ← get
  match m.missing? set with
  | some id => throw (.persistence (.missingItem id))
  | none => EStateM.set (m.applied set)

/-- Memory as a backend. -/
def backend : Backend MemoryStore where
  load id := do
    let m ← get
    match m.items.get? id with
    | some s =>
      EStateM.set { m with loads := m.loads + 1 }
      return s
    | none => throw (.noSuchItem id)
  contains id := return (← get).items.contains id
  createNew _ id := .empty id
  store set := do
    let m ← get
    if m.failNext then
      EStateM.set { m with failNext := false }
      throw (.persistence .injected)
    else apply set
  loadReferences target := do
    match (← get).records.get? target with
    | some r => return r
    | none => throw (.noSuchReferences ⟨target⟩)
  containsReferences target := return (← get).records.contains target

end MemoryStore

end ContentTree
