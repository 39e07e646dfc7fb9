import ContentTree.ChangeSet
import ContentTree.Collection.OrderedMap
import ContentTree.Item.Local
import ContentTree.Operation

/-!
# Change logs

The unit of work of a session: items in three disjoint sets (added, modified, deleted), the
operations that led there, and the reference records that changed, each in the order of its first
recording. The kind of state is a parameter, so that one definition serves plain states, overlays
and shared instances.
-/

namespace ContentTree

/-- States that a change log can track. -/
class Tracked (α : Type) where
  /-- Identity of the item. -/
  itemId : α → ItemId

instance : Tracked ItemState := ⟨ItemState.id⟩

instance : Tracked LocalItem := ⟨LocalItem.id⟩

instance : Tracked Handle := ⟨Handle.id⟩

/-- A unit of work below a target. -/
structure ChangeLog (α : Type) where
  target : ItemId
  addedItems : OrderedMap ItemId α
  modifiedItems : OrderedMap ItemId α
  deletedItems : OrderedMap ItemId α
  operations : OrderedMap Nat Operation
  references : OrderedMap NodeId NodeReferences

namespace ChangeLog

/-- The three sets of a change log. -/
inductive Class where
  | added
  | modified
  | deleted
  deriving DecidableEq, Repr

variable {α β : Type}

/-- The log that records nothing. -/
def new (target : ItemId) : ChangeLog α :=
  ⟨target, .empty, .empty, .empty, .empty, .empty⟩

instance : Inhabited (ChangeLog α) := ⟨new (.node default)⟩

/-- Whether an item counts as added. -/
def isAdded (log : ChangeLog α) (id : ItemId) : Bool :=
  log.addedItems.contains id

/-- Whether an item counts as modified. -/
def isModified (log : ChangeLog α) (id : ItemId) : Bool :=
  log.modifiedItems.contains id

/-- Whether an item counts as deleted. -/
def isDeleted (log : ChangeLog α) (id : ItemId) : Bool :=
  log.deletedItems.contains id

/-- Whether an item is in one of the three sets. -/
def has (log : ChangeLog α) (id : ItemId) : Bool :=
  log.isAdded id || log.isModified id || log.isDeleted id

/-- The state tracked for an item, unless it was deleted. -/
def get? (log : ChangeLog α) (id : ItemId) : Option α :=
  (log.addedItems.get? id).or (log.modifiedItems.get? id)

/-- Whether no operation was recorded; states alone do not count. -/
def isEmpty (log : ChangeLog α) : Bool :=
  log.operations.isEmpty

section Recording

variable [Tracked α]

/-- Records that an item was added. An item deleted or modified before counts as modified. -/
def added (log : ChangeLog α) (state : α) : ChangeLog α :=
  let id := Tracked.itemId state
  if log.isDeleted id || log.isModified id then
    { log with
      deletedItems := log.deletedItems.erase id
      modifiedItems := log.modifiedItems.insert id state }
  else { log with addedItems := log.addedItems.insert id state }

/-- Records that an item was modified. One that counts as added or deleted stays as it is. -/
def modified (log : ChangeLog α) (state : α) : ChangeLog α :=
  let id := Tracked.itemId state
  if log.isAdded id || log.isDeleted id then log
  else { log with modifiedItems := log.modifiedItems.insert id state }

/-- Records that an item was deleted. One that was added before leaves no trace. -/
def deleted (log : ChangeLog α) (state : α) : ChangeLog α :=
  let id := Tracked.itemId state
  if log.isAdded id then { log with addedItems := log.addedItems.erase id }
  else
    { log with
      modifiedItems := log.modifiedItems.erase id
      deletedItems := log.deletedItems.insert id state }

/-- Records an item in the way of a set. -/
def record (cls : Class) (log : ChangeLog α) (state : α) : ChangeLog α :=
  match cls with
  | .added => log.added state
  | .modified => log.modified state
  | .deleted => log.deleted state

end Recording

/-- The items of one set. -/
def itemsOf (log : ChangeLog α) : Class → OrderedMap ItemId α
  | .added => log.addedItems
  | .modified => log.modifiedItems
  | .deleted => log.deletedItems

/-- Replaces the items of one set. -/
def setItems (log : ChangeLog α) (items : OrderedMap ItemId α) : Class → ChangeLog α
  | .added => { log with addedItems := items }
  | .modified => { log with modifiedItems := items }
  | .deleted => { log with deletedItems := items }

/-- Records an operation; tells whether it was not there yet. -/
def addOperation (log : ChangeLog α) (o : Operation) : Bool × ChangeLog α :=
  if log.operations.contains o.id then (false, log)
  else (true, { log with operations := log.operations.insert o.id o })

/-- Records a reference record. -/
def modifiedReferences (log : ChangeLog α) (r : NodeReferences) : ChangeLog α :=
  { log with references := log.references.insert r.target r }

/-- Takes out everything that another log holds in the same collection. -/
def removeAll (log : ChangeLog α) (sub : ChangeLog β) : ChangeLog α :=
  { log with
    addedItems := sub.addedItems.keys.foldl OrderedMap.erase log.addedItems
    modifiedItems := sub.modifiedItems.keys.foldl OrderedMap.erase log.modifiedItems
    deletedItems := sub.deletedItems.keys.foldl OrderedMap.erase log.deletedItems
    operations := sub.operations.keys.foldl OrderedMap.erase log.operations
    references := sub.references.keys.foldl OrderedMap.erase log.references }

/-- Identities of all items in the three sets. -/
def scope (log : ChangeLog α) : List ItemId :=
  log.addedItems.keys ++ log.modifiedItems.keys ++ log.deletedItems.keys

/-- Records every candidate that affects an item of the three sets. Accepting one does not widen
the scope. -/
def collectOperations (log : ChangeLog α) (candidates : List Operation) : ChangeLog α :=
  let scope := log.scope
  candidates.foldl
    (fun log o => if o.affected.any (· ∈ scope) then (log.addOperation o).2 else log) log

/-- The first operation that affects an item outside the three sets, with the first such item. -/
def outside? (log : ChangeLog α) : Option (Operation × ItemId) :=
  log.operations.values.findSome? fun o =>
    (o.affected.find? (· ∉ log.scope)).map fun id => (o, id)

/-- Fails if an operation affects an item outside the three sets. -/
def checkSelfContained (log : ChangeLog α) : Except Error Unit :=
  match log.outside? with
  | some (o, id) => .error (.constraintViolation (.notSelfContained o.id id))
  | none => .ok ()

/-- The log without its contents. -/
def reset (log : ChangeLog α) : ChangeLog α :=
  new log.target

/-- The tracked states: added, then modified, then deleted. -/
def states (log : ChangeLog α) : List α :=
  log.addedItems.values ++ log.modifiedItems.values ++ log.deletedItems.values

/-- The log with every tracked state changed. -/
def mapStates (f : α → β) (log : ChangeLog α) : ChangeLog β :=
  { target := log.target
    addedItems := log.addedItems.map fun _ => f
    modifiedItems := log.modifiedItems.map fun _ => f
    deletedItems := log.deletedItems.map fun _ => f
    operations := log.operations
    references := log.references }

/-- The sizes of the five collections. -/
def display (log : ChangeLog α) : String :=
  "\x7b#added=" ++ toString log.addedItems.size ++ ", #modified=" ++ toString log.modifiedItems.size
    ++ ", #deleted=" ++ toString log.deletedItems.size ++ ", #operations="
    ++ toString log.operations.size ++ ", #refs=" ++ toString log.references.size ++ "\x7d"

/-- Diagnostic form: the identities in each collection but the reference records. -/
def debug (log : ChangeLog α) : String :=
  let ids (m : OrderedMap ItemId α) : String :=
    "[" ++ ", ".intercalate (m.keys.map ItemId.debug) ++ "]"
  "ChangeLog \x7b target: " ++ log.target.debug ++ ", added: " ++ ids log.addedItems
    ++ ", modified: " ++ ids log.modifiedItems ++ ", deleted: " ++ ids log.deletedItems
    ++ ", operations: ["
    ++ ", ".intercalate (log.operations.keys.map fun n => "Op(" ++ toString n ++ ")") ++ "] \x7d"

/-- What a log of shared instances says at this moment. -/
def changeSet (heap : Heap) (log : ChangeLog Handle) : ChangeSet where
  added := log.addedItems.values.map heap.read
  modified := log.modifiedItems.values.map heap.read
  deleted := log.deletedItems.values.map Handle.id
  references := log.references.values

/-- Copies every overlay into its shared instance, and stops at the first that has none; the copies
made until then stay. -/
def push (log : ChangeLog LocalItem) : EStateM Error Heap Unit :=
  log.states.forM fun l => do
    match l.push (← get) with
    | .ok heap => set heap
    | .error e => throw e

/-- Gives up the connections of all overlays. -/
def disconnect (log : ChangeLog LocalItem) : ChangeLog LocalItem :=
  log.mapStates LocalItem.disconnect

/-- The instances that overlays are connected to. -/
def connections (log : ChangeLog LocalItem) : List Handle :=
  log.states.filterMap LocalItem.overlayed

/-- Lets every overlay take over the status of its instance, up to the first that has none. -/
def settle (heap : Heap) (log : ChangeLog LocalItem) : Except Error Unit × ChangeLog LocalItem :=
  match log.addedItems.tryMap (LocalItem.settle heap) with
  | (.error e, items) => (.error e, { log with addedItems := items })
  | (.ok _, items) =>
    let log := { log with addedItems := items }
    match log.modifiedItems.tryMap (LocalItem.settle heap) with
    | (.error e, items) => (.error e, { log with modifiedItems := items })
    | (.ok _, items) =>
      let log := { log with modifiedItems := items }
      let (result, items) := log.deletedItems.tryMap (LocalItem.settle heap)
      (result, { log with deletedItems := items })

end ChangeLog

end ContentTree
