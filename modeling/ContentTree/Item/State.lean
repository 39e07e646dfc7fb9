import ContentTree.Collection.NameSet
import ContentTree.NodeType

/-!
# Item states

The versioned representation of one node or property: its lifecycle status, its modification count,
and node or property data. A node keeps its children in order; children of one name are told apart
by an index that counts from 1 in list order.
-/

namespace ContentTree

/-- Lifecycle status of an item state. -/
inductive ItemStatus where
  /-- Not yet persisted. -/
  | new
  /-- Persisted and in step. -/
  | existing
  /-- Persisted, changed by a session, not yet saved. -/
  | existingModified
  /-- Persisted, removed by a session, not yet saved. -/
  | existingRemoved
  /-- The persisted copy moved on underneath an overlay. -/
  | staleModified
  /-- The persisted copy vanished underneath an overlay. -/
  | staleDestroyed
  /-- Was persisted and is gone. -/
  | destroyed
  /-- Abandoned without being persisted in its form. -/
  | discarded
  deriving DecidableEq, Repr, Inhabited

namespace ItemStatus

/-- The state carries changes that are not saved. -/
def isTransient : ItemStatus → Bool
  | new | existingModified | existingRemoved => true
  | _ => false

/-- The state fell behind the shared copy. -/
def isStale : ItemStatus → Bool
  | staleModified | staleDestroyed => true
  | _ => false

/-- The state must no longer be served. -/
def isTerminal : ItemStatus → Bool
  | destroyed | discarded => true
  | _ => false

/-- The word for a status. -/
def display : ItemStatus → String
  | new => "New"
  | existing => "Existing"
  | existingModified => "ExistingModified"
  | existingRemoved => "ExistingRemoved"
  | staleModified => "StaleModified"
  | staleDestroyed => "StaleDestroyed"
  | destroyed => "Destroyed"
  | discarded => "Discarded"

end ItemStatus

/-- Entry of a node's child list; `index` counts from 1 among the children of one name. -/
structure ChildEntry where
  name : Name
  id : NodeId
  index : Nat
  deriving DecidableEq, Repr

/-- Data of a node. -/
structure NodeState where
  parent : Option NodeId
  type : Name
  mixins : NameSet
  definition : Option DefinitionId
  children : List ChildEntry
  properties : NameSet
  deriving DecidableEq, Repr

/-- Data of a property. -/
structure PropertyState where
  type : PropertyType
  multiValued : Bool
  definition : Option DefinitionId
  values : List Value
  deriving DecidableEq, Repr

/-- Data of an item. -/
inductive ItemData where
  | node (state : NodeState)
  | property (state : PropertyState)
  deriving DecidableEq, Repr

/-- Versioned representation of one node or property. -/
structure ItemState where
  id : ItemId
  status : ItemStatus
  /-- Number of durable modifications applied to this copy. It has 64 bits where it is stored. -/
  modCount : Nat
  data : ItemData
  deriving DecidableEq, Repr

namespace NodeState

/-- A node of a type, without children and properties. -/
def new (type : Name) (parent : Option NodeId) : NodeState where
  parent := parent
  type := type
  mixins := ∅
  definition := none
  children := []
  properties := ∅

/-- The child with this name and index. -/
def child? (n : NodeState) (name : Name) (index : Nat) : Option ChildEntry :=
  n.children.find? fun e => e.name = name ∧ e.index = index

/-- The first child with this identity. -/
def childById? (n : NodeState) (id : NodeId) : Option ChildEntry :=
  n.children.find? fun e => e.id = id

/-- Whether some child has this identity. -/
def hasChild (n : NodeState) (id : NodeId) : Bool :=
  (n.childById? id).isSome

/-- The children of one name numbered anew, starting after `count`. -/
def reindexFrom (name : Name) : (count : Nat) → List ChildEntry → List ChildEntry
  | _, [] => []
  | count, e :: rest =>
    if e.name = name then { e with index := count + 1 } :: reindexFrom name (count + 1) rest
    else e :: reindexFrom name count rest

/-- The children of one name numbered 1, 2, … in list order. -/
def reindex (name : Name) (children : List ChildEntry) : List ChildEntry :=
  reindexFrom name 0 children

/-- A child put at the end, with the next index of its name. -/
def addChild (n : NodeState) (name : Name) (id : NodeId) : ChildEntry × NodeState :=
  let index := (n.children.filter fun e => e.name = name).length + 1
  let entry := ⟨name, id, index⟩
  (entry, { n with children := n.children ++ [entry] })

/-- The first child with this identity taken out; later children of its name move down by one. -/
def removeChild (n : NodeState) (id : NodeId) : Option ChildEntry × NodeState :=
  match n.childById? id with
  | none => (none, n)
  | some removed =>
    (some removed,
      { n with children := reindex removed.name (n.children.eraseP fun e => e.id = id) })

/-- The first entry with an identity under a new name, in its place. -/
def renameFirst (id : NodeId) (name : Name) : List ChildEntry → List ChildEntry
  | [] => []
  | e :: rest => if e.id = id then { e with name := name } :: rest else e :: renameFirst id name rest

/-- The first child with this identity under a new name, in its place; both names are numbered
anew. -/
def renameChild (n : NodeState) (id : NodeId) (name : Name) : Bool × NodeState :=
  match n.childById? id with
  | none => (false, n)
  | some e =>
    (true, { n with children := reindex name (reindex e.name (renameFirst id name n.children)) })

/-- `entry` put in front of the first child with identity `before`; `none` if there is none. -/
def insertBefore? (entry : ChildEntry) (before : NodeId) :
    List ChildEntry → Option (List ChildEntry)
  | [] => none
  | e :: rest =>
    if e.id = before then some (entry :: e :: rest)
    else (insertBefore? entry before rest).map (e :: ·)

/-- The first child with this identity moved in front of another, or to the end. Nothing changes and
the answer is negative if one of the two is missing; a child stays where it is in front of
itself. -/
def reorderChild (n : NodeState) (id : NodeId) (before : Option NodeId) : Bool × NodeState :=
  match n.childById? id with
  | none => (false, n)
  | some entry =>
    if before = some id then (true, n)
    else
      let others := n.children.eraseP fun e => e.id = id
      let moved :=
        match before with
        | none => some (others ++ [entry])
        | some b => insertBefore? entry b others
      match moved with
      | none => (false, n)
      | some children => (true, { n with children := reindex entry.name children })

/-- Adds a property name; tells whether it was new. -/
def addProperty (n : NodeState) (name : Name) : Bool × NodeState :=
  (!n.properties.contains name, { n with properties := n.properties.insert name })

/-- Drops a property name; tells whether it was there. -/
def removeProperty (n : NodeState) (name : Name) : Bool × NodeState :=
  (n.properties.contains name, { n with properties := n.properties.erase name })

/-- Adds a mixin type; tells whether it was new. -/
def addMixin (n : NodeState) (name : Name) : Bool × NodeState :=
  (!n.mixins.contains name, { n with mixins := n.mixins.insert name })

/-- Drops a mixin type; tells whether it was there. -/
def removeMixin (n : NodeState) (name : Name) : Bool × NodeState :=
  (n.mixins.contains name, { n with mixins := n.mixins.erase name })

end NodeState

namespace PropertyState

/-- A property without values. -/
def new (type : PropertyType) (multiValued : Bool) : PropertyState where
  type := type
  multiValued := multiValued
  definition := none
  values := []

/-- The nodes that reference values point at, in order. -/
def targets (p : PropertyState) : List NodeId :=
  p.values.filterMap Value.target?

/-- Equality with values compared by `Value.equals`. -/
def equals (a b : PropertyState) : Bool :=
  a.type == b.type && a.multiValued == b.multiValued && a.definition == b.definition
    && a.values.length == b.values.length && (a.values.zip b.values).all fun (x, y) => x.equals y

end PropertyState

namespace ItemState

/-- A new node. -/
def newNode (id : NodeId) (type : Name) (parent : Option NodeId) : ItemState :=
  ⟨.node id, .new, 0, .node (.new type parent)⟩

/-- A new property. -/
def newProperty (id : PropertyId) (type : PropertyType) (multiValued : Bool) : ItemState :=
  ⟨.property id, .new, 0, .property (.new type multiValued)⟩

/-- An empty new state of the right kind for an identity. -/
def empty : ItemId → ItemState
  | .node id => newNode id ⟨""⟩ none
  | .property id => newProperty id .undefined false

instance : Inhabited ItemState := ⟨empty (.node default)⟩

/-- The state under another status. -/
def withStatus (s : ItemState) (status : ItemStatus) : ItemState :=
  { s with status := status }

/-- The state with one more durable modification. -/
def touch (s : ItemState) : ItemState :=
  { s with modCount := s.modCount + 1 }

/-- The state with the data of another; identity, status and modification count stay. -/
def copyFrom (s other : ItemState) : ItemState :=
  { s with data := other.data }

/-- Whether the data is a node's. -/
def isNode (s : ItemState) : Bool :=
  match s.data with
  | .node _ => true
  | .property _ => false

/-- The node data, if it is a node's. -/
def node? (s : ItemState) : Option NodeState :=
  match s.data with
  | .node n => some n
  | .property _ => none

/-- The property data, if it is a property's. -/
def property? (s : ItemState) : Option PropertyState :=
  match s.data with
  | .property p => some p
  | .node _ => none

/-- The node that a property belongs to, or the parent that a node records. -/
def parent? (s : ItemState) : Option NodeId :=
  match s.id, s.data with
  | .property id, _ => some id.parent
  | .node _, .node n => n.parent
  | .node _, .property _ => none

/-- Equality of states, with values compared by `Value.equals`. -/
def equals (a b : ItemState) : Bool :=
  a.id == b.id && a.status == b.status && a.modCount == b.modCount &&
    match a.data, b.data with
    | .node x, .node y => x == y
    | .property x, .property y => x.equals y
    | _, _ => false

end ItemState

end ContentTree
