import ContentTree.Identity

/-!
# Reference records

For a node that reference properties point at, the list of those properties. A property stands in it
once for every value that holds the target.
-/

namespace ContentTree

/-- The properties that point at one target node. -/
structure NodeReferences where
  target : NodeId
  properties : List PropertyId
  deriving DecidableEq, Repr

namespace NodeReferences

/-- The record without references. -/
def new (target : NodeId) : NodeReferences :=
  ⟨target, []⟩

/-- The identity of the record. -/
def id (r : NodeReferences) : ReferencesId :=
  ⟨r.target⟩

/-- Whether any property points at the target. -/
def hasReferences (r : NodeReferences) : Bool :=
  !r.properties.isEmpty

/-- Records one more occurrence of a property. -/
def add (r : NodeReferences) (property : PropertyId) : NodeReferences :=
  { r with properties := r.properties ++ [property] }

/-- Drops the first occurrence of a property; tells whether there was one. -/
def remove (r : NodeReferences) (property : PropertyId) : Bool × NodeReferences :=
  (property ∈ r.properties, { r with properties := r.properties.erase property })

/-- Drops all references. -/
def clear (r : NodeReferences) : NodeReferences :=
  { r with properties := [] }

/-- Takes over the references of another record. -/
def copyFrom (r other : NodeReferences) : NodeReferences :=
  { r with properties := other.properties }

end NodeReferences

end ContentTree
