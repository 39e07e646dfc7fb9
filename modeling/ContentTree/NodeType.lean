import ContentTree.Collection.OrderedMap
import ContentTree.Error
import ContentTree.Value

/-!
# Node types

Definitions of the properties that a node type allows, and the registry that the root node is made
from. A definition applies to a property of its name and multiplicity if the types agree or one of
them is undefined.
-/

namespace ContentTree

/-- Identity of a node or property definition. -/
structure DefinitionId where
  text : String
  deriving DecidableEq, Repr

/-- Definition of a property allowed on a node type. -/
structure PropertyDefinition where
  id : DefinitionId
  name : Name
  requiredType : PropertyType
  multiple : Bool
  mandatory : Bool
  deriving DecidableEq, Repr

/-- A node type together with all it inherits. -/
structure NodeType where
  name : Name
  properties : List PropertyDefinition
  deriving DecidableEq, Repr

/-- The definition fits a property with this name, type and multiplicity. -/
def PropertyDefinition.applies (d : PropertyDefinition) (name : Name) (type : PropertyType)
    (multiple : Bool) : Bool :=
  d.name = name ∧ d.multiple = multiple
    ∧ (d.requiredType = type ∨ d.requiredType = .undefined ∨ type = .undefined)

/-- The first definition that fits. -/
def NodeType.applicable (t : NodeType) (name : Name) (type : PropertyType) (multiple : Bool) :
    Except Error PropertyDefinition :=
  match t.properties.find? (·.applies name type multiple) with
  | some d => .ok d
  | none => .error (.constraintViolation (.noDefinition name t.name))

/-- A fixed set of node types and the definition of the root node. -/
structure Registry where
  rootDefinition : DefinitionId
  types : OrderedMap Name NodeType

namespace Registry

/-- A registry without node types. -/
def new (rootDefinition : DefinitionId) : Registry :=
  ⟨rootDefinition, .empty⟩

/-- Adds a node type; a later one takes the place of an earlier one of its name. -/
def register (r : Registry) (t : NodeType) : Registry :=
  { r with types := r.types.insert t.name t }

/-- The registry with the given node types. -/
def ofTypes (rootDefinition : DefinitionId) (types : List NodeType) : Registry :=
  types.foldl register (new rootDefinition)

/-- The node type of a name. -/
def nodeType (r : Registry) (name : Name) : Except Error NodeType :=
  match r.types.get? name with
  | some t => .ok t
  | none => .error (.noSuchNodeType name)

/-- The registry that knows the type of the root node only. -/
def default : Registry :=
  ofTypes ⟨"rep:root/rootDef"⟩
    [{ name := .root
       properties :=
        [{ id := ⟨"nt:base/jcr:primaryType"⟩
           name := .primaryType
           requiredType := .name
           multiple := false
           mandatory := true }] }]

end Registry

end ContentTree
