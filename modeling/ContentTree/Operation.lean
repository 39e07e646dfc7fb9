import ContentTree.Identity

/-!
# Operations

What a session did, recorded beside the states that changed. Two recordings are the same only if
they have the same number, whatever they say.
-/

namespace ContentTree

/-- What a session did. -/
inductive OperationKind where
  | addNode (parent node : NodeId) (name type : Name)
  | addProperty (parent : NodeId) (property : PropertyId)
  | remove (item : ItemId) (parent : Option NodeId)
  | setPropertyValue (property : PropertyId)
  | move (node source destination : NodeId)
  | reorderNodes (parent node : NodeId) (before : Option NodeId)
  | setMixins (node : NodeId)
  deriving DecidableEq, Repr

/-- A recorded operation. -/
structure Operation where
  /-- Number of the recording. -/
  id : Nat
  kind : OperationKind
  deriving DecidableEq, Repr

/-- Items that have to be saved together for the operation to take effect as a whole. -/
def OperationKind.affected : OperationKind → List ItemId
  | addNode parent node _ _ => [.node parent, .node node]
  | addProperty parent property => [.node parent, .property property]
  | remove item parent => item :: (parent.map ItemId.node).toList
  | setPropertyValue property => [.property property]
  | move node source destination =>
    [.node node, .node source] ++ if destination = source then [] else [.node destination]
  | reorderNodes parent _ _ => [.node parent]
  | setMixins node => [.node node]

namespace Operation

/-- Items that the operation affects. -/
def affected (o : Operation) : List ItemId :=
  o.kind.affected

/-- Two recordings are equal if they are the same recording. -/
def equals (a b : Operation) : Bool :=
  a.id = b.id

/-- Recordings of the given kinds under the numbers from `first` on. -/
def record (first : Nat) (kinds : List OperationKind) : List Operation :=
  kinds.mapIdx fun i kind => ⟨first + i, kind⟩

end Operation

end ContentTree
