import ContentTree.Encoding.Portable
import ContentTree.NodeType

/-!
# Written forms of identities

A name is its text, a node the list of its 16 octets, a property a record of node and name, and an
item either of these under the name of its kind.
-/

namespace ContentTree

instance : Portable Name where
  document n := .text n.text
  ofDatum? _ d := d.text?.map Name.mk

instance : Portable DefinitionId where
  document i := .text i.text
  ofDatum? _ d := d.text?.map DefinitionId.mk

instance : Portable NodeId where
  document id := .octets id.bytes
  ofDatum? dialect d := do NodeId.ofBytes? (← d.octetsOf? dialect 16)

instance : Portable PropertyId where
  document id :=
    .record [("parent", Portable.document id.parent), ("name", Portable.document id.name)]
  ofDatum? dialect d := do
    let f ← d.record? dialect ["parent", "name"]
    return {
      parent := ← f.required 0 (Portable.ofDatum? f.inner)
      name := ← f.required 1 (Portable.ofDatum? f.inner) }

instance : Portable ItemId where
  document
    | .node id => .variant "Node" (Portable.document id)
    | .property id => .variant "Property" (Portable.document id)
  ofDatum? dialect d := do
    match ← d.variant? dialect ["Node", "Property"] with
    | (0, some content) => (Portable.ofDatum? dialect content).map ItemId.node
    | (1, some content) => (Portable.ofDatum? dialect content).map ItemId.property
    | _ => none

end ContentTree
