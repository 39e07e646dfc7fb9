import ContentTree.Encoding.Value
import ContentTree.Item.State

/-!
# Written forms of item states

A state is a record of identity, status, modification count and data; the data stands under the
name of its kind.
-/

namespace ContentTree

/-- All statuses in the order of their declaration. -/
def ItemStatus.all : List ItemStatus :=
  [new, existing, existingModified, existingRemoved, staleModified, staleDestroyed, destroyed,
    discarded]

/-- The status of a word. -/
def ItemStatus.ofWord? (word : String) : Option ItemStatus :=
  all.find? fun s => s.display = word

instance : Portable ItemStatus where
  document s := .tag s.display
  ofDatum? dialect d := do
    ItemStatus.all[← d.tag? dialect (ItemStatus.all.map ItemStatus.display)]?

instance : Portable NameSet where
  document s := Portable.listDocument s.names
  ofDatum? dialect d := (Portable.listOfDatum? dialect d).map NameSet.ofList

instance : Portable ChildEntry where
  document e :=
    .record
      [("name", Portable.document e.name), ("id", Portable.document e.id),
        ("index", .natural e.index)]
  ofDatum? dialect d := do
    let f ← d.record? dialect ["name", "id", "index"]
    return {
      name := ← f.required 0 (Portable.ofDatum? f.inner)
      id := ← f.required 1 (Portable.ofDatum? f.inner)
      index := ← f.required 2 (Datum.natural? maxUInt32) }

instance : Portable NodeState where
  document n :=
    .record
      [("parent", Portable.optionDocument n.parent), ("node_type", Portable.document n.type),
        ("mixin_types", Portable.document n.mixins),
        ("definition_id", Portable.optionDocument n.definition),
        ("child_node_entries", Portable.listDocument n.children),
        ("property_names", Portable.document n.properties)]
  ofDatum? dialect d := do
    let f ← d.record? dialect
      ["parent", "node_type", "mixin_types", "definition_id", "child_node_entries",
        "property_names"]
    return {
      parent := ← f.optional 0 (Portable.ofDatum? f.inner)
      type := ← f.required 1 (Portable.ofDatum? f.inner)
      mixins := ← f.required 2 (Portable.ofDatum? f.inner)
      definition := ← f.optional 3 (Portable.ofDatum? f.inner)
      children := ← f.required 4 (Portable.listOfDatum? f.inner)
      properties := ← f.required 5 (Portable.ofDatum? f.inner) }

instance : Portable PropertyState where
  document p :=
    .record
      [("property_type", Portable.document p.type), ("multi_valued", .boolean p.multiValued),
        ("definition_id", Portable.optionDocument p.definition),
        ("values", Portable.listDocument p.values)]
  ofDatum? dialect d := do
    let f ← d.record? dialect ["property_type", "multi_valued", "definition_id", "values"]
    return {
      type := ← f.required 0 (Portable.ofDatum? f.inner)
      multiValued := ← f.required 1 Datum.boolean?
      definition := ← f.optional 2 (Portable.ofDatum? f.inner)
      values := ← f.required 3 (Portable.listOfDatum? f.inner) }

instance : Portable ItemData where
  document
    | .node n => .variant "Node" (Portable.document n)
    | .property p => .variant "Property" (Portable.document p)
  ofDatum? dialect d := do
    match ← d.variant? dialect ["Node", "Property"] with
    | (0, some content) => (Portable.ofDatum? dialect content).map ItemData.node
    | (1, some content) => (Portable.ofDatum? dialect content).map ItemData.property
    | _ => none

instance : Portable ItemState where
  document s :=
    .record
      [("id", Portable.document s.id), ("status", Portable.document s.status),
        ("mod_count", .natural s.modCount), ("data", Portable.document s.data)]
  ofDatum? dialect d := do
    let f ← d.record? dialect ["id", "status", "mod_count", "data"]
    return {
      id := ← f.required 0 (Portable.ofDatum? f.inner)
      status := ← f.required 1 (Portable.ofDatum? f.inner)
      modCount := ← f.required 2 (Datum.natural? maxUInt64)
      data := ← f.required 3 (Portable.ofDatum? f.inner) }

end ContentTree
