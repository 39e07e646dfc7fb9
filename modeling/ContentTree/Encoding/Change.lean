import ContentTree.Encoding.Item
import ContentTree.Operation
import ContentTree.Persistence.JournalEntry

/-!
# Written forms of changes

Reference records, batches, journal entries and operations.
-/

namespace ContentTree

instance : Portable NodeReferences where
  document r :=
    .record [("id", Portable.document r.target), ("references", Portable.listDocument r.properties)]
  ofDatum? dialect d := do
    let f ← d.record? dialect ["id", "references"]
    return {
      target := ← f.required 0 (Portable.ofDatum? f.inner)
      properties := ← f.required 1 (Portable.listOfDatum? f.inner) }

instance : Portable ChangeSet where
  document c :=
    .record
      [("added", Portable.listDocument c.added), ("modified", Portable.listDocument c.modified),
        ("deleted", Portable.listDocument c.deleted),
        ("references", Portable.listDocument c.references)]
  ofDatum? dialect d := do
    let f ← d.record? dialect ["added", "modified", "deleted", "references"]
    return {
      added := ← f.required 0 (Portable.listOfDatum? f.inner)
      modified := ← f.required 1 (Portable.listOfDatum? f.inner)
      deleted := ← f.required 2 (Portable.listOfDatum? f.inner)
      references := ← f.required 3 (Portable.listOfDatum? f.inner) }

namespace JournalStatus

/-- The word for a status. -/
def word : JournalStatus → String
  | pending => "Pending"
  | committed => "Committed"
  | rolledBack => "RolledBack"

/-- All statuses in the order of their declaration. -/
def all : List JournalStatus :=
  [pending, committed, rolledBack]

end JournalStatus

instance : Portable JournalStatus where
  document s := .tag s.word
  ofDatum? dialect d := do
    JournalStatus.all[← d.tag? dialect (JournalStatus.all.map JournalStatus.word)]?

instance : Portable JournalEntry where
  document e :=
    .record
      [("seq", .natural e.seq), ("status", Portable.document e.status),
        ("batch", Portable.optionDocument e.batch), ("timestamp", .natural e.timestamp)]
  ofDatum? dialect d := do
    let f ← d.record? dialect ["seq", "status", "batch", "timestamp"]
    return {
      seq := ← f.required 0 (Datum.natural? maxUInt64)
      status := ← f.required 1 (Portable.ofDatum? f.inner)
      batch := ← f.optional 2 (Portable.ofDatum? f.inner)
      timestamp := ← f.required 3 (Datum.natural? maxUInt64) }

instance : Portable OperationKind where
  document
    | .addNode parent node name type =>
      .variant "AddNode"
        (.record
          [("parent", Portable.document parent), ("node", Portable.document node),
            ("name", Portable.document name), ("node_type", Portable.document type)])
    | .addProperty parent property =>
      .variant "AddProperty"
        (.record [("parent", Portable.document parent), ("property", Portable.document property)])
    | .remove item parent =>
      .variant "Remove"
        (.record [("item", Portable.document item), ("parent", Portable.optionDocument parent)])
    | .setPropertyValue property =>
      .variant "SetPropertyValue" (.record [("property", Portable.document property)])
    | .move node source destination =>
      .variant "Move"
        (.record
          [("node", Portable.document node), ("src_parent", Portable.document source),
            ("dest_parent", Portable.document destination)])
    | .reorderNodes parent node before =>
      .variant "ReorderNodes"
        (.record
          [("parent", Portable.document parent), ("node", Portable.document node),
            ("before", Portable.optionDocument before)])
    | .setMixins node => .variant "SetMixins" (.record [("node", Portable.document node)])
  ofDatum? dialect d := do
    let names :=
      ["AddNode", "AddProperty", "Remove", "SetPropertyValue", "Move", "ReorderNodes", "SetMixins"]
    let (index, content) ← d.variant? dialect names
    let content ← content
    match index with
    | 0 =>
      let f ← content.record? dialect ["parent", "node", "name", "node_type"]
      return .addNode (← f.required 0 (Portable.ofDatum? f.inner))
        (← f.required 1 (Portable.ofDatum? f.inner)) (← f.required 2 (Portable.ofDatum? f.inner))
        (← f.required 3 (Portable.ofDatum? f.inner))
    | 1 =>
      let f ← content.record? dialect ["parent", "property"]
      return .addProperty (← f.required 0 (Portable.ofDatum? f.inner))
        (← f.required 1 (Portable.ofDatum? f.inner))
    | 2 =>
      let f ← content.record? dialect ["item", "parent"]
      return .remove (← f.required 0 (Portable.ofDatum? f.inner))
        (← f.optional 1 (Portable.ofDatum? f.inner))
    | 3 =>
      let f ← content.record? dialect ["property"]
      return .setPropertyValue (← f.required 0 (Portable.ofDatum? f.inner))
    | 4 =>
      let f ← content.record? dialect ["node", "src_parent", "dest_parent"]
      return .move (← f.required 0 (Portable.ofDatum? f.inner))
        (← f.required 1 (Portable.ofDatum? f.inner)) (← f.required 2 (Portable.ofDatum? f.inner))
    | 5 =>
      let f ← content.record? dialect ["parent", "node", "before"]
      return .reorderNodes (← f.required 0 (Portable.ofDatum? f.inner))
        (← f.required 1 (Portable.ofDatum? f.inner)) (← f.optional 2 (Portable.ofDatum? f.inner))
    | 6 =>
      let f ← content.record? dialect ["node"]
      return .setMixins (← f.required 0 (Portable.ofDatum? f.inner))
    | _ => none

instance : Portable Operation where
  document o := .record [("id", .natural o.id), ("kind", Portable.document o.kind)]
  ofDatum? dialect d := do
    let f ← d.record? dialect ["id", "kind"]
    return {
      id := ← f.required 0 (Datum.natural? maxUInt64)
      kind := ← f.required 1 (Portable.ofDatum? f.inner) }

end ContentTree
