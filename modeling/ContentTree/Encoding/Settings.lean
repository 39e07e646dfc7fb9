import ContentTree.Config
import ContentTree.Encoding.Value

/-!
# Reading settings

Configurations and registries of node types are read from text. A field of a configuration that is
left out has its default; a list of fields may end early.
-/

namespace ContentTree

/-- Reads a span of time. All of its fields must be there and no other may; a nanosecond count of a
second or more is carried. -/
def Duration.ofDatum? (d : Datum) : Option Duration := do
  let f ← d.recordWith? .textual true ["secs", "nanos"]
  let secs ← f.required 0 (Datum.natural? maxUInt64)
  let nanos ← f.required 1 (Datum.natural? maxUInt32)
  let secs := secs + nanos / 1000000000
  if secs ≤ maxUInt64 then some ⟨secs, nanos % 1000000000⟩ else none

/-- Reads a configuration from its tree. -/
def Config.ofDatum? (d : Datum) : Option Config := do
  let f ← d.record? .textual
    ["workspace", "root_node_id", "cache_soft_limit", "lock_timeout", "event_buffer_size"]
  return {
    workspace := ← f.defaulted 0 default.workspace Datum.text?
    rootNode := ← f.defaulted 1 default.rootNode (Portable.ofDatum? .textual)
    cacheSoftLimit := ← f.defaulted 2 default.cacheSoftLimit (Datum.natural? maxUInt64)
    lockTimeout := ← f.defaulted 3 default.lockTimeout (Datum.optional? Duration.ofDatum?)
    eventBufferSize := ← f.defaulted 4 default.eventBufferSize (Datum.natural? maxUInt64) }

/-- Reads a configuration from text. -/
def Config.ofJson? (text : String) : Option Config :=
  Json.decode Config.ofDatum? text

/-- Reads the configuration of a directory backend from text. -/
def FileConfig.ofJson? (text : String) : Option FileConfig :=
  Json.decode (fun d => do
    let f ← d.record? .textual ["path", "create_if_missing", "sync_writes"]
    return {
      path := ← f.defaulted 0 FileConfig.default.path Datum.text?
      createIfMissing := ← f.defaulted 1 FileConfig.default.createIfMissing Datum.boolean?
      syncWrites := ← f.defaulted 2 FileConfig.default.syncWrites Datum.boolean? }) text

/-- Reads a property definition from its tree. -/
def PropertyDefinition.ofDatum? (d : Datum) : Option PropertyDefinition := do
  let f ← d.record? .textual ["id", "name", "required_type", "multiple", "mandatory"]
  return {
    id := ← f.required 0 (Portable.ofDatum? .textual)
    name := ← f.required 1 (Portable.ofDatum? .textual)
    requiredType := ← f.required 2 (Portable.ofDatum? .textual)
    multiple := ← f.defaulted 3 false Datum.boolean?
    mandatory := ← f.defaulted 4 false Datum.boolean? }

/-- Reads a node type from its tree. -/
def NodeType.ofDatum? (d : Datum) : Option NodeType := do
  let f ← d.record? .textual ["name", "property_defs"]
  return {
    name := ← f.required 0 (Portable.ofDatum? .textual)
    properties := ← f.defaulted 1 [] (Datum.listOf? .textual PropertyDefinition.ofDatum?) }

/-- Reads a registry from text. -/
def Registry.ofJson? (text : String) : Option Registry :=
  Json.decode (fun d => do
    let f ← d.record? .textual ["root_definition", "node_types"]
    return .ofTypes (← f.required 0 (Portable.ofDatum? .textual))
      (← f.required 1 (Datum.listOf? .textual NodeType.ofDatum?))) text

end ContentTree
