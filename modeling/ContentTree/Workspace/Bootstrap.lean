import ContentTree.NodeType
import ContentTree.Workspace.Commit

/-!
# Opening a workspace

A workspace is opened over a backend. If the backend has no root node one is made from the registry
of node types, together with the property that holds its type, and both are stored in one batch.
-/

namespace ContentTree.Workspace

variable {σ α : Type}

/-- Something done before there is a workspace. -/
abbrev Preparation (σ : Type) := EStateM Error (Shared σ)

/-- A step on the storage alone. -/
def prepareStorage (step : EStateM Error σ α) : Preparation σ α :=
  Backend.onPart (fun s => s.storage) (fun s storage => { s with storage }) step

/-- Makes an instance. -/
def prepareInstance (state : ItemState) : Preparation σ Handle := do
  let s ← get
  let (h, heap) := s.heap.alloc state
  set { s with heap }
  return h

/-- The definition of the root node, and that of the property that holds its type. -/
def rootDefinitions (registry : Registry) : Except Error (DefinitionId × PropertyDefinition) := do
  let type ← registry.nodeType .root
  return (registry.rootDefinition, ← type.applicable .primaryType .name false)

/-- The root node: of the root type, without a parent, with the property that holds its type. -/
def rootNode (fresh : NodeState) (definition : DefinitionId) (property : Name) : NodeState :=
  ({ fresh with type := .root, parent := none, definition := some definition }.addProperty
    property).2

/-- The property that holds the type of the root node. -/
def rootProperty (d : PropertyDefinition) : PropertyState where
  type := d.requiredType
  multiValued := d.multiple
  definition := some d.id
  values := [.name .root]

/-- States of the root node and of the property that holds its type. -/
def rootStates (root : NodeId) (backend : Backend σ) (storage : σ) (registry : Registry) :
    Except Error (ItemState × ItemState) := do
  match rootDefinitions registry with
  | .error e => throw (.itemState (.rootNotCreated e.message))
  | .ok (definition, primaryType) =>
    let fresh := backend.createNew storage (.node root)
    match fresh.data with
    | .property _ => throw (.itemState (.notNodeState (.node root)))
    | .node n =>
      let id := ItemId.property ⟨root, primaryType.name⟩
      let freshProperty := backend.createNew storage id
      match freshProperty.data with
      | .node _ => throw (.itemState (.notPropertyState id))
      | .property _ =>
        return ({ fresh with status := .new, data := .node (rootNode n definition primaryType.name) },
          { freshProperty with status := .new, data := .property (rootProperty primaryType) })

/-- A workspace around a root instance. -/
def around (config : Config) (backend : Backend σ) (cache : Cache) (root : Handle)
    (shared : Shared σ) : Workspace σ where
  toShared := shared
  config := config
  backend := backend
  cache := cache
  root := root
  overlays := []
  notifier := .new config.eventBufferSize
  locked := false

/-- Opens a workspace whose backend has a root node. -/
def openExisting (config : Config) (backend : Backend σ) : Preparation σ (Workspace σ) := do
  let id := ItemId.node config.rootNode
  let state ← prepareStorage (backend.load id)
  let s ← get
  let (root, cache, heap) := Cache.empty.putLoaded s.heap id state
  set { s with heap }
  return around config backend cache root (← get)

/-- Makes the root node, stores it, and opens the workspace. -/
def openFresh (config : Config) (backend : Backend σ) (registry : Registry) :
    Preparation σ (Workspace σ) := do
  match rootStates config.rootNode backend (← get).storage registry with
  | .error e => throw e
  | .ok (node, property) =>
    let root ← prepareInstance node
    let property ← prepareInstance property
    let log := ((ChangeLog.new (.node config.rootNode)).added root).added property
    prepareStorage (backend.store (log.changeSet (← get).heap))
    let w := (around config backend .empty root (← get)).persisted log
    set w.toShared
    return w

/-- Opens a workspace. -/
def openOver (config : Config) (backend : Backend σ) (registry : Registry) :
    Preparation σ (Workspace σ) := do
  if ← prepareStorage (backend.contains (.node config.rootNode)) then openExisting config backend
  else openFresh config backend registry

end ContentTree.Workspace
