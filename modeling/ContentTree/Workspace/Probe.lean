import ContentTree.Workspace.Commit

/-!
# A sink that looks around

A probe records at each stage of a commit what can be read from where it stands: from inside the
commit, where the lock is held, and after it. It can be told to fail at a stage.
-/

namespace ContentTree

/-- What reading some items and reference records gave: whether each is there, and what it holds. -/
structure View where
  items : List (Bool × Except Error ItemState)
  references : List (Bool × Except Error NodeReferences)

/-- What those get who have to take the lock. -/
structure LockedView where
  view : View
  check : Except Error Unit
  store : Except Error Unit

/-- A stage of a commit as a probe records it. -/
inductive Sighting where
  | started
  | created (root : NodeId) (log : String) (view : View) (locked : Option LockedView)
  | prepared
  | dispatched (view : View)

/-- The stages at which a probe can fail. -/
inductive Stage where
  | create
  | prepare
  deriving DecidableEq, Repr

/-- The word for a stage. -/
def Stage.word : Stage → String
  | create => "create"
  | prepare => "prepare"

/-- A probe and what it has recorded. -/
structure Probe where
  /-- Items to read. -/
  ids : List ItemId
  /-- Targets of reference records to read. -/
  targets : List NodeId
  /-- The stage that fails. -/
  failure : Option Stage
  /-- Whether to try what takes the lock from inside the commit. -/
  triesLock : Bool
  sightings : List Sighting

namespace Workspace

variable {σ : Type}

/-- A result that is not a failure of the whole. -/
def attempt {α : Type} (action : Action σ α) : Action σ (Except Error α) :=
  try return .ok (← action) catch e => return .error e

/-- The state of an item, read at once. -/
def readItem (item : ItemId → Action σ Handle) (id : ItemId) : Action σ ItemState := do
  let h ← item id
  return (← get).heap.read h

/-- Reads items and reference records; each is read before it is asked for. -/
def look (item : ItemId → Action σ Handle) (has : ItemId → Action σ Bool)
    (record : NodeId → Action σ NodeReferences) (hasRecord : NodeId → Action σ Bool)
    (ids : List ItemId) (targets : List NodeId) : Action σ View := do
  let items ← ids.mapM fun id => do
    let state ← attempt (readItem item id)
    return (← has id, state)
  let references ← targets.mapM fun target => do
    let r ← attempt (record target)
    return (← hasRecord target, r)
  return ⟨items, references⟩

/-- Reads from inside a commit. -/
def lookInside (held : List Handle) : List ItemId → List NodeId → Action σ View :=
  look (itemState held) hasItem references hasReferences

/-- Reads as everybody does. -/
def lookOutside (held : List Handle) : List ItemId → List NodeId → Action σ View :=
  look (getItemState held) hasItemState getReferences hasReferenceRecord

/-- Tries what takes the lock. -/
def tryLock (held : List Handle) (log : ChangeLog LocalItem) (ids : List ItemId)
    (targets : List NodeId) : Action σ LockedView := do
  let view ← lookOutside held ids targets
  let check ← attempt (checkTargetsExist log)
  let outcome := store (Sink.silent σ) held (← get) () (.new log.target)
  set outcome.workspace
  return ⟨view, check, outcome.result⟩

end Workspace

namespace Probe

variable {σ : Type}

/-- A step of a workspace, for one with a probe. -/
def onWorkspace {α : Type} (step : Workspace.Action σ α) : EStateM Error (Workspace σ × Probe) α :=
  Backend.onPart Prod.fst (fun t w => (w, t.2)) step

/-- Records a stage. -/
def note (s : Sighting) (p : Probe) : Probe :=
  { p with sightings := p.sightings ++ [s] }

/-- Fails if the probe is told to. -/
def checkStage (stage : Stage) : EStateM Error (Workspace σ × Probe) Unit := do
  if (← get).2.failure = some stage then
    throw (.itemState (.stated ("sink " ++ stage.word ++ " failed")))

/-- Looks around from inside a commit. -/
def create (held : List Handle) (root : NodeId) (log : ChangeLog LocalItem) :
    EStateM Error (Workspace σ × Probe) Unit := do
  let p := (← get).2
  let view ← onWorkspace (Workspace.lookInside held p.ids p.targets)
  let locked ←
    if p.triesLock then some <$> onWorkspace (Workspace.tryLock held log p.ids p.targets)
    else pure none
  modify fun (w, p) => (w, p.note (.created root log.display view locked))
  checkStage .create

/-- The sink that looks around. -/
def sink (σ : Type) : Sink σ Probe where
  start p := p.note .started
  create := create
  prepare := do
    modify fun (w, p) => (w, p.note .prepared)
    checkStage .prepare
  dispatch held := fun (w, p) =>
    match Workspace.lookOutside held p.ids p.targets w with
    | .ok view w => (w, p.note (.dispatched view))
    | .error _ w => (w, p)

end Probe

end ContentTree
