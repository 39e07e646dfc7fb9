import ContentTree.Workspace.Read

/-!
# Commits

A commit connects every overlay of a change log to a shared instance, lets a sink derive its events,
copies the local data into the instances, and hands the batch to the backend. If any of this fails
the overlays are disconnected and the instances that were touched are loaded anew or given up. If
all goes well statuses, cache and subscribers follow, and the events go out once the lock is free.
-/

namespace ContentTree

/-- Somebody who is told of commits: a record of what happens at each stage, on a state of its own.
`held` lists the handles that others have. -/
structure Sink (σ τ : Type) where
  /-- A commit begins. -/
  start : τ → τ
  /-- Overlays are connected and instances are still as they were. -/
  create : (held : List Handle) → NodeId → ChangeLog LocalItem →
    EStateM Error (Workspace σ × τ) Unit
  /-- The commit is about to be made. -/
  prepare : EStateM Error (Workspace σ × τ) Unit
  /-- The commit was made and the lock is free. -/
  dispatch : (held : List Handle) → Workspace σ × τ → Workspace σ × τ

/-- The sink that takes no notice. -/
def Sink.silent (σ : Type) : Sink σ Unit where
  start := id
  create _ _ _ := pure ()
  prepare := pure ()
  dispatch _ := id

/-- A commit in progress. -/
structure Commit (σ τ : Type) where
  workspace : Workspace σ
  sink : τ
  /-- The overlays that are committed. -/
  log : ChangeLog LocalItem
  /-- The shared instances that the overlays were connected to so far. -/
  shared : ChangeLog Handle
  /-- Handles that others have. -/
  held : List Handle

namespace Commit

variable {σ τ α : Type}

/-- A step of a commit. What was done before a failure stays. -/
abbrev Action (σ τ : Type) := EStateM Error (Commit σ τ)

/-- Handles besides those of the workspace: others', and those of connected overlays. -/
def holding (c : Commit σ τ) : List Handle :=
  c.held ++ c.log.connections

/-- A step on the workspace alone. -/
def onWorkspace (step : Workspace.Action σ α) : Action σ τ α :=
  Backend.onPart Commit.workspace (fun c workspace => { c with workspace }) step

/-- A step of the sink. -/
def onSink (step : EStateM Error (Workspace σ × τ) α) : Action σ τ α :=
  Backend.onPart (fun c => (c.workspace, c.sink))
    (fun c (workspace, sink) => { c with workspace, sink }) step

/-- A new instance with the data of an overlay. -/
def createInstance (s : ItemState) (w : Workspace σ) : Handle × Workspace σ :=
  let fresh := (w.backend.createNew w.storage s.id).copyFrom s
  let (h, heap) := w.heap.alloc (fresh.withStatus .new)
  (h, { w with heap })

/-- The instance for an overlay: a new one if the item is added. -/
def counterpart (cls : ChangeLog.Class) (l : LocalItem) : Action σ τ Handle := do
  match cls with
  | .added =>
    let c ← get
    let (h, workspace) := createInstance l.state c.workspace
    set { c with workspace }
    return h
  | .modified | .deleted => onWorkspace (Workspace.itemState (← get).holding l.id)

/-- Connects an overlay to its instance, which is entered in the shared log. -/
def connectItem (cls : ChangeLog.Class) (id : ItemId) (l : LocalItem) : Action σ τ Unit := do
  let h ← counterpart cls l
  let c ← get
  match l.connect c.workspace.heap h with
  | .ok l =>
    set { c with
      log := c.log.setItems ((c.log.itemsOf cls).insert id l) cls
      shared := c.shared.record cls h }
  | .error e => throw e

/-- Connects the overlays of one set. -/
def connectClass (cls : ChangeLog.Class) : Action σ τ Unit := do
  ((← get).log.itemsOf cls).entries.forM fun (id, l) => connectItem cls id l

/-- Copies the data of all overlays into their instances. -/
def push : Action σ τ Unit := do
  let c ← get
  Backend.onPart (fun c => c.workspace.heap)
    (fun c heap => { c with workspace := { c.workspace with heap } }) c.log.push

/-- Hands the batch to the backend. -/
def write : Action σ τ Unit := do
  let c ← get
  onWorkspace (Workspace.onStorage (c.workspace.backend.store (c.shared.changeSet c.workspace.heap)))

/-- Everything that can fail. -/
def persist (sink : Sink σ τ) : Action σ τ Unit := do
  connectClass .modified
  connectClass .deleted
  connectClass .added
  modify fun c => { c with sink := sink.start c.sink }
  let c ← get
  onSink (sink.create c.holding c.workspace.rootId c.log)
  onSink sink.prepare
  push
  write

end Commit

namespace Workspace

variable {σ τ : Type}

/-! ## Undoing -/

/-- Gives up an instance. -/
def discard (w : Workspace σ) (h : Handle) : Workspace σ :=
  notify
    { w with heap := w.heap.setStatus h .discarded, cache := (w.cache.evictInstance h).2 }
    h.id .discarded

/-- Loads the data of an instance anew, or gives the instance up if that fails. -/
def restore (w : Workspace σ) (h : Handle) : Workspace σ :=
  match onStorage (w.backend.load h.id) w with
  | .ok s w => { w with heap := w.heap.copyInto h s }
  | .error _ w => w.discard h

/-- Undoes what a failed commit did to the instances it had come to. -/
def rollBack (w : Workspace σ) (shared : ChangeLog Handle) : Workspace σ :=
  let touched := shared.modifiedItems.values ++ shared.deletedItems.values
  shared.addedItems.values.foldl discard (touched.foldl restore w)

/-! ## Settling -/

/-- An added instance is durable. -/
def settleAdded (w : Workspace σ) (h : Handle) : Workspace σ :=
  notify { w with heap := w.heap.setStatus h .existing, cache := (w.cache.put h).2 } h.id .created

/-- A modified instance is durable. -/
def settleModified (w : Workspace σ) (h : Handle) : Workspace σ :=
  notify
    { w with heap := w.heap.modify h fun s => (s.withStatus .existing).touch }
    h.id .modified

/-- A deleted instance is gone. -/
def settleDeleted (w : Workspace σ) (h : Handle) : Workspace σ :=
  notify
    { w with heap := w.heap.setStatus h .destroyed, cache := (w.cache.evictInstance h).2 }
    h.id .destroyed

/-- Brings statuses, cache and subscribers in step with a batch that was stored. -/
def persisted (w : Workspace σ) (shared : ChangeLog Handle) : Workspace σ :=
  shared.deletedItems.values.foldl settleDeleted
    (shared.modifiedItems.values.foldl settleModified
      (shared.addedItems.values.foldl settleAdded w))

/-- Offers a reference record to subtrees, up to the first that takes it. -/
def offer (r : NodeReferences) : List Nat → List Provider → List Provider
  | [], providers => providers
  | n :: rest, providers =>
    match providers[n]? with
    | none => offer r rest providers
    | some p =>
      match p.setReferences r with
      | (true, p) => providers.set n p
      | (false, _) => offer r rest providers

/-- Hands reference records to the registered subtrees. -/
def deliver (w : Workspace σ) (records : List NodeReferences) : Workspace σ :=
  { w with providers := records.foldl (fun providers r => offer r w.overlays providers) w.providers }

/-! ## The whole -/

/-- How a commit ends. -/
structure Outcome (σ τ : Type) where
  result : Except Error Unit
  workspace : Workspace σ
  sink : τ
  log : ChangeLog LocalItem

/-- Ends a commit that failed. -/
def abandon (e : Error) (c : Commit σ τ) : Outcome σ τ where
  result := .error e
  workspace := { c.workspace.rollBack c.shared with locked := false }
  sink := c.sink
  log := c.log.disconnect

/-- Ends a commit whose batch was stored. `virtual` lists the reference records for subtrees. -/
def conclude (sink : Sink σ τ) (virtual : List NodeReferences) (c : Commit σ τ) : Outcome σ τ :=
  let w := c.workspace.persisted c.shared
  let log := (c.log.settle w.heap).2
  let w := { w.deliver virtual with locked := false }
  let (w, t) := sink.dispatch (c.held ++ log.connections) (w, c.sink)
  ⟨.ok (), w, t, log⟩

/-- The commit of a log at its beginning. -/
def begin (w : Workspace σ) (t : τ) (held : List Handle) (log : ChangeLog LocalItem)
    (records : List NodeReferences) : Commit σ τ where
  workspace := { w with locked := true }
  sink := t
  log := log
  shared := records.foldl ChangeLog.modifiedReferences (.new log.target)
  held := held

/-- Commits a change log. -/
def store (sink : Sink σ τ) (held : List Handle) (w : Workspace σ) (t : τ)
    (log : ChangeLog LocalItem) : Outcome σ τ :=
  if w.locked then ⟨.error (.lockInterrupted .write), w, t, log⟩
  else
    match partitionReferences log log.references.values w with
    | .error e w => ⟨.error e, w, t, log⟩
    | .ok (records, virtual) w =>
      match Commit.persist sink (begin w t held log records) with
      | .error e c => abandon e c
      | .ok () c => conclude sink virtual c

end Workspace

end ContentTree
