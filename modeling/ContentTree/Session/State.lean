import ContentTree.Observation.Channel
import ContentTree.Persistence.Depot
import ContentTree.Workspace.State

/-!
# Sessions

What a client has in hand, by name: handles to shared instances, overlays, change logs, caches,
virtual subtrees, subscriptions and channels, besides one backend, one journal and one workspace.
Everything that holds a handle counts when a cache decides what it may sweep: `held` lists these
handles.
-/

namespace ContentTree

/-- A change log of any kind of states. -/
inductive AnyLog where
  | plain (log : ChangeLog ItemState)
  | shared (log : ChangeLog Handle)
  | overlay (log : ChangeLog LocalItem)

/-- What a client has of a subscription. -/
inductive Subscription where
  /-- A mailbox of the open workspace. -/
  | live (number : Nat)
  /-- What a workspace that is gone had left in the mailbox. -/
  | orphaned (queue : List Transition)

/-- What a client has in hand. -/
structure Session where
  shared : Shared Depot
  /-- The open workspace. Its own `shared` part is the one above. -/
  workspace : Option (Workspace Depot)
  /-- The place that the open workspace works on. -/
  workspacePlace : Nat
  /-- The place in hand. -/
  place : Option Nat
  journal : Option Journal
  handles : OrderedMap String Handle
  overlays : OrderedMap String LocalItem
  logs : OrderedMap String AnyLog
  caches : OrderedMap String Cache
  /-- Virtual subtrees by their number. -/
  subtrees : OrderedMap String Nat
  subscriptions : OrderedMap String Subscription
  channels : OrderedMap String Channel

/-- How a session points at an overlay. -/
inductive OverlayRef where
  | named (name : String)
  /-- The overlay of an item in a change log. -/
  | logged (log : String) (id : ItemId)

/-- How a session points at an instance. -/
inductive InstanceRef where
  | named (name : String)
  /-- The root of the open workspace. -/
  | root
  /-- The instance that an overlay is connected to. -/
  | under (overlay : OverlayRef)

namespace AnyLog

/-- What every change log can tell. -/
def ask {β : Type} (question : {α : Type} → ChangeLog α → β) : AnyLog → β
  | plain log => question log
  | shared log => question log
  | overlay log => question log

/-- A change that every change log can undergo. -/
def map (f : {α : Type} → ChangeLog α → ChangeLog α) : AnyLog → AnyLog
  | plain log => plain (f log)
  | shared log => shared (f log)
  | overlay log => overlay (f log)

/-- Handles that a change log holds. -/
def held : AnyLog → List Handle
  | plain _ => []
  | shared log => log.states
  | overlay log => log.connections

end AnyLog

namespace Session

variable {α : Type}

/-- A session with nothing in hand. -/
def new (device : Device) : Session where
  shared := ⟨∅, [], .new device⟩
  workspace := none
  workspacePlace := 0
  place := none
  journal := none
  handles := ∅
  overlays := ∅
  logs := ∅
  caches := ∅
  subtrees := ∅
  subscriptions := ∅
  channels := ∅

instance : Inhabited Session := ⟨new default⟩

/-- The open workspace. -/
def workspace? (s : Session) : Option (Workspace Depot) :=
  s.workspace.map fun w => { w with toShared := s.shared }

/-- Shared instances. -/
def heap (s : Session) : Heap :=
  s.shared.heap

/-! ## Who holds what -/

/-- The subtrees that a name or the open workspace keeps. -/
def keptSubtrees (s : Session) : List Provider :=
  let registered := (s.workspace.map Workspace.overlays).getD []
  (s.subtrees.values ++ registered).eraseDups.filterMap fun n => s.shared.providers[n]?

/-- Handles held outside the open workspace. -/
def held (s : Session) : List Handle :=
  s.handles.values ++ s.overlays.values.filterMap LocalItem.overlayed
    ++ s.logs.values.flatMap AnyLog.held ++ s.caches.values.flatMap (·.entries.values)
    ++ s.keptSubtrees.flatMap (·.items.values)

/-- Handles that the open workspace holds. -/
def heldByWorkspace (s : Session) : List Handle :=
  match s.workspace with
  | some w => w.holding w.cache.entries.values
  | none => []

/-- Handles held outside the open workspace and outside a log. -/
def heldOutsideLog (s : Session) (name : String) : List Handle :=
  { s with logs := s.logs.erase name }.held

/-- Handles held outside a cache. -/
def heldOutsideCache (s : Session) (name : String) : List Handle :=
  let s := { s with caches := s.caches.erase name }
  s.held ++ s.heldByWorkspace

/-- Whether a handle is the only one to its instance. -/
def isOnlyHandle (s : Session) (h : Handle) : Bool :=
  (s.held ++ s.heldByWorkspace).count h = 1

/-! ## Finding things -/

/-- Something done in a session. What was done before a failure stays. -/
abbrev Action := EStateM Error Session

/-- The client asked for something it does not have. -/
def missing (what : String) : Action α :=
  throw (.itemState (.stated (what ++ " is not in hand")))

/-- A result that is not a failure of the whole. -/
def attempt (action : Action α) : Action (Except Error α) :=
  try return .ok (← action) catch e => return .error e

/-- A thing by its name. -/
def find (table : Session → OrderedMap String α) (name : String) : Action α := do
  match (table (← get)).get? name with
  | some a => return a
  | none => missing name

/-- The overlay that a reference points at. -/
def findOverlay : OverlayRef → Action LocalItem
  | .named name => find overlays name
  | .logged log id => do
    match ← find logs log with
    | .overlay l =>
      match l.states.find? fun l => l.id = id with
      | some l => return l
      | none => missing id.display
    | _ => missing log

/-- Puts an overlay in the place of the one that a reference points at. -/
def setOverlay (r : OverlayRef) (l : LocalItem) (s : Session) : Session :=
  match r with
  | .named name => { s with overlays := s.overlays.insert name l }
  | .logged log id =>
    match s.logs.get? log with
    | some (.overlay items) =>
      { s with
        logs := s.logs.insert log (.overlay (items.mapStates fun o => if o.id = id then l else o)) }
    | _ => s

/-- The instance that a reference points at. -/
def findInstance : InstanceRef → Action Handle
  | .named name => find handles name
  | .root => do
    match (← get).workspace with
    | some w => return w.root
    | none => missing "the root"
  | .under overlay => do
    match (← findOverlay overlay).overlayed with
    | some h => return h
    | none => missing "the instance"

/-- Gives a handle a name. -/
def nameHandle (name : String) (h : Handle) (s : Session) : Session :=
  { s with handles := s.handles.insert name h }

/-- A step on the heap. -/
def onHeap (step : Heap → α × Heap) : Action α :=
  modifyGet fun s =>
    let (a, heap) := step s.heap
    (a, { s with shared := { s.shared with heap } })

/-- A step on the heap that can fail. -/
def onHeapState (step : EStateM Error Heap α) : Action α :=
  Backend.onPart heap (fun s heap => { s with shared := { s.shared with heap } }) step

/-- Makes an instance. -/
def makeInstance (state : ItemState) : Action Handle :=
  onHeap (·.alloc state)

/-- Makes instances for the states of a batch, entered in a log; those to delete are empty. -/
def logOfBatch (batch : ChangeSet) : Action (ChangeLog Handle) := do
  let mut log : ChangeLog Handle := .new (.node default)
  for state in batch.added do
    log := log.added (← makeInstance state)
  for state in batch.modified do
    log := log.modified (← makeInstance state)
  for id in batch.deleted do
    log := log.deleted (← makeInstance (.empty id))
  return batch.references.foldl ChangeLog.modifiedReferences log

end Session

end ContentTree
