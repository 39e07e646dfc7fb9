import ContentTree.Session.Storage
import ContentTree.Workspace.Bootstrap
import ContentTree.Workspace.Collector
import ContentTree.Workspace.Probe

/-!
# The workspace of a session

Opening and closing the workspace, working with it, committing change logs, and receiving what it
tells its subscribers. A subscriber of a workspace that was closed keeps what had reached it.
-/

namespace ContentTree.Session

variable {α τ : Type}

/-- A step of the open workspace. -/
def onWorkspace (step : Workspace.Action Depot α) : Action α := do
  match (← get).workspace? with
  | none => missing "a workspace"
  | some w =>
    Backend.onPart (fun _ => w) (fun s w => { s with workspace := some w, shared := w.toShared })
      step

/-- Subscriptions after the open workspace is gone. -/
def orphan (s : Session) : Session :=
  { s with
    subscriptions := s.subscriptions.map fun _ subscription =>
      match subscription with
      | .orphaned queue => .orphaned queue
      | .live n => .orphaned (((s.workspace.bind (·.notifier.box? n)).map Mailbox.queue).getD []) }

/-- Closes the workspace, if one is open. -/
def closeWorkspace (s : Session) : Session :=
  match s.workspace with
  | none => s
  | some _ => retire s.workspacePlace { s.orphan with workspace := none }

/-- Opens a workspace over the place in hand. An earlier one stays open if that fails. -/
def openWorkspace (config : Config) (registry : Registry) : Action (Workspace Depot) := do
  let n ← currentPlace
  let w ← Backend.onPart (fun s => s.shared) (fun s shared => { s with shared })
    (Workspace.openOver config (Depot.backend n) registry)
  modify fun s =>
    let s := s.closeWorkspace
    { s with workspace := some w, workspacePlace := n }
  return w

/-! ## Subtrees -/

/-- Makes a virtual subtree, which is registered with the open workspace if `register` is set. -/
def makeSubtree (name : String) (root : ItemState) (refuses register : Bool) : Action Provider := do
  let s ← get
  match Provider.new s.heap root refuses with
  | .error e => throw e
  | .ok (p, heap) =>
    let n := s.shared.providers.length
    set { s with
      shared := { s.shared with heap, providers := s.shared.providers ++ [p] }
      subtrees := s.subtrees.insert name n }
    if register then onWorkspace (modify (·.register n))
    return p

/-- The virtual subtree of a name. -/
def findSubtree (name : String) : Action Provider := do
  match (← get).shared.providers[← find subtrees name]? with
  | some p => return p
  | none => missing name

/-- Changes a virtual subtree. -/
def onSubtree (name : String) (step : Provider → α × Provider) : Action α := do
  let n ← find subtrees name
  let (a, p) := step (← findSubtree name)
  modify fun s => { s with shared := { s.shared with providers := s.shared.providers.set n p } }
  return a

/-- Adds an item to a virtual subtree. -/
def insertInSubtree (name : String) (state : ItemState) : Action Handle := do
  let p ← findSubtree name
  let (h, p) ← onHeap fun heap =>
    let (h, p, heap) := p.insert heap state
    ((h, p), heap)
  onSubtree name fun _ => (h, p)

/-! ## Commits -/

/-- The overlays in a log. -/
def findLog (name : String) : Action (ChangeLog LocalItem) := do
  match ← find logs name with
  | .overlay log => return log
  | _ => missing name

/-- The shared instances in a log. -/
def findSharedLog (name : String) : Action (ChangeLog Handle) := do
  match ← find logs name with
  | .shared log => return log
  | _ => missing name

/-- Commits the overlays in a log. -/
def commit (sink : Sink Depot τ) (t : τ) (name : String) :
    Action (Except Error Unit × τ × ChangeLog LocalItem) := do
  let log ← findLog name
  let held := (← get).heldOutsideLog name
  let outcome ← onWorkspace (modifyGet fun w =>
    let outcome := Workspace.store sink held w t log
    (outcome, outcome.workspace))
  modify fun s => { s with logs := s.logs.insert name (.overlay outcome.log) }
  return (outcome.result, outcome.sink, outcome.log)

/-- Commits the overlays in a log and sends its events on a channel. -/
def commitOnChannel (channel name : String) :
    Action (Except Error Unit × ChangeLog LocalItem) := do
  let c ← find channels channel
  let (result, collector, log) ← commit (Collector.sink Depot) (.new c) name
  modify fun s => { s with channels := s.channels.insert channel collector.channel }
  return (result, log)

/-- Collects the events of a log by hand and sends them on a channel. The parents of instances are
known for the given handles only, of which the first counts for an item. Each of the three stages can
be left out. -/
def collect (channel name : String) (root : NodeId) (handles : List Handle)
    (create prepare dispatch : Bool) : Action Unit := do
  let c ← find channels channel
  let log ← findLog name
  let heap := (← get).heap
  let sharedParent (id : ItemId) : Id (Option NodeId) :=
    (handles.find? fun h => h.id = id).bind fun h => Event.recordedParent (heap.read h)
  let collected := if create then Collection.empty.collect root (Event.ofLog sharedParent log).run
    else .empty
  let c := if dispatch then { collected with isPrepared := prepare }.dispatch c else c
  modify fun s => { s with channels := s.channels.insert channel c }

/-! ## Receiving -/

/-- Stops listening to a subscription, if there is one of that name. -/
def unsubscribe (name : String) (s : Session) : Session :=
  let hangUp (n : Nat) (w : Workspace Depot) : Workspace Depot :=
    { w with notifier := w.notifier.hangUp n }
  { s with
    workspace :=
      match s.subscriptions.get? name with
      | some (.live n) => s.workspace.map (hangUp n)
      | _ => s.workspace
    subscriptions := s.subscriptions.erase name }

/-- Subscribes to the open workspace. -/
def subscribe (name : String) : Action Unit := do
  let n ← onWorkspace (modifyGet fun w =>
    let (n, notifier) := w.notifier.subscribe
    (n, { w with notifier }))
  modify fun s =>
    let s := s.unsubscribe name
    { s with subscriptions := s.subscriptions.insert name (.live n) }

/-- Takes out what has arrived for a subscription; tells whether nothing more can come. -/
def receive (name : String) : Action (List Transition × Bool) := do
  match ← find subscriptions name with
  | .orphaned queue =>
    modify fun s => { s with subscriptions := s.subscriptions.insert name (.orphaned []) }
    return (queue, true)
  | .live n =>
    onWorkspace (modifyGet fun w =>
      let box := (w.notifier.box? n).getD ⟨[], false, true⟩
      ((box.queue, !box.isServed), { w with notifier := w.notifier.receive n }))

/-- Takes out the bundles that have arrived on a channel. -/
def receiveBundles (name : String) : Action (List EventBundle) := do
  let c ← find channels name
  modify fun s => { s with channels := s.channels.insert name { c with queue := [] } }
  return c.queue

/-- Makes a channel in the place of the one before. -/
def openChannel (name : String) (capacity : Nat) : Action Unit :=
  modify fun s => { s with channels := s.channels.insert name ⟨capacity, [], true⟩ }

/-- Stops listening to a channel; what waits on it is lost. -/
def closeChannel (name : String) : Action Unit := do
  let c ← find channels name
  modify fun s =>
    { s with channels := s.channels.insert name { c with queue := [], isHeard := false } }

end ContentTree.Session
