import ContentTree.Cache
import ContentTree.Config
import ContentTree.Observation.Notifier
import ContentTree.Persistence.Backend
import ContentTree.Provider

/-!
# Workspaces

A workspace is the one authority over the shared instances of its items. It answers from its cache,
its backend and the virtual subtrees that are registered with it. A lock keeps everybody out while
a commit is made.
-/

namespace ContentTree

/-- What outlives a workspace: instances, virtual subtrees by number, and durable storage. -/
structure Shared (σ : Type) where
  heap : Heap
  providers : List Provider
  storage : σ

/-- An open workspace together with all that it works on. -/
structure Workspace (σ : Type) extends Shared σ where
  config : Config
  backend : Backend σ
  cache : Cache
  /-- The instance of the root node, which is never swept. -/
  root : Handle
  /-- Numbers of the registered subtrees, in the order of registration. -/
  overlays : List Nat
  notifier : Notifier
  /-- A commit is being made. -/
  locked : Bool

namespace Workspace

variable {σ α : Type}

/-- Something done with a workspace. What was done before a failure stays. -/
abbrev Action (σ : Type) := EStateM Error (Workspace σ)

/-- A step on the storage alone. -/
def onStorage (step : EStateM Error σ α) : Action σ α :=
  Backend.onPart (fun w => w.storage) (fun w storage => { w with storage }) step

/-- Identity of the root node. -/
def rootId (w : Workspace σ) : NodeId :=
  w.config.rootNode

/-- The registered subtrees. -/
def subtrees (w : Workspace σ) : List Provider :=
  w.overlays.filterMap fun n => w.providers[n]?

/-- The subtree that claims an identity as its root. -/
def claimant? (w : Workspace σ) (id : ItemId) : Option Provider :=
  w.subtrees.find? (·.isRoot id)

/-- The subtree that holds an item. -/
def owner? (w : Workspace σ) (id : ItemId) : Option Provider :=
  w.subtrees.find? (·.has id)

/-- Registers a subtree by its number. -/
def register (w : Workspace σ) (number : Nat) : Workspace σ :=
  { w with overlays := w.overlays ++ [number] }

/-- The number of cached instances. -/
def cachedCount (w : Workspace σ) : Nat :=
  w.cache.size

/-- Whether an item is cached. -/
def isCached (w : Workspace σ) (id : ItemId) : Bool :=
  w.cache.contains id

/-- Evicts everything but the root. -/
def dispose (w : Workspace σ) : Workspace σ :=
  { w with cache := (Cache.empty.put w.root).2 }

/-- Tells the subscribers of a transition. -/
def notify (w : Workspace σ) (id : ItemId) (kind : TransitionKind) : Workspace σ :=
  { w with notifier := w.notifier.notify id kind }

/-- Handles besides those of the cache: the root's own, and those that others hold. -/
def holding (w : Workspace σ) (held : List Handle) : List Handle :=
  w.root :: held

/-- A diagnostic listing. -/
def dump (w : Workspace σ) (held : List Handle) : String :=
  "SharedItemStateManager (workspace=" ++ w.config.workspace ++ ", root=" ++ w.rootId.hex
    ++ ", providers=" ++ toString w.overlays.length ++ ")\n\n[cache] "
    ++ w.cache.dump w.heap (w.holding held) []

end Workspace

end ContentTree
