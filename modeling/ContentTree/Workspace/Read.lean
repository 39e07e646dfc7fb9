import ContentTree.ChangeLog
import ContentTree.Workspace.State

/-!
# Reading through a workspace

An item is looked for in the subtree that claims its identity as a root, then in the cache and the
backend, then in the subtree that holds it. Every look-up in the cache ends with a sweep down to the
limit that the configuration sets. In all functions `held` lists the handles that others have.
-/

namespace ContentTree.Workspace

variable {σ α : Type}

/-! ## While the lock is held -/

/-- The cached instance of an item, which is loaded if there is none. -/
def cachedOrLoaded (id : ItemId) : Action σ Handle := do
  let w ← get
  match w.cache.retrieve id with
  | (some h, cache) =>
    set { w with cache }
    return h
  | (none, _) =>
    let s ← onStorage (w.backend.load id)
    let w ← get
    let (h, cache, heap) := w.cache.putLoaded w.heap id s
    set { w with cache, heap }
    return h

/-- Sweeps the cache if it is over its limit. -/
def sweep (held : List Handle) (w : Workspace σ) : Workspace σ :=
  if w.config.cacheSoftLimit < w.cache.size then
    { w with cache := (w.cache.sweep w.heap (w.holding held) w.config.cacheSoftLimit).2 }
  else w

/-- The instance of an item that is not virtual. -/
def persistedItem (held : List Handle) (id : ItemId) : Action σ Handle := do
  let h ← cachedOrLoaded id
  modify (sweep (h :: held))
  return h

/-- The instance of an item. -/
def itemState (held : List Handle) (id : ItemId) : Action σ Handle := do
  match (← get).claimant? id with
  | some p => ofExcept (p.get id)
  | none =>
    try persistedItem held id
    catch e =>
      if e.isNotFound then
        match (← get).owner? id with
        | some p => ofExcept (p.get id)
        | none => throw (.noSuchItem id)
      else throw e

/-- Whether there is an item. A backend that cannot tell counts as one that has none. -/
def hasItem (id : ItemId) : Action σ Bool := do
  let w ← get
  if (w.claimant? id).isSome || w.isCached id then return true
  let persisted ← try onStorage (w.backend.contains id) catch _ => pure false
  if persisted then return true else return ((← get).owner? id).isSome

/-- The reference record that the backend keeps, if it has one and can load it. -/
def persistedReferences (target : NodeId) : Action σ (Option NodeReferences) := do
  let w ← get
  try
    if ← onStorage (w.backend.containsReferences target) then
      return some (← onStorage (w.backend.loadReferences target))
    else return none
  catch _ => return none

/-- The reference record of a target. -/
def references (target : NodeId) : Action σ NodeReferences := do
  match ← persistedReferences target with
  | some r => return r
  | none =>
    match (← get).subtrees.find? (·.hasReferences target) with
    | some p => ofExcept (p.references target)
    | none => throw (.noSuchReferences ⟨target⟩)

/-- Whether there is a reference record for a target. -/
def hasReferences (target : NodeId) : Action σ Bool := do
  let w ← get
  let persisted ← try onStorage (w.backend.containsReferences target) catch _ => pure false
  if persisted then return true
  else return (← get).subtrees.any (·.hasReferences target)

/-- Whether a reference record carries references to a node that will not be there: one that the log
deletes, or one that neither the log nor anything else has. -/
def isDangling (log : ChangeLog LocalItem) (r : NodeReferences) : Action σ Bool := do
  let target := ItemId.node r.target
  if !r.hasReferences then return false
  else if log.isDeleted target then return true
  else if (log.get? target).isSome then return false
  else return !(← hasItem target)

/-- The reference records of a log for the backend, and those for the subtrees that hold their
targets. Fails at the first record for the backend whose target will not be there. -/
def partitionReferences (log : ChangeLog LocalItem) :
    List NodeReferences → Action σ (List NodeReferences × List NodeReferences)
  | [] => return ([], [])
  | r :: rest => do
    if ((← get).owner? (.node r.target)).isSome then
      let (persisted, virtual) ← partitionReferences log rest
      return (persisted, r :: virtual)
    else if ← isDangling log r then throw (.danglingReference r.target)
    else
      let (persisted, virtual) ← partitionReferences log rest
      return (r :: persisted, virtual)

/-! ## Taking the lock -/

/-- Something done under the lock for reading, which is not free during a commit. -/
def reading (action : Action σ α) : Action σ α := do
  if (← get).locked then throw (.lockInterrupted .read) else action

/-- The instance of an item. -/
def getItemState (held : List Handle) (id : ItemId) : Action σ Handle :=
  reading (itemState held id)

/-- Whether there is an item; a lock that is not free counts as no. -/
def hasItemState (id : ItemId) : Action σ Bool :=
  try reading (hasItem id) catch _ => return false

/-- The reference record of a target. -/
def getReferences (target : NodeId) : Action σ NodeReferences :=
  reading (references target)

/-- Whether there is a reference record for a target; a lock that is not free counts as no. -/
def hasReferenceRecord (target : NodeId) : Action σ Bool :=
  try reading (hasReferences target) catch _ => return false

/-- Checks that every reference record of a log has a target that will be there. -/
def checkTargetsExist (log : ChangeLog LocalItem) : Action σ Unit :=
  reading do
    let _ ← partitionReferences log log.references.values

end ContentTree.Workspace
