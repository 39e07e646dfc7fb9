import ContentTree.Item.Heap

/-!
# Overlays

A session works on its own copy of an item, which may be connected to the shared instance of the
same identity. An overlay has fallen behind if the instance is gone, or if its modification count
is not the one seen when the two were last in step.
-/

namespace ContentTree

/-- A session's own copy of an item. -/
structure LocalItem where
  state : ItemState
  /-- The shared instance that the copy is connected to. -/
  overlayed : Option Handle
  /-- Modification count of the instance when the two were last in step. -/
  baseModCount : Nat
  deriving DecidableEq, Repr

namespace LocalItem

/-- A copy without a shared counterpart. -/
def new (state : ItemState) : LocalItem :=
  ⟨state, none, 0⟩

/-- A copy of a shared instance, connected to it. -/
def overlaying (heap : Heap) (h : Handle) : LocalItem :=
  let shared := heap.read h
  ⟨shared.withStatus .existing, some h, shared.modCount⟩

/-- Identity of the item. -/
def id (l : LocalItem) : ItemId :=
  l.state.id

/-- Status of the copy. -/
def status (l : LocalItem) : ItemStatus :=
  l.state.status

/-- Whether there is a shared counterpart. -/
def isConnected (l : LocalItem) : Bool :=
  l.overlayed.isSome

/-- Connects the copy to an instance of its identity. Connecting it again to the same instance
changes nothing; any other is refused. -/
def connect (heap : Heap) (h : Handle) (l : LocalItem) : Except Error LocalItem :=
  match l.overlayed with
  | some current =>
    if current = h then .ok l else .error (.itemState (.alreadyConnected l.id))
  | none =>
    if h.id = l.id then .ok { l with overlayed := some h, baseModCount := (heap.read h).modCount }
    else .error (.itemState (.mismatched l.id h.id))

/-- Gives up the connection. -/
def disconnect (l : LocalItem) : LocalItem :=
  { l with overlayed := none }

/-- The instance that the copy is connected to. -/
def shared (l : LocalItem) : Except Error Handle :=
  match l.overlayed with
  | some h => .ok h
  | none => .error (.itemState (.notConnected l.id))

/-- Copies the data into the shared instance. -/
def push (heap : Heap) (l : LocalItem) : Except Error Heap := do
  return heap.copyInto (← l.shared) l.state

/-- Takes over the data of the shared instance. -/
def pull (heap : Heap) (l : LocalItem) : Except Error LocalItem := do
  let shared := heap.read (← l.shared)
  return { l with
    state := (l.state.copyFrom shared).withStatus .existing
    baseModCount := shared.modCount }

/-- Takes over the status of the shared instance after a commit. -/
def settle (heap : Heap) (l : LocalItem) : Except Error LocalItem := do
  let shared := heap.read (← l.shared)
  return { l with
    state := l.state.withStatus shared.status
    baseModCount := shared.modCount }

/-- Marks a copy that has fallen behind. -/
def refreshStatus (heap : Heap) (l : LocalItem) : LocalItem :=
  match l.overlayed with
  | none => l
  | some h =>
    let shared := heap.read h
    if shared.status.isTerminal then { l with state := l.state.withStatus .staleDestroyed }
    else if shared.modCount ≠ l.baseModCount then
      { l with state := l.state.withStatus .staleModified }
    else l

end LocalItem

end ContentTree
