import ContentTree.Item.State

/-!
# Shared instances

Shared item states live on a heap and are known by handles, so that several holders see one
instance. A handle carries the identity of its instance, which never changes. Main statements: what
is read after an instance was written or made (`read_modify`, `read_modify_of_ne`, `read_alloc`).
-/

namespace ContentTree

/-- A handle to a shared instance. Two handles are equal if they denote the same instance. -/
structure Handle where
  index : Nat
  id : ItemId
  deriving DecidableEq, Repr

/-- All shared instances that were ever made. -/
structure Heap where
  cells : Array ItemState
  deriving DecidableEq, Repr

namespace Heap

/-- The heap without instances. -/
def empty : Heap :=
  ⟨#[]⟩

instance : EmptyCollection Heap := ⟨empty⟩

instance : Inhabited Heap := ⟨empty⟩

/-- Makes a new instance. -/
def alloc (heap : Heap) (s : ItemState) : Handle × Heap :=
  (⟨heap.cells.size, s.id⟩, ⟨heap.cells.push s⟩)

/-- The state of an instance. -/
def read (heap : Heap) (h : Handle) : ItemState :=
  heap.cells.getD h.index (.empty h.id)

/-- Changes an instance. -/
def modify (heap : Heap) (h : Handle) (f : ItemState → ItemState) : Heap :=
  ⟨heap.cells.modify h.index f⟩

/-- Gives an instance another status. -/
def setStatus (heap : Heap) (h : Handle) (status : ItemStatus) : Heap :=
  heap.modify h (·.withStatus status)

/-- Copies data into an instance; its identity, status and modification count stay. -/
def copyInto (heap : Heap) (h : Handle) (s : ItemState) : Heap :=
  heap.modify h (·.copyFrom s)

/-- The handle denotes an instance of this heap, under its own identity. -/
def Valid (heap : Heap) (h : Handle) : Prop :=
  ∃ s, heap.cells[h.index]? = some s ∧ s.id = h.id

/-- A new instance holds the state that it was made with. -/
theorem read_alloc (heap : Heap) (s : ItemState) : (heap.alloc s).2.read (heap.alloc s).1 = s := by
  simp [alloc, read]

/-- The handle of a new instance is valid. -/
theorem valid_alloc (heap : Heap) (s : ItemState) : (heap.alloc s).2.Valid (heap.alloc s).1 :=
  ⟨s, by simp [alloc], rfl⟩

/-- Instances that were there hold what they held when another one is made. -/
theorem read_alloc_of_valid {heap : Heap} {h : Handle} (hv : heap.Valid h) (s : ItemState) :
    (heap.alloc s).2.read h = heap.read h := by
  obtain ⟨a, ha, -⟩ := hv
  have hlt : h.index < heap.cells.size := (Array.getElem?_eq_some_iff.1 ha).1
  simp [alloc, read, Array.getD_eq_getD_getElem?, Array.getElem?_push, Nat.ne_of_lt hlt]

/-- Modifying applies to the instance of the handle. -/
theorem read_modify {heap : Heap} {h : Handle} (hv : heap.Valid h) (f : ItemState → ItemState) :
    (heap.modify h f).read h = f (heap.read h) := by
  obtain ⟨a, ha, -⟩ := hv
  simp [modify, read, Array.getD_eq_getD_getElem?, Array.getElem?_modify, ha]

/-- Modifying one instance leaves the other ones alone. -/
theorem read_modify_of_ne (heap : Heap) {h k : Handle} (hne : k.index ≠ h.index)
    (f : ItemState → ItemState) : (heap.modify h f).read k = heap.read k := by
  simp [modify, read, Array.getD_eq_getD_getElem?, Array.getElem?_modify, Ne.symm hne]

end Heap

end ContentTree
