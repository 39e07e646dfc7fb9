import ContentTree.Item.Heap
import Mathlib.Order.Defs.Unbundled

/-!
# Heaps over time

Instances are never taken away, and an instance keeps its identity whatever is written to it. A heap
that only had instances added (`Grows`) reads as before at every handle that was valid.
-/

namespace ContentTree.Heap

/-! ## Valid handles -/

/-- A valid handle points into the heap. -/
theorem Valid.index_lt {heap : Heap} {h : Handle} (hv : heap.Valid h) :
    h.index < heap.cells.size :=
  let ⟨_, ha, _⟩ := hv
  (Array.getElem?_eq_some_iff.1 ha).1

/-- Two handles that denote one instance are the same handle. -/
theorem Valid.eq_of_index {heap : Heap} {h k : Handle} (hv : heap.Valid h) (kv : heap.Valid k)
    (hi : h.index = k.index) : h = k := by
  obtain ⟨s, hs, hid⟩ := hv
  obtain ⟨s', hs', hid'⟩ := kv
  rw [hi, hs'] at hs
  cases hs
  cases h; cases k
  simp_all

/-- Different valid handles point to different places. -/
theorem Valid.index_ne {heap : Heap} {h k : Handle} (hv : heap.Valid h) (kv : heap.Valid k)
    (hne : h ≠ k) : h.index ≠ k.index :=
  fun hi => hne (hv.eq_of_index kv hi)

/-- The instance of a valid handle has its identity. -/
theorem Valid.read_id {heap : Heap} {h : Handle} (hv : heap.Valid h) :
    (heap.read h).id = h.id := by
  obtain ⟨s, hs, hid⟩ := hv
  simp [read, Array.getD_eq_getD_getElem?, hs, hid]

/-! ## Heaps with more instances -/

/-- Instances were added, and nothing was written to those that were there. -/
def Grows (old new : Heap) : Prop :=
  ∃ more, new.cells = old.cells ++ more

instance : IsPreorder Heap Grows where
  refl heap := ⟨#[], by simp⟩
  trans _ _ _ := by
    rintro ⟨a, ha⟩ ⟨b, hb⟩
    exact ⟨a ++ b, by rw [hb, ha, Array.append_assoc]⟩

/-- A heap grows by an instance that is made. -/
theorem grows_alloc (heap : Heap) (s : ItemState) : Grows heap (heap.alloc s).2 :=
  ⟨#[s], by simp [alloc]⟩

/-- A heap that grows does not get smaller. -/
theorem Grows.size_le {old new : Heap} (hg : Grows old new) :
    old.cells.size ≤ new.cells.size := by
  obtain ⟨more, hm⟩ := hg
  simp [hm]

/-- What was in a heap stays as it grows. -/
theorem Grows.getElem? {old new : Heap} (hg : Grows old new) {i : Nat} (hi : i < old.cells.size) :
    new.cells[i]? = old.cells[i]? := by
  obtain ⟨more, hm⟩ := hg
  rw [hm, Array.getElem?_append_left hi]

/-- A valid handle stays valid as the heap grows. -/
theorem Grows.valid {old new : Heap} (hg : Grows old new) {h : Handle} (hv : old.Valid h) :
    new.Valid h := by
  obtain ⟨s, hs, hid⟩ := hv
  exact ⟨s, (hg.getElem? (Valid.index_lt ⟨s, hs, hid⟩)).trans hs, hid⟩

/-- The instance of a valid handle stays as it is as the heap grows. -/
theorem Grows.read {old new : Heap} (hg : Grows old new) {h : Handle} (hv : old.Valid h) :
    new.read h = old.read h := by
  simp only [Heap.read, Array.getD_eq_getD_getElem?, hg.getElem? hv.index_lt]

/-! ## Instances keep their identities -/

/-- No instance is gone, and each has the identity it had. -/
def KeepsIds (old new : Heap) : Prop :=
  ∀ h, old.Valid h → new.Valid h

instance : IsPreorder Heap KeepsIds where
  refl _ _ hv := hv
  trans _ _ _ h h' k hv := h' k (h k hv)

/-- A heap that grows keeps the identities. -/
theorem Grows.keepsIds {old new : Heap} (hg : Grows old new) : KeepsIds old new :=
  fun _ hv => hg.valid hv

/-- A change that keeps identities keeps handles valid. -/
theorem valid_modify_iff {heap : Heap} {h k : Handle} {f : ItemState → ItemState}
    (hf : ∀ s, (f s).id = s.id) : (heap.modify h f).Valid k ↔ heap.Valid k := by
  simp only [Valid, modify, Array.getElem?_modify]
  split
  · next hi =>
    constructor
    · rintro ⟨s, hs, hid⟩
      obtain ⟨a, ha, rfl⟩ := Option.map_eq_some_iff.1 hs
      exact ⟨a, ha, (hf a).symm.trans hid⟩
    · rintro ⟨s, hs, hid⟩
      exact ⟨f s, by rw [hs, Option.map_some], (hf s).trans hid⟩
  · exact Iff.rfl

/-- A new status keeps handles valid. -/
@[simp] theorem valid_setStatus {heap : Heap} {h k : Handle} {status : ItemStatus} :
    (heap.setStatus h status).Valid k ↔ heap.Valid k :=
  valid_modify_iff fun _ => rfl

/-- New data keep handles valid. -/
@[simp] theorem valid_copyInto {heap : Heap} {h k : Handle} {s : ItemState} :
    (heap.copyInto h s).Valid k ↔ heap.Valid k :=
  valid_modify_iff fun _ => rfl

/-- A change keeps the number of instances. -/
@[simp] theorem size_modify (heap : Heap) (h : Handle) (f : ItemState → ItemState) :
    (heap.modify h f).cells.size = heap.cells.size := by
  simp [modify]

/-- The instance of a handle gets the status. -/
theorem read_setStatus {heap : Heap} {h : Handle} (hv : heap.Valid h) (status : ItemStatus) :
    (heap.setStatus h status).read h = (heap.read h).withStatus status :=
  read_modify hv _

/-- The instance of a handle gets the data. -/
theorem read_copyInto {heap : Heap} {h : Handle} (hv : heap.Valid h) (s : ItemState) :
    (heap.copyInto h s).read h = (heap.read h).copyFrom s :=
  read_modify hv _

/-! ## Changing several instances -/

/-- Changes that keep identities, one after the other, keep handles valid. -/
theorem valid_foldl_modify {f : ItemState → ItemState} (hf : ∀ s, (f s).id = s.id)
    (hs : List Handle) (heap : Heap) (k : Handle) :
    (hs.foldl (fun heap h => heap.modify h f) heap).Valid k ↔ heap.Valid k := by
  induction hs generalizing heap with
  | nil => exact Iff.rfl
  | cons h rest ih => exact (ih _).trans (valid_modify_iff hf)

/-- Different instances changed one after the other are each changed once. -/
theorem read_foldl_modify {f : ItemState → ItemState} (hf : ∀ s, (f s).id = s.id)
    {hs : List Handle} (hnodup : hs.Nodup) {heap : Heap} (hvalid : ∀ h ∈ hs, heap.Valid h)
    {k : Handle} (hk : heap.Valid k) :
    (hs.foldl (fun heap h => heap.modify h f) heap).read k =
      if k ∈ hs then f (heap.read k) else heap.read k := by
  induction hs generalizing heap with
  | nil => rfl
  | cons h rest ih =>
    obtain ⟨hfresh, hrest⟩ := List.nodup_cons.1 hnodup
    have hvh : heap.Valid h := hvalid h (List.mem_cons_self ..)
    rw [List.foldl_cons, ih hrest
      (fun j hj => (valid_modify_iff hf).2 (hvalid j (List.mem_cons_of_mem h hj)))
      ((valid_modify_iff hf).2 hk)]
    by_cases hkh : k = h
    · subst hkh
      rw [if_neg hfresh, if_pos (List.mem_cons_self ..), read_modify hvh]
    · have hread : (heap.modify h f).read k = heap.read k :=
        read_modify_of_ne heap (hk.index_ne hvh hkh) f
      simp only [hread, List.mem_cons, hkh, false_or]

end ContentTree.Heap
