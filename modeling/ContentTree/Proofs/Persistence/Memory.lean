import ContentTree.Persistence.Memory
import ContentTree.Proofs.Workspace.Reading

/-!
# What a storage in memory holds

Being asked changes nothing of what a storage in memory holds. A batch that is accepted decides every
item and every reference record it names, and leaves all others alone. What is proved of workspaces over
a memory asks less of their backends: that they keep their items in one (`Backend.OverMemory`), whatever
else may fail.
-/

namespace ContentTree

namespace MemoryStore

/-- All that counts of a store: the number of loads does not. -/
def contents (m : MemoryStore) :
    OrderedMap ItemId ItemState × OrderedMap NodeId NodeReferences × Nat × Bool :=
  (m.items, m.records, m.stores, m.failNext)

/-- Loading finds what the memory holds and counts the load. -/
theorem load_eq (id : ItemId) (m : MemoryStore) :
    backend.load id m = match m.items.get? id with
      | some s => .ok s { m with loads := m.loads + 1 }
      | none => .error (.noSuchItem id) m := by
  show (match m.items.get? id with
    | some s => _
    | none => throw (Error.noSuchItem id) : EStateM Error MemoryStore ItemState) m = _
  cases m.items.get? id <;> rfl

/-- What is loaded is what is stored. -/
theorem get?_of_load_ok {id : ItemId} {m m' : MemoryStore} {s : ItemState}
    (h : backend.load id m = .ok s m') : m.items.get? id = some s := by
  rw [load_eq] at h
  cases hm : m.items.get? id with
  | some s' =>
    rw [hm] at h
    cases h
    rfl
  | none =>
    rw [hm] at h
    cases h

/-- Loading a reference record finds what the memory holds. -/
theorem loadReferences_eq (target : NodeId) (m : MemoryStore) :
    backend.loadReferences target m = match m.records.get? target with
      | some r => .ok r m
      | none => .error (.noSuchReferences ⟨target⟩) m := by
  show (match m.records.get? target with
    | some r => _
    | none => throw (Error.noSuchReferences ⟨target⟩) : EStateM Error MemoryStore NodeReferences) m = _
  cases m.records.get? target <;> rfl

/-- Applying fails for a missing item, and else makes the changes of the batch. -/
theorem apply_eq (set : ChangeSet) (m : MemoryStore) :
    apply set m = match m.missing? set with
      | some id => .error (.persistence (.missingItem id)) m
      | none => .ok () (m.applied set) := by
  rw [apply, get_bind]
  cases m.missing? set <;> rfl

/-- Storing fails if a failure was asked for, and else applies the batch. -/
theorem store_eq (set : ChangeSet) (m : MemoryStore) :
    backend.store set m = if m.failNext then
        .error (.persistence .injected) { m with failNext := false }
      else apply set m := by
  show (if m.failNext then _ else apply set : EStateM Error MemoryStore Unit) m = _
  cases m.failNext <;> rfl

/-- Being asked changes nothing of what a store holds. -/
theorem contents_queried {m m' : MemoryStore} (h : backend.Queried m m') :
    m'.contents = m.contents := by
  refine h.preserves (fun id m => ?_) (fun _ _ => rfl) (fun target m => ?_) fun _ _ => rfl
  · rw [stateAfter, load_eq]
    cases m.items.get? id <;> rfl
  · rw [stateAfter, loadReferences_eq]
    cases m.records.get? target <;> rfl

/-- Asking for items changes no items. -/
theorem items_queried {m m' : MemoryStore} (h : backend.Queried m m') : m'.items = m.items :=
  congrArg (·.1) (contents_queried h)

/-- Asking for items changes no reference records. -/
theorem records_queried {m m' : MemoryStore} (h : backend.Queried m m') : m'.records = m.records :=
  congrArg (·.2.1) (contents_queried h)

/-- A batch that is accepted is applied. -/
theorem eq_applied_of_store {set : ChangeSet} {m m' : MemoryStore} (h : backend.store set m = .ok () m') :
    m' = m.applied set := by
  rw [store_eq] at h
  split at h
  · cases h
  · rw [apply_eq] at h
    cases hm : m.missing? set with
    | some id => rw [hm] at h; cases h
    | none => rw [hm] at h; cases h; rfl

/-- What a batch makes of the items: those it writes are there as existing, those it deletes are
gone, and all others are as they were. -/
theorem get?_items_applied {set : ChangeSet} (hnodup : (set.written.map ItemState.id).Nodup)
    (m : MemoryStore) :
    (∀ s ∈ set.written, s.id ∉ set.deleted →
      (m.applied set).items.get? s.id = some (s.withStatus .existing)) ∧
    (∀ id ∈ set.deleted, (m.applied set).items.get? id = none) ∧
    (∀ id, id ∉ set.written.map ItemState.id → id ∉ set.deleted →
      (m.applied set).items.get? id = m.items.get? id) := by
  obtain ⟨hin, hout⟩ := OrderedMap.look_foldl OrderedMap.get?
    (fun s : ItemState => some (s.withStatus .existing))
    (fun m s k => OrderedMap.get?_insert m s.id (s.withStatus .existing) k) hnodup m.items
  have hget : ∀ id, (m.applied set).items.get? id = if id ∈ set.deleted then none else
      (set.written.foldl (fun items s => items.insert s.id (s.withStatus .existing))
        m.items).get? id := fun id => OrderedMap.get?_foldl_erase _ _ _
  refine ⟨fun s hs hd => ?_, fun id hd => ?_, fun id hw hd => ?_⟩
  · rw [hget, if_neg hd]
    exact hin s hs
  · rw [hget, if_pos hd]
  · rw [hget, if_neg hd]
    exact hout id hw

/-- Storing a reference record decides what is under its node, and an empty one removes it. -/
theorem get?_putReferences (records : OrderedMap NodeId NodeReferences) (r : NodeReferences)
    (target : NodeId) : (putReferences records r).get? target =
      if target = r.target then if r.hasReferences then some r else none else records.get? target := by
  unfold putReferences
  split
  · exact OrderedMap.get?_insert _ _ _ _
  · exact OrderedMap.get?_erase _ _ _

/-- What a batch makes of the reference records: those that hold references are there, empty ones
are gone, and all others are as they were. -/
theorem get?_records_applied {set : ChangeSet}
    (hnodup : (set.references.map NodeReferences.target).Nodup) (m : MemoryStore) :
    (∀ r ∈ set.references, (m.applied set).records.get? r.target =
      if r.hasReferences then some r else none) ∧
    (∀ target, target ∉ set.references.map NodeReferences.target →
      (m.applied set).records.get? target = m.records.get? target) :=
  OrderedMap.look_foldl OrderedMap.get?
    (fun r : NodeReferences => if r.hasReferences then some r else none) get?_putReferences hnodup m.records

/-- A batch that is refused changes no item. -/
theorem items_of_store_error {set : ChangeSet} {m m' : MemoryStore} {e : Error}
    (h : backend.store set m = .error e m') : m'.items = m.items := by
  rw [store_eq] at h
  split at h
  · cases h
    rfl
  · rw [apply_eq] at h
    cases hm : m.missing? set with
    | some id =>
      rw [hm] at h
      cases h
      rfl
    | none =>
      rw [hm] at h
      cases h

/-- A batch that is refused changes no reference record. -/
theorem records_of_store_error {set : ChangeSet} {m m' : MemoryStore} {e : Error}
    (h : backend.store set m = .error e m') : m'.records = m.records := by
  rw [store_eq, apply_eq] at h
  split at h
  · cases h
    rfl
  · split at h <;> cases h
    rfl

/-! ## Items under their identities -/

/-- Every item stands under its own identity. -/
def Keyed (items : OrderedMap ItemId ItemState) : Prop :=
  ∀ id s, items.get? id = some s → s.id = id

/-- The empty memory keeps its items under their identities. -/
theorem keyed_empty : Keyed (∅ : MemoryStore).items := by
  intro id s h
  cases h

/-- Inserting an item under its identity keeps the memory keyed. -/
theorem Keyed.insert {items : OrderedMap ItemId ItemState} (h : Keyed items) (s : ItemState) :
    Keyed (items.insert s.id (s.withStatus .existing)) := by
  intro id s' hs'
  rw [OrderedMap.get?_insert] at hs'
  split at hs'
  · next hid =>
    cases hs'
    exact hid.symm
  · exact h id s' hs'

/-- Erasing an item keeps the memory keyed. -/
theorem Keyed.erase {items : OrderedMap ItemId ItemState} (h : Keyed items) (id : ItemId) :
    Keyed (items.erase id) := by
  intro k s hs
  rw [OrderedMap.get?_erase] at hs
  split at hs
  · cases hs
  · exact h k s hs

/-- Putting an item in keeps the memory keyed. -/
theorem Keyed.put {m : MemoryStore} (h : Keyed m.items) (s : ItemState) : Keyed (m.put s).items :=
  h.insert s

/-- The changes of a batch keep the memory keyed. -/
theorem Keyed.applied {m : MemoryStore} (h : Keyed m.items) (set : ChangeSet) :
    Keyed (m.applied set).items := by
  have hwritten := List.foldlRecOn set.written
    (fun items s => OrderedMap.insert items s.id (s.withStatus .existing)) (motive := Keyed) h
    fun _ hk s _ => Keyed.insert hk s
  exact List.foldlRecOn set.deleted OrderedMap.erase (motive := Keyed) hwritten
    fun _ hk id _ => Keyed.erase hk id

end MemoryStore

/-! ## Backends over a storage in memory -/

namespace Backend

variable {σ : Type} {b : Backend σ} {memory : σ → MemoryStore}

/-- A backend that keeps items in a memory. Any of its steps may fail at any time, and one that fails
leaves the items of the memory as they are. -/
structure OverMemory (b : Backend σ) (memory : σ → MemoryStore) : Prop where
  loaded : ∀ {id s state s'}, b.load id s = .ok state s' → (memory s).items.get? id = some state
  asked : ∀ {s s'}, b.Queried s s' → (memory s').items = (memory s).items
  stored : ∀ {set s s'}, b.store set s = .ok () s' →
    (memory s').items = ((memory s).applied set).items
  refused : ∀ {set s e s'}, b.store set s = .error e s' → (memory s').items = (memory s).items

/-- The memory is over itself. -/
theorem overMemory_memory : MemoryStore.backend.OverMemory id where
  loaded h := MemoryStore.get?_of_load_ok h
  asked h := MemoryStore.items_queried h
  stored h := congrArg MemoryStore.items (MemoryStore.eq_applied_of_store h)
  refused h := MemoryStore.items_of_store_error h

/-- A backend whose loads fail as a plan says, which knows the number of loads so far. -/
def unsteady (plan : Nat → ItemId → Option Error) (b : Backend σ) : Backend (σ × Nat) :=
  { b.focus Prod.fst fun t s => (s, t.2) with
    load := fun id t =>
      match plan t.2 id with
      | some e => .error e (t.1, t.2 + 1)
      | none => onPart Prod.fst (fun t s => (s, t.2 + 1)) (b.load id) t }

/-- Loading from an unsteady backend fails as planned, and else as the backend does. -/
theorem unsteady_load (plan : Nat → ItemId → Option Error) (b : Backend σ) (id : ItemId)
    (t : σ × Nat) : (b.unsteady plan).load id t =
      match plan t.2 id with
      | some e => .error e (t.1, t.2 + 1)
      | none => onPart Prod.fst (fun t s => (s, t.2 + 1)) (b.load id) t := rfl

/-- An unsteady backend over a memory is over the same memory. -/
theorem OverMemory.unsteady (h : b.OverMemory memory) (plan : Nat → ItemId → Option Error) :
    (b.unsteady plan).OverMemory fun t => memory t.1 where
  loaded {id t state t'} hload := by
    rw [unsteady_load] at hload
    cases hplan : plan t.2 id with
    | some e =>
      rw [hplan] at hload
      cases hload
    | none =>
      rw [hplan] at hload
      obtain ⟨s, hs, -⟩ := onPart_ok hload
      exact h.loaded hs
  asked hq := by
    refine Queried.preserves (f := fun t : σ × Nat => (memory t.1).items) (fun id t => ?_)
      (fun id t => ?_) (fun target t => ?_) (fun target t => ?_) hq
    · -- a planned failure does not reach the memory
      have hafter : (stateAfter ((b.unsteady plan).load id) t).1 = t.1 ∨
          (stateAfter ((b.unsteady plan).load id) t).1 = stateAfter (b.load id) t.1 := by
        rw [stateAfter, unsteady_load]
        cases plan t.2 id with
        | some e => exact Or.inl rfl
        | none =>
          refine Or.inr ?_
          exact congrArg Prod.fst (stateAfter_onPart Prod.fst (fun t s => (s, t.2 + 1)) _ t)
      rcases hafter with hafter | hafter
      · rw [hafter]
      · rw [hafter]
        exact h.asked ((Queried.refl t.1).load id)
    · rw [show stateAfter ((b.unsteady plan).contains id) t = _ from stateAfter_onPart _ _ _ _]
      exact h.asked ((Queried.refl t.1).contains id)
    · rw [show stateAfter ((b.unsteady plan).loadReferences target) t = _ from
        stateAfter_onPart _ _ _ _]
      exact h.asked ((Queried.refl t.1).loadReferences target)
    · rw [show stateAfter ((b.unsteady plan).containsReferences target) t = _ from
        stateAfter_onPart _ _ _ _]
      exact h.asked ((Queried.refl t.1).containsReferences target)
  stored {set t t'} hstore := by
    replace hstore : onPart Prod.fst (fun t s => (s, t.2)) (b.store set) t = .ok () t' := hstore
    obtain ⟨s, hs, rfl⟩ := onPart_ok hstore
    exact h.stored hs
  refused {set t e t'} hstore := by
    replace hstore : onPart Prod.fst (fun t s => (s, t.2)) (b.store set) t = .error e t' := hstore
    obtain ⟨s, hs, rfl⟩ := onPart_error hstore
    exact h.refused hs

end Backend

end ContentTree
