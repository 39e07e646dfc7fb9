import ContentTree.Proofs.Workspace.Pinning
import ContentTree.Proofs.Workspace.Presence

/-!
# Modification counts

A commit stores an item with the count that its instance had before, and counts the modification on the
instance only. So an instance that was modified is one ahead of what is stored, until it is modified
again; when it leaves the cache the item is loaded with the stored count and has fallen back by one.
Along a run the count of an item goes up by one with each commit that modifies the item, and down by one
with each step that loses an instance that was ahead, and never otherwise (`Since.counts`).
-/

namespace ContentTree

namespace Heap

/-- Every handle reads with the count it read with before. -/
def KeepsCounts (old new : Heap) : Prop :=
  ∀ h, (new.read h).modCount = (old.read h).modCount

instance : IsPreorder Heap KeepsCounts where
  refl _ _ := rfl
  trans _ _ _ hab hbc h := (hbc h).trans (hab h)

/-- A change that keeps the count of every state keeps all counts. -/
theorem keepsCounts_modify {f : ItemState → ItemState} (hf : ∀ s, (f s).modCount = s.modCount)
    (heap : Heap) (h : Handle) : KeepsCounts heap (heap.modify h f) := by
  intro k
  simp only [read, modify, Array.getD_eq_getD_getElem?, Array.getElem?_modify]
  split
  · cases heap.cells[k.index]? with
    | none => rfl
    | some s => exact hf s
  · rfl

/-- Writing data only keeps the counts. -/
theorem Overwritten.keepsCounts {written : List Handle} {old new : Heap}
    (h : Overwritten written old new) : KeepsCounts old new := fun k => by
  rw [h.copied k]
  rfl

end Heap

namespace Workspace

/-- Undoing a commit counts nothing. -/
theorem keepsCounts_rollBack {σ : Type} (w : Workspace σ) (shared : ChangeLog Handle) :
    w.heap.KeepsCounts (w.rollBack shared).heap := by
  have hfold : ∀ (step : Workspace σ → Handle → Workspace σ),
      (∀ w h, Heap.KeepsCounts w.heap (step w h).heap) → ∀ (hs : List Handle) (w : Workspace σ),
      w.heap.KeepsCounts (hs.foldl step w).heap := fun step hstep hs w =>
    List.foldlRecOn hs step (motive := fun v => w.heap.KeepsCounts v.heap)
      (refl_of Heap.KeepsCounts _) fun v hv h _ => trans_of Heap.KeepsCounts hv (hstep v h)
  have hdiscard : ∀ (w : Workspace σ) h, w.heap.KeepsCounts (w.discard h).heap :=
    fun w h => Heap.keepsCounts_modify (f := (·.withStatus .discarded)) (fun _ => rfl) w.heap h
  have hrestore : ∀ (w : Workspace σ) h, w.heap.KeepsCounts (w.restore h).heap := by
    intro w h
    rw [restore_eq]
    cases w.backend.load h.id w.storage with
    | ok s t => exact Heap.keepsCounts_modify (f := (·.copyFrom s)) (fun _ => rfl) w.heap h
    | error e t => exact hdiscard { w with storage := t } h
  exact trans_of Heap.KeepsCounts (hfold restore hrestore _ w) (hfold discard hdiscard _ _)

variable {τ : Type} {id : ItemId} {w w' : Workspace MemoryStore} {held : List Handle}
  {sink : Sink MemoryStore τ} {log : ChangeLog LocalItem} {t : τ}

/-! ## Counts -/

/-- The count that an item is stored with. -/
def storedCount (w : Workspace MemoryStore) (id : ItemId) : Nat :=
  ((w.storage.items.get? id).map ItemState.modCount).getD 0

/-- The count that an item reads with: that of its cached instance, or the one it is stored with. -/
def servedCount (w : Workspace MemoryStore) (id : ItemId) : Nat :=
  match w.cache.peek? id with
  | some h => (w.heap.read h).modCount
  | none => w.storedCount id

/-- Between `w` and `w'` the cached instance of an item got lost, which was ahead of what is stored. -/
def Loses (id : ItemId) (w w' : Workspace MemoryStore) : Prop :=
  w.storedCount id < w.servedCount id ∧ w'.cache.peek? id ≠ w.cache.peek? id

instance (id : ItemId) (w w' : Workspace MemoryStore) : Decidable (Loses id w w') :=
  inferInstanceAs (Decidable (_ ∧ _))

/-- The count of an item as a client reads it. -/
def readCount (held : List Handle) (id : ItemId) (w : Workspace MemoryStore) : Option Nat :=
  ((readItem (getItemState held) id).run' w).map ItemState.modCount

/-- How often an instance of an item that was ahead got lost in one step. -/
def losses (id : ItemId) (w w' : Workspace MemoryStore) : Nat :=
  if Loses id w w' then 1 else 0

/-- How often a commit modified an item. -/
def modifications (id : ItemId) (log : ChangeLog LocalItem) (out : Outcome MemoryStore τ) : Nat :=
  if out.result.toBool && log.isModified id then 1 else 0

/-! ## Between two steps -/

/-- What is known of a workspace between two steps, apart from what it has cached of an item. -/
structure Standing (id : ItemId) (w : Workspace MemoryStore) : Prop where
  ready : w.Ready MemoryStore.backend
  overlays : w.overlays = []
  keyed : MemoryStore.Keyed w.storage.items
  rootValid : w.heap.Valid w.root
  pinned : w.root.id = id → Pinned MemoryStore.backend w

/-- What is known of an item between two steps: its cached instance is as far as what is stored, or one
ahead. -/
structure Counted (id : ItemId) (w : Workspace MemoryStore) : Prop extends Standing id w where
  cached : ∀ {h}, w.cache.peek? id = some h → h.id = id ∧ ∃ s, w.storage.items.get? id = some s ∧
    ((w.heap.read h).modCount = s.modCount ∨ (w.heap.read h).modCount = s.modCount + 1)

/-- What a step leaves of an item that does not modify it: its instance if it stays cached, or a later
one with the count that is stored. -/
structure Carried (id : ItemId) (w w' : Workspace MemoryStore) : Prop where
  keepsIds : w.heap.KeepsIds w'.heap
  stored : w'.storage.items.get? id = w.storage.items.get? id
  entry : ∀ {h}, w'.cache.peek? id = some h →
    (w.cache.peek? id = some h ∧ (w'.heap.read h).modCount = (w.heap.read h).modCount) ∨
      (¬w.heap.Valid h ∧ h.id = id ∧ ∃ s, w.storage.items.get? id = some s ∧
        (w'.heap.read h).modCount = s.modCount)

/-- What is carried through two steps is carried through both. -/
theorem Carried.trans {u v w : Workspace MemoryStore} (huv : Carried id u v) (hvw : Carried id v w) :
    Carried id u w where
  keepsIds := trans_of Heap.KeepsIds huv.keepsIds hvw.keepsIds
  stored := hvw.stored.trans huv.stored
  entry hh := by
    rcases hvw.entry hh with ⟨hmid, hcount⟩ | ⟨hfresh, hid, s, hs, hcount⟩
    · rcases huv.entry hmid with ⟨hold, hcount'⟩ | ⟨hfresh, hid, s, hs, hcount'⟩
      · exact Or.inl ⟨hold, hcount.trans hcount'⟩
      · exact Or.inr ⟨hfresh, hid, s, hs, hcount.trans hcount'⟩
    · exact Or.inr ⟨fun hv => hfresh (huv.keepsIds _ hv), hid, s, huv.stored ▸ hs, hcount⟩

/-- Reading modifies nothing, and loads what is stored. -/
theorem LookedAt.carried (hback : w.backend = MemoryStore.backend) (hsound : w.Sound)
    (hkeyed : MemoryStore.Keyed w.storage.items) (h : w.LookedAt held w') : Carried id w w' where
  keepsIds := h.heap.keepsIds
  stored := by rw [(h.memory hback).1]
  entry hk := by
    rcases h.entry hk with hold | hnew
    · exact Or.inl ⟨hold, by rw [h.heap.read (hsound.cached hold)]⟩
    · obtain ⟨m, s, m', hasked, hload, hread⟩ := hnew.content
      rw [hback] at hasked hload
      have hget : m.items.get? id = some s := Backend.overMemory_memory.loaded hload
      rw [MemoryStore.items_queried hasked] at hget
      refine Or.inr ⟨fun hv => Nat.not_le_of_lt hv.index_lt hnew.fresh, ?_, s, hget, by rw [hread]; rfl⟩
      rw [← hnew.valid.read_id, hread]
      exact hkeyed id s hget

namespace Counted

/-- The count served is that of the cached instance, as far as the stored one or one ahead of it. -/
theorem storedCount_eq (hw : Counted id w) {h : Handle} (hh : w.cache.peek? id = some h) :
    w.servedCount id = (w.heap.read h).modCount ∧
      (w.servedCount id = w.storedCount id ∨ w.servedCount id = w.storedCount id + 1) := by
  obtain ⟨-, s, hs, hcount⟩ := hw.cached hh
  have hserved : w.servedCount id = (w.heap.read h).modCount := by rw [servedCount, hh]
  refine ⟨hserved, ?_⟩
  rw [hserved, storedCount, hs]
  exact hcount

/-- The count that is read is never behind the one that is stored, nor more than one ahead. -/
theorem served_le (hw : Counted id w) :
    w.storedCount id ≤ w.servedCount id ∧ w.servedCount id ≤ w.storedCount id + 1 := by
  cases hc : w.cache.peek? id with
  | none =>
    rw [servedCount, hc]
    exact ⟨Nat.le_refl _, Nat.le_succ _⟩
  | some h => rcases (hw.storedCount_eq hc).2 with heq | heq <;> omega

/-- A step that does not modify the item changes its count only if it loses an instance that was
ahead. -/
theorem carry (hw : Counted id w) (h : Carried id w w') :
    w'.storedCount id = w.storedCount id ∧
      w'.servedCount id + losses id w w' = w.servedCount id := by
  have hstored : w'.storedCount id = w.storedCount id := by rw [storedCount, h.stored, storedCount]
  refine ⟨hstored, ?_⟩
  -- what a cached instance that came in reads with is what is stored
  have hback : w'.cache.peek? id ≠ w.cache.peek? id → w'.servedCount id = w.storedCount id := by
    intro hne
    cases hc : w'.cache.peek? id with
    | none =>
      rw [servedCount, hc]
      exact hstored
    | some k =>
      rcases h.entry hc with ⟨hold, -⟩ | ⟨-, -, s, hs, hcount⟩
      · exact absurd (hc.trans hold.symm) hne
      · rw [← hstored, servedCount, hc, hstored, storedCount, hs]
        exact hcount
  by_cases hsame : w'.cache.peek? id = w.cache.peek? id
  · rw [losses, if_neg fun hloses => hloses.2 hsame, Nat.add_zero]
    cases hc : w.cache.peek? id with
    | none =>
      rw [servedCount, hsame, hc, servedCount, hc]
      exact hstored
    | some k =>
      rw [servedCount, hsame, hc, servedCount, hc]
      rcases h.entry (hsame.trans hc) with ⟨-, hcount⟩ | ⟨hfresh, -⟩
      · exact hcount
      · exact absurd (hw.ready.sound.cached hc) hfresh
  · rw [hback hsame, losses]
    have hle := hw.served_le
    by_cases hahead : w.storedCount id < w.servedCount id
    · rw [if_pos ⟨hahead, hsame⟩]
      omega
    · rw [if_neg fun hloses => hahead hloses.1]
      omega

/-- What is cached after a step that does not modify the item is still as far as what is stored, or
one ahead. -/
theorem cached_of_carried (hw : Counted id w) (h : Carried id w w') {k : Handle}
    (hk : w'.cache.peek? id = some k) : k.id = id ∧ ∃ s, w'.storage.items.get? id = some s ∧
      ((w'.heap.read k).modCount = s.modCount ∨ (w'.heap.read k).modCount = s.modCount + 1) := by
  rw [h.stored]
  rcases h.entry hk with ⟨hold, hcount⟩ | ⟨-, hid, s, hs, hcount⟩
  · rw [hcount]
    exact hw.cached hold
  · exact ⟨hid, s, hs, Or.inl hcount⟩

/-! ## Commits -/

/-- A commit under the lock has only read until data is pushed. -/
theorem carried_connecting (hw : Counted id w) {records : List NodeReferences}
    {c : Commit MemoryStore τ} {done : List (ChangeLog.Class × ItemId)}
    (hc : Commit.Connecting (begin w t held log records) done c) : Carried id w c.workspace := by
  have hlook : LookedAt held { w with locked := true } c.workspace := hc.looked
  have hread : Carried id { w with locked := true } c.workspace :=
    hlook.carried hw.ready.backend ⟨hw.ready.sound.cached, hw.ready.sound.provided⟩ hw.keyed
  exact ⟨hread.keepsIds, hread.stored, hread.entry⟩

/-- A commit that is abandoned modifies nothing. -/
theorem abandon (hw : Counted id w) {records : List NodeReferences} {c : Commit MemoryStore τ}
    (hc : Commit.Stopped (begin w t held log records) c) (e : Error) :
    Carried id w (Workspace.abandon e c).workspace := by
  have hunder := hc.underway hw.ready.sound_begin
  have hundo := concerns_rollBack c.workspace c.shared
  have hcounts := keepsCounts_rollBack c.workspace c.shared
  refine ⟨fun h hv => (hundo.valid h).2 (hunder.keepsIds h hv),
    by rw [(memory_of_abandon hw.ready hc e).1], fun {h} hh => ?_⟩
  obtain ⟨done, before, heap, storage, hbefore, hheap, -, rfl⟩ := hc
  -- pushing data and undoing it count nothing
  have hcount : (((before.withData heap storage).workspace.rollBack before.shared).heap.read
      h).modCount = (before.workspace.heap.read h).modCount :=
    (hcounts h).trans (hheap.keepsCounts h)
  rcases (hw.carried_connecting hbefore).entry (hundo.cached hh) with
    ⟨hold, hcount'⟩ | ⟨hfresh, hid, s, hs, hcount'⟩
  · exact Or.inl ⟨hold, hcount.trans hcount'⟩
  · exact Or.inr ⟨hfresh, hid, s, hs, hcount.trans hcount'⟩

/-- What a commit whose batch was stored has in its cache and on its instances. -/
theorem stored_entry (hw : Counted id w) {records : List NodeReferences} {c : Commit MemoryStore τ}
    (hc : Commit.Stored (begin w t held log records) c) {h : Handle}
    (hh : c.workspace.cache.peek? id = some h) :
    (w.cache.peek? id = some h ∧ (c.workspace.heap.read h).modCount = (w.heap.read h).modCount) ∨
      (¬w.heap.Valid h ∧ h.id = id ∧ ∃ s, w.storage.items.get? id = some s ∧
        (c.workspace.heap.read h).modCount = s.modCount) := by
  obtain ⟨before, heap, storage, hbefore, hpush, -, rfl⟩ := hc
  have hheap := ChangeLog.overwritten_push before.log before.workspace.heap
  rw [stateAfter_of_ok hpush] at hheap
  have hcount : (heap.read h).modCount = (before.workspace.heap.read h).modCount :=
    hheap.keepsCounts h
  show _ ∧ (heap.read h).modCount = _ ∨ _ ∧ _ ∧ ∃ s, _ ∧ (heap.read h).modCount = _
  rw [hcount]
  exact (hw.carried_connecting hbefore).entry hh

/-- A commit that is settled modifies nothing but what its log says. -/
theorem settle_unnamed (hw : Counted id w) {records : List NodeReferences} {c : Commit MemoryStore τ}
    (hc : Commit.Stored (begin w t held log records) c) (hid : id ∉ log.scope)
    (virtual : List NodeReferences) :
    Carried id w { (c.workspace.persisted c.shared).deliver virtual with locked := false } := by
  have hunder := hc.underway hw.ready.sound_begin
  have hsub : (begin w t held log records).workspace.subtrees = [] := subtrees_eq_nil hw.overlays
  have hkeys : ∀ cls, id ∉ (c.shared.itemsOf cls).keys := fun cls hkey =>
    hid (ChangeLog.mem_scope.2 ⟨cls, hc.mem_keys_shared.1 hkey⟩)
  have hscope : id ∉ c.shared.scope := by
    intro h
    obtain ⟨cls, hcls⟩ := ChangeLog.mem_scope.1 h
    exact hkeys cls hcls
  obtain ⟨m, hitems, -, happlied⟩ := applied_of_stored hw.ready hc
  obtain ⟨-, -, hcache⟩ := peek?_settledCache hunder.wellFormed (hunder.deleted_eq hsub)
  refine ⟨fun h hv => ?_, ?_, fun {h} hh => ?_⟩
  · show (c.workspace.persisted c.shared).heap.Valid h
    rw [valid_persisted]
    exact hunder.keepsIds h hv
  · show (c.workspace.persisted c.shared).storage.items.get? id = _
    rw [storage_persisted, happlied, (get?_items_changeSet hunder.wellFormed hunder.valid_states m).2
      id hscope, hitems]
  · replace hh : (c.workspace.persisted c.shared).cache.peek? id = some h := hh
    rw [cache_persisted, hcache id (hkeys .added) (hkeys .deleted)] at hh
    have hentry := hw.stored_entry hc hh
    have hid' : h.id = id := hentry.elim (fun hold => (hw.cached hold.1).1) fun hnew => hnew.2.1
    -- an instance that the commit came to stands under an identity of the log
    have hnot : h ∉ c.shared.states := by
      intro hmem
      obtain ⟨cls, hcls⟩ := ChangeLog.mem_states.1 hmem
      have hkey : h.id ∈ (c.shared.itemsOf cls).keys := hunder.wellFormed.mem_keys hcls
      exact hkeys cls (hid' ▸ hkey)
    have hread : (c.workspace.persisted c.shared).heap.read h = c.workspace.heap.read h := by
      rw [heap_persisted]
      exact (read_settledHeap hunder.valid_states hunder.nodup_states (hunder.sound.cached hh)).2 hnot
    show _ ∧ ((c.workspace.persisted c.shared).heap.read h).modCount = _ ∨
      _ ∧ _ ∧ ∃ s, _ ∧ ((c.workspace.persisted c.shared).heap.read h).modCount = _
    rw [hread]
    exact hentry

end Counted

/-- What a commit leaves of an item that it modified: an instance that is one ahead of what is stored,
where what is stored is the count that the instance had before, or that it was loaded with. -/
structure Raised (id : ItemId) (w w' : Workspace MemoryStore) (h : Handle) : Prop where
  cached : w'.cache.peek? id = some h
  id_eq : h.id = id
  valid : w'.heap.Valid h
  found : (w.storage.items.get? id).isSome = true
  stored : ∃ s, w'.storage.items.get? id = some s ∧ (w'.heap.read h).modCount = s.modCount + 1 ∧
    ((w.cache.peek? id = some h ∧ s.modCount = (w.heap.read h).modCount) ∨
      (¬w.heap.Valid h ∧ s.modCount = w.storedCount id))

/-- A raised item stays raised while the workspace is looked at and its instance is held. -/
theorem Raised.look {u : Workspace MemoryStore} {h : Handle} (hw : Raised id w w' h)
    (hback : w'.backend = MemoryStore.backend) (hlook : w'.LookedAt held u) (hheld : h ∈ held) :
    Raised id w u h where
  cached := hlook.kept hw.cached hheld
  id_eq := hw.id_eq
  valid := hlook.heap.valid hw.valid
  found := hw.found
  stored := by
    rw [hlook.heap.read hw.valid, (hlook.memory hback).1]
    exact hw.stored

namespace Counted

/-- A commit that is settled counts the modification on the instance, not on what is stored. -/
theorem settle_modified (hw : Counted id w) {records : List NodeReferences}
    {c : Commit MemoryStore τ} (hc : Commit.Stored (begin w t held log records) c)
    (hid : log.isModified id = true) (virtual : List NodeReferences) :
    ∃ h ∈ c.shared.states,
      Raised id w { (c.workspace.persisted c.shared).deliver virtual with locked := false } h := by
  have hunder := hc.underway hw.ready.sound_begin
  have hsub : (begin w t held log records).workspace.subtrees = [] := subtrees_eq_nil hw.overlays
  have hkey : id ∈ (c.shared.itemsOf .modified).keys :=
    hc.mem_keys_shared.2 (ChangeLog.isModified_eq_true.1 hid)
  obtain ⟨h, hh, rfl⟩ := hunder.wellFormed.exists_of_mem_keys .modified hkey
  have hmem : h ∈ c.shared.states := ChangeLog.mem_states.2 ⟨.modified, hh⟩
  have hcached : c.workspace.cache.peek? h.id = some h := hunder.cached hsub (by decide) hh
  have hread : (c.workspace.persisted c.shared).heap.read h =
      settledState .modified (c.workspace.heap.read h) := by
    rw [heap_persisted]
    exact (read_settledHeap hunder.valid_states hunder.nodup_states (hunder.valid hh)).1 .modified hh
  have hlive : (c.workspace.persisted c.shared).Live h := by
    rw [Live, hread]
    rfl
  obtain ⟨m, -, -, happlied⟩ := applied_of_stored hw.ready hc
  have hget := (get?_items_changeSet hunder.wellFormed hunder.valid_states m).1 .modified h hh
  rw [if_neg (by decide)] at hget
  -- the instance was cached before, or loaded by the commit
  have hentry := hw.stored_entry hc hcached
  refine ⟨h, hmem,
    { cached := peek?_settle_of_mem hunder hsub hmem hlive
      id_eq := rfl
      valid := ?_
      found := ?_
      stored := ⟨(c.workspace.heap.read h).withStatus .existing, ?_, ?_, ?_⟩ }⟩
  · show (c.workspace.persisted c.shared).heap.Valid h
    rw [valid_persisted]
    exact hunder.valid hh
  · rcases hentry with ⟨hold, -⟩ | ⟨-, -, s, hs, -⟩
    · obtain ⟨-, s, hs, -⟩ := hw.cached hold
      exact Option.isSome_iff_exists.2 ⟨s, hs⟩
    · exact Option.isSome_iff_exists.2 ⟨s, hs⟩
  · show (c.workspace.persisted c.shared).storage.items.get? h.id = _
    rw [storage_persisted, happlied]
    exact hget
  · show ((c.workspace.persisted c.shared).heap.read h).modCount = _
    rw [hread]
    rfl
  · rcases hentry with ⟨hold, hcount⟩ | ⟨hfresh, -, s, hs, hcount⟩
    · exact Or.inl ⟨hold, hcount⟩
    · refine Or.inr ⟨hfresh, ?_⟩
      rw [storedCount, hs]
      exact hcount

end Counted

/-! ## Steps -/

/-- What a step makes of the count of an item that it modifies `m` times. -/
structure Advanced (id : ItemId) (w w' : Workspace MemoryStore) (m : Nat) : Prop where
  counted : Counted id w'
  found : (w'.storage.items.get? id).isSome = (w.storage.items.get? id).isSome
  storedCount_le : w.storedCount id ≤ w'.storedCount id
  count : w'.servedCount id + losses id w w' = w.servedCount id + m

namespace Counted

/-- A step that carries an item advances its count by nothing. -/
theorem advanced_of_carried (hw : Counted id w) (h : Carried id w w') (hw' : Standing id w') :
    Advanced id w w' 0 where
  counted := { hw' with cached := hw.cached_of_carried h }
  found := by rw [h.stored]
  storedCount_le := Nat.le_of_eq (hw.carry h).1.symm
  count := (hw.carry h).2

/-- A step that raises an item advances its count by one. -/
theorem advanced_of_raised (hw : Counted id w) {h : Handle} (hr : Raised id w w' h)
    (hw' : Standing id w') : Advanced id w w' 1 := by
  obtain ⟨s, hs, hcount, hbefore⟩ := hr.stored
  have hstored : w'.storedCount id = s.modCount := by rw [storedCount, hs]; rfl
  have hserved : w'.servedCount id = s.modCount + 1 := by rw [servedCount, hr.cached, ← hcount]
  have hle := hw.served_le
  refine
    { counted := { hw' with cached := fun {k} hk => ?_ }
      found := by rw [hs, hr.found]; rfl
      storedCount_le := ?_
      count := ?_ }
  · rw [hr.cached] at hk
    cases hk
    exact ⟨hr.id_eq, s, hs, Or.inr hcount⟩
  · rw [hstored]
    rcases hbefore with ⟨hold, heq⟩ | ⟨-, heq⟩
    · have hserved' := (hw.storedCount_eq hold).1
      omega
    · omega
  · rw [hserved]
    rcases hbefore with ⟨hold, heq⟩ | ⟨hfresh, heq⟩
    · -- the cached instance was modified
      have hserved' := (hw.storedCount_eq hold).1
      rw [losses, if_neg fun hloses => hloses.2 (hr.cached.trans hold.symm)]
      omega
    · -- another instance was loaded in the commit, and was modified
      have hne : w'.cache.peek? id ≠ w.cache.peek? id := fun hsame =>
        hfresh (hw.ready.sound.cached (hsame.symm.trans hr.cached))
      by_cases hahead : w.storedCount id < w.servedCount id
      · rw [losses, if_pos ⟨hahead, hne⟩]
        omega
      · rw [losses, if_neg fun hloses => hahead hloses.1]
        omega

/-- Looking at the workspace advances no count. -/
theorem look (hw : Counted id w) (h : w.Rooted held w') : Advanced id w w' 0 :=
  hw.advanced_of_carried (h.lookedAt.carried hw.ready.backend hw.ready.sound hw.keyed)
    { ready := hw.ready.look h.lookedAt
      overlays := h.lookedAt.overlays.trans hw.overlays
      keyed := (h.lookedAt.memory hw.ready.backend).1 ▸ hw.keyed
      rootValid := h.lookedAt.root ▸ h.lookedAt.heap.valid hw.rootValid
      pinned := fun hroot => (hw.pinned (h.lookedAt.root ▸ hroot)).look h }

/-- What is stored stands under its identity when a batch is settled. -/
theorem keyed_settle (hw : Standing id w) {records : List NodeReferences} {c : Commit MemoryStore τ}
    (hc : Commit.Stored (begin w t held log records) c) (virtual : List NodeReferences) :
    MemoryStore.Keyed ((c.workspace.persisted c.shared).deliver virtual).storage.items := by
  obtain ⟨m, hitems, -, happlied⟩ := applied_of_stored hw.ready hc
  show MemoryStore.Keyed (c.workspace.persisted c.shared).storage.items
  rw [storage_persisted, happlied]
  exact MemoryStore.Keyed.applied (hitems ▸ hw.keyed) _

/-- A commit that succeeds raises the count of an item that it modifies. -/
theorem carried_or_raised (hw : Counted id w) (hsink : sink.OnlyReads) (hlog : log.Recorded)
    (hadded : log.isAdded id = false) (hdeleted : log.isDeleted id = false) (held : List Handle)
    (t : τ) :
    let out := Workspace.store sink held w t log
    (Carried id w out.workspace ∧ modifications id log out = 0) ∨
      ∃ h, Raised id w out.workspace h ∧ modifications id log out = 1 := by
  apply store_ends (motive := fun out => (Carried id w out.workspace ∧ modifications id log out = 0) ∨
    ∃ h, Raised id w out.workspace h ∧ modifications id log out = 1) hw.ready hsink hlog
  · intro e w' hlook
    exact Or.inl ⟨(hlook []).carried hw.ready.backend hw.ready.sound hw.keyed, rfl⟩
  · intro records e c hc
    exact Or.inl ⟨hw.abandon hc e, rfl⟩
  · intro records virtual c hc
    have hsettled := hw.ready.settle (hc.underway hw.ready.sound_begin) virtual
    have hdispatch := lookedAt_conclude hsink virtual c
    cases hmodified : log.isModified id with
    | true =>
      obtain ⟨h, hmem, hraised⟩ := hw.settle_modified hc hmodified virtual
      have hheld : h ∈ c.held ++ (conclude sink virtual c).log.connections :=
        List.mem_append_right _ ((hc.mem_connections_settle _).2 hmem)
      refine Or.inr ⟨h, hraised.look hsettled.backend hdispatch hheld, ?_⟩
      rw [modifications, hmodified]
      rfl
    | false =>
      have hid : id ∉ log.scope := by
        intro hmem
        obtain ⟨cls, hcls⟩ := ChangeLog.mem_scope.1 hmem
        cases cls with
        | added => exact absurd (ChangeLog.isAdded_eq_true.2 hcls) (Bool.eq_false_iff.1 hadded)
        | modified => exact absurd (ChangeLog.isModified_eq_true.2 hcls) (Bool.eq_false_iff.1 hmodified)
        | deleted => exact absurd (ChangeLog.isDeleted_eq_true.2 hcls) (Bool.eq_false_iff.1 hdeleted)
      -- an item that the log does not name is carried through
      have hcarried := hw.settle_unnamed hc hid virtual
      have hkeyed := keyed_settle hw.toStanding hc virtual
      refine Or.inl ⟨hcarried.trans (hdispatch.carried hsettled.backend hsettled.sound hkeyed), ?_⟩
      rw [modifications, hmodified, Bool.and_false]
      rfl

/-- What is stored stands under its identity after a commit. -/
theorem keyed_store (hw : Standing id w) (hsink : sink.OnlyReads) (hlog : log.Recorded) :
    MemoryStore.Keyed (Workspace.store sink held w t log).workspace.storage.items := by
  apply store_ends (motive := fun out => MemoryStore.Keyed out.workspace.storage.items) hw.ready
    hsink hlog
  · intro e w' hlook
    show MemoryStore.Keyed w'.storage.items
    rw [((hlook []).memory hw.ready.backend).1]
    exact hw.keyed
  · intro records e c hc
    rw [(memory_of_abandon hw.ready hc e).1]
    exact hw.keyed
  · intro records virtual c hc
    have hsettled := hw.ready.settle (hc.underway hw.ready.sound_begin) virtual
    rw [((lookedAt_conclude hsink virtual c).memory hsettled.backend).1]
    exact keyed_settle hw hc virtual

/-- A commit advances the count of an item that it neither adds nor deletes by its modifications. -/
theorem store (hw : Counted id w) (hsink : sink.SparesRoot) (hlog : log.Recorded)
    (hadded : log.isAdded id = false) (hdeleted : log.isDeleted id = false) (held : List Handle)
    (t : τ) :
    let out := Workspace.store sink held w t log
    Advanced id w out.workspace (modifications id log out) := by
  intro out
  have hstanding : Standing id out.workspace :=
    { ready := hw.ready.store hsink.onlyReads hlog held t
      overlays := (overlays_store hw.ready hsink.onlyReads hlog t).trans hw.overlays
      keyed := keyed_store hw.toStanding hsink.onlyReads hlog
      rootValid := by
        rw [root_store hw.ready hsink.onlyReads hlog t]
        exact keepsIds_store hw.ready hsink.onlyReads hlog t _ hw.rootValid
      pinned := fun hroot => by
        rw [root_store hw.ready hsink.onlyReads hlog t] at hroot
        have hpinned := hw.pinned hroot
        have hid : .node w.rootId = id := hpinned.id_root.symm.trans hroot
        obtain ⟨-, s, hs, -⟩ := hw.cached (hroot ▸ hpinned.cached)
        refine hpinned.store hsink hlog ⟨hid ▸ hadded, hid ▸ hdeleted⟩
          (not_forsakes_of_stored hw.ready hsink.onlyReads hlog ?_)
        rw [hroot, OrderedMap.contains_eq_isSome, hs]
        rfl }
  rcases hw.carried_or_raised hsink.onlyReads hlog hadded hdeleted held t with
    ⟨hcarried, hm⟩ | ⟨h, hraised, hm⟩
  · rw [hm]
    exact hw.advanced_of_carried hcarried hstanding
  · rw [hm]
    exact hw.advanced_of_raised hraised hstanding

/-- Disposing drops every instance but that of the root, which was cached if it is the item's. -/
theorem dispose (hw : Counted id w) : Advanced id w w.dispose 0 := by
  have hpeek : ∀ k, w.dispose.cache.peek? k = if k = w.root.id then some w.root else none :=
    fun k => Cache.peek?_put _ _ _
  have hcached : ∀ {k h}, w.dispose.cache.peek? k = some h → k = w.root.id ∧ h = w.root := by
    intro k h hh
    rw [hpeek] at hh
    split at hh
    · next hk =>
      cases hh
      exact ⟨hk, rfl⟩
    · cases hh
  refine hw.advanced_of_carried ⟨refl_of Heap.KeepsIds _, rfl, fun {h} hh => ?_⟩
    { ready := ⟨⟨fun {k h} hh => ?_, hw.ready.sound.provided⟩, hw.ready.unlocked, hw.ready.backend⟩
      overlays := hw.overlays
      keyed := hw.keyed
      rootValid := hw.rootValid
      pinned := fun hroot => (hw.pinned hroot).dispose }
  · obtain ⟨hid, rfl⟩ := hcached hh
    exact Or.inl ⟨hid ▸ (hw.pinned hid.symm).cached, rfl⟩
  · obtain ⟨-, rfl⟩ := hcached hh
    exact hw.rootValid

/-- What fails next, and who is told of transitions, does not concern counts. -/
theorem switch (hw : Counted id w) {storage : MemoryStore} (notifier : Notifier)
    (hitems : storage.items = w.storage.items) :
    Advanced id w { w with storage, notifier } 0 :=
  hw.advanced_of_carried
    ⟨refl_of Heap.KeepsIds _, congrArg (·.get? id) hitems, fun hh => Or.inl ⟨hh, rfl⟩⟩
    { ready := ⟨⟨hw.ready.sound.cached, hw.ready.sound.provided⟩, hw.ready.unlocked, hw.ready.backend⟩
      overlays := hw.overlays
      keyed := hitems ▸ hw.keyed
      rootValid := hw.rootValid
      pinned := fun hroot => (hw.pinned hroot).switch storage notifier }

end Counted

/-! ## Opening -/

section Opening

variable {config : Config} {registry : Registry} {s s' : Shared MemoryStore}

/-- A workspace that was opened over a keyed memory is standing. -/
theorem Standing.openOver (hs : SharedSound s) (hkeyed : MemoryStore.Keyed s.storage.items)
    (h : openOver config MemoryStore.backend registry s = .ok w s') : Standing id w := by
  have htied := Tied.openOver MemoryStore.truthful_backend hs hkeyed h
  exact
    { ready := htied.ready
      overlays := htied.overlays
      keyed := htied.storage
      rootValid := htied.valid _ (List.mem_singleton.2 rfl)
      pinned := fun _ => Pinned.openOver MemoryStore.truthful_backend hs hkeyed h }

/-- Opening a workspace keeps the identities of the instances. -/
theorem keepsIds_openOver (h : openOver config MemoryStore.backend registry s = .ok w s') :
    s.heap.KeepsIds w.heap := by
  obtain ⟨asked, -, ⟨root, m, -, rfl⟩ | ⟨node, property, m, -, -, rfl⟩⟩ := openOver_ok h
  · exact (Heap.grows_alloc _ _).keepsIds
  · intro k hv
    rw [valid_persisted]
    exact (Heap.grows_alloc _ _).valid ((Heap.grows_alloc _ _).valid hv)

/-- What a workspace has in its cache when it was opened was made for it, with the count that is
stored. -/
theorem entry_openOver (hs : SharedSound s) (hkeyed : MemoryStore.Keyed s.storage.items)
    (h : openOver config MemoryStore.backend registry s = .ok w s') {k : Handle}
    (hk : w.cache.peek? id = some k) :
    ¬s.heap.Valid k ∧ k.id = id ∧ ∃ state, w.storage.items.get? id = some state ∧
      (w.heap.read k).modCount = state.modCount := by
  have hid : k.id = id := (Tied.openOver MemoryStore.truthful_backend hs hkeyed h).keyed id k hk
  have hstale : s.heap.cells.size ≤ k.index → ¬s.heap.Valid k := fun hfresh hv =>
    Nat.not_le_of_lt hv.index_lt hfresh
  obtain ⟨asked, -, ⟨root, m, hload, rfl⟩ | ⟨node, property, m, -, hstore, rfl⟩⟩ := openOver_ok h
  · obtain ⟨rfl, rfl⟩ := peek?_aroundLoaded hk
    have hget : asked.items.get? (.node config.rootNode) = some root :=
      Backend.overMemory_memory.loaded hload
    -- loading asks the memory and changes no item
    have hitems : m.items = asked.items := by
      have hnext := (Backend.Queried.refl (b := MemoryStore.backend) asked).load (.node config.rootNode)
      rw [stateAfter_of_ok hload] at hnext
      exact MemoryStore.items_queried hnext
    refine ⟨hstale (Nat.le_refl _), hid, root, ?_, ?_⟩
    · show m.items.get? _ = _
      rw [hitems, hget]
    · show ((s.heap.alloc (root.withStatus .existing)).2.read _).modCount = _
      rw [Heap.read_alloc]
      rfl
  · have hwf := wellFormed_rootLog config s.heap node property
    have hvalid := valid_rootLog config s.heap node property
    -- only the two instances of the fresh root are cached
    have hadded : k ∈ (rootLog config s.heap node property).addedItems.values := by
      rw [cache_persisted] at hk
      exact (peek?_settledCache_le hk).resolve_left fun hold => by cases hold
    have hmem := ChangeLog.mem_states.2 ⟨.added, hadded⟩
    refine ⟨hstale (fresh_rootLog _ _ _ _ k hmem), hid,
      ((rootInstances s.heap node property).2.2.read k).withStatus .existing, ?_, ?_⟩
    · have hget := (get?_items_changeSet hwf hvalid asked).1 .added k hadded
      rw [if_neg (by decide), hid] at hget
      rw [storage_persisted]
      show m.items.get? id = _
      have hitems : m.items = _ := Backend.overMemory_memory.stored hstore
      rw [hitems]
      exact hget
    · have hnodup : (rootLog config s.heap node property).states.Nodup :=
        .of_map Tracked.itemId (hwf.map_itemId_states ▸ hwf.nodup_scope)
      have hread := (read_settledHeap hvalid hnodup (hvalid k hmem)).1 .added hadded
      rw [heap_persisted]
      exact congrArg ItemState.modCount hread

/-- In a workspace that was opened over a keyed memory every item is counted. -/
theorem Counted.openOver (hs : SharedSound s) (hkeyed : MemoryStore.Keyed s.storage.items)
    (h : openOver config MemoryStore.backend registry s = .ok w s') : Counted id w where
  toStanding := .openOver hs hkeyed h
  cached hk := by
    obtain ⟨-, hid, state, hstate, hcount⟩ := entry_openOver hs hkeyed h hk
    exact ⟨hid, state, hstate, Or.inl hcount⟩

/-- A workspace that is opened anew loads what is stored. -/
theorem Counted.openAnew (hw : Counted id w)
    (h : Workspace.openOver config MemoryStore.backend registry w.toShared = .ok w' s')
    (hkept : w'.storage.items.get? id = w.storage.items.get? id) : Advanced id w w' 0 := by
  refine hw.advanced_of_carried ⟨keepsIds_openOver h, hkept, fun hk => Or.inr ?_⟩
    (.openOver hw.ready.sound.provided hw.keyed h)
  obtain ⟨hfresh, hid, state, hstate, hcount⟩ :=
    entry_openOver hw.ready.sound.provided hw.keyed h hk
  exact ⟨hfresh, hid, state, hkept ▸ hstate, hcount⟩

end Opening

/-! ## Reading -/

namespace Counted

/-- An item that is stored can be read. -/
theorem exists_readItem (hw : Counted id w) (hfound : (w.storage.items.get? id).isSome = true)
    (held : List Handle) : ∃ s u, readItem (getItemState held) id w = .ok s u := by
  have hunfailing : w.backend.Unfailing w.storage := hw.ready.backend ▸ MemoryStore.unfailing _
  have hkeeps : w.Keeps id := by
    obtain ⟨s, hs⟩ := Option.isSome_iff_exists.1 hfound
    refine Or.inr ⟨s, { w.storage with loads := w.storage.loads + 1 }, ?_⟩
    rw [hw.ready.backend, MemoryStore.load_eq, hs]
  obtain ⟨h, u, hitem⟩ :=
    (itemState_ok_iff hunfailing (claimant?_eq_none hw.overlays id) held).2 (Or.inl hkeeps)
  exact ⟨u.heap.read h, u,
    (bind_of_ok ((reading_of_unlocked hw.ready.unlocked _).trans hitem)).trans rfl⟩

/-- An item that can be read is stored, and is read with its count. -/
theorem readItem_ok (hw : Counted id w) {s : ItemState} {u : Workspace MemoryStore}
    (h : readItem (getItemState held) id w = .ok s u) :
    (w.storage.items.get? id).isSome = true ∧ s.modCount = w.servedCount id := by
  obtain ⟨k, mid, hget, hrest⟩ := exists_of_bind_ok h
  cases hrest
  replace hget := (reading_of_unlocked hw.ready.unlocked (itemState held id)).symm.trans hget
  have hlook := lookedAt_itemState held id w
  rw [stateAfter_of_ok hget] at hlook
  have hcached : u.cache.peek? id = some k := peek?_of_itemState hw.overlays hget
  rcases (hlook.carried hw.ready.backend hw.ready.sound hw.keyed).entry hcached with
    ⟨hold, hcount⟩ | ⟨hfresh, -, s, hs, hcount⟩
  · obtain ⟨-, s, hs, -⟩ := hw.cached hold
    exact ⟨Option.isSome_iff_exists.2 ⟨s, hs⟩, hcount.trans (hw.storedCount_eq hold).1.symm⟩
  · -- nothing was cached, or it would have been answered
    have hnone : w.cache.peek? id = none := by
      cases hc : w.cache.peek? id with
      | none => rfl
      | some k' =>
        obtain ⟨u', hget'⟩ := itemState_of_cached (claimant?_eq_none hw.overlays id) hc held
        rw [hget] at hget'
        cases hget'
        exact absurd (hw.ready.sound.cached hc) hfresh
    refine ⟨Option.isSome_iff_exists.2 ⟨s, hs⟩, ?_⟩
    rw [hcount, servedCount, hnone, storedCount, hs]
    rfl

/-- What a client reads is the count that the workspace serves. -/
theorem readCount_eq (hw : Counted id w) (held : List Handle) :
    readCount held id w = (w.storage.items.get? id).map fun _ => w.servedCount id := by
  cases hget : w.storage.items.get? id with
  | some stored =>
    obtain ⟨s, u, hread⟩ := hw.exists_readItem (by rw [hget]; rfl) held
    have hrun : (readItem (getItemState held) id).run' w = some s := run'_of_ok hread
    rw [readCount, hrun, Option.map_some, (hw.readItem_ok hread).2, Option.map_some]
  | none =>
    cases hread : readItem (getItemState held) id w with
    | ok s u =>
      have hfound := (hw.readItem_ok hread).1
      rw [hget] at hfound
      cases hfound
    | error e u =>
      have hrun : (readItem (getItemState held) id).run' w = none := run'_of_error hread
      rw [readCount, hrun]
      rfl

end Counted

/-! ## Runs -/

/-- One step of a workspace over a memory without virtual subtrees, which modifies an item `m` times.
No log adds or deletes the item, and opening the workspace anew does not make it. -/
inductive Step (id : ItemId) : Workspace MemoryStore → Workspace MemoryStore → Nat → Prop where
  | asked {w w' : Workspace MemoryStore} : Asked w w' → Step id w w' 0
  | swept (held : List Handle) (w : Workspace MemoryStore) : Step id w (sweep held w) 0
  | stored {τ : Type} {sink : Sink MemoryStore τ} {log : ChangeLog LocalItem}
    (held : List Handle) (w : Workspace MemoryStore) (t : τ) : sink.SparesRoot → log.Recorded →
    log.isAdded id = false → log.isDeleted id = false →
    Step id w (store sink held w t log).workspace (modifications id log (store sink held w t log))
  | disposed (w : Workspace MemoryStore) : Step id w w.dispose 0
  | reopened (config : Config) (registry : Registry) {w w' : Workspace MemoryStore}
    {s : Shared MemoryStore} : openOver config MemoryStore.backend registry w.toShared = .ok w' s →
    w'.storage.items.get? id = w.storage.items.get? id → Step id w w' 0
  | switched {w : Workspace MemoryStore} {storage : MemoryStore} (notifier : Notifier) :
    storage.items = w.storage.items → Step id w { w with storage, notifier } 0

/-- A step advances the count of an item by the modifications made. -/
theorem Step.advanced {m : Nat} (h : Step id w w' m) (hw : Counted id w) : Advanced id w w' m := by
  cases h with
  | asked h => exact hw.look h.rooted
  | swept held =>
    have hswept : w.Rooted held (sweep held w) := lookedAt_sweep fun h hh => hh
    exact hw.look hswept
  | stored held _ t hsink hlog hadded hdeleted => exact hw.store hsink hlog hadded hdeleted held t
  | disposed => exact hw.dispose
  | reopened config registry h hkept => exact hw.openAnew h hkept
  | switched notifier hitems => exact hw.switch notifier hitems

/-- A workspace after some steps, which modified an item `n` times and lost `k` instances of it that
were ahead of what is stored. -/
inductive Since (id : ItemId) (w₀ : Workspace MemoryStore) : Workspace MemoryStore → Nat → Nat → Prop
    where
  | here : Since id w₀ w₀ 0 0
  | step {w w' : Workspace MemoryStore} {n k m : Nat} : Step id w w' m → Since id w₀ w n k →
    Since id w₀ w' (n + m) (k + losses id w w')

/-- Step by step the count goes up with each modification and down with each loss, and what is stored
never goes back. -/
theorem Since.advanced {w₀ : Workspace MemoryStore} {n k : Nat} (hw : Since id w₀ w n k)
    (hw₀ : Counted id w₀) :
    Counted id w ∧ (w.storage.items.get? id).isSome = (w₀.storage.items.get? id).isSome ∧
      w₀.storedCount id ≤ w.storedCount id ∧ w.servedCount id + k = w₀.servedCount id + n := by
  induction hw with
  | here => exact ⟨hw₀, rfl, Nat.le_refl _, rfl⟩
  | step hstep _ ih =>
    obtain ⟨hcounted, hfound, hstored, hcount⟩ := ih
    have hnext := hstep.advanced hcounted
    refine ⟨hnext.counted, hnext.found.trans hfound, Nat.le_trans hstored hnext.storedCount_le, ?_⟩
    have := hnext.count
    omega

/-- **What a count goes up and down by.** A count of 64 bits stays in its range as long as the commits that
modified the item do not use it up. -/
theorem Since.counts {config : Config} {registry : Registry} {s s' : Shared MemoryStore}
    {w₀ : Workspace MemoryStore} {n k n' k' c : Nat} (hs : SharedSound s)
    (hkeyed : MemoryStore.Keyed s.storage.items)
    (hopen : openOver config MemoryStore.backend registry s = .ok w₀ s')
    (hw : Since id w₀ w n k) (hw' : Since id w w' n' k') (hread : readCount held id w = some c)
    (held' : List Handle) :
    ∃ c', readCount held' id w' = some c' ∧ c' + k' = c + n' ∧ c ≤ c' + 1 ∧
      (c + n' ≤ maxUInt64 → c' ≤ maxUInt64) := by
  obtain ⟨hcounted, -⟩ := hw.advanced (.openOver hs hkeyed hopen)
  obtain ⟨hcounted', hfound, hstored, hcount⟩ := hw'.advanced hcounted
  rw [hcounted.readCount_eq, Option.map_eq_some_iff] at hread
  obtain ⟨state, hstate, rfl⟩ := hread
  rw [hstate, Option.isSome_some] at hfound
  obtain ⟨state', hstate'⟩ := Option.isSome_iff_exists.1 hfound
  refine ⟨w'.servedCount id, by rw [hcounted'.readCount_eq, hstate', Option.map_some], hcount, ?_, ?_⟩
  · have := hcounted.served_le
    have := hcounted'.served_le
    omega
  · rw [← hcount]
    exact fun hle => Nat.le_trans (Nat.le_add_right _ _) hle

/-! ### A commit, and what is left of it -/

/-- The commit of a modification raises the count by one. -/
theorem Since.counts_retyped :
    let w := Sample.opened Sample.memory
    let out := store (Sink.silent MemoryStore) [] w () Sample.retyped
    readCount [] Sample.known w = some 0 ∧ readCount [] Sample.known out.workspace = some 1 := by
  intro w out
  have hbefore : readCount [] Sample.known w = some 0 := by decide +kernel
  have hlosses : losses Sample.known w out.workspace = 0 := by decide +kernel
  have hmodified : modifications Sample.known Sample.retyped out = 1 := by decide +kernel
  have hopen : openOver ⟨"sample", default, 1, none, 1⟩ MemoryStore.backend Registry.default
      ⟨∅, [], Sample.memory⟩ = .ok w w.toShared := rfl
  obtain ⟨c, hafter, hcount, -⟩ := Since.counts (fun p hp => by cases hp) Sample.keyed_memory hopen .here
    (.step (.stored [] w () Sink.sparesRoot_silent Sample.recorded_retyped (by decide +kernel)
      (by decide +kernel)) .here) hbefore []
  rw [show store (Sink.silent MemoryStore) [] w () Sample.retyped = out from rfl] at hcount
  rw [hlosses, hmodified] at hcount
  obtain rfl : c = 1 := by omega
  exact ⟨hbefore, hafter⟩

/-- The commit succeeds and its count is read; when the cache is emptied the count is as before. -/
theorem count_falls_back :
    let w := Sample.opened Sample.memory
    let out := store (Sink.silent MemoryStore) [] w () Sample.retyped
    openOver ⟨"sample", default, 1, none, 1⟩ MemoryStore.backend Registry.default
        ⟨∅, [], Sample.memory⟩ = .ok w w.toShared ∧
      Sample.retyped.Recorded ∧ Sample.retyped.isAdded Sample.known = false ∧
      Sample.retyped.isDeleted Sample.known = false ∧ out.result = .ok () ∧
      readCount [] Sample.known out.workspace = some 1 ∧
      readCount [] Sample.known out.workspace.dispose = some 0 :=
  ⟨rfl, Sample.recorded_retyped, by decide +kernel, by decide +kernel, by decide +kernel,
    by decide +kernel, by decide +kernel⟩

end Workspace

end ContentTree
