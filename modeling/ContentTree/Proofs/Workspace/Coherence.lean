import ContentTree.Proofs.Workspace.Success

/-!
# The cache and the storage

While a commit is made the cache is ahead of the storage: instances have the data of a batch that is
not stored yet, and that may be refused. Between two commits every cached instance stands for its item
as the storage has it (`Served.coherent`), whatever was committed before, with or without success, and
whichever loads failed in between.

The one invariant of a commit is `Midway`: instances that the commit has not come to are as stored, and
the others are the cached ones of their items. Undoing and settling both end the exception.
-/

namespace ContentTree.Workspace

section

variable {σ τ : Type} {b : Backend σ} {memory : σ → MemoryStore} {held : List Handle}
  {w w' : Workspace σ} {items : OrderedMap ItemId ItemState}

/-- An instance stands for an item, and has the data that is stored of it. -/
structure Mirrors (items : OrderedMap ItemId ItemState) (heap : Heap) (id : ItemId) (h : Handle) :
    Prop where
  id_eq : (heap.read h).id = id
  status : (heap.read h).status = .existing
  stored : ∃ s, items.get? id = some s ∧ s.data = (heap.read h).data

/-- Every entry of the cache stands for the item that it is found under. -/
def Coherent (items : OrderedMap ItemId ItemState) (w : Workspace σ) : Prop :=
  ∀ id h, w.cache.peek? id = some h → Mirrors items w.heap id h

namespace Mirrors

variable {heap heap' : Heap} {id : ItemId} {h : Handle}

/-- An instance still mirrors the stored item if its state is unchanged. -/
theorem of_read_eq (hm : Mirrors items heap id h) (hread : heap'.read h = heap.read h) :
    Mirrors items heap' id h := by
  obtain ⟨hid, hstatus, hstored⟩ := hm
  rw [← hread] at hid hstatus hstored
  exact ⟨hid, hstatus, hstored⟩

/-- An instance still mirrors the stored item if the store has the same under its identity. -/
theorem of_get?_eq {items' : OrderedMap ItemId ItemState} (hm : Mirrors items heap id h)
    (hget : items'.get? id = items.get? id) : Mirrors items' heap id h := by
  refine ⟨hm.id_eq, hm.status, ?_⟩
  rw [hget]
  exact hm.stored

/-- An instance made of what was loaded. -/
theorem of_loaded (hkeyed : MemoryStore.Keyed items) {s : ItemState} (hget : items.get? id = some s)
    (hread : heap.read h = s.withStatus .existing) : Mirrors items heap id h := by
  refine ⟨?_, ?_, s, hget, ?_⟩
  · rw [hread]
    exact hkeyed id s hget
  · rw [hread]
    rfl
  · rw [hread]
    rfl

end Mirrors

/-! ## Reading -/

/-- Looking at items changes nothing that is stored. -/
theorem LookedAt.memory_items (hb : b.OverMemory memory) (hback : w.backend = b) (h : w.LookedAt held w') :
    (memory w'.storage).items = (memory w.storage).items := by
  apply hb.asked
  rw [← hback]
  exact h.storage

/-- Reading keeps the entries that there are, and what it loads comes from the storage. -/
theorem Coherent.look (hb : b.OverMemory memory) (hback : w.backend = b) (hsound : w.Sound)
    (hkeyed : MemoryStore.Keyed (memory w.storage).items)
    (hw : Coherent (memory w.storage).items w) (h : w.LookedAt held w') :
    Coherent (memory w.storage).items w' := by
  intro id k hk
  rcases h.entry hk with hold | hnew
  · exact (hw id k hold).of_read_eq (h.heap.read (hsound.cached hold))
  · obtain ⟨t, s, t', hasked, hload, hread⟩ := hnew.content
    rw [hback] at hasked hload
    have hget := hb.loaded hload
    rw [hb.asked hasked] at hget
    exact .of_loaded hkeyed hget hread

/-! ## In the middle of a commit -/

/-- A workspace that a commit was made to up to some point. Cached instances are as stored, except
those in the shared log, to which data may have been pushed. -/
structure Midway (items : OrderedMap ItemId ItemState) (shared : ChangeLog Handle)
    (w : Workspace σ) : Prop where
  wellFormed : shared.WellFormed
  valid : ∀ h ∈ shared.states, w.heap.Valid h
  cached : ∀ {id h}, w.cache.peek? id = some h → w.heap.Valid h
  stands : ∀ {id h}, w.cache.peek? id = some h →
    (w.heap.read h).id = id ∧ (w.heap.read h).status = .existing
  mirrors : ∀ {id h}, w.cache.peek? id = some h → h ∉ shared.states → Mirrors items w.heap id h
  added : ∀ h ∈ shared.addedItems.values, ∀ id, w.cache.peek? id ≠ some h
  current : ∀ cls, cls ≠ .added → ∀ h ∈ (shared.itemsOf cls).values, w.cache.peek? h.id = some h

namespace Midway

variable {shared : ChangeLog Handle}

/-- The instances on their way into the store are distinct. -/
theorem nodup_states (hw : Midway items shared w) : shared.states.Nodup :=
  .of_map Tracked.itemId (hw.wellFormed.map_itemId_states ▸ hw.wellFormed.nodup_scope)

/-- An entry is found under the identity that its handle carries. -/
theorem id_eq (hw : Midway items shared w) {id : ItemId} {h : Handle}
    (hh : w.cache.peek? id = some h) : h.id = id :=
  (hw.cached hh).read_id.symm.trans (hw.stands hh).1

/-- Undoing a commit loads anew, or takes out, whatever data was pushed to. -/
theorem rollBack (hb : b.OverMemory memory) (hback : w.backend = b)
    (hw : Midway (memory w.storage).items shared w) :
    Coherent (memory w.storage).items (w.rollBack shared) := by
  intro id k hk
  have hundo := concerns_rollBack w shared
  have hpeek : w.cache.peek? id = some k := hundo.cached hk
  by_cases hmem : k ∈ shared.states
  · -- an instance that was made for an added item is not cached, so this one was to be reloaded
    have htouched : k ∈ shared.modifiedItems.values ++ shared.deletedItems.values := by
      rw [ChangeLog.states, List.append_assoc] at hmem
      rcases List.mem_append.1 hmem with ha | ht
      · exact absurd hpeek (hw.added k ha id)
      · exact ht
    obtain ⟨before, after, hsplit⟩ := List.append_of_mem htouched
    have hreload := reloaded_rollBack hw.valid hw.nodup_states hsplit
    rw [hback] at hreload
    have hid : k.id = id := hw.id_eq hpeek
    subst hid
    cases hload : b.load k.id (reloads b before w.storage) with
    | error e t =>
      rw [hload] at hreload
      exact absurd hk hreload.2.1
    | ok s t =>
      rw [hload] at hreload
      have hget := hb.loaded hload
      rw [hb.asked (queried_reloads b before w.storage)] at hget
      obtain ⟨hid, hstatus⟩ := hw.stands hpeek
      refine ⟨?_, ?_, s, hget, ?_⟩
      · rw [hreload.1]
        exact hid
      · rw [hreload.1]
        exact hstatus
      · rw [hreload.1]
        rfl
  · exact (hw.mirrors hpeek hmem).of_read_eq
      (hundo.read_of_not_mem (hw.cached hpeek) hw.valid hmem)

/-- An instance that the batch writes is settled as what was written. -/
theorem mirrors_written {m : MemoryStore} (hw : Midway m.items shared w) {cls : ChangeLog.Class}
    (hcls : cls ≠ .deleted) {h : Handle} (hh : h ∈ (shared.itemsOf cls).values) :
    Mirrors (m.applied (shared.changeSet w.heap)).items (w.persisted shared).heap h.id h := by
  have hv : w.heap.Valid h := hw.valid h (ChangeLog.mem_states.2 ⟨cls, hh⟩)
  have hread : (w.persisted shared).heap.read h = settledState cls (w.heap.read h) := by
    rw [heap_persisted]
    exact (read_settledHeap hw.valid hw.nodup_states hv).1 cls hh
  have hget := (get?_items_changeSet hw.wellFormed hw.valid m).1 cls h hh
  rw [if_neg hcls] at hget
  refine ⟨?_, ?_, _, hget, ?_⟩
  · rw [hread, id_settledState, hv.read_id]
  · rw [hread]
    cases cls with
    | deleted => exact absurd rfl hcls
    | added => rfl
    | modified => rfl
  · rw [hread]
    cases cls <;> rfl

/-- A cached instance whose item the batch does not name stays as it is stored. -/
theorem mirrors_unnamed {m : MemoryStore} (hw : Midway m.items shared w) {id : ItemId} {h : Handle}
    (hid : id ∉ shared.scope) (hh : w.cache.peek? id = some h) :
    Mirrors (m.applied (shared.changeSet w.heap)).items (w.persisted shared).heap id h := by
  have hnot : h ∉ shared.states := by
    intro hmem
    obtain ⟨cls, hcls⟩ := ChangeLog.mem_states.1 hmem
    have hkey := hw.wellFormed.mem_keys hcls
    rw [show Tracked.itemId h = id from hw.id_eq hh] at hkey
    exact hid (ChangeLog.mem_scope.2 ⟨cls, hkey⟩)
  have hget := (get?_items_changeSet hw.wellFormed hw.valid m).2 id hid
  refine ((hw.mirrors hh hnot).of_get?_eq hget).of_read_eq ?_
  rw [heap_persisted]
  exact (read_settledHeap hw.valid hw.nodup_states (hw.cached hh)).2 hnot

/-- Settling a commit whose batch was stored leaves every cached instance as stored. -/
theorem persisted {m : MemoryStore} (hw : Midway m.items shared w) :
    Coherent (m.applied (shared.changeSet w.heap)).items (w.persisted shared) := by
  have hdeleted : ∀ h ∈ shared.deletedItems.values, ∀ k, w.cache.peek? h.id = some k → k = h := by
    intro h hh k hk
    rw [hw.current .deleted (by decide) h hh] at hk
    exact (Option.some.inj hk).symm
  obtain ⟨hin, hout, hsame⟩ := peek?_settledCache hw.wellFormed hdeleted
  intro id k hk
  rw [cache_persisted] at hk
  -- the cases are those of the batch: added items come into the cache, deleted ones leave it
  by_cases ha : id ∈ shared.addedItems.keys
  · obtain ⟨h, hh, hid⟩ := hw.wellFormed.exists_of_mem_keys .added ha
    obtain rfl : h.id = id := hid
    rw [hin h hh] at hk
    obtain rfl : h = k := Option.some.inj hk
    exact hw.mirrors_written (by decide) hh
  · by_cases hd : id ∈ shared.deletedItems.keys
    · obtain ⟨h, hh, hid⟩ := hw.wellFormed.exists_of_mem_keys .deleted hd
      obtain rfl : h.id = id := hid
      rw [hout h hh] at hk
      cases hk
    · rw [hsame id ha hd] at hk
      by_cases hm : id ∈ shared.modifiedItems.keys
      · obtain ⟨h, hh, hid⟩ := hw.wellFormed.exists_of_mem_keys .modified hm
        obtain rfl : h.id = id := hid
        rw [hw.current .modified (by decide) h hh] at hk
        obtain rfl : h = k := Option.some.inj hk
        exact hw.mirrors_written (by decide) hh
      · refine hw.mirrors_unnamed ?_ hk
        simp only [ChangeLog.scope, List.mem_append, ha, hm, hd, or_self, not_false_eq_true]

end Midway

/-- A commit that only entered instances and pushed data to them, in a coherent workspace. -/
theorem midway_of_connecting {c₀ c : Commit σ τ} {done : List (ChangeLog.Class × ItemId)}
    {heap : Heap} (hsound : c₀.workspace.Sound) (hsubtrees : c₀.workspace.subtrees = [])
    (hc : Commit.Connecting c₀ done c) (hcoherent : Coherent items c.workspace)
    (hheap : c.workspace.heap.Overwritten c.shared.states heap) (storage : σ) :
    Midway items c.shared (c.withData heap storage).workspace := by
  have hunder := hc.underway hsound hheap storage
  have hsound' : c.workspace.Sound := hc.looked.sound hsound
  refine
    { wellFormed := hc.wellFormed
      valid := hunder.valid_states
      cached := hunder.sound.cached
      stands := fun {id h} hh => ?_
      mirrors := fun {id h} hh hnot => ?_
      added := fun h hh => (hunder.added hh).2
      current := fun cls hcls h hh => hunder.cached hsubtrees hcls hh }
  · -- pushing data changes neither identity nor status
    have hm := hcoherent id h hh
    show (heap.read h).id = id ∧ (heap.read h).status = .existing
    rw [hheap.copied h]
    exact ⟨hm.id_eq, hm.status⟩
  · have hv : c.workspace.heap.Valid h := hsound'.cached hh
    refine (hcoherent id h hh).of_read_eq (hheap.other h fun k hk => ?_)
    refine Heap.Valid.index_ne ?_ hv fun heq => hnot (heq ▸ hk)
    exact (hheap.valid k).1 (hunder.valid_states k hk)

/-! ## Between commits -/

/-- What is known between two commits of a workspace without virtual subtrees over a memory. -/
structure InStep (b : Backend σ) (memory : σ → MemoryStore) (w : Workspace σ) : Prop where
  ready : w.Ready b
  overlays : w.overlays = []
  keyed : MemoryStore.Keyed (memory w.storage).items
  coherent : Coherent (memory w.storage).items w

namespace InStep

/-- A workspace stays in step while it is only looked at. -/
theorem look (hb : b.OverMemory memory) (hw : InStep b memory w) (h : w.LookedAt held w') :
    InStep b memory w' := by
  have hitems := h.memory_items hb hw.ready.backend
  refine ⟨hw.ready.look h, h.overlays.trans hw.overlays, hitems ▸ hw.keyed, ?_⟩
  rw [hitems]
  exact hw.coherent.look hb hw.ready.backend hw.ready.sound hw.keyed h

/-- The same workspace under the lock, once overlays were entered. -/
theorem connecting (hb : b.OverMemory memory) (hw : InStep b memory w) {t : τ}
    {log : ChangeLog LocalItem} {records : List NodeReferences} {c : Commit σ τ}
    {done : List (ChangeLog.Class × ItemId)}
    (hc : Commit.Connecting (begin w t held log records) done c) :
    (memory c.workspace.storage).items = (memory w.storage).items ∧
      Coherent (memory w.storage).items c.workspace :=
  ⟨hc.looked.memory_items (w := (begin w t held log records).workspace) hb hw.ready.backend,
    Coherent.look (w := (begin w t held log records).workspace) hb hw.ready.backend
      hw.ready.sound_begin hw.keyed hw.coherent hc.looked⟩

/-- Abandoning a commit leaves the workspace in step. -/
theorem abandon (hb : b.OverMemory memory) (hw : InStep b memory w) {t : τ}
    {log : ChangeLog LocalItem} {records : List NodeReferences} {c : Commit σ τ}
    (hc : Commit.Stopped (begin w t held log records) c) (e : Error) :
    InStep b memory (Workspace.abandon e c).workspace := by
  have hsound : (begin w t held log records).workspace.Sound := hw.ready.sound_begin
  have hunder := hc.underway hsound
  obtain ⟨done, before, heap, storage, hbefore, hheap, hstorage, rfl⟩ := hc
  obtain ⟨hasked, hcoherent⟩ := hw.connecting hb hbefore
  have hback : before.workspace.backend = b := hbefore.looked.backend.trans hw.ready.backend
  -- a batch that was refused has changed no item
  have hitems : (memory storage).items = (memory w.storage).items := by
    rcases hstorage with rfl | ⟨e, hrefused⟩
    · exact hasked
    · rw [hback] at hrefused
      exact (hb.refused hrefused).trans hasked
  have hmidway := midway_of_connecting hsound (subtrees_eq_nil hw.overlays) hbefore hcoherent hheap storage
  rw [← hitems] at hmidway
  have hundone := hmidway.rollBack (w := (before.withData heap storage).workspace) hb hback
  have hqueried := queried_rollBack (before.withData heap storage).workspace before.shared
  rw [show (before.withData heap storage).workspace.backend = b from hback] at hqueried
  have hafter := (hb.asked hqueried).trans hitems
  refine ⟨hw.ready.abandon hunder e, ?_, ?_, ?_⟩
  · have hundo := concerns_rollBack (before.withData heap storage).workspace before.shared
    exact hundo.overlays.trans (hunder.overlays.trans hw.overlays)
  · exact hafter ▸ hw.keyed
  · rw [show (memory (Workspace.abandon e (before.withData heap storage)).workspace.storage).items =
      (memory storage).items from hb.asked hqueried]
    exact hundone

/-- Concluding a stored commit leaves the workspace in step. -/
theorem conclude (hb : b.OverMemory memory) (hw : InStep b memory w) {sink : Sink σ τ}
    (hsink : sink.OnlyReads) {t : τ} {log : ChangeLog LocalItem} {records : List NodeReferences}
    {c : Commit σ τ} (hc : Commit.Stored (begin w t held log records) c)
    (virtual : List NodeReferences) :
    InStep b memory (Workspace.conclude sink virtual c).workspace := by
  have hsound : (begin w t held log records).workspace.Sound := hw.ready.sound_begin
  have hunder := hc.underway hsound
  refine look hb ?_ (hsink.dispatch _ _ _)
  obtain ⟨before, heap, storage, hbefore, hpush, hstore, rfl⟩ := hc
  obtain ⟨hasked, hcoherent⟩ := hw.connecting hb hbefore
  have hback : before.workspace.backend = b := hbefore.looked.backend.trans hw.ready.backend
  rw [hback] at hstore
  -- data went to the instances of the shared log only
  have hheap := (ChangeLog.overwritten_push before.log before.workspace.heap).mono
    hbefore.connections_subset
  rw [stateAfter_of_ok hpush] at hheap
  have hmidway := midway_of_connecting hsound (subtrees_eq_nil hw.overlays) hbefore hcoherent hheap storage
  rw [← hasked] at hmidway
  have hsettled := hmidway.persisted
  have hstorage : ((before.withData heap storage).workspace.persisted before.shared).storage =
    storage := storage_persisted _ _
  have hitems := hb.stored hstore
  refine ⟨hw.ready.settle hunder virtual, ?_, ?_, ?_⟩
  · exact (overlays_persisted _ _).trans (hunder.overlays.trans hw.overlays)
  · show MemoryStore.Keyed (memory
      ((before.withData heap storage).workspace.persisted before.shared).storage).items
    rw [hstorage, hitems]
    exact MemoryStore.Keyed.applied (hasked ▸ hw.keyed) _
  · show Coherent (memory
      ((before.withData heap storage).workspace.persisted before.shared).storage).items _
    rw [hstorage, hitems]
    exact hsettled

/-- A commit leaves the workspace in step, whether or not it succeeds. -/
theorem store (hb : b.OverMemory memory) (hw : InStep b memory w) {sink : Sink σ τ}
    (hsink : sink.OnlyReads) {log : ChangeLog LocalItem} (hlog : log.Recorded) (held : List Handle)
    (t : τ) : InStep b memory (Workspace.store sink held w t log).workspace := by
  apply store_ends (motive := fun out => InStep b memory out.workspace) hw.ready hsink hlog
  · intro e w' hlook
    exact hw.look hb (hlook held)
  · intro records e c hc
    exact hw.abandon hb hc e
  · intro records virtual c hc
    exact hw.conclude hb hsink hc virtual

/-- A workspace that was just opened has its root in the cache, or the root and a property. -/
theorem openOver (hb : b.OverMemory memory) {config : Config} {registry : Registry}
    {s s' : Shared σ} (hs : SharedSound s) (hkeyed : MemoryStore.Keyed (memory s.storage).items)
    (h : Workspace.openOver config b registry s = .ok w s') : InStep b memory w := by
  have hready := ready_openOver hs h
  obtain ⟨asked, hasked, hopen⟩ := openOver_ok h
  rw [← hb.asked hasked] at hkeyed
  rcases hopen with ⟨root, t, hload, rfl⟩ | ⟨node, property, t, -, hstore, rfl⟩
  · have hitems : (memory t).items = (memory asked).items := by
      -- loading the root asks the memory, and the root is all that is cached
      apply hb.asked
      have hnext := (Backend.Queried.refl (b := b) asked).load (.node config.rootNode)
      rwa [stateAfter_of_ok hload] at hnext
    refine ⟨hready, rfl, hitems ▸ hkeyed, fun id k hk => ?_⟩
    obtain ⟨rfl, rfl⟩ := peek?_aroundLoaded hk
    show Mirrors (memory t).items _ _ _
    rw [hitems]
    exact .of_loaded hkeyed (hb.loaded hload) (Heap.read_alloc _ _)
  · -- a fresh root begins with an empty cache, so that only its log has to be settled
    have hmidway : Midway (memory asked).items (rootLog config s.heap node property)
        (aroundMade config b { s with storage := t } node property) :=
      { wellFormed := wellFormed_rootLog config s.heap node property
        valid := valid_rootLog config s.heap node property
        cached := fun hh => by cases hh
        stands := fun hh => by cases hh
        mirrors := fun hh => by cases hh
        added := fun h _ id hh => by cases hh
        current := fun cls hcls h hh => by
          cases cls with
          | added => exact absurd rfl hcls
          | modified => cases hh
          | deleted => cases hh }
    have hsettled := hmidway.persisted
    have hstorage : ((aroundMade config b { s with storage := t } node property).persisted
      (rootLog config s.heap node property)).storage = t := storage_persisted _ _
    have hitems := hb.stored hstore
    refine ⟨hready, overlays_persisted _ _, ?_, ?_⟩
    · rw [hstorage, hitems]
      exact MemoryStore.Keyed.applied hkeyed _
    · rw [hstorage, hitems]
      exact hsettled

end InStep

/-! ## Runs -/

/-- A workspace over a memory after it was opened, and then read from and committed to in any order,
without virtual subtrees. Between two steps all of the storage but its items may change: what fails
next is up to the storage. -/
inductive Served (b : Backend σ) (memory : σ → MemoryStore) : Workspace σ → Prop where
  | opened (config : Config) (registry : Registry) {s s' : Shared σ} {w : Workspace σ} :
    SharedSound s → MemoryStore.Keyed (memory s.storage).items →
    openOver config b registry s = .ok w s' → Served b memory w
  | getItemState {w : Workspace σ} (held : List Handle) (id : ItemId) :
    Served b memory w → Served b memory (stateAfter (getItemState held id) w)
  | hasItemState {w : Workspace σ} (id : ItemId) :
    Served b memory w → Served b memory (stateAfter (hasItemState id) w)
  | getReferences {w : Workspace σ} (target : NodeId) :
    Served b memory w → Served b memory (stateAfter (getReferences target) w)
  | hasReferenceRecord {w : Workspace σ} (target : NodeId) :
    Served b memory w → Served b memory (stateAfter (hasReferenceRecord target) w)
  | checkTargetsExist {w : Workspace σ} (log : ChangeLog LocalItem) :
    Served b memory w → Served b memory (stateAfter (checkTargetsExist log) w)
  | stored {τ : Type} {w : Workspace σ} {sink : Sink σ τ} {log : ChangeLog LocalItem}
    (held : List Handle) (t : τ) : sink.OnlyReads → log.Recorded →
    Served b memory w → Served b memory (store sink held w t log).workspace
  | switched {w : Workspace σ} {storage : σ} :
    (memory storage).items = (memory w.storage).items →
    Served b memory w → Served b memory { w with storage }

/-- Every step of a run leaves the workspace in step with its storage. -/
theorem Served.inStep (hb : b.OverMemory memory) (hw : Served b memory w) : InStep b memory w := by
  induction hw with
  | opened config registry hs hkeyed h => exact .openOver hb hs hkeyed h
  | getItemState held id _ ih => exact ih.look hb (tracks_reading (lookedAt_itemState held id) _)
  | hasItemState id _ ih =>
    exact ih.look hb (tracks_orNo (tracks_reading (lookedAt_hasItem [] id)) _)
  | getReferences target _ ih =>
    exact ih.look hb (tracks_reading (lookedAt_references [] target) _)
  | hasReferenceRecord target _ ih =>
    exact ih.look hb (tracks_orNo (tracks_reading (lookedAt_hasReferences [] target)) _)
  | checkTargetsExist log _ ih => exact ih.look hb (lookedAt_checkTargetsExist [] log _)
  | stored held t hsink hlog _ ih => exact ih.store hb hsink hlog held t
  | @switched w storage hitems _ ih =>
    refine ⟨⟨⟨ih.ready.sound.cached, ih.ready.sound.provided⟩, ih.ready.unlocked,
      ih.ready.backend⟩, ih.overlays, hitems ▸ ih.keyed, ?_⟩
    show Coherent (memory storage).items _
    rw [hitems]
    exact ih.coherent

/-- **The cache and the storage agree.** -/
theorem Served.coherent (hb : b.OverMemory memory) (hw : Served b memory w) :
    Coherent (memory w.storage).items w :=
  (hw.inStep hb).coherent

end

/-! ### A commit that fails, with one of its reloads -/

namespace Sample

/-- A memory whose next batch fails, of which every load but the fifth succeeds. -/
def shaky : Backend (MemoryStore × Nat) :=
  MemoryStore.backend.unsteady fun n _ => if n = 4 then some (.persistence .injected) else none

/-- A workspace over that memory, after it was opened. -/
def shakyOpened : Workspace (MemoryStore × Nat) :=
  aroundLoaded ⟨"sample", default, 1, none, 1⟩ shaky
    ⟨∅, [], ({ memory with failNext := true, loads := 1 }, 1)⟩ (.empty (.node default))

/-- The workspace after one item was asked for. -/
def shakyWorkspace : Workspace (MemoryStore × Nat) :=
  stateAfter (getItemState [] known) shakyOpened

/-- A log that gives two items another type. -/
def retyped : ChangeLog LocalItem :=
  ((ChangeLog.new (.node default)).record .modified
    (.new ⟨known, .existing, 0, .node (.new ⟨"retyped"⟩ none)⟩)).record .modified
    (.new ⟨other, .existing, 0, .node (.new ⟨"retyped"⟩ none)⟩)

/-- The log that retypes is recorded. -/
theorem recorded_retyped : retyped.Recorded :=
  ((ChangeLog.Recorded.new _).record .modified (LocalItem.faithful_new _)).record .modified
    (LocalItem.faithful_new _)

/-- The memory of the example keeps its items under their identities. -/
theorem keyed_memory : MemoryStore.Keyed memory.items :=
  ((MemoryStore.keyed_empty.put _).put _).put _

/-- The workspace over the shaky memory is served. -/
theorem served_shaky : Served shaky (fun t => t.1) shakyWorkspace := by
  have hopen : openOver ⟨"sample", default, 1, none, 1⟩ shaky Registry.default
      ⟨∅, [], ({ memory with failNext := true }, 0)⟩ = .ok shakyOpened shakyOpened.toShared := rfl
  apply Served.getItemState [] known
  refine .opened _ _ (fun p hp => ?_) keyed_memory hopen
  cases hp

end Sample

/-- The batch is refused, and of the two items that were to be loaded anew one is not: the other one
is in the cache as it is stored. -/
theorem Served.coherent_shaky :
    let w := (store (Sink.silent (MemoryStore × Nat)) [] Sample.shakyWorkspace () Sample.retyped).workspace
    Coherent w.storage.1.items w ∧ w.cache.peek? Sample.known = some ⟨1, Sample.known⟩ ∧
      w.cache.peek? Sample.other = none :=
  ⟨Served.coherent (Backend.overMemory_memory.unsteady _)
      (.stored [] () Sink.onlyReads_silent Sample.recorded_retyped Sample.served_shaky),
    by decide +kernel, by decide +kernel⟩

end ContentTree.Workspace
