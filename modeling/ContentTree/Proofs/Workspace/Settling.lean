import ContentTree.Proofs.Workspace.Persisting

/-!
# Settling a commit

After a batch was stored the instances of the shared log change their statuses, each once, and the
cache follows: added instances come in, deleted ones go out. Everything else stays.
-/

namespace ContentTree

namespace Workspace

variable {σ τ : Type} {w : Workspace σ} {shared : ChangeLog Handle}

/-- What becomes of one instance, by the set it stands in. -/
def settledState : ChangeLog.Class → ItemState → ItemState
  | .added, s => s.withStatus .existing
  | .modified, s => (s.withStatus .existing).touch
  | .deleted, s => s.withStatus .destroyed

/-- Settling keeps the identity. -/
theorem id_settledState (cls : ChangeLog.Class) (s : ItemState) : (settledState cls s).id = s.id := by
  cases cls <;> rfl

/-- What becomes of the instances in one set. -/
def settleSet (shared : ChangeLog Handle) (cls : ChangeLog.Class) (heap : Heap) : Heap :=
  (shared.itemsOf cls).values.foldl (fun heap h => heap.modify h (settledState cls)) heap

/-- What becomes of the instances of a log when its batch was stored. -/
def settledHeap (heap : Heap) (shared : ChangeLog Handle) : Heap :=
  settleSet shared .deleted (settleSet shared .modified (settleSet shared .added heap))

/-- The instances after a commit are the settled ones. -/
theorem heap_persisted (w : Workspace σ) (shared : ChangeLog Handle) :
    (w.persisted shared).heap = settledHeap w.heap shared := by
  have hfold : ∀ (step : Workspace σ → Handle → Workspace σ) (f : ItemState → ItemState),
      (∀ w h, (step w h).heap = w.heap.modify h f) → ∀ (hs : List Handle) (w : Workspace σ),
      (hs.foldl step w).heap = hs.foldl (fun heap h => heap.modify h f) w.heap :=
    fun _ _ hstep hs w => (List.foldl_hom (fun w : Workspace σ => w.heap) fun v h =>
      (hstep v h).symm).symm
  unfold persisted
  rw [hfold settleDeleted (settledState .deleted) (fun _ _ => rfl),
    hfold settleModified (settledState .modified) (fun _ _ => rfl),
    hfold settleAdded (settledState .added) (fun _ _ => rfl)]
  rfl

/-- Settling a set makes no instance and takes none away. -/
theorem valid_settleSet (heap : Heap) (cls : ChangeLog.Class) (k : Handle) :
    (settleSet shared cls heap).Valid k ↔ heap.Valid k :=
  Heap.valid_foldl_modify (id_settledState cls) _ _ _

/-- Settling makes no instance and takes none away. -/
theorem valid_settledHeap (heap : Heap) (k : Handle) :
    (settledHeap heap shared).Valid k ↔ heap.Valid k :=
  (valid_settleSet _ _ _).trans ((valid_settleSet _ _ _).trans (valid_settleSet _ _ _))

/-- A commit that settles makes no instance and takes none away. -/
theorem valid_persisted (w : Workspace σ) (shared : ChangeLog Handle) (k : Handle) :
    (w.persisted shared).heap.Valid k ↔ w.heap.Valid k := by
  rw [heap_persisted, valid_settledHeap]

/-- Settling a set settles the states of its instances and no other ones. -/
theorem read_settleSet (cls : ChangeLog.Class) {heap : Heap}
    (hvalid : ∀ h ∈ (shared.itemsOf cls).values, heap.Valid h)
    (hnodup : (shared.itemsOf cls).values.Nodup) {k : Handle} (hk : heap.Valid k) :
    (settleSet shared cls heap).read k =
      if k ∈ (shared.itemsOf cls).values then settledState cls (heap.read k) else heap.read k :=
  Heap.read_foldl_modify (id_settledState cls) hnodup hvalid hk

/-- Every instance of the log is settled once, in the way of the set it stands in, and no other
instance is touched. -/
theorem read_settledHeap {heap : Heap} (hvalid : ∀ h ∈ shared.states, heap.Valid h)
    (hnodup : shared.states.Nodup) {k : Handle} (hk : heap.Valid k) :
    (∀ cls, k ∈ (shared.itemsOf cls).values →
      (settledHeap heap shared).read k = settledState cls (heap.read k)) ∧
    (k ∉ shared.states → (settledHeap heap shared).read k = heap.read k) := by
  have hmem : ∀ cls, ∀ h ∈ (shared.itemsOf cls).values, heap.Valid h :=
    fun cls h hh => hvalid h (ChangeLog.mem_states.2 ⟨cls, hh⟩)
  rw [ChangeLog.states, List.nodup_append, List.nodup_append] at hnodup
  obtain ⟨⟨hna, hnm, ham⟩, hnd, had⟩ := hnodup
  have hread : (settledHeap heap shared).read k =
      (fun s => if k ∈ (shared.itemsOf .deleted).values then settledState .deleted s else s)
        ((fun s => if k ∈ (shared.itemsOf .modified).values then settledState .modified s else s)
          ((fun s => if k ∈ (shared.itemsOf .added).values then settledState .added s else s)
            (heap.read k))) := by
    unfold settledHeap
    rw [read_settleSet .deleted (fun h hh => ?_) hnd,
      read_settleSet .modified (fun h hh => ?_) hnm, read_settleSet .added (hmem .added) hna hk]
    · exact (valid_settleSet _ _ _).2 hk
    · exact (valid_settleSet _ _ _).2 (hmem .modified h hh)
    · exact (valid_settleSet _ _ _).2 ((valid_settleSet _ _ _).2 hk)
    · exact (valid_settleSet _ _ _).2 ((valid_settleSet _ _ _).2 (hmem .deleted h hh))
  constructor
  · intro cls hcls
    -- an instance in one set is in neither of the others
    have hother : ∀ cls', cls' ≠ cls → k ∉ (shared.itemsOf cls').values := by
      intro cls' hne hcls'
      cases cls <;> cases cls'
      case added.modified => exact ham k hcls k hcls' rfl
      case modified.added => exact ham k hcls' k hcls rfl
      case added.deleted => exact had k (List.mem_append_left _ hcls) k hcls' rfl
      case deleted.added => exact had k (List.mem_append_left _ hcls') k hcls rfl
      case modified.deleted => exact had k (List.mem_append_right _ hcls) k hcls' rfl
      case deleted.modified => exact had k (List.mem_append_right _ hcls') k hcls rfl
      all_goals exact absurd rfl hne
    rw [hread]
    cases cls with
    | added =>
      simp only [hcls, hother .modified (by decide), hother .deleted (by decide), if_true, if_false]
    | modified =>
      simp only [hcls, hother .added (by decide), hother .deleted (by decide), if_true, if_false]
    | deleted =>
      simp only [hcls, hother .added (by decide), hother .modified (by decide), if_true, if_false]
  · intro hnot
    have hall : ∀ cls, k ∉ (shared.itemsOf cls).values :=
      fun cls h => hnot (ChangeLog.mem_states.2 ⟨cls, h⟩)
    rw [hread]
    simp only [hall, if_false]

/-! ## The cache -/

/-- What becomes of the cache when the batch of a log was stored. -/
def settledCache (cache : Cache) (shared : ChangeLog Handle) : Cache :=
  shared.deletedItems.values.foldl (fun cache h => (cache.evictInstance h).2)
    (shared.addedItems.values.foldl (fun cache h => (cache.put h).2) cache)

/-- The cache after a commit is the settled one. -/
theorem cache_persisted (w : Workspace σ) (shared : ChangeLog Handle) :
    (w.persisted shared).cache = settledCache w.cache shared := by
  have hfold : ∀ (step : Workspace σ → Handle → Workspace σ) (f : Cache → Handle → Cache),
      (∀ w h, (step w h).cache = f w.cache h) → ∀ (hs : List Handle) (w : Workspace σ),
      (hs.foldl step w).cache = hs.foldl f w.cache :=
    fun _ _ hstep hs w => (List.foldl_hom (fun w : Workspace σ => w.cache) fun v h =>
      (hstep v h).symm).symm
  unfold persisted
  rw [hfold settleDeleted (fun cache h => (cache.evictInstance h).2)
      (fun _ _ => rfl),
    hfold settleModified (fun cache _ => cache) (fun _ _ => rfl),
    hfold settleAdded (fun cache h => (cache.put h).2) (fun _ _ => rfl)]
  have hsame : ∀ (hs : List Handle) (cache : Cache), hs.foldl (fun cache _ => cache) cache = cache :=
    fun hs cache => List.foldlRecOn hs _ (motive := fun c => c = cache) rfl fun _ hc _ _ => hc
  rw [hsame]
  rfl

/-- Evicting instances leaves the cache alone under other identities. -/
theorem peek?_foldl_evict_of_not_mem {hs : List Handle} {id : ItemId} (h : id ∉ hs.map Handle.id)
    (cache : Cache) :
    (hs.foldl (fun cache h => (cache.evictInstance h).2) cache).peek? id = cache.peek? id := by
  induction hs generalizing cache with
  | nil => rfl
  | cons k rest ih =>
    rw [List.map_cons, List.mem_cons, not_or] at h
    rw [List.foldl_cons, ih h.2, Cache.peek?_evictInstance, if_neg fun hid => h.1 hid.1]

/-- Evicting instances caches nothing new. -/
theorem peek?_foldl_evict_le (hs : List Handle) {cache : Cache} {id : ItemId} {k : Handle}
    (h : (hs.foldl (fun cache h => (cache.evictInstance h).2) cache).peek? id = some k) :
    cache.peek? id = some k := by
  induction hs generalizing cache with
  | nil => exact h
  | cons j rest ih =>
    have hid := ih h
    rw [Cache.peek?_evictInstance] at hid
    split at hid
    · cases hid
    · exact hid

/-- An evicted instance is no longer cached. -/
theorem peek?_foldl_evict {hs : List Handle} {cache : Cache} {h : Handle} (hmem : h ∈ hs)
    (hcached : ∀ k, cache.peek? h.id = some k → k = h) :
    (hs.foldl (fun cache h => (cache.evictInstance h).2) cache).peek? h.id = none := by
  induction hs generalizing cache with
  | nil => cases hmem
  | cons j rest ih =>
    by_cases hrest : h ∈ rest
    · refine ih hrest fun k hk => hcached k ?_
      exact peek?_foldl_evict_le [j] hk
    · obtain rfl : h = j := (List.mem_cons.1 hmem).resolve_right hrest
      cases hafter : ((h :: rest).foldl (fun cache h => (cache.evictInstance h).2) cache).peek?
          h.id with
      | none => rfl
      | some k =>
        have hid := peek?_foldl_evict_le rest hafter
        rw [Cache.peek?_evictInstance] at hid
        split at hid
        · cases hid
        · next hne =>
          obtain rfl := hcached k hid
          exact absurd ⟨rfl, hid⟩ hne

/-- What the cache has for an item after the batch of a log was stored. -/
theorem peek?_settledCache {cache : Cache} (hshared : shared.WellFormed)
    (hcurrent : ∀ h ∈ shared.deletedItems.values, ∀ k, cache.peek? h.id = some k → k = h) :
    (∀ h ∈ shared.addedItems.values, (settledCache cache shared).peek? h.id = some h) ∧
    (∀ h ∈ shared.deletedItems.values, (settledCache cache shared).peek? h.id = none) ∧
    (∀ id, id ∉ shared.addedItems.keys → id ∉ shared.deletedItems.keys →
      (settledCache cache shared).peek? id = cache.peek? id) := by
  have ha : shared.addedItems.values.map Handle.id = shared.addedItems.keys :=
    hshared.map_itemId_values .added
  have hd : shared.deletedItems.values.map Handle.id = shared.deletedItems.keys :=
    hshared.map_itemId_values .deleted
  have hdisjoint : ∀ {id}, id ∈ shared.addedItems.keys → id ∉ shared.deletedItems.keys :=
    fun h h' => absurd (hshared.class_eq .added .deleted h h') (by decide)
  have hnodup : (shared.addedItems.values.map Handle.id).Nodup := ha ▸ shared.addedItems.nodup_keys
  -- every added instance comes in under its own identity
  obtain ⟨hput, hput'⟩ := OrderedMap.look_foldl Cache.peek? some Cache.peek?_put hnodup cache
  refine ⟨fun h hh => ?_, fun h hh => ?_, fun id hna hnd => ?_⟩
  · have hkey : h.id ∈ shared.addedItems.keys := ha ▸ List.mem_map.2 ⟨h, hh, rfl⟩
    rw [settledCache, peek?_foldl_evict_of_not_mem (hd ▸ hdisjoint hkey)]
    exact hput h hh
  · have hkey : h.id ∉ shared.addedItems.keys :=
      fun hid => hdisjoint hid (hd ▸ List.mem_map.2 ⟨h, hh, rfl⟩)
    refine peek?_foldl_evict hh fun k hk => ?_
    rw [hput' _ (ha ▸ hkey)] at hk
    exact hcurrent h hh k hk
  · rw [settledCache, peek?_foldl_evict_of_not_mem (hd ▸ hnd),
      hput' _ (ha ▸ hna)]

/-! ## Everything else -/

/-- What settling a commit leaves alone. -/
def setting (w : Workspace σ) : List Provider × σ × Config × Backend σ × Handle × List Nat × Bool :=
  (w.providers, w.storage, w.config, w.backend, w.root, w.overlays, w.locked)

/-- A commit that settles changes instances, cache and subscribers only. -/
theorem setting_persisted (w : Workspace σ) (shared : ChangeLog Handle) :
    (w.persisted shared).setting = w.setting := by
  have hfold : ∀ (step : Workspace σ → Handle → Workspace σ),
      (∀ w h, (step w h).setting = w.setting) → ∀ (hs : List Handle) (w : Workspace σ),
      (hs.foldl step w).setting = w.setting := fun _ hstep hs w =>
    List.foldlRecOn hs _ (motive := fun v => v.setting = w.setting) rfl
      fun v hv h _ => (hstep v h).trans hv
  unfold persisted
  rw [hfold settleDeleted (fun _ _ => rfl), hfold settleModified (fun _ _ => rfl),
    hfold settleAdded (fun _ _ => rfl)]

/-- A commit that settles keeps the providers. -/
theorem providers_persisted (w : Workspace σ) (shared : ChangeLog Handle) :
    (w.persisted shared).providers = w.providers :=
  congrArg (·.1) (setting_persisted w shared)

/-- A commit that settles keeps the storage. -/
theorem storage_persisted (w : Workspace σ) (shared : ChangeLog Handle) :
    (w.persisted shared).storage = w.storage :=
  congrArg (·.2.1) (setting_persisted w shared)

/-- A commit that settles keeps the configuration. -/
theorem config_persisted (w : Workspace σ) (shared : ChangeLog Handle) :
    (w.persisted shared).config = w.config :=
  congrArg (·.2.2.1) (setting_persisted w shared)

/-- A commit that settles keeps the backend. -/
theorem backend_persisted (w : Workspace σ) (shared : ChangeLog Handle) :
    (w.persisted shared).backend = w.backend :=
  congrArg (·.2.2.2.1) (setting_persisted w shared)

/-- A commit that settles keeps the root. -/
theorem root_persisted (w : Workspace σ) (shared : ChangeLog Handle) :
    (w.persisted shared).root = w.root :=
  congrArg (·.2.2.2.2.1) (setting_persisted w shared)

/-- A commit that settles keeps the overlays. -/
theorem overlays_persisted (w : Workspace σ) (shared : ChangeLog Handle) :
    (w.persisted shared).overlays = w.overlays :=
  congrArg (·.2.2.2.2.2.1) (setting_persisted w shared)

/-- A commit that settles keeps the lock. -/
theorem locked_persisted (w : Workspace σ) (shared : ChangeLog Handle) :
    (w.persisted shared).locked = w.locked :=
  congrArg (·.2.2.2.2.2.2) (setting_persisted w shared)

/-- Subtrees keep their items, whatever reference records they are offered. -/
theorem items_offer (r : NodeReferences) (ns : List Nat) (providers : List Provider) :
    (offer r ns providers).map Provider.items = providers.map Provider.items := by
  induction ns with
  | nil => rfl
  | cons n rest ih =>
    unfold offer
    split
    · exact ih
    · next p hp =>
      split
      · next p' hset =>
        have hitems : p'.items = p.items := by
          simp only [Provider.setReferences] at hset
          split at hset
          · cases hset
          · split at hset <;> cases hset <;> rfl
        rw [List.map_set, hitems]
        refine List.ext_getElem? fun i => ?_
        rw [List.getElem?_set, List.length_map]
        obtain ⟨hlt, hget⟩ := List.getElem?_eq_some_iff.1 hp
        by_cases hi : n = i
        · subst hi
          rw [if_pos rfl, if_pos hlt, List.getElem?_map, hp]
          rfl
        · rw [if_neg hi]
      · exact ih

/-- Delivering records keeps the items of the providers. -/
theorem items_deliver (w : Workspace σ) (records : List NodeReferences) :
    (w.deliver records).providers.map Provider.items = w.providers.map Provider.items :=
  List.foldlRecOn records (fun ps r => offer r w.overlays ps)
    (motive := fun ps => ps.map Provider.items = w.providers.map Provider.items) rfl
    fun ps hps r _ => (items_offer r w.overlays ps).trans hps

/-! ## Telling the sink -/

/-- When a commit is settled its sink reads, and all that its overlays are connected to is held. -/
theorem lookedAt_conclude {sink : Sink σ τ} (hsink : sink.OnlyReads)
    (virtual : List NodeReferences) (c : Commit σ τ) :
    LookedAt (c.held ++ (conclude sink virtual c).log.connections)
      { (c.workspace.persisted c.shared).deliver virtual with locked := false }
      (conclude sink virtual c).workspace :=
  hsink.dispatch _ _ _

end Workspace

end ContentTree
