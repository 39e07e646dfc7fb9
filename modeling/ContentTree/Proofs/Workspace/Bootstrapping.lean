import ContentTree.Proofs.Persistence.Memory
import ContentTree.Proofs.Workspace.Reachable

/-!
# Making the root node

A workspace over a memory has a root node: the one that is stored, or one that is made from the registry
of node types and stored, together with the property that holds its type, in one batch. Any step of the
opening may go wrong (`Mishaps`). Then nothing is stored. If nothing goes wrong the root node is stored once
and for all: whoever opens the memory later finds it and writes nothing (`Workspace.root_made_once`). An empty
memory opened with the usual registry ends like that (`Workspace.openOver_empty`).
-/

namespace ContentTree

variable {σ α : Type}

/-! ## Steps that go wrong -/

/-- What goes wrong with a storage, by the state that it is in: steps that fail, and new states of the
wrong kind. -/
structure Mishaps (σ : Type) where
  contains : σ → ItemId → Option Error
  load : σ → ItemId → Option Error
  store : σ → ChangeSet → Option Error
  createNew : σ → (id : ItemId) → Option { s : ItemState // s.isNode ≠ id.denotesNode }

/-- Nothing goes wrong. -/
def Mishaps.never : Mishaps σ :=
  ⟨fun _ _ => none, fun _ _ => none, fun _ _ => none, fun _ _ => none⟩

namespace Backend

/-- A step that does nothing when there is an error to report. -/
def failing (error? : σ → Option Error) (step : EStateM Error σ α) : EStateM Error σ α := fun s =>
  match error? s with
  | some e => .error e s
  | none => step s

/-- A step that may fail first has succeeded only if the step itself did. -/
theorem ok_of_failing {error? : σ → Option Error} {step : EStateM Error σ α} {s s' : σ} {a : α}
    (h : failing error? step s = .ok a s') : step s = .ok a s' := by
  unfold failing at h
  split at h
  · cases h
  · exact h

/-- A step that may fail first has failed before it began, or as the step itself does. -/
theorem error_of_failing {error? : σ → Option Error} {step : EStateM Error σ α} {s s' : σ} {e : Error}
    (h : failing error? step s = .error e s') : s' = s ∨ step s = .error e s' := by
  unfold failing at h
  split at h
  · cases h
    exact Or.inl rfl
  · exact Or.inr h

/-- A backend with which things go wrong. -/
def withMishaps (b : Backend σ) (p : Mishaps σ) : Backend σ :=
  { b with
    load := fun id => failing (p.load · id) (b.load id)
    contains := fun id => failing (p.contains · id) (b.contains id)
    createNew := fun s id =>
      match p.createNew s id with
      | some other => other.1
      | none => b.createNew s id
    store := fun set => failing (p.store · set) (b.store set) }

variable {b : Backend σ} {p : Mishaps σ}

/-- Without mishaps the backend is the one given. -/
theorem withMishaps_never : b.withMishaps .never = b := rfl

/-- Loading fails as the mishaps say, and else as the backend does. -/
theorem load_withMishaps (id : ItemId) :
    (b.withMishaps p).load id = failing (p.load · id) (b.load id) := rfl

/-- Asking for an item fails as the mishaps say, and else as the backend does. -/
theorem contains_withMishaps (id : ItemId) :
    (b.withMishaps p).contains id = failing (p.contains · id) (b.contains id) := rfl

/-- Storing fails as the mishaps say, and else as the backend does. -/
theorem store_withMishaps (set : ChangeSet) :
    (b.withMishaps p).store set = failing (p.store · set) (b.store set) := rfl

/-- A new state that is of the right kind is the one that the backend makes. -/
theorem createNew_withMishaps (s : σ) (id : ItemId)
    (h : ((b.withMishaps p).createNew s id).isNode = id.denotesNode) :
    (b.withMishaps p).createNew s id = b.createNew s id := by
  unfold withMishaps at h ⊢
  dsimp only at h ⊢
  cases hother : p.createNew s id with
  | none => rfl
  | some other =>
    rw [hother] at h
    exact absurd h other.2

end Backend

namespace MemoryStore

/-- A store holds what another one held, and has applied no further batch. -/
structure Kept (m m' : MemoryStore) : Prop where
  items : m'.items = m.items
  records : m'.records = m.records
  stores : m'.stores = m.stores

variable {p : Mishaps MemoryStore} {m m' : MemoryStore} {id : ItemId} {e : Error}

/-- A memory is kept by doing nothing. -/
theorem Kept.refl (m : MemoryStore) : Kept m m :=
  ⟨rfl, rfl, rfl⟩

/-- A memory with the same contents is kept. -/
theorem Kept.of_contents (h : m'.contents = m.contents) : Kept m m' :=
  ⟨congrArg (·.1) h, congrArg (·.2.1) h, congrArg (·.2.2.1) h⟩

/-- An answer about an item is the right one, and leaves the memory as it was. -/
theorem eq_of_contains {found : Bool} (h : (backend.withMishaps p).contains id m = .ok found m') :
    found = m.items.contains id ∧ m' = m := by
  rw [Backend.contains_withMishaps] at h
  cases Backend.ok_of_failing h
  exact ⟨rfl, rfl⟩

/-- A failed question keeps the memory. -/
theorem kept_of_contains_error (h : (backend.withMishaps p).contains id m = .error e m') : m.Kept m' := by
  rw [Backend.contains_withMishaps] at h
  rcases Backend.error_of_failing h with rfl | herror
  · exact .refl _
  · cases herror

/-- An item that is loaded is the one held, and the memory is kept. -/
theorem kept_of_load {state : ItemState} (h : (backend.withMishaps p).load id m = .ok state m') :
    m.items.get? id = some state ∧ m.Kept m' := by
  rw [Backend.load_withMishaps] at h
  have hload := Backend.ok_of_failing h
  refine ⟨Backend.overMemory_memory.loaded hload, .of_contents ?_⟩
  have hnext := (Backend.Queried.refl (b := backend) m).load id
  rw [stateAfter_of_ok hload] at hnext
  exact contents_queried hnext

/-- A failed load keeps the memory. -/
theorem kept_of_load_error (h : (backend.withMishaps p).load id m = .error e m') : m.Kept m' := by
  rw [Backend.load_withMishaps] at h
  rcases Backend.error_of_failing h with rfl | hload
  · exact .refl _
  · have hnext := (Backend.Queried.refl (b := backend) m).load id
    rw [stateAfter_of_error hload] at hnext
    exact .of_contents (contents_queried hnext)

/-- A store that succeeds makes the changes of its batch. -/
theorem eq_applied_of_store_withMishaps {set : ChangeSet}
    (h : (backend.withMishaps p).store set m = .ok () m') : m' = m.applied set := by
  rw [Backend.store_withMishaps] at h
  exact eq_applied_of_store (Backend.ok_of_failing h)

/-- A failed store is not counted. -/
theorem stores_of_store_error {set : ChangeSet} (h : backend.store set m = .error e m') :
    m'.stores = m.stores := by
  rw [store_eq, apply_eq] at h
  split at h
  · cases h
    rfl
  · split at h <;> cases h
    rfl

/-- A failed store keeps the memory. -/
theorem kept_of_store_error {set : ChangeSet} (h : (backend.withMishaps p).store set m = .error e m') :
    m.Kept m' := by
  rw [Backend.store_withMishaps] at h
  rcases Backend.error_of_failing h with rfl | hstore
  · exact .refl _
  · exact ⟨items_of_store_error hstore, records_of_store_error hstore, stores_of_store_error hstore⟩

end MemoryStore

namespace Workspace

variable {b : Backend σ} {config : Config} {registry : Registry}

/-! ## The steps of an opening -/

/-- Opening over an existing root loads it, and fails if it cannot be loaded. -/
theorem openExisting_eq (config : Config) (b : Backend σ) (s : Shared σ) :
    openExisting config b s = match b.load (.node config.rootNode) s.storage with
      | .error e t => .error e { s with storage := t }
      | .ok root t => .ok (aroundLoaded config b { s with storage := t } root)
          (aroundLoaded config b { s with storage := t } root).toShared := by
  cases hload : b.load (.node config.rootNode) s.storage with
  | error e t =>
    have hstep : prepareStorage (b.load (.node config.rootNode)) s = .error e { s with storage := t } := by
      rw [prepareStorage, Backend.onPart, hload]
    exact bind_of_error hstep
  | ok root t => exact bind_of_ok (onPart_of_ok hload)

/-- Opening without a root makes one and stores it, and fails if either fails. -/
theorem openFresh_eq (config : Config) (b : Backend σ) (registry : Registry) (s : Shared σ) :
    openFresh config b registry s = match rootStates config.rootNode b s.storage registry with
      | .error e => .error e s
      | .ok (node, property) =>
        match b.store ((rootLog config s.heap node property).changeSet
          (rootInstances s.heap node property).2.2) s.storage with
        | .error e t => .error e { s with heap := (rootInstances s.heap node property).2.2, storage := t }
        | .ok () t =>
          let w := (aroundMade config b { s with storage := t } node property).persisted
            (rootLog config s.heap node property)
          .ok w w.toShared := by
  rw [openFresh, get_bind]
  cases hroot : rootStates config.rootNode b s.storage registry with
  | error e => rfl
  | ok states =>
    obtain ⟨node, property⟩ := states
    dsimp only
    -- the two instances are made before their batch is stored
    show (prepareStorage _ >>= fun _ => _ : Preparation σ (Workspace σ))
      { s with heap := (rootInstances s.heap node property).2.2 } = _
    cases hstore : b.store ((rootLog config s.heap node property).changeSet
      (rootInstances s.heap node property).2.2) s.storage with
    | error e t =>
      have hstep : prepareStorage (b.store ((rootLog config s.heap node property).changeSet
          (rootInstances s.heap node property).2.2))
          { s with heap := (rootInstances s.heap node property).2.2 } =
          .error e { s with heap := (rootInstances s.heap node property).2.2, storage := t } := by
        rw [prepareStorage, Backend.onPart, hstore]
      exact bind_of_error hstep
    | ok u t => exact bind_of_ok (onPart_of_ok hstore)

/-- Opening asks whether there is a root, and goes on accordingly. -/
theorem openOver_eq (config : Config) (b : Backend σ) (registry : Registry) (s : Shared σ) :
    openOver config b registry s = match b.contains (.node config.rootNode) s.storage with
      | .error e t => .error e { s with storage := t }
      | .ok true t => openExisting config b { s with storage := t }
      | .ok false t => openFresh config b registry { s with storage := t } := by
  cases hcontains : b.contains (.node config.rootNode) s.storage with
  | error e t =>
    have hstep : prepareStorage (b.contains (.node config.rootNode)) s =
        .error e { s with storage := t } := by
      rw [prepareStorage, Backend.onPart, hcontains]
    exact bind_of_error hstep
  | ok found t =>
    have hstep : prepareStorage (b.contains (.node config.rootNode)) s =
        .ok found { s with storage := t } := onPart_of_ok hcontains
    cases found <;> exact bind_of_ok hstep

/-! ## The states that are made -/

/-- The definition allows the property with a node's type. -/
def AllowsType (d : PropertyDefinition) : Prop :=
  d.name = .primaryType ∧ d.multiple = false ∧ (d.requiredType = .name ∨ d.requiredType = .undefined)

/-- The first definition of the root type that allows the property with a node's type. -/
def IsTypeDefinition (registry : Registry) (d : PropertyDefinition) : Prop :=
  ∃ type before after, registry.types.get? .root = some type ∧ type.properties = before ++ d :: after ∧
    AllowsType d ∧ ∀ other ∈ before, ¬AllowsType other

/-- The root node that is made. -/
def madeNode (root : NodeId) (registry : Registry) : ItemState where
  id := .node root
  status := .existing
  modCount := 0
  data := .node
    { parent := none
      type := .root
      mixins := ∅
      definition := some registry.rootDefinition
      children := []
      properties := ⟨[.primaryType], List.pairwise_singleton _ _⟩ }

/-- The identity of the property with the type of a root node. -/
def typeId (root : NodeId) : ItemId :=
  .property ⟨root, .primaryType⟩

/-- The property with the type of the root node that is made. -/
def madeProperty (root : NodeId) (d : PropertyDefinition) : ItemState where
  id := typeId root
  status := .existing
  modCount := 0
  data := .property
    { type := d.requiredType
      multiValued := d.multiple
      definition := some d.id
      values := [.name .root] }

/-- A definition applies to the primary type if it allows that name. -/
theorem applies_iff (d : PropertyDefinition) : d.applies .primaryType .name false = true ↔ AllowsType d := by
  simp only [PropertyDefinition.applies, AllowsType, decide_eq_true_iff, reduceCtorEq, or_false]

/-- The root is made from the definition of its type and from one of the definitions of that type. -/
theorem rootDefinitions_ok {definition : DefinitionId} {d : PropertyDefinition}
    (h : rootDefinitions registry = .ok (definition, d)) :
    definition = registry.rootDefinition ∧ IsTypeDefinition registry d := by
  unfold rootDefinitions Registry.nodeType at h
  cases htype : registry.types.get? .root with
  | none =>
    rw [htype] at h
    cases h
  | some type =>
    rw [htype] at h
    replace h : (type.applicable .primaryType .name false >>= fun d =>
      pure (registry.rootDefinition, d)) = .ok (definition, d) := h
    unfold NodeType.applicable at h
    cases hfind : type.properties.find? (·.applies .primaryType .name false) with
    | none =>
      rw [hfind] at h
      cases h
    | some found =>
      rw [hfind] at h
      cases h
      obtain ⟨hd, before, after, hsplit, hbefore⟩ := List.find?_eq_some_iff_append.1 hfind
      refine ⟨rfl, type, before, after, htype, hsplit, (applies_iff d).1 hd, fun other hother hallows => ?_⟩
      have hnot := hbefore other hother
      rw [(applies_iff other).2 hallows] at hnot
      cases hnot

variable {p : Mishaps MemoryStore}

/-- The states of a root node and its property, when they were made. -/
theorem rootStates_ok {root : NodeId} {m : MemoryStore} {node property : ItemState}
    (h : rootStates root (MemoryStore.backend.withMishaps p) m registry = .ok (node, property)) :
    ∃ d, IsTypeDefinition registry d ∧ node = (madeNode root registry).withStatus .new ∧
      property = (madeProperty root d).withStatus .new := by
  unfold rootStates at h
  split at h
  · cases h
  · next definition d hdefinitions =>
    obtain ⟨rfl, hd⟩ := rootDefinitions_ok hdefinitions
    have hname : d.name = .primaryType := by
      obtain ⟨-, -, -, -, -, hallows, -⟩ := hd
      exact hallows.1
    dsimp only at h
    split at h
    · cases h
    · next n hn =>
      -- neither state was there, so both are the ones made
      have hfresh := Backend.createNew_withMishaps (b := MemoryStore.backend) (p := p) m (.node root)
        (by rw [ItemState.isNode, hn]; rfl)
      split at h
      · cases h
      · next q hq =>
        have hfresh' := Backend.createNew_withMishaps (b := MemoryStore.backend) (p := p) m
          (.property ⟨root, d.name⟩) (by rw [ItemState.isNode, hq]; rfl)
        rw [hfresh] at h hn
        rw [hfresh'] at h hq
        cases hn
        cases hq
        cases h
        refine ⟨d, hd, ?_, ?_⟩
        · rw [hname]
          rfl
        · rw [hname]
          rfl

/-! ## The batch that stores them -/

section Batch

variable {heap : Heap} {node property : ItemState} {m : MemoryStore}

/-- The log of a fresh root adds the node and its property. -/
theorem values_rootLog (hne : property.id ≠ node.id) :
    (rootLog config heap node property).addedItems.values =
      [(rootInstances heap node property).1, (rootInstances heap node property).2.1] := by
  show (OrderedMap.insert (OrderedMap.insert .empty node.id (rootInstances heap node property).1)
    property.id (rootInstances heap node property).2.1).values = _
  rw [OrderedMap.values, OrderedMap.entries_insert_of_not_mem]
  · rfl
  · rw [OrderedMap.mem_keys_insert, not_or]
    exact ⟨List.not_mem_nil, hne⟩

/-- The two instances of a fresh root hold the node and the property. -/
theorem read_rootInstances (heap : Heap) (node property : ItemState) :
    (rootInstances heap node property).2.2.read (rootInstances heap node property).1 = node ∧
      (rootInstances heap node property).2.2.read (rootInstances heap node property).2.1 = property :=
  ⟨(Heap.read_alloc_of_valid (Heap.valid_alloc heap node) property).trans (Heap.read_alloc heap node),
    Heap.read_alloc _ property⟩

/-- The log of a fresh root is stored as a batch that adds the node and the property. -/
theorem changeSet_rootLog (hne : property.id ≠ node.id) :
    (rootLog config heap node property).changeSet (rootInstances heap node property).2.2 =
      ⟨[node, property], [], [], []⟩ := by
  obtain ⟨hread, hread'⟩ := read_rootInstances heap node property
  rw [ChangeLog.changeSet, values_rootLog hne, List.map_cons, List.map_singleton, hread, hread']
  rfl

/-- What was made comes into the cache, as existing. -/
theorem settled_rootLog {s : Shared σ} {k : Handle}
    (hk : k ∈ (rootLog config s.heap node property).addedItems.values) :
    let w := (aroundMade config b s node property).persisted (rootLog config s.heap node property)
    w.cache.peek? k.id = some k ∧
      w.heap.read k = ((rootInstances s.heap node property).2.2.read k).withStatus .existing := by
  intro w
  have hwf := wellFormed_rootLog config s.heap node property
  have hvalid := valid_rootLog config s.heap node property
  have hnodup : (rootLog config s.heap node property).states.Nodup :=
    .of_map Tracked.itemId (hwf.map_itemId_states ▸ hwf.nodup_scope)
  have hempty : ∀ h ∈ (rootLog config s.heap node property).deletedItems.values, ∀ other,
      Cache.empty.peek? h.id = some other → other = h := fun _ _ _ hother => by cases hother
  refine ⟨?_, ?_⟩
  · rw [cache_persisted]
    exact (peek?_settledCache hwf hempty).1 k hk
  · rw [heap_persisted]
    exact (read_settledHeap hvalid hnodup (hvalid k (ChangeLog.mem_states.2 ⟨.added, hk⟩))).1 .added hk

end Batch

/-! ## Opening a memory -/

/-- The root node of a workspace is the one that is stored, and is found in the cache. -/
structure ServesRoot (root : NodeId) (w : Workspace MemoryStore) : Prop where
  stored : ∃ state, w.storage.items.get? (.node root) = some state ∧
    w.heap.read w.root = state.withStatus .existing
  cached : w.cache.peek? (.node root) = some w.root

/-- A root node and the property with its type were added to what a memory held, and to nothing else, and
are cached. -/
structure RootMade (root : NodeId) (registry : Registry) (d : PropertyDefinition) (m : MemoryStore)
    (w : Workspace MemoryStore) : Prop where
  definition : IsTypeDefinition registry d
  node : w.storage.items.get? (.node root) = some (madeNode root registry)
  property : w.storage.items.get? (typeId root) = some (madeProperty root d)
  others : ∀ id, id ≠ .node root → id ≠ typeId root → w.storage.items.get? id = m.items.get? id
  records : w.storage.records = m.records
  stores : w.storage.stores = m.stores + 1
  node_read : w.heap.read w.root = madeNode root registry
  node_cached : w.cache.peek? (.node root) = some w.root
  property_cached : ∃ h, w.cache.peek? (typeId root) = some h ∧ w.heap.read h = madeProperty root d

/-- A workspace whose root was made serves its root. -/
theorem RootMade.servesRoot {root : NodeId} {d : PropertyDefinition} {m : MemoryStore}
    {w : Workspace MemoryStore} (h : RootMade root registry d m w) : ServesRoot root w :=
  ⟨⟨_, h.node, h.node_read⟩, h.node_cached⟩

/-- A workspace around a loaded root has it cached. -/
theorem peek?_root_aroundLoaded {s : Shared σ} {state : ItemState} :
    (aroundLoaded config b s state).cache.peek? (.node config.rootNode) =
      some (aroundLoaded config b s state).root := by
  show (Cache.empty.putLoaded s.heap (.node config.rootNode) state).2.1.peek? _ = _
  rw [Cache.peek?_putLoaded, if_pos rfl]
  rfl

/-- Over a memory, opening an existing root serves it, and the memory is kept in any case. -/
theorem openExisting_memory (config : Config) (p : Mishaps MemoryStore) (s : Shared MemoryStore) :
    match openExisting config (MemoryStore.backend.withMishaps p) s with
    | .error _ s' => s.storage.Kept s'.storage
    | .ok w s' => w.toShared = s' ∧ s.storage.Kept s'.storage ∧ ServesRoot config.rootNode w := by
  rw [openExisting_eq]
  cases hload : (MemoryStore.backend.withMishaps p).load (.node config.rootNode) s.storage with
  | error e t => exact MemoryStore.kept_of_load_error hload
  | ok state t =>
    obtain ⟨hstate, hkept⟩ := MemoryStore.kept_of_load hload
    refine ⟨rfl, hkept, ⟨state, ?_, Heap.read_alloc _ _⟩, peek?_root_aroundLoaded⟩
    show t.items.get? _ = _
    rw [hkept.items, hstate]

/-- What a memory holds after the batch of a new root node. -/
theorem get?_applied_made {root : NodeId} {d : PropertyDefinition} {node property : ItemState}
    (hnode : node = (madeNode root registry).withStatus .new)
    (hproperty : property = (madeProperty root d).withStatus .new) (m : MemoryStore) (id : ItemId) :
    (m.applied ⟨[node, property], [], [], []⟩).items.get? id =
      if id = typeId root then some (madeProperty root d)
      else if id = .node root then some (madeNode root registry)
      else m.items.get? id := by
  rw [hnode, hproperty]
  show (OrderedMap.insert (OrderedMap.insert m.items (.node root) (madeNode root registry)) (typeId root)
    (madeProperty root d)).get? id = _
  rw [OrderedMap.get?_insert, OrderedMap.get?_insert]

/-- What the batch of a new root node makes of a memory and of the workspace. -/
theorem rootMade_of_batch {m : MemoryStore} {t : Shared MemoryStore} {b : Backend MemoryStore}
    {node property : ItemState} {d : PropertyDefinition} (hd : IsTypeDefinition registry d)
    (hnode : node = (madeNode config.rootNode registry).withStatus .new)
    (hproperty : property = (madeProperty config.rootNode d).withStatus .new)
    (hstored : t.storage = m.applied ⟨[node, property], [], [], []⟩) :
    RootMade config.rootNode registry d m
      ((aroundMade config b t node property).persisted (rootLog config t.heap node property)) := by
  have hne : typeId config.rootNode ≠ .node config.rootNode := fun h => by cases h
  have hid : (rootInstances t.heap node property).1.id = .node config.rootNode := by
    rw [hnode]
    rfl
  have hid' : (rootInstances t.heap node property).2.1.id = typeId config.rootNode := by
    rw [hproperty]
    rfl
  have hvalues : (rootLog config t.heap node property).addedItems.values =
      [(rootInstances t.heap node property).1, (rootInstances t.heap node property).2.1] :=
    values_rootLog (by rw [hnode, hproperty]; exact hne)
  obtain ⟨hread, hread'⟩ := read_rootInstances t.heap node property
  -- both instances are among the added ones, so both are settled and cached
  obtain ⟨hcached, hsettled⟩ := settled_rootLog (b := b) (hvalues ▸ List.mem_cons_self ..)
  obtain ⟨hcached', hsettled'⟩ :=
    settled_rootLog (b := b) (hvalues ▸ List.mem_cons_of_mem _ (List.mem_cons_self ..))
  have hstorage := (storage_persisted (aroundMade config b t node property)
    (rootLog config t.heap node property)).trans hstored
  have hget := get?_applied_made hnode hproperty m
  refine
    { definition := hd
      node := ?_
      property := ?_
      others := fun id hnode htype => ?_
      records := (congrArg MemoryStore.records hstorage).trans rfl
      stores := (congrArg MemoryStore.stores hstorage).trans rfl
      node_read := ?_
      node_cached := ?_
      property_cached := ⟨(rootInstances t.heap node property).2.1, hid' ▸ hcached', ?_⟩ }
  · rw [hstorage]
    exact (hget _).trans ((if_neg hne.symm).trans (if_pos rfl))
  · rw [hstorage]
    exact (hget _).trans (if_pos rfl)
  · rw [hstorage]
    exact (hget id).trans ((if_neg htype).trans (if_neg hnode))
  · rw [root_persisted]
    refine hsettled.trans ?_
    rw [hread, hnode]
    rfl
  · rw [root_persisted]
    exact hid ▸ hcached
  · refine hsettled'.trans ?_
    rw [hread', hproperty]
    rfl

/-- Over a memory, opening without a root makes one, and the memory is kept if it fails. -/
theorem openFresh_memory (config : Config) (registry : Registry) (p : Mishaps MemoryStore)
    (s : Shared MemoryStore) :
    match openFresh config (MemoryStore.backend.withMishaps p) registry s with
    | .error _ s' => s.storage.Kept s'.storage
    | .ok w s' => w.toShared = s' ∧ ∃ d, RootMade config.rootNode registry d s.storage w := by
  rw [openFresh_eq]
  cases hstates : rootStates config.rootNode (MemoryStore.backend.withMishaps p) s.storage registry with
  | error e => exact .refl _
  | ok states =>
    obtain ⟨node, property⟩ := states
    obtain ⟨d, hd, hnode, hproperty⟩ := rootStates_ok hstates
    have hbatch : (rootLog config s.heap node property).changeSet (rootInstances s.heap node property).2.2 =
        ⟨[node, property], [], [], []⟩ :=
      changeSet_rootLog (by rw [hnode, hproperty]; exact fun h => by cases h)
    dsimp only
    cases hstore : (MemoryStore.backend.withMishaps p).store ((rootLog config s.heap node property).changeSet
      (rootInstances s.heap node property).2.2) s.storage with
    | error e t => exact MemoryStore.kept_of_store_error hstore
    | ok u t =>
      rw [hbatch] at hstore
      obtain rfl := MemoryStore.eq_applied_of_store_withMishaps hstore
      exact ⟨rfl, d, rootMade_of_batch hd hnode hproperty rfl⟩

/-- A memory that holds a root node is opened, and nothing is written. -/
theorem exists_openOver_of_stored (config : Config) (registry : Registry) {s : Shared MemoryStore}
    {state : ItemState} (hstate : s.storage.items.get? (.node config.rootNode) = some state) :
    ∃ w s', openOver config MemoryStore.backend registry s = .ok w s' ∧ s.storage.Kept s'.storage ∧
      w.cache.peek? (.node config.rootNode) = some w.root ∧
      w.heap.read w.root = state.withStatus .existing := by
  have hcontains : MemoryStore.backend.contains (.node config.rootNode) s.storage = .ok true s.storage := by
    show EStateM.Result.ok (s.storage.items.contains _) _ = _
    rw [OrderedMap.contains_eq_isSome, hstate]
    rfl
  have hopen : openOver config MemoryStore.backend registry s =
      .ok (aroundLoaded config MemoryStore.backend
        { s with storage := { s.storage with loads := s.storage.loads + 1 } } state)
      (aroundLoaded config MemoryStore.backend
        { s with storage := { s.storage with loads := s.storage.loads + 1 } } state).toShared := by
    rw [openOver_eq, hcontains]
    dsimp only
    rw [openExisting_eq, MemoryStore.load_eq, hstate]
  exact ⟨_, _, hopen, ⟨rfl, rfl, rfl⟩, peek?_root_aroundLoaded, Heap.read_alloc _ _⟩

/-- So is a memory from which a workspace serves its root node, whoever opens it. -/
theorem ServesRoot.openLater {root : NodeId} {w : Workspace MemoryStore} (hw : ServesRoot root w)
    {later : Config} (other : Registry) {t : Shared MemoryStore} (hroot : later.rootNode = root)
    (hitems : t.storage.items = w.storage.items) :
    ∃ w' t', openOver later MemoryStore.backend other t = .ok w' t' ∧ t.storage.Kept t'.storage ∧
      w'.cache.peek? (.node root) = some w'.root ∧
      (w'.heap.read w'.root).data = (w.heap.read w.root).data := by
  obtain ⟨state, hstate, hread⟩ := hw.stored
  rw [← hitems, ← hroot] at hstate
  obtain ⟨w', t', hopen, hkept, hcached, hread'⟩ := exists_openOver_of_stored later other hstate
  refine ⟨w', t', hopen, hkept, hroot ▸ hcached, ?_⟩
  rw [hread, hread']

/-- **The root node is made once, and wholly or not at all.** If a memory is opened and something goes
wrong, the memory holds what it held. If the opening succeeds and there was a root node, nothing was
written; if there was none, it was made, and nothing else changed. Whoever opens the memory later, without
anything going wrong, writes nothing and is served a root node with the same data. -/
theorem root_made_once (config : Config) (registry : Registry) (p : Mishaps MemoryStore)
    (s : Shared MemoryStore) :
    match openOver config (MemoryStore.backend.withMishaps p) registry s with
    | .error _ s' => s.storage.Kept s'.storage
    | .ok w s' => w.toShared = s' ∧
      (s.storage.items.contains (.node config.rootNode) = true → s.storage.Kept s'.storage) ∧
      (s.storage.items.contains (.node config.rootNode) = false →
        ∃ d, RootMade config.rootNode registry d s.storage w) ∧
      ∀ (later : Config) (other : Registry) (t : Shared MemoryStore), later.rootNode = config.rootNode →
        t.storage.items = s'.storage.items →
        ∃ w' t', openOver later MemoryStore.backend other t = .ok w' t' ∧ t.storage.Kept t'.storage ∧
          w'.cache.peek? (.node config.rootNode) = some w'.root ∧
          (w'.heap.read w'.root).data = (w.heap.read w.root).data := by
  rw [openOver_eq]
  cases hcontains : (MemoryStore.backend.withMishaps p).contains (.node config.rootNode) s.storage with
  | error e m => exact MemoryStore.kept_of_contains_error hcontains
  | ok found m =>
    obtain ⟨rfl, rfl⟩ := MemoryStore.eq_of_contains hcontains
    cases hfound : s.storage.items.contains (.node config.rootNode) with
    | true =>
      have hrun := openExisting_memory config p s
      dsimp only
      cases hopen : openExisting config (MemoryStore.backend.withMishaps p) s with
      | error e s' =>
        rw [hopen] at hrun
        exact hrun
      | ok w s' =>
        rw [hopen] at hrun
        obtain ⟨rfl, hkept, hserves⟩ := hrun
        exact ⟨rfl, fun _ => hkept, nofun, fun _ other _ => hserves.openLater other⟩
    | false =>
      have hrun := openFresh_memory config registry p s
      dsimp only
      cases hopen : openFresh config (MemoryStore.backend.withMishaps p) registry s with
      | error e s' =>
        rw [hopen] at hrun
        exact hrun
      | ok w s' =>
        rw [hopen] at hrun
        obtain ⟨rfl, d, hmade⟩ := hrun
        exact ⟨rfl, nofun, fun _ => ⟨d, hmade⟩, fun _ other _ => hmade.servesRoot.openLater other⟩

/-- An empty memory that is opened with the registry that knows the type of the root node only has the root
made in it. -/
theorem openOver_empty : ∃ w d, openOver ⟨"default", default, 0, none, 0⟩ MemoryStore.backend
      Registry.default ⟨∅, [], ∅⟩ = .ok w w.toShared ∧ RootMade default Registry.default d ∅ w := by
  obtain ⟨w, hopen⟩ : ∃ w, openFresh ⟨"default", default, 0, none, 0⟩ MemoryStore.backend
      Registry.default ⟨∅, [], ∅⟩ = .ok w w.toShared := ⟨_, rfl⟩
  have hrun := openFresh_memory ⟨"default", default, 0, none, 0⟩ Registry.default .never ⟨∅, [], ∅⟩
  rw [Backend.withMishaps_never, hopen] at hrun
  obtain ⟨-, d, hmade⟩ := hrun
  exact ⟨w, d, hopen, hmade⟩

end Workspace

end ContentTree
