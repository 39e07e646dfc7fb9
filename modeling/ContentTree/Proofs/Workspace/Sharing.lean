import ContentTree.Proofs.Persistence.Memory
import ContentTree.Proofs.Workspace.Failure

/-!
# One instance for each item

All clients of a workspace work on the same instance of an item, as long as no commit adds an item of
which somebody has an instance that is neither given up nor gone (`Run.single`). The instance that a
commit makes for an added item takes the place of whatever the cache had for it; where two sessions add
one item and both commits succeed, each of them keeps an instance of its own (`two_instances`).

`Tied` is the invariant: an instance in use that somebody holds is the one that the cache has for its
item.
-/

namespace ContentTree

/-- A backend that answers under the identities it is asked for, as long as its storage is `ok`. -/
structure Backend.Truthful {σ : Type} (b : Backend σ) (ok : σ → Prop) : Prop where
  id_load : ∀ {id s state s'}, ok s → b.load id s = .ok state s' → state.id = id
  asked : ∀ {s s'}, ok s → b.Queried s s' → ok s'
  stored : ∀ set {s}, ok s → ok (stateAfter (b.store set) s)
  id_createNew : ∀ s id, (b.createNew s id).id = id

/-- A keyed memory answers with items of the identity asked for. -/
theorem MemoryStore.truthful_backend : backend.Truthful fun m => Keyed m.items where
  id_load hm hload := hm _ _ (Backend.overMemory_memory.loaded hload)
  asked {m m'} hm h := by
    show Keyed m'.items
    rw [items_queried h]
    exact hm
  stored set {m} hm := by
    show Keyed (stateAfter (backend.store set) m).items
    cases hstore : backend.store set m with
    | ok u m' =>
      rw [stateAfter_of_ok hstore, eq_applied_of_store hstore]
      exact Keyed.applied hm set
    | error e m' =>
      rw [stateAfter_of_error hstore, items_of_store_error hstore]
      exact hm
  id_createNew _ id := by cases id <;> rfl

/-- Every entry of a cache is found under the identity that its handle carries. -/
def Cache.Keyed (c : Cache) : Prop :=
  ∀ id h, c.peek? id = some h → h.id = id

namespace Workspace

section

variable {σ τ : Type} {b : Backend σ} {ok : σ → Prop} {held : List Handle} {w w' : Workspace σ}

/-- Settling keeps the cache keyed. -/
theorem keyed_settledCache {cache : Cache} (hc : cache.Keyed) (shared : ChangeLog Handle) :
    (settledCache cache shared).Keyed := by
  intro id h hid
  -- taking out adds nothing, and an added instance comes in under its own identity
  replace hid := peek?_foldl_evict_le _ hid
  generalize shared.addedItems.values = hs at hid
  induction hs generalizing cache with
  | nil => exact hc id h hid
  | cons k rest ih =>
    refine ih (fun id' h' hid' => ?_) hid
    rw [Cache.peek?_put] at hid'
    split at hid'
    · next heq =>
      cases hid'
      exact heq.symm
    · exact hc id' h' hid'

/-- Reading puts in loaded items only, each under its identity. -/
theorem LookedAt.keyed (hb : b.Truthful ok) (hback : w.backend = b) (hok : ok w.storage)
    (hw : w.cache.Keyed) (h : w.LookedAt held w') : w'.cache.Keyed := by
  intro id k hk
  rcases h.entry hk with hold | hnew
  · exact hw id k hold
  · obtain ⟨t, s, t', hasked, hload, hread⟩ := hnew.content
    rw [hback] at hasked hload
    have hid := hb.id_load (hb.asked hok hasked) hload
    rw [← hnew.valid.read_id, hread]
    exact hid

/-! ## Instances in use, after a commit was settled -/

/-- An instance that is in use: neither given up nor gone. -/
def Live (w : Workspace σ) (h : Handle) : Prop :=
  (w.heap.read h).status.isTerminal = false

/-- Settling a commit makes an instance that it came to the cached one, unless it is gone. -/
theorem peek?_settle_of_mem {c₀ c : Commit σ τ} (hc : Commit.Underway c₀ c)
    (hsub : c₀.workspace.subtrees = []) {h : Handle} (hmem : h ∈ c.shared.states)
    (hlive : (c.workspace.persisted c.shared).Live h) :
    (c.workspace.persisted c.shared).cache.peek? h.id = some h := by
  obtain ⟨hin, -, hsame⟩ := peek?_settledCache hc.wellFormed (hc.deleted_eq hsub)
  obtain ⟨cls, hcls⟩ := ChangeLog.mem_states.1 hmem
  have hkey : h.id ∈ (c.shared.itemsOf cls).keys := hc.wellFormed.mem_keys hcls
  have hread := (read_settledHeap hc.valid_states hc.nodup_states (hc.valid hcls)).1 cls hcls
  rw [Live, heap_persisted, hread] at hlive
  rw [cache_persisted]
  cases cls with
  | added => exact hin h hcls
  | deleted => cases hlive
  | modified =>
    rw [hsame h.id (fun ha => ?_) fun hd => ?_]
    · exact hc.cached hsub (by decide) hcls
    · exact absurd (hc.wellFormed.class_eq .modified .added hkey ha) (by decide)
    · exact absurd (hc.wellFormed.class_eq .modified .deleted hkey hd) (by decide)

/-- Settling a commit leaves an instance that it did not come to in the cache, unless it made one for
the same item. -/
theorem peek?_settle_of_not_mem {c₀ c : Commit σ τ} (hc : Commit.Underway c₀ c)
    (hsub : c₀.workspace.subtrees = []) {h : Handle} (hmem : h ∉ c.shared.states)
    (hadded : h.id ∉ c.shared.addedItems.keys) (hcached : c.workspace.cache.peek? h.id = some h) :
    (c.workspace.persisted c.shared).cache.peek? h.id = some h := by
  obtain ⟨-, -, hsame⟩ := peek?_settledCache hc.wellFormed (hc.deleted_eq hsub)
  rw [cache_persisted, hsame h.id hadded, hcached]
  intro hd
  -- the deleted instance of an item is the cached one
  obtain ⟨k, hk, hid⟩ := hc.wellFormed.exists_of_mem_keys .deleted hd
  have hpeek : c.workspace.cache.peek? k.id = some h := by
    rw [show k.id = h.id from hid]
    exact hcached
  obtain rfl := hc.deleted_eq hsub k hk h hpeek
  exact hmem (ChangeLog.mem_states.2 ⟨.deleted, hk⟩)

/-! ## The invariant -/

/-- Every instance in use that somebody holds is the one that the cache has for its item. -/
structure Tied (b : Backend σ) (ok : σ → Prop) (w : Workspace σ) (held : List Handle) : Prop where
  ready : w.Ready b
  overlays : w.overlays = []
  storage : ok w.storage
  keyed : w.cache.Keyed
  valid : ∀ h ∈ held, w.heap.Valid h
  current : ∀ h ∈ held, w.Live h → w.cache.peek? h.id = some h

/-- No instance in use is held of an item that a log adds. -/
def Untwinned (w : Workspace σ) (held : List Handle) (log : ChangeLog LocalItem) : Prop :=
  ∀ h ∈ held, (w.heap.read h).id ∈ log.addedItems.keys → ¬w.Live h

namespace Tied

/-- What is tied for some instances held is tied for fewer. -/
theorem mono {less : List Handle} (hw : Tied b ok w held) (hless : ∀ h ∈ less, h ∈ held) :
    Tied b ok w less :=
  { hw with
    valid := fun h hh => hw.valid h (hless h hh)
    current := fun h hh => hw.current h (hless h hh) }

/-- Somebody takes hold of the cached instance of an item. -/
theorem take (hw : Tied b ok w held) {id : ItemId} {h : Handle} (hh : w.cache.peek? id = some h) :
    Tied b ok w (h :: held) := by
  refine { hw with valid := fun k hk => ?_, current := fun k hk hlive => ?_ }
  · rcases List.mem_cons.1 hk with rfl | hk
    · exact hw.ready.sound.cached hh
    · exact hw.valid k hk
  · rcases List.mem_cons.1 hk with rfl | hk
    · rw [hw.keyed id k hh]
      exact hh
    · exact hw.current k hk hlive

/-- A workspace stays tied while it is looked at. -/
theorem look (hb : b.Truthful ok) (hw : Tied b ok w held) (h : w.LookedAt held w') :
    Tied b ok w' held where
  ready := hw.ready.look h
  overlays := h.overlays.trans hw.overlays
  storage := by
    apply hb.asked hw.storage
    rw [← hw.ready.backend]
    exact h.storage
  keyed := h.keyed hb hw.ready.backend hw.storage hw.keyed
  valid k hk := h.heap.valid (hw.valid k hk)
  current k hk hlive := by
    unfold Live at hlive
    rw [h.heap.read (hw.valid k hk)] at hlive
    exact h.kept (hw.current k hk hlive) hk

/-- How the workspace of a commit stands before data is pushed. -/
theorem connecting (hb : b.Truthful ok) (hw : Tied b ok w held) {t : τ}
    {log : ChangeLog LocalItem} {records : List NodeReferences} {c : Commit σ τ}
    {done : List (ChangeLog.Class × ItemId)}
    (hc : Commit.Connecting (begin w t held log records) done c) :
    c.workspace.backend = b ∧ ok c.workspace.storage ∧ c.workspace.cache.Keyed := by
  have hlook : LookedAt held { w with locked := true } c.workspace := hc.looked
  have hback : ({ w with locked := true } : Workspace σ).backend = b := hw.ready.backend
  refine ⟨hlook.backend.trans hback, ?_, hlook.keyed hb hback hw.storage hw.keyed⟩
  apply hb.asked hw.storage
  rw [← hback]
  exact hlook.storage

/-- How the workspace of a commit stands that goes wrong: a batch that was refused may have cost
something. -/
theorem stopped (hb : b.Truthful ok) (hw : Tied b ok w held) {t : τ} {log : ChangeLog LocalItem}
    {records : List NodeReferences} {c : Commit σ τ}
    (hc : Commit.Stopped (begin w t held log records) c) :
    c.workspace.backend = b ∧ ok c.workspace.storage ∧ c.workspace.cache.Keyed := by
  obtain ⟨done, before, heap, storage, hbefore, -, hstored, rfl⟩ := hc
  obtain ⟨hback, hok, hkeyed⟩ := hw.connecting hb hbefore
  refine ⟨hback, ?_, hkeyed⟩
  show ok storage
  rcases hstored with rfl | ⟨e, hrefused⟩
  · exact hok
  · rw [hback] at hrefused
    have hafter := hb.stored (before.shared.changeSet heap) hok
    rwa [stateAfter_of_error hrefused] at hafter

/-- How the workspace of a commit stands whose batch was stored. -/
theorem stored (hb : b.Truthful ok) (hw : Tied b ok w held) {t : τ} {log : ChangeLog LocalItem}
    {records : List NodeReferences} {c : Commit σ τ}
    (hc : Commit.Stored (begin w t held log records) c) :
    ok c.workspace.storage ∧ c.workspace.cache.Keyed := by
  obtain ⟨before, heap, storage, hbefore, -, hstore, rfl⟩ := hc
  obtain ⟨hback, hok, hkeyed⟩ := hw.connecting hb hbefore
  rw [hback] at hstore
  have hafter := hb.stored (before.shared.changeSet heap) hok
  rw [stateAfter_of_ok hstore] at hafter
  exact ⟨hafter, hkeyed⟩

/-- A commit that is abandoned makes no instance that stays in use, and those that stay in use stay
in the cache. -/
theorem abandon (hb : b.Truthful ok) (hw : Tied b ok w held) {t : τ} {log : ChangeLog LocalItem}
    {records : List NodeReferences} {c : Commit σ τ}
    (hc : Commit.Stopped (begin w t held log records) c) (e : Error) :
    Tied b ok (Workspace.abandon e c).workspace held := by
  have hunder := hc.underway hw.ready.sound_begin
  have hrolled := rolledBack_abandon hw.ready hunder e
  have hundo := concerns_rollBack c.workspace c.shared
  obtain ⟨hback, hok, hkeyed⟩ := hw.stopped hb hc
  refine
    { ready := hw.ready.abandon hunder e
      overlays := hundo.overlays.trans (hunder.overlays.trans hw.overlays)
      storage := ?_
      keyed := fun id k hk => hkeyed id k (hundo.cached hk)
      valid := fun h hh => (hundo.valid h).2 (hunder.keepsIds h (hw.valid h hh))
      current := fun h hh hlive => ?_ }
  · apply hb.asked hok
    rw [← hback]
    exact queried_rollBack c.workspace c.shared
  · by_cases htouched : h ∈ c.touched
    · -- a reload has decided of it
      obtain ⟨before, after, hsplit⟩ := List.append_of_mem htouched
      have hreload := hrolled.recovered before h after hsplit
      cases hload : w.backend.load h.id (reloads w.backend before c.workspace.storage) with
      | ok s u =>
        rw [hload] at hreload
        exact (hreload.2.2 (unserved_of_overlays hw.overlays h)).2
      | error e' u =>
        rw [hload] at hreload
        unfold Live at hlive
        rw [hreload.1] at hlive
        cases hlive
    · have hlive' : w.Live h := by
        unfold Live at hlive ⊢
        rwa [hrolled.others h (hw.valid h hh) htouched] at hlive
      have hcached := hrolled.kept h.id h (hw.current h hh hlive') hh
      exact (hrolled.entries h.id h htouched).2 hcached

/-- A commit that is settled puts the instances that it made into the cache. If nobody has another one
in use of their items it hides none. -/
theorem settle (hb : b.Truthful ok) (hw : Tied b ok w held) {t : τ} {log : ChangeLog LocalItem}
    (huntwinned : Untwinned w held log) {records : List NodeReferences} {c : Commit σ τ}
    (hc : Commit.Stored (begin w t held log records) c) (virtual : List NodeReferences) :
    Tied b ok { (c.workspace.persisted c.shared).deliver virtual with locked := false }
      (held ++ (c.log.settle (c.workspace.persisted c.shared).heap).2.connections) := by
  have hunder := hc.underway hw.ready.sound_begin
  have hsub : (begin w t held log records).workspace.subtrees = [] := subtrees_eq_nil hw.overlays
  obtain ⟨hok, hkeyed⟩ := hw.stored hb hc
  -- what is held afterwards was held before, or is an instance that the commit came to
  have hcases : ∀ h ∈ held ++
      (c.log.settle (c.workspace.persisted c.shared).heap).2.connections,
      h ∈ c.shared.states ∨ h ∉ c.shared.states ∧ h ∈ held := by
    intro h hh
    by_cases hmem : h ∈ c.shared.states
    · exact Or.inl hmem
    · refine Or.inr ⟨hmem, (List.mem_append.1 hh).resolve_right fun hconn => ?_⟩
      exact hmem (hc.connections_settle _ h hconn)
  refine
    { ready := hw.ready.settle hunder virtual
      overlays := ?_
      storage := ?_
      keyed := ?_
      valid := fun h hh => ?_
      current := fun h hh hlive => ?_ }
  · exact (overlays_persisted _ _).trans (hunder.overlays.trans hw.overlays)
  · show ok (c.workspace.persisted c.shared).storage
    rw [storage_persisted]
    exact hok
  · show (c.workspace.persisted c.shared).cache.Keyed
    rw [cache_persisted]
    exact keyed_settledCache hkeyed c.shared
  · show (c.workspace.persisted c.shared).heap.Valid h
    rw [valid_persisted]
    rcases hcases h hh with hmem | ⟨-, hheld⟩
    · exact hunder.valid_states h hmem
    · exact hunder.keepsIds h (hw.valid h hheld)
  · show (c.workspace.persisted c.shared).cache.peek? h.id = some h
    replace hlive : (c.workspace.persisted c.shared).Live h := hlive
    rcases hcases h hh with hmem | ⟨hmem, hheld⟩
    · exact peek?_settle_of_mem hunder hsub hmem hlive
    · have hv : w.heap.Valid h := hw.valid h hheld
      have hnot : ∀ cls, h ∉ (c.shared.itemsOf cls).values := fun cls hcls =>
        hmem (ChangeLog.mem_states.2 ⟨cls, hcls⟩)
      have hread := (read_settledHeap hunder.valid_states hunder.nodup_states
        (hunder.keepsIds h hv)).2 hmem
      have huntouched := hunder.untouched hv (hnot .modified) (hnot .deleted)
      have hlive' : w.Live h := by
        rw [Live, heap_persisted, hread, huntouched] at hlive
        exact hlive
      -- if the commit adds the item, this instance is not in use
      refine peek?_settle_of_not_mem hunder hsub hmem (fun hadded => ?_)
        (hunder.kept (hw.current h hheld hlive') hheld)
      apply huntwinned h hheld _ hlive'
      rw [hv.read_id]
      have hkeys : h.id ∈ (log.itemsOf .added).keys := hc.mem_keys_shared.1 hadded
      exact hkeys

/-- A commit that makes no twin leaves the workspace tied, for the instances of its log too. -/
theorem store (hb : b.Truthful ok) {log : ChangeLog LocalItem}
    (hw : Tied b ok w (held ++ log.connections)) {sink : Sink σ τ} (hsink : sink.OnlyReads)
    (hlog : log.Recorded) {t : τ}
    (huntwinned : (Workspace.store sink held w t log).result = .ok () → Untwinned w held log) :
    Tied b ok (Workspace.store sink held w t log).workspace
      (held ++ (Workspace.store sink held w t log).log.connections) := by
  have hheld : Tied b ok w held := hw.mono fun h hh => List.mem_append_left _ hh
  revert huntwinned
  apply store_ends (motive := fun out => (out.result = .ok () → Untwinned w held log) →
    Tied b ok out.workspace (held ++ out.log.connections)) hw.ready hsink hlog
  · intro e w' hlook _
    exact hw.look hb (hlook _)
  · intro records e c hc _
    show Tied b ok (Workspace.abandon e c).workspace (held ++ c.log.disconnect.connections)
    rw [ChangeLog.connections_disconnect, List.append_nil]
    exact hheld.abandon hb hc e
  · intro records virtual c hc huntwinned
    have hsettled := hheld.settle hb (huntwinned rfl) hc virtual
    -- the sink reads on behalf of all who hold something afterwards
    have hdispatch := lookedAt_conclude hsink virtual c
    rw [show c.held = held from hc.held] at hdispatch
    exact hsettled.look hb hdispatch

end Tied

/-- A commit keeps the root. -/
theorem root_store {log : ChangeLog LocalItem} (hw : w.Ready b) {sink : Sink σ τ}
    (hsink : sink.OnlyReads) (hlog : log.Recorded) (t : τ) :
    (store sink held w t log).workspace.root = w.root := by
  apply store_ends (motive := fun out => out.workspace.root = w.root) hw hsink hlog
  · intro e w' hlook
    exact (hlook []).root
  · intro records e c hc
    have hunder := hc.underway hw.sound_begin
    exact (concerns_rollBack c.workspace c.shared).root.trans hunder.root
  · intro records virtual c hc
    have hunder := hc.underway hw.sound_begin
    exact (hsink.dispatch _ _ _).root.trans ((root_persisted _ _).trans hunder.root)

/-- A commit keeps the overlays. -/
theorem overlays_store {log : ChangeLog LocalItem} (hw : w.Ready b) {sink : Sink σ τ}
    (hsink : sink.OnlyReads) (hlog : log.Recorded) (t : τ) :
    (store sink held w t log).workspace.overlays = w.overlays := by
  apply store_ends (motive := fun out => out.workspace.overlays = w.overlays) hw hsink hlog
  · intro e w' hlook
    exact (hlook []).overlays
  · intro records e c hc
    have hunder := hc.underway hw.sound_begin
    exact (concerns_rollBack c.workspace c.shared).overlays.trans hunder.overlays
  · intro records virtual c hc
    have hunder := hc.underway hw.sound_begin
    exact (hsink.dispatch _ _ _).overlays.trans ((overlays_persisted _ _).trans hunder.overlays)

/-- Instances stay where they were made. -/
theorem keepsIds_store {log : ChangeLog LocalItem} (hw : w.Ready b) {sink : Sink σ τ}
    (hsink : sink.OnlyReads) (hlog : log.Recorded) (t : τ) :
    w.heap.KeepsIds (store sink held w t log).workspace.heap := by
  apply store_ends (motive := fun out => w.heap.KeepsIds out.workspace.heap) hw hsink hlog
  · intro e w' hlook
    exact (hlook []).heap.keepsIds
  · intro records e c hc h hv
    exact ((concerns_rollBack c.workspace c.shared).valid h).2
      ((hc.underway hw.sound_begin).keepsIds h hv)
  · intro records virtual c hc h hv
    refine (hsink.dispatch _ _ _).heap.keepsIds h ?_
    show (c.workspace.persisted c.shared).heap.Valid h
    rw [valid_persisted]
    exact (hc.underway hw.sound_begin).keepsIds h hv

/-! ## Opening -/

/-- The root and the property with its type have different identities. -/
theorem id_rootStates (hb : b.Truthful ok) {root : NodeId} {storage : σ} {registry : Registry}
    {node property : ItemState} (h : rootStates root b storage registry = .ok (node, property)) :
    node.id = .node root ∧ ∃ name, property.id = .property ⟨root, name⟩ := by
  unfold rootStates at h
  split at h
  · cases h
  · next definition primaryType _ =>
    dsimp only at h
    split at h
    · cases h
    · split at h
      · cases h
      · cases h
        exact ⟨hb.id_createNew _ _, _, hb.id_createNew _ _⟩

/-- The instance that was made of a root is in the log that adds it. -/
theorem root_mem_rootLog {config : Config} {heap : Heap} {node property : ItemState} {name : Name}
    (hnode : node.id = .node config.rootNode)
    (hproperty : property.id = .property ⟨config.rootNode, name⟩) :
    (rootInstances heap node property).1 ∈ (rootLog config heap node property).addedItems.values := by
  refine OrderedMap.mem_values.2 ⟨node.id, ?_⟩
  show (OrderedMap.insert (OrderedMap.insert .empty node.id (heap.alloc node).1) property.id
    ((heap.alloc node).2.alloc property).1).get? node.id = some (heap.alloc node).1
  rw [OrderedMap.get?_insert, if_neg, OrderedMap.get?_insert, if_pos rfl]
  rw [hnode, hproperty]
  exact fun heq => by cases heq

/-- So it comes into the cache. -/
theorem peek?_aroundMade {config : Config} {s : Shared σ} {node property : ItemState} {name : Name}
    (hnode : node.id = .node config.rootNode) (hproperty : property.id = .property ⟨config.rootNode, name⟩) :
    let w := (aroundMade config b s node property).persisted (rootLog config s.heap node property)
    w.cache.peek? w.root.id = some w.root := by
  intro w
  have hempty : ∀ h ∈ (rootLog config s.heap node property).deletedItems.values, ∀ k,
      Cache.empty.peek? h.id = some k → k = h := fun h hh k hk => by cases hk
  obtain ⟨hin, -, -⟩ := peek?_settledCache (wellFormed_rootLog config s.heap node property) hempty
  have hroot : w.root = (rootInstances s.heap node property).1 := root_persisted _ _
  rw [hroot, cache_persisted]
  exact hin _ (root_mem_rootLog hnode hproperty)

/-- A workspace that was opened has the instance of its root in the cache. -/
theorem Tied.openOver (hb : b.Truthful ok) {config : Config} {registry : Registry}
    {s s' : Shared σ} (hs : SharedSound s) (hok : ok s.storage)
    (h : Workspace.openOver config b registry s = .ok w s') : Tied b ok w [w.root] := by
  have hready := ready_openOver hs h
  obtain ⟨asked, hasked, hopen⟩ := openOver_ok h
  have hok' := hb.asked hok hasked
  rcases hopen with ⟨root, t, hload, rfl⟩ | ⟨node, property, t, hmade, hstore, rfl⟩
  · have hid : root.id = .node config.rootNode := hb.id_load hok' hload
    -- nothing is held yet, and then the root is taken
    have hbare : Tied b ok (aroundLoaded config b { s with storage := t } root) [] :=
      { ready := hready
        overlays := rfl
        storage := by
          have hnext := (Backend.Queried.refl (b := b) asked).load (.node config.rootNode)
          rw [stateAfter_of_ok hload] at hnext
          exact hb.asked hok' hnext
        keyed := fun id k hk => by
          obtain ⟨rfl, rfl⟩ := peek?_aroundLoaded hk
          exact hid
        valid := fun h hh => by cases hh
        current := fun h hh => by cases hh }
    exact hbare.take ((Cache.peek?_putLoaded _ _ _ _ _).trans (if_pos rfl))
  · obtain ⟨hnode, name, hproperty⟩ := id_rootStates hb hmade
    -- as before, but the fresh root is cached by settling its log
    have hbare : Tied b ok ((aroundMade config b { s with storage := t } node property).persisted
        (rootLog config s.heap node property)) [] :=
      { ready := hready
        overlays := overlays_persisted _ _
        storage := by
          rw [storage_persisted]
          have hafter := hb.stored ((rootLog config s.heap node property).changeSet
            (rootInstances s.heap node property).2.2) hok'
          rwa [stateAfter_of_ok hstore] at hafter
        keyed := by
          rw [cache_persisted]
          exact keyed_settledCache (fun id k hk => by cases hk) _
        valid := fun h hh => by cases hh
        current := fun h hh => by cases hh }
    exact hbare.take (peek?_aroundMade hnode hproperty)

end

/-! ## Runs -/

/-- A workspace, the handles that its clients have by themselves or in overlays, and the logs that they
work on. -/
structure World (σ : Type) where
  workspace : Workspace σ
  kept : List Handle
  logs : List (ChangeLog LocalItem)

namespace World

variable {σ : Type}

/-- All handles that somebody has: the workspace that of its root, the clients theirs, and the logs
those that their overlays are connected to. -/
def held (c : World σ) : List Handle :=
  c.workspace.root :: (c.kept ++ c.logs.flatMap ChangeLog.connections)

/-- An instance that somebody has or that is cached. -/
def Has (c : World σ) (h : Handle) : Prop :=
  h ∈ c.held ∨ ∃ id, c.workspace.cache.peek? id = some h

/-- Of each item there is one instance in use at most. -/
def Single (c : World σ) : Prop :=
  ∀ h k, c.Has h → c.Has k →
    (c.workspace.heap.read h).id = (c.workspace.heap.read k).id →
    c.workspace.Live h → c.workspace.Live k → h = k

/-- What is held are the root, the instances kept and those the logs are connected to. -/
theorem mem_held {c : World σ} {h : Handle} :
    h ∈ c.held ↔ h = c.workspace.root ∨ h ∈ c.kept ∨ ∃ log ∈ c.logs, h ∈ log.connections := by
  simp only [held, List.mem_cons, List.mem_append, List.mem_flatMap]

end World

/-- A workspace without virtual subtrees and its clients, after any number of sessions have read, worked
on logs of their own and committed them, in any order. A commit of a log that succeeds has to be
`permitted`; `others` are the handles that somebody has apart from the log. -/
inductive Run {σ : Type} (b : Backend σ) (ok : σ → Prop)
    (permitted : Workspace σ → List Handle → ChangeLog LocalItem → Prop) : World σ → Prop
  | opened (config : Config) (registry : Registry) {s s' : Shared σ} {w : Workspace σ} :
    SharedSound s → ok s.storage → openOver config b registry s = .ok w s' →
    Run b ok permitted ⟨w, [], []⟩
  | got {c : World σ} {id : ItemId} {h : Handle} {w : Workspace σ} :
    getItemState c.held id c.workspace = .ok h w → Run b ok permitted c →
    Run b ok permitted ⟨w, h :: c.kept, c.logs⟩
  | missed {c : World σ} {id : ItemId} {e : Error} {w : Workspace σ} :
    getItemState c.held id c.workspace = .error e w → Run b ok permitted c →
    Run b ok permitted { c with workspace := w }
  | hasItemState {c : World σ} (id : ItemId) : Run b ok permitted c →
    Run b ok permitted { c with workspace := stateAfter (hasItemState id) c.workspace }
  | getReferences {c : World σ} (target : NodeId) : Run b ok permitted c →
    Run b ok permitted { c with workspace := stateAfter (getReferences target) c.workspace }
  | hasReferenceRecord {c : World σ} (target : NodeId) : Run b ok permitted c →
    Run b ok permitted { c with workspace := stateAfter (hasReferenceRecord target) c.workspace }
  | checkTargetsExist {c : World σ} (log : ChangeLog LocalItem) : Run b ok permitted c →
    Run b ok permitted { c with workspace := stateAfter (checkTargetsExist log) c.workspace }
  /-- Clients let go of handles, overlay instances that they have, and change their logs. -/
  | worked {c : World σ} {kept : List Handle} {logs : List (ChangeLog LocalItem)} :
    (∀ h ∈ kept, h ∈ c.held) → (∀ log ∈ logs, ∀ h ∈ log.connections, h ∈ c.held) →
    Run b ok permitted c → Run b ok permitted { c with kept, logs }
  | stored {τ : Type} {c : World σ} {log : ChangeLog LocalItem} {sink : Sink σ τ}
    {others : List Handle} (before after : List (ChangeLog LocalItem)) (t : τ) :
    c.logs = before ++ log :: after → others = { c with logs := before ++ after }.held →
    sink.OnlyReads → log.Recorded →
    ((store sink others c.workspace t log).result = .ok () → permitted c.workspace others log) →
    Run b ok permitted c →
    Run b ok permitted ⟨(store sink others c.workspace t log).workspace, c.kept,
      before ++ (store sink others c.workspace t log).log :: after⟩
  | changed {c : World σ} {storage : σ} : ok storage → Run b ok permitted c →
    Run b ok permitted { c with workspace := { c.workspace with storage } }

section

variable {σ : Type} {b : Backend σ} {ok : σ → Prop}

/-- Reading leaves the handles that somebody has as they are. -/
theorem Tied.world (hb : b.Truthful ok) {c : World σ} {w : Workspace σ}
    (hc : Tied b ok c.workspace c.held) (h : c.workspace.LookedAt c.held w) :
    Tied b ok w { c with workspace := w }.held := by
  have hheld : { c with workspace := w }.held = c.held := by
    show w.root :: _ = c.workspace.root :: _
    rw [h.root]
  rw [hheld]
  exact hc.look hb h

/-- A client that gets an item has its instance from then on. -/
theorem Tied.got (hb : b.Truthful ok) {c : World σ} {id : ItemId} {h : Handle} {w : Workspace σ}
    (hc : Tied b ok c.workspace c.held) (hget : getItemState c.held id c.workspace = .ok h w) :
    Tied b ok w (World.held ⟨w, h :: c.kept, c.logs⟩) := by
  have hlook := tracks_reading (lookedAt_itemState c.held id) c.workspace
  rw [stateAfter_of_ok (show reading (itemState c.held id) c.workspace = _ from hget)] at hlook
  -- what it answers is in the cache, as there are no subtrees to give it out
  have hcached : w.cache.peek? id = some h :=
    peek?_of_itemState hc.overlays ((reading_of_unlocked hc.ready.unlocked _).symm.trans hget)
  refine ((hc.look hb hlook).take hcached).mono fun k hk => ?_
  rw [World.mem_held] at hk
  rw [List.mem_cons, World.mem_held]
  rcases hk with hroot | hkept | hlogs
  · exact Or.inr (Or.inl (hroot.trans hlook.root))
  · rcases List.mem_cons.1 hkept with rfl | hkept
    · exact Or.inl rfl
    · exact Or.inr (Or.inr (Or.inl hkept))
  · exact Or.inr (Or.inr (Or.inr hlogs))

/-- Whatever clients do with the handles that they have, nobody comes to have others. -/
theorem Tied.worked {c : World σ} {kept : List Handle} {logs : List (ChangeLog LocalItem)}
    (hc : Tied b ok c.workspace c.held) (hkept : ∀ h ∈ kept, h ∈ c.held)
    (hlogs : ∀ log ∈ logs, ∀ h ∈ log.connections, h ∈ c.held) :
    Tied b ok c.workspace { c with kept, logs }.held := by
  refine hc.mono fun h hh => ?_
  rcases World.mem_held.1 hh with hroot | hmem | ⟨log, hlog, hmem⟩
  · exact World.mem_held.2 (Or.inl hroot)
  · exact hkept h hmem
  · exact hlogs log hlog h hmem

/-- What is held while one of several logs is taken out of its place: what the others have, and what
that log is connected to. -/
theorem World.mem_held_split {w : Workspace σ} {kept : List Handle}
    {before after : List (ChangeLog LocalItem)} {log : ChangeLog LocalItem} {h : Handle} :
    h ∈ World.held ⟨w, kept, before ++ log :: after⟩ ↔
      h ∈ World.held ⟨w, kept, before ++ after⟩ ++ log.connections := by
  rw [List.mem_append, World.mem_held, World.mem_held]
  simp only [List.mem_append, List.mem_cons, or_assoc]
  constructor
  · rintro (hroot | hkept | ⟨l, hbefore | rfl | hafter, hh⟩)
    · exact Or.inl hroot
    · exact Or.inr (Or.inl hkept)
    · exact Or.inr (Or.inr (Or.inl ⟨l, Or.inl hbefore, hh⟩))
    · exact Or.inr (Or.inr (Or.inr hh))
    · exact Or.inr (Or.inr (Or.inl ⟨l, Or.inr hafter, hh⟩))
  · rintro (hroot | hkept | ⟨l, hbefore | hafter, hh⟩ | hh)
    · exact Or.inl hroot
    · exact Or.inr (Or.inl hkept)
    · exact Or.inr (Or.inr ⟨l, Or.inl hbefore, hh⟩)
    · exact Or.inr (Or.inr ⟨l, Or.inr (Or.inr hafter), hh⟩)
    · exact Or.inr (Or.inr ⟨log, Or.inr (Or.inl rfl), hh⟩)

/-- A log is committed while the clients have other handles and other logs. -/
theorem Tied.committed {τ : Type} (hb : b.Truthful ok) {w : Workspace σ} {kept : List Handle}
    {before after : List (ChangeLog LocalItem)} {log : ChangeLog LocalItem} {sink : Sink σ τ}
    (hw : Tied b ok w (World.held ⟨w, kept, before ++ log :: after⟩)) (hsink : sink.OnlyReads)
    (hlog : log.Recorded) (t : τ) :
    let out := Workspace.store sink (World.held ⟨w, kept, before ++ after⟩) w t log
    (out.result = .ok () → Untwinned w (World.held ⟨w, kept, before ++ after⟩) log) →
    Tied b ok out.workspace (World.held ⟨out.workspace, kept, before ++ out.log :: after⟩) := by
  intro out huntwinned
  have hroot : out.workspace.root = w.root := root_store hw.ready hsink hlog t
  have hheld := hw.mono fun h hh => World.mem_held_split.2 hh
  refine (hheld.store hb hsink hlog huntwinned).mono fun h hh => ?_
  rw [World.mem_held_split] at hh
  rwa [show World.held ⟨out.workspace, kept, before ++ after⟩ = World.held ⟨w, kept, before ++ after⟩
    from congrArg (· :: _) hroot] at hh

/-- Every step of a run keeps the instances that are in use tied to their items. -/
theorem Run.tied (hb : b.Truthful ok) {c : World σ} (hc : Run b ok Untwinned c) :
    Tied b ok c.workspace c.held := by
  induction hc with
  | opened config registry hs hok h => exact .openOver hb hs hok h
  | got hget _ ih => exact ih.got hb hget
  | @missed c id e w hget _ ih =>
    have hlook := tracks_reading (lookedAt_itemState c.held id) c.workspace
    rw [stateAfter_of_error (show reading (itemState c.held id) c.workspace = _ from hget)] at hlook
    exact ih.world hb hlook
  | @hasItemState c id _ ih =>
    exact ih.world hb (tracks_orNo (tracks_reading (lookedAt_hasItem c.held id)) _)
  | @getReferences c target _ ih =>
    exact ih.world hb (tracks_reading (lookedAt_references c.held target) _)
  | @hasReferenceRecord c target _ ih =>
    exact ih.world hb (tracks_orNo (tracks_reading (lookedAt_hasReferences c.held target)) _)
  | @checkTargetsExist c log _ ih => exact ih.world hb (lookedAt_checkTargetsExist c.held log _)
  | worked hkept hlogs _ ih => exact ih.worked hkept hlogs
  | @stored τ c log sink others before after t hlogs hothers hsink hlog huntwinned _ ih =>
    obtain ⟨w, kept, logs⟩ := c
    cases hlogs
    cases hothers
    exact ih.committed hb hsink hlog t huntwinned
  | @changed c storage hok _ ih =>
    exact { ih with
      ready := ⟨⟨ih.ready.sound.cached, ih.ready.sound.provided⟩, ih.ready.unlocked,
        ih.ready.backend⟩
      storage := hok }

/-- **One instance for each item.** -/
theorem Run.single (hb : b.Truthful ok) {c : World σ} (hc : Run b ok Untwinned c) : c.Single := by
  have hw := hc.tied hb
  -- an instance in use is the one that the cache has for its item
  have hcurrent : ∀ h, c.Has h → c.workspace.Live h →
      c.workspace.cache.peek? (c.workspace.heap.read h).id = some h := by
    intro h hh hlive
    rcases hh with hheld | ⟨id, hcached⟩
    · rw [(hw.valid h hheld).read_id]
      exact hw.current h hheld hlive
    · rw [(hw.ready.sound.cached hcached).read_id, hw.keyed id h hcached]
      exact hcached
  intro h k hh hk hid hliveh hlivek
  have hcached := hcurrent h hh hliveh
  rw [hid, hcurrent k hk hlivek] at hcached
  exact (Option.some.inj hcached).symm

end

/-! ### Two sessions that add one property -/

namespace Sample

/-- A log that adds a property to the root. -/
def addition : ChangeLog LocalItem :=
  (ChangeLog.new (.node default)).record .added (.new (.empty (.property ⟨default, .primaryType⟩)))

/-- The log that adds the item is recorded. -/
theorem recorded_addition : addition.Recorded :=
  (ChangeLog.Recorded.new _).record .added (LocalItem.faithful_new _)

/-- A workspace with two sessions, each of which is about to add the property. -/
def beforeAdding : World MemoryStore :=
  ⟨opened memory, [], [addition, addition]⟩

/-- How the commit of the first session ends. -/
def first : Outcome MemoryStore Unit :=
  store (Sink.silent MemoryStore) [beforeAdding.workspace.root] beforeAdding.workspace () addition

/-- The world in which the first session has added the item. -/
def addedOnce : World MemoryStore :=
  ⟨first.workspace, [], [first.log, addition]⟩

/-- How the commit of the second session ends, while the first one still has its instance. -/
def second : Outcome MemoryStore Unit :=
  store (Sink.silent MemoryStore) (addedOnce.workspace.root :: first.log.connections)
    addedOnce.workspace () addition

/-- The world in which the second session has added the item as well. -/
def addedTwice : World MemoryStore :=
  ⟨second.workspace, [], [first.log, second.log]⟩

section

variable {permitted : Workspace MemoryStore → List Handle → ChangeLog LocalItem → Prop}

/-- The world before either session adds the item is reached by a run. -/
theorem run_beforeAdding :
    Run MemoryStore.backend (fun m => MemoryStore.Keyed m.items) permitted beforeAdding := by
  have hopen : openOver ⟨"sample", default, 1, none, 1⟩ MemoryStore.backend Registry.default
      ⟨∅, [], memory⟩ = .ok (opened memory) (opened memory).toShared := rfl
  have hkeyed : MemoryStore.Keyed memory.items := ((MemoryStore.keyed_empty.put _).put _).put _
  have hopened : Run MemoryStore.backend (fun m => MemoryStore.Keyed m.items) permitted
      ⟨opened memory, [], []⟩ := .opened _ _ (fun p hp => by cases hp) hkeyed hopen
  have hnone : addition.connections = [] := by decide +kernel
  refine .worked (fun h hh => by cases hh) (fun log hlog h hh => ?_) hopened
  rcases List.mem_cons.1 hlog with rfl | hlog
  · rw [hnone] at hh
    cases hh
  · rw [List.mem_singleton.1 hlog, hnone] at hh
    cases hh

/-- The world in which the first session has added the item is reached by a run. -/
theorem run_addedOnce
    (h : permitted beforeAdding.workspace [beforeAdding.workspace.root] addition) :
    Run MemoryStore.backend (fun m => MemoryStore.Keyed m.items) permitted addedOnce :=
  .stored [] [addition] () rfl rfl Sink.onlyReads_silent recorded_addition (fun _ => h)
    run_beforeAdding

end

end Sample

/-- A property that one session adds has one instance. -/
theorem Run.single_addedOnce :
    Untwinned Sample.beforeAdding.workspace [Sample.beforeAdding.workspace.root] Sample.addition ∧
      Sample.addedOnce.Single := by
  have huntwinned : Untwinned Sample.beforeAdding.workspace
      [Sample.beforeAdding.workspace.root] Sample.addition := by
    have hnot : ∀ h ∈ [Sample.beforeAdding.workspace.root],
        (Sample.beforeAdding.workspace.heap.read h).id ∉ Sample.addition.addedItems.keys := by
      decide +kernel
    exact fun h hh hid _ => hnot h hh hid
  exact ⟨huntwinned, Run.single MemoryStore.truthful_backend (Sample.run_addedOnce huntwinned)⟩

/-- A property that two sessions add has two instances, both in use: one for each session. -/
theorem two_instances :
    Run MemoryStore.backend (fun m => MemoryStore.Keyed m.items) (fun _ _ _ => True)
        Sample.addedTwice ∧ ¬Sample.addedTwice.Single := by
  constructor
  · exact .stored [Sample.first.log] [] () rfl rfl Sink.onlyReads_silent Sample.recorded_addition
      (fun _ => trivial) (Sample.run_addedOnce trivial)
  · intro hsingle
    have hfirst : (⟨1, .property ⟨default, .primaryType⟩⟩ : Handle) ∈ Sample.addedTwice.held := by
      decide +kernel
    have hsecond : (⟨2, .property ⟨default, .primaryType⟩⟩ : Handle) ∈ Sample.addedTwice.held := by
      decide +kernel
    have hsame := hsingle _ _ (Or.inl hfirst) (Or.inl hsecond) (by decide +kernel)
      (show _ = false by decide +kernel) (show _ = false by decide +kernel)
    cases hsame

end Workspace

end ContentTree
