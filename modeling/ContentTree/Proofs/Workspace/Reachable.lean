import ContentTree.Workspace.Bootstrap
import ContentTree.Proofs.Workspace.RollBack
import ContentTree.Proofs.Workspace.Settling

/-!
# Reachable workspaces

The states that a workspace over a backend comes to by being opened, read from, and committed to,
with commits that succeed and commits that fail. In each of them the lock is free and every handle in
the cache and in a virtual subtree denotes an instance.
-/

namespace ContentTree.Workspace

variable {σ τ : Type}

/-! ## Commits -/

/-- A workspace stays sound where no new instances are cached or provided but valid ones. -/
theorem Sound.congr {w w' : Workspace σ} (hw : w.Sound)
    (hvalid : ∀ h, w'.heap.Valid h ↔ w.heap.Valid h)
    (hcache : ∀ {id h}, w'.cache.peek? id = some h → w.cache.peek? id = some h ∨ w.heap.Valid h)
    (hitems : w'.providers.map Provider.items = w.providers.map Provider.items) : w'.Sound where
  cached hid := (hvalid _).2 ((hcache hid).elim hw.cached fun hv => hv)
  provided p hp id h hid := by
    have hmem : p.items ∈ w.providers.map Provider.items := hitems ▸ List.mem_map.2 ⟨p, hp, rfl⟩
    obtain ⟨q, hq, heq⟩ := List.mem_map.1 hmem
    exact (hvalid h).2 (hw.provided q hq id h (heq ▸ hid))

/-- What the settled cache holds was cached before or is an added instance. -/
theorem peek?_settledCache_le {cache : Cache} {shared : ChangeLog Handle} {id : ItemId} {k : Handle}
    (hid : (settledCache cache shared).peek? id = some k) :
    cache.peek? id = some k ∨ k ∈ shared.addedItems.values := by
  replace hid := peek?_foldl_evict_le _ hid
  generalize shared.addedItems.values = hs at hid ⊢
  induction hs generalizing cache with
  | nil => exact Or.inl hid
  | cons h rest ih =>
    rcases ih hid with hput | hmem
    · rw [Cache.peek?_put] at hput
      split at hput
      · cases hput
        exact Or.inr (List.mem_cons_self ..)
      · exact Or.inl hput
    · exact Or.inr (List.mem_cons_of_mem h hmem)

/-- Settling keeps the handles of a workspace good. -/
theorem Sound.persisted {w : Workspace σ} (hw : w.Sound) {shared : ChangeLog Handle}
    (hvalid : ∀ h ∈ shared.states, w.heap.Valid h) : (w.persisted shared).Sound := by
  refine hw.congr (fun h => ?_) (fun {id h} hid => ?_) ?_
  · rw [valid_persisted]
  · rw [cache_persisted] at hid
    exact (peek?_settledCache_le hid).imp_right
      fun hmem => hvalid h (ChangeLog.mem_states.2 ⟨.added, hmem⟩)
  · rw [providers_persisted]

/-- Rolling back leaves a sound workspace sound. -/
theorem Sound.rollBack {w : Workspace σ} (hw : w.Sound) (shared : ChangeLog Handle) :
    (w.rollBack shared).Sound := by
  have hundo := concerns_rollBack w shared
  refine hw.congr hundo.valid (fun hid => Or.inl (hundo.cached hid)) ?_
  rw [hundo.providers]

/-- What is known of a workspace between two commits. -/
structure Ready (b : Backend σ) (w : Workspace σ) : Prop where
  sound : w.Sound
  unlocked : w.locked = false
  backend : w.backend = b

/-- A ready workspace stays ready while it is looked at. -/
theorem Ready.look {b : Backend σ} {w w' : Workspace σ} {held : List Handle} (hw : w.Ready b)
    (h : w.LookedAt held w') : w'.Ready b :=
  ⟨h.sound hw.sound, h.locked.trans hw.unlocked, h.backend.trans hw.backend⟩

/-- A commit begins with handles that are good. -/
theorem Ready.sound_begin {b : Backend σ} {w : Workspace σ} (hw : w.Ready b) {t : τ}
    {held : List Handle} {log : ChangeLog LocalItem} {records : List NodeReferences} :
    (begin w t held log records).workspace.Sound :=
  ⟨hw.sound.cached, hw.sound.provided⟩

/-- The commit that begins after the reference records of a log were found to be in order. -/
theorem persist_begin {b : Backend σ} {w w' : Workspace σ} {sink : Sink σ τ} {held : List Handle}
    {log : ChangeLog LocalItem} (hw : w.Ready b) (hsink : sink.OnlyReads) (hlog : log.Recorded)
    (hlook : w.LookedAt held w') (t : τ) (records : List NodeReferences) :
    Ends (Commit.Stored (begin w t held log records)) (Commit.Stopped (begin w t held log records))
      (Commit.persist sink (begin w' t held log records)) :=
  Commit.persist_run hsink hw.sound_begin rfl hlog
    (Commit.connecting_begin hlook t log records) rfl

/-- How a commit went: its reference records were not in order, or it was abandoned where it stopped, or
it was concluded once its batch was stored. -/
inductive Course (sink : Sink σ τ) (held : List Handle) (w : Workspace σ) (t : τ)
    (log : ChangeLog LocalItem) : Outcome σ τ → Prop where
  | refused {e : Error} {w' : Workspace σ} :
    partitionReferences log log.references.values w = .error e w' →
    Course sink held w t log ⟨.error e, w', t, log⟩
  | abandoned {records virtual : List NodeReferences} {w' : Workspace σ} {e : Error} {c : Commit σ τ} :
    partitionReferences log log.references.values w = .ok (records, virtual) w' →
    Commit.persist sink (begin w' t held log records) = .error e c →
    Commit.Stopped (begin w t held log records) c → Course sink held w t log (abandon e c)
  | concluded {records virtual : List NodeReferences} {w' : Workspace σ} {c : Commit σ τ} :
    partitionReferences log log.references.values w = .ok (records, virtual) w' →
    Commit.persist sink (begin w' t held log records) = .ok () c →
    Commit.Stored (begin w t held log records) c → Course sink held w t log (conclude sink virtual c)

section Course

variable {b : Backend σ} {w w' : Workspace σ} {sink : Sink σ τ} {log : ChangeLog LocalItem}
  {held : List Handle} {t : τ} {records virtual : List NodeReferences} {e : Error} {c : Commit σ τ}

/-- What committing does in a workspace that is not locked. -/
theorem store_of_unlocked (hw : w.locked = false) : store sink held w t log =
    match partitionReferences log log.references.values w with
    | .error e w' => ⟨.error e, w', t, log⟩
    | .ok (records, virtual) w' =>
      match Commit.persist sink (begin w' t held log records) with
      | .error e c => abandon e c
      | .ok () c => conclude sink virtual c := by
  have hunlocked : ¬w.locked := by
    rw [hw]
    decide
  rw [store]
  exact if_neg hunlocked

/-- A commit that cannot be persisted is abandoned. -/
theorem store_of_persist_error (hw : w.locked = false)
    (hp : partitionReferences log log.references.values w = .ok (records, virtual) w')
    (hpersist : Commit.persist sink (begin w' t held log records) = .error e c) :
    store sink held w t log = abandon e c := by
  rw [store_of_unlocked hw, hp]
  dsimp only
  rw [hpersist]

/-- A commit that was persisted is concluded. -/
theorem store_of_persist_ok (hw : w.locked = false)
    (hp : partitionReferences log log.references.values w = .ok (records, virtual) w')
    (hpersist : Commit.persist sink (begin w' t held log records) = .ok () c) :
    store sink held w t log = conclude sink virtual c := by
  rw [store_of_unlocked hw, hp]
  dsimp only
  rw [hpersist]

/-- Every commit goes one of the three ways. -/
theorem store_course (hw : w.Ready b) (hsink : sink.OnlyReads) (hlog : log.Recorded) (held : List Handle)
    (t : τ) : Course sink held w t log (store sink held w t log) := by
  have hlook := lookedAt_partitionReferences held log log.references.values w
  cases hp : partitionReferences log log.references.values w with
  | error e w' =>
    rw [store_of_unlocked hw.unlocked, hp]
    exact .refused hp
  | ok r w' =>
    obtain ⟨records, virtual⟩ := r
    rw [stateAfter_of_ok hp] at hlook
    have hrun := persist_begin hw hsink hlog hlook t records
    cases hpersist : Commit.persist sink (begin w' t held log records) with
    | error e c =>
      rw [hpersist] at hrun
      rw [store_of_persist_error hw.unlocked hp hpersist]
      exact .abandoned hp hpersist hrun
    | ok u c =>
      rw [hpersist] at hrun
      rw [store_of_persist_ok hw.unlocked hp hpersist]
      exact .concluded hp hpersist hrun

/-- What holds of a commit that only read, of one that is abandoned wherever it stopped, and of one
that is concluded once its batch was stored, holds of every commit. -/
theorem store_ends {motive : Outcome σ τ → Prop} (hw : w.Ready b)
    (hsink : sink.OnlyReads) (hlog : log.Recorded)
    (hread : ∀ e w', (∀ held, w.LookedAt held w') → motive ⟨.error e, w', t, log⟩)
    (hstop : ∀ records e c, Commit.Stopped (begin w t held log records) c → motive (abandon e c))
    (hdone : ∀ records virtual c, Commit.Stored (begin w t held log records) c →
      motive (conclude sink virtual c)) : motive (store sink held w t log) := by
  have hcourse := store_course hw hsink hlog held t
  generalize store sink held w t log = out at hcourse ⊢
  cases hcourse with
  | refused hp =>
    refine hread _ _ fun held => ?_
    rw [← stateAfter_of_error hp]
    exact lookedAt_partitionReferences held log log.references.values w
  | abandoned _ _ hc => exact hstop _ _ _ hc
  | concluded _ _ hc => exact hdone _ _ _ hc

end Course

/-- Abandoning a commit leaves the workspace ready. -/
theorem Ready.abandon {b : Backend σ} {w : Workspace σ} {held : List Handle} {t : τ}
    {log : ChangeLog LocalItem} {records : List NodeReferences} {c : Commit σ τ} (hw : w.Ready b)
    (hc : Commit.Underway (begin w t held log records) c) (e : Error) :
    (abandon e c).workspace.Ready b where
  sound := by
    have hs := hc.sound.rollBack c.shared
    exact ⟨hs.cached, hs.provided⟩
  unlocked := rfl
  backend :=
    (concerns_rollBack c.workspace c.shared).backend.trans (hc.backend.trans hw.backend)

/-- A workspace that takes over what was persisted stays ready. -/
theorem Ready.persisted {b : Backend σ} {w : Workspace σ} (hw : w.Ready b)
    {shared : ChangeLog Handle} (hvalid : ∀ h ∈ shared.states, w.heap.Valid h) :
    (w.persisted shared).Ready b where
  sound := hw.sound.persisted hvalid
  unlocked := (locked_persisted w shared).trans hw.unlocked
  backend := (backend_persisted w shared).trans hw.backend

/-- A commit that was settled, before the sink is told. -/
theorem Ready.settle {b : Backend σ} {w : Workspace σ} {held : List Handle} {t : τ}
    {log : ChangeLog LocalItem} {records : List NodeReferences} {c : Commit σ τ} (hw : w.Ready b)
    (hc : Commit.Underway (begin w t held log records) c) (virtual : List NodeReferences) :
    Ready b { (c.workspace.persisted c.shared).deliver virtual with locked := false } where
  sound := by
    have hs := hc.sound.persisted hc.valid_states
    exact hs.congr (fun _ => Iff.rfl) Or.inl (items_deliver _ virtual)
  unlocked := rfl
  backend := (backend_persisted c.workspace c.shared).trans (hc.backend.trans hw.backend)

/-- A commit leaves the workspace ready, whether or not it succeeds. -/
theorem Ready.store {b : Backend σ} {w : Workspace σ} {sink : Sink σ τ}
    {log : ChangeLog LocalItem} (hw : w.Ready b) (hsink : sink.OnlyReads) (hlog : log.Recorded)
    (held : List Handle) (t : τ) : (Workspace.store sink held w t log).workspace.Ready b := by
  apply store_ends (motive := fun out => out.workspace.Ready b) hw hsink hlog
  · intro e w' hlook
    exact hw.look (hlook held)
  · intro records e c hc
    exact hw.abandon (hc.underway hw.sound_begin) e
  · intro records virtual c hc
    exact (hw.settle (hc.underway hw.sound_begin) virtual).look (hsink.dispatch _ _ _)

/-! ## Opening -/

/-- The virtual subtrees hold handles to instances that were made. -/
def SharedSound (s : Shared σ) : Prop :=
  ∀ p ∈ s.providers, ∀ id h, p.items.get? id = some h → s.heap.Valid h

/-- One more instance leaves what is shared sound. -/
theorem SharedSound.alloc {s : Shared σ} (hs : SharedSound s) (state : ItemState) :
    SharedSound { s with heap := (s.heap.alloc state).2 } :=
  fun p hp id h hid => (Heap.grows_alloc s.heap state).valid (hs p hp id h hid)

/-- A step on the storage alone keeps instances and subtrees. -/
theorem prepareStorage_ok {α : Type} {step : EStateM Error σ α} {s s' : Shared σ} {a : α}
    (h : prepareStorage step s = .ok a s') :
    ∃ t, step s.storage = .ok a t ∧ s' = { s with storage := t } :=
  onPart_ok h

/-- A workspace is ready around a cache of valid instances. -/
theorem ready_around {config : Config} {b : Backend σ} {cache : Cache} {root : Handle}
    {s : Shared σ} (hs : SharedSound s)
    (hcache : ∀ {id h}, cache.peek? id = some h → s.heap.Valid h) :
    (around config b cache root s).Ready b :=
  ⟨⟨hcache, hs⟩, rfl, rfl⟩

/-- A workspace opened around a root that was loaded. -/
def aroundLoaded (config : Config) (b : Backend σ) (s : Shared σ) (root : ItemState) : Workspace σ :=
  let made := Cache.empty.putLoaded s.heap (.node config.rootNode) root
  around config b made.2.1 made.1 { s with heap := made.2.2 }

/-- Around a loaded root nothing else is cached. -/
theorem peek?_aroundLoaded {config : Config} {b : Backend σ} {s : Shared σ} {root : ItemState}
    {id : ItemId} {h : Handle} (hid : (aroundLoaded config b s root).cache.peek? id = some h) :
    id = .node config.rootNode ∧ h = (s.heap.alloc (root.withStatus .existing)).1 := by
  replace hid : (Cache.empty.putLoaded s.heap (.node config.rootNode) root).2.1.peek? id =
    some h := hid
  rw [Cache.peek?_putLoaded] at hid
  split at hid
  · next hroot =>
    cases hid
    exact ⟨hroot, rfl⟩
  · cases hid

/-- Opening over an existing root succeeds with what was loaded. -/
theorem openExisting_ok {config : Config} {b : Backend σ} {s s' : Shared σ} {w : Workspace σ}
    (h : openExisting config b s = .ok w s') :
    ∃ root t, b.load (.node config.rootNode) s.storage = .ok root t ∧
      w = aroundLoaded config b { s with storage := t } root := by
  obtain ⟨root, mid, hload, hrest⟩ := exists_of_bind_ok h
  obtain ⟨t, ht, rfl⟩ := prepareStorage_ok hload
  cases hrest
  exact ⟨root, t, ht, rfl⟩

/-- The instances of a root and of the property with its type, made one after the other. -/
def rootInstances (heap : Heap) (node property : ItemState) : Handle × Handle × Heap :=
  let first := heap.alloc node
  let second := first.2.alloc property
  (first.1, second.1, second.2)

/-- The log that adds a root and the property with its type. -/
def rootLog (config : Config) (heap : Heap) (node property : ItemState) : ChangeLog Handle :=
  let made := rootInstances heap node property
  ((ChangeLog.new (.node config.rootNode)).added made.1).added made.2.1

/-- A workspace around a root that was made, before its batch is settled. -/
def aroundMade (config : Config) (b : Backend σ) (s : Shared σ) (node property : ItemState) :
    Workspace σ :=
  let made := rootInstances s.heap node property
  around config b .empty made.1 { s with heap := made.2.2 }

/-- Opening without a root succeeds with what was made and stored. -/
theorem openFresh_ok {config : Config} {b : Backend σ} {registry : Registry} {s s' : Shared σ}
    {w : Workspace σ} (h : openFresh config b registry s = .ok w s') :
    ∃ node property t,
      rootStates config.rootNode b s.storage registry = .ok (node, property) ∧
      b.store ((rootLog config s.heap node property).changeSet
        (rootInstances s.heap node property).2.2) s.storage = .ok () t ∧
      w = (aroundMade config b { s with storage := t } node property).persisted
        (rootLog config s.heap node property) := by
  rw [openFresh, get_bind] at h
  cases hroot : rootStates config.rootNode b s.storage registry with
  | error e => rw [hroot] at h; cases h
  | ok states =>
    obtain ⟨node, property⟩ := states
    rw [hroot] at h
    -- the two instances are made and their batch is stored
    replace h : (prepareStorage _ >>= fun _ => _ : Preparation σ (Workspace σ))
      { s with heap := (rootInstances s.heap node property).2.2 } = .ok w s' := h
    obtain ⟨u, mid, hstore, hrest⟩ := exists_of_bind_ok h
    obtain ⟨t, ht, rfl⟩ := prepareStorage_ok hstore
    cases hrest
    exact ⟨node, property, t, rfl, ht, rfl⟩

/-- The log of a fresh root is well-formed. -/
theorem wellFormed_rootLog (config : Config) (heap : Heap) (node property : ItemState) :
    (rootLog config heap node property).WellFormed :=
  ((ChangeLog.wellFormed_new _).record .added _).record .added _

/-- The instances of a fresh root are valid. -/
theorem valid_rootLog (config : Config) (heap : Heap) (node property : ItemState) :
    ∀ h ∈ (rootLog config heap node property).states,
      (rootInstances heap node property).2.2.Valid h := by
  intro k hk
  rcases ChangeLog.mem_states_record .added hk with rfl | hk
  · exact Heap.valid_alloc _ _
  · rcases ChangeLog.mem_states_record .added hk with rfl | hk
    · exact (Heap.grows_alloc _ _).valid (Heap.valid_alloc _ _)
    · cases hk

/-- The instances of a fresh root are new. -/
theorem fresh_rootLog (config : Config) (heap : Heap) (node property : ItemState) :
    ∀ h ∈ (rootLog config heap node property).states, heap.cells.size ≤ h.index := by
  intro h hh
  rcases ChangeLog.mem_states_record .added hh with rfl | hh
  · exact (Heap.grows_alloc heap node).size_le
  · rcases ChangeLog.mem_states_record .added hh with rfl | hh
    · exact Nat.le_refl _
    · cases hh

/-- The workspace around a fresh root is ready. -/
theorem ready_aroundMade {s : Shared σ} (hs : SharedSound s) (config : Config) (b : Backend σ)
    (node property : ItemState) : (aroundMade config b s node property).Ready b :=
  ready_around (SharedSound.alloc (SharedSound.alloc hs node) property) fun hid => by cases hid

/-- A workspace that was opened is one around a root that was loaded, or one around a root that was
made and stored. -/
theorem openOver_ok {config : Config} {b : Backend σ} {registry : Registry} {s s' : Shared σ}
    {w : Workspace σ} (h : openOver config b registry s = .ok w s') :
    ∃ asked, b.Queried s.storage asked ∧
      ((∃ root t, b.load (.node config.rootNode) asked = .ok root t ∧
        w = aroundLoaded config b { s with storage := t } root) ∨
      ∃ node property t,
        rootStates config.rootNode b asked registry = .ok (node, property) ∧
        b.store ((rootLog config s.heap node property).changeSet
          (rootInstances s.heap node property).2.2) asked = .ok () t ∧
        w = (aroundMade config b { s with storage := t } node property).persisted
          (rootLog config s.heap node property)) := by
  obtain ⟨found, mid, hask, hrest⟩ := exists_of_bind_ok h
  obtain ⟨t, ht, rfl⟩ := prepareStorage_ok hask
  have hasked := (Backend.Queried.refl (b := b) s.storage).contains (.node config.rootNode)
  rw [stateAfter_of_ok ht] at hasked
  refine ⟨t, hasked, ?_⟩
  cases found with
  | true => exact Or.inl (openExisting_ok hrest)
  | false => exact Or.inr (openFresh_ok hrest)

/-- The workspace around a loaded root is ready. -/
theorem ready_aroundLoaded {s : Shared σ} (hs : SharedSound s) (config : Config) (b : Backend σ)
    (root : ItemState) : (aroundLoaded config b s root).Ready b := by
  refine ready_around (SharedSound.alloc hs (root.withStatus .existing)) fun hid => ?_
  obtain ⟨-, rfl⟩ := peek?_aroundLoaded (b := b) (s := s) hid
  exact Heap.valid_alloc _ _

/-- A workspace that was opened is ready. -/
theorem ready_openOver {config : Config} {b : Backend σ} {registry : Registry} {s s' : Shared σ}
    {w : Workspace σ} (hs : SharedSound s) (h : openOver config b registry s = .ok w s') :
    w.Ready b := by
  obtain ⟨asked, -, ⟨root, t, -, rfl⟩ | ⟨node, property, t, -, -, rfl⟩⟩ := openOver_ok h
  · exact ready_aroundLoaded (s := { s with storage := t }) hs config b root
  · exact (ready_aroundMade (s := { s with storage := t }) hs config b node property).persisted
      (valid_rootLog config s.heap node property)

/-! ## Runs -/

/-- A workspace over a backend after it was opened and then read from and committed to in any order,
while its subtrees may change in any way that leaves their handles good. -/
inductive Reachable (b : Backend σ) : Workspace σ → Prop where
  | opened (config : Config) (registry : Registry) {s s' : Shared σ} {w : Workspace σ} :
    SharedSound s → openOver config b registry s = .ok w s' → Reachable b w
  | getItemState {w : Workspace σ} (held : List Handle) (id : ItemId) :
    Reachable b w → Reachable b (stateAfter (getItemState held id) w)
  | hasItemState {w : Workspace σ} (id : ItemId) :
    Reachable b w → Reachable b (stateAfter (hasItemState id) w)
  | getReferences {w : Workspace σ} (target : NodeId) :
    Reachable b w → Reachable b (stateAfter (getReferences target) w)
  | hasReferenceRecord {w : Workspace σ} (target : NodeId) :
    Reachable b w → Reachable b (stateAfter (hasReferenceRecord target) w)
  | checkTargetsExist {w : Workspace σ} (log : ChangeLog LocalItem) :
    Reachable b w → Reachable b (stateAfter (checkTargetsExist log) w)
  | stored {τ : Type} {w : Workspace σ} {sink : Sink σ τ} {log : ChangeLog LocalItem}
    (held : List Handle) (t : τ) :
    sink.OnlyReads → log.Recorded → Reachable b w →
    Reachable b (store sink held w t log).workspace
  | subtrees {w : Workspace σ} {heap : Heap} {providers : List Provider} (overlays : List Nat) :
    w.heap.Grows heap → SharedSound { w.toShared with heap, providers } → Reachable b w →
    Reachable b { w with heap, providers, overlays }

/-- Between two commits everything is in order, however the workspace was used. -/
theorem Reachable.ready {b : Backend σ} {w : Workspace σ} (hw : Reachable b w) : w.Ready b := by
  induction hw with
  | opened config registry hs h => exact ready_openOver hs h
  | getItemState held id _ ih =>
    exact ih.look (tracks_reading (lookedAt_itemState held id) _)
  | hasItemState id _ ih =>
    exact ih.look (tracks_orNo (tracks_reading (lookedAt_hasItem [] id)) _)
  | getReferences target _ ih =>
    exact ih.look (tracks_reading (lookedAt_references [] target) _)
  | hasReferenceRecord target _ ih =>
    exact ih.look (tracks_orNo (tracks_reading (lookedAt_hasReferences [] target)) _)
  | checkTargetsExist log _ ih => exact ih.look (lookedAt_checkTargetsExist [] log _)
  | stored held t hsink hlog _ ih => exact ih.store hsink hlog held t
  | subtrees overlays hgrows hs _ ih =>
    exact ⟨⟨fun hid => hgrows.valid (ih.sound.cached hid), hs⟩, ih.unlocked, ih.backend⟩

end ContentTree.Workspace
