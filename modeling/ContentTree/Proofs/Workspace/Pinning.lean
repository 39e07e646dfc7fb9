import ContentTree.Proofs.Workspace.Coherence
import ContentTree.Proofs.Workspace.Routing
import ContentTree.Proofs.Workspace.Sharing

/-!
# The instance of the root

A workspace holds the instance of its root beside the cache, so that it is never swept: it is what the
cache has for the root, and it is in use, as long as the root is neither added nor deleted
(`Pinning.rootKept`). The exception is a commit that modifies the root, fails, and cannot load the root
anew (`Forsakes`): the instance is given up and taken out of the cache, and the workspace still holds it.
-/

namespace ContentTree

variable {σ τ : Type}

/-! ## A commit keeps the root cached -/

namespace Commit

/-- Steps made under the lock that keep the instance of the root cached. -/
def KeepsRoot (c c' : Commit σ τ) : Prop :=
  c.workspace.locked = true → c'.workspace.locked = true ∧ c'.workspace.root = c.workspace.root ∧
    ∀ id, c.workspace.cache.peek? id = some c.workspace.root →
      c'.workspace.cache.peek? id = some c.workspace.root

instance : IsPreorder (Commit σ τ) KeepsRoot where
  refl _ h := ⟨h, rfl, fun _ hid => hid⟩
  trans _ _ _ hab hbc h := by
    obtain ⟨hlocked, hroot, hkept⟩ := hab h
    obtain ⟨hlocked', hroot', hkept'⟩ := hbc hlocked
    rw [hroot] at hroot' hkept'
    exact ⟨hlocked', hroot', fun id hid => hkept' id (hkept id hid)⟩

/-- Reading keeps the root cached, whatever else is done to the commit. -/
theorem KeepsRoot.of_rooted {c c' : Commit σ τ} {held : List Handle}
    (h : c.workspace.Rooted held c'.workspace) : KeepsRoot c c' := fun hlocked =>
  ⟨h.lookedAt.locked.trans hlocked, h.lookedAt.root,
    fun _ hid => Workspace.LookedAt.kept h hid (List.mem_cons_self ..)⟩

/-- Connecting an item keeps the root. -/
theorem keepsRoot_connectNext (a : ChangeLog.Class × ItemId × LocalItem) :
    Tracks KeepsRoot (connectNext a : Action σ τ Unit) := by
  intro c
  show KeepsRoot c (stateAfter (connectItem a.1 a.2.1 a.2.2) c)
  obtain ⟨w, hread, hafter | ⟨l', h, hafter⟩⟩ := stateAfter_connectItem a.1 a.2.1 a.2.2 c
  · rw [hafter]
    exact .of_rooted hread
  · rw [hafter]
    exact .of_rooted hread

/-- However far it gets, a commit keeps the root cached. -/
theorem keepsRoot_persist {sink : Sink σ τ} (hsink : sink.SparesRoot) :
    Tracks KeepsRoot (persist sink : Action σ τ Unit) := by
  intro c
  rw [stateAfter, persist_eq, forM_steps]
  refine Tracks.bind (R := KeepsRoot) (Tracks.forM fun a _ => keepsRoot_connectNext a) (fun _ => ?_) c
  refine tracks_finishing (refl_of KeepsRoot) (fun c hlocked => ?_) (fun c => ?_)
    fun c heap storage => refl_of KeepsRoot c
  · have hread : KeepsRoot c
        (stateAfter (onSink (sink.create c.holding c.workspace.rootId c.log)) c) := by
      rw [onSink, stateAfter_onPart]
      exact .of_rooted (hsink.create _ _ _ _ _ hlocked)
    exact hread hlocked
  · rw [onSink, stateAfter_onPart]
    exact .of_rooted (hsink.prepare [] _ _)

end Commit

namespace Workspace

variable {b : Backend σ} {ok : σ → Prop} {w w' : Workspace σ} {held : List Handle}
  {sink : Sink σ τ} {log : ChangeLog LocalItem} {t : τ}

/-! ## Single steps -/

/-- The instance of the root is in use, and it is what the cache has for the root. -/
structure Pinned (b : Backend σ) (w : Workspace σ) : Prop where
  ready : w.Ready b
  overlays : w.overlays = []
  id_root : w.root.id = .node w.rootId
  valid : w.heap.Valid w.root
  existing : (w.heap.read w.root).status = .existing
  cached : w.cache.peek? w.root.id = some w.root

/-- A commit fails that came to the instance of the root, and its undoing cannot load the root anew. -/
def Forsakes (sink : Sink σ τ) (held : List Handle) (w : Workspace σ) (t : τ)
    (log : ChangeLog LocalItem) : Prop :=
  ∃ records virtual w' e c before after e' storage,
    partitionReferences log log.references.values w = .ok (records, virtual) w' ∧
    Commit.persist sink (begin w' t held log records) = .error e c ∧
    c.touched = before ++ w.root :: after ∧
    w.backend.load w.root.id (reloads w.backend before c.workspace.storage) = .error e' storage

/-- A log that neither adds nor deletes the root of a workspace. -/
def SparesRoot (log : ChangeLog LocalItem) (w : Workspace σ) : Prop :=
  log.isAdded (.node w.rootId) = false ∧ log.isDeleted (.node w.rootId) = false

namespace Pinned

/-- Reading leaves the root pinned. -/
theorem look (hw : Pinned b w) (h : w.Rooted held w') : Pinned b w' := by
  have hlook := h.lookedAt
  have hread : w'.heap.read w.root = w.heap.read w.root := hlook.heap.read hw.valid
  refine ⟨hw.ready.look hlook, hlook.overlays.trans hw.overlays, ?_, ?_, ?_, ?_⟩
  · rw [hlook.root, rootId, hlook.config]
    exact hw.id_root
  · rw [hlook.root]
    exact hlook.heap.valid hw.valid
  · rw [hlook.root, hread]
    exact hw.existing
  · rw [hlook.root]
    exact LookedAt.kept h hw.cached (List.mem_cons_self ..)

/-- The root is still cached when a commit comes to its end, or to a step that fails. -/
theorem cached_of_persist (hw : Pinned b w) (hsink : sink.SparesRoot) (hlook : w.Rooted held w')
    {records : List NodeReferences} {c : Commit σ τ}
    (hc : stateAfter (Commit.persist sink) (begin w' t held log records) = c) :
    c.workspace.cache.peek? w.root.id = some w.root := by
  obtain ⟨-, -, hkept⟩ := hc ▸ Commit.keepsRoot_persist hsink (begin w' t held log records) rfl
  have hroot : (begin w' t held log records).workspace.root = w.root := hlook.lookedAt.root
  rw [hroot] at hkept
  exact hkept _ (LookedAt.kept hlook hw.cached (List.mem_cons_self ..))

/-- What becomes of the instance of the root in a commit that is abandoned: it is decided by its
reload if the commit came to it. -/
theorem abandon (hw : Pinned b w) {records : List NodeReferences} {c : Commit σ τ}
    (hc : Commit.Underway (begin w t held log records) c)
    (hcached : c.workspace.cache.peek? w.root.id = some w.root) (e : Error)
    (hreload : ∀ before after, c.touched = before ++ w.root :: after →
      ∃ s storage, w.backend.load w.root.id (reloads w.backend before c.workspace.storage) =
        .ok s storage) :
    Pinned b (Workspace.abandon e c).workspace := by
  have hrolled := rolledBack_abandon hw.ready hc e
  have hundo := concerns_rollBack c.workspace c.shared
  have hroot : (Workspace.abandon e c).workspace.root = w.root := congrArg (·.2.2.2.1) hrolled.outline
  have hconfig : (Workspace.abandon e c).workspace.config = w.config :=
    congrArg (·.2.1) hrolled.outline
  have hdecided : ((Workspace.abandon e c).workspace.heap.read w.root).status = .existing ∧
      (Workspace.abandon e c).workspace.cache.peek? w.root.id = some w.root := by
    -- if the commit came to the root, it was loaded anew, and else nothing happened to it
    by_cases htouched : w.root ∈ c.touched
    · obtain ⟨before, after, hsplit⟩ := List.append_of_mem htouched
      obtain ⟨s, storage, hload⟩ := hreload before after hsplit
      have hrecovered := hrolled.recovered before w.root after hsplit
      rw [hload] at hrecovered
      refine ⟨?_, (hrecovered.2.2 (unserved_of_overlays hw.overlays _)).2⟩
      rw [hrecovered.2.1 hw.valid]
      exact hw.existing
    · refine ⟨?_, (hrolled.entries _ _ htouched).2 hcached⟩
      rw [hrolled.others w.root hw.valid htouched]
      exact hw.existing
  refine
    { ready := hw.ready.abandon hc e
      overlays := hundo.overlays.trans (hc.overlays.trans hw.overlays)
      id_root := ?_
      valid := ?_
      existing := ?_
      cached := ?_ }
  · rw [hroot, rootId, hconfig]
    exact hw.id_root
  · rw [hroot]
    exact (hundo.valid _).2 (hc.keepsIds _ hw.valid)
  · rw [hroot]
    exact hdecided.1
  · rw [hroot]
    exact hdecided.2

/-- A commit that is settled leaves the instance of the root in use and in the cache. -/
theorem settle (hw : Pinned b w) (hroot : SparesRoot log w) {records : List NodeReferences}
    {c : Commit σ τ} (hc : Commit.Stored (begin w t held log records) c)
    (hcached : c.workspace.cache.peek? w.root.id = some w.root) (virtual : List NodeReferences) :
    Pinned b { (c.workspace.persisted c.shared).deliver virtual with locked := false } := by
  have hunder := hc.underway hw.ready.sound_begin
  have hsub : (begin w t held log records).workspace.subtrees = [] := subtrees_eq_nil hw.overlays
  -- the log may modify the root, but neither adds nor deletes it
  have hkeys : ∀ {cls}, w.root.id ∈ (c.shared.itemsOf cls).keys → cls = .modified := by
    intro cls hkey
    have hlog : w.root.id ∈ (log.itemsOf cls).keys := hc.mem_keys_shared.1 hkey
    rw [hw.id_root] at hlog
    cases cls with
    | modified => rfl
    | added => exact absurd (ChangeLog.isAdded_eq_true.2 hlog) (Bool.eq_false_iff.1 hroot.1)
    | deleted => exact absurd (ChangeLog.isDeleted_eq_true.2 hlog) (Bool.eq_false_iff.1 hroot.2)
  have hsame : (c.workspace.persisted c.shared).root = w.root :=
    (root_persisted _ _).trans hunder.root
  have hconfig : (c.workspace.persisted c.shared).config = w.config :=
    (config_persisted _ _).trans hunder.config
  have hvalid : c.workspace.heap.Valid w.root := hunder.keepsIds _ hw.valid
  have hstatus : (c.workspace.heap.read w.root).status = .existing := by
    rw [hunder.copied hw.valid]
    exact hw.existing
  refine
    { ready := hw.ready.settle hunder virtual
      overlays := (overlays_persisted _ _).trans (hunder.overlays.trans hw.overlays)
      id_root := ?_
      valid := ?_
      existing := ?_
      cached := ?_ }
  · show (c.workspace.persisted c.shared).root.id = .node (c.workspace.persisted c.shared).config.rootNode
    rw [hsame, hconfig]
    exact hw.id_root
  · show (c.workspace.persisted c.shared).heap.Valid (c.workspace.persisted c.shared).root
    rw [hsame, heap_persisted, valid_settledHeap]
    exact hvalid
  · show ((c.workspace.persisted c.shared).heap.read (c.workspace.persisted c.shared).root).status = _
    obtain ⟨hin, hout⟩ := read_settledHeap hunder.valid_states hunder.nodup_states hvalid
    rw [hsame, heap_persisted]
    by_cases hmem : w.root ∈ c.shared.states
    · obtain ⟨cls, hcls⟩ := ChangeLog.mem_states.1 hmem
      obtain rfl := hkeys (hunder.wellFormed.mem_keys hcls)
      rw [hin .modified hcls]
      rfl
    · rw [hout hmem]
      exact hstatus
  · show (c.workspace.persisted c.shared).cache.peek? (c.workspace.persisted c.shared).root.id =
      some (c.workspace.persisted c.shared).root
    obtain ⟨-, -, hother⟩ := peek?_settledCache hunder.wellFormed (hunder.deleted_eq hsub)
    rw [hsame, cache_persisted, hother, hcached]
    · exact fun hadded => absurd (@hkeys .added hadded) (by decide)
    · exact fun hdeleted => absurd (@hkeys .deleted hdeleted) (by decide)

/-- A commit leaves the root pinned unless it forsakes it. -/
theorem store (hw : Pinned b w) (hsink : sink.SparesRoot) (hlog : log.Recorded)
    (hroot : SparesRoot log w) (hkept : ¬Forsakes sink held w t log) :
    Pinned b (Workspace.store sink held w t log).workspace := by
  have hlook : w.Rooted held (stateAfter (partitionReferences log log.references.values) w) :=
    rooted_of_lookedAt (fun held => lookedAt_partitionReferences held log _) w
  have hcourse := store_course hw.ready hsink.onlyReads hlog held t
  generalize Workspace.store sink held w t log = out at hcourse ⊢
  cases hcourse with
  | refused hp =>
    rw [stateAfter_of_error hp] at hlook
    exact hw.look hlook
  | @abandoned records virtual w' e c hp hpersist hc =>
    rw [stateAfter_of_ok hp] at hlook
    have hcached := hw.cached_of_persist hsink hlook (stateAfter_of_error hpersist)
    refine hw.abandon (hc.underway hw.ready.sound_begin) hcached e fun before after hsplit => ?_
    cases hload : w.backend.load w.root.id (reloads w.backend before c.workspace.storage) with
    | ok s storage => exact ⟨s, storage, rfl⟩
    | error e' storage =>
      exact absurd ⟨records, virtual, w', e, c, before, after, e', storage, hp, hpersist, hsplit, hload⟩
        hkept
  | concluded hp hpersist hc =>
    rw [stateAfter_of_ok hp] at hlook
    have hcached := hw.cached_of_persist hsink hlook (stateAfter_of_ok hpersist)
    exact (hw.settle hroot hc hcached _).look (hsink.dispatch _ _ _)

/-- A commit that forsakes the root gives its instance up. -/
theorem forsaken (hw : Pinned b w) (hsink : sink.SparesRoot) (hlog : log.Recorded)
    (hlost : Forsakes sink held w t log) :
    let w' := (Workspace.store sink held w t log).workspace
    w'.root = w.root ∧ (w'.heap.read w.root).status = .discarded ∧ w'.cache.peek? w.root.id = none := by
  obtain ⟨records, virtual, w', e, c, before, after, e', storage, hp, hpersist, hsplit, hload⟩ := hlost
  have hlook := lookedAt_partitionReferences held log log.references.values w
  rw [stateAfter_of_ok hp] at hlook
  have hrun := persist_begin hw.ready hsink.onlyReads hlog hlook t records
  rw [hpersist] at hrun
  rw [store_of_persist_error hw.ready.unlocked hp hpersist]
  have hrolled := rolledBack_abandon hw.ready (hrun.underway hw.ready.sound_begin) e
  have hrecovered := hrolled.recovered before w.root after hsplit
  rw [hload] at hrecovered
  exact ⟨congrArg (·.2.2.2.1) hrolled.outline, hrecovered.1,
    hrecovered.2.2 (unserved_of_overlays hw.overlays _)⟩

/-- Disposing of the cache leaves the root pinned. -/
theorem dispose (hw : Pinned b w) : Pinned b w.dispose := by
  have hpeek : ∀ id, w.dispose.cache.peek? id = if id = w.root.id then some w.root else none :=
    fun id => Cache.peek?_put _ _ _
  refine ⟨⟨⟨fun {id h} hid => ?_, hw.ready.sound.provided⟩, hw.ready.unlocked, hw.ready.backend⟩,
    hw.overlays, hw.id_root, hw.valid, hw.existing, (hpeek _).trans (if_pos rfl)⟩
  rw [hpeek] at hid
  split at hid
  · cases hid
    exact hw.valid
  · cases hid

/-- What is stored, and who is told of transitions, does not concern the root. -/
theorem switch (hw : Pinned b w) (storage : σ) (notifier : Notifier) :
    Pinned b { w with storage, notifier } :=
  ⟨⟨⟨hw.ready.sound.cached, hw.ready.sound.provided⟩, hw.ready.unlocked, hw.ready.backend⟩,
    hw.overlays, hw.id_root, hw.valid, hw.existing, hw.cached⟩

/-- A workspace that was opened holds the instance of its root. -/
theorem openOver (hb : b.Truthful ok) {config : Config} {registry : Registry} {s s' : Shared σ}
    (hs : SharedSound s) (hok : ok s.storage)
    (h : Workspace.openOver config b registry s = .ok w s') : Pinned b w := by
  have htied := Tied.openOver hb hs hok h
  have hbare : w.root.id = .node w.rootId ∧ (w.heap.read w.root).status = .existing := by
    obtain ⟨asked, hasked, ⟨root, m, hload, rfl⟩ | ⟨node, property, m, hmade, -, rfl⟩⟩ := openOver_ok h
    · have hid : root.id = .node config.rootNode := hb.id_load (hb.asked hok hasked) hload
      refine ⟨hid, ?_⟩
      show ((s.heap.alloc (root.withStatus .existing)).2.read
        (s.heap.alloc (root.withStatus .existing)).1).status = _
      rw [Heap.read_alloc]
      rfl
    · obtain ⟨hnode, name, hproperty⟩ := id_rootStates hb hmade
      have hwf := wellFormed_rootLog config s.heap node property
      have hvalid := valid_rootLog config s.heap node property
      have hadded : _ ∈ (rootLog config s.heap node property).addedItems.values :=
        root_mem_rootLog hnode hproperty
      have hnodup : (rootLog config s.heap node property).states.Nodup :=
        .of_map Tracked.itemId (hwf.map_itemId_states ▸ hwf.nodup_scope)
      obtain ⟨hin, -⟩ := read_settledHeap hvalid hnodup
        (hvalid _ (ChangeLog.mem_states.2 ⟨.added, hadded⟩))
      rw [rootId, config_persisted, root_persisted, heap_persisted]
      refine ⟨hnode, ?_⟩
      · show ((settledHeap (rootInstances s.heap node property).2.2 _).read
          (rootInstances s.heap node property).1).status = _
        rw [hin .added hadded]
        rfl
  have hlive : w.Live w.root := by
    rw [Live, hbare.2]
    rfl
  exact ⟨htied.ready, htied.overlays, hbare.1, htied.valid _ (List.mem_singleton.2 rfl), hbare.2,
    htied.current _ (List.mem_singleton.2 rfl) hlive⟩

end Pinned

/-- A memory that has the root can load it anew. -/
theorem not_forsakes_of_stored {w : Workspace MemoryStore} {sink : Sink MemoryStore τ}
    (hw : w.Ready MemoryStore.backend) (hsink : sink.OnlyReads) (hlog : log.Recorded)
    (hstored : w.storage.items.contains w.root.id = true) : ¬Forsakes sink held w t log := by
  rintro ⟨records, virtual, w', e, c, before, after, e', storage, hp, hpersist, -, hload⟩
  have hlook := lookedAt_partitionReferences held log log.references.values w
  rw [stateAfter_of_ok hp] at hlook
  have hrun := persist_begin hw hsink hlog hlook t records
  rw [hpersist] at hrun
  have hitems : (reloads MemoryStore.backend before c.workspace.storage).items = w.storage.items :=
    (MemoryStore.items_queried (queried_reloads _ _ _)).trans (memory_of_stopped hw hrun).1
  rw [hw.backend, MemoryStore.load_eq, hitems] at hload
  rw [OrderedMap.contains_eq_isSome] at hstored
  cases hget : w.storage.items.get? w.root.id with
  | none =>
    rw [hget] at hstored
    cases hstored
  | some s =>
    rw [hget] at hload
    cases hload

/-! ## Runs -/

/-- A workspace without virtual subtrees after it was opened, and then asked, committed to and disposed
of in any order. No log adds or deletes the root, and no commit forsakes it. Between two steps the
storage may change in any way: what fails next is up to the storage. -/
inductive Pinning (b : Backend σ) : Workspace σ → Prop where
  | opened {ok : σ → Prop} (config : Config) (registry : Registry) {s s' : Shared σ}
    {w : Workspace σ} : b.Truthful ok → SharedSound s → ok s.storage →
    openOver config b registry s = .ok w s' → Pinning b w
  | asked {w w' : Workspace σ} : Asked w w' → Pinning b w → Pinning b w'
  | stored {τ : Type} {w : Workspace σ} {sink : Sink σ τ} {log : ChangeLog LocalItem}
    (held : List Handle) (t : τ) : sink.SparesRoot → log.Recorded → SparesRoot log w →
    ¬Forsakes sink held w t log → Pinning b w → Pinning b (store sink held w t log).workspace
  | disposed {w : Workspace σ} : Pinning b w → Pinning b w.dispose
  | switched {w : Workspace σ} (storage : σ) (notifier : Notifier) :
    Pinning b w → Pinning b { w with storage, notifier }

/-- A pinning workspace has its root pinned. -/
theorem Pinning.pinned (hw : Pinning b w) : Pinned b w := by
  induction hw with
  | opened config registry hb hs hok h => exact .openOver hb hs hok h
  | asked h _ ih => exact ih.look h.rooted
  | stored held t hsink hlog hroot hkept _ ih => exact ih.store hsink hlog hroot hkept
  | disposed _ ih => exact ih.dispose
  | switched storage notifier _ ih => exact ih.switch storage notifier

/-- How a workspace stands with its root. -/
structure RootKept (w : Workspace σ) : Prop where
  /-- The instance that the workspace holds is in use. -/
  existing : (w.heap.read w.root).status = .existing
  /-- It is the one that is read, and stays in use. -/
  served : ∀ held, ∃ w', getItemState held (.node w.rootId) w = .ok w.root w' ∧
    (w'.heap.read w.root).status = .existing
  /-- A commit that forsakes the root leaves the workspace with an instance that is given up and that
  is no longer the one that is read. -/
  lost : ∀ {τ : Type} (sink : Sink σ τ) (held : List Handle) (t : τ) (log : ChangeLog LocalItem),
    sink.SparesRoot → log.Recorded → Forsakes sink held w t log →
    let w' := (store sink held w t log).workspace
    w'.root = w.root ∧ (w'.heap.read w.root).status = .discarded ∧ w'.cache.peek? w.root.id = none

/-- **The instance of the root is the one that is read.** -/
theorem Pinning.rootKept (hw : Pinning b w) : RootKept w where
  existing := hw.pinned.existing
  served held := by
    have hpinned := hw.pinned
    have hclaim := claimant?_eq_none hpinned.overlays (.node w.rootId)
    have hcached := hpinned.cached
    rw [hpinned.id_root] at hcached
    obtain ⟨w', hread⟩ := itemState_of_cached hclaim hcached held
    have hlook := lookedAt_itemState held (.node w.rootId) w
    rw [stateAfter_of_ok hread] at hlook
    refine ⟨w', (reading_of_unlocked hpinned.ready.unlocked _).trans hread, ?_⟩
    rw [hlook.heap.read hpinned.valid]
    exact hpinned.existing
  lost _ _ _ _ hsink hlog hlost := hw.pinned.forsaken hsink hlog hlost

/-! ### A commit that modifies the root and fails -/

namespace Sample

/-- A log that gives the root another type. -/
def retypedTop : ChangeLog LocalItem :=
  (ChangeLog.new (.node default)).record .modified
    (.new ⟨.node default, .existing, 0, .node (.new ⟨"retyped"⟩ none)⟩)

/-- The log that retypes the root is recorded. -/
theorem recorded_retypedTop : retypedTop.Recorded :=
  (ChangeLog.Recorded.new _).record .modified (LocalItem.faithful_new _)

/-- A workspace opened by default is pinning. -/
theorem pinning_opened (m : MemoryStore) (hm : MemoryStore.Keyed m.items)
    (h : openOver ⟨"sample", default, 1, none, 1⟩ MemoryStore.backend Registry.default ⟨∅, [], m⟩ =
      .ok (opened m) (opened m).toShared) : Pinning MemoryStore.backend (opened m) :=
  .opened _ _ MemoryStore.truthful_backend (fun p hp => by cases hp) hm h

/-- A memory whose next batch fails, of which every load but the second succeeds. -/
def losing : Backend (MemoryStore × Nat) :=
  MemoryStore.backend.unsteady fun n _ => if n = 1 then some (.persistence .injected) else none

/-- A workspace over that memory, after it was opened. -/
def losingOpened : Workspace (MemoryStore × Nat) :=
  aroundLoaded ⟨"sample", default, 1, none, 1⟩ losing
    ⟨∅, [], ({ memory with failNext := true, loads := 1 }, 1)⟩ (.empty (.node default))

end Sample

/-- The batch is refused, the root is loaded anew, and everything else is let go. -/
theorem Pinning.rootKept_refused :
    let w := Sample.opened { Sample.memory with failNext := true }
    let out := store (Sink.silent MemoryStore) [] w () Sample.retypedTop
    out.result = .error (.persistence .injected) ∧
      (out.workspace.dispose.heap.read w.root).status = .existing := by
  have hopened := Sample.pinning_opened { Sample.memory with failNext := true } Sample.keyed_memory rfl
  have hkept : ¬Forsakes (Sink.silent MemoryStore) []
      (Sample.opened { Sample.memory with failNext := true }) () Sample.retypedTop :=
    not_forsakes_of_stored hopened.pinned.ready Sink.onlyReads_silent Sample.recorded_retypedTop
      (by decide +kernel)
  exact ⟨by decide +kernel, (Pinning.rootKept (.disposed (.stored [] ()
    Sink.sparesRoot_silent Sample.recorded_retypedTop ⟨by decide +kernel, by decide +kernel⟩ hkept
    hopened))).existing⟩

/-- The batch is refused and the root cannot be loaded anew: the workspace holds an instance that was
given up, and what is read is another one. -/
theorem root_lost :
    let w := Sample.losingOpened
    let out := store (Sink.silent (MemoryStore × Nat)) [] w () Sample.retypedTop
    openOver ⟨"sample", default, 1, none, 1⟩ Sample.losing Registry.default
        ⟨∅, [], ({ Sample.memory with failNext := true }, 0)⟩ = .ok w w.toShared ∧
      Sample.retypedTop.Recorded ∧ SparesRoot Sample.retypedTop w ∧
      out.result = .error (.persistence .injected) ∧ out.workspace.root = w.root ∧
      (out.workspace.heap.read w.root).status = .discarded ∧
      (getItemState [] (.node w.rootId)).run' out.workspace ≠ none ∧
      (getItemState [] (.node w.rootId)).run' out.workspace ≠ some out.workspace.root :=
  ⟨rfl, Sample.recorded_retypedTop, ⟨by decide +kernel, by decide +kernel⟩, by decide +kernel,
    by decide +kernel, by decide +kernel, by decide +kernel, by decide +kernel⟩

end Workspace

end ContentTree
