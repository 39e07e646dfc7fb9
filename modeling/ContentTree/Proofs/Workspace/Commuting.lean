import ContentTree.Proofs.Workspace.Coherence
import ContentTree.Proofs.Workspace.Presence

/-!
# Commits of logs that have nothing in common

What a commit makes of the storage is said by its log alone: every item and every reference record that
the log names, and nothing else. What the commit loads, sweeps and replaces in the cache does not matter,
since cache and storage agree between commits. So two logs without a common item and a common target may
be committed in either order (`Served.commute`). The order shows in the modification counts only: an
item that has been swept by another commit is loaded with the count that is stored.
-/

namespace ContentTree

/-! ## What a log says -/

/-- A state apart from its modification count. -/
def ItemState.uncounted (s : ItemState) : ItemState :=
  { s with modCount := 0 }

/-- Storages with the same items, apart from their modification counts, and the same reference
records. -/
structure MemoryStore.Alike (m m' : MemoryStore) : Prop where
  items : ∀ id, (m.items.get? id).map ItemState.uncounted = (m'.items.get? id).map ItemState.uncounted
  records : ∀ target, m.records.get? target = m'.records.get? target

namespace ChangeLog

variable {log : ChangeLog LocalItem}

/-- What a log says of an item that it names: that it is gone, or how it is to be stored, apart from its
modification count. -/
def verdict? (log : ChangeLog LocalItem) (id : ItemId) : Option (Option ItemState) :=
  if log.isDeleted id then some none
  else (log.get? id).map fun l => some ⟨id, .existing, 0, l.state.data⟩

/-- What a log says of the references to a node that it carries a record for. -/
def recordVerdict? (log : ChangeLog LocalItem) (target : NodeId) : Option (Option NodeReferences) :=
  (log.references.get? target).map fun r => if r.hasReferences then some r else none

/-- A log says nothing about an item out of its scope. -/
theorem verdict?_of_not_mem {id : ItemId} (h : id ∉ log.scope) : log.verdict? id = none := by
  have hnot : ∀ cls, id ∉ (log.itemsOf cls).keys := fun cls hid => h (mem_scope.2 ⟨cls, hid⟩)
  have hd : log.isDeleted id = false :=
    Bool.eq_false_iff.2 fun hd => hnot .deleted (isDeleted_eq_true.1 hd)
  have ha : log.addedItems.get? id = none := OrderedMap.get?_eq_none.2 (hnot .added)
  have hm : log.modifiedItems.get? id = none := OrderedMap.get?_eq_none.2 (hnot .modified)
  simp [verdict?, hd, get?, ha, hm]

/-- A well-formed log says of an item in one of its sets what its class says. -/
theorem WellFormed.verdict?_of_get? (hlog : log.WellFormed) {cls : Class} {id : ItemId} {l : LocalItem}
    (hl : (log.itemsOf cls).get? id = some l) : log.verdict? id =
      some (if cls = .deleted then none else some ⟨id, .existing, 0, l.state.data⟩) := by
  have hkey : id ∈ (log.itemsOf cls).keys := OrderedMap.mem_keys_iff.2 ⟨l, hl⟩
  have hother : ∀ cls', cls' ≠ cls → (log.itemsOf cls').get? id = none := by
    intro cls' hne
    exact OrderedMap.get?_eq_none.2 fun hkey' => hne (hlog.class_eq cls' cls hkey' hkey)
  have hdeleted : log.isDeleted id = decide (cls = .deleted) := by
    rw [Bool.eq_iff_iff, isDeleted_eq_true, decide_eq_true_eq]
    exact ⟨fun hd => (hlog.class_eq _ _ hd hkey).symm, fun hcls => hcls ▸ hkey⟩
  rw [verdict?, hdeleted]
  cases cls with
  | deleted => rfl
  | added =>
    replace hl : log.addedItems.get? id = some l := hl
    simp [get?, hl]
  | modified =>
    have ha : log.addedItems.get? id = none := hother .added (by decide)
    replace hl : log.modifiedItems.get? id = some l := hl
    simp [get?, hl, ha]

end ChangeLog

namespace Workspace

variable {τ : Type} {w w' : Workspace MemoryStore} {log : ChangeLog LocalItem}
  {sink : Sink MemoryStore τ} {t : τ} {held : List Handle}

/-- What is stored after a commit is what its log says, and what was stored before where the log says
nothing. -/
theorem Committed.stored_eq {out : Outcome MemoryStore τ} (hlog : log.Recorded)
    (hc : Committed w log out) :
    (∀ id, (out.workspace.storage.items.get? id).map ItemState.uncounted =
      (log.verdict? id).getD ((w.storage.items.get? id).map ItemState.uncounted)) ∧
    ∀ target, out.workspace.storage.records.get? target =
      (log.recordVerdict? target).getD (w.storage.records.get? target) := by
  refine ⟨fun id => ?_, fun target => ?_⟩
  · by_cases hid : id ∈ log.scope
    · obtain ⟨cls, hkey⟩ := ChangeLog.mem_scope.1 hid
      obtain ⟨l, hl⟩ := OrderedMap.mem_keys_iff.1 hkey
      obtain ⟨l', h, -, hs⟩ := hc.settled hl
      have hid' : h.id = id := hs.id_eq.trans (hlog.wellFormed.itemId_eq cls hl)
      have hstored := hs.stored
      rw [hid'] at hstored
      rw [hlog.wellFormed.verdict?_of_get? hl, hstored]
      split <;> rfl
    · rw [hc.items id hid, ChangeLog.verdict?_of_not_mem hid]
      rfl
  · rw [hc.records target, ChangeLog.recordVerdict?]
    cases log.references.get? target <;> rfl

/-- A commit that succeeds, whatever the workspace went through before it. -/
theorem InStep.committed (hw : InStep MemoryStore.backend id w) (hsink : sink.OnlyReads)
    (hlog : log.Recorded) (hok : (Workspace.store sink held w t log).result = .ok ()) :
    Committed w log (Workspace.store sink held w t log) := by
  obtain ⟨records, virtual, mid, c, hp, hc, hstore⟩ := exists_of_store_ok hw.ready hsink hlog hok
  rw [partitionReferences_ok hw.overlays hp] at hc
  have hsettled := committed_settle hw.ready hw.overlays hlog hc virtual
  have hbackend := (hw.ready.settle (hc.underway hw.ready.sound_begin) virtual).backend
  rw [hstore]
  exact hsettled.look hbackend (hsink.dispatch _ _ _) _

/-- The workspace `w'` is what a commit of `log` to `w` leaves that succeeds, whoever is told of it and
whatever handles others have. -/
inductive Saved (log : ChangeLog LocalItem) (w : Workspace MemoryStore) : Workspace MemoryStore → Prop
  | store {τ : Type} {sink : Sink MemoryStore τ} (held : List Handle) (t : τ) : sink.OnlyReads →
    (Workspace.store sink held w t log).result = .ok () →
    Saved log w (Workspace.store sink held w t log).workspace

/-- A saved log leaves the workspace in step. -/
theorem Saved.inStep (h : Saved log w w') (hlog : log.Recorded) (hw : InStep MemoryStore.backend id w) :
    InStep MemoryStore.backend id w' := by
  obtain ⟨held, t, hsink, -⟩ := h
  exact hw.store Backend.overMemory_memory hsink hlog held t

/-- After a saved log the store holds what the log says, and else what it held. -/
theorem Saved.stored_eq (h : Saved log w w') (hlog : log.Recorded)
    (hw : InStep MemoryStore.backend id w) :
    (∀ id, (w'.storage.items.get? id).map ItemState.uncounted =
      (log.verdict? id).getD ((w.storage.items.get? id).map ItemState.uncounted)) ∧
    ∀ target, w'.storage.records.get? target =
      (log.recordVerdict? target).getD (w.storage.records.get? target) := by
  obtain ⟨held, t, hsink, hok⟩ := h
  exact (hw.committed hsink hlog hok).stored_eq hlog

/-! ## Reading afterwards -/

/-- Between commits an item that is not stored is not found. -/
theorem InStep.getItemState_of_none (hw : InStep MemoryStore.backend id w) {item : ItemId}
    (hget : w.storage.items.get? item = none) (held : List Handle) :
    getItemState held item w = .error (.noSuchItem item) w := by
  have hload : w.backend.load item w.storage = .error (.noSuchItem item) w.storage := by
    rw [hw.ready.backend, MemoryStore.load_eq, hget]
  -- a cached instance would stand for a stored item
  have hnot : w.cache.peek? item = none := by
    cases hc : w.cache.peek? item with
    | none => rfl
    | some h =>
      obtain ⟨s, hs, -⟩ := (hw.coherent item h hc).stored
      rw [show w.storage.items.get? item = some s from hs] at hget
      cases hget
  have hmissing : cachedOrLoaded item w = .error (.noSuchItem item) w := by
    rw [cachedOrLoaded_of_not_cached hnot, hload]
  have howner : w.owner? item = none := by
    rw [owner?, subtrees_eq_nil hw.overlays]
    rfl
  rw [getItemState, reading_of_unlocked hw.ready.unlocked, itemState, get_bind,
    claimant?_eq_none hw.overlays]
  refine (tryCatch_of_error (bind_of_error hmissing)).trans ?_
  rw [if_pos (show (Error.noSuchItem item).isNotFound = true from rfl), get_bind, howner]
  rfl

/-- And one that is stored is found as it is stored. -/
theorem InStep.getItemState_of_some (hw : InStep MemoryStore.backend id w) {item : ItemId}
    {s : ItemState} (hget : w.storage.items.get? item = some s) (held : List Handle) :
    ∃ h u, getItemState held item w = .ok h u ∧ (u.heap.read h).status = .existing ∧
      (u.heap.read h).data = s.data := by
  have hload : MemoryStore.backend.load item w.storage =
      .ok s { w.storage with loads := w.storage.loads + 1 } := by
    rw [MemoryStore.load_eq, hget]
  have hkeeps : w.Keeps item := Or.inr ⟨s, _, hw.ready.backend.symm ▸ hload⟩
  obtain ⟨h, u, hread⟩ := (itemState_ok_iff (hw.ready.backend.symm ▸ MemoryStore.unfailing w.storage)
    (claimant?_eq_none hw.overlays item) held).2 (Or.inl hkeeps)
  have hlook := lookedAt_itemState held item w
  rw [stateAfter_of_ok hread] at hlook
  -- what is found is cached then, and so as it is stored
  have hmirrors := (hw.look Backend.overMemory_memory hlook).coherent item h
    (peek?_of_itemState hw.overlays hread)
  obtain ⟨s', hs', hdata⟩ := hmirrors.stored
  rw [show (id u.storage).items = w.storage.items from (hlook.memory hw.ready.backend).1, hget] at hs'
  cases hs'
  refine ⟨h, u, ?_, hmirrors.status, hdata.symm⟩
  rw [getItemState, reading_of_unlocked hw.ready.unlocked, hread]

/-- Two answers to a question for an item that say the same: there is no such item, or it exists with
the same data. -/
inductive SameAnswer (item : ItemId) :
    EStateM.Result Error (Workspace MemoryStore) Handle →
    EStateM.Result Error (Workspace MemoryStore) Handle → Prop
  | missing (u u' : Workspace MemoryStore) :
    SameAnswer item (.error (.noSuchItem item) u) (.error (.noSuchItem item) u')
  | existing {h h' : Handle} {u u' : Workspace MemoryStore} :
    (u.heap.read h).status = .existing → (u'.heap.read h').status = .existing →
    (u.heap.read h).data = (u'.heap.read h').data → SameAnswer item (.ok h u) (.ok h' u')

/-- Over storages with the same items the same is found. -/
theorem InStep.sameAnswer (hw : InStep MemoryStore.backend id w) (hw' : InStep MemoryStore.backend id w')
    (halike : w.storage.Alike w'.storage) (item : ItemId) (held held' : List Handle) :
    SameAnswer item (getItemState held item w) (getItemState held' item w') := by
  have hitem := halike.items item
  cases hget : w.storage.items.get? item with
  | none =>
    rw [hget] at hitem
    have hget' : w'.storage.items.get? item = none := Option.map_eq_none_iff.1 hitem.symm
    rw [hw.getItemState_of_none hget, hw'.getItemState_of_none hget']
    exact .missing w w'
  | some s =>
    rw [hget] at hitem
    obtain ⟨s', hget', hsame⟩ := Option.map_eq_some_iff.1 hitem.symm
    obtain ⟨h, u, hread, hstatus, hdata⟩ := hw.getItemState_of_some hget held
    obtain ⟨h', u', hread', hstatus', hdata'⟩ := hw'.getItemState_of_some hget' held'
    rw [hread, hread']
    refine .existing hstatus hstatus' ?_
    rw [hdata, hdata']
    exact (congrArg ItemState.data hsame).symm

/-! ## Two logs -/

/-- Of two logs that do not both say something of an item, it does not matter which is heard first. -/
theorem getD_comm {α : Type} {a b : Option α} (h : a = none ∨ b = none) (c : α) :
    b.getD (a.getD c) = a.getD (b.getD c) := by
  rcases h with rfl | rfl <;> rfl

/-- **Commits of logs that have nothing in common may be made in either order.** -/
theorem Served.commute {first second : ChangeLog LocalItem} {u v u' v' : Workspace MemoryStore}
    (hw : Served MemoryStore.backend id w) (hfirst : first.Recorded) (hsecond : second.Recorded)
    (hitems : first.scope.Disjoint second.scope)
    (htargets : first.references.keys.Disjoint second.references.keys)
    (hu : Saved first w u) (hv : Saved second u v) (hu' : Saved second w u') (hv' : Saved first u' v') :
    v.storage.Alike v'.storage ∧
      ∀ item held held', SameAnswer item (Workspace.getItemState held item v)
        (Workspace.getItemState held' item v') := by
  have hstep := hw.inStep Backend.overMemory_memory
  obtain ⟨hitems₁, hrecords₁⟩ := hu.stored_eq hfirst hstep
  obtain ⟨hitems₁₂, hrecords₁₂⟩ := hv.stored_eq hsecond (hu.inStep hfirst hstep)
  obtain ⟨hitems₂, hrecords₂⟩ := hu'.stored_eq hsecond hstep
  obtain ⟨hitems₂₁, hrecords₂₁⟩ := hv'.stored_eq hfirst (hu'.inStep hsecond hstep)
  have halike : v.storage.Alike v'.storage := by
    refine ⟨fun item => ?_, fun target => ?_⟩
    · rw [hitems₁₂, hitems₁, hitems₂₁, hitems₂]
      apply getD_comm
      by_cases hmem : item ∈ first.scope
      · exact Or.inr (ChangeLog.verdict?_of_not_mem fun hmem' => hitems hmem hmem')
      · exact Or.inl (ChangeLog.verdict?_of_not_mem hmem)
    · rw [hrecords₁₂, hrecords₁, hrecords₂₁, hrecords₂]
      apply getD_comm
      by_cases hmem : target ∈ first.references.keys
      · refine Or.inr ?_
        rw [ChangeLog.recordVerdict?, OrderedMap.get?_eq_none.2 fun hmem' => htargets hmem hmem']
        rfl
      · refine Or.inl ?_
        rw [ChangeLog.recordVerdict?, OrderedMap.get?_eq_none.2 hmem]
        rfl
  exact ⟨halike, (hv.inStep hsecond (hu.inStep hfirst hstep)).sameAnswer
    (hv'.inStep hfirst (hu'.inStep hsecond hstep)) halike⟩

/-! ### Two logs, each for a part of a storage -/

namespace Sample

/-- The workspace over the memory is served. -/
theorem served_memory : Served MemoryStore.backend id (workspace memory) :=
  .getItemState [] known (.opened ⟨"sample", default, 1, none, 1⟩ Registry.default
    (s := ⟨∅, [], memory⟩) (fun p hp => by cases hp) keyed_memory rfl)

/-- A log that gives the known item another type. -/
def retypedKnown : ChangeLog LocalItem :=
  (ChangeLog.new (.node default)).record .modified
    (.new ⟨known, .existing, 0, .node (.new ⟨"retyped"⟩ none)⟩)

/-- A log that deletes the other item, adds one, and records a reference to the root. -/
def replacement : ChangeLog LocalItem :=
  ((ChangeLog.new (.node default)).record .deleted (.new (.empty other))).record .added
    (.new (.empty fresh))
    |>.modifiedReferences ⟨default, [⟨default, Name.primaryType⟩]⟩

/-- The log that retypes an item already read is recorded. -/
theorem recorded_retypedKnown : retypedKnown.Recorded :=
  (ChangeLog.Recorded.new _).record .modified (LocalItem.faithful_new _)

/-- The log that replaces an item is recorded. -/
theorem recorded_replacement : replacement.Recorded :=
  (((ChangeLog.Recorded.new _).record .deleted (LocalItem.faithful_new _)).record .added
    (LocalItem.faithful_new _)).modifiedReferences _

/-- A workspace after a commit of a log. -/
def afterLog (log : ChangeLog LocalItem) (w : Workspace MemoryStore) : Workspace MemoryStore :=
  (store (Sink.silent MemoryStore) [] w () log).workspace

/-- A log that is stored with success is saved. -/
theorem saved_afterLog {log : ChangeLog LocalItem} {w : Workspace MemoryStore}
    (hok : (store (Sink.silent MemoryStore) [] w () log).result = .ok ()) :
    Saved log w (afterLog log w) :=
  .store [] () Sink.onlyReads_silent hok

end Sample

/-- One session retypes an item, and another one deletes an item and adds one. -/
theorem Served.commute_retyped :
    let v := Sample.afterLog Sample.replacement
      (Sample.afterLog Sample.retypedKnown (Sample.workspace Sample.memory))
    let v' := Sample.afterLog Sample.retypedKnown
      (Sample.afterLog Sample.replacement (Sample.workspace Sample.memory))
    Sample.retypedKnown.scope.Disjoint Sample.replacement.scope ∧
      v.storage.Alike v'.storage ∧ ∀ item held held',
        SameAnswer item (Workspace.getItemState held item v)
          (Workspace.getItemState held' item v') := by
  have hitems : Sample.retypedKnown.scope.Disjoint Sample.replacement.scope :=
    List.disjoint_left.2 (by decide +kernel)
  exact ⟨hitems, Served.commute Sample.served_memory Sample.recorded_retypedKnown
    Sample.recorded_replacement hitems (List.disjoint_left.2 (by decide +kernel))
    (Sample.saved_afterLog (by decide +kernel)) (Sample.saved_afterLog (by decide +kernel))
    (Sample.saved_afterLog (by decide +kernel)) (Sample.saved_afterLog (by decide +kernel))⟩

end Workspace

end ContentTree
