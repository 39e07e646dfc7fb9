import ContentTree.Proofs.Workspace.Commuting
import ContentTree.Proofs.Workspace.Succeeding

/-!
# Commits that are made again

A commit that fails because the storage does can be made again with the same log (`Served.retry`).
Undoing leaves the data and the status of all overlays and takes their connections, so the log says the
same to the storage as before, and nothing in it can be in the way of a second attempt. What the first
attempt did to the cache, loading, sweeping and giving up instances, shows neither in what is stored nor
in what the overlays are connected to.
-/

namespace ContentTree

/-! ## Logs with the same states -/

namespace ChangeLog

variable {log log' : ChangeLog LocalItem}

/-- Logs with the same states have the same state under an identity. -/
theorem get?_state_of_eq (h : log'.mapStates LocalItem.state = log.mapStates LocalItem.state)
    (cls : Class) (item : ItemId) : ((log'.itemsOf cls).get? item).map LocalItem.state =
      ((log.itemsOf cls).get? item).map LocalItem.state := by
  rw [← OrderedMap.get?_map (fun _ => LocalItem.state), ← itemsOf_mapStates, h, itemsOf_mapStates,
    OrderedMap.get?_map]

/-- Logs with the same states have the same keys. -/
theorem keys_of_eq (h : log'.mapStates LocalItem.state = log.mapStates LocalItem.state) (cls : Class) :
    (log'.itemsOf cls).keys = (log.itemsOf cls).keys := by
  rw [← OrderedMap.keys_map (fun _ => LocalItem.state), ← itemsOf_mapStates, h, itemsOf_mapStates,
    OrderedMap.keys_map]

/-- Logs with the same states contain the same items. -/
theorem contains_of_eq (h : log'.mapStates LocalItem.state = log.mapStates LocalItem.state)
    (cls : Class) (item : ItemId) :
    (log'.itemsOf cls).contains item = (log.itemsOf cls).contains item := by
  rw [Bool.eq_iff_iff, OrderedMap.contains_eq_true, OrderedMap.contains_eq_true, keys_of_eq h]

/-- Logs with the same states have the same reference records. -/
theorem references_of_eq (h : log'.mapStates LocalItem.state = log.mapStates LocalItem.state) :
    log'.references = log.references :=
  congrArg (fun states : ChangeLog ItemState => states.references) h

/-- Logs with the same states say the same of an item. -/
theorem verdict?_of_eq (h : log'.mapStates LocalItem.state = log.mapStates LocalItem.state)
    (item : ItemId) : log'.verdict? item = log.verdict? item := by
  have hget : (log'.get? item).map LocalItem.state = (log.get? item).map LocalItem.state := by
    rw [get?, get?, Option.map_or, Option.map_or]
    exact congrArg₂ _ (get?_state_of_eq h .added item) (get?_state_of_eq h .modified item)
  have hverdict : ∀ log : ChangeLog LocalItem, log.verdict? item = if log.isDeleted item then some none
      else ((log.get? item).map LocalItem.state).map fun s => some ⟨item, .existing, 0, s.data⟩ := by
    intro log
    rw [verdict?, Option.map_map]
    rfl
  rw [hverdict, hverdict, hget, show log'.isDeleted item = log.isDeleted item from
    contains_of_eq h .deleted item]

/-- Logs with the same states say the same of a reference record. -/
theorem recordVerdict?_of_eq (h : log'.mapStates LocalItem.state = log.mapStates LocalItem.state)
    (target : NodeId) : log'.recordVerdict? target = log.recordVerdict? target := by
  rw [recordVerdict?, recordVerdict?, references_of_eq h]

/-- A log that lost its connections only is as good as before. -/
theorem Recorded.of_eq (hlog : log.Recorded)
    (h : log'.mapStates LocalItem.state = log.mapStates LocalItem.state)
    (hfree : ∀ l ∈ log'.states, l.overlayed = none) : log'.Recorded := by
  refine ⟨?_, fun l hl k hk => ?_⟩
  · have hstates : (log'.mapStates LocalItem.state).WellFormed :=
      h ▸ hlog.wellFormed.mapStates fun _ => rfl
    exact hstates.of_mapStates fun _ => rfl
  · rw [hfree l hl] at hk
    cases hk

end ChangeLog

namespace Workspace

variable {τ : Type} {w : Workspace MemoryStore} {sink : Sink MemoryStore τ} {held : List Handle}
  {log log' : ChangeLog LocalItem} {t : τ}

/-- A memory with the same items knows a log with the same states. -/
theorem Knows.of_eq {m m' : MemoryStore} (h : Knows m log)
    (hstates : log'.mapStates LocalItem.state = log.mapStates LocalItem.state)
    (hitems : m'.items = m.items) : Knows m' log' := by
  intro cls hcls item hitem
  rw [ChangeLog.keys_of_eq hstates] at hitem
  exact hitems ▸ h cls hcls item hitem

/-- A record still resolves over the same items and the same states. -/
theorem Resolves.of_eq {m m' : MemoryStore} {r : NodeReferences} (h : Resolves m log r)
    (hstates : log'.mapStates LocalItem.state = log.mapStates LocalItem.state)
    (hitems : m'.items = m.items) : Resolves m' log' r := by
  intro hr
  rw [hitems, ChangeLog.isDeleted, ChangeLog.isAdded, ChangeLog.isModified]
  have hcontains := fun cls => ChangeLog.contains_of_eq hstates cls (.node r.target)
  rw [show log'.deletedItems.contains _ = _ from hcontains .deleted,
    show log'.addedItems.contains _ = _ from hcontains .added,
    show log'.modifiedItems.contains _ = _ from hcontains .modified]
  exact h hr

/-! ## The attempt that fails -/

/-- The workspace whose storage fails at the next batch, or does not. -/
def failing (w : Workspace MemoryStore) (fails : Bool) : Workspace MemoryStore :=
  { w with storage := { w.storage with failNext := fails } }

/-- A served workspace stays served when its memory is told to fail or not to. -/
theorem Served.failing (hw : Served MemoryStore.backend id w) (fails : Bool) :
    Served MemoryStore.backend id (w.failing fails) :=
  hw.switched rfl

/-- A commit whose reference records are in order is undone if the storage fails. -/
theorem InStep.exists_abandoned (hw : InStep MemoryStore.backend id w) (hsink : sink.OnlyReads)
    (hlog : log.Recorded) (hresolves : ∀ r ∈ log.references.values, Resolves w.storage log r)
    (hfail : w.storage.failNext = true) (held : List Handle) (t : τ) :
    ∃ e c, (Workspace.store sink held w t log).result = .error e ∧
      RolledBack held w log c (Workspace.store sink held w t log) := by
  obtain ⟨⟨records, virtual⟩, mid, hp⟩ := hw.exists_partition_ok hresolves
  have hcourse := store_course hw.ready hsink hlog held t
  generalize Workspace.store sink held w t log = out at hcourse ⊢
  cases hcourse with
  | refused hrefused =>
    rw [hp] at hrefused
    cases hrefused
  | abandoned _ _ hc =>
    exact ⟨_, _, rfl, rolledBack_abandon hw.ready (hc.underway hw.ready.sound_begin) _⟩
  | concluded _ _ hc =>
    have hhealthy := (knows_of_stored hw.ready hc).1
    rw [hfail] at hhealthy
    cases hhealthy

/-! ## Two commits that end the same -/

/-- Two instances that stand for the same item in their workspaces, or did so until it was deleted. -/
structure Counterparts (cls : ChangeLog.Class) (w w' : Workspace MemoryStore) (h h' : Handle) :
    Prop where
  id_eq : h.id = h'.id
  valid : w.heap.Valid h ∧ w'.heap.Valid h'
  status : (w.heap.read h).status = (w'.heap.read h').status
  data : (w.heap.read h).data = (w'.heap.read h').data
  cached : w.cache.peek? h.id = if cls = .deleted then none else some h
  cached' : w'.cache.peek? h'.id = if cls = .deleted then none else some h'

/-- Two commits that end the same: with the same answer, the same contents of the storages, and the same
data, status and connection of every overlay. -/
structure SameEnd (out out' : Outcome MemoryStore τ) : Prop where
  result : out.result = out'.result
  storage : out.workspace.storage.Alike out'.workspace.storage
  states : ∀ cls item, ((out.log.itemsOf cls).get? item).map LocalItem.state =
    ((out'.log.itemsOf cls).get? item).map LocalItem.state
  connections : ∀ cls item l l', (out.log.itemsOf cls).get? item = some l →
    (out'.log.itemsOf cls).get? item = some l' → ∃ h h', l.overlayed = some h ∧
      l'.overlayed = some h' ∧ h.id = item ∧ Counterparts cls out.workspace out'.workspace h h'

/-- How two overlays of an item with the same state are settled by commits that succeed. -/
theorem Settled.counterparts {w w' u u' : Workspace MemoryStore} {cls : ChangeLog.Class}
    {l l' k k' : LocalItem} {h h' : Handle} (hs : Settled w u cls l k h) (hs' : Settled w' u' cls l' k' h')
    (hstate : l'.state = l.state) : k.state = k'.state ∧ Counterparts cls u u' h h' := by
  have hstatus : (u.heap.read h).status = (u'.heap.read h').status := by
    rw [hs.status, hs'.status]
  have hid : h.id = h'.id := by
    rw [hs.id_eq, hs'.id_eq, LocalItem.id, LocalItem.id, hstate]
  refine ⟨?_, hid, ⟨hs.valid, hs'.valid⟩, hstatus, ?_, hs.cached, hs'.cached⟩
  · rw [hs.state, hs'.state, hstate, hstatus]
  · rw [hs.data, hs'.data, hstate]

/-- Commits of the same states to storages with the same contents end the same if they succeed. -/
theorem Committed.sameEnd {w' : Workspace MemoryStore} {out out' : Outcome MemoryStore τ}
    (hlog : log.Recorded) (hlog' : log'.Recorded)
    (hstates : log'.mapStates LocalItem.state = log.mapStates LocalItem.state)
    (hitems : w'.storage.items = w.storage.items) (hrecords : w'.storage.records = w.storage.records)
    (hc : Committed w log out) (hc' : Committed w' log' out') (hresult : out.result = out'.result) :
    SameEnd out out' := by
  obtain ⟨hstored, hkept⟩ := hc.stored_eq hlog
  obtain ⟨hstored', hkept'⟩ := hc'.stored_eq hlog'
  -- what becomes of an overlay of the first log and of its twin in the second one
  have hboth : ∀ {cls item l}, (log.itemsOf cls).get? item = some l → ∃ k k' h h',
      (out.log.itemsOf cls).get? item = some k ∧ (out'.log.itemsOf cls).get? item = some k' ∧
      k.overlayed = some h ∧ k'.overlayed = some h' ∧ h.id = item ∧ k.state = k'.state ∧
      Counterparts cls out.workspace out'.workspace h h' := by
    intro cls item l hl
    have htwin := ChangeLog.get?_state_of_eq hstates cls item
    rw [hl] at htwin
    obtain ⟨l', hl', hstate⟩ := Option.map_eq_some_iff.1 htwin
    obtain ⟨k, h, hk, hs⟩ := hc.settled hl
    obtain ⟨k', h', hk', hs'⟩ := hc'.settled hl'
    exact ⟨k, k', h, h', hk, hk', hs.connected, hs'.connected,
      hs.id_eq.trans (hlog.wellFormed.itemId_eq cls hl), hs.counterparts hs' hstate⟩
  refine ⟨hresult, ⟨fun item => ?_, fun target => ?_⟩, fun cls item => ?_,
    fun cls item k k' hk hk' => ?_⟩
  · rw [hstored, hstored', ChangeLog.verdict?_of_eq hstates, hitems]
  · rw [hkept, hkept', ChangeLog.recordVerdict?_of_eq hstates, hrecords]
  · cases hl : (log.itemsOf cls).get? item with
    | some l =>
      obtain ⟨k, k', -, -, hk, hk', -, -, -, hstate, -⟩ := hboth hl
      rw [hk, hk']
      exact congrArg some hstate
    | none =>
      have hnot : item ∉ (log.itemsOf cls).keys := OrderedMap.get?_eq_none.1 hl
      have hnone : (out.log.itemsOf cls).get? item = none :=
        OrderedMap.get?_eq_none.2 (hc.keys cls ▸ hnot)
      have hnone' : (out'.log.itemsOf cls).get? item = none :=
        OrderedMap.get?_eq_none.2 (by rwa [hc'.keys cls, ChangeLog.keys_of_eq hstates])
      rw [hnone, hnone']
  · have hmem : item ∈ (log.itemsOf cls).keys :=
      hc.keys cls ▸ OrderedMap.mem_keys_iff.2 ⟨k, hk⟩
    obtain ⟨l, hl⟩ := OrderedMap.mem_keys_iff.1 hmem
    obtain ⟨i, i', h, h', hi, hi', hover, hover', hid, -, hsame⟩ := hboth hl
    obtain rfl : i = k := Option.some.inj (hi.symm.trans hk)
    obtain rfl : i' = k' := Option.some.inj (hi'.symm.trans hk')
    exact ⟨h, h', hover, hover', hid, hsame⟩

/-- **A commit that failed can be made again** as soon as the storage works, and ends as if it had not
failed. -/
theorem Served.retry (hw : Served MemoryStore.backend id w) (hsink : sink.Calm) (hlog : log.Recorded)
    (hok : (store sink held w t log).result = .ok ()) (held₁ held₂ : List Handle) (t₁ t₂ : τ) :
    let failed := store sink held₁ (w.failing true) t₁ log
    let retried := store sink held₂ (failed.workspace.failing false) t₂ failed.log
    (∃ e, failed.result = .error e) ∧ retried.result = .ok () ∧
      SameEnd (store sink held w t log) retried := by
  intro failed retried
  have hstep := hw.inStep Backend.overMemory_memory
  obtain ⟨-, hthere, hresolves⟩ := hstep.needs_of_store_ok hsink.toOnlyReads hlog hok
  -- the first attempt is undone
  have hbroken := (hw.failing true).inStep Backend.overMemory_memory
  obtain ⟨e, c, herr, hback⟩ := hbroken.exists_abandoned hsink.toOnlyReads hlog hresolves rfl held₁ t₁
  have hmemory := memory_of_store_error hbroken.ready hsink.toOnlyReads hlog herr
  have hitems : (failed.workspace.failing false).storage.items = w.storage.items := hmemory.1
  have hrecords : (failed.workspace.failing false).storage.records = w.storage.records := hmemory.2
  -- the second one finds what the first one would have found
  have hlog' : failed.log.Recorded := hlog.of_eq hback.states hback.disconnected
  have hhealed := ((Served.stored held₁ t₁ hsink.toOnlyReads hlog (hw.failing true)).failing
    false).inStep Backend.overMemory_memory
  have hretried : retried.result = .ok () :=
    hhealed.store_result_ok hsink hlog' hback.disconnected (hthere.of_eq hback.states hitems)
      (fun r hr => (hresolves r (ChangeLog.references_of_eq hback.states ▸ hr)).of_eq hback.states hitems)
      rfl held₂ t₂
  refine ⟨⟨e, herr⟩, hretried, ?_⟩
  exact (hstep.committed hsink.toOnlyReads hlog hok).sameEnd hlog hlog' hback.states hitems hrecords
    (hhealed.committed hsink.toOnlyReads hlog' hretried) (hok.trans hretried.symm)

/-- A commit that adds an item and deletes one, with a reference to the added item. -/
theorem Served.retry_replacement :
    let failed := store (Sink.silent MemoryStore) [] ((Sample.workspace Sample.memory).failing true) ()
      Sample.replacement
    let retried := store (Sink.silent MemoryStore) [] (failed.workspace.failing false) () failed.log
    (store (Sink.silent MemoryStore) [] (Sample.workspace Sample.memory) ()
        Sample.replacement).result = .ok () ∧
      (∃ e, failed.result = .error e) ∧ retried.result = .ok () ∧
      SameEnd (store (Sink.silent MemoryStore) [] (Sample.workspace Sample.memory) ()
        Sample.replacement) retried := by
  have hok : (store (Sink.silent MemoryStore) [] (Sample.workspace Sample.memory) ()
      Sample.replacement).result = .ok () := by decide +kernel
  exact ⟨hok, Served.retry Sample.served_memory Sink.calm_silent Sample.recorded_replacement hok [] [] ()
    ()⟩

end Workspace

end ContentTree
