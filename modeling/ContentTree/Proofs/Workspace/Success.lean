import ContentTree.Encoding.Portable
import ContentTree.Proofs.Persistence.Memory
import ContentTree.Proofs.Workspace.Failure

/-!
# Commits that succeed

A commit to a storage in memory that succeeds changes what is stored by exactly what its log says,
item by item and record by record, and leaves every overlay in step with the instance that stands for
its item (`store_ok`).
-/

namespace ContentTree.Workspace

variable {τ : Type} {w : Workspace MemoryStore}

/-- The modification count of an instance before a commit: its own, or if the commit loads it that
of the stored item. One that the commit makes begins with none. -/
def countBefore (w : Workspace MemoryStore) (cls : ChangeLog.Class) (h : Handle) : Nat :=
  match cls with
  | .added => 0
  | _ =>
    match w.heap.cells[h.index]? with
    | some s => s.modCount
    | none => ((w.storage.items.get? h.id).map ItemState.modCount).getD 0

/-- How an overlay `l` in a set of the log, its instance `h` and what is stored of the item stand
after a commit to `w` that left `w'` and the overlay `l'`. -/
structure Settled (w w' : Workspace MemoryStore) (cls : ChangeLog.Class) (l l' : LocalItem)
    (h : Handle) : Prop where
  connected : l'.overlayed = some h
  id_eq : h.id = l.id
  valid : w'.heap.Valid h
  /-- The overlay keeps its data and has the status of its instance. -/
  state : l'.state = l.state.withStatus (w'.heap.read h).status
  base : l'.baseModCount = (w'.heap.read h).modCount
  /-- An overlay whose item was not deleted has not fallen behind. -/
  current : cls ≠ .deleted → l'.refreshStatus w'.heap = l' ∧ l'.status.isStale = false
  data : (w'.heap.read h).data = l.state.data
  status : (w'.heap.read h).status = if cls = .deleted then .destroyed else .existing
  count : (w'.heap.read h).modCount = countBefore w cls h + if cls = .modified then 1 else 0
  /-- A count of 64 bits that is not at its end stays in its range. -/
  count_le : countBefore w cls h < maxUInt64 → (w'.heap.read h).modCount ≤ maxUInt64
  cached : w'.cache.peek? h.id = if cls = .deleted then none else some h
  stored : w'.storage.items.get? h.id = if cls = .deleted then none
    else some ⟨h.id, .existing, countBefore w cls h, l.state.data⟩

/-- An overlay in step with an instance that exists has not fallen behind. -/
theorem refreshStatus_of_current {heap : Heap} {l : LocalItem} {h : Handle}
    (hover : l.overlayed = some h) (hstatus : (heap.read h).status = .existing)
    (hstate : l.state.status = (heap.read h).status)
    (hbase : l.baseModCount = (heap.read h).modCount) :
    l.refreshStatus heap = l ∧ l.status.isStale = false := by
  constructor
  · simp only [LocalItem.refreshStatus, hover, hstatus, hbase]
    rw [if_neg (by decide), if_neg (fun hne => hne rfl)]
  · rw [LocalItem.status, hstate, hstatus]
    rfl

/-- How a commit of `log` to the workspace `w` ends that succeeds. -/
structure Committed (w : Workspace MemoryStore) (log : ChangeLog LocalItem)
    (out : Outcome MemoryStore τ) : Prop where
  /-- Every overlay is settled, under the same identity in the same set. -/
  settled : ∀ {cls id l}, (log.itemsOf cls).get? id = some l →
    ∃ l' h, (out.log.itemsOf cls).get? id = some l' ∧ Settled w out.workspace cls l l' h
  keys : ∀ cls, (out.log.itemsOf cls).keys = (log.itemsOf cls).keys
  /-- Items that the log does not name are stored as before. -/
  items : ∀ id, id ∉ log.scope →
    out.workspace.storage.items.get? id = w.storage.items.get? id
  /-- Records of the log are stored if they hold references, and all others as before. -/
  records : ∀ target, out.workspace.storage.records.get? target =
    match log.references.get? target with
    | some r => if r.hasReferences then some r else none
    | none => w.storage.records.get? target
  /-- Instances that no overlay of the log is connected to are as before. -/
  others : ∀ h, w.heap.Valid h → h ∉ out.log.connections →
    out.workspace.heap.Valid h ∧ out.workspace.heap.read h = w.heap.read h
  unlocked : out.workspace.locked = false

/-! ## Reference records -/

section Split

variable {σ τ : Type} {w w' : Workspace σ} {held : List Handle}

/-- A reference record whose target a registered subtree holds. -/
def isVirtual (w : Workspace σ) (r : NodeReferences) : Bool :=
  (w.owner? (.node r.target)).isSome

/-- The owner of an item is the same while the workspace is looked at. -/
theorem LookedAt.owner? (h : w.LookedAt held w') (id : ItemId) : w'.owner? id = w.owner? id := by
  rw [Workspace.owner?, h.subtrees, Workspace.owner?]

/-- Without overlays no record is virtual. -/
theorem isVirtual_of_overlays (h : w.overlays = []) (r : NodeReferences) : w.isVirtual r = false := by
  rw [isVirtual, owner?, subtrees_eq_nil h]
  rfl

/-- The same records are virtual while the workspace is looked at. -/
theorem LookedAt.isVirtual (h : w.LookedAt held w') : w'.isVirtual = w.isVirtual := by
  funext r
  rw [Workspace.isVirtual, h.owner?, Workspace.isVirtual]

/-- The records of a log are split by where their targets are, in their order, and each of those for
the backend was found not to dangle at some time in between. -/
theorem partitionReferences_eq {log : ChangeLog LocalItem} {rs records virtual : List NodeReferences}
    (h : partitionReferences log rs w = .ok (records, virtual) w') :
    records = rs.filter (fun r => !w.isVirtual r) ∧ virtual = rs.filter w.isVirtual ∧
      ∀ r ∈ records, ∃ mid mid', w.LookedAt [] mid ∧ isDangling log r mid = .ok false mid' := by
  induction rs generalizing w records virtual with
  | nil =>
    cases h
    exact ⟨rfl, rfl, fun r hr => by cases hr⟩
  | cons r rest ih =>
    replace h : (if w.isVirtual r then
        (partitionReferences log rest >>= fun p => pure (p.1, r :: p.2))
      else (isDangling log r >>= fun dangling => if dangling = true then throw _ else
        (partitionReferences log rest >>= fun p => pure (r :: p.1, p.2))) :
      Action σ (List NodeReferences × List NodeReferences)) w = .ok (records, virtual) w' := h
    cases hr : w.isVirtual r with
    | true =>
      rw [hr, if_pos rfl] at h
      obtain ⟨p, mid, hp, hpure⟩ := exists_of_bind_ok h
      cases hpure
      obtain ⟨hrecords, hvirtual, hfound⟩ := ih hp
      refine ⟨?_, ?_, hfound⟩
      · rw [List.filter_cons_of_neg (by simp [hr]), hrecords]
      · rw [List.filter_cons_of_pos hr, hvirtual]
    | false =>
      rw [hr, if_neg (by decide)] at h
      obtain ⟨dangling, mid, hask, hrest⟩ := exists_of_bind_ok h
      have hlook := lookedAt_isDangling [] log r w
      rw [stateAfter_of_ok hask] at hlook
      cases dangling with
      | true => cases hrest
      | false =>
        obtain ⟨p, later, hp, hpure⟩ := exists_of_bind_ok hrest
        cases hpure
        obtain ⟨hrecords, hvirtual, hfound⟩ := ih hp
        -- later records are divided as at the beginning, as the owners are the same
        rw [hlook.isVirtual] at hrecords hvirtual
        refine ⟨?_, ?_, fun s hs => ?_⟩
        · rw [List.filter_cons_of_pos (by simp [hr]), hrecords]
        · rw [List.filter_cons_of_neg (by simp [hr]), hvirtual]
        · rcases List.mem_cons.1 hs with rfl | hs
          · exact ⟨w, mid, refl_of (LookedAt []) w, hask⟩
          · obtain ⟨mid', mid'', hmid', hask'⟩ := hfound s hs
            exact ⟨mid', mid'', trans_of (LookedAt []) hlook hmid', hask'⟩

/-- Without virtual subtrees all reference records of a log are for the backend. -/
theorem partitionReferences_ok (hw : w.overlays = []) {log : ChangeLog LocalItem}
    {rs records virtual : List NodeReferences}
    (h : partitionReferences log rs w = .ok (records, virtual) w') : records = rs := by
  rw [(partitionReferences_eq h).1, List.filter_eq_self]
  intro r _
  rw [isVirtual_of_overlays hw]
  rfl

/-- A commit that succeeds was concluded with the records that it had split off. -/
theorem exists_of_store_ok {b : Backend σ} {sink : Sink σ τ} {log : ChangeLog LocalItem} {t : τ}
    (hw : w.Ready b) (hsink : sink.OnlyReads) (hlog : log.Recorded)
    (hok : (store sink held w t log).result = .ok ()) :
    ∃ records virtual mid c,
      partitionReferences log log.references.values w = .ok (records, virtual) mid ∧
      Commit.Stored (begin w t held log records) c ∧
      store sink held w t log = conclude sink virtual c := by
  have hcourse := store_course hw hsink hlog held t
  generalize store sink held w t log = out at hcourse hok ⊢
  cases hcourse with
  | refused hp => cases hok
  | abandoned hp _ hc => cases hok
  | concluded hp _ hc => exact ⟨_, _, _, _, hp, hc, rfl⟩

end Split

/-- The shared log takes over the reference records of the log. -/
theorem references_foldl_modifiedReferences {log : ChangeLog LocalItem} (hlog : log.WellFormed) :
    (log.references.values.foldl ChangeLog.modifiedReferences
      (.new log.target : ChangeLog Handle)).references = log.references := by
  have hhom : (log.references.values.foldl ChangeLog.modifiedReferences
      (.new log.target : ChangeLog Handle)).references =
      log.references.values.foldl (fun m r => m.insert r.target r) .empty :=
    (List.foldl_hom (fun log : ChangeLog Handle => log.references) fun _ _ => rfl).symm
  have hentries : ∀ (es : List (NodeId × NodeReferences)) m, (∀ e ∈ es, e.2.target = e.1) →
      (es.map Prod.snd).foldl (fun m r => OrderedMap.insert m r.target r) m =
        es.foldl (fun m e => m.insert e.1 e.2) m := by
    intro es
    induction es with
    | nil => exact fun _ _ => rfl
    | cons e rest ih =>
      intro m hes
      rw [List.map_cons, List.foldl_cons, List.foldl_cons, hes e (List.mem_cons_self ..)]
      exact ih _ fun k hk => hes k (List.mem_cons_of_mem e hk)
  rw [hhom, OrderedMap.values, hentries _ _ fun e he =>
    hlog.target_eq (OrderedMap.get?_eq_some.2 he)]
  exact log.references.foldl_insert_entries

/-! ## The instances before the batch is settled -/

section Stored

variable {held : List Handle} {t : τ} {log : ChangeLog LocalItem} {records : List NodeReferences}
  {c : Commit MemoryStore τ}

/-- A cached instance that the commit did not make has the count that it had before the commit, or that
of the stored item if it was loaded since. -/
theorem modCount_of_cached (hw : w.Ready MemoryStore.backend) {w' : Workspace MemoryStore}
    {cls : ChangeLog.Class} {h : Handle}
    (hlook : ({ w with locked := true } : Workspace MemoryStore).LookedAt held w')
    (hpeek : w'.cache.peek? h.id = some h) (hcls : cls ≠ .added) :
    (w'.heap.read h).modCount = countBefore w cls h := by
  have hcount : countBefore w cls h = match w.heap.cells[h.index]? with
      | some s => s.modCount
      | none => ((w.storage.items.get? h.id).map ItemState.modCount).getD 0 := by
    cases cls with
    | added => exact absurd rfl hcls
    | _ => rfl
  rw [hcount]
  rcases hlook.entry hpeek with hold | hnew
  · -- it was cached before the commit
    have hv : w.heap.Valid h := hw.sound.cached hold
    rw [hlook.heap.read hv]
    obtain ⟨s, hs, -⟩ := hv
    show (w.heap.read h).modCount = _
    simp only [Heap.read, Array.getD_eq_getD_getElem?, hs, Option.getD_some]
  · -- it was loaded by the commit
    obtain ⟨m, s, m', hq, hload, hstate⟩ := hnew.content
    have hnone : w.heap.cells[h.index]? = none := Array.getElem?_eq_none hnew.fresh
    rw [show ({ w with locked := true } : Workspace MemoryStore).backend = MemoryStore.backend
      from hw.backend] at hq hload
    have hitem : w.storage.items.get? h.id = some s :=
      (congrArg (·.get? h.id) (MemoryStore.items_queried hq)).symm.trans
        (MemoryStore.get?_of_load_ok hload)
    rw [hnone, hstate]
    simp only [hitem, Option.map_some, Option.getD_some]
    rfl

/-- An instance of the shared log, before data is pushed, has the count that it had before the commit
or that it was loaded with. -/
theorem modCount_entered (hw : w.Ready MemoryStore.backend) (hoverlays : w.overlays = [])
    {cls : ChangeLog.Class} {id : ItemId} {h : Handle}
    (hlook : ({ w with locked := true } : Workspace MemoryStore).LookedAt held c.workspace)
    (he : Commit.Entered { w with locked := true } c cls id h) :
    (c.workspace.heap.read h).modCount = countBefore w cls h ∧
      (cls ≠ .added → c.workspace.cache.peek? h.id = some h) := by
  have hsubtrees : ({ w with locked := true } : Workspace MemoryStore).subtrees = [] :=
    subtrees_eq_nil hoverlays
  have hplaced := he.placed
  cases cls with
  | added =>
    obtain ⟨-, -, m, s, hstate⟩ := hplaced
    refine ⟨?_, fun hcls => absurd rfl hcls⟩
    rw [hstate, show ({ w with locked := true } : Workspace MemoryStore).backend =
      MemoryStore.backend from hw.backend]
    show (ItemState.empty s.id).modCount = 0
    cases s.id <;> rfl
  | modified =>
    rcases hplaced with hpeek | ⟨p, hp, -⟩
    · exact ⟨modCount_of_cached hw hlook hpeek (by decide), fun _ => hpeek⟩
    · rw [hsubtrees] at hp; cases hp
  | deleted =>
    rcases hplaced with hpeek | ⟨p, hp, -⟩
    · exact ⟨modCount_of_cached hw hlook hpeek (by decide), fun _ => hpeek⟩
    · rw [hsubtrees] at hp; cases hp

/-- How an overlay stands once all data is pushed. -/
structure Pushed (w : Workspace MemoryStore) (before : Commit MemoryStore τ) (heap : Heap)
    (cls : ChangeLog.Class) (l l' : LocalItem) (h : Handle) : Prop where
  shared : h ∈ (before.shared.itemsOf cls).values
  id_eq : h.id = l.id
  valid : heap.Valid h
  connected : l'.overlayed = some h
  state : l'.state = l.state
  data : (heap.read h).data = l.state.data
  count : (heap.read h).modCount = countBefore w cls h
  cached : cls ≠ .added → before.workspace.cache.peek? h.id = some h

/-- After the push every overlay of the log is connected to a shared instance that has its data. -/
theorem pushed_of_push (hw : w.Ready MemoryStore.backend) (hoverlays : w.overlays = [])
    (hlog : log.Recorded) {before : Commit MemoryStore τ} {heap : Heap}
    (hbefore : Commit.Connecting (begin w t held log records)
      (log.agenda.map fun a => (a.1, a.2.1)) before)
    (hpush : before.log.push before.workspace.heap = .ok () heap) {cls : ChangeLog.Class}
    {id : ItemId} {l : LocalItem} (hl : (log.itemsOf cls).get? id = some l) :
    ∃ l' h, (before.log.itemsOf cls).get? id = some l' ∧ Pushed w before heap cls l l' h := by
  obtain ⟨l', h, hl', hh, hover, hstate, hvalid, hread⟩ :=
    hbefore.exists_pushed hlog.wellFormed hpush hl
  have he := hbefore.entered hh
  obtain ⟨hcount, hcached⟩ := modCount_entered hw hoverlays hbefore.looked he
  have hid : l.id = id := hlog.wellFormed.itemId_eq cls hl
  refine ⟨l', h, hl',
    { shared := OrderedMap.mem_values.2 ⟨id, hh⟩
      id_eq := he.id_eq.trans hid.symm
      valid := hvalid
      connected := hover
      state := hstate
      data := ?_
      count := ?_
      cached := hcached }⟩
  · rw [hread]
    rfl
  · rw [hread]
    exact hcount

/-! ## The batch -/

/-- The batch of a log writes the items in the added and in the modified set, and deletes those in the
deleted one. -/
theorem get?_items_changeSet {shared : ChangeLog Handle} (hshared : shared.WellFormed) {heap : Heap}
    (hvalid : ∀ h ∈ shared.states, heap.Valid h) (m : MemoryStore) :
    (∀ cls, ∀ h ∈ (shared.itemsOf cls).values,
      (m.applied (shared.changeSet heap)).items.get? h.id =
        if cls = .deleted then none else some ((heap.read h).withStatus .existing)) ∧
    (∀ id, id ∉ shared.scope →
      (m.applied (shared.changeSet heap)).items.get? id = m.items.get? id) := by
  have hids : ∀ cls, ((shared.itemsOf cls).values.map heap.read).map ItemState.id =
      (shared.itemsOf cls).keys := by
    intro cls
    rw [← hshared.map_itemId_values cls, List.map_map]
    exact List.map_congr_left fun h hh =>
      (hvalid h (ChangeLog.mem_states.2 ⟨cls, hh⟩)).read_id
  have hwritten : (shared.changeSet heap).written.map ItemState.id =
      (shared.itemsOf .added).keys ++ (shared.itemsOf .modified).keys := by
    rw [← hids .added, ← hids .modified, ← List.map_append]
    rfl
  have hdeleted : (shared.changeSet heap).deleted = (shared.itemsOf .deleted).keys :=
    hshared.map_itemId_values .deleted
  have hnodup : ((shared.changeSet heap).written.map ItemState.id).Nodup := by
    rw [hwritten]
    exact (List.nodup_append.1 hshared.nodup_scope).1
  obtain ⟨hin, hout, hother⟩ := MemoryStore.get?_items_applied hnodup m
  -- a state that is written stands under an identity that is not deleted
  have hwrite : ∀ cls, cls ≠ .deleted → ∀ h ∈ (shared.itemsOf cls).values,
      heap.read h ∈ (shared.changeSet heap).written →
      (m.applied (shared.changeSet heap)).items.get? h.id =
        some ((heap.read h).withStatus .existing) := by
    intro cls hcls h hh hmem
    have hid : (heap.read h).id = h.id := (hvalid h (ChangeLog.mem_states.2 ⟨cls, hh⟩)).read_id
    rw [← hid]
    refine hin _ hmem fun hd => hcls ?_
    rw [hdeleted, hid] at hd
    exact hshared.class_eq _ _ (hshared.mem_keys hh) hd
  refine ⟨fun cls h hh => ?_, fun id hid => ?_⟩
  · cases cls with
    | added =>
      exact hwrite .added (by decide) h hh (List.mem_append_left _ (List.mem_map.2 ⟨h, hh, rfl⟩))
    | modified =>
      exact hwrite .modified (by decide) h hh
        (List.mem_append_right _ (List.mem_map.2 ⟨h, hh, rfl⟩))
    | deleted => exact hout h.id (List.mem_map.2 ⟨h, hh, rfl⟩)
  · rw [ChangeLog.scope, List.mem_append, not_or] at hid
    exact hother id (hwritten ▸ hid.1) (hdeleted ▸ hid.2)

/-- The batch of a log writes the reference records that hold references. -/
theorem get?_records_changeSet {shared : ChangeLog Handle} (hshared : shared.WellFormed)
    (heap : Heap) (m : MemoryStore) (target : NodeId) :
    (m.applied (shared.changeSet heap)).records.get? target =
      match shared.references.get? target with
      | some r => if r.hasReferences then some r else none
      | none => m.records.get? target := by
  have htargets : (shared.changeSet heap).references.map NodeReferences.target =
      shared.references.keys := hshared.map_target_values
  obtain ⟨hin, hout⟩ := MemoryStore.get?_records_applied
    (show ((shared.changeSet heap).references.map NodeReferences.target).Nodup from
      htargets ▸ shared.references.nodup_keys) m
  cases hr : shared.references.get? target with
  | some r =>
    have htarget : r.target = target := hshared.target_eq hr
    rw [← htarget]
    exact hin r (OrderedMap.mem_values.2 ⟨target, hr⟩)
  | none => exact hout target (htargets ▸ OrderedMap.get?_eq_none.1 hr)

/-! ## The end of a commit -/

/-- A commit to `w` whose batch is stored, and the workspace `u` that it ends with. `before` is the commit
when all overlays were connected, and `heap` what the instances were once all data was pushed. -/
structure SettledTo (w : Workspace MemoryStore) (held : List Handle) (t : τ)
    (log : ChangeLog LocalItem) (before : Commit MemoryStore τ) (heap : Heap)
    (u : Workspace MemoryStore) : Prop where
  connecting : Commit.Connecting (begin w t held log log.references.values)
    (log.agenda.map fun a => (a.1, a.2.1)) before
  push_eq : before.log.push before.workspace.heap = .ok () heap
  heap_eq : u.heap = settledHeap heap before.shared
  cache_eq : u.cache = settledCache before.workspace.cache before.shared
  storage_eq : u.storage = before.workspace.storage.applied (before.shared.changeSet heap)

/-- A commit that is stored and concluded has settled from an earlier stage of itself. -/
theorem exists_settledTo (hw : w.Ready MemoryStore.backend) {c : Commit MemoryStore τ}
    (hc : Commit.Stored (begin w t held log log.references.values) c)
    (virtual : List NodeReferences) :
    ∃ before heap, c.log = before.log ∧ SettledTo w held t log before heap
      { (c.workspace.persisted c.shared).deliver virtual with locked := false } := by
  obtain ⟨before, heap, storage, hbefore, hpush, hstore, rfl⟩ := hc
  rw [show before.workspace.backend = MemoryStore.backend from
    hbefore.looked.backend.trans hw.backend] at hstore
  exact ⟨before, heap, rfl,
    { connecting := hbefore
      push_eq := hpush
      heap_eq := heap_persisted (before.withData heap storage).workspace before.shared
      cache_eq := cache_persisted (before.withData heap storage).workspace before.shared
      storage_eq := (congrArg (·.2.1) (setting_persisted (before.withData heap storage).workspace
        before.shared)).trans (MemoryStore.eq_applied_of_store hstore) }⟩

namespace SettledTo

variable {before : Commit MemoryStore τ} {heap : Heap} {u : Workspace MemoryStore}

/-- A commit that settled wrote data only, and only to the instances of its log. -/
theorem overwritten (hs : SettledTo w held t log before heap u) :
    Heap.Overwritten before.log.connections before.workspace.heap heap := by
  have hheap := ChangeLog.overwritten_push before.log before.workspace.heap
  rwa [stateAfter_of_ok hs.push_eq] at hheap

/-- The shared instances are valid before the push. -/
theorem valid_entered (hs : SettledTo w held t log before heap u) :
    ∀ h ∈ before.shared.states, before.workspace.heap.Valid h := by
  intro h hh
  obtain ⟨cls, hcls⟩ := ChangeLog.mem_states.1 hh
  exact (hs.connecting.entered_of_mem hcls).valid

/-- The shared instances are valid after the push. -/
theorem valid (hs : SettledTo w held t log before heap u) :
    ∀ h ∈ before.shared.states, heap.Valid h :=
  fun h hh => (hs.overwritten.valid h).2 (hs.valid_entered h hh)

/-- No instance is shared twice. -/
theorem nodup_states (hs : SettledTo w held t log before heap u) : before.shared.states.Nodup :=
  .of_map Tracked.itemId
    (hs.connecting.wellFormed.map_itemId_states ▸ hs.connecting.wellFormed.nodup_scope)

/-- Nothing but the instance of a deleted item is cached under its identity. -/
theorem current (hs : SettledTo w held t log before heap u) (hw : w.Ready MemoryStore.backend)
    (hoverlays : w.overlays = []) : ∀ h ∈ before.shared.deletedItems.values, ∀ k,
      before.workspace.cache.peek? h.id = some k → k = h := by
  intro h hh k hk
  have he := hs.connecting.entered_of_mem
    (show h ∈ (before.shared.itemsOf .deleted).values from hh)
  rw [(modCount_entered hw hoverlays hs.connecting.looked he).2 (by decide)] at hk
  cases hk
  rfl

/-- Before it wrote, the commit only asked the backend. -/
theorem queried (hs : SettledTo w held t log before heap u) (hw : w.Ready MemoryStore.backend) :
    MemoryStore.backend.Queried w.storage before.workspace.storage := by
  have hq := hs.connecting.looked.storage
  rwa [show (begin w t held log log.references.values).workspace.backend = MemoryStore.backend
    from hw.backend] at hq

end SettledTo

/-- What settling makes of an overlay whose data is pushed and whose batch is stored. -/
theorem Pushed.settle {before : Commit MemoryStore τ} {heap : Heap} {u : Workspace MemoryStore}
    {cls : ChangeLog.Class} {l l' : LocalItem} {h : Handle} (hp : Pushed w before heap cls l l' h)
    (hs : SettledTo w held t log before heap u) (hw : w.Ready MemoryStore.backend)
    (hoverlays : w.overlays = []) : Settled w u cls l (l'.settled u.heap) h := by
  have hshared := hs.connecting.wellFormed
  have hread : u.heap.read h = settledState cls (heap.read h) := by
    rw [hs.heap_eq]
    exact (read_settledHeap hs.valid hs.nodup_states hp.valid).1 cls hp.shared
  have hsettled : l'.settled u.heap = { l' with
      state := l'.state.withStatus (u.heap.read h).status
      baseModCount := (u.heap.read h).modCount } := by
    simp only [LocalItem.settled, hp.connected]
  have hstatus : (u.heap.read h).status = if cls = .deleted then .destroyed else .existing := by
    rw [hread]
    cases cls <;> rfl
  have hcount : (u.heap.read h).modCount =
      countBefore w cls h + if cls = .modified then 1 else 0 := by
    rw [hread, ← hp.count]
    cases cls <;> rfl
  -- the cache and the storage are those of the shared log
  obtain ⟨hin, hout, hother⟩ := peek?_settledCache hshared (hs.current hw hoverlays)
  have hstored := (get?_items_changeSet hshared hs.valid before.workspace.storage).1 cls h hp.shared
  refine
    { connected := by rw [hsettled]; exact hp.connected
      id_eq := hp.id_eq
      valid := by rw [hs.heap_eq]; exact (valid_settledHeap heap h).2 hp.valid
      state := by rw [hsettled, hp.state]
      base := by rw [hsettled]
      current := ?_
      data := ?_
      status := hstatus
      count := hcount
      count_le := fun hlt => by rw [hcount]; split <;> omega
      cached := ?_
      stored := ?_ }
  · intro hcls
    refine refreshStatus_of_current (h := h) ?_ ?_ ?_ ?_
    · rw [hsettled]
      exact hp.connected
    · rw [hstatus, if_neg hcls]
    · rw [hsettled]
      rfl
    · rw [hsettled]
  · rw [hread, ← hp.data]
    cases cls <;> rfl
  · rw [hs.cache_eq]
    have hmem := hp.shared
    cases cls with
    | added => exact hin h hmem
    | deleted => exact hout h hmem
    | modified =>
      -- the identity is in the modified set only, so settling leaves its entry
      have hkey : h.id ∈ (before.shared.itemsOf .modified).keys := hshared.mem_keys hmem
      rw [hother h.id (fun ha => ?_) fun hd => ?_]
      · exact hp.cached (by decide)
      · exact absurd (hshared.class_eq .modified .added hkey ha) (by decide)
      · exact absurd (hshared.class_eq .modified .deleted hkey hd) (by decide)
  · rw [hs.storage_eq, hstored, ← hp.count, ← hp.data, ← hp.valid.read_id]
    rfl

namespace SettledTo

variable {before : Commit MemoryStore τ} {heap : Heap} {u : Workspace MemoryStore}

/-- Every item of the log is settled with an overlay connected to an instance. -/
theorem exists_settled (hs : SettledTo w held t log before heap u)
    (hw : w.Ready MemoryStore.backend) (hoverlays : w.overlays = []) (hlog : log.Recorded)
    {cls : ChangeLog.Class} {id : ItemId} {l : LocalItem} (hl : (log.itemsOf cls).get? id = some l) :
    ∃ l' h, ((before.log.settle u.heap).2.itemsOf cls).get? id = some l' ∧
      Settled w u cls l l' h := by
  obtain ⟨l', h, hl', hp⟩ := pushed_of_push hw hoverlays hlog hs.connecting hs.push_eq hl
  refine ⟨_, h, ?_, hp.settle hs hw hoverlays⟩
  rw [hs.connecting.settle, ChangeLog.itemsOf_mapStates, OrderedMap.get?_map, hl']
  rfl

/-- Settling keeps the keys of the log. -/
theorem keys (hs : SettledTo w held t log before heap u) (cls : ChangeLog.Class) :
    ((before.log.settle u.heap).2.itemsOf cls).keys = (log.itemsOf cls).keys := by
  have hstates := congrArg (fun log => (log.itemsOf cls).keys) hs.connecting.states
  simp only [ChangeLog.itemsOf_mapStates, OrderedMap.keys_map] at hstates
  rw [hs.connecting.settle, ChangeLog.itemsOf_mapStates, OrderedMap.keys_map, hstates]
  rfl

/-- Out of the log's scope the store holds what it held. -/
theorem items_eq (hs : SettledTo w held t log before heap u) (hw : w.Ready MemoryStore.backend)
    {id : ItemId} (hid : id ∉ log.scope) : u.storage.items.get? id = w.storage.items.get? id := by
  have hshared : id ∉ before.shared.scope := by
    intro h
    obtain ⟨cls, hcls⟩ := ChangeLog.mem_scope.1 h
    exact hid (ChangeLog.mem_scope.2 ⟨cls, hs.connecting.mem_keys_shared.1 hcls⟩)
  rw [hs.storage_eq, (get?_items_changeSet hs.connecting.wellFormed hs.valid _).2 id hshared,
    MemoryStore.items_queried (hs.queried hw)]

/-- A reference record of the log is stored, or removed if it is empty, and the other ones stay. -/
theorem records_eq (hs : SettledTo w held t log before heap u) (hw : w.Ready MemoryStore.backend)
    (hlog : log.Recorded) (target : NodeId) : u.storage.records.get? target =
      match log.references.get? target with
      | some r => if r.hasReferences then some r else none
      | none => w.storage.records.get? target := by
  have hreferences : before.shared.references = log.references :=
    hs.connecting.references.trans (references_foldl_modifiedReferences hlog.wellFormed)
  rw [hs.storage_eq, get?_records_changeSet hs.connecting.wellFormed, hreferences,
    MemoryStore.records_queried (hs.queried hw)]

/-- An instance that no overlay is connected to is in no set of the shared log. -/
theorem others (hs : SettledTo w held t log before heap u) {h : Handle} (hv : w.heap.Valid h)
    (hh : h ∉ (before.log.settle u.heap).2.connections) :
    u.heap.Valid h ∧ u.heap.read h = w.heap.read h := by
  rw [hs.connecting.settle, ChangeLog.connections_settled] at hh
  have hnot : h ∉ before.shared.states := fun hmem => hh (hs.connecting.mem_connections hmem)
  have hbefore : before.workspace.heap.Valid h := hs.connecting.looked.heap.valid hv
  have hpushed : heap.Valid h := (hs.overwritten.valid h).2 hbefore
  rw [hs.heap_eq]
  refine ⟨(valid_settledHeap heap h).2 hpushed, ?_⟩
  rw [(read_settledHeap hs.valid hs.nodup_states hpushed).2 hnot,
    hs.overwritten.other h fun k hk hi => ?_]
  · exact hs.connecting.looked.heap.read hv
  · have hks := hs.connecting.connections_subset k hk
    exact hnot ((hs.valid_entered k hks).eq_of_index hbefore hi ▸ hks)

end SettledTo

/-- How a commit that was stored is settled, before the sink is told. -/
theorem committed_settle (hw : w.Ready MemoryStore.backend) (hoverlays : w.overlays = [])
    (hlog : log.Recorded) {c : Commit MemoryStore τ}
    (hc : Commit.Stored (begin w t held log log.references.values) c)
    (virtual : List NodeReferences) :
    Committed w log ⟨.ok (),
      { (c.workspace.persisted c.shared).deliver virtual with locked := false }, c.sink,
      (c.log.settle (c.workspace.persisted c.shared).heap).2⟩ := by
  obtain ⟨before, heap, hsame, hs⟩ := exists_settledTo hw hc virtual
  rw [hsame]
  exact
    { settled := hs.exists_settled hw hoverlays hlog
      keys := hs.keys
      items := fun _ => hs.items_eq hw
      records := hs.records_eq hw hlog
      others := fun _ => hs.others
      unlocked := rfl }

/-- What is read after a commit, while the instance of an overlay is held, leaves the overlay settled. -/
theorem Settled.look {w₁ w₂ : Workspace MemoryStore} {cls : ChangeLog.Class} {l l' : LocalItem}
    {h : Handle} (hs : Settled w w₁ cls l l' h) (hbackend : w₁.backend = MemoryStore.backend)
    (hlook : w₁.LookedAt held w₂) (hheld : h ∈ held) : Settled w w₂ cls l l' h := by
  have hqueried := hlook.storage
  rw [hbackend] at hqueried
  have hread : w₂.heap.read h = w₁.heap.read h := hlook.heap.read hs.valid
  refine
    { connected := hs.connected
      id_eq := hs.id_eq
      valid := hlook.heap.valid hs.valid
      state := by rw [hread]; exact hs.state
      base := by rw [hread]; exact hs.base
      current := fun hcls => ?_
      data := by rw [hread]; exact hs.data
      status := by rw [hread]; exact hs.status
      count := by rw [hread]; exact hs.count
      count_le := by rw [hread]; exact hs.count_le
      cached := ?_
      stored := by rw [MemoryStore.items_queried hqueried]; exact hs.stored }
  · obtain ⟨hrefresh, hstale⟩ := hs.current hcls
    refine ⟨Eq.trans ?_ hrefresh, hstale⟩
    simp only [LocalItem.refreshStatus, hs.connected, hread]
  · have hcached := hs.cached
    by_cases hcls : cls = .deleted
    · have hstored := hs.stored
      rw [if_pos hcls] at hcached hstored ⊢
      refine Option.eq_none_iff_forall_ne_some.2 fun k hpeek => ?_
      -- an entry that came in later was loaded, but the item is not there
      rcases hlook.entry hpeek with hold | hnew
      · rw [hcached] at hold
        cases hold
      · obtain ⟨m, s, m', hq, hload, -⟩ := hnew.content
        rw [hbackend] at hq hload
        have hget := MemoryStore.get?_of_load_ok hload
        rw [MemoryStore.items_queried hq, hstored] at hget
        cases hget
    · rw [if_neg hcls] at hcached ⊢
      exact hlook.kept hcached hheld

/-- What a sink reads after a commit, while it holds the instances of the log, changes nothing of
how the commit ended. -/
theorem Committed.look {out : Outcome MemoryStore τ} {w' : Workspace MemoryStore}
    (hc : Committed w log out) (hbackend : out.workspace.backend = MemoryStore.backend)
    (hlook : out.workspace.LookedAt (held ++ out.log.connections) w') (t : τ) :
    Committed w log { out with workspace := w', sink := t } := by
  have hqueried := hlook.storage
  rw [hbackend] at hqueried
  refine
    { settled := fun {cls id l} hl => ?_
      keys := hc.keys
      items := fun id hid => ?_
      records := fun target => ?_
      others := fun h hv hh => ?_
      unlocked := hlook.locked.trans hc.unlocked }
  · obtain ⟨l', h, hl', hs⟩ := hc.settled hl
    have hmem : h ∈ out.log.connections :=
      List.mem_filterMap.2
        ⟨l', ChangeLog.mem_states.2 ⟨cls, OrderedMap.mem_values.2 ⟨id, hl'⟩⟩, hs.connected⟩
    exact ⟨l', h, hl', hs.look hbackend hlook (List.mem_append_right _ hmem)⟩
  · show w'.storage.items.get? id = _
    rw [MemoryStore.items_queried hqueried]
    exact hc.items id hid
  · show w'.storage.records.get? target = _
    rw [MemoryStore.records_queried hqueried]
    exact hc.records target
  · obtain ⟨hvalid, hread⟩ := hc.others h hv hh
    exact ⟨hlook.heap.valid hvalid, (hlook.heap.read hvalid).trans hread⟩

end Stored

/-- **A commit that succeeds is one update of the storage.** -/
theorem store_ok {sink : Sink MemoryStore τ} {held : List Handle} {t : τ}
    {log : ChangeLog LocalItem} (hw : Reachable MemoryStore.backend w) (hoverlays : w.overlays = [])
    (hsink : sink.OnlyReads) (hlog : log.Recorded)
    (hok : (store sink held w t log).result = .ok ()) :
    Committed w log (store sink held w t log) := by
  have hready := hw.ready
  obtain ⟨records, virtual, w', c, hp, hstored, hstore⟩ := exists_of_store_ok hready hsink hlog hok
  -- all reference records go to the backend
  rw [partitionReferences_ok hoverlays hp] at hstored
  rw [hstore]
  have hsettled := committed_settle hready hoverlays hlog hstored virtual
  have hbackend : ((c.workspace.persisted c.shared).deliver virtual).backend = MemoryStore.backend :=
    (hready.settle (hstored.underway hready.sound_begin) virtual).backend
  exact hsettled.look hbackend (lookedAt_conclude hsink virtual c) _

/-! ### A commit with something in every set -/

namespace Sample

/-- An item that is not stored. -/
def fresh : ItemId := .node ⟨List.replicate 16 3, rfl⟩

/-- A log that adds an item, modifies one, deletes one, and records a reference to the added one. -/
def update : ChangeLog LocalItem :=
  (((ChangeLog.new (.node default)).record .added (.new (.empty fresh))).record .modified
    (.new (.empty other))).record .deleted (.new (.empty known))
    |>.modifiedReferences ⟨⟨List.replicate 16 3, rfl⟩, [⟨default, Name.primaryType⟩]⟩

/-- The log of the example is recorded. -/
theorem recorded_update : update.Recorded :=
  ((((ChangeLog.Recorded.new _).record .added (LocalItem.faithful_new _)).record .modified
    (LocalItem.faithful_new _)).record .deleted (LocalItem.faithful_new _)).modifiedReferences _

/-- The workspace over the memory can be reached. -/
theorem reachable_memory : Reachable MemoryStore.backend (workspace memory) :=
  .getItemState [] known (.opened ⟨"sample", default, 1, none, 1⟩ Registry.default
    (s := ⟨∅, [], memory⟩) (fun p hp => by cases hp) rfl)

end Sample

/-- The commit of the sample log goes through. -/
theorem store_ok_update :
    Committed (Sample.workspace Sample.memory) Sample.update
      (store (Sink.silent MemoryStore) [] (Sample.workspace Sample.memory) () Sample.update) :=
  store_ok Sample.reachable_memory (by decide +kernel) Sink.onlyReads_silent Sample.recorded_update
    (by decide +kernel)

end ContentTree.Workspace
