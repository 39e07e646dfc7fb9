import ContentTree.Proofs.Workspace.Success

/-!
# Where a commit puts its reference records

A reference record is routed when the commit begins (`partitionReferences_eq`): to the subtrees if one
of them holds its target, else to the backend, where it goes along with the batch. Main statements: what
the subtrees are handed (`subtrees_conclude`), what a commit to a memory makes of what is stored if it
succeeds (`memory_of_store_ok`), and that it makes nothing of it if it fails (`memory_of_store_error`).
-/

namespace ContentTree.Workspace

variable {σ τ : Type} {w w' : Workspace σ} {held : List Handle}

/-! ## Questions -/

/-- One question that a client asks between two commits. -/
inductive Asked : Workspace σ → Workspace σ → Prop where
  | getItemState (held : List Handle) (id : ItemId) (w : Workspace σ) :
    Asked w (stateAfter (getItemState held id) w)
  | hasItemState (id : ItemId) (w : Workspace σ) : Asked w (stateAfter (hasItemState id) w)
  | getReferences (target : NodeId) (w : Workspace σ) :
    Asked w (stateAfter (getReferences target) w)
  | hasReferenceRecord (target : NodeId) (w : Workspace σ) :
    Asked w (stateAfter (hasReferenceRecord target) w)
  | checkTargetsExist (log : ChangeLog LocalItem) (w : Workspace σ) :
    Asked w (stateAfter (checkTargetsExist log) w)

/-- Asking keeps the root. -/
theorem Asked.rooted (h : Asked w w') : w.Rooted [] w' := by
  cases h with
  | getItemState held id =>
    exact Rooted.mono (fun h hh => by cases hh) (tracks_reading (rooted_itemState held id) w)
  | hasItemState id =>
    exact tracks_orNo (tracks_reading (rooted_of_lookedAt fun held => lookedAt_hasItem held id)) w
  | getReferences target =>
    exact tracks_reading (rooted_of_lookedAt fun held => lookedAt_references held target) w
  | hasReferenceRecord target =>
    exact tracks_orNo
      (tracks_reading (rooted_of_lookedAt fun held => lookedAt_hasReferences held target)) w
  | checkTargetsExist log =>
    exact rooted_of_lookedAt (fun held => lookedAt_checkTargetsExist held log) w

/-- Asking only looks at the workspace. -/
theorem Asked.lookedAt (h : Asked w w') : w.LookedAt [] w' :=
  h.rooted.lookedAt

/-! ## What the subtrees are handed -/

/-- A commit that is concluded has handed its records to the subtrees, and has changed nothing else of
them. -/
theorem subtrees_conclude {sink : Sink σ τ} {log : ChangeLog LocalItem} {t : τ}
    {records : List NodeReferences} {c : Commit σ τ} (hsink : sink.OnlyReads)
    (hc : Commit.Underway (begin w t held log records) c) (virtual : List NodeReferences) :
    (conclude sink virtual c).workspace.providers = (w.deliver virtual).providers ∧
      (conclude sink virtual c).workspace.overlays = w.overlays := by
  have hdispatch := lookedAt_conclude hsink virtual c
  have hoverlays : (c.workspace.persisted c.shared).overlays = w.overlays :=
    (overlays_persisted _ _).trans hc.overlays
  have hproviders : (c.workspace.persisted c.shared).providers = w.providers :=
    (providers_persisted _ _).trans hc.providers
  refine ⟨hdispatch.providers.trans ?_, hdispatch.overlays.trans hoverlays⟩
  show ((c.workspace.persisted c.shared).deliver virtual).providers = _
  simp only [deliver, hoverlays, hproviders]

/-! ## What a memory holds after a commit -/

section Memory

variable {w : Workspace MemoryStore} {log : ChangeLog LocalItem} {sink : Sink MemoryStore τ} {t : τ}

/-- What a commit reads leaves its storage with the items and records it had. -/
theorem LookedAt.memory {w w' : Workspace MemoryStore} (hback : w.backend = MemoryStore.backend)
    (h : w.LookedAt held w') :
    w'.storage.items = w.storage.items ∧ w'.storage.records = w.storage.records := by
  have hqueried := h.storage
  rw [hback] at hqueried
  exact ⟨MemoryStore.items_queried hqueried, MemoryStore.records_queried hqueried⟩

/-- A commit that begins with some of the records of a log has these in its shared log. -/
theorem get?_references_begin (hlog : log.WellFormed) (chosen : NodeReferences → Bool)
    (w : Workspace σ) (target : NodeId) :
    (begin w t held log (log.references.values.filter chosen)).shared.references.get? target =
      (log.references.get? target).filter chosen := by
  have hstep : ∀ (log : ChangeLog Handle) r target, (log.modifiedReferences r).references.get? target =
      if target = r.target then some r else log.references.get? target :=
    fun log r target => OrderedMap.get?_insert log.references r.target r target
  obtain ⟨hin, hout⟩ := OrderedMap.look_foldl
    (fun (log : ChangeLog Handle) target => log.references.get? target) some hstep
    (hlog.nodup_targets chosen) (.new log.target)
  cases hr : (log.references.get? target).filter chosen with
  | some r =>
    obtain ⟨hget, hchosen⟩ := Option.filter_eq_some_iff.1 hr
    have htarget : r.target = target := hlog.target_eq hget
    rw [← htarget]
    exact hin r (List.mem_filter.2 ⟨OrderedMap.mem_values.2 ⟨target, hget⟩, hchosen⟩)
  | none =>
    refine hout target fun hmem => ?_
    obtain ⟨r, hfilter, rfl⟩ := List.mem_map.1 hmem
    obtain ⟨hvalue, hchosen⟩ := List.mem_filter.1 hfilter
    rw [hlog.get?_references hvalue, Option.filter_some, if_pos hchosen] at hr
    cases hr

/-- Connecting the overlays only reads, so it leaves what a memory holds. -/
theorem memory_connecting (hw : w.Ready MemoryStore.backend) {records : List NodeReferences}
    {done : List (ChangeLog.Class × ItemId)} {before : Commit MemoryStore τ}
    (hbefore : Commit.Connecting (begin w t held log records) done before) :
    before.workspace.backend = MemoryStore.backend ∧
      before.workspace.storage.items = w.storage.items ∧
      before.workspace.storage.records = w.storage.records := by
  have hlook : LookedAt held { w with locked := true } before.workspace := hbefore.looked
  exact ⟨hlook.backend.trans hw.backend,
    LookedAt.memory (w := { w with locked := true }) hw.backend hlook⟩

/-- A commit whose batch was stored has applied it to what was stored before. -/
theorem applied_of_stored (hw : w.Ready MemoryStore.backend) {records : List NodeReferences}
    {c : Commit MemoryStore τ} (hc : Commit.Stored (begin w t held log records) c) :
    ∃ m : MemoryStore, m.items = w.storage.items ∧ m.records = w.storage.records ∧
      c.workspace.storage = m.applied (c.shared.changeSet c.workspace.heap) := by
  obtain ⟨before, heap, storage, hbefore, hpush, hstore, rfl⟩ := hc
  obtain ⟨hbackend, hitems, hrecords⟩ := memory_connecting hw hbefore
  rw [hbackend] at hstore
  exact ⟨before.workspace.storage, hitems, hrecords, MemoryStore.eq_applied_of_store hstore⟩

/-- A batch that was stored has put the items of the log where they belong, and the records that it
was made with. -/
theorem memory_of_stored (hw : w.Ready MemoryStore.backend) {records : List NodeReferences}
    {c : Commit MemoryStore τ} (hc : Commit.Stored (begin w t held log records) c) :
    (∀ id, c.workspace.storage.items.contains id = if log.isDeleted id then false
      else log.isAdded id || log.isModified id || w.storage.items.contains id) ∧
    ∀ target, c.workspace.storage.records.get? target =
      match (begin w t held log records).shared.references.get? target with
      | some r => if r.hasReferences then some r else none
      | none => w.storage.records.get? target := by
  have hkeys : ∀ {cls id}, id ∈ (c.shared.itemsOf cls).keys ↔ id ∈ (log.itemsOf cls).keys :=
    hc.mem_keys_shared
  have hunder := hc.underway hw.sound_begin
  have hreferences : c.shared.references = (begin w t held log records).shared.references := by
    obtain ⟨before, heap, storage, hbefore, -, -, rfl⟩ := hc
    exact hbefore.references
  obtain ⟨m, hitems, hrecords, happlied⟩ := applied_of_stored hw hc
  obtain ⟨hin, hout⟩ := get?_items_changeSet hunder.wellFormed hunder.valid_states m
  rw [happlied]
  refine ⟨fun id => ?_, fun target => ?_⟩
  · -- an item that the log names is decided by the set it stands in
    have hnamed : ∀ cls, id ∈ (log.itemsOf cls).keys →
        (m.applied (c.shared.changeSet c.workspace.heap)).items.contains id =
          !decide (cls = .deleted) := by
      intro cls hid
      obtain ⟨h, hh, rfl⟩ := hunder.wellFormed.exists_of_mem_keys cls (hkeys.2 hid)
      have hget := hin cls h hh
      rw [OrderedMap.contains_eq_isSome]
      show (OrderedMap.get? _ h.id).isSome = _
      rw [hget]
      cases cls <;> rfl
    by_cases hd : log.isDeleted id
    · rw [if_pos hd, hnamed .deleted (ChangeLog.isDeleted_eq_true.1 hd)]
      rfl
    rw [if_neg hd]
    by_cases ha : log.isAdded id
    · rw [hnamed .added (ChangeLog.isAdded_eq_true.1 ha), ha]
      rfl
    by_cases hm : log.isModified id
    · rw [hnamed .modified (ChangeLog.isModified_eq_true.1 hm), hm, Bool.or_true]
      rfl
    · have hother : id ∉ c.shared.scope := by
        intro hid
        obtain ⟨cls, hcls⟩ := ChangeLog.mem_scope.1 hid
        cases cls with
        | added => exact ha (ChangeLog.isAdded_eq_true.2 (hkeys.1 hcls))
        | modified => exact hm (ChangeLog.isModified_eq_true.2 (hkeys.1 hcls))
        | deleted => exact hd (ChangeLog.isDeleted_eq_true.2 (hkeys.1 hcls))
      rw [OrderedMap.contains_eq_isSome, hout id hother, hitems, OrderedMap.contains_eq_isSome]
      simp only [ha, hm, Bool.false_or]
  · have hwritten := get?_records_changeSet hunder.wellFormed c.workspace.heap m target
    rw [hreferences, hrecords] at hwritten
    exact hwritten

/-- What is stored after a commit that succeeds. -/
theorem memory_of_store_ok (hw : w.Ready MemoryStore.backend) (hsink : sink.OnlyReads)
    (hlog : log.Recorded) (hok : (store sink held w t log).result = .ok ()) :
    (∀ id, (store sink held w t log).workspace.storage.items.contains id =
      if log.isDeleted id then false
      else log.isAdded id || log.isModified id || w.storage.items.contains id) ∧
    ∀ target, (store sink held w t log).workspace.storage.records.get? target =
      match log.references.get? target with
      | some r => if w.isVirtual r then w.storage.records.get? target
        else if r.hasReferences then some r else none
      | none => w.storage.records.get? target := by
  obtain ⟨records, virtual, mid, c, hp, hc, hstore⟩ := exists_of_store_ok hw hsink hlog hok
  obtain ⟨hitems, hrecords⟩ := memory_of_stored hw hc
  have hsettled := hw.settle (hc.underway hw.sound_begin) virtual
  -- settling and telling the sink leave what is stored
  obtain ⟨hafter, hafter'⟩ := (lookedAt_conclude hsink virtual c).memory hsettled.backend
  have hstorage : ((c.workspace.persisted c.shared).deliver virtual).storage = c.workspace.storage :=
    storage_persisted _ _
  rw [hstore, hafter.trans (congrArg MemoryStore.items hstorage),
    hafter'.trans (congrArg MemoryStore.records hstorage)]
  refine ⟨hitems, fun target => ?_⟩
  -- a record of the log is in the batch unless it is for a subtree
  obtain ⟨rfl, -, -⟩ := partitionReferences_eq hp
  rw [hrecords target, get?_references_begin hlog.wellFormed]
  cases log.references.get? target with
  | none => rfl
  | some r =>
    rw [Option.filter_some]
    dsimp only
    cases w.isVirtual r with
    | true => rfl
    | false => rfl

/-- A commit that stops before its batch is stored has left what is stored. -/
theorem memory_of_stopped (hw : w.Ready MemoryStore.backend) {records : List NodeReferences}
    {c : Commit MemoryStore τ} (hc : Commit.Stopped (begin w t held log records) c) :
    c.workspace.storage.items = w.storage.items ∧ c.workspace.storage.records = w.storage.records := by
  obtain ⟨done, before, heap, storage, hbefore, -, hstorage, rfl⟩ := hc
  obtain ⟨hbackend, hitems, hrecords⟩ := memory_connecting hw hbefore
  show storage.items = _ ∧ storage.records = _
  rcases hstorage with rfl | ⟨e, hrefused⟩
  · exact ⟨hitems, hrecords⟩
  · rw [hbackend] at hrefused
    exact ⟨(MemoryStore.items_of_store_error hrefused).trans hitems,
      (MemoryStore.records_of_store_error hrefused).trans hrecords⟩

/-- Undoing it leaves that, too. -/
theorem memory_of_abandon (hw : w.Ready MemoryStore.backend) {records : List NodeReferences}
    {c : Commit MemoryStore τ} (hc : Commit.Stopped (begin w t held log records) c) (e : Error) :
    (abandon e c).workspace.storage.items = w.storage.items ∧
      (abandon e c).workspace.storage.records = w.storage.records := by
  obtain ⟨hitems, hrecords⟩ := memory_of_stopped hw hc
  have hback : c.workspace.backend = MemoryStore.backend :=
    (hc.underway hw.sound_begin).backend.trans hw.backend
  have hqueried := queried_rollBack c.workspace c.shared
  rw [hback] at hqueried
  exact ⟨(MemoryStore.items_queried hqueried).trans hitems,
    (MemoryStore.records_queried hqueried).trans hrecords⟩

/-- A commit that fails leaves what is stored. -/
theorem memory_of_store_error {e : Error} (hw : w.Ready MemoryStore.backend)
    (hsink : sink.OnlyReads) (hlog : log.Recorded)
    (herr : (store sink held w t log).result = .error e) :
    (store sink held w t log).workspace.storage.items = w.storage.items ∧
      (store sink held w t log).workspace.storage.records = w.storage.records := by
  revert herr
  apply store_ends (motive := fun out => out.result = .error e →
    out.workspace.storage.items = w.storage.items ∧
      out.workspace.storage.records = w.storage.records) hw hsink hlog
  · intro e' w' hlook _
    exact (hlook []).memory hw.backend
  · intro records e' c hc _
    exact memory_of_abandon hw hc e'
  · intro records virtual c hc herr
    cases herr

end Memory

end ContentTree.Workspace
