import ContentTree.Proofs.Workspace.Dangling
import ContentTree.Proofs.Workspace.Presence

/-!
# Commits that cannot fail

A log that comes with no connections is committed to a storage in memory without fail, if the items that
it modifies and deletes are stored, its reference records have targets, the sink has no objections, and
the storage takes the next batch (`InStep.store_result_ok`). None of this depends on what is cached.
-/

namespace ContentTree

/-! ## Actions that do not fail -/

/-- An action that succeeds in every state. -/
def Succeeds {ε σ α : Type} (action : EStateM ε σ α) : Prop :=
  ∀ s, ∃ a s', action s = .ok a s'

namespace Succeeds

variable {ε σ τ α β : Type}

/-- Answering without a step succeeds. -/
theorem pure (a : α) : Succeeds (pure a : EStateM ε σ α) :=
  fun s => ⟨a, s, rfl⟩

/-- A sequence of actions that succeed succeeds. -/
theorem bind {x : EStateM ε σ α} {f : α → EStateM ε σ β} (hx : Succeeds x)
    (hf : ∀ a, Succeeds (f a)) : Succeeds (x >>= f) := by
  intro s
  obtain ⟨a, mid, ha⟩ := hx s
  obtain ⟨b, s', hb⟩ := hf a mid
  exact ⟨b, s', (bind_of_ok ha).trans hb⟩

/-- An action whose handler succeeds succeeds. -/
theorem tryCatch (x : EStateM ε σ α) {handler : ε → EStateM ε σ α} (hh : ∀ e, Succeeds (handler e)) :
    Succeeds (tryCatch x handler) := by
  intro s
  cases hs : x s with
  | ok a s' => exact ⟨a, s', tryCatch_of_ok hs⟩
  | error e mid =>
    obtain ⟨a, s', ha⟩ := hh e mid
    exact ⟨a, s', (tryCatch_of_error hs).trans ha⟩

/-- Collecting answers succeeds if each of the steps does. -/
theorem mapM {f : α → EStateM ε σ β} (hf : ∀ a, Succeeds (f a)) (l : List α) :
    Succeeds (l.mapM f) :=
  Sequential.mapM ⟨pure, bind⟩ hf l

/-- A step on a part succeeds if the step itself does. -/
theorem onPart {part : τ → σ} {replace : τ → σ → τ} {step : EStateM Error σ α} (h : Succeeds step) :
    Succeeds (Backend.onPart part replace step) := by
  intro t
  obtain ⟨a, s, hs⟩ := h (part t)
  exact ⟨a, replace t s, onPart_of_ok hs⟩

end Succeeds

/-- A sink that does nothing to a workspace but read from it, and has no objections to a commit. -/
structure Sink.Calm {σ τ : Type} (sink : Sink σ τ) : Prop extends sink.OnlyReads where
  creates : ∀ held root log, Succeeds (sink.create held root log)
  prepares : Succeeds sink.prepare

/-- The silent sink is calm. -/
theorem Sink.calm_silent {σ : Type} : (Sink.silent σ).Calm :=
  ⟨onlyReads_silent, fun _ _ _ => .pure _, .pure _⟩

/-- A collector makes do without a shared parent that cannot be told. -/
theorem Collector.calm_sink {σ : Type} : (Collector.sink σ).Calm := by
  refine ⟨onlyReads_sink, fun held root log => ?_, fun s => ⟨_, _, rfl⟩⟩
  have hparent : ∀ id, Succeeds (sharedParent (σ := σ) held id) := by
    intro id
    refine .onPart (.bind (.tryCatch _ fun _ => .pure _) fun answer => ?_)
    cases answer <;> exact .pure _
  have hask : ∀ id, Succeeds (Event.askParent (sharedParent (σ := σ) held) id) := by
    intro id
    cases id with
    | node n => exact hparent _
    | property p => exact .pure _
  have hevents : Succeeds (Event.ofLog (sharedParent (σ := σ) held) log) := by
    refine .bind (.mapM (fun l : LocalItem => (hask l.id).bind fun _ => .pure _) _) fun _ => ?_
    refine .bind (.mapM (fun l : LocalItem => (hask l.id).bind fun _ => .pure _) _) fun _ => ?_
    exact .pure _
  exact hevents.bind fun _ s => ⟨_, _, rfl⟩

/-! ## Pushing and storing -/

/-- Data is pushed without fail once all overlays are connected. -/
theorem ChangeLog.exists_push_ok {log : ChangeLog LocalItem}
    (h : ∀ l ∈ log.states, ∃ k, l.overlayed = some k) (heap : Heap) :
    ∃ heap', log.push heap = .ok () heap' := by
  rw [push_eq]
  generalize log.states = ls at h
  induction ls generalizing heap with
  | nil => exact ⟨heap, rfl⟩
  | cons l rest ih =>
    obtain ⟨k, hk⟩ := h l (List.mem_cons_self ..)
    obtain ⟨heap', hrest⟩ := ih (heap.copyInto k l.state) fun l' hl' =>
      h l' (List.mem_cons_of_mem l hl')
    exact ⟨heap', (bind_of_ok (pushState_of_connected hk heap)).trans hrest⟩

/-- A memory takes a batch if it is not to fail, and has the items that the batch modifies and deletes. -/
theorem MemoryStore.store_ok_iff {set : ChangeSet} {m : MemoryStore} :
    (∃ m', backend.store set m = .ok () m') ↔ m.failNext = false ∧
      ∀ id ∈ set.modified.map ItemState.id ++ set.deleted, m.items.contains id = true := by
  have hmissing : m.missing? set = none ↔
      ∀ id ∈ set.modified.map ItemState.id ++ set.deleted, m.items.contains id = true := by
    simp only [missing?, List.find?_eq_none, Bool.not_eq_true, Bool.not_eq_false']
  rw [← hmissing, store_eq, apply_eq]
  cases m.failNext with
  | true => simp
  | false => cases m.missing? set <;> simp

/-- The items that the batch of a log modifies and deletes. -/
theorem ChangeLog.ids_changeSet {shared : ChangeLog Handle} (hshared : shared.WellFormed) (heap : Heap)
    (hvalid : ∀ h ∈ shared.states, heap.Valid h) :
    (shared.changeSet heap).modified.map ItemState.id ++ (shared.changeSet heap).deleted =
      shared.modifiedItems.keys ++ shared.deletedItems.keys := by
  have hmodified : (shared.modifiedItems.values.map heap.read).map ItemState.id =
      shared.modifiedItems.keys := by
    refine Eq.trans ?_ (hshared.map_itemId_values .modified)
    rw [List.map_map]
    exact List.map_congr_left fun h hh => (hvalid h (mem_states.2 ⟨.modified, hh⟩)).read_id
  exact congrArg₂ _ hmodified (hshared.map_itemId_values .deleted)

namespace Workspace

variable {τ : Type} {w : Workspace MemoryStore} {sink : Sink MemoryStore τ} {held : List Handle}
  {log : ChangeLog LocalItem} {t : τ} {records : List NodeReferences}

/-- A memory has the items that a log modifies and deletes. -/
def Knows (m : MemoryStore) (log : ChangeLog LocalItem) : Prop :=
  ∀ cls ≠ ChangeLog.Class.added, ∀ id ∈ (log.itemsOf cls).keys, m.items.contains id = true

/-- A memory takes the batch of a log exactly if the batch is not to fail and the memory has had the items
that the log modifies and deletes. -/
theorem exists_stored_iff (hw : w.Ready MemoryStore.backend) {before : Commit MemoryStore τ}
    (hc : Commit.Connecting (begin w t held log records) (log.agenda.map fun a => (a.1, a.2.1)) before)
    {heap : Heap} (hpush : before.log.push before.workspace.heap = .ok () heap) :
    (∃ storage, before.workspace.backend.store (before.shared.changeSet heap) before.workspace.storage =
      .ok () storage) ↔ w.storage.failNext = false ∧ Knows w.storage log := by
  have hlook : LookedAt held { w with locked := true } before.workspace := hc.looked
  have hbackend : before.workspace.backend = MemoryStore.backend := hlook.backend.trans hw.backend
  -- connecting leaves what is stored
  have hcontents : before.workspace.storage.contents = w.storage.contents := by
    apply MemoryStore.contents_queried
    rw [← hw.backend]
    exact hlook.storage
  have hitems : before.workspace.storage.items = w.storage.items := congrArg (·.1) hcontents
  have hfail : before.workspace.storage.failNext = w.storage.failNext := congrArg (·.2.2.2) hcontents
  have hheap := (ChangeLog.overwritten_push before.log before.workspace.heap).mono hc.connections_subset
  rw [stateAfter_of_ok hpush] at hheap
  have hunder := hc.underway hw.sound_begin hheap before.workspace.storage
  rw [hbackend, MemoryStore.store_ok_iff, hitems, hfail,
    ChangeLog.ids_changeSet hc.wellFormed heap hunder.valid_states]
  refine and_congr_right fun _ => ⟨fun hthere cls hcls id hid => ?_, fun hthere id hid => ?_⟩
  · have hkey := hc.mem_keys_shared.2 hid
    cases cls with
    | added => exact absurd rfl hcls
    | modified => exact hthere id (List.mem_append_left _ hkey)
    | deleted => exact hthere id (List.mem_append_right _ hkey)
  · rcases List.mem_append.1 hid with hmodified | hdeleted
    · exact hthere .modified (by decide) id (hc.mem_keys_shared.1 hmodified)
    · exact hthere .deleted (by decide) id (hc.mem_keys_shared.1 hdeleted)

/-- A batch that was stored names items that were there, and was not to fail. -/
theorem knows_of_stored (hw : w.Ready MemoryStore.backend) {c : Commit MemoryStore τ}
    (hc : Commit.Stored (begin w t held log records) c) :
    w.storage.failNext = false ∧ Knows w.storage log := by
  obtain ⟨before, heap, storage, hbefore, hpush, hstore, -⟩ := hc
  exact (exists_stored_iff hw hbefore hpush).1 ⟨storage, hstore⟩

/-! ## Reference records -/

/-- The target of a reference record will be there once a log is committed to a memory. -/
def Resolves (m : MemoryStore) (log : ChangeLog LocalItem) (r : NodeReferences) : Prop :=
  r.hasReferences = true → log.isDeleted (.node r.target) = false ∧
    (log.isAdded (.node r.target) = true ∨ log.isModified (.node r.target) = true ∨
      m.items.contains (.node r.target) = true)

/-- A commit gets past its reference records only if their targets will be there. -/
theorem InStep.resolves_of_partition (hw : InStep MemoryStore.backend id w)
    {virtual : List NodeReferences} {w' : Workspace MemoryStore}
    (hp : partitionReferences log log.references.values w = .ok (records, virtual) w') :
    ∀ r ∈ log.references.values, Resolves w.storage log r := by
  intro r hmem hr
  obtain ⟨rfl, -, hfound⟩ := partitionReferences_eq hp
  obtain ⟨u, u', hlook, hask⟩ := hfound r (List.mem_filter.2 ⟨hmem, by
    rw [isVirtual_of_overlays hw.overlays]
    rfl⟩)
  have htarget := (hw.look Backend.overMemory_memory hlook).target_of_isDangling hr hask
  rwa [(hlook.memory hw.ready.backend).1] at htarget

/-- A record that resolves is found not to dangle. -/
theorem InStep.exists_isDangling_ok (hw : InStep MemoryStore.backend id w) {r : NodeReferences}
    (h : Resolves w.storage log r) : ∃ w', isDangling log r w = .ok false w' := by
  unfold isDangling
  cases hr : r.hasReferences with
  | false => exact ⟨w, rfl⟩
  | true =>
    obtain ⟨hd, hthere⟩ := h hr
    simp only [Bool.not_true, Bool.false_eq_true, if_false, hd]
    cases hg : (log.get? (.node r.target)).isSome with
    | true => exact ⟨w, rfl⟩
    | false =>
      rw [log.isSome_get?, Bool.or_eq_false_iff] at hg
      simp only [hg, Bool.false_eq_true, false_or] at hthere
      rw [OrderedMap.contains_eq_isSome] at hthere
      obtain ⟨s, hs⟩ := Option.isSome_iff_exists.1 hthere
      obtain ⟨answer, w', hask, hiff⟩ := hasItem_ok
        (hw.ready.backend.symm ▸ MemoryStore.unfailing w.storage)
        (claimant?_eq_none hw.overlays (.node r.target))
      have hload : w.backend.load (.node r.target) w.storage =
          .ok s { w.storage with loads := w.storage.loads + 1 } := by
        rw [hw.ready.backend, MemoryStore.load_eq, hs]
      obtain rfl : answer = true := hiff.2 (Or.inl (Or.inr ⟨_, _, hload⟩))
      exact ⟨w', (bind_of_ok hask).trans rfl⟩

/-- And it gets past them if the targets will be there. -/
theorem InStep.exists_partition_ok (hw : InStep MemoryStore.backend id w) {rs : List NodeReferences}
    (h : ∀ r ∈ rs, Resolves w.storage log r) :
    ∃ p w', partitionReferences log rs w = .ok p w' := by
  induction rs generalizing w with
  | nil => exact ⟨_, w, rfl⟩
  | cons r rest ih =>
    obtain ⟨mid, hask⟩ := hw.exists_isDangling_ok (h r (List.mem_cons_self ..))
    have hlook := lookedAt_isDangling [] log r w
    rw [stateAfter_of_ok hask] at hlook
    have hitems := (hlook.memory hw.ready.backend).1
    obtain ⟨p, w', hrest⟩ := ih (hw.look Backend.overMemory_memory hlook) fun s hs => by
      rw [Resolves, hitems]
      exact h s (List.mem_cons_of_mem r hs)
    refine ⟨(r :: p.1, p.2), w', ?_⟩
    show (if w.isVirtual r then _
      else (isDangling log r >>= fun dangling => if dangling = true then throw _ else
        (partitionReferences log rest >>= fun p => pure (r :: p.1, p.2))) :
      Action MemoryStore (List NodeReferences × List NodeReferences)) w = _
    rw [isVirtual_of_overlays hw.overlays, if_neg (by decide), bind_of_ok hask, if_neg (by decide),
      bind_of_ok hrest]
    rfl

/-! ## Connecting -/

/-- The instance for an overlay is found or made. -/
theorem InStep.exists_counterpart_ok (hw : InStep MemoryStore.backend id w) (hthere : Knows w.storage log)
    {done : List (ChangeLog.Class × ItemId)} {c : Commit MemoryStore τ}
    (hc : Commit.Connecting (begin w t held log records) done c) {cls : ChangeLog.Class} {l : LocalItem}
    (hl : l.id ∈ (log.itemsOf cls).keys) :
    ∃ h c', Commit.counterpart cls l c = .ok h c' ∧ h.id = l.id := by
  have hread : cls ≠ .added → ∃ h c', Commit.counterpart cls l c = .ok h c' ∧ h.id = l.id := by
    intro hcls
    obtain ⟨hitems, hcoherent⟩ := hw.connecting Backend.overMemory_memory hc
    have hback : c.workspace.backend = MemoryStore.backend := hc.looked.backend.trans hw.ready.backend
    have hnone : c.workspace.overlays = [] := hc.looked.overlays.trans hw.overlays
    have hsound : c.workspace.Sound := hc.looked.sound hw.ready.sound_begin
    have hstored := hthere cls hcls l.id hl
    rw [OrderedMap.contains_eq_isSome] at hstored
    obtain ⟨s, hs⟩ := Option.isSome_iff_exists.1 hstored
    have hget : c.workspace.storage.items.get? l.id = some s :=
      (congrArg (fun items => OrderedMap.get? items l.id) hitems).trans hs
    have hload : c.workspace.backend.load l.id c.workspace.storage =
        .ok s { c.workspace.storage with loads := c.workspace.storage.loads + 1 } := by
      rw [hback, MemoryStore.load_eq, hget]
    obtain ⟨h, u, hr⟩ := (itemState_ok_iff (hback.symm ▸ MemoryStore.unfailing c.workspace.storage)
      (claimant?_eq_none hnone l.id) c.holding).2 (Or.inl (Or.inr ⟨_, _, hload⟩))
    have hlook := lookedAt_itemState c.holding l.id c.workspace
    rw [stateAfter_of_ok hr] at hlook
    have hcached := peek?_of_itemState hnone hr
    -- the instance is the cached one, which stands for its item
    have hmirrors := Coherent.look Backend.overMemory_memory hback hsound (hitems ▸ hw.keyed)
      (hitems ▸ hcoherent) hlook l.id h hcached
    refine ⟨h, { c with workspace := u }, ?_, ?_⟩
    · rw [Commit.counterpart_eq hcls]
      exact onPart_of_ok hr
    · rw [← ((hlook.sound hsound).cached hcached).read_id]
      exact hmirrors.id_eq
  cases cls with
  | modified => exact hread (by decide)
  | deleted => exact hread (by decide)
  | added =>
    refine ⟨(Commit.createInstance l.state c.workspace).1, _, rfl, ?_⟩
    show (c.workspace.backend.createNew c.workspace.storage l.state.id).id = l.id
    rw [show c.workspace.backend = MemoryStore.backend from hc.looked.backend.trans hw.ready.backend]
    show (ItemState.empty l.state.id).id = l.state.id
    cases l.state.id <;> rfl

/-- Overlays without connections are all connected. -/
theorem InStep.exists_connected (hw : InStep MemoryStore.backend id w) (hlog : log.Recorded)
    (hthere : Knows w.storage log) (hfree : ∀ l ∈ log.states, l.overlayed = none)
    (rest : List (ChangeLog.Class × ItemId × LocalItem)) :
    ∀ (done : List (ChangeLog.Class × ItemId × LocalItem)) (c : Commit MemoryStore τ),
      log.agenda = done ++ rest →
      Commit.Connecting (begin w t held log records) (done.map fun a => (a.1, a.2.1)) c →
      ∃ c', rest.forM Commit.connectNext c = .ok ⟨⟩ c' ∧
        Commit.Connecting (begin w t held log records) (log.agenda.map fun a => (a.1, a.2.1)) c' := by
  induction rest with
  | nil =>
    intro done c hagenda hc
    rw [hagenda, List.append_nil]
    exact ⟨c, rfl, hc⟩
  | cons a rest ih =>
    intro done c hagenda hc
    obtain ⟨cls, item, l⟩ := a
    have hl : (log.itemsOf cls).get? item = some l :=
      ChangeLog.mem_agenda.1 (hagenda ▸ List.mem_append_right _ (List.mem_cons_self ..))
    have hid : l.id = item := hlog.wellFormed.itemId_eq cls hl
    obtain ⟨h, mid, hfound, hh⟩ := hw.exists_counterpart_ok hthere hc
      (hid.symm ▸ OrderedMap.mem_keys_iff.2 ⟨l, hl⟩)
    have hnone : l.overlayed = none :=
      hfree l (ChangeLog.mem_states.2 ⟨cls, OrderedMap.mem_values.2 ⟨item, hl⟩⟩)
    have hconnect : Commit.connectItem cls item l c = .ok () (mid.enter cls item
        { l with overlayed := some h, baseModCount := (mid.workspace.heap.read h).modCount } h) := by
      rw [Commit.connectItem_eq, hfound]
      simp only [LocalItem.connect, hnone, hh, if_true]
    have hstep := hc.connectItem hw.ready.sound_begin hlog (hlog.wellFormed.fresh_agenda hagenda) hl
    rw [hconnect] at hstep
    obtain ⟨c', hrest, hc'⟩ := ih (done ++ [(cls, item, l)]) _ (by rw [hagenda, List.append_assoc]; rfl)
      (by rw [List.map_append]; exact hstep)
    exact ⟨c', (bind_of_ok (x := Commit.connectNext (cls, item, l)) hconnect).trans hrest, hc'⟩

/-! ## The rest of a commit -/

/-- What follows once all overlays are connected. -/
theorem InStep.exists_finished (hw : InStep MemoryStore.backend id w) (hsink : sink.Calm)
    (hthere : Knows w.storage log) (hfail : w.storage.failNext = false) {c : Commit MemoryStore τ}
    (hc : Commit.Connecting (begin w t held log records) (log.agenda.map fun a => (a.1, a.2.1)) c) :
    ∃ c', (Commit.finishing sink).forM id c = .ok ⟨⟩ c' := by
  have htold := hc.look (refl_of (Workspace.LookedAt _) c.workspace) (sink.start c.sink)
  -- the sink is told, and only reads
  obtain ⟨u, created, hcreated⟩ : ∃ u created, Commit.createEvents sink
      { c with sink := sink.start c.sink } = .ok u created := by
    show ∃ u created, Commit.onSink (sink.create c.holding c.workspace.rootId c.log)
      { c with sink := sink.start c.sink } = .ok u created
    exact Succeeds.onPart (hsink.creates c.holding c.workspace.rootId c.log) _
  have hcreate := htold.createEvents hsink.toOnlyReads rfl
  rw [show stateAfter (Commit.createEvents sink) _ = created from stateAfter_of_ok hcreated] at hcreate
  obtain ⟨u', prepared, hprepared⟩ : ∃ u prepared, Commit.onSink sink.prepare created =
      .ok u prepared := hsink.prepares.onPart created
  have hprepare := hcreate.prepare hsink.toOnlyReads
  rw [stateAfter_of_ok hprepared] at hprepare
  -- the data is pushed
  have hconnected : ∀ l ∈ prepared.log.states, ∃ h, l.overlayed = some h := by
    intro l hl
    obtain ⟨cls, hcls⟩ := ChangeLog.mem_states.1 hl
    obtain ⟨item, hget⟩ := OrderedMap.mem_values.1 hcls
    obtain ⟨h, -, -, -, hover, -⟩ := hprepare.complete hget
    exact ⟨h, hover⟩
  obtain ⟨heap, hpush⟩ := ChangeLog.exists_push_ok hconnected prepared.workspace.heap
  have hpushed := Commit.push_eq prepared
  rw [hpush] at hpushed
  -- the batch is taken
  obtain ⟨storage, hstore⟩ := (exists_stored_iff hw.ready hprepare hpush).2 ⟨hfail, hthere⟩
  have hwritten : Commit.write (prepared.withData heap prepared.workspace.storage) =
      .ok () (prepared.withData heap storage) := by
    rw [Commit.write_eq]
    simp only [Commit.withData]
    rw [hstore]
  refine ⟨prepared.withData heap storage, ?_⟩
  show (Commit.announce sink >>= fun _ => Commit.createEvents sink >>= fun _ =>
    Commit.onSink sink.prepare >>= fun _ => Commit.push >>= fun _ => Commit.write >>= fun _ =>
      pure ⟨⟩ : Commit.Action MemoryStore τ PUnit) c = _
  have hannounced : Commit.announce sink c = .ok () { c with sink := sink.start c.sink } := rfl
  rw [bind_of_ok hannounced, bind_of_ok hcreated, bind_of_ok hprepared, bind_of_ok hpushed, bind_of_ok hwritten]
  rfl

/-- What the storage of a commit that succeeded has been like. -/
theorem InStep.needs_of_store_ok (hw : InStep MemoryStore.backend id w) (hsink : sink.OnlyReads)
    (hlog : log.Recorded) (hok : (Workspace.store sink held w t log).result = .ok ()) :
    w.storage.failNext = false ∧ Knows w.storage log ∧
      ∀ r ∈ log.references.values, Resolves w.storage log r := by
  obtain ⟨records, virtual, mid, c, hp, hc, -⟩ := exists_of_store_ok hw.ready hsink hlog hok
  obtain ⟨hfail, hthere⟩ := knows_of_stored hw.ready hc
  exact ⟨hfail, hthere, hw.resolves_of_partition hp⟩

/-- A commit that cannot fail. -/
theorem InStep.store_result_ok (hw : InStep MemoryStore.backend id w) (hsink : sink.Calm)
    (hlog : log.Recorded) (hfree : ∀ l ∈ log.states, l.overlayed = none)
    (hthere : Knows w.storage log) (hresolves : ∀ r ∈ log.references.values, Resolves w.storage log r)
    (hfail : w.storage.failNext = false) (held : List Handle) (t : τ) :
    (Workspace.store sink held w t log).result = .ok () := by
  obtain ⟨⟨records, virtual⟩, mid, hp⟩ := hw.exists_partition_ok hresolves
  have hlook := lookedAt_partitionReferences held log log.references.values w
  rw [stateAfter_of_ok hp] at hlook
  obtain ⟨c, hconnected, hc⟩ := hw.exists_connected hlog hthere hfree log.agenda [] _ rfl
    (Commit.connecting_begin hlook t log records)
  obtain ⟨c', hfinished⟩ := hw.exists_finished hsink hthere hfail hc
  have hpersist : Commit.persist sink (begin mid t held log records) = .ok () c' := by
    rw [Commit.persist_eq, Commit.forM_steps]
    exact (bind_of_ok hconnected).trans hfinished
  rw [store_of_persist_ok hw.ready.unlocked hp hpersist]
  rfl

end Workspace

end ContentTree
