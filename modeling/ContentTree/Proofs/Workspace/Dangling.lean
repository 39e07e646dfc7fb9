import ContentTree.Proofs.Workspace.Coherence
import ContentTree.Proofs.Workspace.Routing

/-!
# Records that outlive their targets

A commit checks the reference records that its log carries: each of them that holds references has a
target that is stored afterwards. Records that are stored already are not looked at when their target
is deleted. So the stored records with references whose target is gone are those of which the target
was deleted by a log without a record for it, and they stay until a later log adds the target again or
carries a record for it (`Grown.dangles_iff`).
-/

namespace ContentTree

/-- A stored record with references whose target is not stored. -/
structure MemoryStore.Dangles (m : MemoryStore) (r : NodeReferences) : Prop where
  mem : r ∈ m.records.values
  hasReferences : r.hasReferences = true
  absent : m.items.contains (.node r.target) = false

/-- Whether a record dangles depends on the items and the records only. -/
theorem MemoryStore.dangles_congr {m m' : MemoryStore} (hitems : m'.items = m.items)
    (hrecords : m'.records = m.records) {r : NodeReferences} : m'.Dangles r ↔ m.Dangles r := by
  constructor
  · rintro ⟨hmem, hr, habsent⟩
    exact ⟨hrecords ▸ hmem, hr, hitems ▸ habsent⟩
  · rintro ⟨hmem, hr, habsent⟩
    exact ⟨hrecords.symm ▸ hmem, hr, hitems.symm ▸ habsent⟩

/-- Every record stands under its target. -/
def MemoryStore.RecordsKeyed (m : MemoryStore) : Prop :=
  ∀ target r, m.records.get? target = some r → r.target = target

/-- Where records are kept under their targets, a record is held if it is found under its target. -/
theorem MemoryStore.RecordsKeyed.mem_values {m : MemoryStore} (h : m.RecordsKeyed)
    {r : NodeReferences} : r ∈ m.records.values ↔ m.records.get? r.target = some r := by
  rw [OrderedMap.mem_values]
  refine ⟨fun ⟨target, hget⟩ => ?_, fun hget => ⟨r.target, hget⟩⟩
  rwa [h target r hget]

/-- A log that deletes a node and carries no record of the references to it. -/
structure ChangeLog.Orphans (log : ChangeLog LocalItem) (target : NodeId) : Prop where
  isDeleted : log.isDeleted (.node target) = true
  noRecord : log.references.get? target = none

/-- A log that neither writes a node nor carries a record of the references to it. -/
structure ChangeLog.Ignores (log : ChangeLog LocalItem) (target : NodeId) : Prop where
  notAdded : log.isAdded (.node target) = false
  notModified : log.isModified (.node target) = false
  noRecord : log.references.get? target = none

/-- The record of a target that the latest of some logs carries, the latest log first. -/
def ChangeLog.lastRecord? (logs : List (ChangeLog LocalItem)) (target : NodeId) :
    Option NodeReferences :=
  logs.findSome? fun log => log.references.get? target

/-- With one more log the last log that orphans a record is either an earlier one, or this one. -/
theorem ChangeLog.exists_orphans_cons {log : ChangeLog LocalItem} {done : List (ChangeLog LocalItem)}
    {r : NodeReferences} :
    (∃ later l earlier, log :: done = later ++ l :: earlier ∧ lastRecord? earlier r.target = some r ∧
        l.Orphans r.target ∧ ∀ k ∈ later, k.Ignores r.target) ↔
      (log.Ignores r.target ∧ ∃ later l earlier, done = later ++ l :: earlier ∧
        lastRecord? earlier r.target = some r ∧ l.Orphans r.target ∧
          ∀ k ∈ later, k.Ignores r.target) ∨
      log.Orphans r.target ∧ lastRecord? done r.target = some r := by
  constructor
  · rintro ⟨later, l, earlier, hdone, hlast, horphans, hlater⟩
    cases later with
    | nil =>
      obtain ⟨rfl, rfl⟩ := List.cons.inj hdone
      exact Or.inr ⟨horphans, hlast⟩
    | cons k later =>
      obtain ⟨rfl, rfl⟩ := List.cons.inj hdone
      obtain ⟨hignores, hlater⟩ := List.forall_mem_cons.1 hlater
      exact Or.inl ⟨hignores, later, l, earlier, rfl, hlast, horphans, hlater⟩
  · rintro (⟨hignores, later, l, earlier, rfl, hlast, horphans, hlater⟩ | ⟨horphans, hlast⟩)
    · exact ⟨log :: later, l, earlier, rfl, hlast, horphans,
        List.forall_mem_cons.2 ⟨hignores, hlater⟩⟩
    · exact ⟨[], log, done, rfl, hlast, horphans, List.forall_mem_nil _⟩

/-- A log has a state for an item that it adds or modifies. -/
theorem ChangeLog.isSome_get? (log : ChangeLog LocalItem) (id : ItemId) :
    (log.get? id).isSome = (log.isAdded id || log.isModified id) := by
  rw [get?, Option.isSome_or, isAdded, isModified, OrderedMap.contains_eq_isSome,
    OrderedMap.contains_eq_isSome]

namespace Workspace

variable {τ : Type} {w : Workspace MemoryStore} {log : ChangeLog LocalItem} {held : List Handle}
  {sink : Sink MemoryStore τ} {t : τ}

/-! ## One commit -/

/-- An item that a coherent workspace has is stored, as long as there are no subtrees. -/
theorem InStep.contains_of_hasItem (hw : InStep MemoryStore.backend id w) {item : ItemId}
    {w' : Workspace MemoryStore} (h : hasItem item w = .ok true w') :
    w.storage.items.contains item = true := by
  have hsub : w.subtrees = [] := subtrees_eq_nil hw.overlays
  have hclaim : w.claimant? item = none := by rw [claimant?, hsub]; rfl
  replace h : (if (w.claimant? item).isSome || w.isCached item then pure true
    else (tryCatch (onStorage (w.backend.contains item)) fun _ => pure false) >>= fun persisted =>
      if persisted then pure true else get >>= fun u => pure (u.owner? item).isSome :
    Action MemoryStore Bool) w = .ok true w' := h
  rw [hclaim] at h
  cases hcached : w.isCached item with
  | true =>
    -- a cached instance stands for a stored item
    obtain ⟨k, hk⟩ := Option.isSome_iff_exists.1
      ((OrderedMap.contains_eq_isSome w.cache.entries item).symm.trans hcached)
    obtain ⟨s, hs, -⟩ := (hw.coherent item k hk).stored
    rw [OrderedMap.contains_eq_isSome]
    exact Option.isSome_iff_exists.2 ⟨s, hs⟩
  | false =>
    rw [hcached, hw.ready.backend] at h
    have hask : (tryCatch (onStorage (MemoryStore.backend.contains item)) fun _ => pure false :
      Action MemoryStore Bool) w = .ok (w.storage.items.contains item) w := tryCatch_of_ok rfl
    replace h : ((tryCatch (onStorage (MemoryStore.backend.contains item)) fun _ => pure false) >>=
      fun persisted => if persisted then pure true else get >>= fun u => pure (u.owner? item).isSome :
      Action MemoryStore Bool) w = .ok true w' := h
    rw [bind_of_ok hask] at h
    cases hc : w.storage.items.contains item with
    | true => rfl
    | false =>
      rw [hc] at h
      replace h : (EStateM.Result.ok (ε := Error) (w.owner? item).isSome w) = .ok true w' := h
      rw [owner?, hsub] at h
      cases h

/-- What the check of a record with references establishes. -/
theorem InStep.target_of_isDangling (hw : InStep MemoryStore.backend id w) {r : NodeReferences}
    {w' : Workspace MemoryStore} (hr : r.hasReferences = true)
    (h : isDangling log r w = .ok false w') :
    log.isDeleted (.node r.target) = false ∧
      (log.isAdded (.node r.target) = true ∨ log.isModified (.node r.target) = true ∨
        w.storage.items.contains (.node r.target) = true) := by
  unfold isDangling at h
  simp only [hr, Bool.not_true, Bool.false_eq_true, if_false] at h
  cases hd : log.isDeleted (.node r.target) with
  | true =>
    rw [hd] at h
    cases h
  | false =>
    refine ⟨rfl, ?_⟩
    rw [hd, if_neg (by decide)] at h
    have hsome := log.isSome_get? (.node r.target)
    cases hg : (log.get? (.node r.target)).isSome with
    | true =>
      rw [hg] at hsome
      rcases (Bool.or_eq_true _ _).mp hsome.symm with ha | hm
      · exact Or.inl ha
      · exact Or.inr (Or.inl hm)
    | false =>
      rw [hg, if_neg (by decide)] at h
      obtain ⟨found, mid, hask, hpure⟩ := exists_of_bind_ok h
      cases found with
      | false => cases hpure
      | true => exact Or.inr (Or.inr (hw.contains_of_hasItem hask))

/-- The target of a record with references is stored after the commit that stores the record. -/
theorem contains_target_of_store_ok (hw : InStep MemoryStore.backend id w) (hsink : sink.OnlyReads)
    (hlog : log.Recorded) (hok : (store sink held w t log).result = .ok ()) {r : NodeReferences}
    (hget : log.references.get? r.target = some r) (hr : r.hasReferences = true) :
    (store sink held w t log).workspace.storage.items.contains (.node r.target) = true := by
  obtain ⟨records, virtual, mid, c, hp, -, -⟩ := exists_of_store_ok hw.ready hsink hlog hok
  obtain ⟨hrecords, -, hfound⟩ := partitionReferences_eq hp
  have hmem : r ∈ records := by
    rw [hrecords]
    exact List.mem_filter.2 ⟨OrderedMap.mem_values.2 ⟨_, hget⟩, by
      rw [isVirtual_of_overlays hw.overlays]; rfl⟩
  obtain ⟨u, u', hlook, hask⟩ := hfound r hmem
  obtain ⟨hd, hstored⟩ := (hw.look Backend.overMemory_memory hlook).target_of_isDangling hr hask
  rw [(hlook.memory hw.ready.backend).1] at hstored
  rw [(memory_of_store_ok hw.ready hsink hlog hok).1, hd]
  rcases hstored with ha | hm | hc
  · simp [ha]
  · simp [hm]
  · simp [hc]

/-- After a commit a record dangles that the log does not carry and whose target the log does not
write, if it did before or if the log deletes its target. -/
theorem dangles_store_iff (hw : InStep MemoryStore.backend id w) (hsink : sink.OnlyReads)
    (hlog : log.Recorded) (hok : (store sink held w t log).result = .ok ())
    (hkeyed : w.storage.RecordsKeyed)
    (hkeyed' : (store sink held w t log).workspace.storage.RecordsKeyed) {r : NodeReferences} :
    (store sink held w t log).workspace.storage.Dangles r ↔
      log.Ignores r.target ∧ w.storage.Dangles r ∨
      log.Orphans r.target ∧ r ∈ w.storage.records.values ∧ r.hasReferences = true := by
  obtain ⟨hitems, hrecords⟩ := memory_of_store_ok hw.ready hsink hlog hok
  constructor
  · intro hr
    have hget := hkeyed'.mem_values.1 hr.mem
    have habsent := hr.absent
    -- a record that the log carries has its target, so this one was stored before
    have hnone : log.references.get? r.target = none := by
      rw [hrecords] at hget
      cases hlast : log.references.get? r.target with
      | none => rfl
      | some s =>
        rw [hlast] at hget
        replace hget : (if w.isVirtual s then w.storage.records.get? r.target
          else if s.hasReferences then some s else none) = some r := hget
        rw [isVirtual_of_overlays hw.overlays, if_neg (by decide)] at hget
        split at hget
        · cases hget
          rw [contains_target_of_store_ok hw hsink hlog hok hlast hr.hasReferences] at habsent
          cases habsent
        · cases hget
    rw [hrecords, hnone] at hget
    have hmem : r ∈ w.storage.records.values := hkeyed.mem_values.2 hget
    rw [hitems] at habsent
    cases hd : log.isDeleted (.node r.target) with
    | true => exact Or.inr ⟨⟨hd, hnone⟩, hmem, hr.hasReferences⟩
    | false =>
      rw [hd, if_neg (by decide)] at habsent
      simp only [Bool.or_eq_false_iff] at habsent
      obtain ⟨⟨ha, hm⟩, hold⟩ := habsent
      exact Or.inl ⟨⟨ha, hm, hnone⟩, hmem, hr.hasReferences, hold⟩
  · rintro (⟨hlog', hr⟩ | ⟨hlog', hmem, hr⟩)
    · refine ⟨hkeyed'.mem_values.2 ?_, hr.hasReferences, ?_⟩
      · rw [hrecords, hlog'.noRecord]
        exact hkeyed.mem_values.1 hr.mem
      · rw [hitems, hlog'.notAdded, hlog'.notModified, hr.absent]
        simp
    · refine ⟨hkeyed'.mem_values.2 ?_, hr, ?_⟩
      · rw [hrecords, hlog'.noRecord]
        exact hkeyed.mem_values.1 hmem
      · rw [hitems, if_pos hlog'.isDeleted]

/-! ## Runs -/

/-- A workspace without virtual subtrees over a memory that held nothing when it was opened, after it
was read from and committed to in any order. The logs are those whose commits succeeded, the latest
first. Whether the next batch is refused is up to the memory. -/
inductive Grown : List (ChangeLog LocalItem) → Workspace MemoryStore → Prop where
  | opened (config : Config) (registry : Registry) {s s' : Shared MemoryStore}
    {w : Workspace MemoryStore} :
    SharedSound s → s.storage.items = .empty → s.storage.records = .empty →
    openOver config MemoryStore.backend registry s = .ok w s' → Grown [] w
  | asked {done : List (ChangeLog LocalItem)} {w w' : Workspace MemoryStore} :
    Asked w w' → Grown done w → Grown done w'
  | stored {τ : Type} {done : List (ChangeLog LocalItem)} {w : Workspace MemoryStore}
    {sink : Sink MemoryStore τ} {log : ChangeLog LocalItem} (held : List Handle) (t : τ) :
    sink.OnlyReads → log.Recorded → (store sink held w t log).result = .ok () →
    Grown done w → Grown (log :: done) (store sink held w t log).workspace
  | failed {τ : Type} {done : List (ChangeLog LocalItem)} {w : Workspace MemoryStore}
    {sink : Sink MemoryStore τ} {log : ChangeLog LocalItem} {e : Error} (held : List Handle) (t : τ) :
    sink.OnlyReads → log.Recorded → (store sink held w t log).result = .error e →
    Grown done w → Grown done (store sink held w t log).workspace
  | failNext {done : List (ChangeLog LocalItem)} {w : Workspace MemoryStore} (failNext : Bool) :
    Grown done w → Grown done { w with storage := { w.storage with failNext } }

namespace Grown

variable {done : List (ChangeLog LocalItem)}

/-- A grown workspace is served. -/
theorem served (hw : Grown done w) : Served MemoryStore.backend id w := by
  induction hw with
  | opened config registry hs hitems _ h =>
    refine .opened config registry hs (fun item state hget => ?_) h
    dsimp only [id] at hget
    rw [hitems] at hget
    cases hget
  | asked hask _ ih =>
    cases hask with
    | getItemState held id => exact .getItemState held id ih
    | hasItemState id => exact .hasItemState id ih
    | getReferences target => exact .getReferences target ih
    | hasReferenceRecord target => exact .hasReferenceRecord target ih
    | checkTargetsExist log => exact .checkTargetsExist log ih
  | stored held t hsink hlog _ _ ih => exact .stored held t hsink hlog ih
  | failed held t hsink hlog _ _ ih => exact .stored held t hsink hlog ih
  | failNext failNext _ ih => exact .switched rfl ih

/-- A grown workspace is in step with its memory. -/
theorem inStep (hw : Grown done w) : InStep MemoryStore.backend id w :=
  hw.served.inStep Backend.overMemory_memory

/-- The logs committed to a grown workspace are well-formed. -/
theorem wellFormed (hw : Grown done w) : ∀ log ∈ done, log.WellFormed := by
  induction hw with
  | opened => exact fun log hlog => by cases hlog
  | asked _ _ ih => exact ih
  | stored held t _ hlog _ _ ih =>
    intro log' hlog'
    rcases List.mem_cons.1 hlog' with rfl | hlog'
    · exact hlog.wellFormed
    · exact ih log' hlog'
  | failed _ _ _ _ _ _ ih => exact ih
  | failNext _ _ ih => exact ih

/-- Of each target the record is stored that the latest log with one carries, if it has references. -/
theorem get?_records (hw : Grown done w) (target : NodeId) :
    w.storage.records.get? target =
      (ChangeLog.lastRecord? done target).filter NodeReferences.hasReferences := by
  induction hw with
  | opened config registry hs hitems hrecords h =>
    obtain ⟨asked, hasked, hopen⟩ := openOver_ok h
    -- there were no records, and making a root brings none
    have hbefore : asked.records.get? target = none := by
      rw [MemoryStore.records_queried hasked, hrecords]
      rfl
    rcases hopen with ⟨root, m, hload, rfl⟩ | ⟨node, property, m, -, hstore, rfl⟩
    · have hnext := hasked.load (.node config.rootNode)
      rw [stateAfter_of_ok hload] at hnext
      show m.records.get? target = none
      rw [MemoryStore.records_queried hnext, hrecords]
      rfl
    · rw [storage_persisted]
      show m.records.get? target = none
      rw [MemoryStore.eq_applied_of_store hstore,
        get?_records_changeSet (wellFormed_rootLog config _ node property)]
      exact hbefore
  | @asked done w w' hask hprev ih =>
    rw [(hask.lookedAt.memory hprev.inStep.ready.backend).2]
    exact ih
  | @stored τ done w sink log held t hsink hlog hok hprev ih =>
    rw [(memory_of_store_ok hprev.inStep.ready hsink hlog hok).2, ChangeLog.lastRecord?,
      List.findSome?_cons]
    -- the log decides about its own targets, and the earlier logs about the others
    cases log.references.get? target with
    | none => exact ih
    | some r =>
      dsimp only
      rw [isVirtual_of_overlays hprev.inStep.overlays, if_neg (by decide), Option.filter_some]
  | failed held t hsink hlog herr hprev ih =>
    rw [(memory_of_store_error hprev.inStep.ready hsink hlog herr).2]
    exact ih
  | failNext _ _ ih => exact ih

/-- In a grown workspace the records are kept under their targets. -/
theorem recordsKeyed (hw : Grown done w) : w.storage.RecordsKeyed := by
  intro target r hget
  rw [hw.get?_records, Option.filter_eq_some_iff] at hget
  obtain ⟨log, hlog, hr⟩ := List.exists_of_findSome?_eq_some hget.1
  exact (hw.wellFormed log hlog).target_eq hr

/-- **Stored records whose targets are gone.** -/
theorem dangles_iff (hw : Grown done w) (r : NodeReferences) :
    w.storage.Dangles r ↔ r.hasReferences = true ∧ ∃ later log earlier,
      done = later ++ log :: earlier ∧ ChangeLog.lastRecord? earlier r.target = some r ∧
      log.Orphans r.target ∧ ∀ l ∈ later, l.Ignores r.target := by
  induction hw with
  | opened config registry hs hitems hrecords h =>
    have hw := Grown.opened config registry hs hitems hrecords h
    constructor
    · intro hr
      have hget := hw.recordsKeyed.mem_values.1 hr.mem
      rw [hw.get?_records] at hget
      cases hget
    · rintro ⟨-, later, log, earlier, hdone, -⟩
      cases later <;> cases hdone
  | @asked done w w' hask hprev ih =>
    obtain ⟨hitems, hrecords⟩ := hask.lookedAt.memory hprev.inStep.ready.backend
    rw [MemoryStore.dangles_congr hitems hrecords]
    exact ih
  | @stored τ done w sink log held t hsink hlog hok hprev ih =>
    have hnext := Grown.stored held t hsink hlog hok hprev
    rw [dangles_store_iff hprev.inStep hsink hlog hok hprev.recordsKeyed hnext.recordsKeyed, ih,
      hprev.recordsKeyed.mem_values, hprev.get?_records, Option.filter_eq_some_iff,
      ChangeLog.exists_orphans_cons]
    constructor
    · rintro (⟨hignores, hr, horphaned⟩ | ⟨horphans, ⟨hlast, -⟩, hr⟩)
      · exact ⟨hr, Or.inl ⟨hignores, horphaned⟩⟩
      · exact ⟨hr, Or.inr ⟨horphans, hlast⟩⟩
    · rintro ⟨hr, ⟨hignores, horphaned⟩ | ⟨horphans, hlast⟩⟩
      · exact Or.inl ⟨hignores, hr, horphaned⟩
      · exact Or.inr ⟨horphans, ⟨hlast, hr⟩, hr⟩
  | failed held t hsink hlog herr hprev ih =>
    obtain ⟨hitems, hrecords⟩ := memory_of_store_error hprev.inStep.ready hsink hlog herr
    rw [MemoryStore.dangles_congr hitems hrecords]
    exact ih
  | @failNext done w failNext hprev ih =>
    have hitems : { w.storage with failNext }.items = w.storage.items := rfl
    have hrecords : { w.storage with failNext }.records = w.storage.records := rfl
    exact (MemoryStore.dangles_congr hitems hrecords).trans ih

end Grown

/-! ### A node that is deleted while a property points at it -/

namespace Sample

/-- A workspace that was opened over a memory that held nothing. -/
def bare : Workspace MemoryStore :=
  match openOver ⟨"sample", default, 1, none, 1⟩ MemoryStore.backend Registry.default ⟨∅, [], ∅⟩ with
  | .ok w _ => w
  | .error _ _ => opened memory

/-- The record of a reference to the node that is not stored. -/
def cited : NodeReferences :=
  ⟨fresh.node?.getD default, [⟨default, Name.primaryType⟩]⟩

/-- A log that adds a node together with a reference to it. -/
def citation : ChangeLog LocalItem :=
  ((ChangeLog.new (.node default)).record .added (.new (.empty fresh))).modifiedReferences cited

/-- A log that deletes the node. -/
def removal : ChangeLog LocalItem :=
  (ChangeLog.new (.node default)).record .deleted (.new (.empty fresh))

/-- A log that deletes the node and takes the reference to it away. -/
def retraction : ChangeLog LocalItem :=
  removal.modifiedReferences cited.clear

/-- The workspace that holds the node together with the reference to it. -/
def citing : Workspace MemoryStore :=
  (store (Sink.silent MemoryStore) [] bare () citation).workspace

/-- The workspace from which only the node was deleted. -/
def removed : Workspace MemoryStore :=
  (store (Sink.silent MemoryStore) [] citing () removal).workspace

/-- The workspace from which the node was deleted and the reference to it taken away. -/
def retracted : Workspace MemoryStore :=
  (store (Sink.silent MemoryStore) [] citing () retraction).workspace

/-- The log that deletes the node is recorded. -/
theorem recorded_removal : removal.Recorded :=
  (ChangeLog.Recorded.new _).record .deleted (LocalItem.faithful_new _)

/-- The workspace with the reference has grown by one log. -/
theorem grown_citing : Grown [citation] citing := by
  have hopen : openOver ⟨"sample", default, 1, none, 1⟩ MemoryStore.backend Registry.default
      ⟨∅, [], ∅⟩ = .ok bare bare.toShared := rfl
  refine .stored [] () Sink.onlyReads_silent ?_ (by decide +kernel)
    (.opened _ _ (fun p hp => by cases hp) rfl rfl hopen)
  exact ((ChangeLog.Recorded.new _).record .added (LocalItem.faithful_new _)).modifiedReferences _

/-- The workspace without the node has grown by two logs. -/
theorem grown_removed : Grown [removal, citation] removed :=
  .stored [] () Sink.onlyReads_silent recorded_removal (by decide +kernel) grown_citing

/-- The workspace without node and reference has grown by two logs. -/
theorem grown_retracted : Grown [retraction, citation] retracted :=
  .stored [] () Sink.onlyReads_silent (recorded_removal.modifiedReferences _) (by decide +kernel)
    grown_citing

end Sample

/-- The reference to the node is gone with the node if the log that deletes it says so. -/
theorem Grown.dangles_iff_retracted :
    Grown [Sample.retraction, Sample.citation] Sample.retracted ∧
      Sample.retracted.storage.items.contains Sample.fresh = false ∧
      ¬Sample.retracted.storage.Dangles Sample.cited := by
  refine ⟨Sample.grown_retracted, by decide +kernel, fun h => ?_⟩
  obtain ⟨-, later, log, earlier, hdone, -, horphans, -⟩ :=
    (Grown.dangles_iff Sample.grown_retracted Sample.cited).1 h
  have hmem : log ∈ [Sample.retraction, Sample.citation] := by
    rw [hdone]
    simp
  have hnone : ∀ log ∈ [Sample.retraction, Sample.citation],
      log.isDeleted (.node Sample.cited.target) = false ∨
        (log.references.get? Sample.cited.target).isSome = true := by
    decide +kernel
  rcases hnone log hmem with hd | hr
  · rw [horphans.isDeleted] at hd
    cases hd
  · rw [horphans.noRecord] at hr
    cases hr

/-- A node is deleted by a commit of its own, and the record of the reference to it stays. -/
theorem dangles_removed :
    Grown [Sample.removal, Sample.citation] Sample.removed ∧
      Sample.removed.storage.records.values = [Sample.cited] ∧
      Sample.cited.hasReferences = true ∧
      Sample.removed.storage.items.contains (.node Sample.cited.target) = false :=
  ⟨Sample.grown_removed, by decide +kernel, by decide +kernel, by decide +kernel⟩

end Workspace

end ContentTree
