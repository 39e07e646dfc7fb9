import ContentTree.Proofs.Persistence.Batches

/-!
# What an open workspace stands for

An open workspace stands for the files of its records, the octets in its journal and what its writer
still holds (`Serving`). Each step of a store is described by what it makes of these.
-/

namespace ContentTree.FileStore

/-- An open workspace in order: the files of its records, the journal and its writer. -/
structure Serving (w : Site) (files : Path → Option Bytes) (log : Bytes) (writer : Option Writer)
    (s : Hosted FileStore) : Prop where
  inOrder : InOrder w s.device.disk
  folder_eq : s.value.folder = w.folder
  lock_eq : s.value.lock = w.lock
  path_eq : s.value.journal.path = w.folder ++ ["journal"]
  writer_eq : s.value.journal.writer = writer
  log_eq : s.device.disk.contentsOf w.journal = log
  records_eq : ∀ p, IsRecord w.folder p → records w s.device.disk p = files p

/-- An open workspace whose writer holds some octets. -/
abbrev Waiting (w : Site) (files : Path → Option Bytes) (log buffered : Bytes)
    (s : Hosted FileStore) : Prop :=
  Serving w files log (some ⟨w.journal, buffered⟩) s

variable {r : Regime} {w : Site} {s : Hosted FileStore} {files : Path → Option Bytes}
  {log buffered : Bytes} {writer : Option Writer}

/-- The journal is not near a record. -/
theorem not_nearby_journal {path : Path} (h : IsRecord w.folder path) :
    ¬nearby w.folder w.base path ("journal" :: w.base) := by
  obtain ⟨kind, shard, name, rfl, -⟩ := h
  rw [nearby_record]
  rintro (heq | heq | heq) <;> exact absurd heq (ne_of_apply_ne List.length (by simp only [List.length_cons]; omega))

/-- No record stands in the place of the journal. -/
theorem placeOf_ne_journal {path : Path} (h : IsRecord w.folder path) :
    placeOf w.folder w.base path ≠ "journal" :: w.base := fun heq =>
  not_nearby_journal h (Or.inl heq.symm)

namespace Serving

/-- The journal of the workspace as the place where steps on it start. -/
theorem stands (h : Serving w files log writer s) :
    Journal.Stands ("journal" :: w.base) w.journal ⟨s.device, s.value.journal⟩ log writer
      ⟨s.device, s.value.journal⟩ :=
  ⟨h.log_eq ▸ Disk.Filled.refl h.inOrder.sound h.inOrder.journal, rfl, h.writer_eq⟩

/-- Only the files of the device matter. -/
theorem on_device (h : Serving w files log writer s) (device : Device)
    (hdisk : device.disk = s.device.disk) : Serving w files log writer ⟨device, s.value⟩ where
  inOrder := hdisk ▸ h.inOrder
  folder_eq := h.folder_eq
  lock_eq := h.lock_eq
  path_eq := h.path_eq
  writer_eq := h.writer_eq
  log_eq := hdisk ▸ h.log_eq
  records_eq := hdisk ▸ h.records_eq

/-- Steps on the journal leave the records alone. -/
theorem of_stands (h : Serving w files log writer s) {t : Hosted Journal} {log' : Bytes}
    {writer' : Option Writer} (ht : Journal.Stands ("journal" :: w.base) w.journal
      ⟨s.device, s.value.journal⟩ log' writer' t) :
    Serving w files log' writer' ⟨t.device, { s.value with journal := t.value }⟩ where
  inOrder := h.inOrder.of_filled ht.file
  folder_eq := h.folder_eq
  lock_eq := h.lock_eq
  path_eq := ht.path_eq.trans h.path_eq
  writer_eq := ht.writer_eq
  log_eq := ht.file.contents_eq
  records_eq p hp := by
    rw [records, ht.file.touched.fileAt (placeOf_ne_journal hp)]
    exact h.records_eq p hp

/-- Changes near records leave the journal alone. -/
theorem of_changed (h : Serving w files log writer s) {s' : Hosted FileStore} {paths : List Path}
    {files' : Path → Option Bytes} (hc : Changed w paths s.device.disk s'.device.disk)
    (hpaths : ∀ p ∈ paths, IsRecord w.folder p) (hvalue : s'.value = s.value)
    (hfiles : ∀ p, IsRecord w.folder p → records w s'.device.disk p = files' p) :
    Serving w files' log writer s' where
  inOrder := hc.inOrder
  folder_eq := hvalue ▸ h.folder_eq
  lock_eq := hvalue ▸ h.lock_eq
  path_eq := hvalue ▸ h.path_eq
  writer_eq := hvalue ▸ h.writer_eq
  log_eq := by
    rw [hc.touched.contents ?_ h.inOrder.journal, h.log_eq]
    rintro ⟨p, hp, hnear⟩
    exact not_nearby_journal (hpaths p hp) hnear
  records_eq := hfiles

/-- The path of the journal still leads to it where only the journal was touched. -/
theorem leads_journal (h : Serving w files log writer s) {d : Disk}
    (ht : Disk.Touched (· = "journal" :: w.base) s.device.disk d) :
    d.Leads s.value.journal.path ("journal" :: w.base) := by
  rw [h.path_eq]
  exact h.inOrder.leads_journal_kept ht.folder

end Serving

/-! ## Steps on the journal -/

/-- The octets of the journal after a failure: what it held, and a first part of what was to come. -/
def Torn (w : Site) (files : Path → Option Bytes) (log total : Bytes) (s : Hosted FileStore) : Prop :=
  ∃ now waiting, log <+: now ∧ now <+: total ∧ Waiting w files now waiting s

/-- Logging appends the announcement to the journal, or a part of it if the device fails. -/
theorem log_yields (batch : ChangeSet) (hup : r.Up s.device) (h : Waiting w files log buffered s) :
    Yields (fun seq s' => seq = s.value.journal.nextSeq ∧ r.Up s'.device ∧ Waiting w files
        (log ++ buffered ++ JournalEntry.write ⟨s.value.journal.nextSeq, .pending, some batch, r.time⟩)
        [] s')
      (fun s' => r.Down s'.device ∧ Torn w files log
        (log ++ buffered ++ JournalEntry.write ⟨s.value.journal.nextSeq, .pending, some batch, r.time⟩)
        s')
      (onJournal (Journal.log batch) s) := by
  refine (Hosted.onPart_yields (Journal.log_yields batch hup h.stands)).imp
    (fun seq s' hs' => ?_) fun s' hs' => ?_
  · obtain ⟨t, ⟨hseq, hup', hw⟩, rfl⟩ := hs'
    exact ⟨hseq, hup', h.of_stands hw⟩
  · obtain ⟨t, ⟨hdown, now, waiting, hgrown, hpart, hw⟩, rfl⟩ := hs'
    exact ⟨hdown, now, waiting, hgrown, hpart, h.of_stands hw⟩

/-- Marking appends the mark to the journal, or a part of it if the device fails. -/
theorem mark_yields (seq : Nat) (status : JournalStatus) (hup : r.Up s.device)
    (h : Waiting w files log buffered s) :
    Yields (fun _ s' => r.Up s'.device ∧ Waiting w files
        (log ++ buffered ++ JournalEntry.write ⟨seq, status, none, r.time⟩) [] s')
      (fun s' => r.Down s'.device ∧ Torn w files log
        (log ++ buffered ++ JournalEntry.write ⟨seq, status, none, r.time⟩) s')
      (onJournal (Journal.mark seq status) s) := by
  refine (Hosted.onPart_yields (Journal.mark_yields seq status hup h.stands)).imp
    (fun _ s' hs' => ?_) fun s' hs' => ?_
  · obtain ⟨t, ⟨hup', hw⟩, rfl⟩ := hs'
    exact ⟨hup', h.of_stands hw⟩
  · obtain ⟨t, ⟨hdown, now, waiting, hgrown, hpart, hw⟩, rfl⟩ := hs'
    exact ⟨hdown, now, waiting, hgrown, hpart, h.of_stands hw⟩

/-- A closed journal takes nothing; only a number is used up. -/
theorem log_of_closed (batch : ChangeSet) (h : Serving w files log none s) :
    ∃ s', onJournal (Journal.log batch) s = .error (.persistence .journalClosed) s' ∧
      s'.device = s.device ∧ Serving w files log none s' := by
  refine ⟨⟨s.device, { s.value with journal :=
    (Journal.advanced ⟨s.device, s.value.journal⟩).value }⟩, ?_, rfl, ?_⟩
  · rw [onJournal, Hosted.onPart, Journal.log_of_closed batch h.writer_eq]
    rfl
  · exact ⟨h.inOrder, h.folder_eq, h.lock_eq, h.path_eq, h.writer_eq, h.log_eq, h.records_eq⟩

/-- The pending entries are those of the journal's octets. -/
theorem pendingEntries_eq (h : Serving w files log writer s) :
    onJournal Journal.pendingEntries s = .ok (Journal.pendingIn log) s := by
  have heq := Journal.pendingEntries_eq (s := ⟨s.device, s.value.journal⟩)
    (h.leads_journal (.refl h.inOrder.sound)) h.inOrder.journal
  rw [onJournal, Hosted.onPart, heq]
  simp only [h.log_eq]

/-- Whether entries are pending is told by the journal's octets. -/
theorem hasPending_eq (h : Serving w files log writer s) :
    onJournal Journal.hasPending s = .ok (!(Journal.pendingIn log).isEmpty) s := by
  have heq := Journal.hasPending_eq (s := ⟨s.device, s.value.journal⟩)
    (h.leads_journal (.refl h.inOrder.sound)) h.inOrder.journal
  rw [onJournal, Hosted.onPart, heq]
  simp only [h.log_eq]

/-- Emptying a journal of which nothing waits. -/
theorem clear_yields (hup : r.Up s.device) (h : Waiting w files log [] s) :
    Yields (fun _ s' => r.Up s'.device ∧ s'.value.journal.nextSeq = 1 ∧
        Waiting w files Journal.header [] s')
      (fun s' => r.Down s'.device ∧ ∃ now, (now = log ∨ now <+: Journal.header) ∧
        Serving w files now none s')
      (onJournal Journal.clear s) := by
  have hshut : Journal.Stands ("journal" :: w.base) w.journal ⟨s.device, s.value.journal⟩ log none
      ⟨s.device, { s.value.journal with writer := none }⟩ := ⟨h.stands.file, rfl, rfl⟩
  refine (Hosted.onPart_yields (Journal.clear_yields (Journal.close_eq (Or.inl h.writer_eq)) hup hshut
    h.leads_journal)).imp (fun _ s' hs' => ?_) fun s' hs' => ?_
  · obtain ⟨t, ⟨hup', hseq, hw⟩, rfl⟩ := hs'
    exact ⟨hup', hseq, h.of_stands hw⟩
  · obtain ⟨t, ⟨hdown, now, hnow, hw⟩, rfl⟩ := hs'
    exact ⟨hdown, now, hnow, h.of_stands hw⟩

/-- Closing a workspace closes its journal and gives the lock back. -/
theorem close_of_journal {closed : Hosted Journal}
    (h : Journal.close ⟨s.device, s.value.journal⟩ = .ok ⟨⟩ closed) :
    close s = closed.device.unlock s.value.lock := by
  rw [close, onJournal, Hosted.onPart, h]

/-- The files of a workspace stay as they are when its lock is given back. -/
theorem Serving.close {closed : Hosted Journal} {log' : Bytes} {writer' : Option Writer}
    (h : Serving w files log writer s)
    (hclose : Journal.close ⟨s.device, s.value.journal⟩ = .ok ⟨⟩ closed)
    (hstands : Journal.Stands ("journal" :: w.base) w.journal ⟨s.device, s.value.journal⟩ log' writer'
      closed) :
    Serving w files log' writer'
      ⟨FileStore.close s, { s.value with journal := closed.value }⟩ := by
  rw [close_of_journal hclose]
  exact (h.of_stands hstands).on_device (closed.device.unlock s.value.lock) rfl

/-! ## Steps on the records -/

/-- The images of a batch are the files under its paths. -/
theorem capture_filesIn {batch : ChangeSet} (h : Serving w files log writer s) : capture batch s =
    .ok ((pathsOf w.folder batch).map fun p => (p, filesIn s.device.disk p)) s := by
  rw [capture_eq batch h.folder_eq h.inOrder]
  congr 1
  exact List.map_congr_left fun p hp => by
    rw [h.inOrder.filesIn_eq (isRecord_of_mem_pathsOf hp), records]

/-- Changes of records make of the files what they say; when that fails the files that no change is
about are as before. -/
theorem Serving.changed_yields {cs : List Change} {result : EStateM.Result Error (Hosted FileStore) Unit}
    (h : Serving w files log writer s) (hcs : ∀ p ∈ cs.map Change.path, IsRecord w.folder p)
    (hresult : Yields (fun _ s' => (r.Up s'.device ∧
        Changed w (cs.map Change.path) s.device.disk s'.device.disk ∧
        (r.honest → ∀ p, IsRecord w.folder p → records w s'.device.disk p =
          outcome cs (records w s.device.disk) p)) ∧ s'.value = s.value)
      (fun s' => (r.Down s'.device ∧
        Changed w (cs.map Change.path) s.device.disk s'.device.disk) ∧ s'.value = s.value) result) :
    Yields (fun _ s' => r.Up s'.device ∧ ∃ files', Serving w files' log writer s' ∧
        (r.honest → files' = outcome cs files))
      (fun s' => r.Down s'.device ∧ ∃ files', Serving w files' log writer s' ∧
        ∀ p ∉ cs.map Change.path, files' p = files p) result := by
  refine hresult.imp (fun _ s' hs' => ?_) fun s' hs' => ?_
  · obtain ⟨⟨hup', hchanged, hrecords⟩, hvalue⟩ := hs'
    refine ⟨hup', ?_⟩
    by_cases hh : r.honest
    · refine ⟨_, h.of_changed hchanged hcs hvalue fun p hp => ?_, fun _ => rfl⟩
      rw [hrecords hh p hp]
      exact outcome_congr fun _ => h.records_eq p hp
    · exact ⟨records w s'.device.disk, h.of_changed hchanged hcs hvalue fun _ _ => rfl,
        fun hh' => absurd hh' hh⟩
  · obtain ⟨⟨hdown, hchanged⟩, hvalue⟩ := hs'
    refine ⟨hdown, fun p => if p ∈ cs.map Change.path then records w s'.device.disk p else files p,
      h.of_changed hchanged hcs hvalue fun p hp => ?_, fun p hp => if_neg hp⟩
    by_cases hmem : p ∈ cs.map Change.path
    · rw [if_pos hmem]
    · rw [if_neg hmem, hchanged.records_eq hcs hp hmem, h.records_eq p hp]

/-- Applying a batch makes of the records what its changes make of them; when that fails the records
that the batch is not about are as before. -/
theorem applied_yields (batch : ChangeSet) (hup : r.Up s.device)
    (h : Serving w files log writer s) :
    Yields (fun _ s' => r.Up s'.device ∧ ∃ files', Serving w files' log writer s' ∧
        (r.honest → files' = outcome (changes w.folder batch) files))
      (fun s' => r.Down s'.device ∧ ∃ files', Serving w files' log writer s' ∧
        ∀ p ∉ pathsOf w.folder batch, files' p = files p)
      (apply batch s) := by
  have happly := apply_yields batch h.folder_eq hup h.inOrder
  have hrecords : ∀ p ∈ (changes w.folder batch).map Change.path, IsRecord w.folder p := fun p hp =>
    isRecord_of_mem_pathsOf (map_path_changes w.folder batch ▸ hp)
  rw [← map_path_changes] at happly ⊢
  exact h.changed_yields hrecords happly

/-- Putting files back makes of the records what the images say; when that fails the records that no
image is about are as before. -/
theorem restored_yields {images : List (Path × Option Bytes)}
    (himages : ∀ i ∈ images, IsRecord w.folder i.1) (hup : r.Up s.device)
    (h : Serving w files log writer s) :
    Yields (fun _ s' => r.Up s'.device ∧ ∃ files', Serving w files' log writer s' ∧
        (r.honest → files' = outcome (restoringAll images) files))
      (fun s' => r.Down s'.device ∧ ∃ files', Serving w files' log writer s' ∧
        ∀ p ∉ images.map Prod.fst, files' p = files p)
      (restore images s) := by
  have hpaths : ∀ p ∈ (restoringAll images).map Change.path, IsRecord w.folder p := by
    intro p hp
    obtain ⟨c, hc, rfl⟩ := List.mem_map.1 hp
    exact isRecord_of_mem_restoringAll himages hc
  refine (h.changed_yields hpaths (restore_yields himages hup h.inOrder)).imp
    (fun _ s' hs' => hs') fun s' hs' => ?_
  obtain ⟨hdown, files', hw, hrest⟩ := hs'
  exact ⟨hdown, files', hw, fun p hp => hrest p (mem_map_path_restoringAll.not.2 hp)⟩

end ContentTree.FileStore
