import ContentTree.Proofs.Persistence.Serving

/-!
# Opening a workspace

A workspace folder in order opens if the journal in it has a whole header, and its records are then
what the pending batches of the journal make of them (`openAt_yields`). With less than a header it does
not open (`openAt_of_short`).
-/

namespace ContentTree

namespace FileStore

variable {r : Regime} {w : Site} {s : Hosted FileStore} {files : Path → Option Bytes} {log : Bytes}

/-- The changes of the batches that entries announce, in order. -/
def replay (folder : Path) (entries : List JournalEntry) : List Change :=
  entries.flatMap fun e => match e.batch with
    | some batch => changes folder batch
    | none => []

/-- One pending batch is applied and marked. -/
theorem replayed_yields (e : JournalEntry) (hup : r.Up s.device) (h : Waiting w files log [] s) :
    Yields (fun _ s' => r.Up s'.device ∧ ∃ files' log', Waiting w files' log' [] s' ∧
        (r.honest → files' = outcome (replay w.folder [e]) files))
      (fun s' => r.Down s'.device)
      ((do
        if let some batch := e.batch then apply batch
        onJournal (Journal.commit e.seq) : Action Unit) s) := by
  have hmark : ∀ {files'} {s' : Hosted FileStore}, r.Up s'.device → Waiting w files' log [] s' →
      Yields (fun _ s'' => r.Up s''.device ∧ ∃ log', Waiting w files' log' [] s'')
        (fun s'' => r.Down s''.device) (onJournal (Journal.commit e.seq) s') := by
    intro files' s' hup' h'
    exact (mark_yields e.seq .committed hup' h').imp (fun _ s'' hs'' => ⟨hs''.1, _, hs''.2⟩)
      fun s'' hs'' => hs''.1
  have hreplay : replay w.folder [e] = match e.batch with
      | some batch => changes w.folder batch
      | none => [] := by
    rw [replay, List.flatMap_singleton]
  rw [hreplay]
  cases e.batch with
  | none =>
    refine (hmark hup h).imp (fun _ s' hs' => ?_) fun s' hs' => hs'
    obtain ⟨hup', log', h'⟩ := hs'
    exact ⟨hup', files, log', h', fun _ => rfl⟩
  | some batch =>
    refine Yields.bind ((applied_yields batch hup h).imp (fun _ s' hs' => hs') fun s' hs' => hs'.1)
      fun _ s' hs' => ?_
    obtain ⟨hup', files', h', hfiles⟩ := hs'
    refine (hmark hup' h').imp (fun _ s'' hs'' => ?_) fun s'' hs'' => hs''
    obtain ⟨hup'', log', h''⟩ := hs''
    exact ⟨hup'', files', log', h'', hfiles⟩

/-- Recovery applies what is pending, in order, and then empties the journal. -/
theorem recover_yields (hup : r.Up s.device) (h : Waiting w files log [] s) :
    Yields (fun _ s' => r.Up s'.device ∧ ((Journal.pendingIn log = [] ∧ s' = s) ∨
        (s'.value.journal.nextSeq = 1 ∧ ∃ files', Waiting w files' Journal.header [] s' ∧
          (r.honest → files' = outcome (replay w.folder (Journal.pendingIn log)) files))))
      (fun s' => r.Down s'.device) (recover s) := by
  rw [recover, bind_of_ok (pendingEntries_eq h)]
  by_cases hempty : (Journal.pendingIn log).isEmpty
  · rw [if_pos hempty]
    exact ⟨hup, Or.inl ⟨List.isEmpty_iff.1 hempty, rfl⟩⟩
  rw [if_neg hempty]
  refine Yields.bind (Yields.forM (fun done s' => r.Up s'.device ∧ ∃ files' log',
    Waiting w files' log' [] s' ∧ (r.honest → files' = outcome (replay w.folder done) files))
    (fun done e rest s' hsplit hs' => ?_) ⟨hup, files, log, h, fun _ => rfl⟩) fun _ s' hs' => ?_
  · obtain ⟨hup', files', log', h', hfiles⟩ := hs'
    refine (replayed_yields e hup' h').imp (fun _ s'' hs'' => ?_) fun s'' hs'' => hs''
    obtain ⟨hup'', files'', log'', h'', hfiles'⟩ := hs''
    refine ⟨hup'', files'', log'', h'', fun hh => ?_⟩
    rw [hfiles' hh, hfiles hh, ← outcome_append, replay, replay, replay, ← List.flatMap_append]
  · obtain ⟨hup', files', log', h', hfiles⟩ := hs'
    refine (clear_yields hup' h').imp (fun _ s'' hs'' => ?_) fun s'' hs'' => hs''.1
    exact ⟨hs''.1, Or.inr ⟨hs''.2.1, files', hs''.2.2, hfiles⟩⟩

/-- The lock of a folder is taken if nobody holds it. -/
theorem lock_yields {device : Device} (hup : r.Up device) (h : InOrder w device.disk)
    (hlocks : r.locks = []) :
    Yields (fun inode d => inode = w.lock ∧ (r.holding [w.lock]).Up d ∧ d.disk = device.disk)
      (fun d => r.Down d ∧ d.disk = device.disk) (Device.lock (w.folder ++ [".lock"]) device) := by
  refine (Device.lock_yields (fun inode d => inode = w.lock ∧ d = device.disk) hup
    ⟨w.lock, device.disk, h.leads_lock.touch_of_file h.lock, rfl, rfl⟩ fun _ _ _ => ?_).imp
    (fun inode d hd => ?_) fun d hd => hd
  · rw [hlocks]
    exact List.not_mem_nil
  · obtain ⟨hup', rfl, hdisk⟩ := hd
    rw [hlocks] at hup'
    exact ⟨rfl, hup', hdisk⟩

variable {config : FileConfig} {device : Device}

/-- The manifest of a workspace in order passes its check. -/
theorem checkManifest_eq (h : InOrder w device.disk) :
    ∃ bytes, Device.query (·.read (manifestPath w.folder)) device = .ok bytes device ∧
      checkManifest bytes = .ok () := by
  obtain ⟨bytes, hbytes, hpass⟩ := h.manifest
  obtain ⟨inode, hentry, hcontents⟩ := Disk.exists_of_fileAt hbytes
  refine ⟨bytes, ?_, hpass⟩
  rw [Device.query_eq, h.leads_manifest.read_of_file hentry, hcontents]

/-- A folder whose lock is held: what opening its journal leads to is what recovery starts from. If
either fails the lock goes back. -/
theorem recovered_yields {folder : Path} {syncWrites : Bool} {lock : Nat}
    {opened : Journal → Device → Prop} {good : FileStore → Device → Prop} {bad : Device → Prop}
    (hjournal : Yields opened (fun d => bad (d.unlock lock))
      (Journal.openAt (folder ++ ["journal"]) device))
    (hrecover : ∀ journal d, opened journal d →
      Yields (fun _ s => good s.value s.device) (fun s => bad (close s))
        (recover ⟨d, ⟨folder, syncWrites, lock, journal⟩⟩)) :
    Yields good bad (recovered folder syncWrites lock device) := by
  unfold recovered
  cases hopen : Journal.openAt (folder ++ ["journal"]) device with
  | error e d =>
    rw [hopen] at hjournal
    exact hjournal
  | ok journal d =>
    rw [hopen] at hjournal
    have hyields := hrecover journal d hjournal
    dsimp only
    cases hend : recover ⟨d, ⟨folder, syncWrites, lock, journal⟩⟩ with
    | error e s =>
      rw [hend] at hyields
      exact hyields
    | ok u s =>
      rw [hend] at hyields
      exact hyields

/-- A workspace in order whose journal has a whole header opens, and what was pending is in place
then. -/
theorem openAt_yields {rest : Bytes} (hfolder : Path.ofFolder config.path = w.folder)
    (hup : r.Up device) (hlocks : r.locks = []) (h : InOrder w device.disk)
    (hlog : device.disk.contentsOf w.journal = Journal.header ++ rest) :
    Yields (fun store d => (r.holding [w.lock]).Up d ∧ ∃ files log, Waiting w files log [] ⟨d, store⟩ ∧
        (r.honest → files = outcome
          (replay w.folder (Journal.pendingIn (Journal.header ++ rest))) (records w device.disk)) ∧
        (Journal.pendingIn (Journal.header ++ rest) = [] ∧ log = Journal.header ++ rest ∧
            store.journal.nextSeq = Journal.seqAfter (JournalEntry.scan rest) ∨
          log = Journal.header ∧ store.journal.nextSeq = 1))
      (fun _ => r.Fallible) (openAt config device) := by
  obtain ⟨bytes, hread, hpass⟩ := checkManifest_eq h
  rw [openAt, hfolder, bind_of_ok hread, hpass]
  refine Yields.bind ((lock_yields hup h hlocks).imp (fun _ d hd => hd)
    fun d hd => hd.1.fallible) fun lock d hd => ?_
  obtain ⟨rfl, hup', hdisk⟩ := hd
  rw [← hdisk] at h hlog
  refine recovered_yields ((Journal.openAt_yields hup' h.leads_journal h.journal hlog).imp
    (fun _ d' hd' => hd') fun d' hd' => hd'.1.fallible) fun journal d' hd' => ?_
  obtain ⟨hup'', hdisk', hjournal⟩ := hd'
  have hw : Waiting w (records w d.disk) (Journal.header ++ rest) []
      ⟨d', ⟨w.folder, config.syncWrites, w.lock, journal⟩⟩ := by
    subst hjournal
    exact ⟨hdisk' ▸ h, rfl, rfl, rfl, rfl, hdisk' ▸ hlog, fun p _ => hdisk' ▸ rfl⟩
  have hrecover := recover_yields hup'' hw
  refine hrecover.imp (fun _ s hs => ?_) fun s hs => hs.fallible
  obtain ⟨hup₃, ⟨hnone, rfl⟩ | ⟨hseq, files, hw', hfiles⟩⟩ := hs
  · refine ⟨hup₃, _, _, hw, fun _ => ?_, Or.inl ⟨hnone, rfl, by rw [hjournal]⟩⟩
    rw [hnone, ← hdisk]
    rfl
  · exact ⟨hup₃, files, _, hw', hdisk ▸ hfiles, Or.inr ⟨rfl, hseq⟩⟩

/-- Without a whole header a workspace does not open. -/
theorem openAt_of_short {time : Nat} (hfolder : Path.ofFolder config.path = w.folder)
    (hup : (Regime.reliable [] time).Up device) (h : InOrder w device.disk)
    (hpart : device.disk.contentsOf w.journal <+: Journal.header)
    (hlt : (device.disk.contentsOf w.journal).length < Journal.headerLength) :
    ∃ d, openAt config device = .error (.io .unexpectedEnd) d := by
  obtain ⟨bytes, hread, hpass⟩ := checkManifest_eq h
  rw [openAt, hfolder, bind_of_ok hread, hpass]
  obtain ⟨lock, d, hlock, rfl, -, hdisk⟩ :=
    (lock_yields hup h rfl).exists_ok fun d hd => Regime.not_down_of_reliable d hd.1
  show ∃ d, (Device.lock (w.folder ++ [".lock"]) >>= fun lock =>
    recovered w.folder config.syncWrites lock : Device.Action FileStore) device = _
  rw [bind_of_ok hlock]
  rw [← hdisk] at h hpart hlt
  rw [recovered, Journal.openAt_of_short h.leads_journal h.journal hpart hlt]
  exact ⟨_, rfl⟩

end FileStore

end ContentTree
