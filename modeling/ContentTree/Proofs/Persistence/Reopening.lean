import ContentTree.Proofs.Persistence.Atomicity

/-!
# Stores that fail, and opening again

Whatever fails in a run of stores, the folder stays in order and its journal has its header, until the
journal is closed while it is emptied (`Run.kept`). So a workspace that is closed opens again if and only
if its journal has a whole header, and then it answers what the batches that the journal leaves pending
make of the records (`Kept.openAt_cases`).
-/

namespace ContentTree.FileStore

variable {w : Site} {time : Nat} {s : Hosted FileStore} {files : Path → Option Bytes} {log : Bytes}
  {config : FileConfig}

/-- What holds of an open workspace between stores, whatever failed before. -/
structure Kept (w : Site) (time : Nat) (s : Hosted FileStore) : Prop where
  up : (Regime.free [w.lock] time).Up s.device
  /-- A journal is open behind a whole header; a closed one may have less. -/
  journal : ∃ files log, (∃ buffered, Journal.header <+: log ∧ Waiting w files log buffered s) ∨
    (Journal.header <+: log ∨ log <+: Journal.header) ∧ Serving w files log none s

namespace Kept

/-- A workspace that waits behind its header is kept. -/
theorem of_waiting {buffered : Bytes} (hup : (Regime.free [w.lock] time).Up s.device)
    (hheader : Journal.header <+: log) (h : Waiting w files log buffered s) : Kept w time s :=
  ⟨hup, files, log, Or.inl ⟨buffered, hheader, h⟩⟩

/-- A closed workspace is kept even if its header was cut. -/
theorem of_closed (hup : (Regime.free [w.lock] time).Up s.device)
    (hheader : Journal.header <+: log ∨ log <+: Journal.header)
    (h : Serving w files log none s) : Kept w time s :=
  ⟨hup, files, log, Or.inr ⟨hheader, h⟩⟩

/-- A workspace whose device failed while it wrote the journal is kept. -/
theorem of_torn {total : Bytes} (hdown : (Regime.free [w.lock] time).Down s.device)
    (hheader : Journal.header <+: log) (h : Torn w files log total s) : Kept w time s := by
  obtain ⟨now, waiting, hgrown, -, hw⟩ := h
  exact of_waiting hdown.up_of_free (hheader.trans hgrown) hw

/-- A kept workspace is served. -/
theorem exists_serving (h : Kept w time s) : ∃ files log writer, Serving w files log writer s := by
  obtain ⟨files, log, ⟨buffered, -, hw⟩ | ⟨-, hw⟩⟩ := h.journal
  · exact ⟨files, log, _, hw⟩
  · exact ⟨files, log, _, hw⟩

/-! ## One step -/

/-- Logging a batch keeps the workspace, whether or not it succeeds. -/
theorem log_yields (batch : ChangeSet) (h : Kept w time s) :
    Yields (fun _ s' => Kept w time s') (Kept w time) (onJournal (Journal.log batch) s) := by
  obtain ⟨files, log, ⟨buffered, hheader, hw⟩ | ⟨hheader, hw⟩⟩ := h.journal
  · refine (FileStore.log_yields batch h.up hw).imp (fun _ s' hs' => ?_) fun s' hs' =>
      of_torn hs'.1 hheader hs'.2
    refine of_waiting hs'.2.1 ?_ hs'.2.2
    rw [List.append_assoc]
    exact hheader.trans (List.prefix_append _ _)
  · -- a closed journal takes nothing; only a number is used up
    obtain ⟨s', hlog, hdevice, hw'⟩ := FileStore.log_of_closed batch hw
    rw [hlog]
    exact of_closed (hdevice ▸ h.up) hheader hw'

/-- Marking a batch keeps the workspace, whether or not it succeeds. -/
theorem mark_yields (seq : Nat) (status : JournalStatus) (h : Kept w time s) :
    Yields (fun _ s' => Kept w time s') (Kept w time) (onJournal (Journal.mark seq status) s) := by
  obtain ⟨files, log, ⟨buffered, hheader, hw⟩ | ⟨hheader, hw⟩⟩ := h.journal
  · refine (FileStore.mark_yields seq status h.up hw).imp (fun _ s' hs' => ?_) fun s' hs' =>
      of_torn hs'.1 hheader hs'.2
    refine of_waiting hs'.1 ?_ hs'.2
    rw [List.append_assoc]
    exact hheader.trans (List.prefix_append _ _)
  · rw [onJournal, Hosted.onPart, Journal.mark_of_closed seq status hw.writer_eq]
    exact of_closed h.up hheader hw

/-- A step on the records leaves the journal alone. -/
theorem of_records {step : Action Unit} (h : Kept w time s)
    (hstep : ∀ {files log writer}, Serving w files log writer s →
      Yields (fun _ s' => (Regime.free [w.lock] time).Up s'.device ∧
          ∃ files', Serving w files' log writer s')
        (fun s' => (Regime.free [w.lock] time).Down s'.device ∧
          ∃ files', Serving w files' log writer s') (step s)) :
    Yields (fun _ s' => Kept w time s') (Kept w time) (step s) := by
  obtain ⟨files, log, ⟨buffered, hheader, hw⟩ | ⟨hheader, hw⟩⟩ := h.journal
  · refine (hstep hw).imp (fun _ s' hs' => ?_) fun s' hs' => ?_
    · obtain ⟨hup, files', hw'⟩ := hs'
      exact of_waiting hup hheader hw'
    · obtain ⟨hdown, files', hw'⟩ := hs'
      exact of_waiting hdown.up_of_free hheader hw'
  · refine (hstep hw).imp (fun _ s' hs' => ?_) fun s' hs' => ?_
    · obtain ⟨hup, files', hw'⟩ := hs'
      exact of_closed hup hheader hw'
    · obtain ⟨hdown, files', hw'⟩ := hs'
      exact of_closed hdown.up_of_free hheader hw'

/-- Making the changes of a batch keeps the workspace, whether or not it succeeds. -/
theorem apply_yields (batch : ChangeSet) (h : Kept w time s) :
    Yields (fun _ s' => Kept w time s') (Kept w time) (apply batch s) :=
  h.of_records fun hw => (applied_yields batch h.up hw).imp
    (fun _ _ hs' => ⟨hs'.1, hs'.2.imp fun _ h => h.1⟩)
    fun _ hs' => ⟨hs'.1, hs'.2.imp fun _ h => h.1⟩

/-- Putting records back keeps the workspace, whether or not it succeeds. -/
theorem restore_yields {images : List (Path × Option Bytes)}
    (himages : ∀ i ∈ images, IsRecord w.folder i.1) (h : Kept w time s) :
    Yields (fun _ s' => Kept w time s') (Kept w time) (restore images s) :=
  h.of_records fun hw => (restored_yields himages h.up hw).imp
    (fun _ _ hs' => ⟨hs'.1, hs'.2.imp fun _ h => h.1⟩) fun _ hs' => ⟨hs'.1, hs'.2.imp fun _ h => h.1⟩

/-- Undoing a batch keeps the workspace, whether or not it succeeds. -/
theorem undo_yields {images : List (Path × Option Bytes)} (seq : Nat)
    (himages : ∀ i ∈ images, IsRecord w.folder i.1) (h : Kept w time s) :
    Yields (fun _ s' => Kept w time s') (Kept w time) (undo seq images s) := by
  have hsteps : Yields (fun _ s' => Kept w time s') (Kept w time)
      ((restore images >>= fun _ => onJournal (Journal.rollBack seq)) s) :=
    Yields.bind (h.restore_yields himages) fun _ s' hs' => hs'.mark_yields seq .rolledBack
  exact Yields.tryCatch hsteps fun e s' hs' => hs'

/-- The journal of a workspace can always be closed. -/
theorem close_journal (h : Kept w time s) : ∃ closed log,
    Journal.close ⟨s.device, s.value.journal⟩ = .ok ⟨⟩ closed ∧
      (Regime.free [w.lock] time).Up closed.device ∧
      (Journal.header <+: log ∨ log <+: Journal.header) ∧
      Journal.Stands ("journal" :: w.base) w.journal ⟨s.device, s.value.journal⟩ log none closed := by
  obtain ⟨files, log, ⟨buffered, hheader, hw⟩ | ⟨hheader, hw⟩⟩ := h.journal
  · obtain ⟨_, closed, hclose, hdevice, now, hgrown, -, hstands⟩ :=
      (Journal.close_yields h.up hw.stands).exists_ok fun _ hf => hf
    exact ⟨closed, now, hclose, hdevice.elim id Regime.Down.up_of_free,
      Or.inl (hheader.trans hgrown), hstands⟩
  · have hwriter : s.value.journal.writer = some ⟨w.journal, []⟩ ∨ s.value.journal.writer = none :=
      Or.inr hw.writer_eq
    exact ⟨_, log, Journal.close_eq hwriter, h.up, hheader, hw.stands.file, rfl, rfl⟩

/-- Emptying a journal, whatever waits for it. -/
theorem emptied_yields (h : Kept w time s) :
    Yields (fun _ s' => (Regime.free [w.lock] time).Up s'.device ∧ s'.value.journal.nextSeq = 1 ∧
        ∃ files, Waiting w files Journal.header [] s')
      (Kept w time) (onJournal Journal.clear s) := by
  obtain ⟨closed, log, hclose, hup, hheader, hstands⟩ := h.close_journal
  obtain ⟨files, _, _, hw⟩ := h.exists_serving
  refine (Hosted.onPart_yields (Journal.clear_yields hclose hup hstands hw.leads_journal)).imp
    (fun _ s' hs' => ?_) fun s' hs' => ?_
  · obtain ⟨t, ⟨hup', hseq, ht⟩, rfl⟩ := hs'
    exact ⟨hup', hseq, files, hw.of_stands ht⟩
  · obtain ⟨t, ⟨hdown, now, hnow, ht⟩, rfl⟩ := hs'
    refine of_closed hdown.up_of_free ?_ (hw.of_stands ht)
    rcases hnow with rfl | hpart
    · exact hheader
    · exact Or.inr hpart

/-- Clearing the journal keeps the workspace, whether or not it succeeds. -/
theorem clear_yields (h : Kept w time s) :
    Yields (fun _ s' => Kept w time s') (Kept w time) (onJournal Journal.clear s) := by
  refine h.emptied_yields.imp (fun _ s' hs' => ?_) fun _ hs' => hs'
  obtain ⟨hup, -, files, hw⟩ := hs'
  exact of_waiting hup (List.prefix_refl _) hw

/-- Whatever fails in a store, the workspace can go on. -/
theorem store_yields (batch : ChangeSet) (h : Kept w time s) :
    Yields (fun _ s' => Kept w time s') (Kept w time) (store batch s) := by
  rw [store]
  by_cases hempty : batch.isEmpty
  · rw [if_pos hempty]
    exact h
  obtain ⟨files, log, writer, hw⟩ := h.exists_serving
  have himages := isRecord_of_mem_images w.folder batch (records w s.device.disk)
  rw [if_neg hempty]
  show Yields _ _ ((capture batch >>= fun before => _ : Action Unit) s)
  rw [bind_of_ok (capture_eq batch hw.folder_eq hw.inOrder)]
  refine Yields.bind (h.log_yields batch) fun seq s₁ h₁ => ?_
  have htry : Yields (fun _ s₂ => Kept w time s₂) (Kept w time)
      ((apply batch >>= fun _ => onJournal (Journal.commit seq)) s₁) :=
    Yields.bind (h₁.apply_yields batch) fun _ s₂ h₂ => h₂.mark_yields seq .committed
  refine Yields.bind (Yields.tryCatch htry fun e s₂ h₂ => ?_) fun _ s₂ h₂ => ?_
  · exact Yields.bind (h₂.undo_yields seq himages) fun _ s₃ h₃ => h₃
  · obtain ⟨files₂, log₂, writer₂, hw₂⟩ := h₂.exists_serving
    rw [bind_of_ok (hasPending_eq hw₂)]
    by_cases hpending : !!(Journal.pendingIn log₂).isEmpty
    · rw [if_pos hpending]
      exact h₂.clear_yields
    · rw [if_neg hpending]
      exact h₂

/-! ## Closing and opening -/

/-- A kept workspace answers from its files. -/
theorem answers_eq (h : Kept w time s) :
    backend.answers s = told w.folder (filesIn s.device.disk) := by
  obtain ⟨files, log, writer, hw⟩ := h.exists_serving
  exact hw.filesIn.answers_eq

/-- Closing gives the lock back and leaves the records as they are. -/
theorem close (h : Kept w time s) : ∃ log value, (Regime.free [] time).Up (close s) ∧
    (Journal.header <+: log ∨ log <+: Journal.header) ∧
    Serving w (filesIn s.device.disk) log none ⟨close s, value⟩ := by
  obtain ⟨closed, log, hclose, hup, hheader, hstands⟩ := h.close_journal
  obtain ⟨files, log', writer, hw⟩ := h.exists_serving
  have hlocks : closed.device.locks.erase s.value.lock = [] := by
    rw [hup.locks_eq, hw.lock_eq]
    exact List.erase_cons_head w.lock []
  refine ⟨log, _, ?_, hheader, hw.filesIn.close hclose hstands⟩
  rw [close_of_journal hclose]
  exact ⟨hlocks, hup.time_eq, trivial⟩

end Kept

/-- A device on which nothing fails any more. -/
def mended (device : Device) : Device :=
  { device with plan := fun _ _ => none }

/-- A workspace that was closed opens if its journal has a whole header, and then it answers what the
pending batches make of its records. Its journal is as before if nothing was pending, and else it is
empty. -/
theorem Kept.openAt_cases (h : Kept w time s) (hfolder : Path.ofFolder config.path = w.folder) :
    match openAt config (mended (FileStore.close s)) with
    | .error e _ => e = .io .unexpectedEnd ∧
        (journalIn w.folder (FileStore.close s).disk).length < Journal.headerLength
    | .ok store device =>
        Journal.headerLength ≤ (journalIn w.folder (FileStore.close s).disk).length ∧
        Kept w time ⟨device, store⟩ ∧ backend.answers ⟨device, store⟩ = told w.folder
          (outcome (replay w.folder (Journal.pendingIn (journalIn w.folder (FileStore.close s).disk)))
            (filesIn s.device.disk)) ∧
        ∃ files log, Waiting w files log [] ⟨device, store⟩ ∧
          (Journal.pendingIn log = [] ∧ log = journalIn w.folder (FileStore.close s).disk ∧
              store.journal.nextSeq = Journal.seqAfter (JournalEntry.scan (log.drop Journal.headerLength)) ∨
            log = Journal.header) := by
  obtain ⟨log, value, hup, hheader, hw⟩ := h.close
  have hmended : (Regime.reliable [] time).Up (mended (FileStore.close s)) :=
    ⟨hup.locks_eq, hup.time_eq, rfl⟩
  have hlog : (mended (FileStore.close s)).disk.contentsOf w.journal = log := hw.log_eq
  rw [hw.inOrder.journalIn_eq, hw.log_eq]
  by_cases hlt : log.length < Journal.headerLength
  · -- fewer octets than the header can only be a part of it
    have hpart : log <+: Journal.header := by
      refine hheader.elim (fun hwhole => ?_) id
      have hle := hwhole.length_le
      rw [Journal.length_header] at hle
      omega
    obtain ⟨d, hopen⟩ := openAt_of_short hfolder hmended hw.inOrder (hlog ▸ hpart) (hlog ▸ hlt)
    rw [hopen]
    exact ⟨rfl, hlt⟩
  · have hwhole : Journal.header <+: log := by
      refine hheader.elim id fun hpart => ?_
      have hle := hpart.length_le
      rw [Journal.length_header] at hle
      have heq : log = Journal.header := hpart.eq_of_length (by rw [Journal.length_header]; omega)
      exact heq ▸ List.prefix_refl _
    obtain ⟨rest, rfl⟩ := hwhole
    obtain ⟨store, device, hopen, hup', files, log', hw', heq, hlog'⟩ :=
      (openAt_yields hfolder hmended rfl hw.inOrder hlog).exists_ok fun _ hf =>
        Regime.not_fallible_of_reliable [] time hf
    rw [hopen]
    refine ⟨Nat.le_of_not_lt hlt, of_waiting ⟨hup'.locks_eq, hup'.time_eq, trivial⟩ ?_ hw', ?_,
      files, log', hw', ?_⟩
    · rcases hlog' with ⟨-, rfl, -⟩ | ⟨rfl, -⟩
      · exact List.prefix_append _ _
      · exact List.prefix_refl _
    · rw [hw'.answers_eq, heq trivial]
      exact told_congr fun p hp => outcome_congr fun _ => hw.records_eq p hp
    · rcases hlog' with ⟨hnone, rfl, hseq⟩ | ⟨rfl, -⟩
      · exact Or.inl ⟨hnone, rfl, hseq⟩
      · exact Or.inr rfl

/-! ## Runs -/

/-- The open workspaces that are reached by stores, of which any may fail at any of its effects. -/
inductive Run (config : FileConfig) : Hosted FileStore → Prop
  /-- So far nothing failed. -/
  | started {s : Hosted FileStore} : Reached config s → Run config s
  /-- From now on effects fail by some plan, at some time. -/
  | facing {s : Hosted FileStore} (plan : FaultPlan) (clock time : Nat) :
    Run config s → Run config ⟨{ s.device with plan, clock, time }, s.value⟩
  /-- A batch was stored, or was not. -/
  | stored {s : Hosted FileStore} (batch : ChangeSet) :
    Run config s → Run config (stateAfter (backend.store batch) s)
  /-- The workspace was closed and opened again. -/
  | reopened {s : Hosted FileStore} {store : FileStore} {device : Device} :
    Run config s → openAt config (mended (close s)) = .ok store device → Run config ⟨device, store⟩

/-- A settled workspace is kept. -/
theorem Settled.kept {r : Regime} (h : Settled r w files s) : Kept w r.time s :=
  .of_waiting ⟨h.up.locks_eq, h.up.time_eq, trivial⟩ (List.prefix_refl _) h.waiting

/-- A run leaves its workspace kept. -/
theorem Run.kept (hroomy : Path.Roomy room (Path.ofFolder config.path)) (h : Run config s) :
    ∃ w time, w.folder = Path.ofFolder config.path ∧ Kept w time s := by
  induction h with
  | started hreached =>
    obtain ⟨w, files, time, hfolder, hs⟩ := hreached.settled hroomy
    exact ⟨w, time, hfolder, hs.kept⟩
  | @facing s plan clock later _ ih =>
    obtain ⟨w, time, hfolder, hk⟩ := ih
    refine ⟨w, later, hfolder, ⟨hk.up.locks_eq, rfl, trivial⟩, ?_⟩
    obtain ⟨files, log, ⟨buffered, hheader, hw⟩ | ⟨hheader, hw⟩⟩ := hk.journal
    · exact ⟨files, log, Or.inl ⟨buffered, hheader, hw.on_device _ rfl⟩⟩
    · exact ⟨files, log, Or.inr ⟨hheader, hw.on_device _ rfl⟩⟩
  | stored batch _ ih =>
    obtain ⟨w, time, hfolder, hk⟩ := ih
    exact ⟨w, time, hfolder,
      (hk.store_yields batch).stateAfter (fun _ _ hs' => hs') fun _ hs' => hs'⟩
  | reopened _ hopen ih =>
    obtain ⟨w, time, hfolder, hk⟩ := ih
    have hcases := hk.openAt_cases hfolder.symm
    rw [hopen] at hcases
    exact ⟨w, time, hfolder, hcases.2.1⟩

end ContentTree.FileStore
