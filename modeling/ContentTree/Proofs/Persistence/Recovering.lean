import ContentTree.Proofs.Persistence.Marking
import ContentTree.Proofs.Persistence.Atomicity

/-!
# Recovery that is interrupted

Applying a batch again takes back whatever was left of an earlier attempt. So wherever recovery is
interrupted, the batches that are still pending lead from the files that it leaves to the same final ones
(`Converging`), and the first recovery that gets through ends there (`openAt_of_interrupted`).
-/

namespace ContentTree.FileStore

variable {w : Site} {config : FileConfig} {d d' : Disk} {s : Hosted FileStore} {device : Device}
  {final files files' : Path → Option Bytes} {log buffered : Bytes} {writer : Option Writer}
  {es rest : List JournalEntry} {e : JournalEntry} {time : Nat}

/-! ## Changes that are made again -/

/-- Changes that are made once more, with others behind them, lead where they lead at once. -/
theorem outcome_append_again (cs rest : List Change) (files : Path → Option Bytes) (p : Path) :
    outcome (cs ++ rest) (outcome cs files) p = outcome (cs ++ rest) files p :=
  outcome_congr fun h => outcome_of_not_mem fun c hc => h c (List.mem_append_left rest hc)

/-- Replaying an entry with a batch makes the changes of the batch first. -/
theorem replay_of_batch {batch : ChangeSet} (folder : Path) (h : e.batch = some batch)
    (rest : List JournalEntry) :
    replay folder (e :: rest) = changes folder batch ++ replay folder rest := by
  rw [replay, List.flatMap_cons, h]
  rfl

/-- An entry without a batch is passed over. -/
theorem replay_of_none (folder : Path) (h : e.batch = none) (rest : List JournalEntry) :
    replay folder (e :: rest) = replay folder rest := by
  rw [replay, List.flatMap_cons, h]
  rfl

/-! ## Files and journals that lead to the final files -/

/-- The batches that a journal leaves pending lead from files to the final ones. -/
def Converging (folder : Path) (final files : Path → Option Bytes) (log : Bytes) : Prop :=
  ∃ es, (∀ e ∈ es, e.Readable) ∧ log = Journal.header ++ es.flatMap JournalEntry.write ∧
    ∀ p, IsRecord folder p → outcome (replay folder (JournalEntry.pending es)) files p = final p

/-- Converging depends on the records only. -/
theorem Converging.congr {folder : Path} (h : Converging folder final files log)
    (hfiles : ∀ p, IsRecord folder p → files' p = files p) : Converging folder final files' log := by
  obtain ⟨es, hread, hlog, hfinal⟩ := h
  refine ⟨es, hread, hlog, fun p hp => ?_⟩
  rw [← hfinal p hp]
  exact outcome_congr fun _ => hfiles p hp

/-- An empty journal is left with the final files. -/
theorem converging_header {folder : Path} (h : ∀ p, IsRecord folder p → files p = final p) :
    Converging folder final files Journal.header := by
  refine ⟨[], List.forall_mem_nil _, (List.append_nil _).symm, fun p hp => ?_⟩
  rw [JournalEntry.pending_nil]
  exact h p hp

/-- A journal without a whole header. -/
def Headless (log : Bytes) : Prop :=
  log <+: Journal.header ∧ log.length < Journal.headerLength

/-- A workspace folder that nobody has open: its journal leads to the final files, or lost its header
while it was emptied. -/
structure Unfinished (w : Site) (final : Path → Option Bytes) (d : Disk) : Prop where
  inOrder : InOrder w d
  left : Converging w.folder final (records w d) (d.contentsOf w.journal) ∨
    Headless (d.contentsOf w.journal)

/-- An open workspace from which a recovery was interrupted. What waits for the journal may still be
written. -/
inductive Stopped (w : Site) (final : Path → Option Bytes) (s : Hosted FileStore) : Prop
  | waiting {files : Path → Option Bytes} {log buffered : Bytes} :
    Waiting w files log buffered s → Converging w.folder final files log →
    Converging w.folder final files (log ++ buffered) → Stopped w final s
  /-- The journal was being emptied. -/
  | emptying {files : Path → Option Bytes} {log : Bytes} :
    Serving w files log none s → Converging w.folder final files log ∨ Headless log → Stopped w final s

/-- A served workspace that is left converging, or without its header, is unfinished. -/
theorem Unfinished.of_serving {value : FileStore} (h : Serving w files log writer ⟨device, value⟩)
    (hleft : Converging w.folder final files log ∨ Headless log) : Unfinished w final device.disk where
  inOrder := h.inOrder
  left := by
    rw [show device.disk.contentsOf w.journal = log from h.log_eq]
    exact hleft.imp_left fun hc => hc.congr h.records_eq

/-- Whether what waits is written out or not, the folder that is closed leads to the final files. -/
theorem Stopped.close (hup : (Regime.whole w.journal [w.lock] time).Up s.device)
    (h : Stopped w final s) : Unfinished w final (close s).disk := by
  cases h with
  | @waiting files log buffered hw hlog hmore =>
    obtain ⟨_, closed, hclose, now, hnow, hstands⟩ :=
      (Journal.close_whole_yields hup hw.stands).exists_ok fun _ hf => hf
    refine .of_serving (hw.close hclose hstands) (Or.inl ?_)
    rcases hnow with rfl | rfl
    · exact hlog
    · exact hmore
  | @emptying files log hw hleft =>
    have hwriter : s.value.journal.writer = some ⟨w.journal, []⟩ ∨ s.value.journal.writer = none :=
      Or.inr hw.writer_eq
    have hclose : Journal.close ⟨s.device, s.value.journal⟩ = .ok ⟨⟩
        ⟨s.device, { s.value.journal with writer := none }⟩ :=
      Journal.close_eq hwriter
    exact .of_serving (hw.close hclose ⟨hw.stands.file, rfl, rfl⟩) hleft

/-! ## One batch -/

/-- A recovery that has some batches left to apply. -/
structure Resuming (w : Site) (final files : Path → Option Bytes) (es rest : List JournalEntry)
    (s : Hosted FileStore) : Prop where
  readable : ∀ e ∈ es, e.Readable
  pending_eq : JournalEntry.pending es = rest
  waiting : Waiting w files (Journal.header ++ es.flatMap JournalEntry.write) [] s
  final_eq : ∀ p, IsRecord w.folder p → outcome (replay w.folder rest) files p = final p

/-- While replay resumes, the journal converges with the entries that are left. -/
theorem Resuming.converging (h : Resuming w final files es rest s) :
    Converging w.folder final files (Journal.header ++ es.flatMap JournalEntry.write) :=
  ⟨es, h.readable, rfl, fun p hp => h.pending_eq ▸ h.final_eq p hp⟩

/-- Replay that is interrupted while it resumes leaves the workspace stopped. -/
theorem Resuming.stopped (h : Resuming w final files es rest s) : Stopped w final s :=
  .waiting h.waiting h.converging (by rw [List.append_nil]; exact h.converging)

/-- The first batch is in place, whether it is marked or not. -/
theorem Resuming.mark_yields (hup : (Regime.whole w.journal [w.lock] time).Up s.device)
    (htime : time ≤ maxUInt64) (h : Resuming w final files es (e :: rest) s)
    (hplaced : ∀ p, IsRecord w.folder p → outcome (replay w.folder rest) files p = final p) :
    Yields (fun _ s' => (Regime.whole w.journal [w.lock] time).Up s'.device ∧
        ∃ files' es', Resuming w final files' es' rest s')
      (fun s' => (Regime.whole w.journal [w.lock] time).Up s'.device ∧ Stopped w final s')
      (onJournal (Journal.commit e.seq) s) := by
  have hmem : e ∈ es :=
    (JournalEntry.mem_pending_iff.1 (h.pending_eq ▸ List.mem_cons_self ..)).mem
  obtain ⟨m, hm⟩ : ∃ m : JournalEntry, m = ⟨e.seq, .committed, none, time⟩ := ⟨_, rfl⟩
  have hread : ∀ e' ∈ es ++ [m], e'.Readable :=
    List.forall_mem_append.2 ⟨h.readable, List.forall_mem_singleton.2
      (hm ▸ JournalEntry.readable_mark _ (h.readable e hmem).fits.seq htime)⟩
  have hpending : JournalEntry.pending (es ++ [m]) = rest :=
    JournalEntry.pending_concat_first h.pending_eq (hm ▸ nofun) (hm ▸ rfl)
  have hlog : Journal.header ++ es.flatMap JournalEntry.write ++ m.write =
      Journal.header ++ (es ++ [m]).flatMap JournalEntry.write := by
    rw [List.flatMap_append, List.flatMap_singleton, List.append_assoc]
  have hmarked : ∀ {s'}, Waiting w files
      (Journal.header ++ es.flatMap JournalEntry.write ++ m.write) [] s' →
      Resuming w final files (es ++ [m]) rest s' :=
    fun hw => ⟨hread, hpending, hlog ▸ hw, hplaced⟩
  have hmark := Journal.mark_whole_yields e.seq .committed hup h.waiting.stands
  rw [← hm] at hmark
  refine (Hosted.onPart_yields hmark).imp (fun _ s' hs' => ?_) fun s' hs' => ?_
  · obtain ⟨t, ⟨hup', hw⟩, rfl⟩ := hs'
    exact ⟨hup', files, _, hmarked (h.waiting.of_stands hw)⟩
  · obtain ⟨t, ⟨hdown, hw | hw⟩, rfl⟩ := hs'
    · refine ⟨hdown.up_of_whole, .waiting (h.waiting.of_stands hw) h.converging ?_⟩
      rw [hlog]
      exact ⟨_, hread, rfl, fun p hp => hpending ▸ hplaced p hp⟩
    · exact ⟨hdown.up_of_whole, (hmarked (h.waiting.of_stands hw)).stopped⟩

/-- Wherever one batch is interrupted, the batches that are still pending lead to the final files. -/
theorem Resuming.step_yields (hup : (Regime.whole w.journal [w.lock] time).Up s.device)
    (htime : time ≤ maxUInt64) (h : Resuming w final files es (e :: rest) s) :
    Yields (fun _ s' => (Regime.whole w.journal [w.lock] time).Up s'.device ∧
        ∃ files' es', Resuming w final files' es' rest s')
      (fun s' => (Regime.whole w.journal [w.lock] time).Up s'.device ∧ Stopped w final s')
      ((do
        if let some batch := e.batch then apply batch
        onJournal (Journal.commit e.seq) : Action Unit) s) := by
  have hfinal := h.final_eq
  cases hbatch : e.batch with
  | none =>
    rw [replay_of_none w.folder hbatch] at hfinal
    exact h.mark_yields hup htime hfinal
  | some batch =>
    rw [replay_of_batch w.folder hbatch] at hfinal
    refine Yields.bind ((applied_yields batch hup h.waiting).imp (fun _ s₁ h₁ => h₁) fun s₁ h₁ => ?_)
      fun _ s₁ h₁ => ?_
    · -- records that the batch is about get their contents when it is applied again
      obtain ⟨hdown, files₁, hw₁, hothers⟩ := h₁
      have hagain : Resuming w final files₁ es (e :: rest) s₁ := by
        refine ⟨h.readable, h.pending_eq, hw₁, fun p hp => ?_⟩
        rw [replay_of_batch w.folder hbatch, ← hfinal p hp]
        refine outcome_congr fun hno => hothers p fun hmem => ?_
        obtain ⟨c, hc, rfl⟩ := mem_pathsOf_iff.1 hmem
        exact hno c (List.mem_append_left _ hc) rfl
      exact ⟨hdown.up_of_whole, hagain.stopped⟩
    · obtain ⟨hup₁, files₁, hw₁, heq⟩ := h₁
      obtain rfl := heq trivial
      refine Resuming.mark_yields hup₁ htime ⟨h.readable, h.pending_eq, hw₁, fun p hp => ?_⟩ fun p hp => ?_
      · rw [replay_of_batch w.folder hbatch, outcome_append_again]
        exact hfinal p hp
      · rw [← outcome_append]
        exact hfinal p hp

/-! ## Recovery -/

/-- A recovery ends with the final files and an empty journal, or with one in which nothing was pending.
Wherever it is interrupted, it can be taken up again. -/
theorem Resuming.recover_yields (hup : (Regime.whole w.journal [w.lock] time).Up s.device)
    (htime : time ≤ maxUInt64) (h : Resuming w final files es (JournalEntry.pending es) s) :
    Yields (fun _ s' => ∃ files log, Waiting w files log [] s' ∧ Converging w.folder final files log ∧
        ∀ p, IsRecord w.folder p → files p = final p)
      (fun s' => (Regime.whole w.journal [w.lock] time).Up s'.device ∧ Stopped w final s')
      (recover s) := by
  have hpending := pendingEntries_eq h.waiting
  rw [Journal.pendingIn_header_append, JournalEntry.scan_flatMap h.readable] at hpending
  rw [recover, bind_of_ok hpending]
  by_cases hempty : (JournalEntry.pending es).isEmpty
  · rw [if_pos hempty]
    have hfinal := h.final_eq
    rw [List.isEmpty_iff.1 hempty] at hfinal
    exact ⟨files, _, h.waiting, h.converging, hfinal⟩
  rw [if_neg hempty]
  -- what is left pending gets shorter by one entry at a time
  refine Yields.bind (Yields.forM (fun done s' =>
    (Regime.whole w.journal [w.lock] time).Up s'.device ∧ ∃ left, JournalEntry.pending es = done ++ left ∧
      ∃ files' es', Resuming w final files' es' left s') (fun done e rest s' hsplit hs' => ?_)
    ⟨hup, _, rfl, files, es, h⟩) fun _ s' hs' => ?_
  · obtain ⟨hup', left, hleft, files', es', h'⟩ := hs'
    obtain rfl : left = e :: rest := List.append_cancel_left (hleft.symm.trans hsplit)
    refine (h'.step_yields hup' htime).imp (fun _ s'' hs'' => ⟨hs''.1, rest, ?_, hs''.2⟩)
      fun s'' hs'' => hs''
    rw [hsplit, List.append_assoc]
    rfl
  · obtain ⟨hup', left, hleft, files', es', h'⟩ := hs'
    obtain rfl : left = [] := List.append_right_eq_self.1 hleft.symm
    refine (clear_yields hup' h'.waiting).imp (fun _ s'' hs'' => ?_) fun s'' hs'' => ?_
    · exact ⟨files', _, hs''.2.2, converging_header h'.final_eq, h'.final_eq⟩
    · obtain ⟨hdown, now, hnow, hw⟩ := hs''
      refine ⟨hdown.up_of_whole, .emptying hw ?_⟩
      -- emptying stops with all of the journal, or with a part of its header
      rcases hnow with rfl | hpart
      · exact Or.inl h'.converging
      · by_cases hshort : now.length < Journal.headerLength
        · exact Or.inr ⟨hpart, hshort⟩
        · rw [hpart.eq_of_length_le (Nat.le_of_not_lt hshort)]
          exact Or.inl (converging_header h'.final_eq)

/-! ## Opening -/

/-- Opening an unfinished folder finishes it, or leaves it unfinished. -/
theorem Unfinished.openAt_yields (hfolder : Path.ofFolder config.path = w.folder)
    (hup : (Regime.whole w.journal [] time).Up device) (htime : time ≤ maxUInt64)
    (h : Unfinished w final device.disk) :
    Yields (fun _ d => Unfinished w final d.disk ∧ ∀ p, IsRecord w.folder p → records w d.disk p = final p)
      (fun d => Unfinished w final d.disk) (openAt config device) := by
  obtain ⟨bytes, hread, hpass⟩ := checkManifest_eq h.inOrder
  rw [openAt, hfolder, bind_of_ok hread, hpass]
  refine Yields.bind ((lock_yields hup h.inOrder rfl).imp (fun _ d hd => hd)
    fun d hd => hd.2 ▸ h) fun lock d hd => ?_
  obtain ⟨rfl, hup', hdisk⟩ := hd
  replace hup' : (Regime.whole w.journal [w.lock] time).Up d := hup'
  rw [← hdisk] at h
  rcases h.left with ⟨es, hreadable, hlog, hfinal⟩ | ⟨hpart, hshort⟩
  · refine recovered_yields ((Journal.openAt_yields hup' h.inOrder.leads_journal h.inOrder.journal hlog).imp
      (fun _ d₁ h₁ => h₁) fun d₁ h₁ => ?_) fun journal d₁ h₁ => ?_
    · show Unfinished w final d₁.disk
      rw [h₁.2]
      exact h
    obtain ⟨hup₁, hdisk₁, rfl⟩ := h₁
    -- the entries that were read are those still to be replayed
    have hresuming : Resuming w final (records w d.disk) es (JournalEntry.pending es)
        ⟨d₁, ⟨w.folder, config.syncWrites, w.lock, ⟨w.folder ++ ["journal"],
          Journal.seqAfter (JournalEntry.scan (es.flatMap JournalEntry.write)),
          some ⟨w.journal, []⟩⟩⟩⟩ :=
      ⟨hreadable, rfl,
        ⟨hdisk₁ ▸ h.inOrder, rfl, rfl, rfl, rfl, hdisk₁ ▸ hlog, fun p _ => hdisk₁ ▸ rfl⟩, hfinal⟩
    refine (hresuming.recover_yields hup₁ htime).imp (fun _ s hs => ?_) fun s hs => hs.2.close hs.1
    obtain ⟨files, log, hw, hlog', hfiles⟩ := hs
    exact ⟨.of_serving hw (Or.inl hlog'), fun p hp => (hw.records_eq p hp).trans (hfiles p hp)⟩
  · rw [recovered, Journal.openAt_of_short h.inOrder.leads_journal h.inOrder.journal hpart hshort]
    exact h

/-- A device that nobody uses yet. Its effects may fail at any time, or all of them from some time on, but
writes to the journal are not torn. -/
structure Fresh (journal : Nat) (device : Device) : Prop where
  locks_eq : device.locks = []
  plan_whole : device.plan.Whole journal
  time_le : device.time ≤ maxUInt64

/-- What a folder becomes when it is opened some times, of which any may be interrupted. -/
inductive Interrupted (config : FileConfig) (journal : Nat) (d : Disk) : Disk → Prop
  | never : Interrupted config journal d d
  | again {device : Device} : Interrupted config journal d device.disk → Fresh journal device →
    Interrupted config journal d (stateAfter (openAt config) device).disk

/-- A fresh device is up, and writes arrive whole. -/
theorem Fresh.up {journal : Nat} (h : Fresh journal device) :
    (Regime.whole journal [] device.time).Up device :=
  ⟨h.locks_eq, rfl, h.plan_whole⟩

/-- However often a folder is opened, it stays one that leads to the final files. -/
theorem Interrupted.unfinished (hfolder : Path.ofFolder config.path = w.folder)
    (hd : Unfinished w final d) (h : Interrupted config w.journal d d') : Unfinished w final d' := by
  induction h with
  | never => exact hd
  | @again device _ hfresh ih =>
    exact (ih.openAt_yields hfolder hfresh.up hfresh.time_le).stateAfter (fun _ _ hs' => hs'.1)
      fun _ hs' => hs'

/-- **Recovery that is interrupted converges.** The journal of a folder in order has any entries.
However often the folder was opened and that was interrupted, between any two effects or inside the
writing of a record, when it is opened and recovery gets through, its records are what all batches that
were outstanding at first, in the order of their numbers, make of the records that were there at first.
As long as the journal was not cut off while it was emptied, the folder opens where nothing fails. -/
theorem openAt_of_interrupted (hfolder : Path.ofFolder config.path = w.folder) (h : InOrder w d)
    (hreadable : ∀ e ∈ es, e.Readable)
    (hlog : d.contentsOf w.journal = Journal.header ++ es.flatMap JournalEntry.write)
    (hinterrupted : Interrupted config w.journal d d') :
    ∃ found, JournalEntry.AllOutstanding es found ∧
      (∀ {device store device'}, device.disk = d' → Fresh w.journal device →
        openAt config device = .ok store device' → ∀ p, IsRecord w.folder p →
          filesIn device'.disk p = outcome (replay w.folder found) (filesIn d) p) ∧
      (Journal.headerLength ≤ (d'.contentsOf w.journal).length →
        ∀ time, ∃ store device', openAt config (Device.reliable d' time) = .ok store device') := by
  have hfinal : ∀ p, IsRecord w.folder p →
      outcome (replay w.folder (JournalEntry.pending es)) (records w d) p =
        outcome (replay w.folder (JournalEntry.pending es)) (filesIn d) p := fun p hp =>
    outcome_congr fun _ => (h.filesIn_eq hp).symm
  have hend := hinterrupted.unfinished hfolder ⟨h, Or.inl ⟨es, hreadable, hlog, hfinal⟩⟩
  refine ⟨_, JournalEntry.allOutstanding_pending es,
    fun {device store device'} hdisk hfresh hopen p hp => ?_, fun hwhole time => ?_⟩
  · rw [← hdisk] at hend
    have hyields := hend.openAt_yields hfolder hfresh.up hfresh.time_le
    rw [hopen] at hyields
    rw [hyields.1.inOrder.filesIn_eq hp]
    exact hyields.2 p hp
  · rcases hend.left with ⟨es', -, hlog', -⟩ | ⟨-, hshort⟩
    · obtain ⟨store, device', hopen, -⟩ := (FileStore.openAt_yields hfolder (.of_reliable d' time) rfl
        hend.inOrder hlog').exists_ok fun _ hf => Regime.not_fallible_of_reliable [] time hf
      exact ⟨store, device', hopen⟩
    · exact absurd hwhole (Nat.not_le_of_lt hshort)

/-- A node and the references to it are stored by one batch and removed by the next one. -/
def storedThenRemoved : List JournalEntry :=
  [⟨1, .pending, some ⟨[default], [], [], [⟨default, [⟨default, ⟨"p"⟩⟩]⟩]⟩, 0⟩,
    ⟨2, .pending, some ⟨[], [], [(default : ItemState).id], [.new default]⟩, 0⟩]

/-- The two announcements of the example can be read back. -/
theorem readable_storedThenRemoved : ∀ e ∈ storedThenRemoved, e.Readable := by
  have hdefault : ItemState.Fits default := ⟨by decide, fun _ he => nomatch he⟩
  intro e he
  simp only [storedThenRemoved, List.mem_cons, List.not_mem_nil, or_false] at he
  rcases he with rfl | rfl
  · refine ⟨⟨by decide, by decide, fun set hset => ?_⟩, by decide +kernel⟩
    cases hset
    exact List.forall_mem_singleton.2 hdefault
  · refine ⟨⟨by decide, by decide, fun set hset => ?_⟩, by decide +kernel⟩
    cases hset
    exact List.forall_mem_nil _

/-- Both batches of the example are pending. -/
theorem pending_storedThenRemoved : JournalEntry.pending storedThenRemoved = storedThenRemoved := by
  have hlast : JournalEntry.pending ([storedThenRemoved[0]] ++ [storedThenRemoved[1]]) =
      JournalEntry.pending [storedThenRemoved[0]] ++ [storedThenRemoved[1]] :=
    JournalEntry.pending_concat rfl (by decide)
  exact hlast.trans (congrArg (· ++ _) (JournalEntry.pending_announced 1 0 _))

/-- The folder of a new workspace in whose journal these batches are pending. -/
def pendingFolder : Disk :=
  match (opened true).value.journal.writer with
  | some writer => (opened true).device.disk.append writer.inode
      (storedThenRemoved.flatMap JournalEntry.write)
  | none => ∅

/-- That folder after the power went when it was opened. -/
def interruptedAfter (done : Nat) : Disk :=
  (stateAfter (openAt ⟨"ws", true, true⟩) ((Device.reliable pendingFolder 0).crashing ⟨done, 0⟩)).disk

/-- The folder of the example is in order, and its journal holds both announcements. -/
theorem inOrder_pendingFolder : ∃ w : Site, w.folder = Path.ofFolder "ws" ∧ InOrder w pendingFolder ∧
    pendingFolder.contentsOf w.journal =
      Journal.header ++ storedThenRemoved.flatMap JournalEntry.write := by
  have hroomy : Path.Roomy room (Path.ofFolder (FileConfig.mk "ws" true true).path) := roomy_ws
  obtain ⟨w, files, time, hw, hs⟩ := (reached_opened true).1.settled hroomy
  have hfile := hs.waiting.stands.file.append (storedThenRemoved.flatMap JournalEntry.write)
  rw [pendingFolder, hs.waiting.writer_eq]
  exact ⟨w, hw, hs.waiting.inOrder.of_filled hfile, hfile.contents_eq⟩

/-- Whatever the records were, those of the node and of the references to it are not there in the end. -/
theorem outcome_storedThenRemoved (files : Path → Option Bytes) {p : Path}
    (hp : p = itemPath ["ws"] (default : ItemState).id ∨ p = referencesPath ["ws"] default) :
    outcome (replay ["ws"] storedThenRemoved) files p = none := by
  have hremoved : ∀ p ∈ [itemPath ["ws"] (default : ItemState).id, referencesPath ["ws"] default],
      .remove p ∈ replay ["ws"] storedThenRemoved ∧
        outcome (replay ["ws"] storedThenRemoved) (fun _ => none) p = none := by decide +kernel
  obtain ⟨hmem, hnone⟩ := hremoved p (by simpa using hp)
  exact (outcome_congr fun hno => absurd rfl (hno _ hmem)).trans hnone

/-- A workspace in whose journal these batches are pending opens. Wherever the power went when it was
opened before, its records are then what the two batches make of them, and those of the node and of the
references to it are not there. -/
theorem openAt_of_interrupted_storedThenRemoved : ∃ w : Site,
    Path.ofFolder "ws" = w.folder ∧ InOrder w pendingFolder ∧
    pendingFolder.contentsOf w.journal =
      Journal.header ++ storedThenRemoved.flatMap JournalEntry.write ∧
    (∃ store device, openAt ⟨"ws", true, true⟩ (Device.reliable pendingFolder 0) = .ok store device) ∧
    ∀ (done : Nat) (store : FileStore) (device : Device),
      openAt ⟨"ws", true, true⟩ (Device.reliable (interruptedAfter done) 0) = .ok store device →
      (∀ p, IsRecord w.folder p →
        filesIn device.disk p = outcome (replay w.folder storedThenRemoved) (filesIn pendingFolder) p) ∧
      filesIn device.disk (itemPath ["ws"] (default : ItemState).id) = none ∧
      filesIn device.disk (referencesPath ["ws"] default) = none := by
  obtain ⟨w, hw, hd, hlog⟩ := inOrder_pendingFolder
  have hfolder : Path.ofFolder (FileConfig.mk "ws" true true).path = w.folder := hw.symm
  refine ⟨w, hfolder, hd, hlog, ?_, fun done store device hopen => ?_⟩
  · obtain ⟨-, -, -, hopens⟩ :=
      openAt_of_interrupted hfolder hd readable_storedThenRemoved hlog .never
    exact hopens (by rw [hlog, List.length_append]; exact Nat.le_add_right _ _) 0
  · have hcrash : Fresh w.journal ((Device.reliable pendingFolder 0).crashing ⟨done, 0⟩) :=
      ⟨rfl, Crash.whole done w.journal, Nat.zero_le _⟩
    have hmended : ∀ disk, Fresh w.journal (Device.reliable disk 0) := fun _ =>
      ⟨rfl, FaultPlan.whole_nothing _, Nat.zero_le _⟩
    obtain ⟨found, hfound, hrecords, -⟩ :=
      openAt_of_interrupted hfolder hd readable_storedThenRemoved hlog (.again .never hcrash)
    rw [hfound.eq_pending, pending_storedThenRemoved] at hrecords
    replace hrecords := @hrecords (Device.reliable _ 0) _ _ rfl (hmended _) hopen
    have hws : w.folder = ["ws"] := hw.trans folder_ws
    refine ⟨hrecords, ?_, ?_⟩
    · rw [hrecords _ (hws ▸ isRecord_itemPath _ _), hws, outcome_storedThenRemoved _ (Or.inl rfl)]
    · rw [hrecords _ (hws ▸ isRecord_referencesPath _ _), hws, outcome_storedThenRemoved _ (Or.inr rfl)]

end ContentTree.FileStore
