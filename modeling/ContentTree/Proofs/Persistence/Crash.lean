import ContentTree.Proofs.Persistence.Answers
import ContentTree.Proofs.Persistence.Opening

/-!
# Power lost during a store

Wherever a store is cut short, the folder it leaves opens to the records from before the store or to
those from after it, with one exception: while the journal is emptied at the end, its file has less than
a header for a while, and a folder left at that point does not open.
-/

namespace ContentTree

namespace FileStore

variable {r : Regime} {w : Site} {s : Hosted FileStore} {before after files : Path → Option Bytes}
  {log : Bytes} {writer : Option Writer}

/-- A folder that opens to one of two states, or has less than a header in its journal. -/
def Recoverable (w : Site) (before after : Path → Option Bytes) (d : Disk) : Prop :=
  InOrder w d ∧
    (d.contentsOf w.journal <+: Journal.header ∧
        (d.contentsOf w.journal).length < Journal.headerLength ∨
      ∃ rest files, d.contentsOf w.journal = Journal.header ++ rest ∧ (files = before ∨ files = after) ∧
        ∀ p, IsRecord w.folder p →
          outcome (replay w.folder (Journal.pendingIn (Journal.header ++ rest))) (records w d) p = files p)

/-- Applying a batch again changes nothing more. -/
theorem outcome_again (cs : List Change) (files : Path → Option Bytes) (p : Path) :
    outcome cs (outcome cs files) p = outcome cs files p :=
  outcome_congr outcome_of_not_mem

/-- A disk stays recoverable where nothing was touched. -/
theorem Recoverable.of_touched {d d' : Disk} (h : Recoverable w before after d)
    (ht : Disk.Touched (fun _ => False) d d') : Recoverable w before after d' := by
  have hlog : d'.contentsOf w.journal = d.contentsOf w.journal := ht.contents id h.1.journal
  have hrecords : ∀ p, records w d' p = records w d p := fun p => ht.fileAt id
  refine ⟨h.1.of_touched ht fun l hl => hl.elim, ?_⟩
  rw [hlog]
  rcases h.2 with hshort | ⟨rest, files, hrest, hfiles, hall⟩
  · exact Or.inl hshort
  · refine Or.inr ⟨rest, files, hrest, hfiles, fun p hp => ?_⟩
    rw [outcome_congr fun _ => hrecords p, hall p hp]

/-- An open workspace in which replaying the journal gives one of the two states. -/
theorem Serving.recoverable {rest : Bytes} {target : Path → Option Bytes}
    (h : Serving w files (Journal.header ++ rest) writer s) (htarget : target = before ∨ target = after)
    (hall : ∀ p, outcome (replay w.folder (Journal.pendingIn (Journal.header ++ rest))) files p =
      target p) : Recoverable w before after s.device.disk := by
  refine ⟨h.inOrder, Or.inr ⟨rest, target, h.log_eq, htarget, fun p hp => ?_⟩⟩
  rw [outcome_congr fun _ => h.records_eq p hp, hall p]

/-- A batch and the time at which it is stored, such that the reader takes its entry as that of the
first batch in a journal. -/
def Storable (batch : ChangeSet) (time : Nat) : Prop :=
  JournalEntry.Readable ⟨1, .pending, some batch, time⟩

variable {batch : ChangeSet} {time : Nat}

/-- The announcement of a storable batch is read off the start of the journal. -/
theorem Storable.scan (h : Storable batch time) (rest : Bytes) :
    JournalEntry.scan (JournalEntry.write ⟨1, .pending, some batch, time⟩ ++ rest) =
      ⟨1, .pending, some batch, time⟩ :: JournalEntry.scan rest :=
  JournalEntry.scan_of_ok (JournalEntry.read_write h rest)

/-- While the marker of a batch is not whole, the batch is replayed. -/
theorem Storable.replay_announced (h : Storable batch time) (folder : Path) {torn : Bytes}
    (hnone : JournalEntry.scan torn = []) :
    replay folder (Journal.pendingIn (Journal.header ++
      (JournalEntry.write ⟨1, .pending, some batch, time⟩ ++ torn))) = changes folder batch := by
  rw [Journal.pendingIn_header_append, h.scan, hnone, JournalEntry.pending_announced, replay,
    List.flatMap_singleton]

/-- The entry of a batch in a journal that was empty. -/
def announcement (batch : ChangeSet) (time : Nat) : Bytes :=
  JournalEntry.write ⟨1, .pending, some batch, time⟩

/-- The marker of that batch. -/
def marker (time : Nat) : Bytes :=
  JournalEntry.write ⟨1, .committed, none, time⟩

/-- The marker is read as one entry. -/
theorem scan_marker (htime : time ≤ maxUInt64) :
    JournalEntry.scan (marker time) = [⟨1, .committed, none, time⟩] := by
  have hread := JournalEntry.read_write
    (JournalEntry.readable_mark .committed (by decide : 1 ≤ maxUInt64) htime) []
  rw [List.append_nil] at hread
  rw [marker, JournalEntry.scan_of_ok hread, JournalEntry.scan_nil]

/-- A batch that is announced and marked is not replayed. An announcement that is too long for the
reader hides what is behind it, but is not replayed either. -/
theorem pendingIn_marked (hfits : JournalEntry.Fits ⟨1, .pending, some batch, time⟩)
    (hl : MessagePack.LengthsFit
      (Portable.document (⟨1, .pending, some batch, time⟩ : JournalEntry))) :
    Journal.pendingIn (Journal.header ++ (announcement batch time ++ marker time)) = [] := by
  rw [Journal.pendingIn_header_append, announcement]
  rcases JournalEntry.scan_write_or hfits hl (marker time) with hscan | hscan
  · rw [hscan, scan_marker hfits.timestamp, JournalEntry.pending_marked]
  · rw [hscan, JournalEntry.pending_nil]

/-- A batch that is marked is no longer pending. -/
theorem Storable.marked (h : Storable batch time) :
    Journal.pendingIn (Journal.header ++ (announcement batch time ++ marker time)) = [] :=
  pendingIn_marked h.fits (MessagePack.lengthsFit_of_length _ h.length_lt)

/-- Cut short while it is announced, a batch is in place afterwards if the announcement is whole. -/
theorem Storable.recoverable_of_announcing (h : Storable batch time)
    (ht : Torn w files Journal.header (Journal.header ++ [] ++ announcement batch time) s) :
    Recoverable w files (outcome (changes w.folder batch) files) s.device.disk := by
  obtain ⟨now, waiting, ⟨torn, rfl⟩, hpart, hw⟩ := ht
  rw [List.append_nil, List.prefix_append_right_inj] at hpart
  by_cases hwhole : torn = announcement batch time
  · refine hw.recoverable (Or.inr rfl) fun p => ?_
    have hreplay := h.replay_announced w.folder JournalEntry.scan_nil
    rw [List.append_nil] at hreplay
    rw [hwhole, announcement, hreplay]
  · refine hw.recoverable (Or.inl rfl) fun p => ?_
    rw [Journal.pendingIn_header_append, JournalEntry.scan_torn h hpart hwhole, JournalEntry.pending_nil]
    rfl

/-- Cut short while it is applied, a batch is in place afterwards. -/
theorem Storable.recoverable_of_applying (h : Storable batch time)
    (hw : Serving w files (Journal.header ++ announcement batch time) writer s)
    (hfiles : ∀ p ∉ pathsOf w.folder batch, files p = before p) :
    Recoverable w before (outcome (changes w.folder batch) before) s.device.disk := by
  refine hw.recoverable (Or.inr rfl) fun p => ?_
  have hreplay := h.replay_announced w.folder JournalEntry.scan_nil
  rw [List.append_nil] at hreplay
  rw [announcement, hreplay]
  exact outcome_congr fun hp => hfiles p fun hmem => by
    obtain ⟨c, hc, hpath⟩ := mem_pathsOf_iff.1 hmem
    exact hp c hc hpath

/-- Cut short while it is marked, a batch is in place. -/
theorem Storable.recoverable_of_marking (h : Storable batch time)
    (ht : Torn w (outcome (changes w.folder batch) before) (Journal.header ++ announcement batch time)
      (Journal.header ++ announcement batch time ++ [] ++ marker time) s) :
    Recoverable w before (outcome (changes w.folder batch) before) s.device.disk := by
  obtain ⟨now, waiting, ⟨torn, rfl⟩, hpart, hw⟩ := ht
  rw [List.append_nil, List.prefix_append_right_inj] at hpart
  rw [List.append_assoc] at hw
  refine hw.recoverable (Or.inr rfl) fun p => ?_
  by_cases hwhole : torn = marker time
  · rw [hwhole, h.marked]
    rfl
  · rw [announcement, h.replay_announced w.folder
      (JournalEntry.scan_torn (JournalEntry.readable_mark _ (by decide) h.fits.timestamp) hpart hwhole)]
    exact outcome_again _ _ p

/-- Cut short while the journal is emptied, a batch is in place. -/
theorem Storable.recoverable_of_clearing (h : Storable batch time)
    {now : Bytes} (hnow : now = Journal.header ++ (announcement batch time ++ marker time) ∨
      now <+: Journal.header) (hw : Serving w after now writer s) :
    Recoverable w before after s.device.disk := by
  rcases hnow with rfl | hpart
  · refine hw.recoverable (Or.inr rfl) fun p => ?_
    rw [h.marked]
    rfl
  by_cases hshort : now.length < Journal.headerLength
  · refine ⟨hw.inOrder, Or.inl ?_⟩
    rw [hw.log_eq]
    exact ⟨hpart, hshort⟩
  · have hwhole : now = Journal.header ++ [] := by
      rw [List.append_nil]
      refine hpart.eq_of_length ?_
      have hle := hpart.length_le
      rw [Journal.length_header] at hle ⊢
      omega
    subst hwhole
    refine hw.recoverable (Or.inr rfl) fun p => ?_
    rw [Journal.pendingIn_header_append, JournalEntry.scan_nil, JournalEntry.pending_nil]
    rfl

/-- A store that goes well, or is cut short somewhere on the way. -/
theorem store_yields (hup : r.Up s.device) (hh : r.honest) (h : Waiting w files Journal.header [] s)
    (hseq : s.value.journal.nextSeq = 1) (hbatch : batch.isEmpty = false)
    (hmarked : Journal.pendingIn
      (Journal.header ++ (announcement batch r.time ++ marker r.time)) = [])
    (hstorable : r.Fallible → Storable batch r.time)
    (hundo : ∀ seq images s', r.Down s'.device →
      Recoverable w files (outcome (changes w.folder batch) files) s'.device.disk →
      Recoverable w files (outcome (changes w.folder batch) files)
        (stateAfter (undo seq images) s').device.disk) :
    Yields (fun _ s' => r.Up s'.device ∧ s'.value.journal.nextSeq = 1 ∧
        Waiting w (outcome (changes w.folder batch) files) Journal.header [] s')
      (fun s' => r.Fallible ∧
        Recoverable w files (outcome (changes w.folder batch) files) s'.device.disk)
      (store batch s) := by
  have hlog := log_yields batch hup h
  rw [hseq] at hlog
  rw [store, hbatch]
  show Yields _ _ ((capture batch >>= fun before => _ : Action Unit) s)
  rw [bind_of_ok (capture_eq batch h.folder_eq h.inOrder)]
  refine Yields.bind (hlog.imp (fun _ s₁ h₁ => h₁) fun s₁ h₁ => ?_) fun seq s₁ h₁ => ?_
  · have hfail := h₁.1.fallible
    exact ⟨hfail, (hstorable hfail).recoverable_of_announcing h₁.2⟩
  obtain ⟨rfl, hup₁, hw₁⟩ := h₁
  rw [List.append_nil] at hw₁
  -- the changes and their mark are one attempt: whatever fails in it is undone
  have htry : Yields (fun _ s₂ => r.Up s₂.device ∧ Waiting w (outcome (changes w.folder batch) files)
        (Journal.header ++ announcement batch r.time ++ [] ++ marker r.time) [] s₂)
      (fun s₂ => r.Down s₂.device ∧
        Recoverable w files (outcome (changes w.folder batch) files) s₂.device.disk)
      ((apply batch >>= fun _ => onJournal (Journal.commit 1)) s₁) := by
    refine Yields.bind ((applied_yields batch hup₁ hw₁).imp (fun _ s₂ h₂ => h₂) fun s₂ h₂ => ?_)
      fun _ s₂ h₂ => ?_
    · obtain ⟨hdown, files', hw₂, hfiles⟩ := h₂
      exact ⟨hdown, (hstorable hdown.fallible).recoverable_of_applying hw₂ hfiles⟩
    · obtain ⟨hup₂, files', hw₂, hfiles⟩ := h₂
      rw [hfiles hh] at hw₂
      refine (mark_yields 1 .committed hup₂ hw₂).imp (fun _ s₃ h₃ => h₃) fun s₃ h₃ => ?_
      exact ⟨h₃.1, (hstorable h₃.1.fallible).recoverable_of_marking h₃.2⟩
  refine Yields.bind (Yields.tryCatch htry fun e s₂ h₂ => ?_) fun _ s₂ h₂ => ?_
  · rw [bind_of_ok (undo_eq_ok _ _ s₂)]
    exact ⟨h₂.1.fallible, hundo _ _ s₂ h₂.1 h₂.2⟩
  · obtain ⟨hup₂, hw₂⟩ := h₂
    rw [List.append_nil, List.append_assoc] at hw₂
    -- the batch is marked, so nothing is pending and the journal is emptied
    have hpending := hasPending_eq hw₂
    rw [hmarked] at hpending
    rw [bind_of_ok hpending]
    refine (clear_yields hup₂ hw₂).imp (fun _ s₃ h₃ => h₃) fun s₃ h₃ => ?_
    obtain ⟨hdown, now, hnow, hw₃⟩ := h₃
    have hfail := hdown.fallible
    exact ⟨hfail, (hstorable hfail).recoverable_of_clearing hnow hw₃⟩

end FileStore

end ContentTree
