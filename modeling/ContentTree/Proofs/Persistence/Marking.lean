import ContentTree.Proofs.Persistence.Journal

/-!
# Marks that are written as a whole

A mark is shorter than the buffer, so it goes to the file in one write. On a device whose writes to the
journal are carried out as a whole or not at all, a mark that fails is therefore in the file or waits in
the buffer (`mark_whole_yields`), and closing the journal then loses it or writes it out
(`close_whole_yields`).
-/

namespace ContentTree

/-- Writes behind some contents are carried out as a whole or not at all, and no failure is taken for the
absence of a file. -/
structure FaultPlan.Whole (inode : Nat) (plan : FaultPlan) : Prop where
  kept : ∀ {n bytes fault}, plan n (.write inode bytes) = some fault → fault.kept = 0
  honest : ∀ {n p fault}, plan n (.remove p) = some fault → fault.cause ≠ .notFound

/-- Where nothing fails, no write is torn. -/
theorem FaultPlan.whole_nothing (inode : Nat) : FaultPlan.Whole inode fun _ _ => none :=
  ⟨nofun, nofun⟩

/-- The power may go between two effects. -/
theorem Crash.whole (done inode : Nat) : (Crash.plan ⟨done, 0⟩).Whole inode where
  kept {n bytes fault} h := by
    rw [Crash.plan] at h
    split at h
    · cases h
    · cases h
      exact ite_self 0
  honest {n p fault} h := by
    rw [Crash.plan] at h
    split at h
    · cases h
    · cases h
      exact nofun

namespace Regime

/-- Effects fail at any time, but writes behind some contents are not torn. -/
def whole (inode : Nat) (locks : List Nat) (time : Nat) : Regime where
  locks := locks
  time := time
  up plan _ := plan.Whole inode
  down plan _ := plan.Whole inode
  fine h _ := h
  fails h _ := h
  stays h := h
  honest := True
  denies h hfault hcause := absurd hcause (h.honest hfault)

/-- On a device that writes whole or not at all, a failed device is still up. -/
theorem Down.up_of_whole {inode time : Nat} {locks : List Nat} {device : Device}
    (h : (whole inode locks time).Down device) : (whole inode locks time).Up device :=
  ⟨h.locks_eq, h.time_eq, h.isDown⟩

end Regime

/-- A write arrives whole, or not at all. -/
theorem Device.write_whole_yields {inode time : Nat} {locks : List Nat} {device : Device}
    (hup : (Regime.whole inode locks time).Up device) (bytes : Bytes) :
    Yields (fun _ d => (Regime.whole inode locks time).Up d ∧ d.disk = device.disk.append inode bytes)
      (fun d => (Regime.whole inode locks time).Down d ∧
        ∃ n, n = 0 ∧ d.disk = device.disk.append inode (bytes.take n)) (write inode bytes device) := by
  have hplan : device.plan.Whole inode := hup.isUp
  cases hfault : device.plan device.clock (.write inode bytes) with
  | none =>
    rw [write, perform_eq, hfault]
    exact ⟨⟨hup.locks_eq, hup.time_eq, hup.isUp⟩, rfl⟩
  | some fault =>
    rw [write, perform_eq, hfault]
    exact ⟨⟨hup.locks_eq, hup.time_eq, hup.isUp⟩, fault.kept, hplan.kept hfault, rfl⟩

namespace Journal

variable {place : Location} {inode time : Nat} {locks : List Nat} {start s : Hosted Journal}
  {contents buffered : Bytes}

/-- A piece for which the buffer has room only goes into the buffer. -/
theorem exists_put_ok (h : Written place inode start contents buffered s) (piece : Bytes)
    (hroom : buffered.length + piece.length < capacity) :
    ∃ s', put piece s = .ok ⟨⟩ s' ∧ s'.device = s.device ∧
      Written place inode start contents (buffered ++ piece) s' := by
  have hput : put piece s = setBuffered (buffered ++ piece) s := by
    rw [put, bind_of_ok (openWriter_of_written h), if_neg (Nat.not_lt_of_lt hroom)]
    show (openWriter >>= fun w => if capacity ≤ piece.length
      then Hosted.onDevice (Device.write w.inode piece)
      else setBuffered (w.buffered ++ piece) : Action Unit) s = _
    rw [bind_of_ok (openWriter_of_written h), if_neg (by omega)]
  rw [setBuffered_eq] at hput
  exact ⟨_, hput, rfl, h.setBuffered _⟩

/-- Pieces that fit into the buffer are put without touching the device. -/
theorem exists_forM_put_ok (pieces : List Bytes) (h : Written place inode start contents buffered s)
    (hroom : buffered.length + pieces.flatten.length < capacity) :
    ∃ s', pieces.forM put s = .ok ⟨⟩ s' ∧ s'.device = s.device ∧
      Written place inode start contents (buffered ++ pieces.flatten) s' := by
  induction pieces generalizing buffered s with
  | nil => exact ⟨s, rfl, rfl, by rwa [List.flatten_nil, List.append_nil]⟩
  | cons piece rest ih =>
    rw [List.flatten_cons, List.length_append] at hroom
    obtain ⟨mid, hput, hdevice, hmid⟩ := exists_put_ok h piece (by omega)
    obtain ⟨s', hrest, hdevice', hs'⟩ := ih hmid (by rw [List.length_append]; omega)
    refine ⟨s', ?_, hdevice'.trans hdevice, ?_⟩
    · show (put piece >>= fun _ => rest.forM put) s = _
      rw [bind_of_ok hput, hrest]
    · rw [List.flatten_cons, ← List.append_assoc]
      exact hs'

/-- A mark for which the buffer has room is in the file, or part of it is and the rest waits. -/
theorem mark_queued_yields {r : Regime} (seq : Nat) (status : JournalStatus) (hup : r.Up s.device)
    (h : Written place inode start contents buffered s)
    (hroom : buffered.length +
      (JournalEntry.write ⟨seq, status, none, r.time⟩).length < capacity) :
    Yields (fun _ s' => r.Up s'.device ∧ Written place inode start
        (contents ++ buffered ++ JournalEntry.write ⟨seq, status, none, r.time⟩) [] s')
      (fun s' => r.Down s'.device ∧ Queued place inode start contents
        (contents ++ buffered ++ JournalEntry.write ⟨seq, status, none, r.time⟩) s')
      (mark seq status s) := by
  obtain ⟨mid, hpieces, hdevice, hmid⟩ := exists_forM_put_ok _ h hroom
  rw [mark_eq, hup.time_eq, append, bind_of_ok (openWriter_of_written h), bind_of_ok hpieces]
  rw [← hdevice] at hup
  have hwhole : contents ++ (buffered ++ JournalEntry.write ⟨seq, status, none, r.time⟩) =
      contents ++ buffered ++ JournalEntry.write ⟨seq, status, none, r.time⟩ :=
    (List.append_assoc ..).symm
  refine Yields.bind ((flush_yields hup hmid).imp (fun _ s' hs' => hs') fun s' hs' => ?_)
    fun _ s' hs' => ?_
  · obtain ⟨hdown, torn, rest, htorn, hw⟩ := hs'
    refine ⟨hdown, contents ++ torn, rest, List.prefix_append _ _, ?_, hw⟩
    rw [List.append_assoc, htorn]
    exact hwhole
  · obtain ⟨hup', hw⟩ := hs'
    rw [show contents ++ (buffered ++ (JournalEntry.pieces _).flatten) = _ from hwhole] at hw
    have hgrown : contents <+: contents ++ buffered ++ JournalEntry.write ⟨seq, status, none, r.time⟩ := by
      rw [List.append_assoc]
      exact List.prefix_append _ _
    refine (Hosted.onDevice_yields (Device.sync_yields hup' inode)).imp (fun _ t ht => ?_) fun t ht => ?_
    · exact ⟨ht.1.1, hw.of_eq ht.1.2 ht.2⟩
    · exact ⟨ht.1.1, _, [], hgrown, List.append_nil _, hw.of_eq ht.1.2 ht.2⟩

/-- A flush arrives whole, or not at all. -/
theorem flush_whole_yields (hup : (Regime.whole inode locks time).Up s.device)
    (h : Written place inode start contents buffered s) :
    Yields (fun _ s' => (Regime.whole inode locks time).Up s'.device ∧
        Written place inode start (contents ++ buffered) [] s')
      (fun s' => (Regime.whole inode locks time).Down s'.device ∧
        Written place inode start contents buffered s') (flush s) := by
  refine (flush_yields_of (· = 0) hup h (Device.write_whole_yields hup buffered)).imp
    (fun _ s' hs' => hs') fun s' hs' => ?_
  obtain ⟨hdown, n, rfl, hw⟩ := hs'
  rw [List.take_zero, List.append_nil, List.drop_zero] at hw
  exact ⟨hdown, hw⟩

/-- A mark that fails waits in the buffer, or was written and not forced to the medium. -/
theorem mark_whole_yields (seq : Nat) (status : JournalStatus)
    (hup : (Regime.whole inode locks time).Up s.device)
    (h : Written place inode start contents [] s) :
    Yields (fun _ s' => (Regime.whole inode locks time).Up s'.device ∧ Written place inode start
        (contents ++ JournalEntry.write ⟨seq, status, none, time⟩) [] s')
      (fun s' => (Regime.whole inode locks time).Down s'.device ∧
        (Written place inode start contents (JournalEntry.write ⟨seq, status, none, time⟩) s' ∨
          Written place inode start
            (contents ++ JournalEntry.write ⟨seq, status, none, time⟩) [] s'))
      (mark seq status s) := by
  have hshort : (JournalEntry.write ⟨seq, status, none, time⟩).length < capacity := by
    have hlen := JournalEntry.length_mark_le seq time status
    rw [JournalEntry.length_write, capacity]
    omega
  obtain ⟨mid, hpieces, hdevice, hmid⟩ :=
    exists_forM_put_ok (JournalEntry.pieces ⟨seq, status, none, time⟩) h
      (by rwa [List.length_nil, Nat.zero_add])
  rw [List.nil_append] at hmid
  have htime : s.device.time = time := hup.time_eq
  rw [mark, get_bind, htime, append, bind_of_ok (openWriter_of_written h), bind_of_ok hpieces]
  rw [← hdevice] at hup
  refine Yields.bind ((flush_whole_yields hup hmid).imp (fun _ s' hs' => hs')
    fun s' hs' => ⟨hs'.1, Or.inl hs'.2⟩) fun _ s' hs' => ?_
  refine (Hosted.onDevice_yields (Device.sync_yields hs'.1 inode)).imp (fun _ t ht => ?_) fun t ht => ?_
  · exact ⟨ht.1.1, hs'.2.of_eq ht.1.2 ht.2⟩
  · exact ⟨ht.1.1, Or.inr (hs'.2.of_eq ht.1.2 ht.2)⟩

/-- Closing the journal writes out what waits, or loses it. -/
theorem close_whole_yields (hup : (Regime.whole inode locks time).Up s.device)
    (h : Written place inode start contents buffered s) :
    Yields (fun _ s' => ∃ now, (now = contents ∨ now = contents ++ buffered) ∧
        Stands place inode start now none s')
      (fun _ => False) (close s) := by
  have hflush : Yields (fun _ s' => ∃ now waiting, (now = contents ∨ now = contents ++ buffered) ∧
        Written place inode start now waiting s')
      (fun _ => False) ((tryCatch flush fun _ => pure () : Action PUnit) s) := by
    refine Yields.tryCatch ((flush_whole_yields hup h).imp (fun _ s' hs' => ?_) fun _ hs' => hs')
      fun _ s' hs' => ?_
    · exact ⟨_, [], Or.inr rfl, hs'.2⟩
    · exact ⟨_, buffered, Or.inl rfl, hs'.2⟩
  refine Yields.bind hflush fun _ s' hs' => ?_
  obtain ⟨now, waiting, hnow, hw⟩ := hs'
  exact ⟨now, hnow, hw.file, hw.path_eq, rfl⟩

end Journal

end ContentTree
