import ContentTree.Proofs.Disk.Device
import ContentTree.Proofs.Persistence.Pending

/-!
# Writing a journal

Whatever is put into a journal comes behind what is in the file and what waits in the buffer. A write
that fails leaves the file with a first part of that, so the file of a journal only grows until it is
emptied (`append_yields`, `clear_yields`).
-/

namespace ContentTree.Journal

/-- The octets in front of the entries. -/
def header : Bytes := magic ++ [version]

/-- The header has its fixed length. -/
theorem length_header : header.length = headerLength := rfl

/-- What follows the header is the body. -/
theorem body_header (rest : Bytes) : body (header ++ rest) = .ok rest := rfl

/-- A header that is not there to its end is not read. -/
theorem body_of_prefix {contents : Bytes} (h : contents <+: header)
    (hlt : contents.length < headerLength) : body contents = .error (.io .unexpectedEnd) := by
  obtain ⟨missing, hmissing⟩ := h
  by_cases hshort : contents.length < 4
  · rw [body, Record.take_of_lt hshort]
    rfl
  · have hlen : contents.length = 4 := by
      rw [headerLength] at hlt
      omega
    have hmagic : contents = magic := (List.append_inj hmissing hlen).1
    rw [hmagic]
    rfl

variable {r : Regime} {place : Location} {inode : Nat} {start s : Hosted Journal}
  {contents buffered : Bytes}

/-- A journal of which, since `start`, only the file and the writer changed. -/
structure Stands (place : Location) (inode : Nat) (start : Hosted Journal) (contents : Bytes)
    (writer : Option Writer) (s : Hosted Journal) : Prop where
  file : Disk.Filled place inode start.device.disk contents s.device.disk
  path_eq : s.value.path = start.value.path
  writer_eq : s.value.writer = writer

/-- An open journal with octets in the buffer. -/
abbrev Written (place : Location) (inode : Nat) (start : Hosted Journal) (contents buffered : Bytes)
    (s : Hosted Journal) : Prop :=
  Stands place inode start contents (some ⟨inode, buffered⟩) s

/-- Where neither the tree nor the journal changed, the journal stands as before. -/
theorem Stands.of_eq {writer : Option Writer} {s' : Hosted Journal}
    (h : Stands place inode start contents writer s) (hdisk : s'.device.disk = s.device.disk)
    (hvalue : s'.value = s.value) : Stands place inode start contents writer s' :=
  ⟨hdisk ▸ h.file, hvalue ▸ h.path_eq, hvalue ▸ h.writer_eq⟩

/-- Octets that go to the file. -/
theorem Stands.append {writer : Option Writer} (h : Stands place inode start contents writer s)
    (bytes : Bytes) {s' : Hosted Journal} (hdisk : s'.device.disk = s.device.disk.append inode bytes)
    (hvalue : s'.value = s.value) : Stands place inode start (contents ++ bytes) writer s' :=
  ⟨hdisk ▸ h.file.append bytes, hvalue ▸ h.path_eq, hvalue ▸ h.writer_eq⟩

/-- Filling the buffer changes what waits and nothing else. -/
theorem Stands.setBuffered (h : Written place inode start contents buffered s) (rest : Bytes) :
    Written place inode start contents rest
      { s with value := { s.value with writer := s.value.writer.map ({ · with buffered := rest }) } } :=
  ⟨h.file, h.path_eq, by simp only [h.writer_eq, Option.map_some]⟩

/-- The writer of a written journal is open already. -/
theorem openWriter_of_written (h : Written place inode start contents buffered s) :
    openWriter s = .ok ⟨inode, buffered⟩ s := by
  rw [openWriter, get_bind, h.writer_eq]
  rfl

/-- Filling the buffer replaces what the writer holds. -/
theorem setBuffered_eq (rest : Bytes) (s : Hosted Journal) :
    setBuffered rest s = .ok ⟨⟩
      { s with value := { s.value with writer := s.value.writer.map ({ · with buffered := rest }) } } :=
  rfl

/-- What could not be written out stays in the buffer, whatever first parts a failing write may put
down. -/
theorem flush_yields_of (kept : Nat → Prop) (hup : r.Up s.device)
    (h : Written place inode start contents buffered s)
    (hwrite : Yields (fun _ d => r.Up d ∧ d.disk = s.device.disk.append inode buffered)
      (fun d => r.Down d ∧ ∃ n, kept n ∧ d.disk = s.device.disk.append inode (buffered.take n))
      (Device.write inode buffered s.device)) :
    Yields (fun _ s' => r.Up s'.device ∧ Written place inode start (contents ++ buffered) [] s')
      (fun s' => r.Down s'.device ∧ ∃ n, kept n ∧
        Written place inode start (contents ++ buffered.take n) (buffered.drop n) s') (flush s) := by
  rw [flush, bind_of_ok (openWriter_of_written h)]
  by_cases hempty : buffered.isEmpty
  · rw [if_pos hempty]
    rw [List.isEmpty_iff] at hempty
    subst hempty
    rw [List.append_nil]
    exact ⟨hup, h⟩
  rw [if_neg hempty, get_bind]
  have hpart : Yields (fun _ s' => r.Up s'.device ∧
        Written place inode start (contents ++ buffered) [] s')
      (fun s' => r.Down s'.device ∧ ∃ n, kept n ∧
        Written place inode start (contents ++ buffered.take n) buffered s')
      ((do
        Hosted.onDevice (Device.write inode buffered)
        setBuffered [] : Action PUnit) s) := by
    refine Yields.bind ((Hosted.onDevice_yields hwrite).imp (fun _ s' hs' => hs') fun s' hs' => ?_)
      fun _ s' hs' => ?_
    · obtain ⟨⟨hdown, n, hn, hdisk⟩, hvalue⟩ := hs'
      exact ⟨hdown, n, hn, h.append _ hdisk hvalue⟩
    · obtain ⟨⟨hup', hdisk⟩, hvalue⟩ := hs'
      rw [setBuffered_eq]
      exact ⟨hup', (h.append _ hdisk hvalue).setBuffered []⟩
  -- on a failure what arrived is taken off the buffer, and the rest waits
  refine hpart.tryCatch fun e s' hs' => ?_
  obtain ⟨hdown, n, hn, hw⟩ := hs'
  have hcount : (s'.device.disk.contentsOf inode).length - (s.device.disk.contentsOf inode).length =
      (buffered.take n).length := by
    rw [hw.file.contents_eq, h.file.contents_eq, List.length_append]
    omega
  have hdrop : buffered.drop (buffered.take n).length = buffered.drop n := by
    have hleft := @List.drop_left _ (buffered.take n) (buffered.drop n)
    rwa [List.take_append_drop] at hleft
  rw [get_bind]
  simp only [hcount, hdrop]
  rw [bind_of_ok (setBuffered_eq _ s')]
  exact ⟨hdown, n, hn, hw.setBuffered _⟩

/-- Flushing appends what waits, or a part of it if the flush fails. -/
theorem flush_yields (hup : r.Up s.device) (h : Written place inode start contents buffered s) :
    Yields (fun _ s' => r.Up s'.device ∧ Written place inode start (contents ++ buffered) [] s')
      (fun s' => r.Down s'.device ∧ ∃ torn rest, torn ++ rest = buffered ∧
        Written place inode start (contents ++ torn) rest s') (flush s) := by
  refine (flush_yields_of (fun _ => True) hup h
    ((Device.write_yields hup inode buffered).imp (fun _ d hd => hd) fun d hd => ?_)).imp
      (fun _ s' hs' => hs') fun s' hs' => ?_
  · obtain ⟨hdown, n, hdisk⟩ := hd
    exact ⟨hdown, n, trivial, hdisk⟩
  · obtain ⟨hdown, n, -, hw⟩ := hs'
    exact ⟨hdown, _, _, List.take_append_drop n buffered, hw⟩

/-- The file holds at least `contents` and, with the buffer, all of `total`. -/
def Queued (place : Location) (inode : Nat) (start : Hosted Journal) (contents total : Bytes)
    (s : Hosted Journal) : Prop :=
  ∃ now waiting, contents <+: now ∧ now ++ waiting = total ∧ Written place inode start now waiting s

/-- The file holds `contents` and a first part of what was to come behind it. -/
def Torn (place : Location) (inode : Nat) (start : Hosted Journal) (contents total : Bytes)
    (s : Hosted Journal) : Prop :=
  ∃ now waiting, contents <+: now ∧ now <+: total ∧ Written place inode start now waiting s

/-- What is queued is a torn stretch of anything longer. -/
theorem Queued.torn {total more : Bytes} (h : Queued place inode start contents total s) :
    Torn place inode start contents (total ++ more) s := by
  obtain ⟨now, waiting, hgrown, rfl, hw⟩ := h
  refine ⟨now, waiting, hgrown, ?_, hw⟩
  rw [List.append_assoc]
  exact List.prefix_append _ _

/-- A torn stretch is one of anything longer. -/
theorem Torn.more {total : Bytes} (h : Torn place inode start contents total s) (more : Bytes) :
    Torn place inode start contents (total ++ more) s := by
  obtain ⟨now, waiting, hgrown, hpart, hw⟩ := h
  exact ⟨now, waiting, hgrown, hpart.trans (List.prefix_append _ _), hw⟩

/-- All that waits reaches the file, or a first part of it. -/
theorem flush_queued {total : Bytes} (hup : r.Up s.device)
    (h : Queued place inode start contents total s) :
    Yields (fun _ s' => r.Up s'.device ∧ contents <+: total ∧ Written place inode start total [] s')
      (fun s' => r.Down s'.device ∧ Torn place inode start contents total s') (flush s) := by
  obtain ⟨now, waiting, hgrown, rfl, hw⟩ := h
  refine (flush_yields hup hw).imp (fun _ s' hs' => ?_) fun s' hs' => ?_
  · exact ⟨hs'.1, hgrown.trans (List.prefix_append _ _), hs'.2⟩
  · obtain ⟨hdown, torn, rest, rfl, hw'⟩ := hs'
    refine ⟨hdown, now ++ torn, rest, hgrown.trans (List.prefix_append _ _), ?_, hw'⟩
    rw [← List.append_assoc]
    exact List.prefix_append _ _

/-- A piece is put behind what is queued, or the stretch is torn. -/
theorem put_yields {total : Bytes} (hup : r.Up s.device)
    (h : Queued place inode start contents total s) (piece : Bytes) :
    Yields (fun _ s' => r.Up s'.device ∧ Queued place inode start contents (total ++ piece) s')
      (fun s' => r.Down s'.device ∧ Torn place inode start contents (total ++ piece) s')
      (put piece s) := by
  -- once the buffer has room or is empty, the piece goes to the file or into the buffer
  have hlast : ∀ s', r.Up s'.device → ∀ now waiting, contents <+: now → now ++ waiting = total →
      (capacity ≤ piece.length → waiting = []) → Written place inode start now waiting s' →
      Yields (fun _ s' => r.Up s'.device ∧ Queued place inode start contents (total ++ piece) s')
        (fun s' => r.Down s'.device ∧ Torn place inode start contents (total ++ piece) s')
        ((openWriter >>= fun w => if capacity ≤ piece.length
          then Hosted.onDevice (Device.write w.inode piece)
          else setBuffered (w.buffered ++ piece)) s') := by
    intro s' hup' now waiting hgrown htotal hroom hw
    rw [bind_of_ok (openWriter_of_written hw)]
    by_cases hlong : capacity ≤ piece.length
    · have hnothing := hroom hlong
      subst hnothing
      rw [List.append_nil] at htotal
      subst htotal
      rw [if_pos hlong]
      refine (Hosted.onDevice_yields (Device.write_yields hup' inode piece)).imp
        (fun _ s'' hs'' => ?_) fun s'' hs'' => ?_
      · obtain ⟨⟨hup'', hdisk⟩, hvalue⟩ := hs''
        exact ⟨hup'', now ++ piece, [], hgrown.trans (List.prefix_append _ _), List.append_nil _,
          hw.append piece hdisk hvalue⟩
      · obtain ⟨⟨hdown, n, hdisk⟩, hvalue⟩ := hs''
        refine ⟨hdown, now ++ piece.take n, [], hgrown.trans (List.prefix_append _ _), ?_,
          hw.append _ hdisk hvalue⟩
        exact (List.prefix_append_right_inj now).2 (List.take_prefix n piece)
    · rw [if_neg hlong, setBuffered_eq]
      refine ⟨hup', now, waiting ++ piece, hgrown, ?_, hw.setBuffered _⟩
      rw [← htotal, List.append_assoc]
  obtain ⟨now, waiting, hgrown, htotal, hw⟩ := h
  rw [put, bind_of_ok (openWriter_of_written hw)]
  by_cases hfull : capacity < waiting.length + piece.length
  · rw [if_pos hfull]
    refine Yields.bind ((flush_queued hup ⟨now, waiting, hgrown, htotal, hw⟩).imp
      (fun _ s' hs' => hs') fun s' hs' => ⟨hs'.1, hs'.2.more _⟩) fun _ s' hs' => ?_
    exact hlast s' hs'.1 total [] hs'.2.1 (List.append_nil _) (fun _ => rfl) hs'.2.2
  · rw [if_neg hfull]
    refine hlast s hup now waiting hgrown htotal (fun hlong => ?_) hw
    exact List.eq_nil_of_length_eq_zero (by omega)

/-- An entry comes behind what waited before it, and nothing waits then. -/
theorem append_yields (e : JournalEntry) (hup : r.Up s.device)
    (h : Written place inode start contents buffered s) :
    Yields (fun _ s' => r.Up s'.device ∧
        Written place inode start (contents ++ buffered ++ e.write) [] s')
      (fun s' => r.Down s'.device ∧
        Torn place inode start contents (contents ++ buffered ++ e.write) s') (append e s) := by
  have hpieces : Yields (fun _ s' => r.Up s'.device ∧
        Queued place inode start contents (contents ++ buffered ++ e.pieces.flatten) s')
      (fun s' => r.Down s'.device ∧
        Torn place inode start contents (contents ++ buffered ++ e.pieces.flatten) s')
      (e.pieces.forM put s) := by
    refine Yields.forM (fun done s' => r.Up s'.device ∧
      Queued place inode start contents (contents ++ buffered ++ done.flatten) s')
      (fun done piece rest s' hsplit hs' => ?_) ?_
    · refine (put_yields hs'.1 hs'.2 piece).imp (fun _ s'' hs'' => ?_) fun s'' hs'' => ⟨hs''.1, ?_⟩
      · rw [List.flatten_append, List.flatten_singleton, ← List.append_assoc]
        exact hs''
      · have hmore := hs''.2.more rest.flatten
        rw [hsplit, List.flatten_append, List.flatten_cons, ← List.append_assoc, ← List.append_assoc]
        exact hmore
    · rw [List.flatten_nil, List.append_nil]
      exact ⟨hup, contents, buffered, List.prefix_refl _, rfl, h⟩
  rw [append, bind_of_ok (openWriter_of_written h)]
  refine Yields.bind hpieces fun _ s' hs' => ?_
  refine Yields.bind (flush_queued hs'.1 hs'.2) fun _ s'' hs'' => ?_
  obtain ⟨hup'', hgrown, hw⟩ := hs''
  refine (Hosted.onDevice_yields (Device.sync_yields hup'' inode)).imp (fun _ t ht => ?_) fun t ht => ?_
  · exact ⟨ht.1.1, hw.of_eq ht.1.2 ht.2⟩
  · exact ⟨ht.1.1, _, [], hgrown, List.prefix_refl _, hw.of_eq ht.1.2 ht.2⟩

/-- A journal that has used up the number of its next batch. -/
def advanced (s : Hosted Journal) : Hosted Journal :=
  { s with value := { s.value with nextSeq := s.value.nextSeq + 1 } }

/-- Logging takes a number and appends the announcement. -/
theorem log_eq (batch : ChangeSet) (s : Hosted Journal) :
    log batch s = (append ⟨s.value.nextSeq, .pending, some batch, s.device.time⟩ >>= fun _ =>
      pure s.value.nextSeq : Action Nat) (advanced s) := by
  rw [log, get_bind, set_bind]
  rfl

/-- Marking appends the mark. -/
theorem mark_eq (seq : Nat) (status : JournalStatus) (s : Hosted Journal) :
    mark seq status s = append ⟨seq, status, none, s.device.time⟩ s := by
  rw [mark, get_bind]

/-- The number of a batch is used up, and its entry comes behind what waited. -/
theorem log_yields (batch : ChangeSet) (hup : r.Up s.device)
    (h : Written place inode start contents buffered s) :
    Yields (fun seq s' => seq = s.value.nextSeq ∧ r.Up s'.device ∧ Written place inode start
        (contents ++ buffered ++ JournalEntry.write ⟨s.value.nextSeq, .pending, some batch, r.time⟩)
        [] s')
      (fun s' => r.Down s'.device ∧ Torn place inode start contents
        (contents ++ buffered ++ JournalEntry.write ⟨s.value.nextSeq, .pending, some batch, r.time⟩) s')
      (log batch s) := by
  have hnext : Written place inode start contents buffered (advanced s) :=
    ⟨h.file, h.path_eq, h.writer_eq⟩
  rw [log_eq, ← hup.time_eq]
  exact Yields.bind (append_yields _ hup hnext) fun _ s' hs' => ⟨rfl, hs'⟩

/-- Marking appends the mark, or a part of it if the device fails. -/
theorem mark_yields (seq : Nat) (status : JournalStatus) (hup : r.Up s.device)
    (h : Written place inode start contents buffered s) :
    Yields (fun _ s' => r.Up s'.device ∧ Written place inode start
        (contents ++ buffered ++ JournalEntry.write ⟨seq, status, none, r.time⟩) [] s')
      (fun s' => r.Down s'.device ∧ Torn place inode start contents
        (contents ++ buffered ++ JournalEntry.write ⟨seq, status, none, r.time⟩) s')
      (mark seq status s) := by
  rw [mark_eq, ← hup.time_eq]
  exact append_yields _ hup h

/-- Nothing is appended to a closed journal. -/
theorem append_of_closed (e : JournalEntry) (h : s.value.writer = none) :
    append e s = .error (.persistence .journalClosed) s := by
  have hopen : openWriter s = .error (.persistence .journalClosed) s := by
    rw [openWriter, get_bind, h]
    rfl
  rw [append, bind_of_error hopen]

/-- A closed journal logs nothing, but a number is taken. -/
theorem log_of_closed (batch : ChangeSet) (h : s.value.writer = none) :
    log batch s = .error (.persistence .journalClosed) (advanced s) := by
  have hclosed : (advanced s).value.writer = none := h
  rw [log_eq, bind_of_error (append_of_closed _ hclosed)]

/-- A closed journal marks nothing. -/
theorem mark_of_closed (seq : Nat) (status : JournalStatus) (h : s.value.writer = none) :
    mark seq status s = .error (.persistence .journalClosed) s := by
  rw [mark_eq, append_of_closed _ h]

/-- The batches that the file of a journal leaves pending. -/
def pendingIn (contents : Bytes) : List JournalEntry :=
  JournalEntry.pending (JournalEntry.scan (contents.drop headerLength))

/-- What is pending in a file with its header is pending in what follows. -/
theorem pendingIn_header_append (rest : Bytes) :
    pendingIn (header ++ rest) = JournalEntry.pending (JournalEntry.scan rest) := rfl

/-- In an empty journal nothing is pending. -/
theorem pendingIn_header : pendingIn header = [] := by
  rw [← List.append_nil header, pendingIn_header_append, JournalEntry.scan_nil, JournalEntry.pending_nil]

/-- The pending entries are read off the journal's file. -/
theorem pendingEntries_eq (h : s.device.disk.Leads s.value.path place)
    (he : s.device.disk.occupant? place = some (.file inode)) :
    pendingEntries s = .ok (pendingIn (s.device.disk.contentsOf inode)) s := by
  rw [pendingEntries, get_bind, Hosted.onDevice, Device.query_eq]
  simp only [h.lookup, he]
  rfl

/-- Whether entries are pending is read off the journal's file. -/
theorem hasPending_eq (h : s.device.disk.Leads s.value.path place)
    (he : s.device.disk.occupant? place = some (.file inode)) :
    hasPending s = .ok (!(pendingIn (s.device.disk.contentsOf inode)).isEmpty) s := by
  rw [hasPending, bind_of_ok (pendingEntries_eq h he)]
  rfl

/-- Closing a journal writes out what waits, or a first part of it. -/
theorem close_yields (hup : r.Up s.device) (h : Written place inode start contents buffered s) :
    Yields (fun _ s' => (r.Up s'.device ∨ r.Down s'.device) ∧ ∃ now, contents <+: now ∧
        now <+: contents ++ buffered ∧ Stands place inode start now none s')
      (fun _ => False) (close s) := by
  have hflush : Yields (fun _ s' => (r.Up s'.device ∨ r.Down s'.device) ∧ ∃ now waiting,
        contents <+: now ∧ now <+: contents ++ buffered ∧ Written place inode start now waiting s')
      (fun _ => False) ((tryCatch flush fun _ => pure () : Action PUnit) s) := by
    refine Yields.tryCatch ((flush_yields hup h).imp (fun _ s' hs' => ?_) fun _ hs' => hs')
      fun _ s' hs' => ?_
    · exact ⟨Or.inl hs'.1, _, [], List.prefix_append _ _, List.prefix_refl _, hs'.2⟩
    · obtain ⟨hdown, torn, rest, rfl, hw⟩ := hs'
      refine ⟨Or.inr hdown, _, rest, List.prefix_append _ _, ?_, hw⟩
      rw [← List.append_assoc]
      exact List.prefix_append _ _
  refine Yields.bind hflush fun _ s' hs' => ?_
  obtain ⟨hdevice, now, waiting, hgrown, hpart, hw⟩ := hs'
  exact ⟨hdevice, now, hgrown, hpart, hw.file, hw.path_eq, rfl⟩

/-- Closing a journal in which nothing waits changes no file. -/
theorem close_eq (h : s.value.writer = some ⟨inode, []⟩ ∨ s.value.writer = none) :
    close s = .ok ⟨⟩ { s with value := { s.value with writer := none } } := by
  have hflush : (tryCatch flush fun _ => pure () : Action PUnit) s = .ok ⟨⟩ s := by
    rcases h with h | h
    · have hopen : openWriter s = .ok ⟨inode, []⟩ s := by
        rw [openWriter, get_bind, h]
        rfl
      refine tryCatch_of_ok ?_
      rw [flush, bind_of_ok hopen]
      rfl
    · have hopen : openWriter s = .error (.persistence .journalClosed) s := by
        rw [openWriter, get_bind, h]
        rfl
      have hfail : flush s = .error (.persistence .journalClosed) s := by
        rw [flush, bind_of_error hopen]
      rw [tryCatch_of_error hfail]
      rfl
  rw [close, bind_of_ok hflush]
  rfl

/-- A header behind nothing, or a first part of it. -/
theorem writeHeader_yields {device : Device} {d₀ : Disk} (hup : r.Up device)
    (h : Disk.Filled place inode d₀ [] device.disk) :
    Yields (fun _ d => r.Up d ∧ Disk.Filled place inode d₀ header d.disk)
      (fun d => r.Down d ∧ ∃ torn, torn <+: header ∧ Disk.Filled place inode d₀ torn d.disk)
      (writeHeader inode device) := by
  refine Yields.bind ((Device.write_yields hup inode magic).imp (fun _ d hd => hd) fun d hd => ?_)
    fun _ d hd => ?_
  · obtain ⟨hdown, n, hdisk⟩ := hd
    refine ⟨hdown, magic.take n, (List.take_prefix n magic).trans (List.prefix_append _ _), ?_⟩
    rw [hdisk]
    exact h.append _
  have hmagic : Disk.Filled place inode d₀ magic d.disk := hd.2 ▸ h.append magic
  refine Yields.bind ((Device.write_yields hd.1 inode [version]).imp (fun _ d' hd' => hd')
    fun d' hd' => ?_) fun _ d' hd' => ?_
  · obtain ⟨hdown, n, hdisk⟩ := hd'
    refine ⟨hdown, magic ++ [version].take n,
      (List.prefix_append_right_inj magic).2 (List.take_prefix n _), ?_⟩
    rw [hdisk]
    exact hmagic.append _
  have hwhole : Disk.Filled place inode d₀ header d'.disk := hd'.2 ▸ hmagic.append [version]
  refine (Device.sync_yields hd'.1 inode).imp (fun _ d'' hd'' => ?_) fun d'' hd'' => ?_
  · exact ⟨hd''.1, hd''.2 ▸ hwhole⟩
  · exact ⟨hd''.1, header, List.prefix_refl _, hd''.2 ▸ hwhole⟩

/-- An emptied journal is a header; on the way there it is what it was when it was closed, or a first
part of a header. -/
theorem clear_yields {closed : Hosted Journal} (hclose : close s = .ok ⟨⟩ closed)
    (hup : r.Up closed.device) (h : Stands place inode start contents none closed)
    (hleads : ∀ {d}, Disk.Touched (· = place) start.device.disk d → d.Leads start.value.path place) :
    Yields (fun _ s' => r.Up s'.device ∧ s'.value.nextSeq = 1 ∧
        Written place inode start header [] s')
      (fun s' => r.Down s'.device ∧ ∃ now, (now = contents ∨ now <+: header) ∧
        Stands place inode start now none s') (clear s) := by
  rw [clear, bind_of_ok hclose, get_bind]
  have hrewrite : Yields
      (fun i d => i = inode ∧ r.Up d ∧ Disk.Filled place inode start.device.disk header d.disk)
      (fun d => r.Down d ∧ ∃ now, (now = contents ∨ now <+: header) ∧
        Disk.Filled place inode start.device.disk now d.disk)
      ((do writeHeader (← Device.truncate closed.value.path); Device.openEnd closed.value.path)
        closed.device) := by
    rw [h.path_eq]
    refine Yields.bind ((Device.truncate_yields hup (hleads h.file.touched) h.file.entry).imp
      (fun _ d hd => hd) fun d hd => ⟨hd.1, contents, Or.inl rfl, hd.2 ▸ h.file⟩) fun i d hd => ?_
    obtain ⟨hup', rfl, hdisk⟩ := hd
    have hempty : Disk.Filled place i start.device.disk [] d.disk := hdisk ▸ h.file.setContents []
    refine Yields.bind ((writeHeader_yields hup' hempty).imp (fun _ d' hd' => hd') fun d' hd' => ?_)
      fun _ d' hd' => ?_
    · obtain ⟨hdown, torn, hpart, hfile⟩ := hd'
      exact ⟨hdown, torn, Or.inr hpart, hfile⟩
    refine (Device.openEnd_yields hd'.1 (hleads hd'.2.touched) hd'.2.entry).imp
      (fun j d'' hd'' => ?_) fun d'' hd'' => ?_
    · exact ⟨hd''.2.1, hd''.1, hd''.2.2 ▸ hd'.2⟩
    · exact ⟨hd''.1, header, Or.inr (List.prefix_refl _), hd''.2 ▸ hd'.2⟩
  refine Yields.bind ((Hosted.onDevice_yields hrewrite).imp (fun _ s' hs' => hs') fun s' hs' => ?_)
    fun i s' hs' => ?_
  · obtain ⟨⟨hdown, now, hnow, hfile⟩, hvalue⟩ := hs'
    exact ⟨hdown, now, hnow, hfile, hvalue ▸ h.path_eq, hvalue ▸ h.writer_eq⟩
  · obtain ⟨⟨rfl, hup', hfile⟩, hvalue⟩ := hs'
    have hpath : s'.value.path = closed.value.path := by rw [hvalue]
    exact ⟨hup', rfl, hfile, hpath.trans h.path_eq, rfl⟩

/-- Opening a file reads it from its beginning. -/
theorem openAt_of_file {device : Device} {path : Path} (h : device.disk.Leads path place)
    (he : device.disk.occupant? place = some (.file inode)) :
    openAt path device =
      (match body (device.disk.contentsOf inode) with
      | .ok rest => Device.openEnd path >>= fun i =>
          pure ⟨path, seqAfter (JournalEntry.scan rest), some ⟨i, []⟩⟩
      | .error e => throw e : Device.Action Journal) device := by
  have hread : Device.query (·.read path) device = .ok (device.disk.contentsOf inode) device := by
    rw [Device.query_eq, h.read_of_file he]
  have hhas : device.disk.has path = true := by
    rw [h.has, he]
    rfl
  rw [openAt, get_bind, if_pos hhas, bind_of_ok hread]
  cases body (device.disk.contentsOf inode) <;> rfl

/-- A journal with a whole header opens behind its end. -/
theorem openAt_yields {device : Device} {path : Path} {rest : Bytes} (hup : r.Up device)
    (h : device.disk.Leads path place) (he : device.disk.occupant? place = some (.file inode))
    (hcontents : device.disk.contentsOf inode = header ++ rest) :
    Yields (fun j d => r.Up d ∧ d.disk = device.disk ∧
        j = ⟨path, seqAfter (JournalEntry.scan rest), some ⟨inode, []⟩⟩)
      (fun d => r.Down d ∧ d.disk = device.disk) (openAt path device) := by
  rw [openAt_of_file h he, hcontents, body_header]
  refine Yields.bind (Device.openEnd_yields hup h he) fun i d hd => ?_
  exact ⟨hd.1, hd.2.2, by rw [hd.2.1]⟩

/-- Where there is no journal one is made. -/
theorem openAt_new_yields {device : Device} {path : Path} (hup : r.Up device)
    (hd : device.disk.Sound) (hnone : device.disk.occupant? place = none)
    (hleads : ∀ {d}, Disk.Touched (· = place) device.disk d → d.Leads path place) :
    Yields (fun j d => r.Up d ∧ ∃ inode, Disk.Filled place inode device.disk header d.disk ∧
        j = ⟨path, 1, some ⟨inode, []⟩⟩)
      (fun d => r.Down d) (openAt path device) := by
  have hhas : ¬device.disk.has path = true := by
    rw [(hleads (.refl hd)).has, hnone]
    exact Bool.false_ne_true
  have hfolder : device.disk.occupant? place ≠ some .folder := by
    rw [hnone]
    exact fun h => by cases h
  rw [openAt, get_bind, if_neg hhas]
  refine Yields.bind ((Device.create_yields hup (hleads (.refl hd)) hd hfolder).imp
    (fun _ d h₁ => h₁) fun d h₁ => h₁.1) fun inode d₁ h₁ => ?_
  obtain ⟨hup₁, htouched, hentry, hempty⟩ := h₁
  refine Yields.bind ((writeHeader_yields hup₁ ⟨htouched, hentry, hempty⟩).imp
    (fun _ d h₂ => h₂) fun d h₂ => h₂.1) fun _ d₂ h₂ => ?_
  obtain ⟨hup₂, hfile⟩ := h₂
  have hone : (pure 1 : Device.Action Nat) d₂ = .ok 1 d₂ := rfl
  rw [bind_of_ok hone]
  refine Yields.bind ((Device.openEnd_yields hup₂ (hleads hfile.touched) hfile.entry).imp
    (fun _ d h₃ => h₃) fun d h₃ => h₃.1) fun i d₃ h₃ => ?_
  obtain ⟨hup₃, rfl, hdisk⟩ := h₃
  exact ⟨hup₃, i, hdisk ▸ hfile, rfl⟩

/-- A journal without a whole header does not open. -/
theorem openAt_of_short {device : Device} {path : Path} (h : device.disk.Leads path place)
    (he : device.disk.occupant? place = some (.file inode))
    (hpart : device.disk.contentsOf inode <+: header)
    (hlt : (device.disk.contentsOf inode).length < headerLength) :
    openAt path device = .error (.io .unexpectedEnd) device := by
  rw [openAt_of_file h he, body_of_prefix hpart hlt]
  rfl

/-! ## What writing keeps -/

/-- A relation that is kept by the small steps of which all writing is made. -/
structure KeptByWriting (R : Hosted Journal → Hosted Journal → Prop) : Prop where
  buffer : ∀ rest, Tracks R (setBuffered rest)
  /-- Octets only go to the open file. -/
  write : ∀ {s w} bytes, s.value.writer = some w →
    R s (stateAfter (Hosted.onDevice (Device.write w.inode bytes)) s)
  sync : ∀ inode, Tracks R (Hosted.onDevice (Device.sync inode))

namespace KeptByWriting

variable {R : Hosted Journal → Hosted Journal → Prop} [IsPreorder (Hosted Journal) R]

/-- Opening the writer keeps what writing keeps. -/
theorem openWriter_tracks : Tracks R openWriter := by
  refine Tracks.bind Tracks.get fun s => ?_
  split
  · exact Tracks.pure _
  · exact Tracks.throw _

/-- What is done with the writer is done with the one that the journal has. -/
theorem bind_openWriter_tracks {α : Type} {f : Writer → Action α}
    (hf : ∀ w s, s.value.writer = some w → R s (stateAfter (f w) s)) :
    Tracks R (openWriter >>= f) := by
  refine fun s => Tracks.bindAt (openWriter_tracks s) fun w mid hopen => ?_
  rw [openWriter, get_bind] at hopen
  cases hw : s.value.writer with
  | none => rw [hw] at hopen; cases hopen
  | some w' =>
    rw [hw] at hopen
    cases hopen
    exact hf w s hw

/-- Flushing keeps what writing keeps. -/
theorem flush_tracks (h : KeptByWriting R) : Tracks R flush := by
  refine bind_openWriter_tracks fun w s hw => ?_
  split
  · exact Tracks.pure _ s
  · rw [stateAfter, get_bind]
    refine Tracks.tryCatchAt ?_ fun e mid _ => ?_
    · exact Tracks.bindAt (h.write _ hw) fun _ mid _ => h.buffer _ mid
    · exact Tracks.bind Tracks.get (fun s' => Tracks.bind (h.buffer _) fun _ => Tracks.throw _) mid

/-- Putting a piece keeps what writing keeps. -/
theorem put_tracks (h : KeptByWriting R) (piece : Bytes) : Tracks R (put piece) := by
  have hlast : Tracks R (openWriter >>= fun w => if capacity ≤ piece.length
      then Hosted.onDevice (Device.write w.inode piece)
      else setBuffered (w.buffered ++ piece)) := by
    refine bind_openWriter_tracks fun w s hw => ?_
    split
    · exact h.write _ hw
    · exact h.buffer _ s
  refine Tracks.bind openWriter_tracks fun w => ?_
  by_cases hfull : capacity < w.buffered.length + piece.length
  · rw [if_pos hfull]
    exact Tracks.bind h.flush_tracks fun _ => hlast
  · rw [if_neg hfull]
    exact hlast

/-- Appending an entry keeps what writing keeps. -/
theorem append_tracks (h : KeptByWriting R) (e : JournalEntry) : Tracks R (append e) :=
  Tracks.bind openWriter_tracks fun w =>
    Tracks.bind (Tracks.forM fun piece _ => h.put_tracks piece) fun _ =>
      Tracks.bind h.flush_tracks fun _ => h.sync w.inode

/-- Marking a batch keeps what writing keeps. -/
theorem mark_tracks (h : KeptByWriting R) (seq : Nat) (status : JournalStatus) :
    Tracks R (mark seq status) :=
  Tracks.bind Tracks.get fun _ => h.append_tracks _

end KeptByWriting

/-- Without power the files stay as they are. -/
theorem keptByWriting_frozen (c : Crash) :
    KeptByWriting fun s s' => Device.Frozen c s.device s'.device where
  buffer _ := Tracks.modify fun s => refl_of (Device.Frozen c) s.device
  write _ _ := Hosted.onDevice_tracks (Device.write_frozen c _ _) _
  sync _ := Hosted.onDevice_tracks (Device.perform_untouched_frozen c)

/-- The number of the next batch is the same. -/
def SameNumber (s s' : Hosted Journal) : Prop :=
  s'.value.nextSeq = s.value.nextSeq

instance : IsPreorder (Hosted Journal) SameNumber where
  refl _ := rfl
  trans _ _ _ h h' := Eq.trans h' h

/-- A step on the device takes no number. -/
theorem onDevice_sameNumber {α : Type} (step : Device.Action α) :
    Tracks SameNumber (Hosted.onDevice step) := by
  intro s
  unfold stateAfter Hosted.onDevice
  cases step s.device <;> rfl

/-- Only `log` and `clear` number anew. -/
theorem keptByWriting_sameNumber : KeptByWriting SameNumber where
  buffer _ := Tracks.modify fun _ => rfl
  write _ _ := onDevice_sameNumber _ _
  sync _ := onDevice_sameNumber _

end ContentTree.Journal
