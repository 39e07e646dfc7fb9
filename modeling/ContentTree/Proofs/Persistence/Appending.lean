import ContentTree.Proofs.Persistence.Journal

/-!
# Journals in use

The file of a journal holds whole entries as long as every call goes well, and then the journal tells
exactly which batches these calls left pending (`Since.pendingEntries_eq`). A journal opens wherever its
file was cut off behind the header, and tells what was complete and pending there (`openAt_of_cut`).
The rest of a torn entry stays in the file, though. What is logged behind it is not found
(`log_behind_torn`) until the journal is emptied.
-/

namespace ContentTree

namespace JournalEntry

/-- The entries that stand to their ends in the first octets of what was written. -/
def wholeWithin : Nat → List JournalEntry → List JournalEntry
  | _, [] => []
  | n, e :: es => if e.write.length ≤ n then e :: wholeWithin (n - e.write.length) es else []

/-- Of entries that are cut off anywhere a scan finds those that are whole. -/
theorem scan_take {es : List JournalEntry} (h : ∀ e ∈ es, e.Readable) (n : Nat) :
    scan ((es.flatMap write).take n) = wholeWithin n es := by
  induction es generalizing n with
  | nil => rw [List.flatMap_nil, List.take_nil, scan_nil, wholeWithin]
  | cons e es ih =>
    have he : e.Readable := h e (List.mem_cons_self ..)
    rw [List.flatMap_cons, wholeWithin]
    by_cases hfits : e.write.length ≤ n
    · rw [if_pos hfits, List.take_append, List.take_of_length_le hfits, scan_of_ok (read_write he _),
        ih fun e' he' => h e' (List.mem_cons_of_mem e he')]
    · rw [if_neg hfits, List.take_append_of_le_length (by omega)]
      refine scan_torn he (List.take_prefix n _) fun hwhole => ?_
      have hlen := congrArg List.length hwhole
      rw [List.length_take] at hlen
      omega

/-- The entries that end within a prefix of the file come first. -/
theorem wholeWithin_prefix (n : Nat) (es : List JournalEntry) : wholeWithin n es <+: es := by
  induction es generalizing n with
  | nil => exact List.nil_prefix
  | cons e es ih =>
    rw [wholeWithin]
    split
    · exact (List.prefix_cons_inj e).2 (ih _)
    · exact List.nil_prefix

end JournalEntry

namespace Journal

open JournalEntry (Numbered Readable Unresolved wholeWithin)

variable {place : Location} {inode : Nat} {start s s' : Hosted Journal}
  {es found standing : List JournalEntry} {batch : ChangeSet} {seq : Nat}

/-- The number of an entry is below the next one. -/
theorem lt_seqAfter {e : JournalEntry} (h : e ∈ es) : e.seq < seqAfter es := by
  have hmax : ∀ (l : List JournalEntry) (n : Nat), n ≤ l.foldl (fun n e => max n e.seq) n ∧
      ∀ e ∈ l, e.seq ≤ l.foldl (fun n e => max n e.seq) n := by
    intro l
    induction l with
    | nil => simp
    | cons e l ih =>
      intro n
      obtain ⟨hle, hall⟩ := ih (max n e.seq)
      rw [List.foldl_cons]
      refine ⟨by omega, fun e' he' => ?_⟩
      rcases List.mem_cons.1 he' with rfl | he'
      · omega
      · exact hall e' he'
  have hle := (hmax es 0).2 e h
  rw [seqAfter]
  omega

/-! ## Whole entries -/

/-- An open journal in whose file whole entries stand, and for which nothing waits. -/
structure Whole (place : Location) (inode : Nat) (start : Hosted Journal) (es : List JournalEntry)
    (s : Hosted Journal) : Prop where
  written : Written place inode start (header ++ es.flatMap JournalEntry.write) [] s
  readable : ∀ e ∈ es, e.Readable
  numbered : Numbered es
  seq_lt : ∀ e ∈ es, e.seq < s.value.nextSeq

/-- Another entry in the file, read or announced under a number that is taken. -/
theorem Whole.concat {e : JournalEntry} (h : Whole place inode start es s) (he : e.Readable)
    (hnum : Numbered (es ++ [e])) (hle : s.value.nextSeq ≤ s'.value.nextSeq)
    (hseq : e.seq < s'.value.nextSeq) (hw : Written place inode start
      (header ++ es.flatMap JournalEntry.write ++ [] ++ e.write) [] s') :
    Whole place inode start (es ++ [e]) s' where
  written := by
    rw [List.flatMap_append, List.flatMap_singleton, ← List.append_assoc]
    rw [List.append_nil] at hw
    exact hw
  readable e' he' := by
    rcases List.mem_append.1 he' with hold | hlast
    · exact h.readable e' hold
    · exact List.mem_singleton.1 hlast ▸ he
  numbered := hnum
  seq_lt e' he' := by
    rcases List.mem_append.1 he' with hold | hlast
    · have hlt := h.seq_lt e' hold
      omega
    · exact List.mem_singleton.1 hlast ▸ hseq

/-- The number of a batch is used up, whether the batch can be announced or not. -/
theorem nextSeq_stateAfter_log (batch : ChangeSet) (s : Hosted Journal) :
    (stateAfter (log batch) s).value.nextSeq = s.value.nextSeq + 1 := by
  have hsame : SameNumber (advanced s) (stateAfter (log batch) s) := by
    rw [stateAfter, log_eq]
    exact Tracks.bind (keptByWriting_sameNumber.append_tracks _) (fun _ => Tracks.pure _) (advanced s)
  exact hsame

/-- Logging a batch takes one number. -/
theorem nextSeq_of_log (h : log batch s = .ok seq s') : s'.value.nextSeq = s.value.nextSeq + 1 :=
  stateAfter_of_ok h ▸ nextSeq_stateAfter_log batch s

/-- A batch that is logged stands behind all others, under the next number. -/
theorem Whole.log (h : Whole place inode start es s)
    (hread : Readable ⟨seq, .pending, some batch, s.device.time⟩) (hlog : log batch s = .ok seq s') :
    Whole place inode start (es ++ [⟨seq, .pending, some batch, s.device.time⟩]) s' ∧
      JournalEntry.pending (es ++ [⟨seq, .pending, some batch, s.device.time⟩]) =
        JournalEntry.pending es ++ [⟨seq, .pending, some batch, s.device.time⟩] := by
  have hyields := log_yields batch .of_free h.written
  rw [hlog] at hyields
  obtain ⟨rfl, -, hw⟩ := hyields
  have hnext := nextSeq_of_log hlog
  refine ⟨h.concat hread (h.numbered.concat rfl h.seq_lt) (by omega) ?_ hw,
    JournalEntry.pending_concat rfl h.seq_lt⟩
  show s.value.nextSeq < _
  omega

/-- A mark takes its batch out. -/
theorem Whole.mark {status : JournalStatus} (h : Whole place inode start es s)
    (hstatus : status ≠ .pending) (hseq : seq < s.value.nextSeq) (hmax : seq ≤ maxUInt64)
    (htime : s.device.time ≤ maxUInt64) (hmark : mark seq status s = .ok ⟨⟩ s') :
    Whole place inode start (es ++ [⟨seq, status, none, s.device.time⟩]) s' ∧
      JournalEntry.pending (es ++ [⟨seq, status, none, s.device.time⟩]) =
        (JournalEntry.pending es).filter (·.seq ≠ seq) := by
  have hyields := mark_yields seq status .of_free h.written
  have hnext := keptByWriting_sameNumber.mark_tracks seq status s
  rw [stateAfter_of_ok hmark] at hnext
  rw [hmark] at hyields
  refine ⟨h.concat (JournalEntry.readable_mark status hmax htime) (h.numbered.concat_mark hstatus)
    (Nat.le_of_eq hnext.symm) ?_ hyields.2, JournalEntry.pending_concat_mark es hstatus⟩
  show seq < _
  rw [hnext]
  exact hseq

section Placed

variable (hleads : ∀ {d}, Disk.Touched (· = place) start.device.disk d → d.Leads start.value.path place)

include hleads

/-- The pending entries of a journal without a torn tail are those of its entries. -/
theorem Whole.pendingEntries_eq (h : Whole place inode start es s) :
    pendingEntries s = .ok (JournalEntry.pending es) s := by
  have hlead := hleads h.written.file.touched
  rw [← h.written.path_eq] at hlead
  rw [Journal.pendingEntries_eq hlead h.written.file.entry, h.written.file.contents_eq,
    pendingIn_header_append, JournalEntry.scan_flatMap h.readable]

/-- Emptying takes a torn entry away as well. -/
theorem whole_of_clear {contents : Bytes} (hw : Written place inode start contents [] s)
    (hclear : clear s = .ok ⟨⟩ s') : Whole place inode start [] s' := by
  have hstands : Stands place inode start contents none
      { s with value := { s.value with writer := none } } :=
    ⟨hw.file, hw.path_eq, rfl⟩
  have hyields := clear_yields (close_eq (Or.inl hw.writer_eq)) .of_free hstands hleads
  rw [hclear] at hyields
  obtain ⟨-, -, hempty⟩ := hyields
  refine ⟨?_, fun e he => ?_, JournalEntry.numbered_nil, fun e he => ?_⟩
  · rw [List.flatMap_nil, List.append_nil]
    exact hempty
  · cases he
  · cases he

/-- A journal that was closed opens behind what stands in its file. -/
theorem written_of_reopened {rest : Bytes} {closed : Hosted Journal} {journal : Journal} {device : Device}
    (hw : Written place inode start (header ++ rest) [] s) (hclose : close s = .ok ⟨⟩ closed)
    (hopen : openAt closed.value.path closed.device = .ok journal device) :
    Written place inode start (header ++ rest) [] ⟨device, journal⟩ ∧
      journal.nextSeq = seqAfter (JournalEntry.scan rest) := by
  have hclosed := close_eq (Or.inl hw.writer_eq)
  rw [hclose] at hclosed
  cases hclosed
  have hlead := hleads hw.file.touched
  rw [← hw.path_eq] at hlead
  have hyields := openAt_yields .of_free hlead hw.file.entry hw.file.contents_eq
  rw [hopen] at hyields
  obtain ⟨-, hdisk, rfl⟩ := hyields
  exact ⟨⟨hdisk ▸ hw.file, hw.path_eq, rfl⟩, rfl⟩

/-- It has the entries that it had. -/
theorem Whole.reopened {closed : Hosted Journal} {journal : Journal} {device : Device}
    (h : Whole place inode start es s) (hclose : close s = .ok ⟨⟩ closed)
    (hopen : openAt closed.value.path closed.device = .ok journal device) :
    Whole place inode start es ⟨device, journal⟩ := by
  obtain ⟨hw, hnext⟩ := written_of_reopened hleads h.written hclose hopen
  rw [JournalEntry.scan_flatMap h.readable] at hnext
  exact ⟨hw, h.readable, h.numbered, fun e he => hnext ▸ lt_seqAfter he⟩

end Placed

/-! ## Calls that go well -/

/-- The states of a journal after calls that went well, with what these calls leave pending. -/
inductive Since (start : Hosted Journal) (found : List JournalEntry) :
    List JournalEntry → Hosted Journal → Prop
  /-- Nothing was done yet. -/
  | opened : Since start found found start
  /-- A batch was announced. -/
  | logged {s s' : Hosted Journal} {standing : List JournalEntry} {batch : ChangeSet} {seq : Nat} :
    Since start found standing s → Readable ⟨seq, .pending, some batch, s.device.time⟩ →
    log batch s = .ok seq s' →
    Since start found (standing ++ [⟨seq, .pending, some batch, s.device.time⟩]) s'
  /-- A batch that was announced is in place or was undone. -/
  | marked {s s' : Hosted Journal} {standing : List JournalEntry} {seq : Nat}
    {status : JournalStatus} :
    Since start found standing s → status ≠ .pending → seq < s.value.nextSeq → seq ≤ maxUInt64 →
    s.device.time ≤ maxUInt64 → mark seq status s = .ok ⟨⟩ s' →
    Since start found (standing.filter (·.seq ≠ seq)) s'
  /-- The journal was emptied. -/
  | cleared {s s' : Hosted Journal} {standing : List JournalEntry} :
    Since start found standing s → clear s = .ok ⟨⟩ s' → Since start found [] s'
  /-- The journal was closed and opened again. -/
  | reopened {s closed : Hosted Journal} {standing : List JournalEntry} {journal : Journal}
    {device : Device} :
    Since start found standing s → close s = .ok ⟨⟩ closed →
    openAt closed.value.path closed.device = .ok journal device →
    Since start found standing ⟨device, journal⟩
  /-- Time went by, and the plan of what fails changed. -/
  | later {s : Hosted Journal} {standing : List JournalEntry} (time clock : Nat) (plan : FaultPlan) :
    Since start found standing s →
    Since start found standing ⟨{ s.device with time, clock, plan }, s.value⟩

/-- Whole entries stand in the file after every run that began with them, and what is pending among
them is what the calls left pending. -/
theorem Since.whole {first : Hosted Journal} {es₀ : List JournalEntry}
    (hleads : ∀ {d}, Disk.Touched (· = place) start.device.disk d → d.Leads start.value.path place)
    (h : Since first found standing s) (h₀ : Whole place inode start es₀ first)
    (hfound : JournalEntry.pending es₀ = found) :
    ∃ es, Whole place inode start es s ∧ JournalEntry.pending es = standing := by
  induction h with
  | opened => exact ⟨es₀, h₀, hfound⟩
  | logged _ hread hlog ih =>
    obtain ⟨es, hs, hpending⟩ := ih
    obtain ⟨hs', hmore⟩ := hs.log hread hlog
    exact ⟨_, hs', by rw [hmore, hpending]⟩
  | marked _ hstatus hseq hmax htime hmark ih =>
    obtain ⟨es, hs, hpending⟩ := ih
    obtain ⟨hs', hless⟩ := hs.mark hstatus hseq hmax htime hmark
    exact ⟨_, hs', by rw [hless, hpending]⟩
  | cleared _ hclear ih =>
    obtain ⟨es, hs, -⟩ := ih
    exact ⟨[], whole_of_clear hleads hs.written hclear, JournalEntry.pending_nil⟩
  | reopened _ hclose hopen ih =>
    obtain ⟨es, hs, hpending⟩ := ih
    exact ⟨es, hs.reopened hleads hclose hopen, hpending⟩
  | later time clock plan _ ih =>
    obtain ⟨es, hs, hpending⟩ := ih
    exact ⟨es, ⟨hs.written.of_eq rfl rfl, hs.readable, hs.numbered, hs.seq_lt⟩, hpending⟩

/-! ## Torn journals -/

/-- A journal with a whole header opens if the plan lets the file be opened. -/
theorem openAt_of_spared {device : Device} {path : Path} {rest : Bytes}
    (h : device.disk.Leads path place) (he : device.disk.occupant? place = some (.file inode))
    (hcontents : device.disk.contentsOf inode = header ++ rest)
    (hplan : device.plan device.clock (.openEnd path) = none) :
    openAt path device = .ok ⟨path, seqAfter (JournalEntry.scan rest), some ⟨inode, []⟩⟩
      { device with clock := device.clock + 1 } := by
  have hend : Device.openEnd path device = .ok inode { device with clock := device.clock + 1 } := by
    rw [Device.openEnd, Device.perform_eq, hplan, h.file_of_file he]
    rfl
  rw [openAt_of_file h he, hcontents, body_header]
  exact bind_of_ok hend

/-- Wherever a journal was cut off behind its header, it opens and tells what was complete and pending
there. If it was cut off between two entries, every batch that is logged then is told until it is
marked or the journal is emptied. Otherwise that holds from when the journal was emptied. -/
theorem openAt_of_cut {device : Device} {above : Path} {base : Location} {name : String} {n : Nat}
    (hsound : device.disk.Sound) (habove : device.disk.Anchored above base)
    (hname : Path.Plain name) (hcheck : (above ++ [name]).check = .ok ())
    (hfile : device.disk.occupant? (name :: base) = some (.file inode))
    (hreadable : ∀ e ∈ es, e.Readable) (hnumbered : Numbered es) (hn : headerLength ≤ n)
    (hcontents : device.disk.contentsOf inode =
      (header ++ es.flatMap JournalEntry.write).take n)
    (hplan : device.plan device.clock (.openEnd (above ++ [name])) = none) :
    ∃ (start : Hosted Journal) (found : List JournalEntry),
      openAt (above ++ [name]) device = .ok start.value start.device ∧
      pendingEntries start = .ok found start ∧
      (∀ e, e ∈ found ↔ Unresolved (wholeWithin (n - headerLength) es) e) ∧
      (device.disk.contentsOf inode =
          header ++ (wholeWithin (n - headerLength) es).flatMap JournalEntry.write →
        ∀ standing s, Since start found standing s → pendingEntries s = .ok standing s) ∧
      ∀ emptied, clear start = .ok ⟨⟩ emptied →
        ∀ standing s, Since emptied [] standing s → pendingEntries s = .ok standing s := by
  have hrest : device.disk.contentsOf inode =
      header ++ (es.flatMap JournalEntry.write).take (n - headerLength) := by
    rw [hcontents, List.take_append, List.take_of_length_le hn, length_header]
  have hscan := JournalEntry.scan_take hreadable (n - headerLength)
  have hwhole := JournalEntry.wholeWithin_prefix (n - headerLength) es
  have hkept : Numbered (wholeWithin (n - headerLength) es) := by
    rw [List.prefix_iff_eq_take.1 hwhole]
    exact hnumbered.take _
  have hleads : ∀ {d}, Disk.Touched (· = name :: base) device.disk d →
      d.Leads (above ++ [name]) (name :: base) :=
    fun ht => (habove.kept ht.folder).leads_name hname hcheck
  have hlead := habove.leads_name hname hcheck
  let start : Hosted Journal := ⟨{ device with clock := device.clock + 1 },
    ⟨above ++ [name], seqAfter (wholeWithin (n - headerLength) es), some ⟨inode, []⟩⟩⟩
  have hopen : openAt (above ++ [name]) device = .ok start.value start.device := by
    rw [openAt_of_spared hlead hfile hrest hplan, hscan]
  have hwritten : Written (name :: base) inode start (device.disk.contentsOf inode) [] start :=
    ⟨.refl hsound hfile, rfl, rfl⟩
  refine ⟨start, JournalEntry.pending (wholeWithin (n - headerLength) es), hopen, ?_,
    fun e => JournalEntry.mem_pending hkept, fun hends standing s hs => ?_,
    fun emptied hclear standing s hs => ?_⟩
  · have hpending := Journal.pendingEntries_eq (s := start) hlead hfile
    rw [show start.device.disk.contentsOf inode = _ from hrest, pendingIn_header_append, hscan]
      at hpending
    exact hpending
  · -- nothing is torn, so the run began with whole entries
    have hfirst : Whole (name :: base) inode start (wholeWithin (n - headerLength) es) start :=
      ⟨hends ▸ hwritten, fun e he => hreadable e (hwhole.subset he), hkept, fun e => lt_seqAfter⟩
    obtain ⟨es', hs', rfl⟩ := hs.whole hleads hfirst rfl
    exact hs'.pendingEntries_eq hleads
  · have hfirst : Whole (name :: base) inode start [] emptied :=
      whole_of_clear hleads hwritten hclear
    obtain ⟨es', hs', rfl⟩ := hs.whole hleads hfirst JournalEntry.pending_nil
    exact hs'.pendingEntries_eq hleads

/-! ## A journal that was cut off -/

/-- A device with nothing but a journal that has these octets behind its header. -/
def deviceWith (rest : Bytes) : Device :=
  .reliable ⟨OrderedMap.empty.insert ["journal"] (.file 0),
    OrderedMap.empty.insert 0 (header ++ rest), 1⟩ 0

/-- The only thing on the example's device is the journal. -/
theorem occupant?_deviceWith (rest : Bytes) {p : Location} (hp : p ≠ []) :
    (deviceWith rest).disk.occupant? p = if p = ["journal"] then some (.file 0) else none := by
  unfold deviceWith Device.reliable Disk.occupant?
  rw [if_neg hp, OrderedMap.get?_insert]
  rfl

/-- A file on the example's device is the journal. -/
theorem eq_of_occupant?_deviceWith {rest : Bytes} {p : Location} {i : Nat}
    (h : (deviceWith rest).disk.occupant? p = some (.file i)) : p = ["journal"] ∧ i = 0 := by
  by_cases hp : p = []
  · rw [hp] at h
    cases h
  · rw [occupant?_deviceWith rest hp] at h
    split at h
    · next heq =>
      cases h
      exact ⟨heq, rfl⟩
    · cases h

/-- The tree of the example is sound. -/
theorem sound_deviceWith (rest : Bytes) : (deviceWith rest).disk.Sound where
  enclosed {name above} h := by
    rw [occupant?_deviceWith rest (List.cons_ne_nil name above)] at h
    split at h
    · next heq =>
      rw [(List.cons.inj heq).2]
      rfl
    · cases h
  inode_lt h := by
    rw [(eq_of_occupant?_deviceWith h).2]
    exact Nat.zero_lt_one
  unshared hp hq := (eq_of_occupant?_deviceWith hp).1.trans (eq_of_occupant?_deviceWith hq).1.symm

/-- The example's device is anchored at its own root. -/
theorem anchored_deviceWith (rest : Bytes) : (deviceWith rest).disk.Anchored [] [] := ⟨rfl, rfl⟩

/-- The name of the journal is a plain one. -/
theorem plain_journal : Path.Plain "journal" := ⟨by decide, by decide, by decide, by decide⟩

/-- The path of the example leads to the journal. -/
theorem leads_deviceWith (rest : Bytes) :
    (deviceWith rest).disk.Leads ["journal"] ["journal"] :=
  (anchored_deviceWith rest).leads_name plain_journal (by decide +kernel)

/-- The journal of that device when it was opened. -/
def openedWith (rest : Bytes) : Hosted Journal :=
  ⟨{ deviceWith rest with clock := 1 },
    ⟨["journal"], seqAfter (JournalEntry.scan rest), some ⟨0, []⟩⟩⟩

/-- What opening the example's journal answers. -/
theorem openAt_deviceWith (rest : Bytes) :
    openAt ["journal"] (deviceWith rest) = .ok (openedWith rest).value (openedWith rest).device :=
  openAt_of_spared (leads_deviceWith rest) rfl rfl rfl

/-- The example's device is up. -/
theorem up_openedWith (rest : Bytes) : (Regime.reliable [] 0).Up (openedWith rest).device :=
  ⟨rfl, rfl, rfl⟩

/-- The example's journal is written as far as its header and the given bytes. -/
theorem written_openedWith (rest : Bytes) :
    Written ["journal"] 0 (openedWith rest) (header ++ rest) [] (openedWith rest) :=
  ⟨.refl (sound_deviceWith rest) rfl, rfl, rfl⟩

/-- On that device every call goes well. -/
theorem exists_log_openedWith (rest : Bytes) (batch : ChangeSet) :
    ∃ s', log batch (openedWith rest) = .ok (seqAfter (JournalEntry.scan rest)) s' ∧
      Written ["journal"] 0 (openedWith rest) (header ++ rest ++ [] ++
        JournalEntry.write ⟨seqAfter (JournalEntry.scan rest), .pending, some batch, 0⟩) [] s' := by
  obtain ⟨seq, s', hlog, rfl, -, hw'⟩ :=
    (log_yields batch (up_openedWith rest) (written_openedWith rest)).exists_ok fun s' hs' =>
      Regime.not_down_of_reliable s'.device hs'.1
  exact ⟨s', hlog, hw'⟩

/-- What is pending on that device is what a scan of the octets behind the header finds. -/
theorem pendingEntries_openedWith {rest log : Bytes} {s' : Hosted Journal}
    (h : Written ["journal"] 0 (openedWith rest) (header ++ log) [] s') :
    pendingEntries s' = .ok (JournalEntry.pending (JournalEntry.scan log)) s' := by
  have hlead : s'.device.disk.Leads s'.value.path ["journal"] := by
    rw [h.path_eq]
    exact ((anchored_deviceWith rest).kept h.file.touched.folder).leads_name plain_journal
      (by decide +kernel)
  rw [pendingEntries_eq hlead h.file.entry, h.file.contents_eq, pendingIn_header_append]

/-- Two batches that were announced. -/
def announcedTwice : List JournalEntry :=
  [⟨1, .pending, some ∅, 0⟩, ⟨2, .pending, some ∅, 0⟩]

/-- What is left of these announcements when they are cut off. -/
def twiceCut (n : Nat) : Bytes :=
  (announcedTwice.flatMap JournalEntry.write).take n

/-- The two announcements of one batch can be read back. -/
theorem readable_announcedTwice : ∀ e ∈ announcedTwice, e.Readable := by
  intro e he
  simp only [announcedTwice, List.mem_cons, List.not_mem_nil, or_false] at he
  rcases he with rfl | rfl
  · exact JournalEntry.readable_announcement_empty (by decide) (by decide)
  · exact JournalEntry.readable_announcement_empty (by decide) (by decide)

/-- Cut off behind its first entry, the journal tells that batch and the one that is logged next. -/
theorem openAt_of_cut_between : ∃ found s',
    openAt ["journal"] (deviceWith (twiceCut 24)) =
      .ok (openedWith (twiceCut 24)).value (openedWith (twiceCut 24)).device ∧
    (∀ e, e ∈ found ↔ Unresolved [⟨1, .pending, some ∅, 0⟩] e) ∧
    log ∅ (openedWith (twiceCut 24)) = .ok 2 s' ∧
    pendingEntries s' = .ok (found ++ [⟨2, .pending, some ∅, 0⟩]) s' := by
  have hcut : wholeWithin 24 announcedTwice = [⟨1, .pending, some ∅, 0⟩] := by decide +kernel
  have hscan : JournalEntry.scan (twiceCut 24) = [⟨1, .pending, some ∅, 0⟩] := by
    rw [twiceCut, JournalEntry.scan_take readable_announcedTwice, hcut]
  obtain ⟨start, found, hopen, -, hfound, hrun, -⟩ :=
    openAt_of_cut (sound_deviceWith (twiceCut 24)) (anchored_deviceWith _) plain_journal
      (by decide +kernel) rfl readable_announcedTwice (List.pairwise_pair.2 (by decide))
      (show headerLength ≤ headerLength + 24 by decide)
      (by rw [List.take_append]; rfl) rfl
  -- the journal that was opened is the one that is logged to
  obtain rfl : start = openedWith (twiceCut 24) := by
    have hsame := hopen.symm.trans (openAt_deviceWith (twiceCut 24))
    obtain ⟨device, value⟩ := start
    obtain ⟨rfl, rfl⟩ := EStateM.Result.ok.inj hsame
    rfl
  rw [Nat.add_sub_cancel_left, hcut] at hfound hrun
  obtain ⟨s', hlog, -⟩ := exists_log_openedWith (twiceCut 24) ∅
  rw [hscan] at hlog
  have hends : (deviceWith (twiceCut 24)).disk.contentsOf 0 =
      header ++ [⟨1, .pending, some ∅, 0⟩].flatMap JournalEntry.write := by decide +kernel
  have hsecond : Readable ⟨2, .pending, some ∅, 0⟩ :=
    readable_announcedTwice _ (List.mem_cons_of_mem _ (List.mem_singleton.2 rfl))
  exact ⟨found, s', openAt_deviceWith _, hfound, hlog, hrun hends _ s' (.logged .opened hsecond hlog)⟩

/-- Cut off inside its first entry, the journal does not tell the batch that is logged next. -/
theorem log_behind_torn : ∃ s',
    openAt ["journal"] (deviceWith (twiceCut 10)) =
      .ok (openedWith (twiceCut 10)).value (openedWith (twiceCut 10)).device ∧
    log ∅ (openedWith (twiceCut 10)) = .ok 1 s' ∧ pendingEntries s' = .ok [] s' := by
  have hscan : JournalEntry.scan (twiceCut 10) = [] := by
    rw [twiceCut, JournalEntry.scan_take readable_announcedTwice]
    decide +kernel
  obtain ⟨s', hlog, hw⟩ := exists_log_openedWith (twiceCut 10) ∅
  rw [hscan, show seqAfter [] = 1 from rfl] at hlog hw
  refine ⟨s', openAt_deviceWith _, hlog, ?_⟩
  have htorn : ∃ err, JournalEntry.read
      (twiceCut 10 ++ JournalEntry.write ⟨1, .pending, some ∅, 0⟩) = .error err := by
    have hfails : (JournalEntry.read
        (twiceCut 10 ++ JournalEntry.write ⟨1, .pending, some ∅, 0⟩)).isOk = false := by
      decide +kernel
    cases hread : JournalEntry.read
        (twiceCut 10 ++ JournalEntry.write ⟨1, .pending, some ∅, 0⟩) with
    | error err => exact ⟨err, rfl⟩
    | ok found =>
      rw [hread] at hfails
      cases hfails
  obtain ⟨err, herr⟩ := htorn
  rw [List.append_nil, List.append_assoc] at hw
  have hpending := pendingEntries_openedWith hw
  rwa [JournalEntry.scan_of_error herr, JournalEntry.pending_nil] at hpending

end Journal

end ContentTree
