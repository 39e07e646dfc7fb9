import ContentTree.Proofs.Digest.Crc32
import ContentTree.Proofs.Persistence.Limits
import ContentTree.Proofs.Persistence.Parsing
import ContentTree.Proofs.Persistence.Scanning

/-!
# One changed octet in a file

A record file and an entry of a journal have the checksum of their payload behind it, so one octet that is
changed in the payload or in the checksum is noticed. A record is refused for its checksum. A scan of a
journal stops before the entry that was changed, unless it stopped earlier, before an entry that is too
long (`damage_detected`). Such an entry may stand in a journal, and then what is behind it is not found
whether it is damaged or not (`Journal.log_overlong_damaged`).
-/

namespace ContentTree

open Bytes (Altered)

/-! ## Records -/

namespace Record

/-- Octets in front of a payload: kind, version and length. -/
def payloadStart : Nat := 4 + 1 + 8

variable {α : Type} [Portable α] {magic : Bytes} {a : α} {damaged : Bytes}

/-- An altered payload is told by its check sum. -/
theorem payload_altered (hmagic : magic.length = 4)
    (hlen : (Portable.toBytes a).length < 1 <<< (8 * 8))
    (h : Altered payloadStart (write magic a) damaged) (path : String) :
    ∃ stated computed, stated ≠ computed ∧
      payload magic path damaged = .error (.checksumMismatch stated computed) := by
  have hwrite : write magic a = header magic (Portable.toBytes a).length ++ (Portable.toBytes a ++
      Bytes.littleEndian 4 (Crc32.checksum (Portable.toBytes a)).toNat) := by
    simp [write, frame, header]
  have hstart : payloadStart = (header magic (Portable.toBytes a).length).length + 0 :=
    (length_header hmagic _).symm
  rw [hwrite, hstart] at h
  obtain ⟨body, rfl, hbody⟩ := h.exists_append
  obtain ⟨found, sum, rfl, hfound, hsum, hne⟩ := hbody.exists_checksum_ne
  rw [← hfound] at hlen ⊢
  have hparses : Parses magic path _ _ := .mismatch [] hlen hsum hne
  rw [List.append_nil] at hparses
  exact ⟨_, _, ofLittleEndian_ne hsum hne, hparses.payload_eq hmagic⟩

/-- A record file in which one octet of the payload or of the checksum was changed is refused. -/
theorem read_altered (hmagic : magic.length = 4)
    (hlen : (Portable.toBytes a).length < 1 <<< (8 * 8))
    (h : Altered payloadStart (write magic a) damaged) (path : String) :
    ∃ stated computed, stated ≠ computed ∧
      (read magic path damaged : Except Error α) = .error (.checksumMismatch stated computed) := by
  obtain ⟨stated, computed, hne, hpayload⟩ := payload_altered hmagic hlen h path
  exact ⟨stated, computed, hne, read_eq_error_iff.2 (Or.inl hpayload)⟩

end Record

/-! ## Entries -/

namespace JournalEntry

/-- Octets in front of what stands for an entry: its length. -/
def payloadStart : Nat := 4

/-- An entry whose numbers have their widths, and so have the lengths in it. It may be too long. -/
structure Recordable (e : JournalEntry) : Prop where
  fits : e.Fits
  short : Portable.Short e

variable {e : JournalEntry} {es : List JournalEntry} {damaged : Bytes}

/-- An entry that can be read back can be recorded. -/
theorem Readable.recordable (h : e.Readable) : e.Recordable :=
  ⟨h.fits, MessagePack.lengthsFit_of_length _ h.length_lt⟩

/-- An entry in which one octet was changed behind its length is not read. -/
theorem read_altered (hlen : (Portable.toBytes e).length < 1 <<< (8 * 4))
    (h : Altered payloadStart e.write damaged) (rest : Bytes) :
    ∃ err, read (damaged ++ rest) = .error err := by
  have hstart : payloadStart = (Bytes.littleEndian 4 (Portable.toBytes e).length).length + 0 :=
    (Bytes.length_littleEndian ..).symm
  rw [write_eq, frame, hstart] at h
  obtain ⟨body, rfl, hbody⟩ := h.exists_append
  obtain ⟨encoded, sum, rfl, hencoded, hsum, hne⟩ := hbody.exists_checksum_ne
  rw [← hencoded] at hlen ⊢
  have hstated := Record.take_append (Bytes.littleEndian 4 encoded.length) (encoded ++ (sum ++ rest))
  rw [Bytes.length_littleEndian] at hstated
  rw [List.append_assoc, List.append_assoc, read, hstated]
  simp only [bind, Except.bind, Bytes.ofLittleEndian_littleEndian hlen]
  split
  · exact ⟨_, rfl⟩
  · simp only [Record.take_append, Record.checkSum_of_ne hsum hne]
    exact ⟨_, rfl⟩

/-- An entry that is not too long. -/
def Bounded (e : JournalEntry) : Prop := (Portable.toBytes e).length ≤ maxLength

instance (e : JournalEntry) : Decidable e.Bounded := Nat.decLe _ _

/-- In front of octets in which nothing is found, the entries before the first one that is too long are. -/
theorem scan_append_of_nil (h : ∀ e ∈ es, e.Recordable) {rest : Bytes} (hrest : scan rest = []) :
    scan (es.flatMap write ++ rest) = es.takeWhile (·.Bounded) := by
  induction es with
  | nil => exact hrest
  | cons e es ih =>
    have he := h e (List.mem_cons_self ..)
    rw [List.flatMap_cons, List.append_assoc, List.takeWhile_cons]
    by_cases hbounded : e.Bounded
    · rw [scan_of_ok (read_write ⟨he.fits, hbounded⟩ _), if_pos (decide_eq_true hbounded),
        ih fun e' he' => h e' (List.mem_cons_of_mem e he')]
    · obtain ⟨err, herr⟩ :=
        exists_read_write_eq_error he.fits he.short (Nat.lt_of_not_le hbounded) (es.flatMap write ++ rest)
      rw [scan_of_error herr, if_neg (by simpa using hbounded)]

/-- A scan ends before an entry in which one octet was changed, or before the first that is too long. -/
theorem scan_altered (h : ∀ e ∈ es, e.Recordable)
    (hlen : (Portable.toBytes e).length < 1 <<< (8 * 4))
    (hdamage : Altered payloadStart e.write damaged) (rest : Bytes) :
    scan (es.flatMap write ++ (damaged ++ rest)) = es.takeWhile (·.Bounded) := by
  obtain ⟨err, herr⟩ := read_altered hlen hdamage rest
  exact scan_append_of_nil h (scan_of_error herr)

end JournalEntry

/-! ## Journals -/

namespace Journal

open JournalEntry (Recordable scan)

/-- The states of a journal after calls that went well, with the entries that these calls have put into
its file since the journal was new or was emptied. -/
inductive Produced (first : Hosted Journal) : List JournalEntry → Hosted Journal → Prop
  /-- Nothing was done yet. -/
  | new : Produced first [] first
  /-- A batch was announced. -/
  | logged {s s' : Hosted Journal} {es : List JournalEntry} {batch : ChangeSet} {seq : Nat} :
    Produced first es s → Recordable ⟨seq, .pending, some batch, s.device.time⟩ →
    log batch s = .ok seq s' → Produced first (es ++ [⟨seq, .pending, some batch, s.device.time⟩]) s'
  /-- Some batch is in place. -/
  | committed {s s' : Hosted Journal} {es : List JournalEntry} {seq : Nat} :
    Produced first es s → Recordable ⟨seq, .committed, none, s.device.time⟩ →
    commit seq s = .ok ⟨⟩ s' → Produced first (es ++ [⟨seq, .committed, none, s.device.time⟩]) s'
  /-- Some batch was undone. -/
  | rolledBack {s s' : Hosted Journal} {es : List JournalEntry} {seq : Nat} :
    Produced first es s → Recordable ⟨seq, .rolledBack, none, s.device.time⟩ →
    rollBack seq s = .ok ⟨⟩ s' → Produced first (es ++ [⟨seq, .rolledBack, none, s.device.time⟩]) s'
  /-- The journal was emptied. -/
  | cleared {s s' : Hosted Journal} {es : List JournalEntry} :
    Produced first es s → clear s = .ok ⟨⟩ s' → Produced first [] s'
  /-- The journal was closed and opened again. -/
  | reopened {s closed : Hosted Journal} {es : List JournalEntry} {journal : Journal} {device : Device} :
    Produced first es s → close s = .ok ⟨⟩ closed →
    openAt closed.value.path closed.device = .ok journal device → Produced first es ⟨device, journal⟩
  /-- Time went by, and the plan of what fails changed. -/
  | later {s : Hosted Journal} {es : List JournalEntry} (time clock : Nat) (plan : FaultPlan) :
    Produced first es s → Produced first es ⟨{ s.device with time, clock, plan }, s.value⟩

/-- An open journal in whose file these entries stand, and for which nothing waits. -/
structure Holds (place : Location) (inode : Nat) (start : Hosted Journal) (es : List JournalEntry)
    (s : Hosted Journal) : Prop where
  written : Written place inode start (header ++ es.flatMap JournalEntry.write) [] s
  recordable : ∀ e ∈ es, e.Recordable

namespace Holds

variable {place : Location} {inode : Nat} {start s s' : Hosted Journal} {es : List JournalEntry}

/-- One more recordable entry is held once it is written. -/
theorem concat {e : JournalEntry} (h : Holds place inode start es s) (he : e.Recordable)
    (hw : Written place inode start (header ++ es.flatMap JournalEntry.write ++ [] ++ e.write) [] s') :
    Holds place inode start (es ++ [e]) s' where
  written := by
    rw [List.append_nil, List.append_assoc] at hw
    rw [List.flatMap_append, List.flatMap_singleton]
    exact hw
  recordable := List.forall_mem_append.2 ⟨h.recordable, List.forall_mem_singleton.2 he⟩

/-- Logging a batch adds its announcement to the entries held. -/
theorem log {batch : ChangeSet} {seq : Nat} (h : Holds place inode start es s)
    (he : Recordable ⟨seq, .pending, some batch, s.device.time⟩) (hlog : log batch s = .ok seq s') :
    Holds place inode start (es ++ [⟨seq, .pending, some batch, s.device.time⟩]) s' := by
  have hyields := log_yields batch .of_free h.written
  rw [hlog] at hyields
  obtain ⟨rfl, -, hw⟩ := hyields
  exact h.concat he hw

/-- Marking a batch adds its mark to the entries held. -/
theorem mark {seq : Nat} {status : JournalStatus} (h : Holds place inode start es s)
    (he : Recordable ⟨seq, status, none, s.device.time⟩) (hmark : mark seq status s = .ok ⟨⟩ s') :
    Holds place inode start (es ++ [⟨seq, status, none, s.device.time⟩]) s' := by
  have hyields := mark_yields seq status .of_free h.written
  rw [hmark] at hyields
  exact h.concat he hyields.2

/-- A new journal holds nothing. -/
theorem of_new {device : Device} {path : Path} {first : Hosted Journal} (hsound : device.disk.Sound)
    (hnew : device.disk.occupant? place = none)
    (hleads : ∀ {d}, Disk.Touched (· = place) device.disk d → d.Leads path place)
    (hopen : openAt path device = .ok first.value first.device) :
    first.value.path = path ∧ ∃ inode, Holds place inode ⟨device, first.value⟩ [] first := by
  have hyields := openAt_new_yields .of_free hsound hnew hleads
  rw [hopen] at hyields
  obtain ⟨-, inode, hfilled, hvalue⟩ := hyields
  refine ⟨by rw [hvalue], inode, ⟨?_, rfl, by rw [hvalue]⟩, List.forall_mem_nil _⟩
  rw [List.flatMap_nil, List.append_nil]
  exact hfilled

variable (hleads : ∀ {d}, Disk.Touched (· = place) start.device.disk d → d.Leads start.value.path place)

include hleads

/-- Clearing leaves no entries held. -/
theorem clear (h : Holds place inode start es s) (hclear : clear s = .ok ⟨⟩ s') :
    Holds place inode start [] s' :=
  ⟨(whole_of_clear hleads h.written hclear).written, List.forall_mem_nil _⟩

/-- Closing and opening again holds the same entries. -/
theorem reopened {closed : Hosted Journal} {journal : Journal} {device : Device}
    (h : Holds place inode start es s) (hclose : close s = .ok ⟨⟩ closed)
    (hopen : openAt closed.value.path closed.device = .ok journal device) :
    Holds place inode start es ⟨device, journal⟩ :=
  ⟨(written_of_reopened hleads h.written hclose hopen).1, h.recordable⟩

/-- What calls have put into a journal stands in its file. -/
theorem of_produced {first : Hosted Journal} (hnew : Holds place inode start [] first)
    (h : Produced first es s) : Holds place inode start es s := by
  induction h with
  | new => exact hnew
  | logged _ he hlog ih => exact ih.log he hlog
  | committed _ he hcommit ih => exact ih.mark he hcommit
  | rolledBack _ he hrollBack ih => exact ih.mark he hrollBack
  | cleared _ hclear ih => exact ih.clear hleads hclear
  | reopened _ hclose hopen ih => exact ih.reopened hleads hclose hopen
  | later time clock plan _ ih => exact ⟨ih.written.of_eq rfl rfl, ih.recordable⟩

end Holds

end Journal

/-- **One changed octet is noticed**, in the payload or in the checksum of a record or of an entry.

If these octets are a record file after the change, it is refused for its checksum.

If they are an entry after the change, a scan of its journal ends before them, or before the first entry
that is too long. So a journal that has them in the place of the entry opens and tells the entries up to
there. -/
theorem damage_detected (damaged : Bytes) :
    (∀ {α : Type} [Portable α] {magic : Bytes} (a : α) {s : Hosted FileStore} {path : Path},
      magic.length = 4 → (Portable.toBytes a).length < 1 <<< (8 * 8) →
      Altered Record.payloadStart (Record.write magic a) damaged →
      s.device.disk.read path = .ok damaged →
      ∃ stated computed, stated ≠ computed ∧
        (FileStore.loadRecord magic path : FileStore.Action (Option α)) s =
          .error (.checksumMismatch stated computed) s) ∧
    ∀ {device : Device} {above : Path} {base : Location} {name : String} {first : Hosted Journal},
      device.disk.Sound → device.disk.Anchored above base → Path.Plain name →
      (above ++ [name]).check = .ok () → device.disk.occupant? (name :: base) = none →
      Journal.openAt (above ++ [name]) device = .ok first.value first.device →
      ∀ {es s}, Journal.Produced first es s →
        s.device.disk.read (above ++ [name]) =
          .ok (Journal.header ++ es.flatMap JournalEntry.write) ∧
        ∀ {before e later}, es = before ++ e :: later →
          (Portable.toBytes e).length < 1 <<< (8 * 4) →
          Altered JournalEntry.payloadStart e.write damaged →
          let rest := before.flatMap JournalEntry.write ++
            (damaged ++ later.flatMap JournalEntry.write)
          JournalEntry.scan rest = before.takeWhile (·.Bounded) ∧
          ∀ {device' path'}, Journal.HasFile device' path' (Journal.header ++ rest) →
            Journal.Tells device' path' (before.takeWhile (·.Bounded)) := by
  refine ⟨fun {α _ magic} a {s path} hmagic hlen hdamage hfile => ?_,
    fun {device above base name first} hsound habove hname hcheck hnew hopen {es s} hes => ?_⟩
  · obtain ⟨stated, computed, hne, hread⟩ := Record.read_altered hmagic hlen hdamage path.display
    exact ⟨stated, computed, hne, (FileStore.loadRecord_eq_error_iff hfile).2 hread⟩
  · have hleads : ∀ {d}, Disk.Touched (· = name :: base) device.disk d →
        d.Leads (above ++ [name]) (name :: base) :=
      fun ht => (habove.kept ht.folder).leads_name hname hcheck
    obtain ⟨hpath, inode, hempty⟩ := Journal.Holds.of_new hsound hnew hleads hopen
    rw [← hpath] at hleads ⊢
    have hholds := hempty.of_produced hleads hes
    have hfile := hholds.written.file
    refine ⟨?_, fun {before e later} hsplit hlen hdamage => ?_⟩
    · rw [(hleads hfile.touched).read_of_file hfile.entry, hfile.contents_eq]
    · have hbefore : ∀ e ∈ before, e.Recordable := fun e' he' =>
        hholds.recordable e' (hsplit ▸ List.mem_append_left _ he')
      have hscan := JournalEntry.scan_altered hbefore hlen hdamage (later.flatMap JournalEntry.write)
      exact ⟨hscan, fun {device' path'} hfile => hscan ▸ hfile.tells⟩

/-- The entry of a batch without changes. -/
def announcingNothing (seq : Nat) : JournalEntry :=
  ⟨seq, .pending, some ∅, 0⟩

/-- The entry that says that the first batch is in place. -/
def firstCommitted : JournalEntry :=
  ⟨1, .committed, none, 0⟩

/-- Its octets with another last one. -/
def firstCommittedDamaged : Bytes :=
  firstCommitted.write.dropLast ++ [0xff]

/-- The damage of the example alters the payload of its entry. -/
theorem altered_firstCommitted :
    Altered JournalEntry.payloadStart firstCommitted.write firstCommittedDamaged := by
  have hne : firstCommitted.write.getLast (by decide +kernel) ≠ 0xff := by decide +kernel
  have hlen : JournalEntry.payloadStart ≤ firstCommitted.write.dropLast.length := by decide +kernel
  exact ⟨_, _, _, [], hne, hlen, (List.dropLast_append_getLast _).symm, rfl⟩

/-- A record is refused whose last octet was changed. A mark whose last octet was changed is not read, nor
is the entry behind it. -/
theorem damage_detected_once :
    (let r : NodeReferences := ⟨default, [⟨default, ⟨"p"⟩⟩]⟩
     let damaged := (Record.write Record.referencesMagic r).dropLast ++ [0xff]
     ∃ stated computed, stated ≠ computed ∧
      (FileStore.loadRecord Record.referencesMagic ["r"] : FileStore.Action (Option NodeReferences))
        (FileStore.holding damaged) =
          .error (.checksumMismatch stated computed) (FileStore.holding damaged)) ∧
    ∃ (first s₁ s₂ s₃ : Hosted Journal),
      Journal.openAt ["journal"] (.reliable ∅ 0) = .ok first.value first.device ∧
      Journal.log ∅ first = .ok 1 s₁ ∧ Journal.commit 1 s₁ = .ok ⟨⟩ s₂ ∧ Journal.log ∅ s₂ = .ok 2 s₃ ∧
      s₃.device.disk.read ["journal"] = .ok (Journal.header ++
        [announcingNothing 1, firstCommitted, announcingNothing 2].flatMap JournalEntry.write) ∧
      JournalEntry.scan ((announcingNothing 1).write ++
        (firstCommittedDamaged ++ (announcingNothing 2).write)) = [announcingNothing 1] ∧
      Journal.Tells (Journal.deviceWith ((announcingNothing 1).write ++
        (firstCommittedDamaged ++ (announcingNothing 2).write))) ["journal"] [announcingNothing 1] := by
  constructor
  · intro r damaged
    have hlen : (Portable.toBytes r).length < 1 <<< (8 * 8) := by decide +kernel
    have hne : (Record.write Record.referencesMagic r).getLast (by decide +kernel) ≠ 0xff := by
      decide +kernel
    have hstart : Record.payloadStart ≤ (Record.write Record.referencesMagic r).dropLast.length := by
      decide +kernel
    exact (damage_detected damaged).1 r rfl hlen
      ⟨_, _, _, [], hne, hstart, (List.dropLast_append_getLast _).symm, rfl⟩ rfl
  · have hsound : (Device.reliable ∅ 0).disk.Sound := Disk.sound_empty
    have habove : (Device.reliable ∅ 0).disk.Anchored [] [] := ⟨rfl, rfl⟩
    have hcheck : Path.check ["journal"] = .ok () := by decide +kernel
    have hleads : ∀ {d}, Disk.Touched (· = ["journal"]) (Device.reliable ∅ 0).disk d →
        d.Leads ["journal"] ["journal"] :=
      fun ht => (habove.kept ht.folder).leads_name Journal.plain_journal hcheck
    obtain ⟨start, first, inode, hopen, -, -, hfirst⟩ := Journal.exists_keeps_new hsound rfl rfl hleads
    have hone : (announcingNothing 1).Readable :=
      JournalEntry.readable_announcement_empty (by decide) (by decide)
    have htwo : (announcingNothing 2).Readable :=
      JournalEntry.readable_announcement_empty (by decide) (by decide)
    have hmark : firstCommitted.Readable :=
      JournalEntry.readable_mark .committed (by decide) (by decide)
    obtain ⟨s₁, hlog₁, h₁⟩ := hfirst.log hone
    have hstatus : JournalStatus.committed ≠ .pending := by decide
    obtain ⟨s₂, hcommit, h₂⟩ := h₁.mark ⟨rfl, by decide⟩ hstatus (List.mem_singleton.2 rfl)
    obtain ⟨s₃, hlog₂, h₃⟩ := h₂.log htwo
    have hproduced : Journal.Produced first
        [announcingNothing 1, firstCommitted, announcingNothing 2] s₃ := by
      have hp₁ := Journal.Produced.new.logged (hfirst.up.time_eq ▸ hone.recordable) hlog₁
      have hp₂ := hp₁.committed (h₁.up.time_eq ▸ hmark.recordable) hcommit
      have hp₃ := hp₂.logged (h₂.up.time_eq ▸ htwo.recordable) hlog₂
      rwa [hfirst.up.time_eq, h₁.up.time_eq, h₂.up.time_eq] at hp₃
    obtain ⟨hread, hdamage⟩ := (damage_detected firstCommittedDamaged).2 hsound habove
      Journal.plain_journal hcheck rfl hopen hproduced
    have hsplit : [announcingNothing 1, firstCommitted, announcingNothing 2] =
      [announcingNothing 1] ++ firstCommitted :: [announcingNothing 2] := rfl
    obtain ⟨hscan, htells⟩ := hdamage hsplit (by decide +kernel) altered_firstCommitted
    have hwhole : [announcingNothing 1].takeWhile (·.Bounded) = [announcingNothing 1] := by
      decide +kernel
    rw [hwhole] at hscan htells
    have hoctets : [announcingNothing 1].flatMap JournalEntry.write ++
        (firstCommittedDamaged ++ [announcingNothing 2].flatMap JournalEntry.write) =
          (announcingNothing 1).write ++ (firstCommittedDamaged ++ (announcingNothing 2).write) := by
      rw [List.flatMap_singleton, List.flatMap_singleton]
    rw [hoctets] at hscan htells
    exact ⟨first, s₁, s₂, s₃, hopen, hlog₁, hcommit, hlog₂, hread, hscan,
      htells (Journal.hasFile_deviceWith _)⟩

open JournalEntry in
/-- Behind an entry that is too long a damaged mark is not where a scan ends: it ends before that entry. -/
theorem Journal.log_overlong_damaged : ∃ s s',
    log (adding (.replicate maxLength 0)) (openedWith []) = .ok 1 s ∧
    commit 1 s = .ok ⟨⟩ s' ∧
    s'.device.disk.read ["journal"] = .ok (header ++
      [announcing (.replicate maxLength 0), firstCommitted].flatMap JournalEntry.write) ∧
    Altered payloadStart firstCommitted.write firstCommittedDamaged ∧
    scan ((announcing (.replicate maxLength 0)).write ++ firstCommittedDamaged) = [] ∧
    scan ((announcing (.replicate maxLength 0)).write ++ firstCommittedDamaged) ≠
      [announcing (.replicate maxLength 0)] := by
  obtain ⟨s, hlog, hup, -, hw⟩ :=
    exists_log_ok (adding (.replicate maxLength 0)) (up_openedWith []) (written_openedWith [])
  obtain ⟨s', hmark, -, -, hw⟩ := exists_mark_ok 1 .committed hup hw
  have hnext : (openedWith []).value.nextSeq = 1 := by
    show seqAfter (scan []) = 1
    rw [scan_nil]
    rfl
  rw [hnext] at hlog hw
  have hlead : s'.device.disk.Leads ["journal"] ["journal"] :=
    ((anchored_deviceWith []).kept hw.file.touched.folder).leads_name plain_journal (by decide +kernel)
  obtain ⟨err, herr⟩ := exists_read_announcing_eq_error firstCommittedDamaged
  have hscan := scan_of_error herr
  refine ⟨s, s', hlog, hmark, ?_, altered_firstCommitted, hscan, ?_⟩
  · rw [hlead.read_of_file hw.file.entry, hw.file.contents_eq]
    simp only [List.append_nil, List.append_assoc, List.flatMap_cons, List.flatMap_nil]
    rfl
  · rw [hscan]
    exact (List.cons_ne_nil _ _).symm

end ContentTree
