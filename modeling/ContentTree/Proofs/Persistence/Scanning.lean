import ContentTree.Proofs.Persistence.Bookkeeping

/-!
# Scanning octets

Behind its header a journal may hold any octets. What is read of them is the longest run of well-formed
entries in front, and what follows that run is ignored (`longestRun_scan`). So a journal that only its
own calls wrote may be cut off anywhere behind its header: what is left opens, and tells the entries
that are whole in it (`openAt_of_octets`).
-/

namespace ContentTree

namespace JournalEntry

/-- Octets of a well-formed entry: a frame that is not too long, and from which the entry is decoded. -/
def Frames (octets : Bytes) (e : JournalEntry) : Prop :=
  ∃ encoded, octets = frame encoded ∧ encoded.length ≤ maxLength ∧ Portable.ofBytes? encoded = some e

/-- Well-formed entries stand in front, one behind the other. -/
def Begins (bytes : Bytes) (es : List JournalEntry) : Prop :=
  ∃ frames, List.Forall₂ Frames frames es ∧ frames.flatten <+: bytes

/-- No run of well-formed entries in front is longer. -/
structure LongestRun (bytes : Bytes) (es : List JournalEntry) : Prop where
  begins : Begins bytes es
  longest : ∀ es', Begins bytes es' → es' <+: es

/-- All octets begin with no entries. -/
theorem begins_nil (bytes : Bytes) : Begins bytes [] :=
  ⟨[], .nil, List.nil_prefix⟩

/-- Octets begin with entries if the first can be read and what follows begins with the others. -/
theorem begins_cons_iff {bytes : Bytes} {e : JournalEntry} {es : List JournalEntry} :
    Begins bytes (e :: es) ↔ ∃ rest, read bytes = .ok (e, rest) ∧ Begins rest es := by
  constructor
  · rintro ⟨frames, hforall, later, rfl⟩
    cases hforall with
    | cons hframe hframes =>
      obtain ⟨encoded, rfl, hle, hdecode⟩ := hframe
      refine ⟨_, read_eq_ok_iff.2 ⟨encoded, ?_, hle, hdecode⟩, _, hframes, List.prefix_append _ later⟩
      rw [List.flatten_cons, List.append_assoc]
  · rintro ⟨rest, hread, frames, hframes, hpart⟩
    obtain ⟨encoded, rfl, hle, hdecode⟩ := read_eq_ok_iff.1 hread
    refine ⟨frame encoded :: frames, .cons ⟨encoded, rfl, hle, hdecode⟩ hframes, ?_⟩
    rw [List.flatten_cons]
    exact (List.prefix_append_right_inj _).2 hpart

/-- A scan finds the longest run in front of any octets. -/
theorem longestRun_scan (bytes : Bytes) : LongestRun bytes (scan bytes) := by
  induction bytes using scan.induct with
  | case1 bytes e rest hread ih =>
    rw [scan_of_ok hread]
    refine ⟨begins_cons_iff.2 ⟨rest, hread, ih.begins⟩, fun es' hes' => ?_⟩
    cases es' with
    | nil => exact List.nil_prefix
    | cons e' es' =>
      obtain ⟨rest', hread', hes'⟩ := begins_cons_iff.1 hes'
      rw [hread] at hread'
      cases hread'
      exact (List.prefix_cons_inj e).2 (ih.longest es' hes')
  | case2 bytes err hread =>
    rw [scan_of_error hread]
    refine ⟨begins_nil bytes, fun es' hes' => ?_⟩
    cases es' with
    | nil => exact List.nil_prefix
    | cons e' es' =>
      obtain ⟨rest', hread', -⟩ := begins_cons_iff.1 hes'
      rw [hread] at hread'
      cases hread'

/-- There is only one longest run. -/
theorem LongestRun.eq_scan {bytes : Bytes} {es : List JournalEntry} (h : LongestRun bytes es) :
    es = scan bytes :=
  ((longestRun_scan bytes).longest es h.begins).eq_of_length_le
    (h.longest _ (longestRun_scan bytes).begins).length_le

end JournalEntry

namespace Journal

open JournalEntry (AllOutstanding LongestRun Readable longestRun_scan scan scan_flatMap wholeWithin)

variable {place : Location} {inode : Nat} {start s : Hosted Journal} {es : List JournalEntry}

/-- One more than the largest number of an entry, and 1 if there is none. -/
def numberAfter (es : List JournalEntry) : Nat :=
  (es.map JournalEntry.seq).max?.elim 1 (· + 1)

/-- Both ways to number the next batch agree. -/
theorem seqAfter_eq_numberAfter (es : List JournalEntry) : seqAfter es = numberAfter es := by
  unfold numberAfter
  cases hmax : (es.map JournalEntry.seq).max? with
  | none =>
    rw [List.map_eq_nil_iff.1 (List.max?_eq_none_iff.1 hmax)]
    rfl
  | some n =>
    obtain ⟨hmem, hle⟩ := List.max?_eq_some_iff.1 hmax
    exact seqAfter_eq (fun e he => hle _ (List.mem_map_of_mem he)) (Or.inr (List.mem_map.1 hmem))

/-- The next number is at most a bound that all numbers are below. -/
theorem numberAfter_le {bound : Nat} (hpos : 1 ≤ bound) (h : ∀ e ∈ es, e.seq < bound) :
    numberAfter es ≤ bound := by
  unfold numberAfter
  cases hmax : (es.map JournalEntry.seq).max? with
  | none => exact hpos
  | some n =>
    obtain ⟨e, he, rfl⟩ := List.mem_map.1 (List.max?_eq_some_iff.1 hmax).1
    exact h e he

/-! ## Any octets -/

/-- There is a file with these octets, and it may be opened. -/
structure HasFile (device : Device) (path : Path) (contents : Bytes) : Prop where
  file : ∃ place inode, device.disk.Leads path place ∧
    device.disk.occupant? place = some (.file inode) ∧ device.disk.contentsOf inode = contents
  spared : device.plan device.clock (.openEnd path) = none

/-- The journal of the example has the header and the given octets. -/
theorem hasFile_deviceWith (rest : Bytes) : HasFile (deviceWith rest) ["journal"] (header ++ rest) :=
  ⟨⟨["journal"], 0, leads_deviceWith rest, rfl, rfl⟩, rfl⟩

/-- A journal opens there that has read exactly these entries: it goes on behind the largest of their
numbers, and tells what is outstanding among them. -/
def Tells (device : Device) (path : Path) (es : List JournalEntry) : Prop :=
  ∃ (s : Hosted Journal) (found : List JournalEntry),
    openAt path device = .ok s.value s.device ∧ s.device.disk = device.disk ∧
    s.value.nextSeq = numberAfter es ∧ pendingEntries s = .ok found s ∧ AllOutstanding es found

/-- Behind a header nothing else is needed. -/
theorem HasFile.tells {device : Device} {path : Path} {rest : Bytes}
    (h : HasFile device path (header ++ rest)) : Tells device path (scan rest) := by
  obtain ⟨place, inode, hlead, hentry, hcontents⟩ := h.file
  let s : Hosted Journal := ⟨{ device with clock := device.clock + 1 },
    ⟨path, seqAfter (scan rest), some ⟨inode, []⟩⟩⟩
  have hpending := Journal.pendingEntries_eq (s := s) hlead hentry
  rw [show s.device.disk.contentsOf inode = _ from hcontents, pendingIn_header_append] at hpending
  exact ⟨s, _, openAt_of_spared hlead hentry hcontents h.spared, rfl, seqAfter_eq_numberAfter _,
    hpending, JournalEntry.allOutstanding_pending _⟩

/-! ## Transcripts -/

/-- What calls have put into a journal since it was last emptied. -/
structure Transcript where
  /-- Seconds since the start of 1970. -/
  time : Nat
  /-- Number of the next batch. -/
  nextSeq : Nat
  /-- The entries, the oldest one first. -/
  entries : List JournalEntry

namespace Transcript

/-- The transcript of a journal to which nothing was done. -/
def new (time : Nat) : Transcript := ⟨time, 1, []⟩

variable (t : Transcript)

/-- The entry that announces a batch. -/
def announcement (batch : ChangeSet) : JournalEntry :=
  ⟨t.nextSeq, .pending, some batch, t.time⟩

/-- An entry that says what became of a batch. -/
def marker (seq : Nat) (status : JournalStatus) : JournalEntry :=
  ⟨seq, status, none, t.time⟩

/-- The transcript after a call. -/
def next : Call → Transcript
  | .log batch => { t with nextSeq := t.nextSeq + 1, entries := t.entries ++ [t.announcement batch] }
  | .commit seq => { t with entries := t.entries ++ [t.marker seq .committed] }
  | .rollBack seq => { t with entries := t.entries ++ [t.marker seq .rolledBack] }
  | .clear => { t with nextSeq := 1, entries := [] }
  | .reopen => { t with nextSeq := numberAfter t.entries }
  | .wait time => { t with time }

/-- A call may be made: an entry is not longer than entries may be, and its number and the one behind
it have 64 bits, as times have. Any number may be marked. -/
def Admits : Call → Prop
  | .log batch => (t.announcement batch).Readable ∧ t.nextSeq < maxUInt64
  | .commit seq | .rollBack seq => seq < maxUInt64
  | .clear | .reopen => True
  | .wait time => time ≤ maxUInt64

/-- The transcript after calls. -/
def after (calls : List Call) : Transcript :=
  calls.foldl next t

/-- Calls may be made, each after those before it. -/
def AdmitsAll : Transcript → List Call → Prop
  | _, [] => True
  | t, call :: rest => t.Admits call ∧ AdmitsAll (t.next call) rest

/-- The file of the journal. -/
def octets : Bytes :=
  header ++ t.entries.flatMap JournalEntry.write

/-- Every entry can be read back and opened behind, and the time has 64 bits. -/
structure Sound : Prop where
  readable : ∀ e ∈ t.entries, e.Readable
  seq_lt : ∀ e ∈ t.entries, e.seq < maxUInt64
  time_le : t.time ≤ maxUInt64

variable {t}

/-- A new transcript is sound. -/
theorem sound_new {time : Nat} (h : time ≤ maxUInt64) : (new time).Sound :=
  ⟨List.forall_mem_nil _, List.forall_mem_nil _, h⟩

/-- One more readable entry keeps a transcript sound. -/
theorem Sound.concat {e : JournalEntry} {n : Nat} (h : t.Sound) (he : e.Readable)
    (hseq : e.seq < maxUInt64) : Sound ⟨t.time, n, t.entries ++ [e]⟩ where
  readable := List.forall_mem_append.2 ⟨h.readable, List.forall_mem_singleton.2 he⟩
  seq_lt := List.forall_mem_append.2 ⟨h.seq_lt, List.forall_mem_singleton.2 hseq⟩
  time_le := h.time_le

/-- An admitted call keeps a transcript sound. -/
theorem Sound.next (h : t.Sound) {call : Call} (hcall : t.Admits call) : (t.next call).Sound := by
  cases call with
  | log batch => exact h.concat hcall.1 hcall.2
  | commit seq =>
    exact h.concat (JournalEntry.readable_mark _ (Nat.le_of_lt hcall) h.time_le) hcall
  | rollBack seq =>
    exact h.concat (JournalEntry.readable_mark _ (Nat.le_of_lt hcall) h.time_le) hcall
  | clear => exact ⟨List.forall_mem_nil _, List.forall_mem_nil _, h.time_le⟩
  | reopen => exact ⟨h.readable, h.seq_lt, h.time_le⟩
  | wait time => exact ⟨h.readable, h.seq_lt, hcall⟩

/-- One more entry is written behind the other octets. -/
theorem octets_concat (e : JournalEntry) (n : Nat) :
    octets ⟨t.time, n, t.entries ++ [e]⟩ = t.octets ++ e.write := by
  rw [octets, octets, List.flatMap_append, List.flatMap_singleton, List.append_assoc]

/-- Of a file that is cut off the entries are left that are whole in it. -/
theorem Sound.tells {device : Device} {path : Path} {n : Nat} (h : t.Sound) (hn : headerLength ≤ n)
    (hfile : HasFile device path (t.octets.take n)) :
    Tells device path (wholeWithin (n - headerLength) t.entries) := by
  rw [octets, List.take_append, List.take_of_length_le hn, length_header] at hfile
  have htells := hfile.tells
  rwa [JournalEntry.scan_take h.readable] at htells

end Transcript

/-! ## A journal and its transcript -/

/-- A journal whose file is as the transcript says, on a device that does all that it is told. -/
structure Transcribed (place : Location) (inode : Nat) (start : Hosted Journal) (t : Transcript)
    (s : Hosted Journal) : Prop where
  up : (Regime.reliable start.device.locks t.time).Up s.device
  nextSeq_eq : s.value.nextSeq = t.nextSeq
  written : Written place inode start t.octets [] s

namespace Transcribed

variable {t : Transcript}

/-- Marking a batch succeeds, and adds its mark to the transcript. -/
theorem mark (h : Transcribed place inode start t s) (seq : Nat) (status : JournalStatus) :
    ∃ s', Journal.mark seq status s = .ok ⟨⟩ s' ∧
      Transcribed place inode start { t with entries := t.entries ++ [t.marker seq status] } s' := by
  obtain ⟨s', hmark, hup, hnext, hw⟩ := exists_mark_ok seq status h.up h.written
  exact ⟨s', hmark, hup, hnext.trans h.nextSeq_eq, Transcript.octets_concat _ _ ▸ hw⟩

variable (hleads : ∀ {d}, Disk.Touched (· = place) start.device.disk d → d.Leads start.value.path place)

include hleads

/-- A call succeeds. -/
theorem step (h : Transcribed place inode start t s) (ht : t.Sound) (call : Call) :
    ∃ answer s', call.run s = .ok answer s' ∧ Transcribed place inode start (t.next call) s' := by
  cases call with
  | log batch =>
    obtain ⟨s', hrun, hup, hnext, hw⟩ := exists_log_ok batch h.up h.written
    rw [h.nextSeq_eq] at hrun hnext hw
    refine ⟨some t.nextSeq, s', ?_, hup, hnext, Transcript.octets_concat _ _ ▸ hw⟩
    rw [Call.run, bind_of_ok hrun]
    rfl
  | commit seq =>
    obtain ⟨s', hrun, h'⟩ := h.mark seq .committed
    exact ⟨none, s', by rw [Call.run, commit, bind_of_ok hrun]; rfl, h'⟩
  | rollBack seq =>
    obtain ⟨s', hrun, h'⟩ := h.mark seq .rolledBack
    exact ⟨none, s', by rw [Call.run, rollBack, bind_of_ok hrun]; rfl, h'⟩
  | clear =>
    obtain ⟨s', hrun, hup, hnext, hw⟩ := exists_clear_ok hleads h.up h.written
    refine ⟨none, s', by rw [Call.run, bind_of_ok hrun]; rfl, hup, hnext, ?_⟩
    rw [Transcript.octets, Transcript.next, List.flatMap_nil, List.append_nil]
    exact hw
  | reopen =>
    obtain ⟨s', hrun, hup, hnext, hw⟩ := exists_reopen_ok hleads h.up h.written
    rw [scan_flatMap ht.readable, seqAfter_eq_numberAfter] at hnext
    exact ⟨none, s', by rw [Call.run, bind_of_ok hrun]; rfl, hup, hnext, hw⟩
  | wait time =>
    exact ⟨none, _, rfl, ⟨h.up.locks_eq, rfl, h.up.isUp⟩, h.nextSeq_eq, h.written.of_eq rfl rfl⟩

/-- Calls that may be made succeed, whatever came before them. -/
theorem run (h : Transcribed place inode start t s) (ht : t.Sound) {calls : List Call}
    (hcalls : t.AdmitsAll calls) : ∃ answers s', calls.mapM Call.run s = .ok answers s' ∧
      Transcribed place inode start (t.after calls) s' ∧ (t.after calls).Sound := by
  induction calls generalizing t s with
  | nil => exact ⟨[], s, rfl, h, ht⟩
  | cons call rest ih =>
    obtain ⟨answer, mid, hrun, hmid⟩ := h.step hleads ht call
    obtain ⟨answers, s', hrest, h', ht'⟩ := ih hmid (ht.next hcalls.1) hcalls.2
    refine ⟨answer :: answers, s', ?_, h', ht'⟩
    rw [List.mapM_cons, bind_of_ok hrun, bind_of_ok hrest]
    rfl

/-- The file of a transcribed journal holds the octets of the transcript. -/
theorem hasFile (h : Transcribed place inode start t s) :
    HasFile s.device start.value.path t.octets where
  file := ⟨place, inode, hleads h.written.file.touched, h.written.file.entry,
    h.written.file.contents_eq⟩
  spared := by
    have hplan : s.device.plan = fun _ _ => none := h.up.isUp
    rw [hplan]

end Transcribed

/-- **Any octets may stand behind a header.** The journal opens and tells the longest run of well-formed
entries in front of them. The number with which it goes on has 64 bits unless an entry has the largest
one that does.

**So a journal may be cut off anywhere behind its header**, whatever calls were made since it was new.
It opens and tells the entries that are whole in what is left. -/
theorem openAt_of_octets :
    (∀ {device path rest}, HasFile device path (header ++ rest) →
      ∃ es, LongestRun rest es ∧ Tells device path es ∧
        ((∀ e ∈ es, e.seq < maxUInt64) → numberAfter es ≤ maxUInt64)) ∧
    ∀ {device : Device} {above : Path} {base : Location} {name : String},
      device.disk.Sound → device.disk.Anchored above base → Path.Plain name →
      (above ++ [name]).check = .ok () → device.disk.occupant? (name :: base) = none →
      device.plan = (fun _ _ => none) → device.time ≤ maxUInt64 →
      ∃ first : Hosted Journal, openAt (above ++ [name]) device = .ok first.value first.device ∧
        ∀ calls, (Transcript.new device.time).AdmitsAll calls →
          let t := (Transcript.new device.time).after calls
          ∃ answers s, calls.mapM Call.run first = .ok answers s ∧
            HasFile s.device (above ++ [name]) t.octets ∧
            ∀ n, headerLength ≤ n → ∀ {device' path'},
              HasFile device' path' (t.octets.take n) →
              Tells device' path' (wholeWithin (n - headerLength) t.entries) := by
  refine ⟨fun {device path rest} hfile => ?_,
    fun {device above base name} hsound habove hname hcheck hnew hplan htime => ?_⟩
  · exact ⟨scan rest, longestRun_scan rest, hfile.tells, numberAfter_le (by decide)⟩
  · have hleads : ∀ {d}, Disk.Touched (· = name :: base) device.disk d →
        d.Leads (above ++ [name]) (name :: base) :=
      fun ht => (habove.kept ht.folder).leads_name hname hcheck
    have hup : (Regime.reliable device.locks device.time).Up device := ⟨rfl, rfl, hplan⟩
    obtain ⟨journal, device', hopen, hup', inode, hfile, rfl⟩ :=
      (openAt_new_yields hup hsound hnew hleads).exists_ok fun d => Regime.not_down_of_reliable d
    let start : Hosted Journal := ⟨device, ⟨above ++ [name], 1, some ⟨inode, []⟩⟩⟩
    let first : Hosted Journal := ⟨device', start.value⟩
    have hfirst : Transcribed (name :: base) inode start (.new device.time) first := by
      refine ⟨hup', rfl, ?_, rfl, rfl⟩
      rw [Transcript.octets, Transcript.new, List.flatMap_nil, List.append_nil]
      exact hfile
    refine ⟨first, hopen, fun calls hcalls => ?_⟩
    obtain ⟨answers, s, hrun, hs, ht⟩ := hfirst.run hleads (Transcript.sound_new htime) hcalls
    exact ⟨answers, s, hrun, hs.hasFile hleads, fun n hn {device' path'} hcut => ht.tells hn hcut⟩

/-- A batch that is announced and undone, a mark for one that was never announced, and the announcement
of another batch. -/
def announcedAndMarked : List Call :=
  [.log ∅, .rollBack 1, .commit 7, .reopen, .log ∅]

/-- The entries that these calls put into a journal. -/
def announcedAndMarkedEntries : List JournalEntry :=
  [⟨1, .pending, some ∅, 0⟩, ⟨1, .rolledBack, none, 0⟩, ⟨7, .committed, none, 0⟩,
    ⟨8, .pending, some ∅, 0⟩]

/-- The calls of the example are admitted. -/
theorem admitsAll_announcedAndMarked : (Transcript.new 0).AdmitsAll announcedAndMarked := by
  have hreadable (seq : Nat) (hseq : seq ≤ maxUInt64) : Readable ⟨seq, .pending, some ∅, 0⟩ :=
    JournalEntry.readable_announcement_empty hseq (by decide)
  exact ⟨⟨hreadable 1 (by decide), show 1 < maxUInt64 by decide⟩,
    show 1 < maxUInt64 by decide, show 7 < maxUInt64 by decide, trivial,
    ⟨hreadable 8 (by decide), show 8 < maxUInt64 by decide⟩, trivial⟩

/-- Octets that are no entry are ignored behind one that is, and so is the last entry of a journal from
which an octet is missing. -/
theorem openAt_of_octets_torn :
    Tells (deviceWith (JournalEntry.write ⟨7, .committed, none, 0⟩ ++ [0xff])) ["journal"]
      [⟨7, .committed, none, 0⟩] ∧
    ∃ (first s : Hosted Journal) (answers : List (Option Nat)),
      openAt ["journal"] (.reliable ∅ 0) = .ok first.value first.device ∧
      announcedAndMarked.mapM Call.run first = .ok answers s ∧
      HasFile s.device ["journal"]
        (header ++ announcedAndMarkedEntries.flatMap JournalEntry.write) ∧
      Tells (deviceWith ((announcedAndMarkedEntries.flatMap JournalEntry.write).take 92))
        ["journal"] (announcedAndMarkedEntries.take 3) := by
  have hfile : ∀ rest, HasFile (deviceWith rest) ["journal"] (header ++ rest) := fun rest =>
    ⟨⟨["journal"], 0, leads_deviceWith rest, rfl, rfl⟩, rfl⟩
  refine ⟨?_, ?_⟩
  · obtain ⟨es, hes, htells, -⟩ :=
      openAt_of_octets.1 (hfile (JournalEntry.write ⟨7, .committed, none, 0⟩ ++ [0xff]))
    have hmark : Readable ⟨7, .committed, none, 0⟩ :=
      JournalEntry.readable_mark .committed (by decide) (by decide)
    have htorn : JournalEntry.read [0xff] = .error (.io .unexpectedEnd) := rfl
    rwa [hes.eq_scan, JournalEntry.scan_of_ok (JournalEntry.read_write hmark [0xff]),
      JournalEntry.scan_of_error htorn] at htells
  · have hsound : (Device.reliable ∅ 0).disk.Sound := Disk.sound_empty
    have habove : (Device.reliable ∅ 0).disk.Anchored [] [] := ⟨rfl, rfl⟩
    obtain ⟨first, hopen, hcalls⟩ := openAt_of_octets.2 hsound habove plain_journal
      (by decide +kernel) rfl rfl (by decide)
    have hafter : (Transcript.new (Device.reliable ∅ 0).time).after announcedAndMarked =
        ⟨0, 9, announcedAndMarkedEntries⟩ := rfl
    have hwhole : wholeWithin 92 announcedAndMarkedEntries = announcedAndMarkedEntries.take 3 := by
      decide +kernel
    obtain ⟨answers, s, hrun, hs, hcut⟩ := hcalls announcedAndMarked admitsAll_announcedAndMarked
    rw [hafter] at hs hcut
    have htells := hcut (headerLength + 92) (by decide)
      (by rw [Transcript.octets, List.take_append]; exact hfile _)
    rw [Nat.add_sub_cancel_left, hwhole] at htells
    exact ⟨first, s, answers, hopen, hrun, hs, htells⟩

end Journal

end ContentTree
