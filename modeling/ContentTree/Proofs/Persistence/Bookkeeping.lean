import ContentTree.Proofs.Persistence.Appending

/-!
# What a journal tells of its calls

A ledger holds the batches that were logged since a journal was last emptied, and which of them were
settled. On a device that does all that it is told a journal answers what its ledger says, and tells the
batches that are not settled, however often it is closed and opened again (`pendingEntries_of_calls`).
-/

namespace ContentTree.Journal

open JournalEntry (Readable announcements resolved)

/-- Closes a journal and opens its file again. -/
def reopen : Action Unit := do
  close
  let path := (← get).value.path
  let journal ← Hosted.onDevice (openAt path)
  modify fun s => { s with value := journal }

/-- What is done with a journal, or happens while it is there. -/
inductive Call where
  | log (batch : ChangeSet)
  | commit (seq : Nat)
  | rollBack (seq : Nat)
  | clear
  | reopen
  /-- It becomes that many seconds after the start of 1970. -/
  | wait (time : Nat)

/-- Carries out a call; answers the number of a batch that was logged. -/
def Call.run : Call → Action (Option Nat)
  | .log batch => do return some (← Journal.log batch)
  | .commit seq => do Journal.commit seq; return none
  | .rollBack seq => do Journal.rollBack seq; return none
  | .clear => do Journal.clear; return none
  | .reopen => do Journal.reopen; return none
  | .wait time => do
    modify fun s => { s with device := { s.device with time } }
    return none

/-! ## Ledgers -/

/-- What calls have made of a journal since it was last emptied. -/
structure Ledger where
  /-- Seconds since the start of 1970. -/
  time : Nat
  /-- The entries of the batches that were logged, the oldest one first. -/
  logged : List JournalEntry
  /-- The numbers of the batches that are in place or were undone. -/
  settled : List Nat

namespace Ledger

/-- The ledger of a journal to which nothing was done. -/
def new (time : Nat) : Ledger := ⟨time, [], []⟩

variable (l : Ledger)

/-- The entry of the batch that is logged next: batches are numbered from 1. -/
def entry (batch : ChangeSet) : JournalEntry :=
  ⟨l.logged.length + 1, .pending, some batch, l.time⟩

/-- The entries of the batches that are not settled. -/
def pending : List JournalEntry :=
  l.logged.filter fun e => e.seq ∉ l.settled

/-- The ledger after a call. -/
def next : Call → Ledger
  | .log batch => { l with logged := l.logged ++ [l.entry batch] }
  | .commit seq | .rollBack seq => { l with settled := l.settled ++ [seq] }
  | .clear => { l with logged := [], settled := [] }
  | .reopen => l
  | .wait time => { l with time }

/-- What a call answers. -/
def answer : Call → Option Nat
  | .log _ => some (l.logged.length + 1)
  | _ => none

/-- A call may be made: an entry is not longer than entries may be, a number was answered since the
journal was last emptied, and times have 64 bits. -/
def Admits : Call → Prop
  | .log batch => (l.entry batch).Readable
  | .commit seq | .rollBack seq => seq ∈ l.logged.map JournalEntry.seq
  | .clear | .reopen => True
  | .wait time => time ≤ maxUInt64

/-- The ledger after calls. -/
def after (calls : List Call) : Ledger :=
  calls.foldl next l

/-- What calls answer. -/
def answers : Ledger → List Call → List (Option Nat)
  | _, [] => []
  | l, call :: rest => l.answer call :: answers (l.next call) rest

/-- Calls may be made, each after those before it. -/
def AdmitsAll : Ledger → List Call → Prop
  | _, [] => True
  | l, call :: rest => l.Admits call ∧ AdmitsAll (l.next call) rest

/-- Calls that are admitted are admitted up to any point. -/
theorem AdmitsAll.of_append {l : Ledger} {calls more : List Call} (h : l.AdmitsAll (calls ++ more)) :
    l.AdmitsAll calls := by
  induction calls generalizing l with
  | nil => trivial
  | cons call rest ih => exact ⟨h.1, ih h.2⟩

/-- The batches are numbered as they were logged, and the time has 64 bits. -/
structure Sound : Prop where
  seqs : l.logged.map JournalEntry.seq = List.range' 1 l.logged.length
  time_le : l.time ≤ maxUInt64

variable {l : Ledger}

/-- A new ledger is sound. -/
theorem sound_new {time : Nat} (h : time ≤ maxUInt64) : (new time).Sound := ⟨rfl, h⟩

/-- An admitted call keeps a ledger sound. -/
theorem Sound.next (h : l.Sound) {call : Call} (hcall : l.Admits call) : (l.next call).Sound := by
  cases call with
  | log batch =>
    refine ⟨?_, h.time_le⟩
    show (l.logged ++ [l.entry batch]).map JournalEntry.seq = _
    rw [List.map_append, h.seqs, List.map_singleton, Ledger.next, List.length_append,
      List.length_singleton, List.range'_1_concat, Nat.add_comm 1]
    rfl
  | commit seq => exact ⟨h.seqs, h.time_le⟩
  | rollBack seq => exact ⟨h.seqs, h.time_le⟩
  | clear => exact ⟨rfl, h.time_le⟩
  | reopen => exact h
  | wait time => exact ⟨h.seqs, hcall⟩

/-- There are no more batches than calls. -/
theorem length_logged_after_le (l : Ledger) (calls : List Call) :
    (l.after calls).logged.length ≤ l.logged.length + calls.length := by
  induction calls generalizing l with
  | nil => exact Nat.le_refl _
  | cons call rest ih =>
    have hnext : (l.next call).logged.length ≤ l.logged.length + 1 := by
      cases call <;> simp [next]
    have hrest := ih (l.next call)
    rw [List.length_cons]
    show ((l.next call).after rest).logged.length ≤ _
    omega

/-- In a sound ledger the numbers taken are those from one on. -/
theorem Sound.mem_seqs (h : l.Sound) {seq : Nat} :
    seq ∈ l.logged.map JournalEntry.seq ↔ 1 ≤ seq ∧ seq ≤ l.logged.length := by
  rw [h.seqs, List.mem_range'_1]
  omega

/-- In a sound ledger the entries come in the order of their numbers. -/
theorem Sound.pairwise (h : l.Sound) : l.logged.Pairwise fun a b => a.seq < b.seq := by
  have hseqs : (l.logged.map JournalEntry.seq).Pairwise (· < ·) := by
    rw [h.seqs]
    exact List.pairwise_lt_range'
  exact List.pairwise_map.1 hseqs

/-- In a sound ledger a number is at most as large as there are entries. -/
theorem Sound.seq_le (h : l.Sound) {e : JournalEntry} (he : e ∈ l.logged) : e.seq ≤ l.logged.length :=
  (h.mem_seqs.1 (List.mem_map_of_mem he)).2

end Ledger

/-! ## A journal and its ledger -/

variable {place : Location} {inode : Nat} {start s s' : Hosted Journal} {l : Ledger}

/-- After entries of which the last one has the number `n`, batches are numbered from there on. -/
theorem seqAfter_eq {es : List JournalEntry} {n : Nat} (hle : ∀ e ∈ es, e.seq ≤ n)
    (hlast : n = 0 ∨ ∃ e ∈ es, e.seq = n) : seqAfter es = n + 1 := by
  have hmax : seqAfter es ≤ n + 1 := by
    refine Nat.succ_le_succ (List.foldlRecOn es _ (motive := (· ≤ n)) (Nat.zero_le n) ?_)
    exact fun m hm e he => Nat.max_le.2 ⟨hm, hle e he⟩
  refine Nat.le_antisymm hmax ?_
  rcases hlast with rfl | ⟨e, he, rfl⟩
  · exact Nat.succ_le_succ (Nat.zero_le _)
  · exact lt_seqAfter he

/-! ## Where nothing fails -/

section Reliable

variable {locks : List Nat} {time : Nat} {contents : Bytes}

/-- On a reliable device a batch is logged under the next number. -/
theorem exists_log_ok (batch : ChangeSet) (hup : (Regime.reliable locks time).Up s.device)
    (hw : Written place inode start contents [] s) :
    ∃ s', log batch s = .ok s.value.nextSeq s' ∧ (Regime.reliable locks time).Up s'.device ∧
      s'.value.nextSeq = s.value.nextSeq + 1 ∧ Written place inode start
        (contents ++ JournalEntry.write ⟨s.value.nextSeq, .pending, some batch, time⟩) [] s' := by
  obtain ⟨seq, s', hlog, rfl, hup', hw'⟩ := (log_yields batch hup hw).exists_ok
    fun s' hs' => Regime.not_down_of_reliable s'.device hs'.1
  rw [List.append_nil] at hw'
  exact ⟨s', hlog, hup', nextSeq_of_log hlog, hw'⟩

/-- On a reliable device a batch can be marked. -/
theorem exists_mark_ok (seq : Nat) (status : JournalStatus)
    (hup : (Regime.reliable locks time).Up s.device) (hw : Written place inode start contents [] s) :
    ∃ s', mark seq status s = .ok ⟨⟩ s' ∧ (Regime.reliable locks time).Up s'.device ∧
      s'.value.nextSeq = s.value.nextSeq ∧ Written place inode start
        (contents ++ JournalEntry.write ⟨seq, status, none, time⟩) [] s' := by
  obtain ⟨⟨⟩, s', hmark, hup', hw'⟩ := (mark_yields seq status hup hw).exists_ok
    fun s' hs' => Regime.not_down_of_reliable s'.device hs'.1
  have hnext := keptByWriting_sameNumber.mark_tracks seq status s
  rw [stateAfter_of_ok hmark] at hnext
  rw [List.append_nil] at hw'
  exact ⟨s', hmark, hup', hnext, hw'⟩

variable (hleads : ∀ {d}, Disk.Touched (· = place) start.device.disk d → d.Leads start.value.path place)

include hleads

/-- On a reliable device a journal can be cleared. -/
theorem exists_clear_ok (hup : (Regime.reliable locks time).Up s.device)
    (hw : Written place inode start contents [] s) :
    ∃ s', clear s = .ok ⟨⟩ s' ∧ (Regime.reliable locks time).Up s'.device ∧ s'.value.nextSeq = 1 ∧
      Written place inode start header [] s' := by
  have hstands : Stands place inode start contents none
      { s with value := { s.value with writer := none } } :=
    ⟨hw.file, hw.path_eq, rfl⟩
  obtain ⟨⟨⟩, s', hclear, hafter⟩ :=
    (clear_yields (close_eq (Or.inl hw.writer_eq)) hup hstands hleads).exists_ok
      fun s' hs' => Regime.not_down_of_reliable s'.device hs'.1
  exact ⟨s', hclear, hafter⟩

/-- The number of the next batch is found in the file. -/
theorem exists_reopen_ok {rest : Bytes} (hup : (Regime.reliable locks time).Up s.device)
    (hw : Written place inode start (header ++ rest) [] s) :
    ∃ s', reopen s = .ok ⟨⟩ s' ∧ (Regime.reliable locks time).Up s'.device ∧
      s'.value.nextSeq = seqAfter (JournalEntry.scan rest) ∧
      Written place inode start (header ++ rest) [] s' := by
  have hclose := close_eq (Or.inl hw.writer_eq)
  have hlead := hleads hw.file.touched
  rw [← hw.path_eq] at hlead
  obtain ⟨journal, device, hopen, hup', hdisk, hjournal⟩ := (openAt_yields hup hlead hw.file.entry
    hw.file.contents_eq).exists_ok fun d hd => Regime.not_down_of_reliable d hd.1
  have honDevice : (Hosted.onDevice (openAt s.value.path) : Action Journal)
      { s with value := { s.value with writer := none } } =
        .ok journal ⟨device, { s.value with writer := none }⟩ := by
    rw [Hosted.onDevice, hopen]
  subst hjournal
  refine ⟨⟨device, ⟨s.value.path, seqAfter (JournalEntry.scan rest), some ⟨inode, []⟩⟩⟩, ?_, hup', rfl,
    hdisk ▸ hw.file, hw.path_eq, rfl⟩
  rw [Journal.reopen, bind_of_ok hclose, get_bind, bind_of_ok honDevice]
  rfl

end Reliable

/-- A journal that keeps a ledger, on a device that does all that it is told. -/
structure Keeps (place : Location) (inode : Nat) (start : Hosted Journal) (l : Ledger)
    (s : Hosted Journal) : Prop where
  up : (Regime.reliable start.device.locks l.time).Up s.device
  nextSeq_eq : s.value.nextSeq = l.logged.length + 1
  entries : ∃ es, Whole place inode start es s ∧ announcements es = l.logged ∧
    ∀ seq, seq ∈ resolved es ↔ seq ∈ l.settled

namespace Keeps

/-- Logging a batch succeeds and enters it in the ledger. -/
theorem log {batch : ChangeSet} (h : Keeps place inode start l s) (hread : (l.entry batch).Readable) :
    ∃ s', Journal.log batch s = .ok (l.logged.length + 1) s' ∧
      Keeps place inode start (l.next (.log batch)) s' := by
  obtain ⟨es, hes, hlogged, hsettled⟩ := h.entries
  obtain ⟨s', hlog, hup, hnext, -⟩ := exists_log_ok batch h.up hes.written
  have hentry : (⟨s.value.nextSeq, .pending, some batch, s.device.time⟩ : JournalEntry) =
      l.entry batch := by
    rw [h.nextSeq_eq, h.up.time_eq]
    rfl
  have hwhole := (hes.log (hentry ▸ hread) hlog).1
  rw [hentry] at hwhole
  refine ⟨s', h.nextSeq_eq ▸ hlog, hup, ?_, _, hwhole, ?_, fun seq => ?_⟩
  · rw [hnext, h.nextSeq_eq, Ledger.next, List.length_append, List.length_singleton]
  · rw [JournalEntry.announcements_concat es rfl, hlogged]
    rfl
  · rw [JournalEntry.resolved_concat es rfl]
    exact hsettled seq

/-- Marking a logged batch succeeds and settles it in the ledger. -/
theorem mark {seq : Nat} {status : JournalStatus} (h : Keeps place inode start l s) (hl : l.Sound)
    (hstatus : status ≠ .pending) (hseq : seq ∈ l.logged.map JournalEntry.seq) :
    ∃ s', Journal.mark seq status s = .ok ⟨⟩ s' ∧
      Keeps place inode start { l with settled := l.settled ++ [seq] } s' := by
  obtain ⟨es, hes, hlogged, hsettled⟩ := h.entries
  obtain ⟨s', hmark, hup, hnext, -⟩ := exists_mark_ok seq status h.up hes.written
  have hlt : seq < s.value.nextSeq := by
    rw [h.nextSeq_eq]
    exact Nat.lt_succ_of_le (hl.mem_seqs.1 hseq).2
  -- its announcement was read, so the number has 64 bits
  have hmax : seq ≤ maxUInt64 := by
    rw [← hlogged] at hseq
    obtain ⟨e, he, rfl⟩ := List.mem_map.1 hseq
    exact (hes.readable e (JournalEntry.mem_announcements.1 he).1).fits.seq
  have htime : s.device.time ≤ maxUInt64 := h.up.time_eq ▸ hl.time_le
  have hwhole := (hes.mark hstatus hlt hmax htime hmark).1
  refine ⟨s', hmark, hup, hnext.trans h.nextSeq_eq, _, hwhole, ?_, fun other => ?_⟩
  · rw [JournalEntry.announcements_concat_mark es hstatus, hlogged]
  · rw [JournalEntry.resolved_concat_mark es hstatus, List.mem_append, List.mem_append, hsettled]

/-- Time passes in the ledger as on the device. -/
theorem wait (h : Keeps place inode start l s) (time : Nat) :
    Keeps place inode start { l with time } { s with device := { s.device with time } } := by
  obtain ⟨es, hes, hentries⟩ := h.entries
  exact ⟨⟨h.up.locks_eq, rfl, h.up.isUp⟩, h.nextSeq_eq, es,
    ⟨hes.written.of_eq rfl rfl, hes.readable, hes.numbered, hes.seq_lt⟩, hentries⟩

section Placed

variable (hleads : ∀ {d}, Disk.Touched (· = place) start.device.disk d → d.Leads start.value.path place)

include hleads

/-- Clearing succeeds and empties the ledger. -/
theorem clear (h : Keeps place inode start l s) : ∃ s', Journal.clear s = .ok ⟨⟩ s' ∧
    Keeps place inode start (l.next .clear) s' := by
  obtain ⟨es, hes, -⟩ := h.entries
  obtain ⟨s', hclear, hup, hnext, -⟩ := exists_clear_ok hleads h.up hes.written
  exact ⟨s', hclear, hup, hnext, [], whole_of_clear hleads hes.written hclear, rfl, fun _ => Iff.rfl⟩

/-- Closing and opening again keeps the ledger. -/
theorem closeAndOpen (h : Keeps place inode start l s) (hl : l.Sound) :
    ∃ s', Journal.reopen s = .ok ⟨⟩ s' ∧ Keeps place inode start l s' := by
  obtain ⟨es, hes, hlogged, hsettled⟩ := h.entries
  obtain ⟨s', hreopen, hup, hnext, hw⟩ := exists_reopen_ok hleads h.up hes.written
  rw [JournalEntry.scan_flatMap hes.readable] at hnext
  refine ⟨s', hreopen, hup, ?_, es,
    ⟨hw, hes.readable, hes.numbered, fun e he => hnext ▸ lt_seqAfter he⟩, hlogged, hsettled⟩
  rw [hnext]
  refine seqAfter_eq (fun e he => ?_) ?_
  · have hlt := hes.seq_lt e he
    rw [h.nextSeq_eq] at hlt
    exact Nat.le_of_lt_succ hlt
  · rcases Nat.eq_zero_or_pos l.logged.length with hnone | hsome
    · exact Or.inl hnone
    · obtain ⟨e, he, hseq⟩ := List.mem_map.1 (hl.mem_seqs.2 ⟨hsome, Nat.le_refl _⟩)
      rw [← hlogged] at he
      exact Or.inr ⟨e, (JournalEntry.mem_announcements.1 he).1, hseq⟩

/-- A call that may be made succeeds, and answers what the ledger says. -/
theorem step (h : Keeps place inode start l s) (hl : l.Sound) {call : Call} (hcall : l.Admits call) :
    ∃ s', call.run s = .ok (l.answer call) s' ∧ Keeps place inode start (l.next call) s' := by
  cases call with
  | log batch =>
    obtain ⟨s', hrun, h'⟩ := h.log hcall
    exact ⟨s', by rw [Call.run, bind_of_ok hrun]; rfl, h'⟩
  | commit seq =>
    have hstatus : JournalStatus.committed ≠ .pending := by decide
    obtain ⟨s', hrun, h'⟩ := h.mark hl hstatus hcall
    exact ⟨s', by rw [Call.run, commit, bind_of_ok hrun]; rfl, h'⟩
  | rollBack seq =>
    have hstatus : JournalStatus.rolledBack ≠ .pending := by decide
    obtain ⟨s', hrun, h'⟩ := h.mark hl hstatus hcall
    exact ⟨s', by rw [Call.run, rollBack, bind_of_ok hrun]; rfl, h'⟩
  | clear =>
    obtain ⟨s', hrun, h'⟩ := h.clear hleads
    exact ⟨s', by rw [Call.run, bind_of_ok hrun]; rfl, h'⟩
  | reopen =>
    obtain ⟨s', hrun, h'⟩ := h.closeAndOpen hleads hl
    exact ⟨s', by rw [Call.run, bind_of_ok hrun]; rfl, h'⟩
  | wait time => exact ⟨_, rfl, h.wait time⟩

/-- Calls that may be made succeed, whatever came before them. -/
theorem run (h : Keeps place inode start l s) (hl : l.Sound) {calls : List Call}
    (hcalls : l.AdmitsAll calls) : ∃ s', calls.mapM Call.run s = .ok (l.answers calls) s' ∧
      Keeps place inode start (l.after calls) s' ∧ (l.after calls).Sound := by
  induction calls generalizing l s with
  | nil => exact ⟨s, rfl, h, hl⟩
  | cons call rest ih =>
    obtain ⟨mid, hrun, hmid⟩ := h.step hleads hl hcalls.1
    obtain ⟨s', hrest, h', hl'⟩ := ih hmid (hl.next hcalls.1) hcalls.2
    refine ⟨s', ?_, h', hl'⟩
    rw [List.mapM_cons, bind_of_ok hrun, bind_of_ok hrest]
    rfl

/-- A journal tells the batches that are not settled. -/
theorem pendingEntries_eq (h : Keeps place inode start l s) :
    pendingEntries s = .ok l.pending s := by
  obtain ⟨es, hes, hlogged, hsettled⟩ := h.entries
  rw [hes.pendingEntries_eq hleads, JournalEntry.pending_of_numbered hes.numbered, hlogged, Ledger.pending]
  simp only [hsettled]

end Placed

end Keeps

/-! ## New journals -/

/-- A journal that was just made keeps the ledger without entries. -/
theorem exists_keeps_new {device : Device} {path : Path} (hsound : device.disk.Sound)
    (hnew : device.disk.occupant? place = none) (hplan : device.plan = fun _ _ => none)
    (hleads : ∀ {d}, Disk.Touched (· = place) device.disk d → d.Leads path place) :
    ∃ (start s : Hosted Journal) (inode : Nat), openAt path device = .ok s.value s.device ∧
      start.device = device ∧ start.value.path = path ∧ Keeps place inode start (.new device.time) s := by
  have hup : (Regime.reliable device.locks device.time).Up device := ⟨rfl, rfl, hplan⟩
  obtain ⟨journal, device', hopen, hup', inode, hfile, hjournal⟩ :=
    (openAt_new_yields hup hsound hnew hleads).exists_ok fun d => Regime.not_down_of_reliable d
  refine ⟨⟨device, journal⟩, ⟨device', journal⟩, inode, hopen, rfl, by rw [hjournal], hup',
    by rw [hjournal]; rfl, [], ⟨⟨?_, rfl, by rw [hjournal]⟩, ?_, JournalEntry.numbered_nil, ?_⟩, rfl,
    fun _ => Iff.rfl⟩
  · rw [List.flatMap_nil, List.append_nil]
    exact hfile
  · exact List.forall_mem_nil _
  · exact List.forall_mem_nil _

/-- **A new journal answers as its ledger says and tells the batches that are not settled**, in the order
of their numbers, after any calls that may be made. A number that it answers is larger than all since it
was last emptied, and the first one then is 1. It needs as many calls as it is large, so numbers of 64 bits
are not used up before. -/
theorem pendingEntries_of_calls {device : Device} {above : Path} {base : Location} {name : String}
    (hsound : device.disk.Sound) (habove : device.disk.Anchored above base)
    (hname : Path.Plain name) (hcheck : (above ++ [name]).check = .ok ())
    (hnew : device.disk.occupant? (name :: base) = none) (hplan : device.plan = fun _ _ => none)
    (htime : device.time ≤ maxUInt64) :
    ∃ first : Hosted Journal, openAt (above ++ [name]) device = .ok first.value first.device ∧
      ∀ calls, (Ledger.new device.time).AdmitsAll calls →
        let l := (Ledger.new device.time).after calls
        ∃ s, calls.mapM Call.run first = .ok ((Ledger.new device.time).answers calls) s ∧
          pendingEntries s = .ok l.pending s ∧
          l.pending.Pairwise (fun a b => a.seq < b.seq) ∧
          ∀ batch seq s', log batch s = .ok seq s' →
            (∀ e ∈ l.logged, e.seq < seq) ∧ (l.logged = [] → seq = 1) ∧ seq ≤ calls.length + 1 := by
  have hleads : ∀ {d}, Disk.Touched (· = name :: base) device.disk d →
      d.Leads (above ++ [name]) (name :: base) :=
    fun ht => (habove.kept ht.folder).leads_name hname hcheck
  obtain ⟨start, first, inode, hopen, rfl, hpath, hfirst⟩ := exists_keeps_new hsound hnew hplan hleads
  rw [← hpath] at hleads
  refine ⟨first, hopen, fun calls hcalls => ?_⟩
  obtain ⟨s, hrun, hs, hl⟩ := hfirst.run hleads (Ledger.sound_new htime) hcalls
  refine ⟨s, hrun, hs.pendingEntries_eq hleads, hl.pairwise.filter _, fun batch seq s' hlog => ?_⟩
  obtain ⟨es, hes, -⟩ := hs.entries
  have hyields := log_yields batch hs.up hes.written
  rw [hlog] at hyields
  have hseq : seq = _ := hyields.1.trans hs.nextSeq_eq
  rw [hseq]
  refine ⟨fun e he => Nat.lt_succ_of_le (hl.seq_le he), fun hnone => by rw [hnone]; rfl, ?_⟩
  have hle := Ledger.length_logged_after_le (.new start.device.time) calls
  rw [show (Ledger.new start.device.time).logged.length = 0 from rfl, Nat.zero_add] at hle
  exact Nat.succ_le_succ hle

/-- Three batches are logged, and the last and the first of them are settled. Then the journal is opened
again, and later another batch is logged. -/
def settledOutOfOrder : List Call :=
  [.log ∅, .log ∅, .log ∅, .commit 3, .rollBack 1, .reopen, .wait 5, .log ∅]

/-- Then it is emptied, used and opened once more. -/
def emptiedThen : List Call :=
  settledOutOfOrder ++ [Call.clear, .log ∅, .reopen]

/-- The calls of the example are admitted. -/
theorem admitsAll_emptiedThen : (Ledger.new 0).AdmitsAll emptiedThen := by
  have hreadable (seq : Nat) {time : Nat} (hseq : seq ≤ maxUInt64) (htime : time ≤ maxUInt64) :
      Readable ⟨seq, .pending, some ∅, time⟩ := JournalEntry.readable_announcement_empty hseq htime
  have hzero : 0 ≤ maxUInt64 := by decide
  have hfive : 5 ≤ maxUInt64 := by decide
  refine ⟨hreadable 1 (by decide) hzero, hreadable 2 (by decide) hzero, hreadable 3 (by decide) hzero,
    ?_, ?_, trivial, hfive, hreadable 4 (by decide) hfive, trivial, hreadable 1 (by decide) hfive,
    trivial, trivial⟩
  · show 3 ∈ [1, 2, 3]
    decide
  · show 1 ∈ [1, 2, 3]
    decide

/-- What is settled in any order is not told, and emptying begins anew. -/
theorem pendingEntries_of_settledOutOfOrder : ∃ first : Hosted Journal,
    openAt ["journal"] (.reliable ∅ 0) = .ok first.value first.device ∧
    (∃ s, settledOutOfOrder.mapM Call.run first =
        .ok [some 1, some 2, some 3, none, none, none, none, some 4] s ∧
      pendingEntries s = .ok [⟨2, .pending, some ∅, 0⟩, ⟨4, .pending, some ∅, 5⟩] s) ∧
    ∃ s, emptiedThen.mapM Call.run first =
        .ok [some 1, some 2, some 3, none, none, none, none, some 4, none, some 1, none] s ∧
      pendingEntries s = .ok [⟨1, .pending, some ∅, 5⟩] s := by
  have hsound : (Device.reliable ∅ 0).disk.Sound := Disk.sound_empty
  have habove : (Device.reliable ∅ 0).disk.Anchored [] [] := ⟨rfl, rfl⟩
  obtain ⟨first, hopen, hcalls⟩ := pendingEntries_of_calls hsound habove plain_journal
    (by decide +kernel) rfl rfl (by decide)
  obtain ⟨s, hrun, hpending, -⟩ := hcalls settledOutOfOrder admitsAll_emptiedThen.of_append
  obtain ⟨s', hrun', hpending', -⟩ := hcalls emptiedThen admitsAll_emptiedThen
  exact ⟨first, hopen, ⟨s, hrun, hpending⟩, s', hrun', hpending'⟩

end ContentTree.Journal
