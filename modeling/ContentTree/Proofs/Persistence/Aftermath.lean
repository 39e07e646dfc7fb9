import ContentTree.Proofs.Persistence.Attempts

/-!
# Batches that failed, and opening again

The journal tells what became of every batch since it was opened or last empty (`Noted`), so of these it
leaves pending only such as were neither put in place nor undone. Whatever fails, a workspace opens again as
long as emptying its journal goes well, and answers as before for all that no pending batch is about
(`Attempted.reopen`). A batch that failed and could not be undone stays pending, though, and is applied
when the workspace is opened (`reopen_applies_failed`).
-/

namespace ContentTree

/-! ## Entries up to one that is too long -/

/-- Where a list is cut behind its first part that is accepted, what stands behind a member that it keeps
is kept too if it is accepted. -/
theorem mem_takeWhile_of_next {α : Type} {p : α → Bool} {before after : List α} {a b : α}
    (h : a ∈ (before ++ a :: b :: after).takeWhile p) (hfirst : a ∉ before) (hb : p b) :
    b ∈ (before ++ a :: b :: after).takeWhile p := by
  rw [List.takeWhile_append] at h ⊢
  split at h
  · next hall =>
    rw [if_pos hall]
    have ha := (List.mem_append.1 h).resolve_left hfirst
    refine List.mem_append_right _ ?_
    rw [List.takeWhile_cons] at ha ⊢
    split at ha
    · next hpa =>
      rw [if_pos hpa, List.takeWhile_cons, if_pos hb]
      exact List.mem_cons_of_mem a (List.mem_cons_self ..)
    · exact absurd ha List.not_mem_nil
  · exact absurd ((List.takeWhile_prefix p).subset h) hfirst

namespace FileStore

open JournalEntry (IsMark Numbered Recordable announcements)

variable {w : Site} {time first next : Nat} {s : Hosted FileStore} {files : Path → Option Bytes}
  {base log buffered : Bytes} {attempts : List Attempt} {old flushed late : List JournalEntry}
  {config : FileConfig}

/-! ## What the journal tells of batches -/

/-- The entries of a journal tell of these batches: all of them are announced, in their order, and those
that are settled have a mark directly behind. The entries in `late` need not be in the file yet. The
numbers go from `first` to `next`. -/
structure Noted (attempts : List Attempt) (flushed late : List JournalEntry) (first next : Nat) : Prop where
  announced : announcements (flushed ++ late) = attempts.map Attempt.entry
  numbered : Numbered (flushed ++ late)
  first_le_seq : ∀ e ∈ flushed ++ late, first ≤ e.seq
  seq_lt : ∀ e ∈ flushed ++ late, e.seq < next
  first_le_next : first ≤ next
  recordable : ∀ e ∈ flushed ++ late, e.Recordable
  settled : ∀ a ∈ attempts, a.fate.isSettled → ∃ before m after,
    flushed = before ++ a.entry :: m :: after ∧ m.status ≠ .pending ∧ m.seq = a.seq ∧ m.Bounded

namespace Noted

/-- Nothing is recorded and nothing is announced. -/
theorem nil (next : Nat) : Noted [] [] [] next next where
  announced := rfl
  numbered := JournalEntry.numbered_nil
  first_le_seq := List.forall_mem_nil _
  seq_lt := List.forall_mem_nil _
  first_le_next := Nat.le_refl _
  recordable := List.forall_mem_nil _
  settled := List.forall_mem_nil _

/-- One more batch, announced behind all entries, with its marks behind it. -/
theorem concat {a : Attempt} {marks flushed' late' : List JournalEntry}
    (h : Noted attempts flushed late first a.seq) (ha : a.entry.Recordable)
    (hmarks : ∀ m ∈ marks, IsMark a.seq a.time m)
    (hall : flushed' ++ late' = flushed ++ late ++ a.entry :: marks) (hgrown : flushed <+: flushed')
    (hsettled : a.fate.isSettled → ∃ m after, flushed' = flushed ++ late ++ a.entry :: m :: after) :
    Noted (attempts ++ [a]) flushed' late' first (a.seq + 1) := by
  have hmore : announcements (a.entry :: marks) = [a.entry] := by
    rw [announcements, List.filter_cons_of_pos (by rfl)]
    exact congrArg (a.entry :: ·) (IsMark.announcements_eq_nil hmarks)
  have hannounced : announcements (flushed' ++ late') = (attempts ++ [a]).map Attempt.entry := by
    rw [hall, announcements, List.filter_append, List.map_append, ← h.announced]
    exact congrArg (announcements (flushed ++ late) ++ ·) hmore
  have hreadable : ∀ m ∈ marks, m.Readable := fun m hm =>
    (hmarks m hm).readable ha.fits.seq ha.fits.timestamp
  have hseq : ∀ e ∈ a.entry :: marks, e.seq = a.seq :=
    List.forall_mem_cons.2 ⟨rfl, fun m hm => (hmarks m hm).seq_eq⟩
  refine
    { announced := hannounced
      numbered := ?_
      first_le_seq := ?_
      seq_lt := ?_
      first_le_next := Nat.le_succ_of_le h.first_le_next
      recordable := ?_
      settled := ?_ }
  · rw [Numbered, hannounced, List.map_append, ← h.announced, List.pairwise_append]
    refine ⟨h.numbered, List.pairwise_singleton _ _, fun e he e' he' => ?_⟩
    rw [List.mem_singleton.1 he']
    exact h.seq_lt e (JournalEntry.mem_announcements.1 he).1
  · rw [hall]
    exact List.forall_mem_append.2 ⟨h.first_le_seq, fun e he => (hseq e he).symm ▸ h.first_le_next⟩
  · rw [hall]
    exact List.forall_mem_append.2 ⟨fun e he => Nat.lt_succ_of_lt (h.seq_lt e he),
      fun e he => (hseq e he).symm ▸ Nat.lt_succ_self _⟩
  · rw [hall]
    exact List.forall_mem_append.2 ⟨h.recordable, List.forall_mem_cons.2
      ⟨ha, fun m hm => (hreadable m hm).recordable⟩⟩
  · refine List.forall_mem_append.2 ⟨fun a' ha' hs => ?_, List.forall_mem_singleton.2 fun hs => ?_⟩
    · obtain ⟨before, m, after, rfl, hm⟩ := h.settled a' ha' hs
      obtain ⟨more, rfl⟩ := hgrown
      exact ⟨before, m, after ++ more, by simp only [List.append_assoc, List.cons_append], hm⟩
    · obtain ⟨m, after, rfl⟩ := hsettled hs
      -- the entry behind is one of the marks
      have hmem : m ∈ marks := by
        rw [List.append_assoc, List.append_cancel_left_eq, List.cons_append, List.cons_inj_right] at hall
        rw [← hall]
        exact List.mem_cons_self ..
      exact ⟨_, m, after, rfl, (hmarks m hmem).status_ne, (hmarks m hmem).seq_eq,
        (hreadable m hmem).length_le⟩

/-- A settled batch is not announced twice. -/
theorem entry_not_mem {a : Attempt} {before after : List JournalEntry}
    (h : Noted attempts (before ++ a.entry :: after) late first next) : a.entry ∉ before := by
  intro hmem
  have hnumbered := h.numbered
  rw [List.append_assoc, List.cons_append, Numbered, announcements, List.filter_append,
    List.filter_cons_of_pos (by rfl), List.pairwise_append] at hnumbered
  have hlt := hnumbered.2.2 a.entry (JournalEntry.mem_announcements.2 ⟨hmem, rfl⟩) a.entry
    (List.mem_cons_self ..)
  exact Nat.lt_irrefl _ hlt

/-- Wherever the journal is cut off behind what is in its file, it leaves pending only batches that were
not settled. -/
theorem pending_sublist {front : List JournalEntry} (h : Noted attempts flushed late first next)
    (hfront : front <+: late) :
    (JournalEntry.pending ((flushed ++ front).takeWhile (·.Bounded))).Sublist
      ((attempts.filter fun a => !a.fate.isSettled).map Attempt.entry) := by
  have hkept : (flushed ++ front).takeWhile (·.Bounded) <+: flushed ++ late :=
    (List.takeWhile_prefix _).trans ((List.prefix_append_right_inj flushed).2 hfront)
  have hnumbered : Numbered ((flushed ++ front).takeWhile (·.Bounded)) := by
    rw [List.prefix_iff_eq_take.1 hkept]
    exact h.numbered.take _
  have hsome : (JournalEntry.pending ((flushed ++ front).takeWhile (·.Bounded))).Sublist
      (attempts.map Attempt.entry) := by
    rw [JournalEntry.pending_of_numbered hnumbered, ← h.announced]
    exact List.filter_sublist.trans (hkept.sublist.filter _)
  obtain ⟨left, hleft, hpending⟩ := List.sublist_map_iff.1 hsome
  -- a settled attempt left its mark behind its announcement, where replay sees it
  have hopen : ∀ a ∈ left, !a.fate.isSettled := by
    intro a ha
    by_contra hsettled
    have hmem : a.entry ∈ JournalEntry.pending ((flushed ++ front).takeWhile (·.Bounded)) :=
      hpending ▸ List.mem_map_of_mem ha
    have hunresolved := (JournalEntry.mem_pending hnumbered).1 hmem
    obtain ⟨before, m, after, rfl, hmark, hseq, hbounded⟩ :=
      h.settled a (hleft.subset ha) (by simpa using hsettled)
    have hboth := hunresolved.mem
    rw [List.append_assoc, List.cons_append, List.cons_append] at hboth
    have hm := mem_takeWhile_of_next hboth h.entry_not_mem (decide_eq_true hbounded)
    rw [← List.cons_append, ← List.cons_append, ← List.append_assoc] at hm
    exact hmark (hunresolved.unmarked m hm hseq)
  rw [hpending, ← List.filter_eq_self.2 hopen]
  exact (hleft.filter _).map _

end Noted

/-- No entry of these batches is there in part only, and each can be told by its octets. -/
def Legible (attempts : List Attempt) : Prop :=
  ∀ a ∈ attempts, a.fate ≠ .torn ∧ a.entry.Recordable

/-- A legible run is legible as far as it had come earlier. -/
theorem Legible.of_append {more : List Attempt} (h : Legible (attempts ++ more)) : Legible attempts :=
  fun a ha => h a (List.mem_append_left _ ha)

/-- In a legible run the last attempt was not torn, and its entry can be recorded. -/
theorem Legible.of_concat {a : Attempt} (h : Legible (attempts ++ [a])) :
    a.fate ≠ .torn ∧ a.entry.Recordable :=
  h a (List.mem_append_right _ (List.mem_singleton.2 rfl))

/-- The octets in a journal and those that wait are these entries behind the octets `base`. Those in
`flushed` are in the file. -/
structure Laid (base log buffered : Bytes) (flushed late : List JournalEntry) : Prop where
  flushed_prefix : base ++ flushed.flatMap JournalEntry.write <+: log
  all : log ++ buffered = base ++ (flushed ++ late).flatMap JournalEntry.write

namespace Laid

variable {now waiting : Bytes} {e : JournalEntry}

/-- Writing an entry behind the late ones appends it to the log. -/
theorem append_entry (h : Laid base log buffered flushed late) (e : JournalEntry) :
    log ++ buffered ++ e.write = base ++ (flushed ++ late ++ [e]).flatMap JournalEntry.write := by
  rw [h.all, List.append_assoc, ← List.flatMap_singleton JournalEntry.write e, ← List.flatMap_append]

/-- An entry was written, with its marks behind it. -/
theorem announced {done late' : List JournalEntry} (h : Laid base log buffered flushed late)
    (hgrown : log ++ buffered ++ e.write ++ done.flatMap JournalEntry.write <+: now)
    (hall : now ++ waiting =
      log ++ buffered ++ e.write ++ (done ++ late').flatMap JournalEntry.write) :
    Laid base now waiting (flushed ++ late ++ e :: done) late' := by
  rw [h.append_entry, List.append_assoc, ← List.flatMap_append] at hgrown hall
  rw [List.append_cons]
  refine ⟨hgrown, ?_⟩
  rw [List.append_assoc _ done late']
  exact hall

/-- An entry waits behind the other ones. -/
theorem hanging (h : Laid base log buffered flushed late) (hgrown : log <+: now)
    (hall : now ++ waiting = log ++ buffered ++ e.write) :
    Laid base now waiting flushed (late ++ [e]) := by
  rw [h.append_entry, List.append_assoc flushed] at hall
  exact ⟨h.flushed_prefix.trans hgrown, hall⟩

end Laid

/-- Entries that an earlier opening has read: none of their batches is pending, and their numbers are below
`first`. -/
structure Bygone (old : List JournalEntry) (first : Nat) : Prop where
  readable : ∀ e ∈ old, e.Readable
  pending_eq : JournalEntry.pending old = []
  seq_lt : ∀ e ∈ old, e.seq < first

/-- No entries are bygone. -/
theorem Bygone.nil (first : Nat) : Bygone [] first :=
  ⟨List.forall_mem_nil _, JournalEntry.pending_nil, List.forall_mem_nil _⟩

/-- A journal tells of these batches behind bygone entries, if its entries can be told. -/
def Telling (attempts : List Attempt) (next : Nat) (log buffered : Bytes) : Prop :=
  Legible attempts → ∃ old first flushed late, Bygone old first ∧ Noted attempts flushed late first next ∧
    Laid (Journal.header ++ old.flatMap JournalEntry.write) log buffered flushed late

/-- An open workspace whose journal tells of these batches. -/
structure Chronicled (w : Site) (time : Nat) (attempts : List Attempt) (s : Hosted FileStore) : Prop where
  up : (Regime.free [w.lock] time).Up s.device
  journal : ∃ files log buffered, Journal.header <+: log ∧ Waiting w files log buffered s ∧
    Telling attempts s.value.journal.nextSeq log buffered

namespace Chronicled

/-- The files of a chronicled run are kept at the same time. -/
theorem kept (h : Chronicled w time attempts s) : Kept w time s := by
  obtain ⟨files, log, buffered, hheader, hw, -⟩ := h.journal
  exact .of_waiting h.up hheader hw

/-- A journal with a bygone part only tells of no batch. -/
theorem of_bygone (hup : (Regime.free [w.lock] time).Up s.device) (hw : Waiting w files log [] s)
    (hold : Bygone old s.value.journal.nextSeq)
    (hlog : log = Journal.header ++ old.flatMap JournalEntry.write) : Chronicled w time [] s where
  up := hup
  journal := by
    subst hlog
    refine ⟨files, _, [], List.prefix_append _ _, hw, fun _ => ⟨old, _, [], [], hold, Noted.nil _, ?_, ?_⟩⟩
    · simp only [List.flatMap_nil, List.append_nil, List.prefix_refl]
    · simp only [List.flatMap_nil, List.append_nil]

/-- An empty journal tells of no batch. -/
theorem of_empty (hup : (Regime.free [w.lock] time).Up s.device) (hheader : Journal.header <+: log)
    (hw : Waiting w files log buffered s) (hempty : journalled s = Journal.header) :
    Chronicled w time [] s := by
  rw [hw.journalled_eq] at hempty
  obtain ⟨rest, rfl⟩ := hheader
  rw [List.append_assoc, List.append_right_eq_self, List.append_eq_nil_iff] at hempty
  obtain ⟨rfl, rfl⟩ := hempty
  exact of_bygone hup hw (Bygone.nil _) rfl

/-- A batch that is announced comes to those that the journal tells of, whatever becomes of it then. -/
theorem of_announced {batch : ChangeSet} {fate : Fate} {s' : Hosted FileStore}
    (hheader : Journal.header <+: log)
    (htelling : Telling attempts s.value.journal.nextSeq log buffered)
    (hresult : FileStore.attempt batch s = .ok fate s')
    (hnext : s'.value.journal.nextSeq = s.value.journal.nextSeq + 1)
    (hup : (Regime.free [w.lock] s.device.time).Up s'.device) {done late' : List JournalEntry}
    (hsettled : fate.isSettled → done ≠ [])
    (hmarked : Marked w s.value.journal.nextSeq s.device.time
      (log ++ buffered ++ (Attempt.now batch s).entry.write) done late' s') :
    Chronicled w s.device.time (attempts ++ [.now batch s]) s' := by
  have hfate : (Attempt.now batch s).fate = fate := by
    show fateOf batch s = fate
    rw [fateOf, hresult]
  obtain ⟨files', now, waiting, hgrown, hall, hw'⟩ := hmarked.queued
  have hlog : log <+: now := by
    have hbase := hgrown
    rw [List.append_assoc, List.append_assoc] at hbase
    exact (List.prefix_append _ _).trans hbase
  refine ⟨hup, files', now, waiting, hheader.trans hlog, hw', fun hlegible => ?_⟩
  obtain ⟨old, first, flushed, late, hold, hnoted, hlaid⟩ := htelling hlegible.of_append
  refine ⟨old, first, flushed ++ late ++ (Attempt.now batch s).entry :: done, late', hold, ?_,
    hlaid.announced hgrown hall⟩
  rw [hnext]
  refine Noted.concat hnoted hlegible.of_concat.2 hmarked.marks ?_ ?_ fun hs => ?_
  · rw [List.append_assoc _ _ late', List.cons_append]
  · rw [List.append_assoc]
    exact List.prefix_append _ _
  · obtain ⟨m, after, rfl⟩ := List.exists_cons_of_ne_nil (hsettled (hfate ▸ hs))
    exact ⟨m, after, rfl⟩

/-- A batch that could not be announced comes to those that the journal tells of if its entry hangs. -/
theorem of_hanging {batch : ChangeSet} {e : Error} {s' : Hosted FileStore}
    (hheader : Journal.header <+: log) (hw : Waiting w files log buffered s)
    (htelling : Telling attempts s.value.journal.nextSeq log buffered)
    (hresult : FileStore.attempt batch s = .error e s')
    (hnext : s'.value.journal.nextSeq = s.value.journal.nextSeq + 1)
    (hup : (Regime.free [w.lock] s.device.time).Up s'.device) {total : Bytes}
    (htorn : Torn w files log total s') :
    Chronicled w s.device.time (attempts ++ [.now batch s]) s' := by
  obtain ⟨now, waiting, hlog, -, hw'⟩ := htorn
  have hfate : (Attempt.now batch s).fate =
      if journalled s' = journalled s ++ (Attempt.now batch s).entry.write then .hanging else .torn := by
    show fateOf batch s = _
    rw [fateOf, hresult]
    rfl
  refine ⟨hup, files, now, waiting, hheader.trans hlog, hw', fun hlegible => ?_⟩
  obtain ⟨old, first, flushed, late, hold, hnoted, hlaid⟩ := htelling hlegible.of_append
  have hwhole : journalled s' = journalled s ++ (Attempt.now batch s).entry.write := by
    by_contra hpart
    rw [if_neg hpart] at hfate
    exact hlegible.of_concat.1 hfate
  rw [if_pos hwhole] at hfate
  rw [hw'.journalled_eq, hw.journalled_eq] at hwhole
  refine ⟨old, first, flushed, late ++ [(Attempt.now batch s).entry], hold, ?_, hlaid.hanging hlog hwhole⟩
  rw [hnext]
  refine Noted.concat hnoted hlegible.of_concat.2 (List.forall_mem_nil _)
    (List.append_assoc _ _ _).symm (List.prefix_refl _) fun hs => ?_
  rw [hfate] at hs
  cases hs

/-- What is done before a store comes to empty the journal adds the batch to those it tells of. -/
theorem attempt (h : Chronicled w time attempts s) (batch : ChangeSet) :
    Chronicled w time (attempts ++ [.now batch s]) (stateAfter (FileStore.attempt batch) s) := by
  obtain ⟨files, log, buffered, hheader, hw, htelling⟩ := h.journal
  obtain rfl : s.device.time = time := h.up.time_eq
  have hnext := nextSeq_attempt batch hw
  have hyields := attempt_yields batch h.up hw
  cases hresult : FileStore.attempt batch s with
  | ok fate s' =>
    rw [hresult] at hyields
    rw [stateAfter_of_ok hresult] at hnext ⊢
    obtain ⟨hup, done, late', hsettled, hmarked⟩ := hyields
    exact of_announced hheader htelling hresult hnext hup (fun hs => (hsettled hs).1) hmarked
  | error e s' =>
    rw [hresult] at hyields
    rw [stateAfter_of_error hresult] at hnext ⊢
    obtain ⟨hup, htorn⟩ := hyields
    exact of_hanging hheader hw htelling hresult hnext hup htorn

end Chronicled

/-! ## Emptying the journal -/

end FileStore

/-- Some effect from the clock `start` on is looked for that fails by a plan. -/
def Regime.watching (plan : FaultPlan) (start : Nat) (locks : List Nat) (time : Nat) : Regime where
  locks := locks
  time := time
  up plan' n := plan' = plan ∧ start ≤ n
  down plan' n := plan' = plan ∧ ∃ m effect fault, start ≤ m ∧ m < n ∧ plan m effect = some fault
  fine h _ := ⟨h.1, Nat.le_succ_of_le h.2⟩
  fails h hfault := ⟨h.1, _, _, _, h.2, Nat.lt_succ_self _, h.1 ▸ hfault⟩
  stays h := by
    obtain ⟨hplan, m, effect, fault, hstart, hlt, hfault⟩ := h
    exact ⟨hplan, m, effect, fault, hstart, Nat.lt_succ_of_lt hlt, hfault⟩
  honest := False
  denies h _ _ := ⟨id, h.1, Nat.le_succ_of_le h.2⟩

namespace FileStore

/-- Tidying clears the journal if nothing is pending, and does nothing otherwise. -/
theorem tidy_eq {writer : Option Writer} (h : Serving w files log writer s) :
    tidy s = if (Journal.pendingIn log).isEmpty then onJournal Journal.clear s else .ok () s := by
  rw [tidy, bind_of_ok (hasPending_eq h), Bool.not_not]
  split <;> rfl

/-- Emptying the journal fails only if one of its effects fails. -/
theorem exists_fault_of_tidy {e : Error} {s' : Hosted FileStore} (h : Waiting w files log [] s)
    (hlocks : s.device.locks = [w.lock]) (herror : tidy s = .error e s') :
    ∃ n effect fault, s.device.clock ≤ n ∧ n < s'.device.clock ∧ s.device.plan n effect = some fault := by
  rw [tidy_eq h] at herror
  split at herror
  · have hup : (Regime.watching s.device.plan s.device.clock [w.lock] s.device.time).Up s.device :=
      ⟨hlocks, rfl, rfl, Nat.le_refl _⟩
    have hyields := clear_yields hup h
    rw [herror] at hyields
    exact hyields.1.isDown.2
  · cases herror

/-- No effect fails with which the journal is emptied once the batch is in place. -/
def EmptiesWell (batch : ChangeSet) (s : Hosted FileStore) : Prop :=
  ∀ s', attempt batch s = .ok .stored s' → ∀ n effect, s'.device.clock ≤ n →
    n < (stateAfter tidy s').device.clock → s'.device.plan n effect = none

/-- The batches that a journal tells of after one more was stored. -/
def recorded (attempts : List Attempt) (batch : ChangeSet) (s : Hosted FileStore) : List Attempt :=
  if batch.isEmpty then attempts
  else if journalled (stateAfter (store batch) s) = Journal.header then []
  else attempts ++ [.now batch s]

namespace Chronicled

/-- An empty journal tells of no batch, any other one of those it told of. -/
theorem of_kept (h : Chronicled w time attempts s) :
    Chronicled w time (if journalled s = Journal.header then [] else attempts) s := by
  split
  · next hempty =>
    obtain ⟨files, log, buffered, hheader, hw, -⟩ := h.journal
    exact of_empty h.up hheader hw hempty
  · exact h

/-- Where a batch is in place, the journal is emptied or left as it is. -/
theorem tidy_yields {batch : ChangeSet} {s' : Hosted FileStore} (h : Chronicled w time attempts s)
    (hwell : EmptiesWell batch s) (hresult : FileStore.attempt batch s = .ok .stored s') :
    Yields (fun _ s'' => Chronicled w time (if journalled s'' = Journal.header then []
      else attempts ++ [.now batch s]) s'') (fun _ => False) (tidy s') := by
  have hmade := h.attempt batch
  rw [stateAfter_of_ok hresult] at hmade
  obtain ⟨files, log, buffered, hheader, hw, -⟩ := h.journal
  -- what was written is all in the file
  obtain ⟨files', log', hw'⟩ : ∃ files' log', Waiting w files' log' [] s' := by
    have hyields := attempt_yields batch h.up hw
    rw [hresult] at hyields
    obtain ⟨-, done, late, hsettled, hmarked⟩ := hyields
    obtain ⟨-, rfl⟩ := hsettled rfl
    obtain ⟨files', now, waiting, hgrown, hall, hw'⟩ := hmarked.queued
    rw [List.append_nil] at hall
    rw [← hall] at hgrown
    obtain rfl : waiting = [] := List.append_right_eq_self.1
      (hgrown.eq_of_length_le (by rw [List.length_append]; omega))
    exact ⟨files', now, hw'⟩
  cases htidy : tidy s' with
  | error e s'' =>
    obtain ⟨n, effect, fault, hle, hlt, hfault⟩ := exists_fault_of_tidy hw' hmade.up.locks_eq htidy
    have hnone := hwell s' hresult n effect hle (by rwa [stateAfter_of_error htidy])
    rw [hnone] at hfault
    cases hfault
  | ok u s'' =>
    rw [tidy_eq hw'] at htidy
    split at htidy
    · have hyields := hmade.kept.emptied_yields
      rw [htidy] at hyields
      obtain ⟨hup, -, files'', hw''⟩ := hyields
      have hempty : journalled s'' = Journal.header := by
        rw [hw''.journalled_eq, List.append_nil]
      show Chronicled w time (if journalled s'' = Journal.header then [] else _) s''
      rw [if_pos hempty]
      exact of_empty hup (List.prefix_refl _) hw'' hempty
    · cases htidy
      exact hmade.of_kept

/-- Whatever fails in a store, its journal tells of the batches, if emptying it goes well. -/
theorem store (h : Chronicled w time attempts s) {batch : ChangeSet} (hwell : EmptiesWell batch s) :
    Chronicled w time (recorded attempts batch s) (stateAfter (FileStore.store batch) s) := by
  rw [recorded]
  by_cases hbatch : batch.isEmpty
  · rw [if_pos hbatch, FileStore.store, hbatch]
    exact h
  rw [if_neg hbatch]
  have hends := concludes_attempt (Bool.eq_false_iff.2 hbatch) s
  have hmade := h.attempt batch
  cases hresult : FileStore.attempt batch s with
  | error e s' =>
    rw [hresult] at hends
    obtain ⟨e', hstore⟩ := hends
    rw [stateAfter_of_error hresult] at hmade
    rw [stateAfter_of_error hstore]
    exact hmade.of_kept
  | ok fate s' =>
    rw [hresult] at hends
    by_cases hstored : fate = .stored
    · subst hstored
      obtain ⟨u, s'', htidy, hs''⟩ := (h.tidy_yields hwell hresult).exists_ok fun _ hf => hf
      rw [stateAfter_of_ok (Eq.trans hends htidy)]
      exact hs''
    · -- the batch was undone or left, and the call ends with the first failure
      have hfails : ∃ e, FileStore.store batch s = .error e s' := by
        cases fate <;> first | exact hends | exact absurd rfl hstored
      obtain ⟨e', hstore⟩ := hfails
      rw [stateAfter_of_ok hresult] at hmade
      rw [stateAfter_of_error hstore]
      exact hmade.of_kept

end Chronicled

/-! ## Runs -/

/-- The workspaces that are reached by stores, of which any may fail at any of its effects but those with
which the journal is emptied, with the batches that the journal tells of. -/
inductive Attempted (config : FileConfig) : List Attempt → Hosted FileStore → Prop
  /-- The journal is empty. -/
  | started {s : Hosted FileStore} : Run config s → journalled s = Journal.header → Attempted config [] s
  /-- The workspace was closed and opened again, and all of its journal could be read. -/
  | reopened {s : Hosted FileStore} {old : List JournalEntry} {store : FileStore} {device : Device} :
    Run config s → openAt config (mended (close s)) = .ok store device → (∀ e ∈ old, e.Readable) →
    journalIn (Path.ofFolder config.path) (close s).disk =
      Journal.header ++ old.flatMap JournalEntry.write → Attempted config [] ⟨device, store⟩
  /-- From now on effects fail by some plan, at some time. -/
  | facing {attempts : List Attempt} {s : Hosted FileStore} (plan : FaultPlan) (clock time : Nat) :
    Attempted config attempts s → Attempted config attempts ⟨{ s.device with plan, clock, time }, s.value⟩
  /-- A batch was stored, or was not. -/
  | stored {attempts : List Attempt} {s : Hosted FileStore} (batch : ChangeSet) :
    Attempted config attempts s → EmptiesWell batch s →
    Attempted config (recorded attempts batch s) (stateAfter (backend.store batch) s)

/-- An attempted run is chronicled at some time of some regime. -/
theorem Attempted.chronicled (hroomy : Path.Roomy room (Path.ofFolder config.path))
    (h : Attempted config attempts s) :
    ∃ w time, w.folder = Path.ofFolder config.path ∧ Chronicled w time attempts s := by
  induction h with
  | started hrun hempty =>
    obtain ⟨w, time, hfolder, hk⟩ := hrun.kept hroomy
    obtain ⟨files, log, ⟨buffered, hheader, hw⟩ | ⟨-, hw⟩⟩ := hk.journal
    · exact ⟨w, time, hfolder, .of_empty hk.up hheader hw hempty⟩
    · rw [journalled, hw.writer_eq] at hempty
      cases hempty
  | @reopened s old store device hrun hopen hreadable hold =>
    obtain ⟨w, time, hfolder, hk⟩ := hrun.kept hroomy
    have hcases := hk.openAt_cases hfolder.symm
    rw [hopen, hfolder, hold] at hcases
    obtain ⟨-, hkept, -, files, log, hw, ⟨hnone, rfl, hseq⟩ | rfl⟩ := hcases
    · rw [show (Journal.header ++ old.flatMap JournalEntry.write).drop Journal.headerLength =
        old.flatMap JournalEntry.write from rfl, JournalEntry.scan_flatMap hreadable] at hseq
      rw [Journal.pendingIn_header_append, JournalEntry.scan_flatMap hreadable] at hnone
      refine ⟨w, time, hfolder, .of_bygone hkept.up hw ⟨hreadable, hnone, fun e he => ?_⟩ rfl⟩
      exact hseq ▸ Journal.lt_seqAfter he
    · exact ⟨w, time, hfolder, .of_bygone hkept.up hw (Bygone.nil _) rfl⟩
  | @facing attempts s plan clock later _ ih =>
    obtain ⟨w, time, hfolder, hc⟩ := ih
    obtain ⟨files, log, buffered, hheader, hw, htelling⟩ := hc.journal
    exact ⟨w, later, hfolder, ⟨hc.up.locks_eq, rfl, trivial⟩, files, log, buffered, hheader,
      hw.on_device _ rfl, htelling⟩
  | stored batch _ hwell ih =>
    obtain ⟨w, time, hfolder, hc⟩ := ih
    exact ⟨w, time, hfolder, hc.store hwell⟩

/-! ## Closing and opening -/

/-- A journal that is closed has its whole header, and leaves pending only batches that were not settled. -/
theorem Chronicled.close (h : Chronicled w time attempts s) :
    Journal.headerLength ≤ (journalIn w.folder (FileStore.close s).disk).length ∧
      (Legible attempts → (Journal.pendingIn (journalIn w.folder (FileStore.close s).disk)).Sublist
        ((attempts.filter fun a => !a.fate.isSettled).map Attempt.entry)) := by
  obtain ⟨files, log, buffered, hheader, hw, htelling⟩ := h.journal
  obtain ⟨_, closed, hclose, -, now, hgrown, hpart, hstands⟩ :=
    (Journal.close_yields h.up hw.stands).exists_ok fun _ hf => hf
  have hclosed := hw.close hclose hstands
  rw [hclosed.inOrder.journalIn_eq, show (FileStore.close s).disk.contentsOf w.journal = now from
    hclosed.log_eq]
  refine ⟨?_, fun hlegible => ?_⟩
  · rw [← Journal.length_header]
    exact (hheader.trans hgrown).length_le
  · obtain ⟨old, first, flushed, late, hold, hnoted, hlaid⟩ := htelling hlegible
    obtain ⟨rest, rfl⟩ : Journal.header <+: now := hheader.trans hgrown
    have hflushed := hlaid.flushed_prefix.trans hgrown
    rw [hlaid.all] at hpart
    rw [List.append_assoc, List.prefix_append_right_inj, ← List.flatMap_append] at hflushed hpart
    rw [← List.append_assoc] at hpart
    have hrecordable : ∀ e ∈ old ++ flushed ++ late, e.Recordable := by
      rw [List.append_assoc]
      exact List.forall_mem_append.2 ⟨fun e he => (hold.readable e he).recordable, hnoted.recordable⟩
    obtain ⟨front, hfront, hscan⟩ := JournalEntry.exists_scan_eq hrecordable hflushed hpart
    have hbounded : ∀ e ∈ old, decide e.Bounded = true := fun e he =>
      decide_eq_true (hold.readable e he).length_le
    rw [List.append_assoc, List.takeWhile_append_of_pos hbounded] at hscan
    -- bygone entries leave nothing pending, and have lower numbers
    rw [Journal.pendingIn_header_append, hscan,
      JournalEntry.pending_append_of_settled hold.pending_eq fun e he e' he' => ?_]
    · exact hnoted.pending_sublist hfront
    · have hmem : e' ∈ flushed ++ late := ((List.prefix_append_right_inj flushed).2 hfront).subset
        ((List.takeWhile_prefix _).subset he')
      exact Nat.lt_of_lt_of_le (hold.seq_lt e he) (hnoted.first_le_seq e' hmem)

/-- A batch that was not settled, and one behind it that is in place, are about the file. -/
def Overtaken (folder : Path) (attempts : List Attempt) (p : Path) : Prop :=
  ∃ before a after, attempts = before ++ a :: after ∧ a.fate.isSettled = false ∧
    p ∈ pathsOf folder a.batch ∧ ∃ b ∈ after, b.fate = .stored ∧ p ∈ pathsOf folder b.batch

/-- What opening makes of the files of a workspace whose journal tells of these batches. -/
structure Resumed (folder : Path) (attempts : List Attempt) (pending : List JournalEntry)
    (files files' : Path → Option Bytes) : Prop where
  /-- Files that no pending batch is about are as before. -/
  outside : ∀ p, (∀ e ∈ pending, ∀ batch, e.batch = some batch → p ∉ pathsOf folder batch) →
    files' p = files p
  /-- Pending batches are applied, in the order of their numbers. -/
  replayed : ∀ p, ¬Overtaken folder attempts p →
    (∀ a ∈ attempts, p ∈ pathsOf folder a.batch → a.fate ≠ .hanging ∧ a.fate ≠ .torn) →
    files' p = outcome (replay folder pending) files p
  /-- Only batches that were not settled are pending. -/
  pending_sublist : Legible attempts →
    pending.Sublist ((attempts.filter fun a => !a.fate.isSettled).map Attempt.entry)

/-- What is left pending is replayed, and the files come out as the replay makes them. -/
theorem Resumed.of_outcome {folder : Path} {pending : List JournalEntry}
    (h : Legible attempts →
      pending.Sublist ((attempts.filter fun a => !a.fate.isSettled).map Attempt.entry)) :
    Resumed folder attempts pending files (outcome (replay folder pending) files) where
  outside p hp := by
    refine outcome_of_not_mem fun c hc heq => ?_
    obtain ⟨e, he, hce⟩ := List.mem_flatMap.1 hc
    cases hbatch : e.batch with
    | none =>
      rw [hbatch] at hce
      cases hce
    | some batch =>
      rw [hbatch] at hce
      exact hp e he batch hbatch (mem_pathsOf_iff.2 ⟨c, hce, heq⟩)
  replayed _ _ _ := rfl
  pending_sublist := h

/-- Whatever fails in stores, a workspace that is closed opens again, as long as emptying the journal goes
well. It answers as before for all that no pending batch is about, and batches that were settled are not
pending. So it answers as before altogether if all batches were settled. -/
theorem Attempted.reopen (hroomy : Path.Roomy room (Path.ofFolder config.path))
    (h : Attempted config attempts s) :
    let folder := Path.ofFolder config.path
    let pending := Journal.pendingIn (journalIn folder (close s).disk)
    backend.answers s = told folder (filesIn s.device.disk) ∧
      ∃ store device files', openAt config (mended (close s)) = .ok store device ∧
        backend.answers ⟨device, store⟩ = told folder files' ∧
        Resumed folder attempts pending (filesIn s.device.disk) files' ∧
        (Legible attempts → (∀ a ∈ attempts, a.fate.isSettled) →
          backend.answers ⟨device, store⟩ = backend.answers s) := by
  obtain ⟨w, time, hfolder, hc⟩ := h.chronicled hroomy
  obtain ⟨hwhole, hsublist⟩ := hc.close
  have hcases := hc.kept.openAt_cases hfolder.symm
  have hanswers := hc.kept.answers_eq
  rw [hfolder] at hwhole hsublist hcases hanswers
  refine ⟨hanswers, ?_⟩
  cases hopen : openAt config (mended (FileStore.close s)) with
  | error e device =>
    rw [hopen] at hcases
    exact absurd hcases.2 (Nat.not_lt_of_le hwhole)
  | ok store device =>
    rw [hopen] at hcases
    obtain ⟨-, -, heq, -⟩ := hcases
    refine ⟨store, device, _, rfl, heq, .of_outcome hsublist, fun hlegible hsettled => ?_⟩
    have hnone := hsublist hlegible
    rw [List.filter_eq_nil_iff.2 fun a ha => by simpa using hsettled a ha, List.map_nil,
      List.sublist_nil] at hnone
    rw [heq, hnone, hanswers]
    rfl

/-! ## A batch that is left -/

/-- A new workspace of which the device fails after three effects, which is when the first batch is
announced. -/
def openedFailing : Hosted FileStore :=
  ⟨{ (opened true).device with
      plan := fun n _ => if n < 3 then none else some ⟨.other "disk full", 0⟩, clock := 0, time := 0 },
    (opened true).value⟩

/-- That workspace after a node could neither be stored nor taken away again. -/
def openedFailed : Hosted FileStore :=
  stateAfter (backend.store ⟨[default], [], [], []⟩) openedFailing

/-- The workspace that the node was left in is reached by a run. -/
theorem run_openedFailed : Run ⟨"ws", true, true⟩ openedFailed :=
  ((Run.started (reached_opened true).1).facing _ 0 0).stored ⟨[default], [], [], []⟩

/-- What a question is answered after a workspace was closed and opened again. -/
def answerReopened {α : Type} (config : FileConfig) (question : Action α) (s : Hosted FileStore) :
    Except Error α :=
  match openAt config (mended (close s)) with
  | .ok store device => answer question ⟨device, store⟩
  | .error e _ => .error e

/-- Another node is stored in that workspace when nothing fails any more. -/
def openedMended : Hosted FileStore :=
  ⟨{ openedFailed.device with plan := fun _ _ => none, clock := 0, time := 0 }, openedFailed.value⟩

/-- The workspace with that node. -/
def openedAgain : Hosted FileStore :=
  stateAfter (backend.store ⟨[numbered 2], [], [], []⟩) openedMended

/-- What its journal tells of the two nodes. -/
def leftAndStored : List Attempt :=
  [⟨⟨[default], [], [], []⟩, 1, 0, .left⟩, ⟨⟨[numbered 2], [], [], []⟩, 2, 0, .stored⟩]

/-- The two nodes are what was attempted in that workspace. -/
theorem attempted_openedAgain : Attempted ⟨"ws", true, true⟩ leftAndStored openedAgain := by
  have hrun : journalled (opened true) = Journal.header ∧
      fateOf ⟨[default], [], [], []⟩ openedFailing = .left ∧
      (stateAfter tidy (stateAfter (attempt ⟨[numbered 2], [], [], []⟩) openedMended)).device.clock =
        (stateAfter (attempt ⟨[numbered 2], [], [], []⟩) openedMended).device.clock ∧
      recorded (recorded [] ⟨[default], [], [], []⟩ openedFailing) ⟨[numbered 2], [], [], []⟩
        openedMended = leftAndStored := by
    simp only [openedMended, openedFailed, openedFailing, opened, create, openAt, folder_ws]
    decide +kernel
  obtain ⟨hempty, hleft, hclock, hfates⟩ := hrun
  have hfailing : EmptiesWell ⟨[default], [], [], []⟩ openedFailing := by
    intro s' hs'
    rw [fateOf, hs'] at hleft
    cases hleft
  -- the first batch is still pending, so there is nothing to do behind the second one
  have hmended : EmptiesWell ⟨[numbered 2], [], [], []⟩ openedMended := by
    intro s' hs' n effect hle hlt
    rw [stateAfter_of_ok hs'] at hclock
    rw [hclock] at hlt
    exact absurd hlt (Nat.not_lt_of_le hle)
  have hstart : Attempted ⟨"ws", true, true⟩ [] openedFailing :=
    (Attempted.started (.started (reached_opened true).1) hempty).facing _ 0 0
  have hagain : Attempted ⟨"ws", true, true⟩ _ openedMended :=
    (hstart.stored _ hfailing).facing (fun _ _ => none) 0 0
  exact hfates ▸ hagain.stored _ hmended

/-- The two attempts of the example are legible. -/
theorem legible_leftAndStored : Legible leftAndStored := by
  have hempty : ∀ id, (ItemState.empty (.node id)).Fits := fun _ => ⟨Nat.zero_le _, fun _ he => nomatch he⟩
  refine List.forall_mem_cons.2 ⟨⟨by decide, JournalEntry.Readable.recordable ?_⟩,
    List.forall_mem_singleton.2 ⟨by decide, JournalEntry.Readable.recordable ?_⟩⟩
  · refine ⟨⟨by decide, by decide, fun set hset => ?_⟩, by decide +kernel⟩
    cases hset
    exact List.forall_mem_singleton.2 (hempty _)
  · refine ⟨⟨by decide, by decide, fun set hset => ?_⟩, by decide +kernel⟩
    cases hset
    exact List.forall_mem_singleton.2 (hempty _)

/-- Of a node that was left and another one that was stored behind it only the first is pending. Both
are there when the workspace is opened again, the other one as before. -/
theorem Attempted.reopen_openedAgain : Attempted ⟨"ws", true, true⟩ leftAndStored openedAgain ∧
    Legible leftAndStored ∧
    ∃ pending store device files', openAt ⟨"ws", true, true⟩ (mended (close openedAgain)) = .ok store device ∧
      backend.answers ⟨device, store⟩ = told ["ws"] files' ∧
      Resumed ["ws"] leftAndStored pending (filesIn openedAgain.device.disk) files' ∧
      pending = [⟨1, .pending, some ⟨[default], [], [], []⟩, 0⟩] ∧
      files' (itemPath ["ws"] (numbered 2).id) =
        filesIn openedAgain.device.disk (itemPath ["ws"] (numbered 2).id) ∧
      answer (backend.contains (numbered 2).id) openedAgain = .ok true ∧
      answer (backend.contains (default : ItemState).id) openedAgain = .ok false := by
  have hroomy : Path.Roomy room (Path.ofFolder (FileConfig.mk "ws" true true).path) := roomy_ws
  obtain ⟨-, store, device, files', hopen, hanswers, hresumed, -⟩ :=
    Attempted.reopen hroomy attempted_openedAgain
  have hrun : Journal.pendingIn (journalIn ["ws"] (close openedAgain).disk) =
        [⟨1, .pending, some ⟨[default], [], [], []⟩, 0⟩] ∧
      answer (backend.contains (numbered 2).id) openedAgain = .ok true ∧
      answer (backend.contains (default : ItemState).id) openedAgain = .ok false := by
    simp only [openedAgain, openedMended, openedFailed, openedFailing, opened, create, openAt, folder_ws]
    decide +kernel
  obtain ⟨hpending, hanswered⟩ := hrun
  simp only [folder_ws] at hanswers hresumed
  rw [hpending] at hresumed
  refine ⟨attempted_openedAgain, legible_leftAndStored, _, store, device, files', hopen, hanswers,
    hresumed, rfl, ?_, hanswered⟩
  refine hresumed.outside _ fun e he batch hbatch => ?_
  rw [List.mem_singleton.1 he] at hbatch
  cases hbatch
  decide +kernel

/-- The store of that node fails and the node is not there, but it is when the workspace is opened
again: its batch was left pending. -/
theorem reopen_applies_failed : Run ⟨"ws", true, true⟩ openedFailed ∧
    (answer (backend.store ⟨[default], [], [], []⟩) openedFailing).isOk = false ∧
    answer (backend.contains (default : ItemState).id) openedFailed = .ok false ∧
    answerReopened ⟨"ws", true, true⟩ (backend.contains (default : ItemState).id) openedFailed =
      .ok true := by
  refine ⟨run_openedFailed, ?_⟩
  simp only [answerReopened, openedFailed, openedFailing, opened, create, openAt, folder_ws]
  decide +kernel

end FileStore

end ContentTree
