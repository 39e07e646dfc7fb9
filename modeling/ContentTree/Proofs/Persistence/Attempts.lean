import ContentTree.Proofs.Persistence.Damage
import ContentTree.Proofs.Persistence.Marking
import ContentTree.Proofs.Persistence.Reopening

/-!
# What becomes of a batch

Whatever fails in a store, its batch is put in place, or undone, or left as it is, or was not announced at
all (`FileStore.Fate`), and the store ends accordingly (`FileStore.concludes_attempt`). The journal has the
announcement then, with a mark behind it if the batch was put in place or undone
(`FileStore.attempt_yields`).
-/

namespace ContentTree

/-! ## Entries that are cut off -/

namespace JournalEntry

variable {e : JournalEntry} {es : List JournalEntry}

/-- What is read is read also if more octets follow. -/
theorem read_append {bytes rest : Bytes} (h : read bytes = .ok (e, rest)) (more : Bytes) :
    read (bytes ++ more) = .ok (e, rest ++ more) := by
  obtain ⟨encoded, rfl, hle, hdecode⟩ := read_eq_ok_iff.1 h
  exact read_eq_ok_iff.2 ⟨encoded, List.append_assoc .., hle, hdecode⟩

/-- Of an entry that is not there to its end nothing is found, also if it is too long. -/
theorem Recordable.scan_torn (h : e.Recordable) {torn : Bytes} (hpart : torn <+: e.write)
    (hne : torn ≠ e.write) : scan torn = [] := by
  by_cases hbounded : e.Bounded
  · exact JournalEntry.scan_torn ⟨h.fits, hbounded⟩ hpart hne
  cases hread : read torn with
  | error err => exact scan_of_error hread
  | ok found =>
    obtain ⟨more, hmore⟩ := hpart
    obtain ⟨err, herr⟩ := exists_read_write_eq_error h.fits h.short (Nat.lt_of_not_le hbounded) []
    have hwhole := read_append hread more
    rw [hmore] at hwhole
    rw [List.append_nil, hwhole] at herr
    cases herr

/-- A first part of the octets of entries has some of the entries, and of the next one too little. -/
theorem exists_split_of_prefix (h : ∀ e ∈ es, e.Recordable) {part : Bytes}
    (hpart : part <+: es.flatMap write) :
    ∃ front torn, front <+: es ∧ part = front.flatMap write ++ torn ∧ scan torn = [] := by
  induction es generalizing part with
  | nil =>
    rw [List.flatMap_nil, List.prefix_nil] at hpart
    exact ⟨[], [], List.prefix_refl _, hpart, scan_nil⟩
  | cons e es ih =>
    have he := h e (List.mem_cons_self ..)
    rw [List.flatMap_cons] at hpart
    rcases List.prefix_or_prefix_of_prefix hpart (List.prefix_append _ _) with hshort | ⟨rest, rfl⟩
    · by_cases hwhole : part = e.write
      · refine ⟨[e], [], List.prefix_append [e] es, ?_, scan_nil⟩
        rw [List.flatMap_singleton, List.append_nil, hwhole]
      · exact ⟨[], part, List.nil_prefix, rfl, he.scan_torn hshort hwhole⟩
    · obtain ⟨front, torn, hfront, rfl, htorn⟩ :=
        ih (fun e' he' => h e' (List.mem_cons_of_mem e he')) ((List.prefix_append_right_inj _).1 hpart)
      refine ⟨e :: front, torn, List.cons_prefix_cons.2 ⟨rfl, hfront⟩, ?_, htorn⟩
      rw [List.flatMap_cons, List.append_assoc]

/-- Entries of which at least some are there to their end are found up to where they are cut off, or up to
the first that is too long. -/
theorem exists_scan_eq {done later : List JournalEntry} (h : ∀ e ∈ done ++ later, e.Recordable)
    {part : Bytes} (hdone : done.flatMap write <+: part) (hpart : part <+: (done ++ later).flatMap write) :
    ∃ front, front <+: later ∧ scan part = (done ++ front).takeWhile (·.Bounded) := by
  obtain ⟨rest, rfl⟩ := hdone
  rw [List.flatMap_append, List.prefix_append_right_inj] at hpart
  obtain ⟨front, torn, hfront, rfl, htorn⟩ :=
    exists_split_of_prefix (fun e he => h e (List.mem_append_right _ he)) hpart
  refine ⟨front, hfront, ?_⟩
  have hsome : ∀ e ∈ done ++ front, e.Recordable := fun e he =>
    h e (((List.prefix_append_right_inj done).2 hfront).subset he)
  rw [← List.append_assoc, ← List.flatMap_append, scan_append_of_nil hsome htorn]

/-! ## Marks -/

/-- A mark of the batch `seq`, made at `time`. -/
structure IsMark (seq time : Nat) (m : JournalEntry) : Prop where
  status_ne : m.status ≠ .pending
  eq : m = ⟨seq, m.status, none, time⟩

namespace IsMark

variable {seq time : Nat} {m : JournalEntry} {marks : List JournalEntry}

/-- A mark has the number of its batch. -/
theorem seq_eq (h : IsMark seq time m) : m.seq = seq :=
  congrArg JournalEntry.seq h.eq

/-- A mark can be read back. -/
theorem readable (h : IsMark seq time m) (hseq : seq ≤ maxUInt64) (htime : time ≤ maxUInt64) : m.Readable :=
  h.eq ▸ readable_mark m.status hseq htime

/-- A mark is short. -/
theorem length_write_le (h : IsMark seq time m) : m.write.length ≤ 39 := by
  have hlen := length_mark_le seq time m.status
  rw [← h.eq] at hlen
  rw [length_write]
  omega

/-- Marks announce nothing. -/
theorem announcements_eq_nil (h : ∀ m ∈ marks, IsMark seq time m) : announcements marks = [] :=
  List.filter_eq_nil_iff.2 fun m hm => by simpa using (h m hm).status_ne

end IsMark

end JournalEntry

namespace FileStore

/-! ## What becomes of a batch -/

/-- What became of a batch that was to be stored. -/
inductive Fate where
  /-- It is in place, and the journal says so. -/
  | stored
  /-- Its files were put back, and the journal says so. -/
  | undone
  /-- It was announced, and came neither to the one end nor to the other. -/
  | left
  /-- It could not be announced, but its whole entry is in the journal or waits for it. -/
  | hanging
  /-- It could not be announced, and its entry is not there to its end. -/
  | torn
  deriving DecidableEq, Repr

/-- The journal was to say what became of the batch, and does. -/
def Fate.isSettled : Fate → Bool
  | .stored | .undone => true
  | .left | .hanging | .torn => false

/-- A batch that was to be stored. -/
structure Attempt where
  batch : ChangeSet
  /-- The number under which it was to be announced. -/
  seq : Nat
  /-- Seconds since the start of 1970. -/
  time : Nat
  fate : Fate
  deriving DecidableEq, Repr

/-- The entry that announces the batch. -/
def Attempt.entry (a : Attempt) : JournalEntry :=
  ⟨a.seq, .pending, some a.batch, a.time⟩

/-- Puts a batch in place and marks it. -/
def place (batch : ChangeSet) (seq : Nat) : Action Unit := do
  apply batch
  onJournal (Journal.commit seq)

/-- Puts the files of a batch back and marks it. -/
def putBack (images : List (Path × Option Bytes)) (seq : Nat) : Action Unit := do
  restore images
  onJournal (Journal.rollBack seq)

/-- What a store does once its batch is announced, and what becomes of the batch by that. -/
def settle (batch : ChangeSet) (images : List (Path × Option Bytes)) (seq : Nat) : Action Fate :=
  tryCatch (do place batch seq; return .stored) fun _ =>
    tryCatch (do putBack images seq; return .undone) fun _ => return .left

/-- What a store does before it comes to empty the journal. It fails if the batch is not announced. -/
def attempt (batch : ChangeSet) : Action Fate := do
  let images ← capture batch
  let seq ← onJournal (Journal.log batch)
  settle batch images seq

/-- The end of a store: the journal is emptied if nothing in it is pending. -/
def tidy : Action Unit := do
  if !(← onJournal Journal.hasPending) then onJournal Journal.clear

/-- The steps of a store by name. -/
theorem store_eq {batch : ChangeSet} (hbatch : batch.isEmpty = false) :
    store batch = (do
      let images ← capture batch
      let seq ← onJournal (Journal.log batch)
      tryCatch (place batch seq) fun e => do
        undo seq images
        throw e
      tidy) := by
  rw [store, hbatch]
  rfl

/-- A batch that is not in place is undone as well as that goes, and the failure is passed on. -/
theorem undo_throw (seq : Nat) (images : List (Path × Option Bytes)) (e : Error) (s : Hosted FileStore) :
    (do undo seq images; throw e : Action Unit) s = .error e (stateAfter (putBack images seq) s) :=
  bind_of_ok (tryCatch_pure (putBack images seq) s)

/-- How a store goes on from what became of its batch. -/
def Concludes (batch : ChangeSet) (s : Hosted FileStore) :
    EStateM.Result Error (Hosted FileStore) Fate → Prop
  | .ok .stored s' => store batch s = tidy s'
  | .ok _ s' | .error _ s' => ∃ e, store batch s = .error e s'

/-- A store of a batch ends with `tidy` if the batch is in place, and fails otherwise. -/
theorem concludes_attempt {batch : ChangeSet} (hbatch : batch.isEmpty = false)
    (s : Hosted FileStore) : Concludes batch s (attempt batch s) := by
  -- each failure ends the attempt where it ends the call
  have hstore := congrFun (store_eq hbatch) s
  cases hcapture : capture batch s with
  | error e s₁ =>
    rw [bind_of_error hcapture] at hstore
    rw [attempt, bind_of_error hcapture]
    exact ⟨e, hstore⟩
  | ok images s₁ =>
  rw [bind_of_ok hcapture] at hstore
  rw [attempt, bind_of_ok hcapture]
  cases hlog : onJournal (Journal.log batch) s₁ with
  | error e s₂ =>
    rw [bind_of_error hlog] at hstore
    rw [bind_of_error hlog]
    exact ⟨e, hstore⟩
  | ok seq s₂ =>
  rw [bind_of_ok hlog] at hstore
  rw [bind_of_ok hlog, settle]
  cases hplace : place batch seq s₂ with
  | ok u s₃ =>
    have hstored : (do place batch seq; return .stored : Action Fate) s₂ = .ok .stored s₃ := by
      rw [bind_of_ok hplace]
      rfl
    rw [bind_of_ok (tryCatch_of_ok hplace)] at hstore
    rw [tryCatch_of_ok hstored]
    exact hstore
  | error e s₃ =>
    have hfails : (tryCatch (place batch seq) fun e => do undo seq images; throw e : Action Unit) s₂ =
        .error e (stateAfter (putBack images seq) s₃) :=
      (tryCatch_of_error hplace).trans (undo_throw seq images e s₃)
    -- the changes failed, so the images are put back, whether or not that succeeds
    rw [bind_of_error hfails] at hstore
    rw [tryCatch_of_error (bind_of_error hplace)]
    cases hback : putBack images seq s₃ with
    | ok u s₄ =>
      have hundone : (do putBack images seq; return .undone : Action Fate) s₃ = .ok .undone s₄ := by
        rw [bind_of_ok hback]
        rfl
      rw [stateAfter_of_ok hback] at hstore
      rw [tryCatch_of_ok hundone]
      exact ⟨e, hstore⟩
    | error e' s₄ =>
      rw [stateAfter_of_error hback] at hstore
      rw [tryCatch_of_error (bind_of_error hback)]
      exact ⟨e, hstore⟩

/-! ## Numbers -/

variable {w : Site} {time seq : Nat} {s : Hosted FileStore} {files : Path → Option Bytes}
  {log buffered base : Bytes} {batch : ChangeSet} {images : List (Path × Option Bytes)}

/-- The number of the next batch is the same. -/
def SameNumber (s s' : Hosted FileStore) : Prop :=
  s'.value.journal.nextSeq = s.value.journal.nextSeq

instance : IsPreorder (Hosted FileStore) SameNumber where
  refl _ := rfl
  trans _ _ _ h h' := Eq.trans h' h

/-- A step on the device takes no number. -/
theorem onDevice_sameNumber {α : Type} (step : Device.Action α) :
    Tracks SameNumber (Hosted.onDevice step) := by
  intro s
  unfold stateAfter Hosted.onDevice
  cases step s.device <;> rfl

/-- A step on the journal leaves the journal that it leaves by itself. -/
theorem journal_onJournal {α : Type} (step : Journal.Action α) (s : Hosted FileStore) :
    (stateAfter (onJournal step) s).value.journal = (stateAfter step ⟨s.device, s.value.journal⟩).value := by
  unfold stateAfter onJournal Hosted.onPart
  cases step ⟨s.device, s.value.journal⟩ <;> rfl

/-- Marking a batch takes no number. -/
theorem mark_sameNumber (seq : Nat) (status : JournalStatus) :
    Tracks SameNumber (onJournal (Journal.mark seq status)) := by
  intro s
  rw [SameNumber, journal_onJournal]
  exact Journal.keptByWriting_sameNumber.mark_tracks seq status _

/-- Making the changes of a batch takes no number. -/
theorem place_sameNumber (batch : ChangeSet) (seq : Nat) : Tracks SameNumber (place batch seq) :=
  Tracks.bind (Tracks.bind Tracks.get fun _ => onDevice_sameNumber _) fun _ =>
    mark_sameNumber seq .committed

/-- Putting images back takes no number. -/
theorem putBack_sameNumber (images : List (Path × Option Bytes)) (seq : Nat) :
    Tracks SameNumber (putBack images seq) :=
  Tracks.bind (Tracks.bind Tracks.get fun _ => onDevice_sameNumber _) fun _ =>
    mark_sameNumber seq .rolledBack

/-- What is done once a batch is announced takes no number. -/
theorem settle_sameNumber (batch : ChangeSet) (images : List (Path × Option Bytes)) (seq : Nat) :
    Tracks SameNumber (settle batch images seq) :=
  Tracks.tryCatch (Tracks.bind (place_sameNumber batch seq) fun _ => Tracks.pure _) fun _ =>
    Tracks.tryCatch (Tracks.bind (putBack_sameNumber images seq) fun _ => Tracks.pure _) fun _ =>
      Tracks.pure _

/-! ## Marks of a batch -/

open JournalEntry (IsMark)

/-- Marks of one batch behind other octets: those of `done` are in the file, and those of `late` are there
or wait. -/
structure Marked (w : Site) (seq time : Nat) (base : Bytes) (done late : List JournalEntry)
    (s : Hosted FileStore) : Prop where
  marks : ∀ m ∈ done ++ late, IsMark seq time m
  queued : ∃ files now waiting, base ++ done.flatMap JournalEntry.write <+: now ∧
    now ++ waiting = base ++ (done ++ late).flatMap JournalEntry.write ∧ Waiting w files now waiting s

/-- Where nothing waits, no mark has been made. -/
theorem Marked.of_waiting (h : Waiting w files base [] s) : Marked w seq time base [] [] s where
  marks := List.forall_mem_nil _
  queued := by
    refine ⟨files, base, [], ?_, ?_, h⟩
    · simp only [List.flatMap_nil, List.append_nil, List.prefix_refl]
    · rw [List.nil_append, List.flatMap_nil]

/-- Steps on the records leave the marks alone. -/
theorem Marked.of_records {done late : List JournalEntry} {step : Action Unit}
    (h : Marked w seq time base done late s)
    (hstep : ∀ {files log buffered}, Waiting w files log buffered s →
      Yields (fun _ s' => (Regime.free [w.lock] time).Up s'.device ∧
          ∃ files', Waiting w files' log buffered s')
        (fun s' => (Regime.free [w.lock] time).Down s'.device ∧
          ∃ files', Waiting w files' log buffered s') (step s)) :
    Yields (fun _ s' => (Regime.free [w.lock] time).Up s'.device ∧ Marked w seq time base done late s')
      (fun s' => (Regime.free [w.lock] time).Up s'.device ∧ Marked w seq time base done late s')
      (step s) := by
  obtain ⟨files, now, waiting, hgrown, hall, hw⟩ := h.queued
  refine (hstep hw).imp (fun _ s' hs' => ?_) fun s' hs' => ?_
  · obtain ⟨hup, files', hw'⟩ := hs'
    exact ⟨hup, h.marks, files', now, waiting, hgrown, hall, hw'⟩
  · obtain ⟨hdown, files', hw'⟩ := hs'
    exact ⟨hdown.up_of_free, h.marks, files', now, waiting, hgrown, hall, hw'⟩

/-- A second mark is in the file behind the first one, or waits behind it. -/
theorem Marked.mark_yields {late : List JournalEntry} (h : Marked w seq time base [] late s)
    (hup : (Regime.free [w.lock] time).Up s.device) (hone : late.length ≤ 1) (status : JournalStatus)
    (hstatus : status ≠ .pending) :
    let m : JournalEntry := ⟨seq, status, none, time⟩
    Yields (fun _ s' => (Regime.free [w.lock] time).Up s'.device ∧
        Marked w seq time base (late ++ [m]) [] s')
      (fun s' => (Regime.free [w.lock] time).Up s'.device ∧
        Marked w seq time base [] (late ++ [m]) s')
      (onJournal (Journal.mark seq status) s) := by
  intro m
  obtain ⟨files, now, waiting, hgrown, hall, hw⟩ := h.queued
  rw [List.flatMap_nil, List.append_nil] at hgrown
  rw [List.nil_append] at hall
  have hm : IsMark seq time m := ⟨hstatus, rfl⟩
  have hmarks : ∀ e ∈ late ++ [m], IsMark seq time e :=
    List.forall_mem_append.2 ⟨h.marks, List.forall_mem_singleton.2 hm⟩
  have hwrite : base ++ (late ++ [m]).flatMap JournalEntry.write = now ++ waiting ++ m.write := by
    rw [List.flatMap_append, List.flatMap_singleton, ← List.append_assoc, hall]
  -- what waits is at most the first mark
  have hroom : waiting.length + m.write.length < Journal.capacity := by
    have hlate : (late.flatMap JournalEntry.write).length ≤ 39 := by
      match late, hone, h.marks with
      | [], _, _ => exact Nat.zero_le _
      | [m'], _, hmarks' =>
        rw [List.flatMap_singleton]
        exact (hmarks' m' (List.mem_singleton.2 rfl)).length_write_le
    have hlen := congrArg List.length hall
    have hle := hgrown.length_le
    have hmlen := hm.length_write_le
    rw [List.length_append, List.length_append] at hlen
    rw [Journal.capacity]
    omega
  refine (Hosted.onPart_yields (Journal.mark_queued_yields seq status hup hw.stands hroom)).imp
    (fun _ s' hs' => ?_) fun s' hs' => ?_
  · obtain ⟨t, ⟨hup', ht⟩, rfl⟩ := hs'
    refine ⟨hup', by rwa [List.append_nil], files, _, [], ?_, ?_, hw.of_stands ht⟩
    · exact hwrite ▸ List.prefix_refl _
    · rw [List.append_nil, List.append_nil]
      exact hwrite.symm
  · obtain ⟨t, ⟨hdown, now', waiting', hgrown', hall', ht⟩, rfl⟩ := hs'
    refine ⟨hdown.up_of_free, hmarks, files, now', waiting', ?_, ?_, hw.of_stands ht⟩
    · rw [List.flatMap_nil, List.append_nil]
      exact hgrown.trans hgrown'
    · rw [List.nil_append, hwrite]
      exact hall'

/-- A batch is in place and marked, or at most a mark of it waits. -/
theorem place_yields (batch : ChangeSet) (hup : (Regime.free [w.lock] time).Up s.device)
    (h : Waiting w files base [] s) :
    Yields (fun _ s' => (Regime.free [w.lock] time).Up s'.device ∧ ∃ done, done ≠ [] ∧
        Marked w seq time base done [] s')
      (fun s' => (Regime.free [w.lock] time).Up s'.device ∧ ∃ late, late.length ≤ 1 ∧
        Marked w seq time base [] late s')
      (place batch seq s) := by
  have hnone : Marked w seq time base [] [] s := .of_waiting h
  refine Yields.bind ((hnone.of_records fun hw => (applied_yields batch hup hw).imp
    (fun _ _ hs' => ⟨hs'.1, hs'.2.imp fun _ h => h.1⟩)
    fun _ hs' => ⟨hs'.1, hs'.2.imp fun _ h => h.1⟩).imp (fun _ s' hs' => hs') fun s' hs' => ?_)
    fun _ s' hs' => ?_
  · exact ⟨hs'.1, [], Nat.zero_le _, hs'.2⟩
  · refine (hs'.2.mark_yields hs'.1 (Nat.zero_le _) .committed nofun).imp (fun _ s'' hs'' => ?_)
      fun s'' hs'' => ?_
    · exact ⟨hs''.1, _, List.cons_ne_nil _ _, hs''.2⟩
    · exact ⟨hs''.1, _, Nat.le_refl _, hs''.2⟩

/-- The files of a batch are put back and that is marked, or marks of it wait. -/
theorem putBack_yields {late : List JournalEntry} (himages : ∀ i ∈ images, IsRecord w.folder i.1)
    (hup : (Regime.free [w.lock] time).Up s.device) (hone : late.length ≤ 1)
    (h : Marked w seq time base [] late s) :
    Yields (fun _ s' => (Regime.free [w.lock] time).Up s'.device ∧ ∃ done, done ≠ [] ∧
        Marked w seq time base done [] s')
      (fun s' => (Regime.free [w.lock] time).Up s'.device ∧ ∃ late',
        Marked w seq time base [] late' s')
      (putBack images seq s) := by
  refine Yields.bind ((h.of_records fun hw => (restored_yields himages hup hw).imp
    (fun _ _ hs' => ⟨hs'.1, hs'.2.imp fun _ h => h.1⟩)
    fun _ hs' => ⟨hs'.1, hs'.2.imp fun _ h => h.1⟩).imp (fun _ s' hs' => hs') fun s' hs' => ?_)
    fun _ s' hs' => ?_
  · exact ⟨hs'.1, late, hs'.2⟩
  · refine (hs'.2.mark_yields hs'.1 hone .rolledBack nofun).imp (fun _ s'' hs'' => ?_) fun s'' hs'' => ?_
    · exact ⟨hs''.1, _, List.append_ne_nil_of_right_ne_nil _ (List.cons_ne_nil _ _), hs''.2⟩
    · exact ⟨hs''.1, _, hs''.2⟩

/-- A batch that is announced is settled, and its mark is in the file, or it is left. -/
theorem settle_yields (himages : ∀ i ∈ images, IsRecord w.folder i.1)
    (hup : (Regime.free [w.lock] time).Up s.device) (h : Waiting w files base [] s) :
    Yields (fun fate s' => (Regime.free [w.lock] time).Up s'.device ∧ ∃ done late,
        (fate.isSettled → done ≠ [] ∧ late = []) ∧ Marked w seq time base done late s')
      (fun _ => False) (settle batch images seq s) := by
  refine Yields.tryCatch (Yields.bind (place_yields batch hup h) fun _ s' hs' => ?_) fun e s' hs' => ?_
  · obtain ⟨hup', done, hdone, hmarked⟩ := hs'
    exact ⟨hup', done, [], fun _ => ⟨hdone, rfl⟩, hmarked⟩
  obtain ⟨hup', late, hone, hmarked⟩ := hs'
  refine Yields.tryCatch (Yields.bind (putBack_yields himages hup' hone hmarked) fun _ s'' hs'' => ?_)
    fun e' s'' hs'' => ?_
  · obtain ⟨hup'', done, hdone, hmarked'⟩ := hs''
    exact ⟨hup'', done, [], fun _ => ⟨hdone, rfl⟩, hmarked'⟩
  · obtain ⟨hup'', late', hmarked'⟩ := hs''
    exact ⟨hup'', [], late', nofun, hmarked'⟩

/-! ## A whole attempt -/

/-- What is done before a store comes to empty the journal takes one number, whatever fails. -/
theorem nextSeq_attempt {writer : Option Writer} (batch : ChangeSet) (h : Serving w files log writer s) :
    (stateAfter (attempt batch) s).value.journal.nextSeq = s.value.journal.nextSeq + 1 := by
  have hlog : (stateAfter (onJournal (Journal.log batch)) s).value.journal.nextSeq =
      s.value.journal.nextSeq + 1 := by
    rw [journal_onJournal]
    exact Journal.nextSeq_stateAfter_log batch _
  have hattempt : attempt batch s = (onJournal (Journal.log batch) >>= settle batch _ : Action Fate) s :=
    bind_of_ok (capture_filesIn h)
  rw [stateAfter, hattempt]
  cases hresult : onJournal (Journal.log batch) s with
  | error e s₁ =>
    rw [bind_of_error hresult]
    rwa [stateAfter_of_error hresult] at hlog
  | ok seq s₁ =>
    rw [bind_of_ok hresult]
    rw [stateAfter_of_ok hresult] at hlog
    rw [← hlog]
    exact settle_sameNumber batch _ seq s₁

/-- A batch is announced, and settled or left with its marks behind; or it is not announced, and the
journal got no more than its entry. -/
theorem attempt_yields (batch : ChangeSet) (hup : (Regime.free [w.lock] time).Up s.device)
    (h : Waiting w files log buffered s) :
    Yields (fun fate s' => (Regime.free [w.lock] time).Up s'.device ∧ ∃ done late,
        (fate.isSettled → done ≠ [] ∧ late = []) ∧ Marked w s.value.journal.nextSeq time (log ++ buffered ++
          JournalEntry.write ⟨s.value.journal.nextSeq, .pending, some batch, time⟩) done late s')
      (fun s' => (Regime.free [w.lock] time).Up s'.device ∧ Torn w files log (log ++ buffered ++
        JournalEntry.write ⟨s.value.journal.nextSeq, .pending, some batch, time⟩) s')
      (attempt batch s) := by
  rw [attempt, bind_of_ok (capture_filesIn h)]
  refine Yields.bind ((log_yields batch hup h).imp (fun _ s' hs' => hs') fun s' hs' =>
    ⟨hs'.1.up_of_free, hs'.2⟩) fun seq s' hs' => ?_
  obtain ⟨rfl, hup', hw'⟩ := hs'
  exact (settle_yields (isRecord_of_mem_images w.folder batch _) hup' hw').imp (fun _ _ h => h)
    fun _ h => h.elim

/-- The octets of the journal, with what its writer still holds. -/
def journalled (s : Hosted FileStore) : Bytes :=
  match s.value.journal.writer with
  | some writer => s.device.disk.contentsOf writer.inode ++ writer.buffered
  | none => []

/-- What the host has journalled is what is in the file and what waits. -/
theorem Serving.journalled_eq (h : Waiting w files log buffered s) :
    journalled s = log ++ buffered := by
  rw [journalled, h.writer_eq]
  exact congrArg (· ++ buffered) h.log_eq

/-- What becomes of a batch that is stored. -/
def fateOf (batch : ChangeSet) (s : Hosted FileStore) : Fate :=
  match attempt batch s with
  | .ok fate _ => fate
  | .error _ s' =>
    let announcement : JournalEntry := ⟨s.value.journal.nextSeq, .pending, some batch, s.device.time⟩
    if journalled s' = journalled s ++ announcement.write then .hanging else .torn

/-- A batch that is stored now. -/
def Attempt.now (batch : ChangeSet) (s : Hosted FileStore) : Attempt :=
  ⟨batch, s.value.journal.nextSeq, s.device.time, fateOf batch s⟩

end FileStore

end ContentTree
