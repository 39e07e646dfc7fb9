import ContentTree.Proofs.Persistence.Crash
import ContentTree.Proofs.Persistence.Creating

/-!
# All of a batch or nothing

A workspace that was made and in which stores were completed has an empty journal (`Reached.settled`).
When the power goes at any point of a further store, the folder that is left opens if and only if its
journal has a whole header, and it answers then as before the store or as after it
(`store_cut_short`).
-/

namespace ContentTree.FileStore

variable {r : Regime} {w : Site} {s s' : Hosted FileStore} {files before after : Path → Option Bytes}
  {config : FileConfig} {batch : ChangeSet}

/-! ## Workspaces in use -/

/-- The open workspaces that are reached by completed stores. -/
inductive Reached (config : FileConfig) : Hosted FileStore → Prop
  /-- A workspace was made where there was nothing. -/
  | created {base : Location} {disk : Disk} {time : Nat} {store : FileStore} {device : Device} :
    Vacant (Path.ofFolder config.path) base disk →
    create config (Device.reliable disk time) = .ok store device → Reached config ⟨device, store⟩
  /-- A batch was stored. -/
  | stored {s s' : Hosted FileStore} {batch : ChangeSet} :
    Reached config s → Storable batch s.device.time → backend.store batch s = .ok () s' →
    Reached config s'
  /-- Time went by. -/
  | later {s : Hosted FileStore} (time : Nat) :
    Reached config s → Reached config ⟨{ s.device with time }, s.value⟩
  /-- The workspace was closed and opened again. -/
  | reopened {s : Hosted FileStore} {store : FileStore} {device : Device} :
    Reached config s → openAt config (close s) = .ok store device → Reached config ⟨device, store⟩

/-- An open workspace whose journal is empty closes without a trace. -/
theorem Settled.close_eq (h : Settled r w files s) :
    close s = { s.device with locks := [] } := by
  have hlocks : s.device.locks.erase s.value.lock = [] := by
    rw [h.up.locks_eq, h.waiting.lock_eq]
    exact List.erase_cons_head w.lock []
  rw [close_of_journal (Journal.close_eq (Or.inl h.waiting.writer_eq))]
  show { s.device with locks := s.device.locks.erase s.value.lock } = _
  rw [hlocks]

/-- A settled workspace stands at the time of its regime. -/
theorem Settled.time_eq {time : Nat} (h : Settled (.reliable [] time) w files s) :
    s.device.time = time :=
  h.up.time_eq

/-- A store in a workspace with an empty journal, on a device that does all it is told. -/
theorem Settled.exists_store {time : Nat} (h : Settled (.reliable [] time) w files s)
    (hmarked : Journal.pendingIn (Journal.header ++ (announcement batch time ++ marker time)) = []) :
    ∃ s', backend.store batch s = .ok () s' ∧
      Settled (.reliable [] time) w (outcome (changes w.folder batch) files) s' := by
  by_cases hbatch : batch.isEmpty
  · refine ⟨s, ?_, ?_⟩
    · show store batch s = _
      rw [store, hbatch]
      rfl
    · rw [changes_of_isEmpty w.folder hbatch]
      exact h
  · have hreliable := Regime.not_fallible_of_reliable [w.lock] time
    obtain ⟨u, s', hs', hup, hseq, hw⟩ := (store_yields h.up trivial h.waiting h.nextSeq_eq
      (Bool.eq_false_iff.2 hbatch) hmarked (fun hfail => (hreliable hfail).elim)
      fun _ _ s' hdown => hdown.isDown.elim).exists_ok fun s' hs' => hreliable hs'.1
    exact ⟨s', hs', hup, hw, hseq⟩

/-- An open workspace with an empty journal opens again with the records it has. -/
theorem Settled.openAt_close {time : Nat} (h : Settled (.reliable [] time) w files s)
    (hfolder : Path.ofFolder config.path = w.folder) :
    Yields (fun store d => Settled (.reliable [] time) w files ⟨d, store⟩) (fun _ => False)
      (openAt config (close s)) := by
  have hlog : s.device.disk.contentsOf w.journal = Journal.header ++ [] := by
    rw [List.append_nil]
    exact h.waiting.log_eq
  have hup : (Regime.reliable [] time).Up { s.device with locks := [] } :=
    ⟨rfl, h.up.time_eq, h.up.isUp⟩
  have hnone : Journal.pendingIn (Journal.header ++ []) = [] := by
    rw [List.append_nil, Journal.pendingIn_header]
  rw [h.close_eq]
  refine (openAt_yields hfolder hup rfl h.waiting.inOrder hlog).imp (fun store d hd => ?_)
    fun _ hd => Regime.not_fallible_of_reliable [] time hd
  obtain ⟨hup', files', log, hw, hfiles, hend⟩ := hd
  -- nothing is replayed, so the records are those that were there
  have hw' : Waiting w files log [] ⟨d, store⟩ := by
    refine { hw with records_eq := fun p hp => ?_ }
    rw [hw.records_eq p hp, hfiles trivial, hnone]
    exact h.waiting.records_eq p hp
  rcases hend with ⟨-, rfl, hseq⟩ | ⟨rfl, hseq⟩
  · rw [List.append_nil] at hw'
    rw [JournalEntry.scan_nil] at hseq
    exact ⟨hup', hw', hseq⟩
  · exact ⟨hup', hw', hseq⟩

/-- Every workspace that is reached by completed stores has an empty journal. -/
theorem Reached.settled (hroomy : Path.Roomy room (Path.ofFolder config.path))
    (h : Reached config s) : ∃ w files time, w.folder = Path.ofFolder config.path ∧
      Settled (.reliable [] time) w files s := by
  induction h with
  | @created base disk time store device hvacant hcreate =>
    have hyields := create_yields rfl hroomy (.of_reliable disk time) rfl hvacant
    rw [hcreate] at hyields
    obtain ⟨lock, journal, hsettled⟩ := hyields
    exact ⟨_, _, time, rfl, hsettled⟩
  | @stored s s' batch _ hstorable hstore ih =>
    obtain ⟨w, files, time, hfolder, hs⟩ := ih
    rw [hs.time_eq] at hstorable
    obtain ⟨t, ht, hs'⟩ := hs.exists_store hstorable.marked
    rw [hstore] at ht
    cases ht
    exact ⟨w, _, time, hfolder, hs'⟩
  | later time _ ih =>
    obtain ⟨w, files, _, hfolder, hs⟩ := ih
    exact ⟨w, files, time, hfolder, ⟨hs.up.locks_eq, rfl, hs.up.isUp⟩, hs.waiting.on_device _ rfl,
      hs.nextSeq_eq⟩
  | reopened _ hopen ih =>
    obtain ⟨w, files, time, hfolder, hs⟩ := ih
    have hyields := hs.openAt_close hfolder.symm
    rw [hopen] at hyields
    exact ⟨w, files, time, hfolder, hyields⟩

/-! ## Power lost -/

/-- What a store leaves on the medium when the power goes on the way. -/
def cut (batch : ChangeSet) (s : Hosted FileStore) (c : Crash) : Disk :=
  (stateAfter (backend.store batch) ⟨s.device.crashing c, s.value⟩).device.disk

/-- Wherever a store is cut short, the folder it leaves can be recovered. -/
theorem Settled.recoverable_cut {time : Nat} (h : Settled (.reliable [] time) w files s)
    (hbatch : batch.isEmpty = false) (hstorable : Storable batch time) (c : Crash) :
    Recoverable w files (outcome (changes w.folder batch) files) (cut batch s c) := by
  have hup := Regime.Up.of_crash c s.device
  rw [h.time_eq] at hup
  have hw := h.waiting.on_device (s.device.crashing c) rfl
  have hyields := store_yields hup trivial hw h.nextSeq_eq hbatch
  refine (hyields hstorable.marked (fun _ => hstorable) fun seq images s' hdown hleft => ?_).stateAfter
    (fun _ s' hs' => ?_) fun s' hs' => hs'.2
  · -- undoing changes nothing without power
    obtain ⟨hplan, hlt⟩ := hdown.isDown
    exact hleft.of_touched ((undo_frozen c seq images s' hplan hlt).2 hleft.1.sound)
  · have hwhole : Waiting w (outcome (changes w.folder batch) files) (Journal.header ++ []) [] s' := by
      rw [List.append_nil]
      exact hs'.2.2
    refine hwhole.recoverable (Or.inr rfl) fun p => ?_
    rw [List.append_nil, Journal.pendingIn_header]
    rfl

/-- A folder that can be recovered opens to one of the two states if its journal has a whole header,
and does not open if it has not. -/
theorem Recoverable.openAt_cases {d : Disk} (h : Recoverable w before after d)
    (hfolder : Path.ofFolder config.path = w.folder) (time : Nat) :
    match openAt config (Device.reliable d time) with
    | .error e _ => e = .io .unexpectedEnd ∧ (journalIn w.folder d).length < Journal.headerLength
    | .ok store device => Journal.headerLength ≤ (journalIn w.folder d).length ∧
        ∃ files, (files = before ∨ files = after) ∧
          backend.answers ⟨device, store⟩ = told w.folder files := by
  have hup := Regime.Up.of_reliable d time
  rw [h.1.journalIn_eq]
  rcases h.2 with ⟨hpart, hlt⟩ | ⟨rest, files, hrest, hfiles, hall⟩
  · obtain ⟨d', hopen⟩ := openAt_of_short hfolder hup h.1 hpart hlt
    rw [hopen]
    exact ⟨rfl, hlt⟩
  · obtain ⟨store, device, hopen, hup', files', log, hw, heq, -⟩ :=
      (openAt_yields hfolder hup rfl h.1 hrest).exists_ok fun _ hf =>
        Regime.not_fallible_of_reliable [] time hf
    rw [hopen]
    refine ⟨?_, files, hfiles, ?_⟩
    · rw [hrest, List.length_append, Journal.length_header]
      exact Nat.le_add_right _ _
    · rw [hw.answers_eq, heq trivial]
      exact told_congr hall

/-- A folder that opens exactly if its journal has a whole header, and that answers then as one of two
open workspaces. -/
def OpensAsEither (config : FileConfig) (d : Disk) (s s' : Hosted FileStore) : Prop :=
  ∀ time, match openAt config (Device.reliable d time) with
    | .error e _ => e = .io .unexpectedEnd ∧
        (journalIn (Path.ofFolder config.path) d).length < Journal.headerLength
    | .ok store device =>
        Journal.headerLength ≤ (journalIn (Path.ofFolder config.path) d).length ∧
        (backend.answers ⟨device, store⟩ = backend.answers s ∨
          backend.answers ⟨device, store⟩ = backend.answers s')

/-- A store goes well when nothing fails. When the power goes at any point of it, the folder that is
left opens exactly if its journal has a whole header, and then it answers as before the store or as
after it. -/
theorem store_cut_short (hroomy : Path.Roomy room (Path.ofFolder config.path))
    (h : Reached config s) (hbatch : batch.isEmpty = false)
    (hstorable : Storable batch s.device.time) :
    ∃ s', backend.store batch s = .ok () s' ∧ ∀ c, OpensAsEither config (cut batch s c) s s' := by
  obtain ⟨w, files, time, hfolder, hs⟩ := h.settled hroomy
  rw [hs.time_eq] at hstorable
  obtain ⟨s', hstore, hs'⟩ := hs.exists_store hstorable.marked
  refine ⟨s', hstore, fun c later => ?_⟩
  have hopen := (hs.recoverable_cut hbatch hstorable c).openAt_cases hfolder.symm later
  rw [hfolder] at hopen
  rw [hs.waiting.answers_eq, hs'.waiting.answers_eq, hfolder]
  cases hr : openAt config (Device.reliable (cut batch s c) later) with
  | error e d =>
    rw [hr] at hopen
    exact hopen
  | ok store device =>
    rw [hr] at hopen
    obtain ⟨hwhole, files', rfl | rfl, hanswers⟩ := hopen
    · exact ⟨hwhole, Or.inl hanswers⟩
    · exact ⟨hwhole, Or.inr hanswers⟩

/-! ## A workspace on an empty device -/

/-- The folder of the example is one plain name. -/
theorem folder_ws : Path.ofFolder "ws" = ["ws"] := by
  rw [Path.ofFolder, Path.parse_eq]
  decide +kernel

/-- The names below the folder of the example have room. -/
theorem roomy_ws : Path.Roomy room (Path.ofFolder "ws") := by
  rw [folder_ws]
  exact ⟨by decide +kernel, by decide +kernel⟩

/-- On an empty device the folder of the example is vacant. -/
theorem vacant_ws : Vacant (Path.ofFolder "ws") ["ws"] ∅ := by
  rw [folder_ws]
  exact vacant_empty fun n hn => List.mem_singleton.1 hn ▸ ⟨by decide, by decide, by decide, by decide⟩

instance : Inhabited FileStore := ⟨⟨[], true, 0, ⟨[], 1, none⟩⟩⟩

/-- The workspace that is made in a folder of an empty device. -/
def opened (sync : Bool) : Hosted FileStore :=
  match create ⟨"ws", true, sync⟩ (Device.reliable ∅ 0) with
  | .ok store device => ⟨device, store⟩
  | .error _ device => ⟨device, default⟩

/-- Opening the example's folder reaches an opened workspace without any time passing. -/
theorem reached_opened (sync : Bool) :
    Reached ⟨"ws", true, sync⟩ (opened sync) ∧ (opened sync).device.time = 0 := by
  have hroomy : Path.Roomy room (Path.ofFolder (FileConfig.mk "ws" true sync).path) := roomy_ws
  obtain ⟨store, device, hcreate, lock, journal, hsettled⟩ :=
    (create_yields rfl hroomy (.of_reliable ∅ 0) rfl vacant_ws).exists_ok fun _ hf =>
      Regime.not_fallible_of_reliable [] 0 hf
  rw [opened, hcreate]
  exact ⟨.created vacant_ws hcreate, hsettled.up.time_eq⟩

/-- A node with a number for its identity. -/
def numbered (n : UInt8) : ItemState :=
  .empty (.node ⟨List.replicate 16 n, rfl⟩)

/-- One node stored in a new workspace. -/
theorem store_cut_short_opened : ∃ s', Reached ⟨"ws", true, true⟩ (opened true) ∧
    backend.store ⟨[default], [], [], []⟩ (opened true) = .ok () s' ∧
    ∀ c, OpensAsEither ⟨"ws", true, true⟩ (cut ⟨[default], [], [], []⟩ (opened true) c)
      (opened true) s' := by
  obtain ⟨hreached, htime⟩ := reached_opened true
  have hstorable : Storable ⟨[default], [], [], []⟩ 0 := by
    refine ⟨⟨by decide, by decide, fun set hset => ?_⟩, by decide +kernel⟩
    cases hset
    intro state hstate
    rw [List.mem_singleton.1 hstate]
    exact ⟨by decide, fun _ he => nomatch he⟩
  obtain ⟨s', hstore, hcut⟩ := store_cut_short roomy_ws hreached rfl (htime ▸ hstorable)
  exact ⟨s', hreached, hstore, hcut⟩

/-- When the power goes after the tenth effect of that store, the journal is emptied and has no header
yet, and the folder does not open. -/
theorem not_opens_emptied : Reached ⟨"ws", true, true⟩ (opened true) ∧
    answer (openAt ⟨"ws", true, true⟩)
      (Device.reliable (cut ⟨[default], [], [], []⟩ (opened true) ⟨10, 0⟩) 0) =
        .error (.io .unexpectedEnd) := by
  refine ⟨(reached_opened true).1, ?_⟩
  simp only [opened, create, openAt, folder_ws]
  decide +kernel

end ContentTree.FileStore
