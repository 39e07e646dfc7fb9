import ContentTree.Proofs.Disk.Spared
import ContentTree.Proofs.Persistence.Reopening

/-!
# Records that cannot be written

A record is written to a temporary file first. While the temporary files of some records cannot be
made, a batch that needs one of them fails and is undone. Undoing writes the records that had contents,
so it gets through if none of the blocked ones had any: then a batch is stored as a whole, or all answers
stay as they are (`store_blocked`). If one had contents, undoing stops at it, and what the batch wrote
before it stays (`store_blocked_keeps_written`).
-/

namespace ContentTree

/-! ## Effects -/

/-- Every effect but making one of some files. -/
def Effect.NotCreating (blocked : Path → Prop) (effect : Effect) : Prop :=
  ∀ p, blocked p → effect ≠ .create p

namespace Journal

variable {E : Effect → Prop} {s : Hosted Journal}

/-- Opening the writer performs no effect. -/
theorem openWriter_within : Within E openWriter s := by
  refine Within.get_bind (fun _ => rfl) ?_
  cases s.value.writer with
  | none => exact .throw _ _
  | some w => exact .pure _ _

/-- Filling the buffer performs no effect. -/
theorem setBuffered_within (rest : Bytes) : Within E (setBuffered rest) s :=
  fun _ _ => ⟨rfl, rfl⟩

/-- Flushing performs writes only. -/
theorem flush_within (hwrite : ∀ inode bytes, E (.write inode bytes)) : Within E flush s := by
  refine openWriter_within.bind fun w s₁ _ => ?_
  split
  · exact .pure _ _
  refine Within.get_bind (fun _ => rfl) (Within.tryCatch ?_ fun e s₂ _ => ?_)
  · exact (Hosted.onDevice_within (Device.perform_within (hwrite _ _))).bind fun _ s₂ _ =>
      setBuffered_within []
  · exact Within.get_bind (fun _ => rfl) ((setBuffered_within _).bind fun _ s₃ _ => .throw _ _)

/-- Closing the journal performs writes only. -/
theorem close_within (hwrite : ∀ inode bytes, E (.write inode bytes)) : Within E close s :=
  ((flush_within hwrite).tryCatch fun _ s₁ _ => .pure _ s₁).bind fun _ _ _ _ _ => ⟨rfl, rfl⟩

/-- Emptying a journal makes no file. -/
theorem clear_within (heffect : ∀ effect, (∀ p, effect ≠ .create p) → E effect) : Within E clear s := by
  have hwrite : ∀ inode bytes, E (.write inode bytes) := fun _ _ => heffect _ fun _ h => by cases h
  refine (close_within hwrite).bind fun _ s₁ _ => Within.get_bind (fun _ => rfl) ?_
  refine (Hosted.onDevice_within ?_).bind fun inode s₂ _ _ _ => ⟨rfl, rfl⟩
  refine (Device.perform_within (heffect _ fun _ h => by cases h)).bind fun inode d _ => ?_
  refine Within.bind ?_ fun _ d' _ => Device.perform_within (heffect _ fun _ h => by cases h)
  refine (Device.perform_within (hwrite _ _)).bind fun _ d' _ => ?_
  exact (Device.perform_within (hwrite _ _)).bind fun _ d'' _ =>
    Device.perform_within (heffect _ fun _ h => by cases h)

end Journal

namespace FileStore

variable {w : Site} {time : Nat} {s : Hosted FileStore} {before files : Path → Option Bytes}
  {log buffered : Bytes} {blocked : Path → Prop} {E : Effect → Prop} {batch : ChangeSet}
  {config : FileConfig}

/-- Writing a file creates nothing but its temporary copy. -/
theorem writeFile_within {sync : Bool} {path : Path} {contents : Bytes} {device : Device}
    (hcreate : E (.create (path.withEnding ".tmp")))
    (heffect : ∀ effect, (∀ p, effect ≠ .create p) → E effect) :
    Within E (writeFile sync path contents) device := by
  refine (Device.makeFolders_within fun q => heffect _ fun _ h => by cases h).bind fun _ d _ => ?_
  refine Within.tryCatch ?_ fun e d' _ => ?_
  · refine (Device.perform_within hcreate).bind fun inode d₁ _ => ?_
    refine (Device.perform_within (heffect _ fun _ h => by cases h)).bind fun _ d₂ _ => ?_
    cases sync with
    | false => exact Device.perform_within (heffect _ fun _ h => by cases h)
    | true =>
      exact (Device.perform_within (heffect _ fun _ h => by cases h)).bind fun _ d₃ _ =>
        Device.perform_within (heffect _ fun _ h => by cases h)
  · refine (Within.tryCatch ?_ fun _ d₁ _ => .pure _ d₁).bind fun _ d₁ _ => .throw _ d₁
    exact Device.perform_within (heffect _ fun _ h => by cases h)

/-- Putting files back makes the temporary files of those that have contents. -/
theorem restore_within {images : List (Path × Option Bytes)}
    (hcreate : ∀ i ∈ images, i.2 ≠ none → E (.create (i.1.withEnding ".tmp")))
    (heffect : ∀ effect, (∀ p, effect ≠ .create p) → E effect) : Within E (restore images) s := by
  refine Within.get_bind (fun _ => rfl) (Hosted.onDevice_within (Within.forM (fun i hi d => ?_) _))
  obtain ⟨path, contents⟩ := i
  cases contents with
  | none => exact Device.removeIfThere_within (heffect _ fun _ h => by cases h)
  | some bytes =>
    exact writeFile_within (hcreate _ (List.mem_reverse.1 hi) (Option.some_ne_none bytes)) heffect

/-! ## Putting files back -/

/-- The regime in which some files cannot be made and all else goes well. -/
abbrev blocking (blocked : Path → Prop) (locks : List Nat) (time : Nat) : Regime :=
  .sparing (Effect.NotCreating blocked) (fun _ _ _ h => by cases h) locks time

/-- None of the blocked records that a batch is about has contents. -/
def Unneeded (folder : Path) (blocked : Path → Prop) (batch : ChangeSet)
    (before : Path → Option Bytes) : Prop :=
  ∀ p ∈ pathsOf folder batch, blocked (p.withEnding ".tmp") → before p = none

/-- What undoing leaves: other records as they are, and all of them if none of the blocked ones had
contents. -/
def Undone (w : Site) (blocked : Path → Prop) (batch : ChangeSet) (before : Path → Option Bytes)
    (s : Hosted FileStore) : Prop :=
  ∃ files log writer, Serving w files log writer s ∧
    (∀ p ∉ pathsOf w.folder batch, files p = before p) ∧
    (Unneeded w.folder blocked batch before → files = before)

/-- A batch is undone where the records are as before. -/
theorem Undone.of_eq {writer : Option Writer} (h : Serving w before log writer s) :
    Undone w blocked batch before s :=
  ⟨before, log, writer, h, fun _ _ => rfl, fun _ => rfl⟩

/-- Putting the files of a batch back goes well unless a blocked one has contents. -/
theorem restore_blocked (hup : (blocking blocked [w.lock] time).Up s.device)
    (h : Waiting w files log buffered s) (hfiles : ∀ p ∉ pathsOf w.folder batch, files p = before p) :
    Yields (fun _ s' => (blocking blocked [w.lock] time).Up s'.device ∧ Waiting w before log buffered s')
      (fun s' => ¬Unneeded w.folder blocked batch before ∧ ∃ files', Waiting w files' log buffered s' ∧
        ∀ p ∉ pathsOf w.folder batch, files' p = before p)
      (restore ((pathsOf w.folder batch).map fun p => (p, before p)) s) := by
  have himages := isRecord_of_mem_images w.folder batch before
  have hpaths := map_fst_images (pathsOf w.folder batch) before
  have hback : outcome (restoringAll ((pathsOf w.folder batch).map fun p => (p, before p))) files =
      before :=
    funext fun p => outcome_restoringAll (hfiles p)
  have hyields := restored_yields himages hup h
  rw [hpaths] at hyields
  by_cases hfree : Unneeded w.folder blocked batch before
  · -- no temporary file is needed that cannot be made, so nothing fails
    have hwithin : Within (Effect.NotCreating blocked)
        (restore ((pathsOf w.folder batch).map fun p => (p, before p))) s := by
      refine restore_within (fun i hi hsome => ?_) fun effect hno p _ => hno p
      obtain ⟨q, hq, rfl⟩ := List.mem_map.1 hi
      rintro t ht heq
      cases heq
      exact hsome (hfree q hq ht)
    have hreliable : (Regime.reliable [w.lock] time).Up
        { s.device with plan := .nothing } := ⟨hup.locks_eq, hup.time_eq, rfl⟩
    obtain ⟨_, s', hs'⟩ := hwithin.exists_ok hup.isUp
      (restored_yields himages hreliable (h.on_device _ rfl)) fun _ hs' => hs'.1.isDown
    rw [hs'] at hyields ⊢
    obtain ⟨hup', files', hw', heq⟩ := hyields
    rw [heq trivial, hback] at hw'
    exact ⟨hup', hw'⟩
  · refine hyields.imp (fun _ s' hs' => ?_) fun s' hs' => ⟨hfree, ?_⟩
    · obtain ⟨hup', files', hw', heq⟩ := hs'
      rw [heq trivial, hback] at hw'
      exact ⟨hup', hw'⟩
    · obtain ⟨-, files', hw', hrest⟩ := hs'
      exact ⟨files', hw', fun p hp => (hrest p hp).trans (hfiles p hp)⟩

/-- Undoing a batch leaves it undone, with its records as before if no blocked one has to be put back. -/
theorem undo_blocked (hup : (blocking blocked [w.lock] time).Up s.device)
    (h : Waiting w files log buffered s) (hfiles : ∀ p ∉ pathsOf w.folder batch, files p = before p)
    (seq : Nat) : Undone w blocked batch before
      (stateAfter (undo seq ((pathsOf w.folder batch).map fun p => (p, before p))) s) := by
  have hsteps : Yields (fun _ => Undone w blocked batch before) (Undone w blocked batch before)
      ((restore ((pathsOf w.folder batch).map fun p => (p, before p)) >>= fun _ =>
        onJournal (Journal.rollBack seq)) s) := by
    refine Yields.bind ((restore_blocked hup h hfiles).imp (fun _ s' hs' => hs') fun s' hs' => ?_)
      fun _ s' hs' => ?_
    · obtain ⟨hneeded, files', hw', hrest⟩ := hs'
      exact ⟨files', _, _, hw', hrest, fun hfree => absurd hfree hneeded⟩
    · refine (mark_yields seq .rolledBack hs'.1 hs'.2).imp (fun _ s'' hs'' => .of_eq hs''.2)
        fun s'' hs'' => ?_
      obtain ⟨-, now, waiting, -, -, hw'⟩ := hs''
      exact .of_eq hw'
  exact Yields.stateAfter (Yields.tryCatch hsteps fun e s' hs' => hs') (fun _ _ hs' => hs') fun _ hs' => hs'

/-! ## Storing -/

/-- The changes of a batch are made and marked as committed, or other records stay as they are. -/
theorem committed_blocked (batch : ChangeSet) (seq : Nat)
    (hup : (blocking blocked [w.lock] time).Up s.device) (h : Waiting w files log buffered s) :
    Yields (fun _ s' => (blocking blocked [w.lock] time).Up s'.device ∧
        ∃ log, Waiting w (outcome (changes w.folder batch) files) log [] s')
      (fun s' => (blocking blocked [w.lock] time).Up s'.device ∧ ∃ files' log buffered,
        Waiting w files' log buffered s' ∧ ∀ p ∉ pathsOf w.folder batch, files' p = files p)
      ((apply batch >>= fun _ => onJournal (Journal.commit seq)) s) := by
  refine Yields.bind ((applied_yields batch hup h).imp (fun _ s₁ h₁ => h₁) fun s₁ h₁ => ?_)
    fun _ s₁ h₁ => ?_
  · obtain ⟨hdown, files₁, hw₁, hrest⟩ := h₁
    exact ⟨hdown.up_of_sparing, files₁, _, _, hw₁, hrest⟩
  · obtain ⟨hup₁, files₁, hw₁, heq⟩ := h₁
    rw [heq trivial] at hw₁
    refine (FileStore.mark_yields seq .committed hup₁ hw₁).imp (fun _ s₂ h₂ => ⟨h₂.1, _, h₂.2⟩)
      fun s₂ h₂ => ?_
    obtain ⟨hdown, now, waiting, -, -, hw₂⟩ := h₂
    refine ⟨hdown.up_of_sparing, _, now, waiting, hw₂, fun p hp => outcome_of_not_mem ?_⟩
    exact fun c hc heq => hp (mem_pathsOf_iff.2 ⟨c, hc, heq⟩)

/-- Emptying the journal makes no file, so it goes well. -/
theorem emptied_blocked (hup : (blocking blocked [w.lock] time).Up s.device)
    (h : Waiting w files log [] s) :
    ∃ s', onJournal Journal.clear s = .ok () s' ∧ ∃ log writer, Serving w files log writer s' := by
  have hwithin : Within (Effect.NotCreating blocked) (onJournal Journal.clear) s :=
    Hosted.onPart_within (Journal.clear_within fun effect hno p _ => hno p)
  have hreliable : (Regime.reliable [w.lock] time).Up { s.device with plan := .nothing } :=
    ⟨hup.locks_eq, hup.time_eq, rfl⟩
  obtain ⟨_, s', hs'⟩ := hwithin.exists_ok hup.isUp
    (FileStore.clear_yields hreliable (h.on_device _ rfl)) fun _ hs' => hs'.1.isDown
  have hyields := FileStore.clear_yields hup h
  rw [hs'] at hyields
  exact ⟨s', hs', _, _, hyields.2.2⟩

/-- While some temporary files cannot be made, a batch is stored as a whole or undone. -/
theorem Kept.stored_or_undone (h : Kept w time s) (hplan : s.device.plan.Spares (Effect.NotCreating blocked)) :
    Yields (fun _ s' => ∃ log writer,
        Serving w (outcome (changes w.folder batch) (filesIn s.device.disk)) log writer s')
      (Undone w blocked batch (filesIn s.device.disk)) (store batch s) := by
  have hup : (blocking blocked [w.lock] time).Up s.device := ⟨h.up.locks_eq, h.up.time_eq, hplan⟩
  rw [store]
  by_cases hempty : batch.isEmpty
  · obtain ⟨files, log, writer, hw⟩ := h.exists_serving
    rw [if_pos hempty]
    refine ⟨log, writer, ?_⟩
    rw [changes_of_isEmpty w.folder hempty]
    exact hw.filesIn
  rw [if_neg hempty]
  show Yields _ _ ((capture batch >>= fun images => _ : Action Unit) s)
  obtain ⟨files, log, ⟨buffered, -, hw⟩ | ⟨-, hw⟩⟩ := h.journal
  · rw [bind_of_ok (capture_filesIn hw)]
    refine Yields.bind ((FileStore.log_yields batch hup hw.filesIn).imp (fun seq s₁ h₁ => h₁)
      fun s₁ h₁ => ?_) fun seq s₁ h₁ => ?_
    · obtain ⟨-, now, waiting, -, -, hw₁⟩ := h₁
      exact .of_eq hw₁
    obtain ⟨-, hup₁, hw₁⟩ := h₁
    -- what goes wrong from here on is undone
    refine Yields.bind (Yields.tryCatch (committed_blocked batch seq hup₁ hw₁) fun e s₂ h₂ => ?_)
      fun _ s₂ h₂ => ?_
    · obtain ⟨hup₂, files₂, log₂, buffered₂, hw₂, hrest⟩ := h₂
      rw [bind_of_ok (undo_eq_ok _ _ s₂)]
      exact undo_blocked hup₂ hw₂ hrest seq
    · obtain ⟨hup₂, log₂, hw₂⟩ := h₂
      rw [bind_of_ok (hasPending_eq hw₂)]
      split
      · obtain ⟨s₃, hs₃, hserving⟩ := emptied_blocked hup₂ hw₂
        rw [hs₃]
        exact hserving
      · exact ⟨_, _, hw₂⟩
  · -- a closed journal takes nothing
    obtain ⟨s', hlog, -, hw'⟩ := log_of_closed batch hw.filesIn
    rw [bind_of_ok (capture_filesIn hw), bind_of_error hlog]
    exact .of_eq hw'

/-- While the temporary files of some records cannot be made, a batch is stored as a whole, or the store
fails and leaves what is answered for identities outside the batch. It leaves all that is answered if
none of the blocked records that the batch is about had contents. -/
theorem store_blocked (hroomy : Path.Roomy room (Path.ofFolder config.path)) (h : Run config s)
    (hplan : s.device.plan.Spares (Effect.NotCreating blocked)) :
    Yields (fun _ s' => backend.answers s' = told (Path.ofFolder config.path)
        (outcome (changes (Path.ofFolder config.path) batch) (filesIn s.device.disk)))
      (fun s' => ∃ files, backend.answers s' = told (Path.ofFolder config.path) files ∧
        (∀ p ∉ pathsOf (Path.ofFolder config.path) batch, files p = filesIn s.device.disk p) ∧
        (Unneeded (Path.ofFolder config.path) blocked batch (filesIn s.device.disk) →
          backend.answers s' = backend.answers s))
      (backend.store batch s) := by
  obtain ⟨w, time, hfolder, hk⟩ := h.kept hroomy
  rw [hk.answers_eq, ← hfolder]
  refine (hk.stored_or_undone hplan).imp (fun _ s' hs' => ?_) fun s' hs' => ?_
  · obtain ⟨log, writer, hw⟩ := hs'
    exact hw.answers_eq
  · obtain ⟨files, log, writer, hw, hrest, hback⟩ := hs'
    refine ⟨files, hw.answers_eq, hrest, fun hfree => ?_⟩
    rw [hw.answers_eq, hback hfree]

/-! ## A record that cannot be written -/

/-- The temporary file of the second node. -/
def secondTemporary : Path :=
  (itemPath ["ws"] (numbered 2).id).withEnding ".tmp"

/-- A new workspace with some nodes, in which the temporary file of the second node cannot be made. -/
def openedBlocked (nodes : List ItemState) : Hosted FileStore :=
  let s := stateAfter (backend.store ⟨nodes, [], [], []⟩) (opened false)
  let plan : FaultPlan := fun _ effect =>
    if effect = .create secondTemporary then some ⟨.other "Is a directory (os error 21)", 0⟩ else none
  ⟨{ s.device with plan, clock := 0, time := 0 }, s.value⟩

/-- The example's workspace is a run in which nothing fails but creating the second temporary copy. -/
theorem run_openedBlocked (nodes : List ItemState) :
    Run ⟨"ws", true, false⟩ (openedBlocked nodes) ∧
      (openedBlocked nodes).device.plan.Spares (Effect.NotCreating (· = secondTemporary)) := by
  refine ⟨((Run.started (reached_opened false).1).stored ⟨nodes, [], [], []⟩).facing _ 0 0, ?_⟩
  intro n effect hother
  exact if_neg (hother _ rfl)

/-- Two new nodes of which the second cannot be stored: the first is taken away again. -/
theorem store_blocked_new :
    Run ⟨"ws", true, false⟩ (openedBlocked []) ∧
      (openedBlocked []).device.plan.Spares (Effect.NotCreating (· = secondTemporary)) ∧
      ∃ e s', backend.store ⟨[numbered 1, numbered 2], [], [], []⟩ (openedBlocked []) = .error e s' ∧
        backend.answers s' = backend.answers (openedBlocked []) := by
  obtain ⟨hrun, hplan⟩ := run_openedBlocked []
  refine ⟨hrun, hplan, ?_⟩
  have hroomy : Path.Roomy room (Path.ofFolder (FileConfig.mk "ws" true false).path) := roomy_ws
  have hyields : Yields _ _ (backend.store ⟨[numbered 1, numbered 2], [], [], []⟩ (openedBlocked [])) :=
    store_blocked hroomy hrun hplan
  have hfails : (answer (backend.store ⟨[numbered 1, numbered 2], [], [], []⟩)
        (openedBlocked [])).isOk = false ∧
      Unneeded ["ws"] (· = secondTemporary) ⟨[numbered 1, numbered 2], [], [], []⟩
        (filesIn (openedBlocked []).device.disk) := by
    simp only [Unneeded, openedBlocked, opened, create, openAt, folder_ws]
    decide +kernel
  obtain ⟨herror, hnew⟩ := hfails
  cases hs : backend.store ⟨[numbered 1, numbered 2], [], [], []⟩ (openedBlocked []) with
  | ok u s' =>
    rw [answer, hs] at herror
    cases herror
  | error e s' =>
    rw [hs] at hyields
    obtain ⟨files, -, -, hback⟩ := hyields
    exact ⟨e, s', rfl, hback (folder_ws ▸ hnew)⟩

/-- Where the second node is there, the first one, which is new, stays when the second cannot be
stored. -/
theorem store_blocked_keeps_written :
    let s := openedBlocked [numbered 2]
    let store := backend.store ⟨[numbered 1], [numbered 2], [], []⟩
    Run ⟨"ws", true, false⟩ s ∧ s.device.plan.Spares (Effect.NotCreating (· = secondTemporary)) ∧
      (answer store s).isOk = false ∧
      answer (backend.contains (numbered 1).id) s = .ok false ∧
      answer (backend.contains (numbered 1).id) (stateAfter store s) = .ok true := by
  refine ⟨(run_openedBlocked _).1, (run_openedBlocked _).2, ?_⟩
  simp only [openedBlocked, opened, create, openAt, folder_ws]
  decide +kernel

end FileStore

end ContentTree
