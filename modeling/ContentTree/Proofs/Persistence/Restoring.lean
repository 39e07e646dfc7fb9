import ContentTree.Proofs.Persistence.Blocked

/-!
# Putting records back

What is taken down before a batch is enough to undo any part of it. Wherever applying the batch stops,
between two changes or inside one, putting the files back makes every record what it was, and changes
nothing but what is near the records that the batch is about (`restore_applyFirst`).
-/

namespace ContentTree.FileStore

variable {w : Site} {s : Hosted FileStore} {batch : ChangeSet} {n : Nat}

/-- Makes the first changes of a batch. -/
def applyFirst (n : Nat) (batch : ChangeSet) : Action Unit := do
  let s := (← get).value
  Hosted.onDevice (((changes s.folder batch).take n).forM (makeChange s.syncWrites))

/-- To apply a batch is to make all of its changes. -/
theorem applyFirst_of_length_le (h : (changes s.value.folder batch).length ≤ n) :
    applyFirst n batch s = apply batch s := by
  rw [applyFirst, apply, get_bind, get_bind, List.take_of_length_le h]

/-- Whatever fails on the way, only what is near the records of the batch changes. -/
theorem applyFirst_changes (n : Nat) (batch : ChangeSet) (hfolder : s.value.folder = w.folder)
    (h : InOrder w s.device.disk) :
    Changed w (pathsOf w.folder batch) s.device.disk
        (stateAfter (applyFirst n batch) s).device.disk ∧
      (stateAfter (applyFirst n batch) s).value = s.value := by
  have hrecords : ∀ c ∈ (changes w.folder batch).take n, IsRecord w.folder c.path :=
    fun c hc => isRecord_of_mem_changes (List.mem_of_mem_take hc)
  have hpaths : ∀ p ∈ ((changes w.folder batch).take n).map Change.path, p ∈ pathsOf w.folder batch :=
    fun p hp => map_path_changes w.folder batch ▸ ((List.take_sublist n _).map _).subset hp
  have hsteps : Yields
      (fun _ s' => Changed w (pathsOf w.folder batch) s.device.disk s'.device.disk ∧ s'.value = s.value)
      (fun s' => Changed w (pathsOf w.folder batch) s.device.disk s'.device.disk ∧ s'.value = s.value)
      (applyFirst n batch s) := by
    rw [applyFirst, get_bind, hfolder]
    exact (Hosted.onDevice_yields (forM_makeChange_yields _ hrecords .of_free h)).imp
      (fun _ s' hs' => ⟨hs'.1.2.1.mono hpaths, hs'.2⟩) fun s' hs' => ⟨hs'.1.2.mono hpaths, hs'.2⟩
  exact hsteps.stateAfter (fun _ _ hs' => hs') fun _ hs' => hs'

/-- **Putting the files of a batch back undoes every part of the batch.** Before the batch, what its
records hold is taken down, and nothing changes. However many of its changes are then made, and wherever
the device stops on the way, on a device that is mended the files are put back without failure. After
that every record is as it was before the batch, also if there was none, and of the disk only what is
near the records of the batch was touched. -/
theorem restore_applyFirst (h : InOrder w s.device.disk) (hfolder : s.value.folder = w.folder)
    (batch : ChangeSet) :
    ∃ images, capture batch s = .ok images s ∧ ∀ (n : Nat) (plan : FaultPlan) (clock : Nat),
      let cut := stateAfter (applyFirst n batch) ⟨{ s.device with plan, clock }, s.value⟩
      ∃ s', restore images ⟨mended cut.device, cut.value⟩ = .ok ⟨⟩ s' ∧
        (∀ p, IsRecord w.folder p → filesIn s'.device.disk p = filesIn s.device.disk p) ∧
        Changed w (pathsOf w.folder batch) cut.device.disk s'.device.disk ∧
        Changed w (pathsOf w.folder batch) s.device.disk s'.device.disk := by
  refine ⟨_, capture_eq batch hfolder h, fun n plan clock => ?_⟩
  obtain ⟨hcut, -⟩ := applyFirst_changes n batch (s := ⟨{ s.device with plan, clock }, s.value⟩)
    hfolder h
  intro cut
  have himages := isRecord_of_mem_images w.folder batch (records w s.device.disk)
  have hup : (Regime.reliable cut.device.locks cut.device.time).Up (mended cut.device) :=
    ⟨rfl, rfl, rfl⟩
  obtain ⟨⟨⟩, s', hrestore, ⟨-, hback, hrecords⟩, -⟩ :=
    (restore_yields (s := ⟨mended cut.device, cut.value⟩) himages hup hcut.inOrder).exists_ok
      fun s' hs' => Regime.not_down_of_reliable _ hs'.1.1
  have hback' : Changed w (pathsOf w.folder batch) cut.device.disk s'.device.disk :=
    hback.mono fun p hp => by rwa [mem_map_path_restoringAll, map_fst_images] at hp
  refine ⟨s', hrestore, fun p hp => ?_, hback', ?_⟩
  · rw [hback.inOrder.filesIn_eq hp, h.filesIn_eq hp]
    show records w s'.device.disk p = records w s.device.disk p
    rw [hrecords trivial p hp]
    exact outcome_restoringAll fun hno =>
      hcut.records_eq (fun q hq => isRecord_of_mem_pathsOf hq) hp hno
  · exact (hcut.trans hback').mono fun p hp => (List.mem_append.1 hp).elim id id

/-- A batch that adds, modifies and deletes the same nodes, and writes and removes the references to one
target. -/
def repeating : ChangeSet where
  added := [numbered 1, numbered 2]
  modified := [numbered 1]
  deleted := [(numbered 1).id, (numbered 2).id]
  references := [⟨default, [⟨default, ⟨"p"⟩⟩]⟩, .new default]

/-- That workspace after the first `n` changes of that batch, as far as a plan lets them be made. -/
def repeatingCut (n : Nat) (plan : FaultPlan) (clock : Nat) : Hosted FileStore :=
  let s := openedBlocked [numbered 1]
  stateAfter (applyFirst n repeating) ⟨{ s.device with plan, clock }, s.value⟩

/-- In a workspace that has the first of these nodes, any part of that batch is undone. Four changes take the
record of that node away, and undoing them puts back what it held. -/
theorem restore_applyFirst_repeating : ∃ (w : Site) (images : List (Path × Option Bytes)),
    let s := openedBlocked [numbered 1]
    let path := itemPath ["ws"] (numbered 1).id
    InOrder w s.device.disk ∧ s.value.folder = w.folder ∧ capture repeating s = .ok images s ∧
      (∀ (n : Nat) (plan : FaultPlan) (clock : Nat),
        let cut := repeatingCut n plan clock
        ∃ s', restore images ⟨mended cut.device, cut.value⟩ = .ok ⟨⟩ s' ∧
          ∀ p, IsRecord w.folder p → filesIn s'.device.disk p = filesIn s.device.disk p) ∧
      let cut := repeatingCut 4 (fun _ _ => none) 0
      (filesIn s.device.disk path).isSome ∧ filesIn cut.device.disk path = none ∧
        ∃ s', restore images ⟨mended cut.device, cut.value⟩ = .ok ⟨⟩ s' ∧
          filesIn s'.device.disk path = filesIn s.device.disk path := by
  have hroomy : Path.Roomy room (Path.ofFolder (FileConfig.mk "ws" true false).path) := roomy_ws
  obtain ⟨w, time, hfolder, hkept⟩ := (run_openedBlocked [numbered 1]).1.kept hroomy
  have hws : w.folder = ["ws"] := hfolder.trans folder_ws
  obtain ⟨files, log, writer, hw⟩ := hkept.exists_serving
  obtain ⟨images, hcapture, hcut⟩ := restore_applyFirst hw.inOrder hw.folder_eq repeating
  have hback : ∀ n plan clock, let cut := repeatingCut n plan clock
      ∃ s', restore images ⟨mended cut.device, cut.value⟩ = .ok ⟨⟩ s' ∧
        ∀ p, IsRecord w.folder p →
          filesIn s'.device.disk p = filesIn (openedBlocked [numbered 1]).device.disk p := by
    intro n plan clock
    obtain ⟨s', hrestore, hfiles, -⟩ := hcut n plan clock
    exact ⟨s', hrestore, hfiles⟩
  have hgone : (filesIn (openedBlocked [numbered 1]).device.disk
        (itemPath ["ws"] (numbered 1).id)).isSome ∧
      filesIn (repeatingCut 4 (fun _ _ => none) 0).device.disk
        (itemPath ["ws"] (numbered 1).id) = none := by
    simp only [repeatingCut, openedBlocked, opened, create, openAt, folder_ws]
    decide +kernel
  obtain ⟨s', hrestore, hfiles⟩ := hback 4 (fun _ _ => none) 0
  exact ⟨w, images, hw.inOrder, hw.folder_eq, hcapture, hback, hgone.1, hgone.2, s', hrestore,
    hfiles _ (hws ▸ isRecord_itemPath _ _)⟩

end ContentTree.FileStore
