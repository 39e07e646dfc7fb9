import ContentTree.Proofs.Persistence.Changes

/-!
# Applying and undoing batches

The steps of a store on the records of its folder: taking down what the files of a batch hold, applying
the batch, and putting the files back.
-/

namespace ContentTree.FileStore

variable {r : Regime} {w : Site} {s : Hosted FileStore}

/-- What is taken down before a batch covers what applying it changes: both go through the same files, in
the same order. -/
theorem map_path_changes (folder : Path) (batch : ChangeSet) :
    (changes folder batch).map Change.path = pathsOf folder batch := by
  have hreferences : ∀ r : NodeReferences, (if r.hasReferences
      then Change.write (referencesPath folder r.target) (Record.write Record.referencesMagic r)
      else .remove (referencesPath folder r.target)).path = referencesPath folder r.target := by
    intro r
    split <;> rfl
  simp only [changes, pathsOf, List.map_append, List.map_map, Function.comp_def, hreferences]
  rfl

/-- The files that a batch is about are those that its changes are about. -/
theorem mem_pathsOf_iff {folder path : Path} {batch : ChangeSet} :
    path ∈ pathsOf folder batch ↔ ∃ c ∈ changes folder batch, c.path = path := by
  rw [← map_path_changes, List.mem_map]

/-- Every file that a batch is about is a record. -/
theorem isRecord_of_mem_pathsOf {folder path : Path} {batch : ChangeSet}
    (h : path ∈ pathsOf folder batch) : IsRecord folder path := by
  obtain ⟨c, hc, rfl⟩ := mem_pathsOf_iff.1 h
  exact isRecord_of_mem_changes hc

/-- Making the changes of a batch leaves the outcome of them where the device is honest, and touches
nothing else in any case. -/
theorem apply_yields (batch : ChangeSet) (hfolder : s.value.folder = w.folder)
    (hup : r.Up s.device) (h : InOrder w s.device.disk) :
    Yields (fun _ s' => (r.Up s'.device ∧
        Changed w (pathsOf w.folder batch) s.device.disk s'.device.disk ∧
        (r.honest → ∀ p, IsRecord w.folder p → records w s'.device.disk p =
          outcome (changes w.folder batch) (records w s.device.disk) p)) ∧ s'.value = s.value)
      (fun s' => (r.Down s'.device ∧
        Changed w (pathsOf w.folder batch) s.device.disk s'.device.disk) ∧ s'.value = s.value)
      (apply batch s) := by
  rw [apply, get_bind, hfolder, ← map_path_changes]
  exact Hosted.onDevice_yields
    (forM_makeChange_yields _ (fun c hc => isRecord_of_mem_changes hc) hup h)

/-- What a record holds is taken down, and nothing changes. -/
theorem image_eq {device : Device} {path : Path} (h : InOrder w device.disk)
    (hp : IsRecord w.folder path) :
    image path device = .ok (path, records w device.disk path) device := by
  rw [image, get_bind, h.read_record hp, records]
  cases device.disk.fileAt (placeOf w.folder w.base path) <;> rfl

/-- The images of a batch are the records under its paths. -/
theorem capture_eq (batch : ChangeSet) (hfolder : s.value.folder = w.folder)
    (h : InOrder w s.device.disk) : capture batch s =
      .ok ((pathsOf w.folder batch).map fun p => (p, records w s.device.disk p)) s := by
  have himages : (pathsOf w.folder batch).mapM image s.device =
      .ok ((pathsOf w.folder batch).map fun p => (p, records w s.device.disk p)) s.device :=
    mapM_of_unchanged fun p hp => image_eq h (isRecord_of_mem_pathsOf hp)
  rw [capture, get_bind, hfolder]
  exact Hosted.onDevice_of_ok himages

/-- The changes that put files back. -/
def restoringAll (images : List (Path × Option Bytes)) : List Change :=
  images.reverse.map restoring

/-- The change that puts an image back is a change of the path of the image. -/
theorem path_restoring (i : Path × Option Bytes) : (restoring i).path = i.1 := by
  obtain ⟨path, contents | contents⟩ := i <;> rfl

/-- Putting images back makes one change after the other. -/
theorem restore_eq (images : List (Path × Option Bytes)) (s : Hosted FileStore) :
    restore images s =
      Hosted.onDevice ((restoringAll images).forM (makeChange s.value.syncWrites)) s := by
  have hmap : ∀ l : List (Path × Option Bytes),
      (l.map restoring).forM (makeChange s.value.syncWrites) =
        l.forM fun i => makeChange s.value.syncWrites (restoring i) := by
    intro l
    induction l with
    | nil => rfl
    | cons i rest ih =>
      show (makeChange s.value.syncWrites (restoring i) >>= fun _ =>
        (rest.map restoring).forM (makeChange s.value.syncWrites)) = _
      rw [ih]
      rfl
  rw [restore, get_bind, restoringAll, hmap]

/-- The paths of the changes that put images back are those of the images. -/
theorem mem_map_path_restoringAll {images : List (Path × Option Bytes)} {p : Path} :
    p ∈ (restoringAll images).map Change.path ↔ p ∈ images.map Prod.fst := by
  rw [restoringAll, List.map_map, List.map_reverse, List.mem_reverse]
  have hpath : Change.path ∘ restoring = Prod.fst := funext path_restoring
  rw [hpath]

/-- Where the images are those of records, putting them back changes records only. -/
theorem isRecord_of_mem_restoringAll {folder : Path} {images : List (Path × Option Bytes)}
    (himages : ∀ i ∈ images, IsRecord folder i.1) {c : Change} (hc : c ∈ restoringAll images) :
    IsRecord folder c.path := by
  obtain ⟨i, hi, rfl⟩ := List.mem_map.1 hc
  rw [path_restoring]
  exact himages i (List.mem_reverse.1 hi)

/-- What is taken down for a batch is about records. -/
theorem isRecord_of_mem_images (folder : Path) (batch : ChangeSet) (files : Path → Option Bytes) :
    ∀ i ∈ (pathsOf folder batch).map fun p => (p, files p), IsRecord folder i.1 := by
  intro i hi
  obtain ⟨p, hp, rfl⟩ := List.mem_map.1 hi
  exact isRecord_of_mem_pathsOf hp

/-- The paths of images taken are those asked for. -/
theorem map_fst_images (paths : List Path) (files : Path → Option Bytes) :
    (paths.map fun p => (p, files p)).map Prod.fst = paths := by
  rw [List.map_map]
  exact List.map_id _

/-- Putting the contents at some paths back makes all files what they were, if the other ones still
are. -/
theorem outcome_restoringAll {paths : List Path} {files before : Path → Option Bytes} {p : Path}
    (h : p ∉ paths → files p = before p) :
    outcome (restoringAll (paths.map fun p => (p, before p))) files p = before p := by
  refine outcome_of_contents (fun c hc => ?_) fun hp => h ?_
  · obtain ⟨i, hi, rfl⟩ := List.mem_map.1 hc
    obtain ⟨q, -, rfl⟩ := List.mem_map.1 (List.mem_reverse.1 hi)
    cases hcontents : before q <;> simp only [restoring, Change.path, Change.contents?, hcontents]
  · rwa [mem_map_path_restoringAll, map_fst_images] at hp

/-- Putting files back changes at most what is near them, and gives them their contents. -/
theorem restore_yields {images : List (Path × Option Bytes)}
    (himages : ∀ i ∈ images, IsRecord w.folder i.1) (hup : r.Up s.device)
    (h : InOrder w s.device.disk) :
    Yields (fun _ s' => (r.Up s'.device ∧
        Changed w ((restoringAll images).map Change.path) s.device.disk s'.device.disk ∧
        (r.honest → ∀ p, IsRecord w.folder p → records w s'.device.disk p =
          outcome (restoringAll images) (records w s.device.disk) p)) ∧ s'.value = s.value)
      (fun s' => (r.Down s'.device ∧
        Changed w ((restoringAll images).map Change.path) s.device.disk s'.device.disk) ∧
        s'.value = s.value)
      (restore images s) := by
  rw [restore_eq]
  exact Hosted.onDevice_yields
    (forM_makeChange_yields _ (fun c => isRecord_of_mem_restoringAll himages) hup h)

/-- Undoing never fails; what it could not do is left undone. -/
theorem undo_eq_ok (seq : Nat) (images : List (Path × Option Bytes)) (s : Hosted FileStore) :
    undo seq images s = .ok ⟨⟩ (stateAfter (undo seq images) s) := by
  have heq := tryCatch_pure (do restore images; onJournal (Journal.rollBack seq)) s
  exact heq.trans (congrArg _ (stateAfter_of_ok heq).symm)

/-! ## Without power -/

section Frozen

variable (c : Crash)

/-- On a device that has crashed a change does nothing. -/
theorem makeChange_frozen (sync : Bool) (change : Change) :
    Tracks (Device.Frozen c) (makeChange sync change) := by
  cases change with
  | write path contents =>
    refine Tracks.bind (Device.makeFolders_frozen c _) fun _ => Tracks.tryCatch ?_ fun e => ?_
    · refine Tracks.bind (Device.perform_untouched_frozen c) fun inode =>
        Tracks.bind (Device.write_frozen c _ _) fun _ => ?_
      cases sync with
      | false => exact Device.perform_untouched_frozen c
      | true =>
        exact Tracks.bind (Device.perform_untouched_frozen c) fun _ =>
          Device.perform_untouched_frozen c
    · exact Tracks.bind (Tracks.tryCatch (Device.perform_untouched_frozen c) fun _ => Tracks.pure _)
        fun _ => Tracks.throw e
  | remove path => exact Device.removeIfThere_frozen c path

/-- Undoing a batch does nothing without power. -/
theorem undo_frozen (seq : Nat) (images : List (Path × Option Bytes)) :
    Tracks (fun s s' : Hosted FileStore => Device.Frozen c s.device s'.device) (undo seq images) := by
  refine Tracks.tryCatch (Tracks.bind ?_ fun _ => ?_) fun e => Tracks.pure _
  · exact Tracks.bind Tracks.get fun s => Hosted.onDevice_tracks
      (Tracks.forM fun i _ => makeChange_frozen c _ _)
  · exact Hosted.onPart_tracks ((Journal.keptByWriting_frozen c).mark_tracks _ _)

end Frozen

end ContentTree.FileStore
