import ContentTree.Proofs.Persistence.Atomicity
import ContentTree.Proofs.Persistence.Bystanders
import Mathlib.Data.Set.Function

/-!
# Records that are kept apart

Where no two keys have the same hash, different identities have different files, and storing a batch
never alters what is answered for identities that the batch is not about (`records_apart`). This needs
nothing of the folder but that a workspace was opened or made in it, and nothing of the device.
-/

namespace ContentTree

open Disk (Anchored Undisturbed)

variable {folder path : Path} {base : Location} {d : Disk} {device device' : Device}

/-! ## Opening -/

/-- A folder is where its path leads if a file behind that path is read. -/
theorem Disk.anchored_of_read (hd : d.Sound) {name : String} (hname : Path.Plain name) {contents : Bytes}
    (h : d.read (folder ++ [name]) = .ok contents) : ∃ base, Anchored folder base d := by
  rw [Disk.read] at h
  cases hf : d.file (folder ++ [name]) with
  | error cause => rw [hf] at h; cases h
  | ok inode =>
    obtain ⟨place, hfollow, -, hentry⟩ := Disk.opens_of_file hd hf
    rw [Disk.follow_append] at hfollow
    cases hbase : d.follow [] folder with
    | error cause => rw [hbase] at hfollow; cases hfollow
    | ok base =>
      rw [hbase] at hfollow
      have hplace : d.follow base [name] = .ok place := hfollow
      rw [Disk.follow_names fun n hn => List.mem_singleton.1 hn ▸ hname] at hplace
      cases hplace
      exact ⟨base, hbase, hd.enclosed (Option.isSome_of_eq_some hentry)⟩

namespace FileStore

variable {config : FileConfig} {store : FileStore} {s s' : Hosted FileStore}

/-- Recovery leaves a workspace in its place, whatever the batches are about that it applies. -/
theorem recover_spares : Tracks (SparesOthers folder base Set.univ) recover := by
  refine Tracks.bind (onJournal_spares Journal.pendingEntries_stays) fun pending => ?_
  split
  · exact Tracks.pure _
  refine Tracks.bind (Tracks.forM fun entry _ => ?_) fun _ => onJournal_spares Journal.clear_stays
  have hcommit : Tracks (SparesOthers folder base Set.univ) (onJournal (Journal.commit entry.seq)) :=
    onJournal_spares (Journal.mark_stays _ _)
  cases entry.batch with
  | none => exact hcommit
  | some batch => exact Tracks.bind (apply_spares fun _ _ => Set.mem_univ _) fun _ => hcommit

/-- A workspace that opens is in its place. -/
theorem inPlace_of_openAt (hd : device.disk.Sound) (h : openAt config device = .ok store device') :
    ∃ base, InPlace (Path.ofFolder config.path) base ⟨device', store⟩ := by
  obtain ⟨contents, mid, hquery, hrest⟩ := exists_of_bind_ok h
  have hread : Yields _ _ (Device.query (·.read (manifestPath (Path.ofFolder config.path))) device) :=
    Device.query_leaves _
  rw [hquery] at hread
  obtain ⟨hread, rfl⟩ := hread
  -- the manifest was read in the folder, so the folder is there
  obtain ⟨base, ha⟩ := Disk.anchored_of_read hd ⟨by decide, by decide, by decide, by decide⟩ hread
  cases hcheck : checkManifest contents with
  | error e => rw [hcheck] at hrest; cases hrest
  | ok u =>
  rw [hcheck] at hrest
  obtain ⟨lock, locked, hlock, hrecovered⟩ := exists_of_bind_ok hrest
  have htaken := Device.lock_leaves (p := Path.ofFolder config.path ++ [".lock"]) hd
  rw [hlock] at htaken
  obtain ⟨_, -, htouched, -⟩ := htaken
  -- the lock is a file, so folders stay folders
  replace ha := ha.kept htouched.folder
  have hfollow : locked.disk.follow [] (Path.ofFolder config.path ++ ["journal"]) =
      .ok ("journal" :: base) := ha.follow_append fun n hn =>
    List.mem_singleton.1 hn ▸ ⟨by decide, by decide, by decide, by decide⟩
  have hjournal := Journal.openAt_leaves htouched.sound hfollow
  rw [recovered] at hrecovered
  cases hopen : Journal.openAt (Path.ofFolder config.path ++ ["journal"]) locked with
  | error e d => rw [hopen] at hrecovered; cases hrecovered
  | ok journal d =>
  rw [hopen] at hrecovered hjournal
  obtain ⟨hplaced, hpath, ht⟩ := hjournal
  have hopened : InPlace (Path.ofFolder config.path) base
      ⟨d, ⟨Path.ofFolder config.path, config.syncWrites, lock, journal⟩⟩ :=
    ⟨ha.kept ht.folder, rfl, hpath, hplaced⟩
  have hleft := (recover_spares _ hopened).1
  cases hrecover : recover ⟨d, ⟨Path.ofFolder config.path, config.syncWrites, lock, journal⟩⟩ with
  | error e s => simp only [hrecover] at hrecovered; cases hrecovered
  | ok u s =>
    simp only [hrecover] at hrecovered
    cases hrecovered
    rw [stateAfter_of_ok hrecover] at hleft
    exact ⟨base, hleft⟩

/-- Making folders keeps the tree sound. -/
theorem sound_of_makeFolders (hd : device.disk.Sound) {p : Path} {u : Unit}
    (h : Device.makeFolders p device = .ok u device') : device'.disk.Sound := by
  have hmade : Yields (fun _ d => Undisturbed (fun _ => False) device.disk d.disk)
      (fun d => Undisturbed (fun _ => False) device.disk d.disk) (Device.makeFolders p device) :=
    Device.makeFolders_leaves (.refl hd) fun _ _ _ _ _ _ _ => id
  rw [h] at hmade
  exact hmade.touched.sound

/-- Writing the manifest keeps the tree sound. -/
theorem sound_of_writeManifest (hd : device.disk.Sound) {u : Unit}
    (h : writeManifest folder device = .ok u device') : device'.disk.Sound := by
  have hwritten : Yields (fun _ d => d.disk.Sound) (fun _ => True) (writeManifest folder device) := by
    refine Yields.bind ((Device.create_leaves hd).imp (fun _ _ h => h) fun _ _ => trivial)
      fun inode d₁ h₁ => ?_
    obtain ⟨place, -, htouched, hentry⟩ := h₁
    refine Yields.bind ((Device.write_leaves htouched.sound hentry manifestMagic).imp
      (fun _ _ h => h) fun _ _ => trivial) fun _ d₂ h₂ => ?_
    refine Yields.bind ((Device.write_leaves h₂.1.sound h₂.2 [manifestVersion]).imp
      (fun _ _ h => h) fun _ _ => trivial) fun _ d₃ h₃ => ?_
    exact (Device.sync_leaves inode).imp (fun _ _ h => h ▸ h₃.1.sound) fun _ _ => trivial
  rw [h] at hwritten
  exact hwritten

/-- A workspace that is made is opened on a sound tree. -/
theorem openAt_of_create (hd : device.disk.Sound) (h : create config device = .ok store device') :
    ∃ made : Device, made.disk.Sound ∧ openAt config made = .ok store device' := by
  obtain ⟨_, d₁, hitems, h⟩ := exists_of_bind_ok h
  obtain ⟨_, d₂, hrefs, h⟩ := exists_of_bind_ok h
  obtain ⟨_, d₃, hmanifest, h⟩ := exists_of_bind_ok h
  exact ⟨d₃, sound_of_writeManifest (sound_of_makeFolders (sound_of_makeFolders hd hitems) hrefs)
    hmanifest, h⟩

/-- The open workspaces: one is opened or made on any device, and batches are stored, of which any may
fail at any of its effects. -/
inductive Opened (config : FileConfig) : Hosted FileStore → Prop
  | opened {device device' : Device} {store : FileStore} : device.disk.Sound →
    openAt config device = .ok store device' → Opened config ⟨device', store⟩
  | created {device device' : Device} {store : FileStore} : device.disk.Sound →
    create config device = .ok store device' → Opened config ⟨device', store⟩
  /-- From now on effects fail by some plan, at some time. -/
  | facing {s : Hosted FileStore} (plan : FaultPlan) (clock time : Nat) :
    Opened config s → Opened config ⟨{ s.device with plan, clock, time }, s.value⟩
  | stored {s : Hosted FileStore} (batch : ChangeSet) :
    Opened config s → Opened config (stateAfter (backend.store batch) s)

/-- An opened workspace has its folder in place. -/
theorem Opened.exists_inPlace (h : Opened config s) :
    ∃ base, InPlace (Path.ofFolder config.path) base s := by
  induction h with
  | opened hd hopen => exact inPlace_of_openAt hd hopen
  | created hd hcreate =>
    obtain ⟨made, hmade, hopen⟩ := openAt_of_create hd hcreate
    exact inPlace_of_openAt hmade hopen
  | facing plan clock time _ ih =>
    obtain ⟨base, hs⟩ := ih
    exact ⟨base, hs.anchored, hs.folder_eq, hs.path_eq, hs.placed.sound, hs.placed.follow,
      hs.placed.writer⟩
  | stored batch _ ih =>
    obtain ⟨base, hs⟩ := ih
    exact ⟨base, (store_spares batch _ hs).1⟩

/-! ## Answers -/

/-- Answers that are the same for some items and for the reference records of some targets. -/
structure AgreeOn (items : Set ItemId) (targets : Set NodeId) (a b : Answers) : Prop where
  load : ∀ id ∈ items, a.load id = b.load id
  contains : ∀ id ∈ items, a.contains id = b.contains id
  loadReferences : ∀ target ∈ targets, a.loadReferences target = b.loadReferences target
  containsReferences : ∀ target ∈ targets, a.containsReferences target = b.containsReferences target

variable {items : Set ItemId} {targets : Set NodeId}

/-- Agreement on more identities and nodes is agreement on fewer. -/
theorem AgreeOn.mono {fewer : Set ItemId} {fewerTargets : Set NodeId} {a b : Answers}
    (h : AgreeOn items targets a b) (hitems : fewer ⊆ items) (htargets : fewerTargets ⊆ targets) :
    AgreeOn fewer fewerTargets a b where
  load id hid := h.load id (hitems hid)
  contains id hid := h.contains id (hitems hid)
  loadReferences target htarget := h.loadReferences target (htargets htarget)
  containsReferences target htarget := h.containsReferences target (htargets htarget)

/-- What is answered depends on what is read and found at the paths of records alone. -/
theorem agreeOn_of_files (hfolder : s'.value.folder = s.value.folder)
    (hitems : ∀ id ∈ items,
      s'.device.disk.read (itemPath s.value.folder id) = s.device.disk.read (itemPath s.value.folder id) ∧
      s'.device.disk.has (itemPath s.value.folder id) = s.device.disk.has (itemPath s.value.folder id))
    (htargets : ∀ target ∈ targets,
      s'.device.disk.read (referencesPath s.value.folder target) =
        s.device.disk.read (referencesPath s.value.folder target) ∧
      s'.device.disk.has (referencesPath s.value.folder target) =
        s.device.disk.has (referencesPath s.value.folder target)) :
    AgreeOn items targets (backend.answers s') (backend.answers s) := by
  have hload : ∀ (t : Hosted FileStore) id, (backend.answers t).load id =
      answerRead Record.itemMagic (itemPath t.value.folder id) (.noSuchItem id)
        (t.device.disk.read (itemPath t.value.folder id)) := fun t id =>
    answer_loadRecord Record.itemMagic (fun _ => rfl) rfl
  have hloadReferences : ∀ (t : Hosted FileStore) target, (backend.answers t).loadReferences target =
      answerRead Record.referencesMagic (referencesPath t.value.folder target)
        (.noSuchReferences ⟨target⟩) (t.device.disk.read (referencesPath t.value.folder target)) :=
    fun t target => answer_loadRecord Record.referencesMagic (fun _ => rfl) rfl
  have hcontains : ∀ (t : Hosted FileStore) id, (backend.answers t).contains id =
    .ok (t.device.disk.has (itemPath t.value.folder id)) := fun _ _ => rfl
  have hcontainsReferences : ∀ (t : Hosted FileStore) target,
    (backend.answers t).containsReferences target =
      .ok (t.device.disk.has (referencesPath t.value.folder target)) := fun _ _ => rfl
  refine ⟨fun id hid => ?_, fun id hid => ?_, fun target htarget => ?_, fun target htarget => ?_⟩
  · rw [hload, hload, hfolder, (hitems id hid).1]
  · rw [hcontains, hcontains, hfolder, (hitems id hid).2]
  · rw [hloadReferences, hloadReferences, hfolder, (htargets target htarget).1]
  · rw [hcontainsReferences, hcontainsReferences, hfolder, (htargets target htarget).2]

/-- Storing a batch alters no answer that is given from a file that the batch is not about. -/
theorem Opened.bystanders (h : Opened config s) (batch : ChangeSet)
    (hfolder : Path.ofFolder config.path = folder) :
    AgreeOn {id | itemPath folder id ∉ pathsOf folder batch}
      {target | referencesPath folder target ∉ pathsOf folder batch}
      (backend.answers (stateAfter (backend.store batch) s)) (backend.answers s) := by
  obtain ⟨base, hs⟩ := h.exists_inPlace
  rw [hfolder] at hs
  obtain ⟨hs', hleft⟩ := store_spares batch s hs
  have hread : ∀ p, IsRecord folder p → p ∉ pathsOf folder batch →
      (stateAfter (store batch) s).device.disk.read p = s.device.disk.read p ∧
        (stateAfter (store batch) s).device.disk.has p = s.device.disk.has p := by
    intro p hp hne
    have hplace : others folder base {p | p ∈ pathsOf folder batch} (placeOf folder base p) :=
      ⟨p, hp, hne, rfl⟩
    have hfollow := follow_record hs.anchored hp
    exact ⟨hleft.read_eq hplace hfollow, hleft.has_eq hplace hfollow⟩
  refine agreeOn_of_files (hs'.folder_eq.trans hs.folder_eq.symm) (fun id hid => ?_)
    fun target htarget => ?_
  · rw [hs.folder_eq]
    exact hread _ (isRecord_itemPath _ id) hid
  · rw [hs.folder_eq]
    exact hread _ (isRecord_referencesPath _ target) htarget

/-! ## Different identities -/

/-- No two of some keys have the same hash. -/
def CollisionFree (keys : Set String) : Prop :=
  Set.InjOn (fun key : String => Sha256.hash key.toUTF8.toList) keys

/-- The keys of some items, and of the reference records of some targets. -/
def keysIn (items : Set ItemId) (targets : Set NodeId) : Set String :=
  itemKey '' items ∪ referencesKey '' targets

/-- The paths of all records in a folder. -/
def recordPaths (folder : Path) : Set Path :=
  Set.range (itemPath folder) ∪ Set.range (referencesPath folder)

/-- The items that a batch is about. -/
def itemsIn (batch : ChangeSet) : Set ItemId :=
  {id | id ∈ batch.written.map ItemState.id ∨ id ∈ batch.deleted}

/-- The targets whose reference records a batch is about. -/
def targetsIn (batch : ChangeSet) : Set NodeId :=
  {target | target ∈ batch.references.map NodeReferences.target}

/-- What is in front tells the keys of items and of reference records apart. -/
theorem itemKey_ne_referencesKey (id : ItemId) (target : NodeId) :
    itemKey id ≠ referencesKey target := by
  intro h
  have hchars := congrArg String.toList h
  cases id <;> simp only [itemKey, referencesKey, String.toList_append] at hchars <;>
    exact absurd (List.cons.inj hchars).1 (by decide)

/-- Without collisions no two identities share a path. -/
theorem CollisionFree.injOn_itemPath (h : CollisionFree (keysIn items targets)) (folder : Path) :
    Set.InjOn (itemPath folder) items := fun a ha b hb heq =>
  itemKey_injective (h (Or.inl ⟨a, ha, rfl⟩) (Or.inl ⟨b, hb, rfl⟩) (recordPath_inj heq).2)

/-- Without collisions no two nodes share a path. -/
theorem CollisionFree.injOn_referencesPath (h : CollisionFree (keysIn items targets)) (folder : Path) :
    Set.InjOn (referencesPath folder) targets := fun a ha b hb heq =>
  referencesKey_injective (h (Or.inr ⟨a, ha, rfl⟩) (Or.inr ⟨b, hb, rfl⟩) (recordPath_inj heq).2)

/-- The paths of the records of a workspace are paths of records. -/
theorem isRecord_of_mem_recordPaths (h : path ∈ recordPaths folder) : IsRecord folder path := by
  rcases h with ⟨id, rfl⟩ | ⟨target, rfl⟩
  · exact isRecord_itemPath folder id
  · exact isRecord_referencesPath folder target

/-- No record, of this folder or of another one, has the path of a temporary file. -/
theorem temporary_not_mem_recordPaths (h : path ∈ recordPaths folder) (other : Path) :
    path.withEnding ".tmp" ∉ recordPaths other := by
  intro hother
  obtain ⟨kind, shard, name, rfl, hn⟩ := isRecord_of_mem_recordPaths h
  obtain ⟨kind', shard', name', heq, hn'⟩ := isRecord_of_mem_recordPaths hother
  rw [withEnding_record] at heq
  have hnames := List.append_inj_right' heq rfl
  simp only [List.cons.injEq] at hnames
  exact hn.temporary_ne hn' hnames.2.2.1

/-- The files of a batch are those of the identities that it is about. -/
theorem mem_pathsOf {batch : ChangeSet} (h : path ∈ pathsOf folder batch) :
    (∃ id ∈ itemsIn batch, path = itemPath folder id) ∨
      ∃ target ∈ targetsIn batch, path = referencesPath folder target := by
  rw [pathsOf, List.mem_append, List.mem_append] at h
  rcases h with (h | h) | h
  · obtain ⟨state, hstate, rfl⟩ := List.mem_map.1 h
    exact Or.inl ⟨state.id, Or.inl (List.mem_map_of_mem hstate), rfl⟩
  · obtain ⟨id, hid, rfl⟩ := List.mem_map.1 h
    exact Or.inl ⟨id, Or.inr hid, rfl⟩
  · obtain ⟨r, hr, rfl⟩ := List.mem_map.1 h
    exact Or.inr ⟨r.target, List.mem_map_of_mem hr, rfl⟩

/-- **Different identities have different files.** Their keys differ, whatever the names in them. So where
no two of the keys that are used have the same hash, the paths of their records differ, none of them is
that of a temporary file, and storing a batch, whether that succeeds or not, alters no answer for the
identities that the batch is not about. -/
theorem records_apart (hfree : CollisionFree (keysIn items targets)) :
    (Function.Injective itemKey ∧ Function.Injective referencesKey ∧
      ∀ id target, itemKey id ≠ referencesKey target) ∧
    (∀ folder, Set.InjOn (itemPath folder) items ∧ Set.InjOn (referencesPath folder) targets ∧
      (∀ id target, itemPath folder id ≠ referencesPath folder target) ∧
      ∀ path ∈ recordPaths folder, ∀ other, path.withEnding ".tmp" ∉ recordPaths other) ∧
    ∀ config s batch, Opened config s → itemsIn batch ⊆ items → targetsIn batch ⊆ targets →
      AgreeOn (items \ itemsIn batch) (targets \ targetsIn batch)
        (backend.answers (stateAfter (backend.store batch) s)) (backend.answers s) := by
  refine ⟨⟨itemKey_injective, referencesKey_injective, itemKey_ne_referencesKey⟩,
    fun folder => ⟨hfree.injOn_itemPath folder, hfree.injOn_referencesPath folder,
      itemPath_ne_referencesPath folder, fun path hpath => temporary_not_mem_recordPaths hpath⟩,
    fun config s batch hs hitems htargets => ?_⟩
  have hitem : ∀ id ∈ items \ itemsIn batch,
      itemPath (Path.ofFolder config.path) id ∉ pathsOf (Path.ofFolder config.path) batch := by
    intro id hid hmem
    rcases mem_pathsOf hmem with ⟨other, hother, heq⟩ | ⟨target, -, heq⟩
    · exact hid.2 (hfree.injOn_itemPath _ hid.1 (hitems hother) heq ▸ hother)
    · exact itemPath_ne_referencesPath _ _ _ heq
  have htarget : ∀ target ∈ targets \ targetsIn batch,
      referencesPath (Path.ofFolder config.path) target ∉ pathsOf (Path.ofFolder config.path) batch := by
    intro target ht hmem
    rcases mem_pathsOf hmem with ⟨id, -, heq⟩ | ⟨other, hother, heq⟩
    · exact itemPath_ne_referencesPath _ _ _ heq.symm
    · exact ht.2 (hfree.injOn_referencesPath _ ht.1 (htargets hother) heq ▸ hother)
  exact (hs.bystanders batch rfl).mono hitem htarget

/-- Items of which two have a property name with nothing or with the signs of a key in it. -/
def trickyItems : Set ItemId :=
  {.node default, .property ⟨default, ⟨""⟩⟩, .property ⟨default, ⟨"/p:a"⟩⟩}

/-- The keys of these items and of the reference record of their node. -/
def trickyKeys : List String :=
  [itemKey (.node default), itemKey (.property ⟨default, ⟨""⟩⟩), itemKey (.property ⟨default, ⟨"/p:a"⟩⟩),
    referencesKey default]

/-- The keys of the tricky names do not collide. -/
theorem collisionFree_tricky : CollisionFree (keysIn trickyItems {default}) := by
  have hlisted : ∀ key ∈ keysIn trickyItems {default}, key ∈ trickyKeys := by
    rintro _ (⟨id, rfl | rfl | rfl, rfl⟩ | ⟨target, rfl, rfl⟩) <;> simp [trickyKeys]
  have hdiffer : ∀ key ∈ trickyKeys, ∀ other ∈ trickyKeys,
      Sha256.hash key.toUTF8.toList = Sha256.hash other.toUTF8.toList → key = other := by
    decide +kernel
  exact fun key hkey other hother => hdiffer key (hlisted key hkey) other (hlisted other hother)

/-- The workspace of the example is opened. -/
theorem opened_ws : Opened ⟨"ws", true, true⟩ (opened true) := by
  have hroomy : Path.Roomy room (Path.ofFolder (FileConfig.mk "ws" true true).path) := roomy_ws
  obtain ⟨store, device, hcreate, -⟩ :=
    (create_yields rfl hroomy (.of_reliable ∅ 0) rfl vacant_ws).exists_ok fun _ hf =>
      Regime.not_fallible_of_reliable [] 0 hf
  rw [opened, hcreate]
  exact .created Disk.sound_empty hcreate

/-- These items have files of their own, and storing the node leaves the properties as they are. -/
theorem records_apart_tricky : CollisionFree (keysIn trickyItems {default}) ∧
    Opened ⟨"ws", true, true⟩ (opened true) ∧ Set.InjOn (itemPath ["ws"]) trickyItems ∧
    (backend.answers (stateAfter (backend.store ⟨[default], [], [], []⟩) (opened true))).contains
        (.property ⟨default, ⟨"/p:a"⟩⟩) =
      (backend.answers (opened true)).contains (.property ⟨default, ⟨"/p:a"⟩⟩) := by
  obtain ⟨-, hpaths, hanswers⟩ := records_apart collisionFree_tricky
  have hin : itemsIn ⟨[default], [], [], []⟩ ⊆ trickyItems := by
    rintro id (hid | hid)
    · exact Or.inl (List.mem_singleton.1 hid)
    · cases hid
  have hout : (.property ⟨default, ⟨"/p:a"⟩⟩ : ItemId) ∉ itemsIn ⟨[default], [], [], []⟩ := by
    rintro (hid | hid)
    · cases List.mem_singleton.1 hid
    · cases hid
  exact ⟨collisionFree_tricky, opened_ws, (hpaths ["ws"]).1,
    (hanswers _ _ _ opened_ws hin fun _ h => nomatch h).contains _ ⟨Or.inr (Or.inr rfl), hout⟩⟩

end FileStore

end ContentTree
