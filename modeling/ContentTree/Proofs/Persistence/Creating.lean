import ContentTree.Proofs.Persistence.Opening

/-!
# Making a workspace

Where a path leads over folders that are there and then over names of nothing, a workspace can be made
(`create_yields`). It opens with no records and an empty journal.
-/

namespace ContentTree.FileStore

variable {r : Regime} {folder : Path} {base : Location} {d d' : Disk} {device : Device}

/-- A path at which there is nothing yet: it leads over folders and then over plain names, with no file
in the way, and nothing stands where it leads. -/
structure Vacant (folder : Path) (base : Location) (d : Disk) : Prop where
  sound : d.Sound
  path : ∃ above l ns, folder = above ++ ns ∧ base = ns.reverse ++ l ∧ Disk.Anchored above l d ∧
    ∀ n ∈ ns, Path.Plain n
  noFile : ∀ place, place <:+ base → ∀ inode, d.occupant? place ≠ some (.file inode)
  nothing : ∀ name, d.occupant? (name :: base) = none

/-- Below a vacant folder there are no shards. -/
theorem Vacant.occupant?_below (h : Vacant folder base d) (shard kind : String) :
    d.occupant? (shard :: kind :: base) = none := by
  cases he : d.occupant? (shard :: kind :: base) with
  | none => rfl
  | some e =>
    have habove := h.sound.enclosed (by rw [he]; rfl)
    rw [h.nothing kind] at habove
    cases habove

/-- On an empty device nothing is at any path of plain names. -/
theorem vacant_empty {ns : Path} (h : ∀ n ∈ ns, Path.Plain n) : Vacant ns ns.reverse ∅ where
  sound := Disk.sound_empty
  path := ⟨[], [], ns, rfl, (List.append_nil _).symm, ⟨rfl, rfl⟩, h⟩
  noFile _ _ _ hfile := nomatch Disk.eq_folder_of_occupant?_empty hfile
  nothing _ := rfl

/-- A workspace folder in which there are no records. -/
structure Blank (folder : Path) (base : Location) (d : Disk) : Prop where
  roomy : Path.Roomy room folder
  sound : d.Sound
  anchored : Disk.Anchored folder base d
  kind : ∀ kind ∈ kinds, d.occupant? (kind :: base) = some .folder
  shard : ∀ shard kind, d.occupant? (shard :: kind :: base) = none

namespace Blank

variable {name : String}

/-- A blank folder stays blank when one name in it is touched. -/
theorem touched (h : Blank folder base d) (ht : Disk.Touched (· = name :: base) d d') :
    Blank folder base d' where
  roomy := h.roomy
  sound := ht.sound
  anchored := h.anchored.kept ht.folder
  kind kind hk := ht.folder (h.kind kind hk)
  shard shard kind := by
    rw [ht.entry (ne_of_apply_ne List.length (by simp only [List.length_cons]; omega)), h.shard]

/-- In a blank folder a plain name leads to its place. -/
theorem leads (h : Blank folder base d) (hplain : Path.Plain name)
    (hsize : name.utf8ByteSize ≤ room) : d.Leads (folder ++ [name]) (name :: base) :=
  h.anchored.leads_name hplain
    (h.roomy.check_append (fun _ hn => List.mem_singleton.1 hn ▸ hplain) hsize)

/-- In a blank folder there are no records. -/
theorem occupant?_record (h : Blank folder base d) (name shard kind : String) :
    d.occupant? (name :: shard :: kind :: base) = none := by
  cases he : d.occupant? (name :: shard :: kind :: base) with
  | none => rfl
  | some e =>
    have habove := h.sound.enclosed (by rw [he]; rfl)
    rw [h.shard] at habove
    cases habove

/-- With its files a folder without records is in order. -/
theorem inOrder (h : Blank folder base d) {lock journal : Nat} {bytes : Bytes}
    (hmanifest : d.fileAt ("MANIFEST" :: base) = some bytes) (hpass : checkManifest bytes = .ok ())
    (hlock : d.occupant? (".lock" :: base) = some (.file lock))
    (hjournal : d.occupant? ("journal" :: base) = some (.file journal)) :
    InOrder ⟨folder, base, lock, journal⟩ d where
  roomy := h.roomy
  sound := h.sound
  anchored := h.anchored
  kind := h.kind
  shard kind _ shard inode hfile := by
    rw [h.shard] at hfile
    cases hfile
  record kind _ shard name hfolder := by
    rw [h.occupant?_record] at hfolder
    cases hfolder
  manifest := ⟨bytes, hmanifest, hpass⟩
  lock := hlock
  journal := hjournal

/-- A blank folder has no record under any path. -/
theorem records_eq (h : Blank folder base d) {lock journal : Nat} {p : Path}
    (hp : IsRecord folder p) : records ⟨folder, base, lock, journal⟩ d p = none := by
  obtain ⟨kind, shard, name, rfl, -⟩ := hp
  have hnone := h.occupant?_record name shard kind
  rw [records, placeOf_append]
  refine (Disk.fileAt_eq_none ?_).2 hnone
  show d.occupant? (name :: shard :: kind :: base) ≠ _
  rw [hnone]
  exact fun h => by cases h

end Blank

/-! ## The steps -/

/-- The first folder of records is made, with all folders on the way. -/
theorem Vacant.items_yields (h : Vacant folder base device.disk) (hroomy : Path.Roomy room folder)
    (hup : r.Up device) :
    Yields (fun _ d => r.Up d ∧ Disk.Anchored folder base d.disk ∧
        Disk.Touched (· <:+ "items" :: base) device.disk d.disk ∧
        d.disk.occupant? ("items" :: base) = some .folder)
      (fun d => r.Down d) (Device.makeFolders (folder ++ ["items"]) device) := by
  obtain ⟨above, l, ns, rfl, rfl, hanchored, hplain⟩ := h.path
  have hitems : Path.Plain "items" := plain_kind (by decide)
  have hall : ∀ n ∈ ns ++ ["items"], Path.Plain n := by
    intro n hn
    rcases List.mem_append.1 hn with hn | hn
    · exact hplain n hn
    · exact List.mem_singleton.1 hn ▸ hitems
  have hcheck : (above ++ ns ++ ["items"]).check = .ok () :=
    hroomy.check_append (fun n hn => List.mem_singleton.1 hn ▸ hitems) (by decide)
  have hplace : (ns ++ ["items"]).reverse ++ l = "items" :: (ns.reverse ++ l) := by
    rw [List.reverse_append]
    rfl
  -- nothing stands under the last name, and no file above it
  have hfile : ∀ q, q <:+ (ns ++ ["items"]).reverse ++ l →
      ∀ i, device.disk.occupant? q ≠ some (.file i) := by
    intro q hq i
    rw [hplace] at hq
    rcases List.suffix_cons_iff.1 hq with rfl | hq
    · rw [h.nothing]
      exact fun h => by cases h
    · exact h.noFile q hq i
  have hyields := Device.makeFoldersTo_yields hup h.sound hanchored (by simp) hall
    (List.append_assoc above ns _) hcheck hfile
  rw [hplace] at hyields
  refine hyields.imp (fun _ d hd => ?_) fun d hd => hd
  obtain ⟨hup', ht, hfolder⟩ := hd
  exact ⟨hup', ⟨(hanchored.kept ht.folder).follow_append hplain,
    ht.sound.enclosed (by rw [hfolder]; rfl)⟩, ht, hfolder⟩

/-- The folders of a workspace are made. -/
theorem Vacant.folders_yields (h : Vacant folder base device.disk) (hroomy : Path.Roomy room folder)
    (hup : r.Up device) :
    Yields (fun _ d => r.Up d ∧ Blank folder base d.disk ∧
        ∀ name ∉ kinds, d.disk.occupant? (name :: base) = none)
      (fun d => r.Down d)
      ((do Device.makeFolders (folder ++ ["items"]); Device.makeFolders (folder ++ ["refs"]) :
        Device.Action Unit) device) := by
  refine Yields.bind (h.items_yields hroomy hup) fun _ d₁ h₁ => ?_
  obtain ⟨hup₁, hanchored, ht₁, hitems⟩ := h₁
  have hrefs : Path.Plain "refs" := plain_kind (by decide)
  have hcheck : (folder ++ ["refs"]).check = .ok () :=
    hroomy.check_append (fun n hn => List.mem_singleton.1 hn ▸ hrefs) (by decide)
  -- nothing but the first folder of records has come to stand in the workspace
  have hother : ∀ name, name ≠ "items" → d₁.disk.occupant? (name :: base) = none := by
    intro name hname
    rw [ht₁.entry fun hs => ?_, h.nothing]
    rcases List.suffix_cons_iff.1 hs with heq | hs
    · exact hname (List.cons.inj heq).1
    · have hle := hs.length_le
      rw [List.length_cons] at hle
      omega
  have hnone := hother "refs" (by decide)
  refine (Device.makeFolders_yields hup₁ ht₁.sound hanchored hrefs hcheck fun i => ?_).imp
    (fun _ d₂ h₂ => ?_) fun d hd => hd.1
  · rw [hnone]
    exact fun h => by cases h
  obtain ⟨hup₂, ht₂, hfolder⟩ := h₂
  refine ⟨hup₂, ⟨hroomy, ht₂.sound, hanchored.kept ht₂.folder, fun kind hk => ?_, fun shard kind => ?_⟩,
    fun name hname => ?_⟩
  · rcases List.mem_cons.1 hk with rfl | hk
    · exact ht₂.folder hitems
    · exact List.mem_singleton.1 hk ▸ hfolder
  · have hlow : ¬shard :: kind :: base <:+ "items" :: base := fun hs => by
      have hle := hs.length_le
      simp only [List.length_cons] at hle
      omega
    rw [ht₂.entry (ne_of_apply_ne List.length (by simp only [List.length_cons]; omega)), ht₁.entry hlow, h.occupant?_below]
  · rw [ht₂.entry fun heq => ?_, hother name fun heq => hname (heq ▸ by decide)]
    exact hname ((List.cons.inj heq).1 ▸ by decide)

/-- A manifest is written where there is none. -/
theorem writeManifest_yields (hup : r.Up device) (h : Blank folder base device.disk)
    (hnone : device.disk.occupant? ("MANIFEST" :: base) = none) :
    Yields (fun _ d => r.Up d ∧ Disk.Touched (· = "MANIFEST" :: base) device.disk d.disk ∧
        d.disk.fileAt ("MANIFEST" :: base) = some (manifestMagic ++ [manifestVersion]))
      (fun d => r.Down d) (writeManifest folder device) := by
  have hfolder : device.disk.occupant? ("MANIFEST" :: base) ≠ some .folder := by
    rw [hnone]
    exact fun h => by cases h
  refine Yields.bind ((Device.create_yields hup
    (h.leads ⟨by decide, by decide, by decide, by decide⟩ (by decide)) h.sound hfolder).imp
    (fun _ d h₁ => h₁) fun d h₁ => h₁.1) fun inode d₁ h₁ => ?_
  obtain ⟨hup₁, htouched, hentry, hempty⟩ := h₁
  have hfile₁ : Disk.Filled ("MANIFEST" :: base) inode device.disk [] d₁.disk :=
    ⟨htouched, hentry, hempty⟩
  refine Yields.bind ((Device.write_yields hup₁ inode manifestMagic).imp (fun _ d h₂ => h₂)
    fun d h₂ => h₂.1) fun _ d₂ h₂ => ?_
  have hfile₂ : Disk.Filled ("MANIFEST" :: base) inode device.disk manifestMagic d₂.disk :=
    h₂.2 ▸ hfile₁.append manifestMagic
  refine Yields.bind ((Device.write_yields h₂.1 inode [manifestVersion]).imp (fun _ d h₃ => h₃)
    fun d h₃ => h₃.1) fun _ d₃ h₃ => ?_
  have hfile₃ : Disk.Filled ("MANIFEST" :: base) inode device.disk
      (manifestMagic ++ [manifestVersion]) d₃.disk := h₃.2 ▸ hfile₂.append [manifestVersion]
  refine (Device.sync_yields h₃.1 inode).imp (fun _ d₄ h₄ => ?_) fun d h₄ => h₄.1
  rw [h₄.2]
  exact ⟨h₄.1, hfile₃.touched, hfile₃.fileAt⟩

/-- A workspace that is open, with an empty journal. -/
structure Settled (r : Regime) (w : Site) (files : Path → Option Bytes) (s : Hosted FileStore) :
    Prop where
  up : (r.holding [w.lock]).Up s.device
  waiting : Waiting w files Journal.header [] s
  nextSeq_eq : s.value.journal.nextSeq = 1

/-- Recovery does nothing when nothing is pending. -/
theorem recover_eq {w : Site} {s : Hosted FileStore} {files : Path → Option Bytes} {log : Bytes}
    {writer : Option Writer} (h : Serving w files log writer s) (hnone : Journal.pendingIn log = []) :
    recover s = .ok ⟨⟩ s := by
  rw [recover, bind_of_ok (pendingEntries_eq h), hnone]
  rfl

/-- A folder without records whose manifest passes is opened, and gets its lock file and journal. -/
theorem Blank.openAt_yields {config : FileConfig} {bytes : Bytes}
    (hfolder : Path.ofFolder config.path = folder) (hup : r.Up device) (hlocks : r.locks = [])
    (h : Blank folder base device.disk)
    (hmanifest : device.disk.fileAt ("MANIFEST" :: base) = some bytes)
    (hpass : checkManifest bytes = .ok ()) (hlock : device.disk.occupant? (".lock" :: base) = none)
    (hjournal : device.disk.occupant? ("journal" :: base) = none) :
    Yields (fun store d => ∃ lock journal,
        Settled r ⟨folder, base, lock, journal⟩ (fun _ => none) ⟨d, store⟩)
      (fun _ => r.Fallible) (openAt config device) := by
  have hread : Device.query (·.read (manifestPath folder)) device = .ok bytes device := by
    obtain ⟨inode, hentry, hcontents⟩ := Disk.exists_of_fileAt hmanifest
    have hleads : device.disk.Leads (manifestPath folder) ("MANIFEST" :: base) :=
      h.leads ⟨by decide, by decide, by decide, by decide⟩ (by decide)
    have hquery : device.disk.read (manifestPath folder) = .ok bytes :=
      (hleads.read_of_file hentry).trans (congrArg _ hcontents)
    rw [Device.query_eq, hquery]
  have hno : device.disk.occupant? (".lock" :: base) ≠ some .folder := by
    rw [hlock]
    exact fun h => by cases h
  have hleads : device.disk.Leads (folder ++ [".lock"]) (".lock" :: base) :=
    h.leads ⟨by decide, by decide, by decide, by decide⟩ (by decide)
  -- making the lock leaves the folder blank but for it, and so does making the journal
  obtain ⟨inode, disk, htouch, ht, hentry⟩ := hleads.touch h.sound hno
  rw [openAt, hfolder, bind_of_ok hread, hpass]
  refine Yields.bind ((Device.lock_yields (fun i d => i = inode ∧ d = disk) hup
    ⟨inode, disk, htouch, rfl, rfl⟩ fun _ _ _ => ?_).imp (fun _ d hd => hd)
    fun d hd => hd.1.fallible) fun lock d₁ h₁ => ?_
  · rw [hlocks]
    exact List.not_mem_nil
  obtain ⟨hup₁, rfl, rfl⟩ := h₁
  rw [hlocks] at hup₁
  have hblank := h.touched ht
  have hnone : d₁.disk.occupant? ("journal" :: base) = none := by
    rw [ht.entry fun heq => absurd (List.cons.inj heq).1 (by decide), hjournal]
  have hopen := Journal.openAt_new_yields hup₁ hblank.sound hnone
    fun ht' => (hblank.touched ht').leads ⟨by decide, by decide, by decide, by decide⟩ (by decide)
  refine recovered_yields (hopen.imp (fun _ d hd => hd) fun d hd => hd.fallible) fun journal d₂ h₂ => ?_
  obtain ⟨hup₂, i, hfile, rfl⟩ := h₂
  have hblank₂ := hblank.touched hfile.touched
  have hmanifest₂ : d₂.disk.fileAt ("MANIFEST" :: base) = some bytes := by
    rw [hfile.touched.fileAt fun heq => absurd (List.cons.inj heq).1 (by decide),
      ht.fileAt fun heq => absurd (List.cons.inj heq).1 (by decide), hmanifest]
  have hlock₂ : d₂.disk.occupant? (".lock" :: base) = some (.file lock) := by
    rw [hfile.touched.entry fun heq => absurd (List.cons.inj heq).1 (by decide), hentry]
  have hw : Waiting ⟨folder, base, lock, i⟩ (fun _ => none) Journal.header []
      ⟨d₂, ⟨folder, config.syncWrites, lock, ⟨folder ++ ["journal"], 1, some ⟨i, []⟩⟩⟩⟩ :=
    ⟨hblank₂.inOrder hmanifest₂ hpass hlock₂ hfile.entry, rfl, rfl, rfl, rfl, hfile.contents_eq,
      fun p hp => hblank₂.records_eq hp⟩
  -- nothing is pending in a journal that was just made
  rw [recover_eq hw Journal.pendingIn_header]
  exact ⟨lock, i, hup₂, hw, rfl⟩

/-- A workspace is made where there is nothing. -/
theorem create_yields {config : FileConfig} (hfolder : Path.ofFolder config.path = folder)
    (hroomy : Path.Roomy room folder) (hup : r.Up device) (hlocks : r.locks = [])
    (h : Vacant folder base device.disk) :
    Yields (fun store d => ∃ lock journal,
        Settled r ⟨folder, base, lock, journal⟩ (fun _ => none) ⟨d, store⟩)
      (fun _ => r.Fallible) (create config device) := by
  have hsteps : create config device = ((do
      Device.makeFolders (folder ++ ["items"])
      Device.makeFolders (folder ++ ["refs"])) >>= fun _ => do
      writeManifest folder
      openAt config : Device.Action FileStore) device := by
    rw [create, hfolder, bind_assoc]
  rw [hsteps]
  refine Yields.bind ((h.folders_yields hroomy hup).imp (fun _ d h₁ => h₁)
    fun d h₁ => h₁.fallible) fun _ d₁ h₁ => ?_
  obtain ⟨hup₁, hblank, hnone⟩ := h₁
  refine Yields.bind ((writeManifest_yields hup₁ hblank (hnone _ (by decide))).imp
    (fun _ d h₂ => h₂) fun d h₂ => h₂.fallible) fun _ d₂ h₂ => ?_
  obtain ⟨hup₂, ht, hmanifest⟩ := h₂
  refine (hblank.touched ht).openAt_yields hfolder hup₂ hlocks hmanifest rfl ?_ ?_
  · rw [ht.entry fun heq => absurd (List.cons.inj heq).1 (by decide), hnone _ (by decide)]
  · rw [ht.entry fun heq => absurd (List.cons.inj heq).1 (by decide), hnone _ (by decide)]

end ContentTree.FileStore
