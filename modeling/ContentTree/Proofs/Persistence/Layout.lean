import ContentTree.Proofs.Persistence.Names

/-!
# Workspace folders in order

A workspace folder is in order if its path leads to it and everything in it is of the kind that the
store takes it for: folders above, files below, a manifest that passes. What is read at the path of a
record is then the file at the record's place (`InOrder.read_record`), and changes near a record or of
the journal keep the folder in order.
-/

namespace ContentTree.FileStore

/-- Where a workspace is: its path and place, and the contents of its lock file and journal. -/
structure Site where
  folder : Path
  base : Location
  lock : Nat
  journal : Nat

/-- The octets that the longest path of a workspace needs behind that of its folder. -/
def room : Nat := 77

/-- A workspace folder in which everything is of its kind. -/
structure InOrder (w : Site) (d : Disk) : Prop where
  roomy : Path.Roomy room w.folder
  sound : d.Sound
  anchored : Disk.Anchored w.folder w.base d
  kind : ∀ kind ∈ kinds, d.occupant? (kind :: w.base) = some .folder
  shard : ∀ kind ∈ kinds, ∀ shard inode, d.occupant? (shard :: kind :: w.base) ≠ some (.file inode)
  record : ∀ kind ∈ kinds, ∀ shard name, d.occupant? (name :: shard :: kind :: w.base) ≠ some .folder
  manifest : ∃ bytes, d.fileAt ("MANIFEST" :: w.base) = some bytes ∧ checkManifest bytes = .ok ()
  lock : d.occupant? (".lock" :: w.base) = some (.file w.lock)
  journal : d.occupant? ("journal" :: w.base) = some (.file w.journal)

variable {w : Site} {d d' : Disk} {path : Path} {kind shard name : String}

/-- A name that a file may have in the folder of a record. -/
structure Fitting (n : String) : Prop where
  plain : Path.Plain n
  size_le : n.utf8ByteSize ≤ 68

/-- The name of a record fits below its shard. -/
theorem Names.fitting_name (h : Names kind shard name) : Fitting name :=
  ⟨h.name_plain, by rw [h.name_size]; decide⟩

/-- The name of a temporary copy fits below its shard. -/
theorem Names.fitting_temporary (h : Names kind shard name) : Fitting (name ++ ".tmp") :=
  ⟨h.temporary_plain, by rw [String.utf8ByteSize_append, h.name_size]; decide⟩

/-- A fitting name has room below the folder. -/
theorem size_in {n : String} (h : Names kind shard name) (hn : Fitting n) :
    Path.size [kind, shard, n] ≤ room := by
  have hkind : kind.utf8ByteSize ≤ 5 :=
    (by decide : ∀ k ∈ kinds, k.utf8ByteSize ≤ 5) kind h.kind_mem
  have hshard := h.shard_size
  have hle := hn.size_le
  rw [Path.size_cons _ (List.cons_ne_nil _ _), Path.size_cons _ (List.cons_ne_nil _ _),
    Path.size_singleton, room]
  omega

/-- The names on the way to a fitting name are plain. -/
theorem plain_in {n : String} (h : Names kind shard name) (hn : Fitting n) :
    ∀ m ∈ [kind, shard, n], Path.Plain m := by
  intro m hm
  rcases List.mem_cons.1 hm with rfl | hm
  · exact plain_kind h.kind_mem
  rcases List.mem_cons.1 hm with rfl | hm
  · exact h.shard_plain
  · exact List.mem_singleton.1 hm ▸ hn.plain

/-- The contents of files, by path. -/
def filesIn (d : Disk) (p : Path) : Option Bytes :=
  match d.read p with
  | .ok contents => some contents
  | .error _ => none

/-- The octets of the journal in a folder. -/
def journalIn (folder : Path) (d : Disk) : Bytes :=
  (filesIn d (folder ++ ["journal"])).getD []

namespace InOrder

/-! ## Paths in the folder -/

/-- A name in the folder itself leads to its place, as long as no folder goes. -/
theorem leads_kept (h : InOrder w d)
    (hkept : ∀ {p}, d.occupant? p = some .folder → d'.occupant? p = some .folder)
    (hplain : Path.Plain name) (hsize : name.utf8ByteSize ≤ room) :
    d'.Leads (w.folder ++ [name]) (name :: w.base) := by
  exact (h.anchored.kept hkept).leads_name hplain
    (h.roomy.check_append (fun n hn => List.mem_singleton.1 hn ▸ hplain) hsize)

/-- The path of the journal leads to it as long as folders stay folders. -/
theorem leads_journal_kept (h : InOrder w d)
    (hkept : ∀ {p}, d.occupant? p = some .folder → d'.occupant? p = some .folder) :
    d'.Leads (w.folder ++ ["journal"]) ("journal" :: w.base) :=
  h.leads_kept hkept ⟨by decide, by decide, by decide, by decide⟩ (by decide)

/-- The path of the journal leads to it. -/
theorem leads_journal (h : InOrder w d) : d.Leads (w.folder ++ ["journal"]) ("journal" :: w.base) :=
  h.leads_journal_kept id

/-- The octets of the journal are those of its file. -/
theorem journalIn_eq (h : InOrder w d) : journalIn w.folder d = d.contentsOf w.journal := by
  rw [journalIn, filesIn, h.leads_journal.read_of_file h.journal]
  rfl

/-- The path of the lock leads to it. -/
theorem leads_lock (h : InOrder w d) : d.Leads (w.folder ++ [".lock"]) (".lock" :: w.base) :=
  h.leads_kept id ⟨by decide, by decide, by decide, by decide⟩ (by decide)

/-- The path of the manifest leads to it. -/
theorem leads_manifest (h : InOrder w d) : d.Leads (manifestPath w.folder) ("MANIFEST" :: w.base) :=
  h.leads_kept id ⟨by decide, by decide, by decide, by decide⟩ (by decide)

/-- A path with a fitting name can be used. -/
theorem check_in {n : String} (h : InOrder w d) (hn : Names kind shard name) (hfit : Fitting n) :
    (w.folder ++ [kind, shard, n]).check = .ok () :=
  h.roomy.check_append (plain_in hn hfit) (size_in hn hfit)

/-- The path of a shard can be used. -/
theorem check_shard (h : InOrder w d) (hn : Names kind shard name) :
    (w.folder ++ [kind, shard]).check = .ok () := by
  refine Path.check_of_prefix (h.check_in hn hn.fitting_name) ⟨[name], ?_⟩
  rw [List.append_assoc]
  rfl

/-- The path of a file in the folder of a record leads to its place if that folder is there, as long
as no folder goes. -/
theorem leads_in_kept {n : String} (h : InOrder w d)
    (hkept : ∀ {p}, d.occupant? p = some .folder → d'.occupant? p = some .folder)
    (hn : Names kind shard name) (hfit : Fitting n)
    (hshard : d'.occupant? (shard :: kind :: w.base) = some .folder) :
    d'.Leads (w.folder ++ [kind, shard, n]) (n :: shard :: kind :: w.base) :=
  (h.anchored.kept hkept).leads [kind, shard] (plain_in hn hfit) (h.check_in hn hfit) hshard

/-- The path of a record leads to it where its shard is a folder. -/
theorem leads_record (h : InOrder w d) (hn : Names kind shard name)
    (hshard : d.occupant? (shard :: kind :: w.base) = some .folder) :
    d.Leads (w.folder ++ [kind, shard, name]) (name :: shard :: kind :: w.base) :=
  h.leads_in_kept id hn hn.fitting_name hshard

/-- A missing shard has no records. -/
theorem occupant?_of_missing (h : InOrder w d) (hshard : d.occupant? (shard :: kind :: w.base) = none)
    (name : String) : d.occupant? (name :: shard :: kind :: w.base) = none := by
  cases he : d.occupant? (name :: shard :: kind :: w.base) with
  | none => rfl
  | some e =>
    have habove := h.sound.enclosed (by rw [he]; rfl)
    rw [hshard] at habove
    cases habove

/-- Where the folder of a record is missing, its path leads nowhere. -/
theorem lookup_of_missing (h : InOrder w d) (hn : Names kind shard name)
    (hshard : d.occupant? (shard :: kind :: w.base) = none) :
    d.lookup (w.folder ++ [kind, shard, name]) = .error .notFound := by
  have hfollow := h.anchored.follow_append (plain_in hn hn.fitting_name)
  have hgone := h.occupant?_of_missing hshard name
  have hcheck : d.checkFolder (shard :: kind :: w.base) = .error .notFound := by
    rw [Disk.occupant?_of_ne_nil (List.cons_ne_nil _ _)] at hshard
    rw [Disk.checkFolder, hshard, Disk.checkFolder_eq_ok.2 (h.kind kind hn.kind_mem)]
    rfl
  rw [Disk.lookup, h.check_in hn hn.fitting_name]
  have hplace : [kind, shard, name].reverse ++ w.base = name :: shard :: kind :: w.base := rfl
  simp only [bind, Except.bind, hfollow, hplace, hgone]
  show Except.bind (d.checkFolder (shard :: kind :: w.base)) _ = _
  rw [hcheck]
  rfl

/-- A shard is a folder or missing. -/
theorem shard_cases (h : InOrder w d) (hn : Names kind shard name) :
    d.occupant? (shard :: kind :: w.base) = some .folder ∨ d.occupant? (shard :: kind :: w.base) = none := by
  cases he : d.occupant? (shard :: kind :: w.base) with
  | none => exact Or.inr rfl
  | some e =>
    cases e with
    | folder => exact Or.inl rfl
    | file inode => exact absurd he (h.shard kind hn.kind_mem shard inode)

/-- The path of a record leads to its place, or its folder is missing and so is the record. -/
theorem record_cases (h : InOrder w d) (hp : IsRecord w.folder path) :
    d.Leads path (placeOf w.folder w.base path) ∧
        d.occupant? (placeOf w.folder w.base path) ≠ some .folder ∨
      d.fileAt (placeOf w.folder w.base path) = none ∧ d.lookup path = .error .notFound := by
  obtain ⟨kind, shard, name, rfl, hn⟩ := hp
  have hplace : placeOf w.folder w.base (w.folder ++ [kind, shard, name]) =
      name :: shard :: kind :: w.base := placeOf_append _ _ _
  have hrecord := h.record kind hn.kind_mem shard name
  rw [hplace]
  rcases h.shard_cases hn with hshard | hshard
  · exact .inl ⟨h.leads_record hn hshard, hrecord⟩
  · exact .inr ⟨(Disk.fileAt_eq_none hrecord).2 (h.occupant?_of_missing hshard name),
      h.lookup_of_missing hn hshard⟩

/-- What is read at the path of a record. -/
theorem read_record (h : InOrder w d) (hp : IsRecord w.folder path) :
    d.read path = match d.fileAt (placeOf w.folder w.base path) with
      | some bytes => .ok bytes
      | none => .error .notFound := by
  rcases h.record_cases hp with ⟨hleads, hrecord⟩ | ⟨hnone, hlookup⟩
  · exact hleads.read_eq hrecord
  · rw [hnone, Disk.read, Disk.file, Disk.located, hlookup]
    rfl

/-- What is under the path of a record is what stands in its place. -/
theorem filesIn_eq (h : InOrder w d) (hp : IsRecord w.folder path) :
    filesIn d path = d.fileAt (placeOf w.folder w.base path) := by
  rw [filesIn, h.read_record hp]
  cases d.fileAt (placeOf w.folder w.base path) <;> rfl

/-- A record is there if a file stands in its place. -/
theorem has_record (h : InOrder w d) (hp : IsRecord w.folder path) :
    d.has path = (d.fileAt (placeOf w.folder w.base path)).isSome := by
  rcases h.record_cases hp with ⟨hleads, hrecord⟩ | ⟨hnone, hlookup⟩
  · exact hleads.has_eq hrecord
  · rw [hnone, Disk.has, hlookup]
    rfl

/-! ## Changes -/

/-- What stands at a place may be there, if the place is that of a record, its folder or the journal. -/
def Allowed (w : Site) (d : Disk) (place : Location) : Prop :=
  (∃ kind ∈ kinds, ∃ shard, place = shard :: kind :: w.base ∧
    ∀ inode, d.occupant? place ≠ some (.file inode)) ∨
  (∃ kind ∈ kinds, ∃ shard name, place = name :: shard :: kind :: w.base ∧
    d.occupant? place ≠ some .folder) ∨
  (place = "journal" :: w.base ∧ d.occupant? place = some (.file w.journal))

/-! Places at different depths differ, so the depth tells which of the three a place is. -/

/-- No file stands where a shard is allowed. -/
theorem Allowed.at_shard (h : Allowed w d (shard :: kind :: w.base)) (inode : Nat) :
    d.occupant? (shard :: kind :: w.base) ≠ some (.file inode) := by
  rcases h with ⟨_, -, _, -, hno⟩ | ⟨_, -, _, _, heq, -⟩ | ⟨heq, -⟩
  · exact hno inode
  · exact absurd heq (ne_of_apply_ne List.length (by simp only [List.length_cons]; omega))
  · exact absurd heq (ne_of_apply_ne List.length (by simp only [List.length_cons]; omega))

/-- No folder stands where a record is allowed. -/
theorem Allowed.at_record (h : Allowed w d (name :: shard :: kind :: w.base)) :
    d.occupant? (name :: shard :: kind :: w.base) ≠ some .folder := by
  rcases h with ⟨_, -, _, heq, -⟩ | ⟨_, -, _, _, -, hno⟩ | ⟨heq, -⟩
  · exact absurd heq (ne_of_apply_ne List.length (by simp only [List.length_cons]; omega))
  · exact hno
  · exact absurd heq (ne_of_apply_ne List.length (by simp only [List.length_cons]; omega))

/-- In the folder itself that is the journal. -/
theorem Allowed.at_journal (h : Allowed w d (name :: w.base)) :
    name = "journal" ∧ d.occupant? (name :: w.base) = some (.file w.journal) := by
  rcases h with ⟨_, -, _, heq, -⟩ | ⟨_, -, _, _, heq, -⟩ | ⟨heq, hfile⟩
  · exact absurd heq (ne_of_apply_ne List.length (by simp only [List.length_cons]; omega))
  · exact absurd heq (ne_of_apply_ne List.length (by simp only [List.length_cons]; omega))
  · exact ⟨(List.cons.inj heq).1, hfile⟩

/-- The folder stays in order while what changes in it is what may be there. -/
theorem of_touched {places : Location → Prop} (h : InOrder w d) (ht : Disk.Touched places d d')
    (hplaces : ∀ l, places l → Allowed w d' l) : InOrder w d' where
  roomy := h.roomy
  sound := ht.sound
  anchored := h.anchored.kept ht.folder
  kind kind hk := ht.folder (h.kind kind hk)
  shard kind hk shard inode := by
    by_cases hp : places (shard :: kind :: w.base)
    · exact (hplaces _ hp).at_shard inode
    · rw [ht.entry hp]
      exact h.shard kind hk shard inode
  record kind hk shard name := by
    by_cases hp : places (name :: shard :: kind :: w.base)
    · exact (hplaces _ hp).at_record
    · rw [ht.entry hp]
      exact h.record kind hk shard name
  manifest := by
    obtain ⟨bytes, hbytes, hpass⟩ := h.manifest
    refine ⟨bytes, ?_, hpass⟩
    rw [ht.fileAt fun hp => absurd (hplaces _ hp).at_journal.1 (by decide), hbytes]
  lock := by
    rw [ht.entry fun hp => absurd (hplaces _ hp).at_journal.1 (by decide), h.lock]
  journal := by
    by_cases hp : places ("journal" :: w.base)
    · exact (hplaces _ hp).at_journal.2
    · rw [ht.entry hp, h.journal]

/-- Filling the journal keeps the workspace in order. -/
theorem of_filled {contents : Bytes} (h : InOrder w d)
    (hfile : Disk.Filled ("journal" :: w.base) w.journal d contents d') : InOrder w d' :=
  h.of_touched hfile.touched fun l hl => Or.inr (Or.inr (by subst hl; exact ⟨rfl, hfile.entry⟩))

end InOrder

end ContentTree.FileStore
