import ContentTree.Proofs.Persistence.Journal
import ContentTree.Proofs.Persistence.Layout
import Mathlib.Data.List.Induction

/-!
# Making changes

A change of a record gives the record its contents, or a failure leaves things changed at most near the
record. So after the changes of a batch the records are what the batch makes of them (`outcome`), and
after a part of them the records that no change is about are as before.
-/

namespace ContentTree.FileStore

variable {r : Regime} {w : Site} {device : Device} {d d' : Disk}

/-! ## What changes make of files -/

/-- The contents that a change leaves in its file. -/
def Change.contents? : Change → Option Bytes
  | .write _ contents => some contents
  | .remove _ => none

/-- The contents of files after changes, by path. -/
def outcome (cs : List Change) (files : Path → Option Bytes) : Path → Option Bytes :=
  cs.foldl (fun files c p => if p = c.path then c.contents? else files p) files

variable {files files' : Path → Option Bytes}

/-- The outcome of more changes is theirs on the outcome of the first. -/
theorem outcome_append (cs cs' : List Change) (files : Path → Option Bytes) :
    outcome (cs ++ cs') files = outcome cs' (outcome cs files) :=
  List.foldl_append

/-- The last change decides its own path and no other. -/
theorem outcome_concat (cs : List Change) (c : Change) (files : Path → Option Bytes) (p : Path) :
    outcome (cs ++ [c]) files p = if p = c.path then c.contents? else outcome cs files p := by
  rw [outcome_append]
  rfl

/-- Files that no change is about stay as they are. -/
theorem outcome_of_not_mem {cs : List Change} {p : Path} (h : ∀ c ∈ cs, c.path ≠ p) :
    outcome cs files p = files p := by
  induction cs using List.reverseRecOn with
  | nil => rfl
  | append_singleton cs c ih =>
    have hc := h c (List.mem_append_right _ (List.mem_singleton.2 rfl))
    rw [outcome_concat, if_neg (Ne.symm hc), ih fun c' hc' => h c' (List.mem_append_left _ hc')]

/-- What changes make of files depends on those they are not about. -/
theorem outcome_congr {cs : List Change} {p : Path}
    (h : (∀ c ∈ cs, c.path ≠ p) → files p = files' p) : outcome cs files p = outcome cs files' p := by
  induction cs using List.reverseRecOn with
  | nil => exact h fun _ hc => nomatch hc
  | append_singleton cs c ih =>
    rw [outcome_concat, outcome_concat]
    by_cases hp : p = c.path
    · rw [if_pos hp, if_pos hp]
    · rw [if_neg hp, if_neg hp]
      refine ih fun hcs => h fun c' hc' => ?_
      rcases List.mem_append.1 hc' with hc' | hc'
      · exact hcs c' hc'
      · exact List.mem_singleton.1 hc' ▸ Ne.symm hp

/-- Where changes bring contents back to which all other files have kept, files are as before. -/
theorem outcome_of_contents {before : Path → Option Bytes} {cs : List Change}
    (h : ∀ c ∈ cs, c.contents? = before c.path) {p : Path}
    (hrest : p ∉ cs.map Change.path → files p = before p) : outcome cs files p = before p := by
  induction cs using List.reverseRecOn with
  | nil => exact hrest List.not_mem_nil
  | append_singleton cs c ih =>
    rw [outcome_concat]
    by_cases hp : p = c.path
    · rw [if_pos hp, hp]
      exact h c (List.mem_append_right _ (List.mem_singleton.2 rfl))
    · rw [if_neg hp]
      refine ih (fun c' hc' => h c' (List.mem_append_left _ hc')) fun hmem => hrest fun hmem' => ?_
      rw [List.map_append, List.mem_append] at hmem'
      rcases hmem' with hmem' | hmem'
      · exact hmem hmem'
      · exact hp (List.mem_singleton.1 hmem')

/-! ## One change -/

section Files

variable {temporary path : Path} {tmp place : Location}

/-- A file that has its contents under another name is given its own. -/
theorem rename_filled_yields {d : Disk} {inode : Nat} {contents : Bytes} (hup : r.Up device)
    (hf : Disk.Filled tmp inode d contents device.disk) (hne : tmp ≠ place)
    (htmp : device.disk.Leads temporary tmp) (hpath : device.disk.Leads path place)
    (hno : d.occupant? place ≠ some .folder) :
    Yields (fun _ d' => r.Up d' ∧ Disk.Touched (fun l => l = tmp ∨ l = place) d d'.disk ∧
        d'.disk.occupant? tmp = none ∧ d'.disk.occupant? place ≠ some .folder ∧
        d'.disk.fileAt place = some contents)
      (fun d' => r.Down d' ∧ Disk.Filled tmp inode d contents d'.disk)
      (Device.rename temporary path device) := by
  have hplace : device.disk.occupant? place ≠ some .folder := by
    rw [hf.touched.entry (Ne.symm hne)]
    exact hno
  refine (Device.rename_yields hup htmp hpath hf.touched.sound hne hf.entry hplace).imp
    (fun _ d' h => ?_) fun d' h => ⟨h.1, h.2 ▸ hf⟩
  obtain ⟨hup', ht, hgone, hnew, hsame⟩ := h
  refine ⟨hup', (hf.touched.mono fun l hl => Or.inl hl).trans ht, hgone, ?_, ?_⟩
  · rw [hnew]
    exact fun h => by cases h
  · rw [Disk.fileAt_of_file hnew, hsame, hf.contents_eq]

/-- A file gets its contents under another name and then its own. -/
theorem writeThenRename_yields (sync : Bool) (contents : Bytes) (hup : r.Up device)
    (hd : device.disk.Sound) (hne : tmp ≠ place)
    (htmp : ∀ {d}, Disk.Touched (· = tmp) device.disk d → d.Leads temporary tmp)
    (hpath : ∀ {d}, Disk.Touched (· = tmp) device.disk d → d.Leads path place)
    (hold : device.disk.occupant? tmp ≠ some .folder) (hno : device.disk.occupant? place ≠ some .folder) :
    Yields (fun _ d => r.Up d ∧ Disk.Touched (fun l => l = tmp ∨ l = place) device.disk d.disk ∧
        d.disk.occupant? tmp = none ∧ d.disk.occupant? place ≠ some .folder ∧
        d.disk.fileAt place = some contents)
      (fun d => r.Down d ∧ Disk.Touched (· = tmp) device.disk d.disk ∧
        d.disk.occupant? tmp ≠ some .folder)
      (writeThenRename sync temporary path contents device) := by
  -- whatever stops once the other file is made leaves that file
  have hstopped : ∀ {inode bytes} {d : Device}, r.Down d ∧
      Disk.Filled tmp inode device.disk bytes d.disk → r.Down d ∧
        Disk.Touched (· = tmp) device.disk d.disk ∧ d.disk.occupant? tmp ≠ some .folder := by
    rintro inode bytes d ⟨hdown, hf⟩
    refine ⟨hdown, hf.touched, ?_⟩
    rw [hf.entry]
    exact fun h => by cases h
  refine Yields.bind ((Device.create_yields hup (htmp (.refl hd)) hd hold).imp (fun _ d h => h)
    fun d h => ?_) fun inode d₁ h₁ => ?_
  · rw [h.2]
    exact ⟨h.1, .refl hd, hold⟩
  obtain ⟨hup₁, htouched₁, hentry₁, hempty⟩ := h₁
  have hf₁ : Disk.Filled tmp inode device.disk [] d₁.disk := ⟨htouched₁, hentry₁, hempty⟩
  refine Yields.bind ((Device.write_yields hup₁ inode contents).imp (fun _ d h => h) fun d h => ?_)
    fun _ d₂ h₂ => ?_
  · obtain ⟨hdown, n, hdisk⟩ := h
    exact hstopped ⟨hdown, hdisk ▸ hf₁.append _⟩
  have hf₂ : Disk.Filled tmp inode device.disk contents d₂.disk := h₂.2 ▸ hf₁.append contents
  have hrename : ∀ {d : Device}, r.Up d → Disk.Filled tmp inode device.disk contents d.disk →
      Yields _ _ (Device.rename temporary path d) := fun hup hf =>
    (rename_filled_yields hup hf hne (htmp hf.touched) (hpath hf.touched) hno).imp (fun _ _ h => h)
      fun _ h => hstopped h
  cases sync with
  | false => exact hrename h₂.1 hf₂
  | true =>
    refine Yields.bind ((Device.sync_yields h₂.1 inode).imp (fun _ d h => h) fun d h => ?_)
      fun _ d h => hrename h.1 (h.2 ▸ hf₂)
    exact hstopped ⟨h.1, h.2 ▸ hf₂⟩

end Files

/-- Since `d` only what is near the records at some paths changed, and the folder is in order. -/
structure Changed (w : Site) (paths : List Path) (d d' : Disk) : Prop where
  inOrder : InOrder w d'
  touched : Disk.Touched (fun l => ∃ p ∈ paths, nearby w.folder w.base p l) d d'

/-- Where nothing was done, nothing has changed. -/
theorem Changed.refl {paths : List Path} (h : InOrder w d) : Changed w paths d d :=
  ⟨h, .refl h.sound⟩

/-- What changed in two steps is what changed in either. -/
theorem Changed.trans {paths more : List Path} {d'' : Disk} (h : Changed w paths d d')
    (h' : Changed w more d' d'') : Changed w (paths ++ more) d d'' where
  inOrder := h'.inOrder
  touched := by
    refine (h.touched.mono fun l hl => ?_).trans (h'.touched.mono fun l hl => ?_)
    · obtain ⟨p, hp, hnear⟩ := hl
      exact ⟨p, List.mem_append_left _ hp, hnear⟩
    · obtain ⟨p, hp, hnear⟩ := hl
      exact ⟨p, List.mem_append_right _ hp, hnear⟩

/-- What changed under some paths changed under more of them. -/
theorem Changed.mono {paths more : List Path} (h : Changed w paths d d')
    (hmore : ∀ p ∈ paths, p ∈ more) : Changed w more d d' :=
  ⟨h.inOrder, h.touched.mono fun _ hl => hl.imp fun p hp => ⟨hmore p hp.1, hp.2⟩⟩

/-- The files of the records, by path. -/
def records (w : Site) (d : Disk) (p : Path) : Option Bytes :=
  d.fileAt (placeOf w.folder w.base p)

/-- Records at other paths are as before. -/
theorem Changed.records_eq {paths : List Path} (h : Changed w paths d d')
    (hpaths : ∀ p ∈ paths, IsRecord w.folder p) {q : Path} (hq : IsRecord w.folder q)
    (hne : q ∉ paths) : records w d' q = records w d q := by
  refine h.touched.fileAt ?_
  rintro ⟨p, hp, hnear⟩
  exact (hpaths p hp).not_nearby hq (fun heq => hne (heq ▸ hp)) hnear

/-- What changes near a record keeps the folder in order if it leaves a folder and two files. -/
theorem InOrder.changed {kind shard name : String} (h : InOrder w d) (hn : Names kind shard name)
    (ht : Disk.Touched (nearby w.folder w.base (w.folder ++ [kind, shard, name])) d d')
    (hshard : ∀ inode, d'.occupant? (shard :: kind :: w.base) ≠ some (.file inode))
    (hrecord : d'.occupant? (name :: shard :: kind :: w.base) ≠ some .folder)
    (htmp : d'.occupant? ((name ++ ".tmp") :: shard :: kind :: w.base) ≠ some .folder) :
    Changed w [w.folder ++ [kind, shard, name]] d d' := by
  refine ⟨h.of_touched ht fun l hl => ?_, ht.mono fun l hl => ⟨_, List.mem_singleton.2 rfl, hl⟩⟩
  rcases (nearby_record l).1 hl with rfl | rfl | rfl
  · exact Or.inr (Or.inl ⟨kind, hn.kind_mem, shard, name, rfl, hrecord⟩)
  · exact Or.inr (Or.inl ⟨kind, hn.kind_mem, shard, _, rfl, htmp⟩)
  · exact Or.inl ⟨kind, hn.kind_mem, shard, rfl, hshard⟩

/-- Since `d` nothing changed but that the folder for a record is there. -/
structure Prepared (w : Site) (kind shard : String) (d d₁ : Disk) : Prop where
  touched : Disk.Touched (· = shard :: kind :: w.base) d d₁
  folder : d₁.occupant? (shard :: kind :: w.base) = some .folder

section Prepared

variable {kind shard name : String} {d₁ d₂ : Disk}

/-- The folder for a record is made. -/
theorem InOrder.makeFolders_yields (h : InOrder w device.disk) (hn : Names kind shard name)
    (hup : r.Up device) :
    Yields (fun _ d => r.Up d ∧ Prepared w kind shard device.disk d.disk)
      (fun d => r.Down d ∧ d.disk = device.disk)
      (Device.makeFolders (w.folder ++ [kind] ++ [shard]) device) := by
  have hkind : Disk.Anchored (w.folder ++ [kind]) (kind :: w.base) device.disk :=
    ⟨h.anchored.follow_append fun n hm => List.mem_singleton.1 hm ▸ plain_kind hn.kind_mem,
      h.kind kind hn.kind_mem⟩
  have hcheck : (w.folder ++ [kind] ++ [shard]).check = .ok () := by
    rw [List.append_assoc]
    exact h.check_shard hn
  exact (Device.makeFolders_yields hup h.sound hkind hn.shard_plain hcheck
    (h.shard kind hn.kind_mem shard)).imp (fun _ d hd => ⟨hd.1, hd.2.1, hd.2.2⟩) fun d hd => hd

/-- No folder stands where a record goes. -/
theorem Prepared.not_folder (hp : Prepared w kind shard d d₁) (h : InOrder w d)
    (hn : Names kind shard name) (n : String) :
    d₁.occupant? (n :: shard :: kind :: w.base) ≠ some .folder := by
  rw [hp.touched.entry (List.cons_ne_self n _)]
  exact h.record kind hn.kind_mem shard n

/-- Paths into the folder lead there, whatever is done to the files near a record. -/
theorem Prepared.leads {places : Location → Prop} {n : String} (hp : Prepared w kind shard d d₁)
    (h : InOrder w d) (hn : Names kind shard name) (ht : Disk.Touched places d₁ d₂) (hfit : Fitting n) :
    d₂.Leads (w.folder ++ [kind, shard, n]) (n :: shard :: kind :: w.base) :=
  h.leads_in_kept (fun hfolder => ht.folder (hp.touched.folder hfolder)) hn hfit (ht.folder hp.folder)

/-- What is done there to the file of a record and the one beside it keeps the folder in order. -/
theorem Prepared.changed (hp : Prepared w kind shard d d₁) (h : InOrder w d) (hn : Names kind shard name)
    (ht : Disk.Touched (fun l => l = (name ++ ".tmp") :: shard :: kind :: w.base ∨
      l = name :: shard :: kind :: w.base) d₁ d₂)
    (hrecord : d₂.occupant? (name :: shard :: kind :: w.base) ≠ some .folder)
    (htmp : d₂.occupant? ((name ++ ".tmp") :: shard :: kind :: w.base) ≠ some .folder) :
    Changed w [w.folder ++ [kind, shard, name]] d d₂ := by
  refine h.changed hn ?_ (fun inode => ?_) hrecord htmp
  · exact (hp.touched.mono fun l hl => (nearby_record l).2 (Or.inr (Or.inr hl))).trans
      (ht.mono fun l hl => (nearby_record l).2 (hl.elim (Or.inr ∘ Or.inl) Or.inl))
  · rw [ht.folder hp.folder]
    exact fun h => by cases h

end Prepared

/-- A record is written. -/
theorem writeFile_yields (sync : Bool) {path : Path} (contents : Bytes)
    (hp : IsRecord w.folder path) (hup : r.Up device) (h : InOrder w device.disk) :
    Yields (fun _ d => r.Up d ∧ Changed w [path] device.disk d.disk ∧
        records w d.disk path = some contents)
      (fun d => r.Down d ∧ Changed w [path] device.disk d.disk)
      (writeFile sync path contents device) := by
  obtain ⟨kind, shard, name, rfl, hn⟩ := hp
  have htmp_ne : (name ++ ".tmp") :: shard :: kind :: w.base ≠ name :: shard :: kind :: w.base :=
    fun heq => hn.temporary_ne hn (List.cons.inj heq).1
  rw [writeFile, parent_record w.folder hn, withEnding_record]
  refine Yields.bind ((h.makeFolders_yields hn hup).imp (fun _ d hd => hd) fun d hd => ?_)
    fun _ d₁ h₁ => ?_
  · rw [hd.2]
    exact ⟨hd.1, .refl h⟩
  obtain ⟨hup₁, hp⟩ := h₁
  refine Yields.tryCatch ((writeThenRename_yields sync contents hup₁ hp.touched.sound htmp_ne
    (fun ht => hp.leads h hn ht hn.fitting_temporary) (fun ht => hp.leads h hn ht hn.fitting_name)
    (hp.not_folder h hn _) (hp.not_folder h hn _)).imp (fun _ d hd => ?_) fun d hd => hd) fun e d hd => ?_
  · obtain ⟨hup', ht, hgone, hno, hcontents⟩ := hd
    refine ⟨hup', hp.changed h hn ht hno ?_, ?_⟩
    · rw [hgone]
      exact fun h => by cases h
    · rw [records, placeOf_append]
      exact hcontents
  · -- what is left under the other name is taken away, if that goes well
    obtain ⟨hdown, ht, hno⟩ := hd
    obtain ⟨hdown', ht', hno'⟩ :=
      Device.remove_down hdown (hp.leads h hn ht hn.fitting_temporary) ht.sound hno
    rw [bind_of_ok (tryCatch_pure _ d)]
    have htmps := ht.trans ht'
    refine ⟨hdown', hp.changed h hn (htmps.mono fun l hl => Or.inl hl) ?_ hno'⟩
    rw [htmps.entry (Ne.symm htmp_ne)]
    exact hp.not_folder h hn name

/-- What taking a record away does to a folder in order. -/
theorem InOrder.remove_record {path : Path} (h : InOrder w d) (hp : IsRecord w.folder path) :
    (∃ d', d.remove path = .ok d' ∧ Changed w [path] d d' ∧ records w d' path = none) ∨
      d.remove path = .error .notFound ∧ Changed w [path] d d ∧ records w d path = none := by
  obtain ⟨kind, shard, name, rfl, hn⟩ := hp
  have hrecord := h.record kind hn.kind_mem shard name
  -- nothing but the record is touched, and its shard and its temporary copy stay
  have hgone : ∀ {d'}, Disk.Touched (· = name :: shard :: kind :: w.base) d d' →
      d'.occupant? (name :: shard :: kind :: w.base) = none →
      Changed w [w.folder ++ [kind, shard, name]] d d' ∧
        records w d' (w.folder ++ [kind, shard, name]) = none := by
    intro d' ht hnone
    rw [records, placeOf_append]
    have hno : d'.occupant? (name :: shard :: kind :: w.base) ≠ some .folder := by
      rw [hnone]
      exact fun h => by cases h
    refine ⟨h.changed hn (ht.mono fun l hl => (nearby_record l).2 (Or.inl hl)) (fun inode => ?_) hno ?_,
      (Disk.fileAt_eq_none hno).2 hnone⟩
    · rw [ht.entry (List.cons_ne_self name _).symm]
      exact h.shard kind hn.kind_mem shard inode
    · rw [ht.entry fun heq => hn.temporary_ne hn (List.cons.inj heq).1]
      exact h.record kind hn.kind_mem shard _
  rcases h.shard_cases hn with hshard | hshard
  · have hleads := h.leads_record hn hshard
    cases hentry : d.occupant? (name :: shard :: kind :: w.base) with
    | none => exact Or.inr ⟨hleads.remove_of_none hentry, hgone (.refl h.sound) hentry⟩
    | some e =>
      cases e with
      | folder => exact absurd hentry hrecord
      | file inode =>
        obtain ⟨hremove, ht⟩ := hleads.remove_of_file h.sound hentry
        refine Or.inl ⟨_, hremove, hgone ht ?_⟩
        rw [Disk.occupant?_drop hleads.ne_nil, if_pos rfl]
  · refine Or.inr ⟨?_, hgone (.refl h.sound) (h.occupant?_of_missing hshard name)⟩
    rw [Disk.remove, Disk.located, h.lookup_of_missing hn hshard]
    rfl

/-- A change gives its record the contents it has, unless a failure is taken for a missing file. -/
theorem makeChange_yields (sync : Bool) {c : Change} (hc : IsRecord w.folder c.path)
    (hup : r.Up device) (h : InOrder w device.disk) :
    Yields (fun _ d => r.Up d ∧ Changed w [c.path] device.disk d.disk ∧
        (r.honest → records w d.disk c.path = c.contents?))
      (fun d => r.Down d ∧ Changed w [c.path] device.disk d.disk) (makeChange sync c device) := by
  cases c with
  | write path contents =>
    exact (writeFile_yields sync contents hc hup h).imp
      (fun _ d hd => ⟨hd.1, hd.2.1, fun _ => hd.2.2⟩) fun d hd => hd
  | remove path =>
    refine (Device.removeIfThere_yields (fun d => Changed w [path] device.disk d ∧
      records w d path = none) hup (h.remove_record hc)).imp (fun _ d hd => ?_) fun d hd => ?_
    · rcases hd with ⟨hup', hgone | ⟨hlie, hsame⟩⟩
      · exact ⟨hup', hgone.1, fun _ => hgone.2⟩
      · rw [hsame]
        exact ⟨hup', .refl h, fun hh => absurd hh hlie⟩
    · rw [hd.2]
      exact ⟨hd.1, .refl h⟩

/-! ## The changes of a batch -/

/-- After changes the records are what the changes make of them. -/
theorem forM_makeChange_yields (sync : Bool) {cs : List Change}
    (hcs : ∀ c ∈ cs, IsRecord w.folder c.path) (hup : r.Up device) (h : InOrder w device.disk) :
    Yields (fun _ d => r.Up d ∧ Changed w (cs.map Change.path) device.disk d.disk ∧
        (r.honest → ∀ p, IsRecord w.folder p →
          records w d.disk p = outcome cs (records w device.disk) p))
      (fun d => r.Down d ∧ Changed w (cs.map Change.path) device.disk d.disk)
      (cs.forM (makeChange sync) device) := by
  refine Yields.forM (fun done d => r.Up d ∧
    Changed w (done.map Change.path) device.disk d.disk ∧ (r.honest → ∀ p, IsRecord w.folder p →
      records w d.disk p = outcome done (records w device.disk) p)) (fun done c rest d hsplit hd => ?_)
    ⟨hup, .refl h, fun _ _ _ => rfl⟩
  obtain ⟨hup', hchanged, hrecords⟩ := hd
  have hc : IsRecord w.folder c.path :=
    hcs c (hsplit ▸ List.mem_append_right _ (List.mem_cons_self ..))
  refine (makeChange_yields sync hc hup' hchanged.inOrder).imp (fun _ d' hd' => ?_) fun d' hd' => ?_
  · obtain ⟨hup'', hone, hmade⟩ := hd'
    rw [List.map_append]
    refine ⟨hup'', hchanged.trans hone, fun hh p hp => ?_⟩
    rw [outcome_concat]
    by_cases hpc : p = c.path
    · rw [if_pos hpc, hpc]
      exact hmade hh
    · rw [if_neg hpc, hone.records_eq (fun q hq => List.mem_singleton.1 hq ▸ hc) hp
        fun hq => hpc (List.mem_singleton.1 hq), hrecords hh p hp]
  · refine ⟨hd'.1, (hchanged.trans hd'.2).mono fun p hp => ?_⟩
    rw [hsplit, List.map_append, List.map_cons]
    rcases List.mem_append.1 hp with hp | hp
    · exact List.mem_append_left _ hp
    · exact List.mem_append_right _ (List.mem_singleton.1 hp ▸ List.mem_cons_self ..)

/-- A batch without content changes nothing. -/
theorem changes_of_isEmpty {batch : ChangeSet} (folder : Path) (h : batch.isEmpty) :
    changes folder batch = [] := by
  obtain ⟨added, modified, deleted, references⟩ := batch
  simp only [ChangeSet.isEmpty, Bool.and_eq_true, List.isEmpty_iff] at h
  obtain ⟨⟨⟨rfl, rfl⟩, rfl⟩, rfl⟩ := h
  rfl

/-- Every change of a batch is about a record. -/
theorem isRecord_of_mem_changes {batch : ChangeSet} {folder : Path} {c : Change}
    (h : c ∈ changes folder batch) : IsRecord folder c.path := by
  rw [changes, List.mem_append, List.mem_append] at h
  rcases h with (h | h) | h
  · obtain ⟨s, -, rfl⟩ := List.mem_map.1 h
    exact isRecord_itemPath folder s.id
  · obtain ⟨id, -, rfl⟩ := List.mem_map.1 h
    exact isRecord_itemPath folder id
  · obtain ⟨refs, -, rfl⟩ := List.mem_map.1 h
    by_cases hrefs : refs.hasReferences
    · simp only [hrefs, if_true]
      exact isRecord_referencesPath folder refs.target
    · simp only [hrefs]
      exact isRecord_referencesPath folder refs.target

end ContentTree.FileStore
