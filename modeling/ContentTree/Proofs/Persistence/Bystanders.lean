import ContentTree.Proofs.Persistence.Answers
import ContentTree.Proofs.Persistence.Placed

/-!
# Records that a batch is not about

A batch touches the journal and, for each of its records, the record, the temporary file beside it and
the folders around it. So it leaves the other records as they are in any open workspace, whatever its
folder holds and whatever fails (`store_spares`).
-/

namespace ContentTree

namespace FileStore

open Disk (Anchored Undisturbed)

variable {folder path : Path} {base : Location} {paths : Set Path} {d start : Disk} {device : Device}
  {s s' : Hosted FileStore}

/-! ## Places of other records -/

/-- The places of all records but those at some paths. -/
def others (folder : Path) (base : Location) (paths : Set Path) (l : Location) : Prop :=
  ∃ p, IsRecord folder p ∧ p ∉ paths ∧ l = placeOf folder base p

/-- The places of the journal and of all records but those at some paths. -/
def aside (folder : Path) (base : Location) (paths : Set Path) (l : Location) : Prop :=
  l = "journal" :: base ∨ others folder base paths l

/-- A record stands three folders below the base. -/
theorem length_placeOf (h : IsRecord folder path) :
    (placeOf folder base path).length = base.length + 3 := by
  obtain ⟨kind, shard, name, rfl, -⟩ := h
  rw [placeOf_append, List.length_append, List.length_reverse]
  exact Nat.add_comm ..

/-- A temporary copy stands where its record does. -/
theorem length_placeOf_temporary (h : IsRecord folder path) :
    (placeOf folder base (path.withEnding ".tmp")).length = base.length + 3 := by
  obtain ⟨kind, shard, name, rfl, -⟩ := h
  rw [withEnding_record, placeOf_append, List.length_append, List.length_reverse]
  exact Nat.add_comm ..

/-- A record and the temporary file beside it are neither aside nor around a place that is. -/
theorem not_around_aside (hp : IsRecord folder path) (hmem : path ∈ paths) (k l : Location)
    (hk : aside folder base paths k) (hl : l <:+ k) :
    ¬(l = placeOf folder base (path.withEnding ".tmp") ∨ l = placeOf folder base path) := by
  intro hplace
  have hlength : l.length = base.length + 3 := by
    rcases hplace with rfl | rfl
    · exact length_placeOf_temporary hp
    · exact length_placeOf hp
  rcases hk with rfl | ⟨other, hother, hne, rfl⟩
  · have hle := hl.length_le
    rw [List.length_cons] at hle
    omega
  · have heq := hl.eq_of_length (hlength.trans (length_placeOf hother).symm)
    have hfar : ¬nearby folder base path (placeOf folder base other) :=
      hp.not_nearby hother fun h => hne (h ▸ hmem)
    rw [← heq] at hfar
    exact hfar (hplace.elim (Or.inr ∘ Or.inl) Or.inl)

/-- The folders around a record are not aside. -/
theorem not_aside_folder {kind shard : String} (hkind : kind ∈ kinds) {ms : Path}
    (hms : ms <+: [kind, shard]) : ¬aside folder base paths (ms.reverse ++ base) := by
  have hle := hms.length_le
  rintro (heq | ⟨other, hother, -, heq⟩)
  · have hone : ms.reverse = ["journal"] := List.append_cancel_right heq
    rw [List.reverse_eq_cons_iff, List.reverse_nil, List.nil_append] at hone
    subst hone
    obtain ⟨rfl, -⟩ := List.cons_prefix_cons.1 hms
    exact absurd hkind (by decide)
  · have hlength := congrArg List.length heq
    rw [length_placeOf hother, List.length_append, List.length_reverse] at hlength
    simp only [List.length_cons, List.length_nil] at hle
    omega

/-- The path of a record leads to its place. -/
theorem follow_record (ha : Anchored folder base d) (hp : IsRecord folder path) :
    d.follow [] path = .ok (placeOf folder base path) := by
  obtain ⟨kind, shard, name, rfl, hn⟩ := hp
  rw [placeOf_append]
  exact ha.follow_append (plain_in hn hn.fitting_name)

/-- The path of a temporary copy leads to its place. -/
theorem follow_temporary (ha : Anchored folder base d) (hp : IsRecord folder path) :
    d.follow [] (path.withEnding ".tmp") = .ok (placeOf folder base (path.withEnding ".tmp")) := by
  obtain ⟨kind, shard, name, rfl, hn⟩ := hp
  rw [withEnding_record, placeOf_append]
  exact ha.follow_append (plain_in hn hn.fitting_temporary)

/-- A temporary copy and its record stand in different places. -/
theorem temporary_ne_record (hp : IsRecord folder path) :
    placeOf folder base (path.withEnding ".tmp") ≠ placeOf folder base path := by
  obtain ⟨kind, shard, name, rfl, hn⟩ := hp
  rw [withEnding_record, placeOf_append, placeOf_append]
  exact fun heq => hn.temporary_ne hn (List.cons.inj heq).1

/-- The path of a record does not ask for a folder. -/
theorem asksForFolder_record (hp : IsRecord folder path) : path.asksForFolder = false := by
  obtain ⟨kind, shard, name, rfl, hn⟩ := hp
  have hsplit : folder ++ [kind, shard, name] = (folder ++ [kind, shard]) ++ [name] := by
    rw [List.append_assoc]
    rfl
  rw [hsplit]
  exact Path.asksForFolder_append hn.name_plain

/-! ## Changes of records -/

/-- Since `start`, the journal and the records at other paths are undisturbed. -/
abbrev SetAside (folder : Path) (base : Location) (paths : Set Path) (start : Disk) (device : Device) :
    Prop :=
  Undisturbed (aside folder base paths) start device.disk

/-- Where the tree is the same, the other records are set aside as before. -/
theorem SetAside.of_disk {device' : Device} (h : SetAside folder base paths start device)
    (hd : device'.disk = device.disk) : SetAside folder base paths start device' := by
  rw [SetAside, hd]
  exact h

section Changes

variable (hp : IsRecord folder path) (hmem : path ∈ paths) (ha : Anchored folder base start)
include hp hmem

/-- A change of a record or of its temporary copy leaves the other records aside. -/
theorem SetAside.touched_beside {device' : Device} {l : Location}
    (h : SetAside folder base paths start device)
    (hl : l = placeOf folder base (path.withEnding ".tmp") ∨ l = placeOf folder base path)
    (ht : Disk.Touched (· = l) device.disk device'.disk) :
    SetAside folder base paths start device' :=
  h.trans (.of_touched ht fun k _ hk hsuffix heq =>
    not_around_aside hp hmem k l hk (heq ▸ hsuffix) hl)

include ha

/-- Writing a record through its temporary copy leaves the other records alone. -/
theorem writeThenRename_leaves (sync : Bool) (contents : Bytes)
    (h : SetAside folder base paths start device) :
    Yields (fun _ => SetAside folder base paths start) (SetAside folder base paths start)
      (writeThenRename sync (path.withEnding ".tmp") path contents device) := by
  refine Yields.bind ((Device.create_leaves h.touched.sound).imp (fun _ _ hd => hd)
    fun _ hd => h.of_disk hd) fun inode d₁ h₁ => ?_
  obtain ⟨htouched, hentry⟩ := h₁.at_place (follow_temporary (ha.kept h.touched.folder) hp)
  have hcreated := h.touched_beside hp hmem (Or.inl rfl) htouched
  refine Yields.bind ((Device.write_leaves htouched.sound hentry contents).imp
    (fun _ _ hd => hd) fun _ hd => hcreated.touched_beside hp hmem (Or.inl rfl) hd.1) fun _ d₂ h₂ => ?_
  have hwritten := hcreated.touched_beside hp hmem (Or.inl rfl) h₂.1
  have hrename : ∀ {d : Device}, SetAside folder base paths start d →
      Yields (fun _ => SetAside folder base paths start) (SetAside folder base paths start)
        (Device.rename (path.withEnding ".tmp") path d) := by
    intro d h
    have hanchored := ha.kept h.touched.folder
    exact (Device.rename_leaves h.touched.sound (follow_temporary hanchored hp)
      (follow_record hanchored hp) (temporary_ne_record hp) (asksForFolder_record hp)).imp
      (fun _ _ ht => h.trans (.of_touched ht (not_around_aside hp hmem))) fun _ hd => h.of_disk hd
  cases sync with
  | false => exact hrename hwritten
  | true =>
    exact Yields.bind ((Device.sync_leaves inode).imp (fun _ _ hd => hd)
      fun _ hd => hwritten.of_disk hd) fun _ d hd => hrename (hwritten.of_disk hd)

/-- Removing a record leaves the other ones alone. -/
theorem remove_leaves (h : SetAside folder base paths start device) :
    Yields (fun _ => SetAside folder base paths start) (SetAside folder base paths start)
      (Device.remove path device) :=
  (Device.remove_leaves h.touched.sound (follow_record (ha.kept h.touched.folder) hp)).imp
    (fun _ _ ht => h.touched_beside hp hmem (Or.inr rfl) ht) fun _ ht =>
      h.touched_beside hp hmem (Or.inr rfl) ht

/-- Removing a temporary copy leaves the other records alone. -/
theorem removeTemporary_leaves (h : SetAside folder base paths start device) :
    Yields (fun _ => SetAside folder base paths start) (SetAside folder base paths start)
      (Device.remove (path.withEnding ".tmp") device) :=
  (Device.remove_leaves h.touched.sound (follow_temporary (ha.kept h.touched.folder) hp)).imp
    (fun _ _ ht => h.touched_beside hp hmem (Or.inl rfl) ht) fun _ ht =>
      h.touched_beside hp hmem (Or.inl rfl) ht

omit hmem in
/-- Making the folders of a record leaves the other ones alone. -/
theorem makeFolders_leaves (h : SetAside folder base paths start device) :
    Yields (fun _ => SetAside folder base paths start) (SetAside folder base paths start)
      (Device.makeFolders path.parent device) := by
  refine Device.makeFolders_leaves h fun q hq d place hd hfollow hnone => ?_
  obtain ⟨kind, shard, name, rfl, hn⟩ := hp
  have hplain : ∀ n ∈ [kind, shard], Path.Plain n := fun n hm =>
    plain_in hn hn.fitting_name n (List.mem_append_left [name] hm)
  rw [parent_record folder hn, List.append_assoc] at hq
  obtain ⟨ms, hms, rfl⟩ := (ha.kept hd.touched.folder).missing_below hd.touched.sound hplain
    (Path.prefix_of_mem_containing hq) hfollow hnone
  exact not_aside_folder hn.kind_mem hms

/-- Writing the file of a record leaves the other records alone. -/
theorem writeFile_leaves (sync : Bool) (contents : Bytes)
    (h : SetAside folder base paths start device) :
    Yields (fun _ => SetAside folder base paths start) (SetAside folder base paths start)
      (writeFile sync path contents device) := by
  refine Yields.bind (makeFolders_leaves hp ha h) fun _ d hd => ?_
  refine Yields.tryCatch (writeThenRename_leaves hp hmem ha sync contents hd) fun e d' hd' => ?_
  exact Yields.bind (Yields.tryCatch (removeTemporary_leaves hp hmem ha hd') fun _ _ hd'' => hd'')
    fun _ _ hd'' => hd''

end Changes

/-- A change of a record leaves everything but that record and what is around it alone. -/
theorem makeChange_leaves (sync : Bool) {c : Change} (hp : IsRecord folder c.path)
    (hmem : c.path ∈ paths) (ha : Anchored folder base start)
    (h : SetAside folder base paths start device) :
    Yields (fun _ => SetAside folder base paths start) (SetAside folder base paths start)
      (makeChange sync c device) := by
  cases c with
  | write path contents => exact writeFile_leaves hp hmem ha sync contents h
  | remove path =>
    refine Yields.tryCatch (remove_leaves hp hmem ha h) fun e d hd => ?_
    split <;> exact hd

/-! ## Steps of an open workspace -/

/-- An open workspace whose folder is at some place, with its journal in it. -/
structure InPlace (folder : Path) (base : Location) (s : Hosted FileStore) : Prop where
  anchored : Anchored folder base s.device.disk
  folder_eq : s.value.folder = folder
  path_eq : s.value.journal.path = folder ++ ["journal"]
  placed : Journal.Placed ("journal" :: base) ⟨s.device, s.value.journal⟩

/-- A workspace stays in its place, and the records at other paths than some are undisturbed. -/
def SparesOthers (folder : Path) (base : Location) (paths : Set Path) (s s' : Hosted FileStore) :
    Prop :=
  InPlace folder base s → InPlace folder base s' ∧
    Undisturbed (others folder base paths) s.device.disk s'.device.disk

instance (folder : Path) (base : Location) (paths : Set Path) :
    IsPreorder (Hosted FileStore) (SparesOthers folder base paths) where
  refl _ h := ⟨h, .refl h.placed.sound⟩
  trans _ _ _ hab hbc h := by
    obtain ⟨hb, hleft⟩ := hab h
    obtain ⟨hc, hleft'⟩ := hbc hb
    exact ⟨hc, hleft.trans hleft'⟩

/-- The journal is not around a record. -/
theorem journal_not_around {p : Path} (hp : IsRecord folder p) :
    ¬"journal" :: base <:+ placeOf folder base p := by
  obtain ⟨kind, shard, name, rfl, hn⟩ := hp
  intro hsuffix
  rw [placeOf_append] at hsuffix
  have hkind : kind :: base <:+ [kind, shard, name].reverse ++ base := ⟨[name, shard], rfl⟩
  have heq := (List.suffix_of_suffix_length_le hsuffix hkind (Nat.le_refl _)).eq_of_length rfl
  exact absurd ((List.cons.inj heq).1 ▸ hn.kind_mem) (by decide)

/-- A step of the journal spares the other records. -/
theorem onJournal_spares {α : Type} {step : Journal.Action α}
    (h : Tracks (Journal.Stays ("journal" :: base)) step) :
    Tracks (SparesOthers folder base paths) (onJournal step) := by
  intro s hs
  obtain ⟨hplaced, hpath, htouched⟩ := h ⟨s.device, s.value.journal⟩ hs.placed
  rw [onJournal, Hosted.stateAfter_onPart]
  refine ⟨⟨hs.anchored.kept htouched.folder, hs.folder_eq, hpath.trans hs.path_eq, hplaced⟩,
    .of_touched htouched ?_⟩
  rintro k l ⟨p, hp, -, rfl⟩ hsuffix rfl
  exact journal_not_around hp hsuffix

/-- A workspace stays in place where its records were set aside and nothing else of it changed. -/
theorem InPlace.spares_of_setAside (h : InPlace folder base s)
    (hdisk : SetAside folder base paths s.device.disk s'.device) (hvalue : s'.value = s.value) :
    InPlace folder base s' ∧ Undisturbed (others folder base paths) s.device.disk s'.device.disk := by
  refine ⟨⟨h.anchored.kept hdisk.touched.folder, hvalue ▸ h.folder_eq, hvalue ▸ h.path_eq, ?_⟩,
    hdisk.mono fun _ => Or.inr⟩
  rw [hvalue]
  refine ⟨hdisk.touched.sound, Disk.follow_kept hdisk.touched.folder h.placed.follow, fun hw => ?_⟩
  exact (hdisk.occupant?_eq (Or.inl rfl)).trans (h.placed.writer hw)

/-- Changes of some records spare the other ones. -/
theorem makeChanges_spares {cs : List Change} (sync : Bool)
    (hcs : ∀ c ∈ cs, IsRecord folder c.path ∧ c.path ∈ paths) :
    Tracks (SparesOthers folder base paths) (Hosted.onDevice (cs.forM (makeChange sync))) := by
  intro s hs
  have hall : Yields (fun _ => SetAside folder base paths s.device.disk)
      (SetAside folder base paths s.device.disk) (cs.forM (makeChange sync) s.device) :=
    Yields.forM (fun _ => SetAside folder base paths s.device.disk)
      (fun done c rest d hsplit hd => by
        have hc := hcs c (hsplit ▸ List.mem_append_right _ (List.mem_cons_self ..))
        exact makeChange_leaves sync hc.1 hc.2 hs.anchored hd)
      (Undisturbed.refl hs.placed.sound)
  obtain ⟨hdisk, hvalue⟩ := (Hosted.onDevice_yields hall).always
  exact hs.spares_of_setAside hdisk hvalue

/-- Making the changes of a batch spares the records that it does not name. -/
theorem apply_spares {batch : ChangeSet} (hpaths : ∀ p ∈ pathsOf folder batch, p ∈ paths) :
    Tracks (SparesOthers folder base paths) (apply batch) := by
  intro s
  refine Tracks.bindAt (Tracks.get s) fun value mid hget hs => ?_
  cases hget
  obtain rfl := hs.folder_eq
  refine makeChanges_spares _ (fun c hc => ⟨isRecord_of_mem_changes hc, ?_⟩) s hs
  exact hpaths c.path (mem_pathsOf_iff.2 ⟨c, hc, rfl⟩)

/-- Putting images back spares the records that they are not of. -/
theorem restore_spares {images : List (Path × Option Bytes)}
    (himages : ∀ i ∈ images, IsRecord folder i.1 ∧ i.1 ∈ paths) :
    Tracks (SparesOthers folder base paths) (restore images) := by
  intro s
  rw [stateAfter, restore_eq]
  refine makeChanges_spares (s := s) _ fun c hc => ?_
  obtain ⟨i, hi, heq⟩ := List.mem_map.1 (mem_map_path_restoringAll.1 (List.mem_map_of_mem hc))
  exact heq ▸ himages i hi

/-- Undoing a batch spares the records that its images are not of. -/
theorem undo_spares (seq : Nat) {images : List (Path × Option Bytes)}
    (himages : ∀ i ∈ images, IsRecord folder i.1 ∧ i.1 ∈ paths) :
    Tracks (SparesOthers folder base paths) (undo seq images) :=
  Tracks.tryCatch (Tracks.bind (restore_spares himages) fun _ =>
    onJournal_spares (Journal.mark_stays seq .rolledBack)) fun _ => Tracks.pure _

/-- Taking down what the files of a batch hold changes nothing. -/
theorem capture_leaves (batch : ChangeSet) (s : Hosted FileStore) :
    Yields (fun images s' => s' = s ∧ images.map Prod.fst = pathsOf s.value.folder batch) (· = s)
      (capture batch s) := by
  have himage : ∀ (p : Path) (d : Device), Yields (fun i d' => d' = d ∧ i.1 = p) (· = d) (image p d) := by
    intro p d
    rw [image, get_bind]
    cases d.disk.read p with
    | ok contents => exact ⟨rfl, rfl⟩
    | error cause =>
      cases cause with
      | notFound => exact ⟨rfl, rfl⟩
      | unexpectedEnd | other message => exact rfl
  have hall : ∀ (ps : List Path) (d : Device),
      Yields (fun images d' => d' = d ∧ images.map Prod.fst = ps) (· = d) (ps.mapM image d) := by
    intro ps d
    induction ps with
    | nil => exact ⟨rfl, rfl⟩
    | cons p rest ih =>
      rw [List.mapM_cons]
      refine Yields.bind (himage p d) fun i d' hi => ?_
      obtain ⟨rfl, rfl⟩ := hi
      refine Yields.bind ih fun images d' hi => ?_
      obtain ⟨rfl, rfl⟩ := hi
      exact ⟨rfl, rfl⟩
  rw [capture, get_bind]
  refine (Hosted.onDevice_yields (hall _ s.device)).imp (fun images s' hs' => ?_) fun s' hs' => ?_
  · obtain ⟨⟨hdevice, hpaths⟩, hvalue⟩ := hs'
    exact ⟨Hosted.eq_of_parts hdevice hvalue, hpaths⟩
  · exact Hosted.eq_of_parts hs'.1 hs'.2

/-- Storing a batch spares the records that it is not about, whatever fails. -/
theorem store_spares (batch : ChangeSet) :
    Tracks (SparesOthers folder base {p | p ∈ pathsOf folder batch}) (store batch) := by
  intro s hs
  rw [store]
  split
  · exact ⟨hs, .refl hs.placed.sound⟩
  have hcapture := capture_leaves batch s
  -- taking the images only reads, so the steps begin where the call did
  have hsame : stateAfter (capture batch) s = s :=
    hcapture.stateAfter (fun _ _ h => h.1) fun _ h => h
  refine Tracks.bindAt (R := SparesOthers folder base {p | p ∈ pathsOf folder batch}) (s := s)
    (hsame.symm ▸ refl_of _ s) (fun images mid hok => ?_) hs
  rw [hok] at hcapture
  obtain ⟨rfl, hpaths⟩ := hcapture
  have himages : ∀ i ∈ images, IsRecord folder i.1 ∧ i.1 ∈ {p | p ∈ pathsOf folder batch} := by
    intro i hi
    have hmem : i.1 ∈ pathsOf folder batch := by
      rw [← hs.folder_eq, ← hpaths]
      exact List.mem_map_of_mem hi
    exact ⟨isRecord_of_mem_pathsOf hmem, hmem⟩
  refine Tracks.bind (onJournal_spares (Journal.log_stays batch)) (fun seq => ?_) mid
  refine Tracks.bind (Tracks.tryCatch ?_ fun e => ?_) fun _ => ?_
  · exact Tracks.bind (apply_spares fun p hp => hp) fun _ =>
      onJournal_spares (Journal.mark_stays seq .committed)
  · exact Tracks.bind (undo_spares seq himages) fun _ => Tracks.throw e
  · refine Tracks.bind (onJournal_spares Journal.hasPending_stays) fun pending => ?_
    split
    · exact onJournal_spares Journal.clear_stays
    · exact Tracks.pure _

end FileStore

end ContentTree
