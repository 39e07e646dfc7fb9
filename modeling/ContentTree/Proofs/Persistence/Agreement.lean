import ContentTree.Proofs.Persistence.Atomicity
import ContentTree.Proofs.Persistence.Memory
import Mathlib.Data.Set.Function

/-!
# A folder and a memory agree

The files of a workspace folder mirror a storage in memory (`FileStore.Mirrors`) if each file holds what
is written of the value in the memory. A batch that is stored in both keeps it so, and so does opening the
folder again, because no batch is pending in its journal then. So a folder and a memory that are used in
the same way give the same answers all the time (`FileStore.agrees_with_memory`).
-/

namespace ContentTree

open MessagePack (LengthsFit)

/-! ## Records that come back -/

namespace Record

variable {α : Type} [Portable α] {magic : Bytes} {a : α}

/-- A value that is read back from the file that is written of it. -/
def Keeps (magic : Bytes) (a : α) : Prop :=
  ∀ path, read magic path (write magic a) = .ok a

/-- A value is read back if its texts and lists are shorter than 2³². -/
theorem keeps_of_told {n : Nat} (hmagic : magic.length = 4) (h : Portable.Told n a)
    (hn : n ≤ MessagePack.maxDepth) (hl : LengthsFit (Portable.document a))
    (hlen : (Portable.toBytes a).length < 1 <<< (8 * 8)) : Keeps magic a := by
  intro path
  have hback := h.ofBytes? hn hl []
  rw [List.append_nil] at hback
  have hread := read_write hmagic hlen hback path []
  rwa [List.append_nil] at hread

end Record

namespace FileStore

/-! ## Files that hold what a map has -/

section Holds

variable {κ ν α : Type} [DecidableEq κ] {path : κ → Path} {write : ν → Bytes} {ks : Set κ}
  {files : Path → Option Bytes} {m : OrderedMap κ ν} {step : OrderedMap κ ν → α → OrderedMap κ ν}
  {key : α → κ} {value : α → Option ν}

/-- The files for some keys hold what is written of the values that a map has under them. -/
def Holds (path : κ → Path) (write : ν → Bytes) (ks : Set κ) (files : Path → Option Bytes)
    (m : OrderedMap κ ν) : Prop :=
  ∀ k ∈ ks, files (path k) = (m.get? k).map write

/-- Changes of other files do not matter. -/
theorem Holds.of_apart (h : Holds path write ks files m) {cs : List Change}
    (hcs : ∀ c ∈ cs, ∀ k, c.path ≠ path k) : Holds path write ks (outcome cs files) m := by
  intro k hk
  rw [outcome_of_not_mem fun c hc => hcs c hc k]
  exact h k hk

/-- A step on a map decides the value of one key. -/
def Decides (step : OrderedMap κ ν → α → OrderedMap κ ν) (key : α → κ) (value : α → Option ν) : Prop :=
  ∀ m a k, (step m a).get? k = if k = key a then value a else m.get? k

/-- Steps that decide one key each, and changes that give the files of these keys their contents. -/
theorem Holds.foldl (h : Holds path write ks files m) {change : α → Change}
    (hstep : Decides step key value) (hpath : ∀ a, (change a).path = path (key a))
    (hcontents : ∀ a, (change a).contents? = (value a).map write) {l : List α}
    (happly : ∀ a ∈ l, ∀ k ∈ ks, path k = path (key a) → k = key a) :
    Holds path write ks (outcome (l.map change) files) (l.foldl step m) := by
  induction l using List.reverseRecOn with
  | nil => exact h
  | append_singleton l a ih =>
    intro k hk
    have hbefore := ih (fun b hb => happly b (List.mem_append_left _ hb)) k hk
    rw [List.map_append, List.map_singleton, outcome_concat, List.foldl_concat, hpath, hstep, hbefore]
    by_cases hka : k = key a
    · rw [if_pos hka, if_pos (congrArg path hka), hcontents]
    · have ha := happly a (List.mem_append_right _ (List.mem_singleton.2 rfl)) k hk
      rw [if_neg hka, if_neg fun hp => hka (ha hp)]

/-- What a map has after such steps was there before, or comes from one of them. -/
theorem Decides.of_foldl (hstep : Decides step key value) {l : List α} {k : κ} {v : ν}
    (h : (l.foldl step m).get? k = some v) : m.get? k = some v ∨ ∃ a ∈ l, value a = some v := by
  induction l using List.reverseRecOn with
  | nil => exact Or.inl h
  | append_singleton l a ih =>
    rw [List.foldl_concat, hstep] at h
    split at h
    · exact Or.inr ⟨a, List.mem_append_right _ (List.mem_singleton.2 rfl), h⟩
    · rcases ih h with hm | ⟨b, hb, hv⟩
      · exact Or.inl hm
      · exact Or.inr ⟨b, List.mem_append_left _ hb, hv⟩

end Holds

/-! ## Folders that mirror a memory -/

/-- The keys of all records that a batch is about. -/
def keysOf (batch : ChangeSet) : List String :=
  (batch.written.map fun s => itemKey s.id) ++ batch.deleted.map itemKey ++
    batch.references.map fun r => referencesKey r.target

/-- Among the keys there is no other with the hash of this one. -/
def Alone (used : List String) (key : String) : Prop :=
  ∀ other ∈ used, Sha256.hash other.toUTF8.toList = Sha256.hash key.toUTF8.toList → other = key

instance (used : List String) (key : String) : Decidable (Alone used key) :=
  inferInstanceAs (Decidable (∀ other ∈ used, _ → other = key))

/-- The items that share their file with no other item whose key is among those given. -/
def itemsOf (used : List String) : Set ItemId :=
  {id | Alone used (itemKey id)}

/-- The targets whose reference records share their file with no other one. -/
def targetsOf (used : List String) : Set NodeId :=
  {target | Alone used (referencesKey target)}

variable {used : List String} {folder : Path} {files : Path → Option Bytes} {m : MemoryStore}
  {batch : ChangeSet}

/-- Two identities whose records have the same path are equal, provided their keys are used. -/
theorem eq_of_itemPath {id id' : ItemId} (h : id ∈ itemsOf used) (hused : itemKey id' ∈ used)
    (hpath : itemPath folder id = itemPath folder id') : id = id' :=
  (itemKey_injective (h _ hused (recordPath_inj hpath).2.symm)).symm

/-- Two nodes whose reference records have the same path are equal, provided their keys are used. -/
theorem eq_of_referencesPath {target target' : NodeId} (h : target ∈ targetsOf used)
    (hused : referencesKey target' ∈ used)
    (hpath : referencesPath folder target = referencesPath folder target') : target = target' :=
  (referencesKey_injective (h _ hused (recordPath_inj hpath).2.symm)).symm

/-- A batch that can be written as it is. Its texts and lists are shorter than 2³², and its numbers and
the lengths of its records have the widths that they are declared with. -/
structure Writable (batch : ChangeSet) : Prop where
  fits : batch.Fits
  lengths : LengthsFit (Portable.document batch)
  item_length : ∀ s ∈ batch.written,
    (Portable.toBytes (s.withStatus .existing)).length < 1 <<< (8 * 8)
  record_length : ∀ r ∈ batch.references, (Portable.toBytes r).length < 1 <<< (8 * 8)

namespace Writable

/-- The record of an item that a writable batch writes is read back as written. -/
theorem keeps_item (h : Writable batch) {s : ItemState} (hs : s ∈ batch.written) :
    Record.Keeps Record.itemMagic (s.withStatus .existing) := by
  have hfits : (s.withStatus .existing).Fits := ⟨(h.fits s hs).modCount, (h.fits s hs).data⟩
  have hl := lengthsFit_withStatus ((ChangeSet.lengthsFit h.lengths).1 s hs) .existing
  exact Record.keeps_of_told rfl (told_itemState hfits) (by decide) hl (h.item_length s hs)

/-- The reference record that a writable batch writes is read back as written. -/
theorem keeps_record (h : Writable batch) {r : NodeReferences} (hr : r ∈ batch.references) :
    Record.Keeps Record.referencesMagic r :=
  Record.keeps_of_told rfl (told_references r) (by decide) ((ChangeSet.lengthsFit h.lengths).2 r hr)
    (h.record_length r hr)

end Writable

/-- Files that hold what a memory has for certain keys. All that the memory has can be read back from
a file, and its items are existing. -/
structure Mirrors (used : List String) (folder : Path) (files : Path → Option Bytes)
    (m : MemoryStore) : Prop where
  items : Holds (itemPath folder) (Record.write Record.itemMagic) (itemsOf used) files m.items
  records : Holds (referencesPath folder) (Record.write Record.referencesMagic) (targetsOf used) files
    m.records
  kept_items : ∀ {id s}, m.items.get? id = some s →
    s.status = .existing ∧ Record.Keeps Record.itemMagic s
  kept_records : ∀ {target r}, m.records.get? target = some r → Record.Keeps Record.referencesMagic r
  ready : m.failNext = false

/-- Without records the tree mirrors the empty memory. -/
theorem mirrors_empty (used : List String) (folder : Path) : Mirrors used folder (fun _ => none) ∅ where
  items _ _ := rfl
  records _ _ := rfl
  kept_items h := nomatch h
  kept_records h := nomatch h
  ready := rfl

/-- Inserting an item decides what is under its identity and nothing else. -/
theorem decides_insert : Decides
    (fun (items : OrderedMap ItemId ItemState) (s : ItemState) => items.insert s.id (s.withStatus .existing))
    ItemState.id (fun s => some (s.withStatus .existing)) := fun _ _ _ =>
  OrderedMap.get?_insert _ _ _ _

/-- Erasing an item decides what is under its identity and nothing else. -/
theorem decides_erase : Decides (fun (items : OrderedMap ItemId ItemState) => items.erase) id
    fun _ => none := fun _ _ _ =>
  OrderedMap.get?_erase _ _ _

/-- Storing a reference record decides what is under its node, and an empty one removes it. -/
theorem decides_putReferences : Decides MemoryStore.putReferences NodeReferences.target
    fun r => if r.hasReferences then some r else none :=
  MemoryStore.get?_putReferences

/-- The file that a reference record is written to or taken away from, and what it has then. -/
theorem path_and_contents_of_record (folder : Path) (r : NodeReferences) :
    let path := referencesPath folder r.target
    let c := if r.hasReferences then Change.write path (Record.write Record.referencesMagic r)
      else .remove path
    c.path = path ∧
      c.contents? = (if r.hasReferences then some r else none).map (Record.write Record.referencesMagic) := by
  cases hrefs : r.hasReferences <;> exact ⟨rfl, rfl⟩

/-- A batch that is made in the files and in the memory. -/
theorem Mirrors.applied (h : Mirrors used folder files m) (hused : ∀ key ∈ keysOf batch, key ∈ used)
    (hbatch : Writable batch) :
    Mirrors used folder (outcome (changes folder batch) files) (m.applied batch) where
  items := by
    have hwritten : ∀ s ∈ batch.written, itemKey s.id ∈ used := fun s hs => hused _
      (List.mem_append_left _ (List.mem_append_left _ (List.mem_map.2 ⟨s, hs, rfl⟩)))
    have hdeleted : ∀ id ∈ batch.deleted, itemKey id ∈ used := fun id hid => hused _
      (List.mem_append_left _ (List.mem_append_right _ (List.mem_map.2 ⟨id, hid, rfl⟩)))
    rw [changes, outcome_append, outcome_append]
    -- items are written and then removed; what comes last is about files of the other kind
    refine Holds.of_apart ?_ fun c hc id hpath => ?_
    · refine Holds.foldl ?_ decides_erase (fun id => rfl) (fun id => rfl)
        fun id hid k hk => eq_of_itemPath hk (hdeleted id hid)
      exact h.items.foldl decides_insert (fun s => rfl) (fun s => rfl)
        fun s hs k hk => eq_of_itemPath hk (hwritten s hs)
    · obtain ⟨r, -, rfl⟩ := List.mem_map.1 hc
      exact itemPath_ne_referencesPath folder id r.target
        (hpath.symm.trans (path_and_contents_of_record folder r).1)
  records := by
    have hreferences : ∀ r ∈ batch.references, referencesKey r.target ∈ used := fun r hr =>
      hused _ (List.mem_append_right _ (List.mem_map.2 ⟨r, hr, rfl⟩))
    rw [changes, outcome_append]
    refine (h.records.of_apart fun c hc target hpath => ?_).foldl decides_putReferences
      (fun r => (path_and_contents_of_record folder r).1)
      (fun r => (path_and_contents_of_record folder r).2)
      fun r hr k hk => eq_of_referencesPath hk (hreferences r hr)
    rcases List.mem_append.1 hc with hc | hc
    · obtain ⟨s, -, rfl⟩ := List.mem_map.1 hc
      exact itemPath_ne_referencesPath folder s.id target hpath
    · obtain ⟨id, -, rfl⟩ := List.mem_map.1 hc
      exact itemPath_ne_referencesPath folder id target hpath
  kept_items {id s} hs := by
    rcases decides_erase.of_foldl hs with hs | ⟨_, -, hnone⟩
    · rcases decides_insert.of_foldl hs with hs | ⟨s', hs', hsome⟩
      · exact h.kept_items hs
      · cases hsome
        exact ⟨rfl, hbatch.keeps_item hs'⟩
    · cases hnone
  kept_records {target r} hr := by
    rcases decides_putReferences.of_foldl hr with hr | ⟨r', hr', hsome⟩
    · exact h.kept_records hr
    · split at hsome
      · cases hsome
        exact hbatch.keeps_record hr'
      · cases hsome
  ready := h.ready

/-! ## Equal answers -/

/-- Two storages answer alike for all identities whose files are not shared with one of the keys, and
the items that they load are existing. -/
structure Agree (used : List String) (a b : Answers) : Prop where
  load : ∀ id, Alone used (itemKey id) → a.load id = b.load id
  contains : ∀ id, Alone used (itemKey id) → a.contains id = b.contains id
  loadReferences : ∀ target, Alone used (referencesKey target) →
    a.loadReferences target = b.loadReferences target
  containsReferences : ∀ target, Alone used (referencesKey target) →
    a.containsReferences target = b.containsReferences target
  existing : ∀ id s, Alone used (itemKey id) → a.load id = .ok s → s.status = .existing

/-- Loading an item from mirrored files answers what the memory holds under its identity. -/
theorem Mirrors.told_load (h : Mirrors used folder files m) {id : ItemId}
    (hid : Alone used (itemKey id)) : (told folder files).load id =
      match m.items.get? id with
      | some s => .ok s
      | none => .error (.noSuchItem id) := by
  simp only [told, h.items id hid]
  cases hs : m.items.get? id with
  | none => rfl
  | some s => exact (h.kept_items hs).2 _

/-- The files of a folder tell what a memory answers that they mirror. -/
theorem Mirrors.agree (h : Mirrors used folder files m) :
    Agree used (told folder files) (MemoryStore.backend.answers m) where
  load id hid := by
    show _ = answer (MemoryStore.backend.load id) m
    rw [h.told_load hid, answer, MemoryStore.load_eq]
    cases m.items.get? id <;> rfl
  contains id hid := by
    show Except.ok (files (itemPath folder id)).isSome = .ok (m.items.contains id)
    rw [h.items id hid, OrderedMap.contains_eq_isSome, Option.isSome_map]
  loadReferences target ht := by
    show _ = answer (MemoryStore.backend.loadReferences target) m
    rw [answer, MemoryStore.loadReferences_eq]
    simp only [told, h.records target ht]
    cases hr : m.records.get? target with
    | none => rfl
    | some r => exact h.kept_records hr _
  containsReferences target ht := by
    show Except.ok (files (referencesPath folder target)).isSome = .ok (m.records.contains target)
    rw [h.records target ht, OrderedMap.contains_eq_isSome, Option.isSome_map]
  existing id s hid hload := by
    rw [h.told_load hid] at hload
    cases hs : m.items.get? id with
    | none =>
      rw [hs] at hload
      cases hload
    | some s' =>
      rw [hs] at hload
      cases hload
      exact (h.kept_items hs).1

/-! ## Using both -/

/-- What is done with a storage. -/
inductive Usage where
  /-- A batch is stored. -/
  | store (batch : ChangeSet)
  /-- The folder is closed and opened again. -/
  | reopen
  /-- The clock of the device shows another time. -/
  | wait (time : Nat)

/-- Closes a workspace folder and opens it again. -/
def closeAndOpen (config : FileConfig) : Action Unit := fun s =>
  match openAt config (close s) with
  | .ok store device => .ok () ⟨device, store⟩
  | .error e device => .error e ⟨device, s.value⟩

/-- Closing and opening again leaves what the opening answers. -/
theorem closeAndOpen_of_ok {config : FileConfig} {s : Hosted FileStore} {store : FileStore}
    {device : Device} (h : openAt config (close s) = .ok store device) :
    closeAndOpen config s = .ok () ⟨device, store⟩ := by
  unfold closeAndOpen
  rw [h]

namespace Usage

/-- What is done with a workspace folder. -/
def onFolder (config : FileConfig) : Usage → Action Unit
  | store batch => backend.store batch
  | reopen => closeAndOpen config
  | wait time => modify fun s => { s with device := { s.device with time } }

/-- What is done with a memory. -/
def onMemory : Usage → EStateM Error MemoryStore Unit
  | store batch => MemoryStore.backend.store batch
  | reopen | wait _ => pure ()

/-- Both storages can do it when the memory is as given: what a batch modifies or deletes is there. -/
def Lawful (m : MemoryStore) : Usage → Prop
  | store batch => Writable batch ∧
    ∀ id ∈ batch.modified.map ItemState.id ++ batch.deleted, m.items.contains id = true
  | reopen => True
  | wait time => time ≤ maxUInt64

/-- Both storages can do all of it, beginning with a memory as given. -/
def LawfulFrom : MemoryStore → List Usage → Prop
  | _, [] => True
  | m, use :: rest => use.Lawful m ∧ LawfulFrom (stateAfter use.onMemory m) rest

/-- The keys of all records that a use is about. -/
def keys : Usage → List String
  | store batch => keysOf batch
  | reopen | wait _ => []

end Usage

/-- An open workspace whose files mirror a memory, with an empty journal. -/
def Synced (config : FileConfig) (used : List String) (s : Hosted FileStore) (m : MemoryStore) : Prop :=
  ∃ w files time, w.folder = Path.ofFolder config.path ∧ time ≤ maxUInt64 ∧
    Settled (.reliable [] time) w files s ∧ Mirrors used w.folder files m

variable {config : FileConfig} {s : Hosted FileStore} {use : Usage} {uses : List Usage}

/-- A host in step with the memory answers every question as the memory does. -/
theorem Synced.agree (h : Synced config used s m) :
    Agree used (backend.answers s) (MemoryStore.backend.answers m) := by
  obtain ⟨w, files, time, -, -, hs, hm⟩ := h
  rw [hs.waiting.answers_eq]
  exact hm.agree

/-- A memory that has all items that a batch modifies or deletes takes it. -/
theorem store_memory_eq (hready : m.failNext = false)
    (hpresent : ∀ id ∈ batch.modified.map ItemState.id ++ batch.deleted, m.items.contains id = true) :
    MemoryStore.backend.store batch m = .ok () (m.applied batch) := by
  have hnone : m.missing? batch = none := by
    refine List.find?_eq_none.2 fun id hid => ?_
    rw [hpresent id hid]
    decide
  rw [MemoryStore.store_eq, hready, MemoryStore.apply_eq, hnone]
  rfl

/-- One use of both keeps the folder a mirror of the memory. -/
theorem Synced.step (h : Synced config used s m) (hused : ∀ key ∈ use.keys, key ∈ used)
    (huse : use.Lawful m) : ∃ s' m', use.onFolder config s = .ok () s' ∧ use.onMemory m = .ok () m' ∧
      Synced config used s' m' := by
  obtain ⟨w, files, time, hfolder, htime, hs, hm⟩ := h
  cases use with
  | store batch =>
    obtain ⟨hbatch, hpresent⟩ := huse
    have hfits : JournalEntry.Fits ⟨1, .pending, some batch, time⟩ :=
      ⟨(by decide : 1 ≤ maxUInt64), htime, fun set hset => Option.some.inj hset ▸ hbatch.fits⟩
    -- the journal is emptied even if the batch makes an entry that is too long to be read
    obtain ⟨s', hstore, hs'⟩ := hs.exists_store
      (pendingIn_marked hfits (ChangeSet.lengthsFit_announcement hbatch.lengths 1 time))
    exact ⟨s', m.applied batch, hstore, store_memory_eq hm.ready hpresent,
      w, _, time, hfolder, htime, hs', hm.applied hused hbatch⟩
  | reopen =>
    obtain ⟨store, device, hopen, hs'⟩ := (hs.openAt_close hfolder.symm).exists_ok fun _ hf => hf
    exact ⟨⟨device, store⟩, m, closeAndOpen_of_ok hopen, rfl, w, files, time, hfolder, htime, hs', hm⟩
  | wait time' =>
    have hup : (Regime.holding (.reliable [] time') [w.lock]).Up { s.device with time := time' } :=
      ⟨hs.up.locks_eq, rfl, hs.up.isUp⟩
    exact ⟨_, m, rfl, rfl, w, files, time', hfolder, huse,
      ⟨hup, hs.waiting.on_device _ rfl, hs.nextSeq_eq⟩, hm⟩

/-- Any number of uses of both keep it so, and both do all of them. -/
theorem Synced.run (h : Synced config used s m) (hused : ∀ use ∈ uses, ∀ key ∈ use.keys, key ∈ used)
    (huses : Usage.LawfulFrom m uses) : ∃ s' m', uses.forM (Usage.onFolder config) s = .ok () s' ∧
      uses.forM Usage.onMemory m = .ok () m' ∧ Synced config used s' m' := by
  induction uses generalizing s m with
  | nil => exact ⟨s, m, rfl, rfl, h⟩
  | cons use rest ih =>
    obtain ⟨huse, hrest⟩ := huses
    obtain ⟨s₁, m₁, hfolder₁, hmemory₁, h₁⟩ := h.step (hused use (List.mem_cons_self ..)) huse
    rw [stateAfter_of_ok hmemory₁] at hrest
    obtain ⟨s₂, m₂, hfolder₂, hmemory₂, h₂⟩ :=
      ih h₁ (fun other hother => hused other (List.mem_cons_of_mem use hother)) hrest
    refine ⟨s₂, m₂, ?_, ?_, h₂⟩
    · show (use.onFolder config >>= fun _ => rest.forM (Usage.onFolder config)) s = _
      rw [bind_of_ok hfolder₁, hfolder₂]
    · show (use.onMemory >>= fun _ => rest.forM Usage.onMemory) m = _
      rw [bind_of_ok hmemory₁, hmemory₂]

/-- A prefix of a lawful run is lawful. -/
theorem Usage.LawfulFrom.of_shorter {done : List Usage} (h : Usage.LawfulFrom m uses)
    (hdone : done <+: uses) : Usage.LawfulFrom m done := by
  induction done generalizing m uses with
  | nil => trivial
  | cons use done ih =>
    obtain ⟨rest, rfl⟩ := hdone
    exact ⟨h.1, ih h.2 (List.prefix_append done rest)⟩

/-- An item and a reference record are stored, and when the folder was opened again the item is
deleted. -/
def storedAndDeleted : List Usage :=
  [.store ⟨[default], [], [], [⟨default, [⟨default, ⟨"p"⟩⟩]⟩]⟩, .reopen,
    .store ⟨[], [], [.node default], []⟩]

/-- The run that stores two items and deletes one of them is lawful. -/
theorem lawful_storedAndDeleted : Usage.LawfulFrom ∅ storedAndDeleted := by
  have hstored : Writable ⟨[default], [], [], [⟨default, [⟨default, ⟨"p"⟩⟩]⟩]⟩ :=
    { fits := fun s hs => List.mem_singleton.1 hs ▸ ⟨by decide, fun _ he => nomatch he⟩
      lengths := MessagePack.lengthsFit_of_length _ (by decide +kernel)
      item_length := by decide +kernel
      record_length := by decide +kernel }
  have hdeleted : Writable ⟨[], [], [.node default], []⟩ :=
    { fits := fun _ hs => nomatch hs
      lengths := MessagePack.lengthsFit_of_length _ (by decide +kernel)
      item_length := fun _ hs => nomatch hs
      record_length := fun _ hr => nomatch hr }
  exact ⟨⟨hstored, fun _ hid => nomatch hid⟩, trivial, ⟨hdeleted, by decide +kernel⟩, trivial⟩

/-- A new workspace folder and a new memory that are used in the same way both do all that they are
told, if the device does. After each step they give the same answers for every identity whose key has
the hash of no other key that is used. -/
theorem agrees_with_memory {base : Location} {disk : Disk} {time : Nat}
    (hroomy : Path.Roomy room (Path.ofFolder config.path))
    (hvacant : Vacant (Path.ofFolder config.path) base disk) (htime : time ≤ maxUInt64)
    (huses : Usage.LawfulFrom ∅ uses) :
    ∃ store device, create config (Device.reliable disk time) = .ok store device ∧
      ∀ done, done <+: uses → ∃ s m, done.forM (Usage.onFolder config) ⟨device, store⟩ = .ok () s ∧
        done.forM Usage.onMemory ∅ = .ok () m ∧
        Agree (uses.flatMap Usage.keys) (backend.answers s) (MemoryStore.backend.answers m) := by
  obtain ⟨store, device, hcreate, lock, journal, hsettled⟩ :=
    (create_yields rfl hroomy (.of_reliable disk time) rfl hvacant).exists_ok fun _ hf =>
      Regime.not_fallible_of_reliable [] time hf
  have hsynced : Synced config (uses.flatMap Usage.keys) ⟨device, store⟩ ∅ :=
    ⟨_, _, time, rfl, htime, hsettled, mirrors_empty _ _⟩
  refine ⟨store, device, hcreate, fun done hdone => ?_⟩
  have hused : ∀ use ∈ done, ∀ key ∈ use.keys, key ∈ uses.flatMap Usage.keys :=
    fun use huse key hkey => List.mem_flatMap.2 ⟨use, hdone.subset huse, hkey⟩
  obtain ⟨s, m, hfolder, hmemory, h⟩ := hsynced.run hused (huses.of_shorter hdone)
  exact ⟨s, m, hfolder, hmemory, h.agree⟩

/-- The one item of these uses is among those for which the answers agree. -/
theorem agrees_with_memory_stored :
    Alone (storedAndDeleted.flatMap Usage.keys) (itemKey (.node default)) ∧
    ∃ store device, create ⟨"ws", true, true⟩ (Device.reliable ∅ 0) = .ok store device ∧
      ∀ done, done <+: storedAndDeleted → ∃ s m,
        done.forM (Usage.onFolder ⟨"ws", true, true⟩) ⟨device, store⟩ = .ok () s ∧
        done.forM Usage.onMemory ∅ = .ok () m ∧
        Agree (storedAndDeleted.flatMap Usage.keys) (backend.answers s) (MemoryStore.backend.answers m) :=
  ⟨by decide +kernel, agrees_with_memory roomy_ws vacant_ws (by decide) lawful_storedAndDeleted⟩

end FileStore

end ContentTree
