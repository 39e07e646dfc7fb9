import ContentTree.Disk.Tree
import Mathlib.Order.Defs.Unbundled

/-!
# Places in a file tree

What a step on a tree does, place by place: the steps go to one place or two, and leave what stands
at every other place as it was, folders included (`Touches`). No step takes a folder away.
-/

namespace ContentTree.Disk

/-- The contents of the file at a place, if there is one. -/
def fileAt (d : Disk) (place : Location) : Option Bytes :=
  match d.occupant? place with
  | some (.file inode) => some (d.contentsOf inode)
  | _ => none

/-- Whatever stands somewhere stands in a folder, and no two places share contents. -/
structure Sound (d : Disk) : Prop where
  enclosed : ∀ {name above}, (d.occupant? (name :: above)).isSome → d.occupant? above = some .folder
  inode_lt : ∀ {place inode}, d.occupant? place = some (.file inode) → inode < d.nextInode
  unshared : ∀ {p q inode}, d.occupant? p = some (.file inode) → d.occupant? q = some (.file inode) → p = q

/-- An empty disk holds the root folder only. -/
theorem eq_folder_of_occupant?_empty {place : Location} {e : Entry} (h : (∅ : Disk).occupant? place = some e) :
    e = .folder := by
  unfold occupant? at h
  split at h
  · cases h; rfl
  · cases h

/-- An empty disk is sound. -/
theorem sound_empty : Sound ∅ := by
  refine ⟨fun {name above} h => ?_, fun h => ?_, fun h => ?_⟩
  · have hnone : (∅ : Disk).occupant? (name :: above) = none := rfl
    rw [hnone] at h
    cases h
  · cases eq_folder_of_occupant?_empty h
  · cases eq_folder_of_occupant?_empty h

/-- Only what stands at the places given changed, and no folder went. -/
structure Touched (places : Location → Prop) (d d' : Disk) : Prop where
  sound : d'.Sound
  entry : ∀ {p}, ¬places p → d'.occupant? p = d.occupant? p
  contents : ∀ {p inode}, ¬places p → d.occupant? p = some (.file inode) →
    d'.contentsOf inode = d.contentsOf inode
  folder : ∀ {p}, d.occupant? p = some .folder → d'.occupant? p = some .folder

/-- A change of a sound tree that touches nothing but the places given. -/
def Touches (places : Location → Prop) (d d' : Disk) : Prop :=
  d.Sound → Touched places d d'

variable {places : Location → Prop} {d d' : Disk} {place : Location} {inode : Nat}

/-- A sound disk may stay as it is. -/
theorem Touched.refl (hd : d.Sound) : Touched places d d :=
  ⟨hd, fun _ => rfl, fun _ _ => rfl, fun h => h⟩

/-- Changes at some places may follow on each other. -/
theorem Touched.trans {d'' : Disk} (hab : Touched places d d') (hbc : Touched places d' d'') :
    Touched places d d'' := by
  refine ⟨hbc.sound, fun hp => (hbc.entry hp).trans (hab.entry hp), fun hp he => ?_,
    fun h => hbc.folder (hab.folder h)⟩
  rw [hbc.contents hp ((hab.entry hp).trans he), hab.contents hp he]

/-- Changes may be said to be at more places. -/
theorem Touched.mono {more : Location → Prop} (h : Touched places d d')
    (hmore : ∀ p, places p → more p) : Touched more d d' :=
  ⟨h.sound, fun hp => h.entry fun hq => hp (hmore _ hq),
    fun hp => h.contents fun hq => hp (hmore _ hq), h.folder⟩

instance (places : Location → Prop) : IsPreorder Disk (Touches places) where
  refl _ hd := .refl hd
  trans _ _ _ hab hbc ha := (hab ha).trans (hbc (hab ha).sound)

/-- Steps may be said to touch more places. -/
theorem Touches.mono {more : Location → Prop} (h : Touches places d d')
    (hmore : ∀ p, places p → more p) : Touches more d d' :=
  fun hd => (h hd).mono hmore

/-- Files elsewhere keep their contents. -/
theorem Touched.fileAt (h : Touched places d d') {p : Location} (hp : ¬places p) :
    d'.fileAt p = d.fileAt p := by
  unfold Disk.fileAt
  rw [h.entry hp]
  split
  · next inode he => rw [h.contents hp he]
  · rfl

/-- The contents of a file are found at its place. -/
theorem fileAt_of_file (h : d.occupant? place = some (.file inode)) :
    d.fileAt place = some (d.contentsOf inode) := by
  unfold fileAt
  rw [h]

/-- Contents are found where there is a file with them. -/
theorem exists_of_fileAt {bytes : Bytes} (h : d.fileAt place = some bytes) :
    ∃ inode, d.occupant? place = some (.file inode) ∧ d.contentsOf inode = bytes := by
  unfold fileAt at h
  split at h
  · next inode he =>
    cases h
    exact ⟨inode, he, rfl⟩
  · cases h

/-- Where there is no folder, no contents means nothing is there. -/
theorem fileAt_eq_none (h : d.occupant? place ≠ some .folder) :
    d.fileAt place = none ↔ d.occupant? place = none := by
  unfold fileAt
  split
  · next inode he => simp [he]
  · next hfile =>
    cases he : d.occupant? place with
    | none => simp
    | some e =>
      cases e with
      | folder => exact absurd he h
      | file inode => exact absurd he (hfile inode)

/-! ## Steps -/

/-- At the root there is a folder. -/
@[simp] theorem occupant?_nil (d : Disk) : d.occupant? [] = some .folder := rfl

/-- Away from the root, what is there is what the entries say. -/
theorem occupant?_of_ne_nil (hne : place ≠ []) : d.occupant? place = d.entries.get? place := by
  rw [occupant?, if_neg hne]

/-- New contents change one file only. -/
theorem contentsOf_setContents (d : Disk) (i j : Nat) (bytes : Bytes) :
    (d.setContents i bytes).contentsOf j = if j = i then bytes else d.contentsOf j := by
  unfold contentsOf setContents
  rw [OrderedMap.get?_insert]
  split <;> rfl

/-- New contents change no entry. -/
@[simp] theorem occupant?_setContents (d : Disk) (i : Nat) (bytes : Bytes) (p : Location) :
    (d.setContents i bytes).occupant? p = d.occupant? p := rfl

/-- New contents keep a disk sound. -/
theorem Sound.setContents (h : d.Sound) (i : Nat) (bytes : Bytes) : (d.setContents i bytes).Sound :=
  ⟨h.enclosed, h.inode_lt, h.unshared⟩

/-- Contents are those of one place. -/
theorem touches_setContents (he : d.occupant? place = some (.file inode)) (bytes : Bytes) :
    Touches (· = place) d (d.setContents inode bytes) := by
  intro hd
  refine ⟨hd.setContents inode bytes, fun _ => rfl, fun {p i} hp hi => ?_, fun h => h⟩
  rw [contentsOf_setContents, if_neg]
  rintro rfl
  exact hp (hd.unshared hi he)

/-- Appending is giving a file longer contents. -/
theorem append_eq (d : Disk) (inode : Nat) (bytes : Bytes) :
    d.append inode bytes = d.setContents inode (d.contentsOf inode ++ bytes) := rfl

/-- Appending nothing touches nothing, wherever it goes. -/
theorem touches_append_nil (places : Location → Prop) (d : Disk) (inode : Nat) :
    Touches places d (d.append inode []) := by
  intro hd
  refine ⟨hd.setContents _ _, fun _ => rfl, fun {p i} _ _ => ?_, fun h => h⟩
  rw [append_eq, contentsOf_setContents, List.append_nil]
  split
  · next h => rw [h]
  · rfl

/-- A tree in which, since `start`, only the file at one place changed: it has these contents now. -/
structure Filled (place : Location) (inode : Nat) (start : Disk) (bytes : Bytes) (d : Disk) :
    Prop where
  touched : Touched (· = place) start d
  entry : d.occupant? place = some (.file inode)
  contents_eq : d.contentsOf inode = bytes

/-- A file is filled with what it holds. -/
theorem Filled.refl (hd : d.Sound) (he : d.occupant? place = some (.file inode)) :
    Filled place inode d (d.contentsOf inode) d :=
  ⟨.refl hd, he, rfl⟩

/-- A file may be filled anew. -/
theorem Filled.setContents {start : Disk} {old : Bytes} (h : Filled place inode start old d)
    (bytes : Bytes) : Filled place inode start bytes (d.setContents inode bytes) where
  touched := h.touched.trans (touches_setContents h.entry bytes h.touched.sound)
  entry := h.entry
  contents_eq := by rw [contentsOf_setContents, if_pos rfl]

/-- Appending fills a file with more. -/
theorem Filled.append {start : Disk} {old : Bytes} (h : Filled place inode start old d)
    (bytes : Bytes) : Filled place inode start (old ++ bytes) (d.append inode bytes) := by
  rw [append_eq, h.contents_eq]
  exact h.setContents _

/-- A filled file is found with its contents. -/
theorem Filled.fileAt {start : Disk} {bytes : Bytes} (h : Filled place inode start bytes d) :
    d.fileAt place = some bytes := by
  rw [fileAt_of_file h.entry, h.contents_eq]

/-- A new entry where there is none. -/
def put (d : Disk) (place : Location) (e : Entry) : Disk :=
  { d with entries := d.entries.insert place e }

/-- An entry taken away. -/
def drop (d : Disk) (place : Location) : Disk :=
  { d with entries := d.entries.erase place }

/-- Putting an entry somewhere changes that place only. -/
theorem occupant?_put (hne : place ≠ []) (e : Entry) (p : Location) :
    (d.put place e).occupant? p = if p = place then some e else d.occupant? p := by
  unfold put occupant?
  rw [OrderedMap.get?_insert]
  by_cases hp : p = place
  · rw [if_pos hp, if_pos hp, if_neg (hp ▸ hne)]
  · rw [if_neg hp, if_neg hp]

/-- Dropping an entry changes that place only. -/
theorem occupant?_drop (hne : place ≠ []) (p : Location) :
    (d.drop place).occupant? p = if p = place then none else d.occupant? p := by
  unfold drop occupant?
  rw [OrderedMap.get?_erase]
  by_cases hp : p = place
  · rw [if_pos hp, if_pos hp, if_neg (hp ▸ hne)]
  · rw [if_neg hp, if_neg hp]

/-- A folder, or a file with contents of its own, put where nothing stands in a folder. -/
theorem Sound.put {e : Entry} (h : d.Sound) (hne : place ≠ [])
    (habove : d.occupant? place.tail = some .folder) (hold : d.occupant? place ≠ some .folder)
    (hinode : ∀ i, e = .file i → i < d.nextInode ∧ ∀ p, p ≠ place → d.occupant? p ≠ some (.file i)) :
    (d.put place e).Sound where
  enclosed {name above} hsome := by
    -- no folder is replaced, so what was enclosed still is
    have hkeep : ∀ {p}, d.occupant? p = some .folder → (d.put place e).occupant? p = some .folder := by
      intro p hp
      rw [occupant?_put hne, if_neg, hp]
      rintro rfl
      exact hold hp
    rw [occupant?_put hne] at hsome
    split at hsome
    · next heq =>
      refine hkeep ?_
      rw [← heq] at habove
      exact habove
    · exact hkeep (h.enclosed hsome)
  inode_lt {p i} hp := by
    rw [occupant?_put hne] at hp
    split at hp
    · cases hp
      exact (hinode i rfl).1
    · exact h.inode_lt hp
  unshared {p q i} hp hq := by
    rw [occupant?_put hne] at hp hq
    split at hp <;> split at hq
    · next hp' hq' => exact hp'.trans hq'.symm
    · next hp' hq' =>
      cases hp
      exact absurd hq ((hinode i rfl).2 q hq')
    · next hp' hq' =>
      cases hq
      exact absurd hp ((hinode i rfl).2 p hp')
    · exact h.unshared hp hq

/-- Dropping what is not a folder keeps a disk sound. -/
theorem Sound.drop (h : d.Sound) (hne : place ≠ []) (hold : d.occupant? place ≠ some .folder) :
    (d.drop place).Sound where
  enclosed {name above} hsome := by
    rw [occupant?_drop hne] at hsome
    split at hsome
    · cases hsome
    · have habove := h.enclosed hsome
      rw [occupant?_drop hne, if_neg, habove]
      rintro rfl
      exact hold habove
  inode_lt {p i} hp := by
    rw [occupant?_drop hne] at hp
    split at hp
    · cases hp
    · exact h.inode_lt hp
  unshared {p q i} hp hq := by
    rw [occupant?_drop hne] at hp hq
    split at hp
    · cases hp
    · split at hq
      · cases hq
      · exact h.unshared hp hq

/-! ## Paths that lead somewhere -/

/-- A path that does not ask for a folder leads to a place below the root, in a folder. -/
structure Leads (d : Disk) (p : Path) (place : Location) : Prop where
  lookup : d.lookup p = .ok (place, d.occupant? place)
  noFolder : p.asksForFolder = false
  ne_nil : place ≠ []
  above : d.occupant? place.tail = some .folder

variable {p : Path}

/-- A path that leads to a place has what is there. -/
theorem Leads.has (h : d.Leads p place) : d.has p = (d.occupant? place).isSome := by
  unfold Disk.has
  rw [h.lookup]
  cases d.occupant? place <;> rfl

/-- A path has a folder if its place does. -/
theorem Leads.hasFolder (h : d.Leads p place) :
    d.hasFolder p = true ↔ d.occupant? place = some .folder := by
  unfold Disk.hasFolder
  rw [h.lookup]
  cases d.occupant? place with
  | none => simp
  | some e => cases e <;> simp

/-- A path that leads to a file finds its place and its inode. -/
theorem Leads.located_of_file (h : d.Leads p place) (he : d.occupant? place = some (.file inode)) :
    d.located p = .ok (place, inode) := by
  rw [located, h.lookup, he]
  rfl

/-- A path that leads to a file finds its inode. -/
theorem Leads.file_of_file (h : d.Leads p place) (he : d.occupant? place = some (.file inode)) :
    d.file p = .ok inode := by
  rw [Disk.file, h.located_of_file he]
  rfl

/-- A path that leads to a file reads its contents. -/
theorem Leads.read_of_file (h : d.Leads p place) (he : d.occupant? place = some (.file inode)) :
    d.read p = .ok (d.contentsOf inode) := by
  rw [Disk.read, h.file_of_file he]
  rfl

/-- A path that leads to nothing is not found. -/
theorem Leads.read_of_none (h : d.Leads p place) (he : d.occupant? place = none) :
    d.read p = .error .notFound := by
  rw [Disk.read, Disk.file, located, h.lookup, he]
  rfl

/-- What is read at a path where no folder stands. -/
theorem Leads.read_eq (h : d.Leads p place) (he : d.occupant? place ≠ some .folder) :
    d.read p = match d.fileAt place with
      | some bytes => .ok bytes
      | none => .error .notFound := by
  cases hentry : d.occupant? place with
  | none =>
    rw [h.read_of_none hentry, (fileAt_eq_none he).2 hentry]
  | some e =>
    cases e with
    | folder => exact absurd hentry he
    | file inode => rw [h.read_of_file hentry, fileAt_of_file hentry]

/-- A path that leads to no folder has what is a file there. -/
theorem Leads.has_eq (h : d.Leads p place) (he : d.occupant? place ≠ some .folder) :
    d.has p = (d.fileAt place).isSome := by
  rw [h.has]
  cases hentry : d.occupant? place with
  | none => rw [(fileAt_eq_none he).2 hentry]; rfl
  | some e =>
    cases e with
    | folder => exact absurd hentry he
    | file inode => rw [fileAt_of_file hentry]; rfl

/-- A file that is there or is made. -/
theorem Leads.touch (h : d.Leads p place) (hd : d.Sound) (he : d.occupant? place ≠ some .folder) :
    ∃ inode d', d.touch p = .ok (inode, d') ∧ Touched (· = place) d d' ∧
      d'.occupant? place = some (.file inode) := by
  cases hentry : d.occupant? place with
  | none =>
    -- contents with a new number
    have htouch : d.touch p = .ok (d.nextInode,
        { entries := d.entries.insert place (.file d.nextInode)
          contents := d.contents.insert d.nextInode []
          nextInode := d.nextInode + 1 }) := by
      rw [Disk.touch, h.lookup, hentry]
      simp only [bind, Except.bind, h.noFolder]
      rfl
    have hgrown : ({ d with nextInode := d.nextInode + 1 } : Disk).Sound :=
      ⟨hd.enclosed, fun hp => Nat.lt_succ_of_lt (hd.inode_lt hp), hd.unshared⟩
    have hput := hgrown.put (e := .file d.nextInode) h.ne_nil h.above he fun i hi => by
      cases hi
      exact ⟨Nat.lt_succ_self _, fun q _ hq => Nat.lt_irrefl _ (hd.inode_lt hq)⟩
    have hentry' : ∀ q, (d.put place (.file d.nextInode)).occupant? q =
        if q = place then some (.file d.nextInode) else d.occupant? q := occupant?_put h.ne_nil _
    refine ⟨_, _, htouch, ⟨⟨hput.enclosed, hput.inode_lt, hput.unshared⟩, fun {q} hq => ?_,
      fun {q i} hq hi => ?_, fun {q} hq => ?_⟩, (hentry' place).trans (if_pos rfl)⟩
    · exact (hentry' q).trans (if_neg hq)
    · have hne : i ≠ d.nextInode := Nat.ne_of_lt (hd.inode_lt hi)
      unfold contentsOf
      rw [OrderedMap.get?_insert, if_neg hne]
    · refine (hentry' q).trans ?_
      rw [if_neg, hq]
      rintro rfl
      exact he hq
  | some e =>
    cases e with
    | folder => exact absurd hentry he
    | file inode =>
      refine ⟨inode, d, ?_, .refl hd, hentry⟩
      rw [Disk.touch, h.lookup, hentry]
      rfl

/-- An empty file, made or emptied. -/
theorem Leads.create (h : d.Leads p place) (hd : d.Sound) (he : d.occupant? place ≠ some .folder) :
    ∃ inode d', d.create p = .ok (inode, d') ∧ Touched (· = place) d d' ∧
      d'.occupant? place = some (.file inode) ∧ d'.contentsOf inode = [] := by
  obtain ⟨inode, d', htouch, ht, hentry⟩ := h.touch hd he
  refine ⟨inode, d'.setContents inode [], ?_, ht.trans (touches_setContents hentry [] ht.sound),
    hentry, ?_⟩
  · rw [Disk.create, htouch]
    rfl
  · rw [contentsOf_setContents, if_pos rfl]

/-- A file that is taken away. -/
theorem Leads.remove_of_file (h : d.Leads p place) (hd : d.Sound)
    (he : d.occupant? place = some (.file inode)) :
    d.remove p = .ok (d.drop place) ∧ Touched (· = place) d (d.drop place) := by
  have hold : d.occupant? place ≠ some .folder := by
    rw [he]
    exact fun h => by cases h
  constructor
  · rw [Disk.remove, h.located_of_file he]
    rfl
  · refine ⟨hd.drop h.ne_nil hold, fun {q} hq => ?_, fun _ _ => rfl, fun {q} hq => ?_⟩
    · rw [occupant?_drop h.ne_nil, if_neg hq]
    · rw [occupant?_drop h.ne_nil, if_neg, hq]
      rintro rfl
      exact hold hq

/-- Nothing can be taken away where there is nothing. -/
theorem Leads.remove_of_none (h : d.Leads p place) (he : d.occupant? place = none) :
    d.remove p = .error .notFound := by
  rw [Disk.remove, located, h.lookup, he]
  rfl

/-- A folder put where nothing stands in a folder. -/
theorem touched_put_folder (hd : d.Sound) (hne : place ≠ [])
    (habove : d.occupant? place.tail = some .folder) (he : d.occupant? place = none) :
    Touched (· = place) d (d.put place .folder) := by
  have hold : d.occupant? place ≠ some .folder := by
    rw [he]
    exact fun h => by cases h
  refine ⟨hd.put hne habove hold fun i hi => (by cases hi), fun {q} hq => ?_, fun _ _ => rfl,
    fun {q} hq => ?_⟩
  · rw [occupant?_put hne, if_neg hq]
  · rw [occupant?_put hne, if_neg, hq]
    rintro rfl
    exact hold hq

/-- A folder where nothing stood. -/
theorem Leads.makeFolder (h : d.Leads p place) (hd : d.Sound) (he : d.occupant? place = none) :
    d.makeFolder p = .ok (d.put place .folder) ∧ Touched (· = place) d (d.put place .folder) := by
  refine ⟨?_, touched_put_folder hd h.ne_nil h.above he⟩
  rw [Disk.makeFolder, h.lookup, he]
  rfl

/-- A file gets the name of another place, where no folder stands. -/
theorem Leads.rename {q : Path} {target : Location} (h : d.Leads p place) (hq : d.Leads q target)
    (hd : d.Sound) (hne : place ≠ target) (he : d.occupant? place = some (.file inode))
    (ht : d.occupant? target ≠ some .folder) :
    ∃ d', d.rename p q = .ok d' ∧ Touched (fun l => l = place ∨ l = target) d d' ∧
      d'.occupant? place = none ∧ d'.occupant? target = some (.file inode) ∧
      d'.contentsOf inode = d.contentsOf inode := by
  have hold : d.occupant? place ≠ some .folder := by
    rw [he]
    exact fun h => by cases h
  have hrename : d.rename p q = .ok ((d.drop place).put target (.file inode)) := by
    rw [Disk.rename, h.located_of_file he]
    simp only [bind, Except.bind, hq.lookup]
    cases ht' : d.occupant? target with
    | none => rfl
    | some e =>
      cases e with
      | folder => exact absurd ht' ht
      | file i => rfl
  -- the entry is taken from one place and put in the other
  have hentry : ∀ l, ((d.drop place).put target (.file inode)).occupant? l =
      if l = target then some (.file inode) else if l = place then none else d.occupant? l := by
    intro l
    rw [occupant?_put hq.ne_nil, occupant?_drop h.ne_nil]
  refine ⟨_, hrename, ⟨?_, fun {l} hl => ?_, fun _ _ => rfl, fun {l} hl => ?_⟩, ?_, ?_, rfl⟩
  · refine (hd.drop h.ne_nil hold).put hq.ne_nil ?_ ?_ fun i hi => ?_
    · rw [occupant?_drop h.ne_nil, if_neg, hq.above]
      rintro heq
      rw [← heq, hq.above] at hold
      exact hold rfl
    · rw [occupant?_drop h.ne_nil, if_neg (Ne.symm hne)]
      exact ht
    · cases hi
      -- the number is still used once, as it was taken out before
      refine ⟨hd.inode_lt he, fun l _ hl => ?_⟩
      rw [occupant?_drop h.ne_nil] at hl
      split at hl
      · cases hl
      · next hlp => exact hlp (hd.unshared hl he)
  · rw [hentry, if_neg fun h => hl (Or.inr h), if_neg fun h => hl (Or.inl h)]
  · rw [hentry, if_neg, if_neg, hl]
    · rintro rfl
      exact hold hl
    · rintro rfl
      exact ht hl
  · rw [hentry, if_neg hne, if_pos rfl]
  · rw [hentry, if_pos rfl]

/-- A file that is there, emptied. -/
theorem Leads.truncate (h : d.Leads p place) (he : d.occupant? place = some (.file inode)) :
    d.truncate p = .ok (inode, d.setContents inode []) := by
  rw [Disk.truncate, h.file_of_file he]
  rfl

/-- A file that is there, opened. -/
theorem Leads.touch_of_file (h : d.Leads p place) (he : d.occupant? place = some (.file inode)) :
    d.touch p = .ok (inode, d) := by
  rw [Disk.touch, h.lookup, he]
  rfl

end ContentTree.Disk
