import ContentTree.Proofs.Disk.Device

/-!
# What changes leave undisturbed

An effect that was carried out was possible, so it went to the place that its path leads to, whatever
else the tree holds (`Opens`, `touched_of_rename`). What is read at other places is then the same as
before, also where a folder on the way to them was missing and has been made (`Undisturbed.read_eq`).
-/

namespace ContentTree.Disk

variable {spared fewer : Location → Prop} {d d' d'' : Disk} {p q : Path} {place target k l : Location}
  {inode : Nat}

/-! ## Where an effect was possible -/

/-- What is found is what stands where the path leads; nothing is only found in a folder, and a file not
where a folder is asked for. -/
theorem lookup_eq_ok {e : Option Entry} (h : d.lookup p = .ok (place, e)) :
    d.follow [] p = .ok place ∧ d.occupant? place = e ∧
      (∀ i, e = some (.file i) → p.asksForFolder = false) ∧
      (e = none → d.occupant? place.tail = some .folder) := by
  rw [lookup] at h
  cases hcheck : p.check with
  | error cause => rw [hcheck] at h; cases h
  | ok u =>
  cases hfollow : d.follow [] p with
  | error cause => rw [hcheck, hfollow] at h; cases h
  | ok found =>
  rw [hcheck, hfollow] at h
  simp only [bind, Except.bind] at h
  split at h
  · next i hentry =>
    split at h
    · cases h
    · next hasks =>
      cases h
      exact ⟨rfl, hentry, fun _ _ => Bool.eq_false_iff.2 hasks, by simp⟩
  · next hentry =>
    cases h
    exact ⟨rfl, hentry, by simp, by simp⟩
  · next hentry =>
    cases habove : d.checkFolder found.tail with
    | error cause => rw [habove] at h; cases h
    | ok u =>
      rw [habove] at h
      cases h
      exact ⟨rfl, hentry, by simp, fun _ => checkFolder_eq_ok.1 habove⟩

/-- A path at which a file or nothing was found leads there. -/
theorem leads_of_lookup (hd : d.Sound) {e : Option Entry} (h : d.lookup p = .ok (place, e))
    (he : e ≠ some .folder) (hasks : e = none → p.asksForFolder = false) :
    d.Leads p place ∧ d.occupant? place = e := by
  obtain ⟨-, hentry, hfile, hnone⟩ := lookup_eq_ok h
  have hne : place ≠ [] := by
    rintro rfl
    exact he hentry.symm
  refine ⟨⟨hentry ▸ h, ?_, hne, ?_⟩, hentry⟩
  · cases e with
    | none => exact hasks rfl
    | some e =>
      cases e with
      | folder => exact absurd rfl he
      | file i => exact hfile i rfl
  · cases e with
    | none => exact hnone rfl
    | some e =>
      obtain ⟨name, above, rfl⟩ := List.exists_cons_of_ne_nil hne
      exact hd.enclosed (Option.isSome_of_eq_some hentry)

/-- A file that was found stands where its path leads. -/
theorem leads_of_located (hd : d.Sound) (h : d.located p = .ok (place, inode)) :
    d.Leads p place ∧ d.occupant? place = some (.file inode) := by
  rw [located] at h
  cases hl : d.lookup p with
  | error cause => rw [hl] at h; cases h
  | ok found =>
    obtain ⟨l, e⟩ := found
    rw [hl] at h
    cases e with
    | none => cases h
    | some e =>
      cases e with
      | folder => cases h
      | file i =>
        cases h
        exact leads_of_lookup hd hl (by simp) (by simp)

/-- A file that stands where a path leads, opened or made; elsewhere nothing changed. -/
def Opens (p : Path) (inode : Nat) (d d' : Disk) : Prop :=
  ∃ place, d.follow [] p = .ok place ∧ Touched (· = place) d d' ∧
    d'.occupant? place = some (.file inode)

/-- A path to a file opens that file. -/
theorem opens_of_file (hd : d.Sound) (h : d.file p = .ok inode) : Opens p inode d d := by
  rw [Disk.file] at h
  cases hl : d.located p with
  | error cause => rw [hl] at h; cases h
  | ok found =>
    rw [hl] at h
    cases h
    obtain ⟨hleads, hentry⟩ := leads_of_located hd hl
    exact ⟨found.1, (lookup_eq_ok hleads.lookup).1, .refl hd, hentry⟩

/-- Where it is known where the path leads, it is known where the file stands. -/
theorem Opens.at_place (h : Opens p inode d d') (hfollow : d.follow [] p = .ok place) :
    Touched (· = place) d d' ∧ d'.occupant? place = some (.file inode) := by
  obtain ⟨l, hl, htouched, hentry⟩ := h
  cases hfollow.symm.trans hl
  exact ⟨htouched, hentry⟩

/-- An opened file may be given contents. -/
theorem Opens.setContents (h : Opens p inode d d') (bytes : Bytes) :
    Opens p inode d (d'.setContents inode bytes) := by
  obtain ⟨place, hfollow, htouched, hentry⟩ := h
  exact ⟨place, hfollow, htouched.trans (touches_setContents hentry bytes htouched.sound), hentry⟩

/-- A file that is made if it is missing is opened. -/
theorem opens_of_touch (hd : d.Sound) (h : d.touch p = .ok (inode, d')) : Opens p inode d d' := by
  cases hl : d.lookup p with
  | error cause => rw [touch, hl] at h; cases h
  | ok found =>
    obtain ⟨place, e⟩ := found
    have hasks : e = none → p.asksForFolder = false := by
      rintro rfl
      rw [touch, hl] at h
      simp only [bind, Except.bind] at h
      split at h
      · cases h
      · next hasks => exact Bool.eq_false_iff.2 hasks
    have hfile : e ≠ some .folder := by
      rintro rfl
      rw [touch, hl] at h
      cases h
    obtain ⟨hleads, hentry⟩ := leads_of_lookup hd hl hfile hasks
    obtain ⟨i, after, htouch, htouched, hmade⟩ := hleads.touch hd (hentry ▸ hfile)
    cases h.symm.trans htouch
    exact ⟨place, (lookup_eq_ok hl).1, htouched, hmade⟩

/-- A file that is made is opened. -/
theorem opens_of_create (hd : d.Sound) (h : d.create p = .ok (inode, d')) : Opens p inode d d' := by
  cases ht : d.touch p with
  | error cause => rw [create, ht] at h; cases h
  | ok opened =>
    rw [create, ht] at h
    cases h
    exact (opens_of_touch hd ht).setContents []

/-- A file that is emptied is opened. -/
theorem opens_of_truncate (hd : d.Sound) (h : d.truncate p = .ok (inode, d')) :
    Opens p inode d d' := by
  cases hf : d.file p with
  | error cause => rw [truncate, hf] at h; cases h
  | ok i =>
    rw [truncate, hf] at h
    cases h
    exact (opens_of_file hd hf).setContents []

/-- A file that lost its name stood where its path leads. -/
theorem touched_of_remove (hd : d.Sound) (h : d.remove p = .ok d') :
    ∃ place, d.follow [] p = .ok place ∧ Touched (· = place) d d' := by
  cases hl : d.located p with
  | error cause => rw [remove, hl] at h; cases h
  | ok found =>
    obtain ⟨hleads, hentry⟩ := leads_of_located hd hl
    obtain ⟨hremove, htouched⟩ := hleads.remove_of_file hd hentry
    cases h.symm.trans hremove
    exact ⟨found.1, (lookup_eq_ok hleads.lookup).1, htouched⟩

/-- A file that got the name of another place was taken from where its old path leads. -/
theorem touched_of_rename (hd : d.Sound) (h : d.rename p q = .ok d')
    (hplace : d.follow [] p = .ok place) (htarget : d.follow [] q = .ok target) (hne : place ≠ target)
    (hasks : q.asksForFolder = false) : Touched (fun l => l = place ∨ l = target) d d' := by
  cases hl : d.located p with
  | error cause => rw [rename, hl] at h; cases h
  | ok found =>
  cases hl' : d.lookup q with
  | error cause => rw [rename, hl] at h; simp only [bind, Except.bind, hl'] at h; cases h
  | ok found' =>
    obtain ⟨l', e⟩ := found'
    obtain ⟨hleads, hentry⟩ := leads_of_located hd hl
    obtain rfl : place = found.1 := Except.ok.inj (hplace.symm.trans (lookup_eq_ok hleads.lookup).1)
    obtain rfl : target = l' := Except.ok.inj (htarget.symm.trans (lookup_eq_ok hl').1)
    have hfile : e ≠ some .folder := by
      rintro rfl
      rw [rename, hl] at h
      simp only [bind, Except.bind, hl'] at h
      cases h
    obtain ⟨hleads', hentry'⟩ := leads_of_lookup hd hl' hfile fun _ => hasks
    obtain ⟨after, hrename, htouched, -⟩ := hleads.rename hleads' hd hne hentry (hentry' ▸ hfile)
    cases h.symm.trans hrename
    exact htouched

/-- A folder that was made stands where nothing stood. -/
theorem touched_of_makeFolder (hd : d.Sound) (h : d.makeFolder p = .ok d') :
    ∃ place, d.follow [] p = .ok place ∧ Touched (· = place) d d' ∧ d.occupant? place = none ∧
      d'.occupant? place = some .folder := by
  cases hl : d.lookup p with
  | error cause => rw [makeFolder, hl] at h; cases h
  | ok found =>
    obtain ⟨place, e⟩ := found
    obtain ⟨hfollow, hentry, -, hnone⟩ := lookup_eq_ok hl
    rw [makeFolder, hl] at h
    cases e with
    | some e => cases h
    | none =>
      cases h
      have hne : place ≠ [] := by
        rintro rfl
        cases hentry
      refine ⟨place, hfollow, touched_put_folder hd hne (hnone rfl) hentry, hentry, ?_⟩
      exact (occupant?_put hne .folder place).trans (if_pos rfl)

/-- Of the folders on the way to one with plain names behind the path of another, only those with a
first part of the names can be missing. -/
theorem Anchored.missing_below {folder : Path} {base : Location} (h : Anchored folder base d)
    (hd : d.Sound) {ns : Path} (hplain : ∀ n ∈ ns, Path.Plain n) (hq : q <+: folder ++ ns)
    (hfollow : d.follow [] q = .ok place) (hnone : d.occupant? place = none) :
    ∃ ms, ms <+: ns ∧ place = ms.reverse ++ base := by
  rcases List.prefix_or_prefix_of_prefix hq (List.prefix_append folder ns) with ⟨r, rfl⟩ | ⟨ms, rfl⟩
  · have hrest := h.follow
    rw [Disk.follow_append, hfollow] at hrest
    rw [folder_of_follow hd hrest h.isFolder] at hnone
    cases hnone
  · have hms := (List.prefix_append_right_inj folder).1 hq
    rw [h.follow_append fun n hn => hplain n (hms.subset hn)] at hfollow
    exact ⟨ms, hms, (Except.ok.inj hfollow).symm⟩

/-! ## Spared places -/

/-- Nothing changed at some places, and of what stands around them at most folders were made. -/
structure Undisturbed (spared : Location → Prop) (d d' : Disk) : Prop where
  touched : Touched (fun l => ¬spared l) d d'
  around : ∀ {k l}, spared k → l <:+ k → d'.occupant? l = d.occupant? l ∨
    d.occupant? l = none ∧ d'.occupant? l = some .folder

namespace Undisturbed

/-- A sound disk does not disturb itself. -/
theorem refl (hd : d.Sound) : Undisturbed spared d d :=
  ⟨.refl hd, fun _ _ => Or.inl rfl⟩

/-- What neither of two changes disturbs is undisturbed. -/
theorem trans (h : Undisturbed spared d d') (h' : Undisturbed spared d' d'') : Undisturbed spared d d'' where
  touched := h.touched.trans h'.touched
  around {k l} hk hl := by
    rcases h.around hk hl with heq | ⟨hnone, hmade⟩
    · rw [← heq]
      exact h'.around hk hl
    · exact Or.inr ⟨hnone, h'.touched.folder hmade⟩

/-- What is undisturbed is so in fewer places. -/
theorem mono (h : Undisturbed spared d d') (hfewer : ∀ l, fewer l → spared l) : Undisturbed fewer d d' :=
  ⟨h.touched.mono fun l hl hs => hl (hfewer l hs), fun hk => h.around (hfewer _ hk)⟩

/-- A file is changed at places that are neither spared nor around one that is. -/
theorem of_touched {places : Location → Prop} (h : Touched places d d')
    (hclear : ∀ k l, spared k → l <:+ k → ¬places l) : Undisturbed spared d d' :=
  ⟨h.mono fun l hl hs => hclear l l hs (List.suffix_refl l) hl,
    fun hk hl => Or.inl (h.entry (hclear _ _ hk hl))⟩

/-- A folder is made at a place that is not spared. -/
theorem of_made (h : Touched (· = place) d d') (hplace : ¬spared place)
    (hnone : d.occupant? place = none) (hmade : d'.occupant? place = some .folder) :
    Undisturbed spared d d' where
  touched := h.mono fun l hl => hl ▸ hplace
  around {k l} _ _ := by
    by_cases hl : l = place
    · subst hl
      exact Or.inr ⟨hnone, hmade⟩
    · exact Or.inl (h.entry hl)

/-- At a spared place there is what was there before. -/
theorem occupant?_eq (h : Undisturbed spared d d') (hk : spared k) : d'.occupant? k = d.occupant? k :=
  h.touched.entry (not_not_intro hk)

/-! ## What is read -/

/-- Whether a folder stands above a spared place: at most one that was missing was made. -/
theorem checkFolder (h : Undisturbed spared d d') (hk : spared k) (hl : l <:+ k) :
    d'.checkFolder l = d.checkFolder l ∨
      d.checkFolder l = .error .notFound ∧ d'.checkFolder l = .ok () := by
  induction l with
  | nil => exact Or.inl rfl
  | cons name above ih =>
    have hne : name :: above ≠ [] := List.cons_ne_nil name above
    have habove := ih ((List.suffix_cons name above).trans hl)
    rcases h.around hk hl with heq | ⟨hnone, hmade⟩
    · rw [occupant?_of_ne_nil hne, occupant?_of_ne_nil hne] at heq
      rw [Disk.checkFolder, Disk.checkFolder, heq]
      -- where nothing stands, the folders above decide between two errors
      rcases habove with hsame | ⟨hmissing, hthere⟩
      · rw [hsame]
        exact Or.inl rfl
      · rw [hmissing, hthere]
        exact Or.inl rfl
    · have hthere : d'.checkFolder above = .ok () :=
        checkFolder_eq_ok.2 (h.touched.sound.enclosed (by rw [hmade]; rfl))
      refine Or.inr ⟨?_, checkFolder_eq_ok.2 hmade⟩
      rw [occupant?_of_ne_nil hne] at hnone
      rw [Disk.checkFolder, hnone]
      rcases habove with hsame | ⟨hmissing, -⟩
      · rw [← hsame, hthere]
        rfl
      · rw [hmissing]
        rfl

/-- A path to a spared place finds there what it found, or a new file where there was nothing on the way.
-/
theorem lookup (h : Undisturbed spared d d') (hk : spared k) (hfollow : d.follow [] p = .ok k) :
    d'.lookup p = d.lookup p ∨ d.lookup p = .error .notFound ∧ d'.lookup p = .ok (k, none) := by
  have hfollow' := follow_kept h.touched.folder hfollow
  rw [Disk.lookup, Disk.lookup, hfollow, hfollow']
  cases p.check with
  | error e => exact Or.inl rfl
  | ok u =>
    simp only [bind, Except.bind, h.occupant?_eq hk]
    cases d.occupant? k with
    | some e => cases e <;> exact Or.inl rfl
    | none =>
      rcases h.checkFolder hk (List.tail_suffix k) with hsame | ⟨hmissing, hthere⟩
      · rw [hsame]
        exact Or.inl rfl
      · rw [hmissing, hthere]
        exact Or.inr ⟨rfl, rfl⟩

/-- A path to a spared place has something if it had before. -/
theorem has_eq (h : Undisturbed spared d d') (hk : spared k) (hfollow : d.follow [] p = .ok k) :
    d'.has p = d.has p := by
  rw [Disk.has, Disk.has]
  rcases h.lookup hk hfollow with hsame | ⟨hmissing, hnone⟩
  · rw [hsame]
  · rw [hmissing, hnone]

/-- A path to a spared place reads what it read before. -/
theorem read_eq (h : Undisturbed spared d d') (hk : spared k) (hfollow : d.follow [] p = .ok k) :
    d'.read p = d.read p := by
  rw [Disk.read, Disk.read, Disk.file, Disk.file, located, located]
  rcases h.lookup hk hfollow with hsame | ⟨hmissing, hnone⟩
  · rw [hsame]
    cases hl : d.lookup p with
    | error e => rfl
    | ok found =>
      obtain ⟨l, e⟩ := found
      obtain ⟨hplace, hentry, -⟩ := lookup_eq_ok hl
      obtain rfl : k = l := Except.ok.inj (hfollow.symm.trans hplace)
      cases e with
      | none => rfl
      | some e =>
        cases e with
        | folder => rfl
        | file inode => exact congrArg Except.ok (h.touched.contents (not_not_intro hk) hentry)
  · rw [hmissing, hnone]
    rfl

end Undisturbed

end Disk

namespace Device

variable {α : Type} {device : Device} {start : Disk} {spared : Location → Prop} {p q folder : Path}
  {base place target : Location} {inode : Nat}

/-- Whatever becomes of an effect: it is not carried out, it is torn, or it is carried out. -/
theorem perform_leaves {effect : Effect} {torn : Fault → Disk → Disk}
    {step : Disk → Except IoCause (α × Disk)} (good : α → Disk → Prop) (bad : Disk → Prop)
    (hstay : bad device.disk) (htorn : ∀ fault, bad (torn fault device.disk))
    (hstep : ∀ a disk, step device.disk = .ok (a, disk) → good a disk) :
    Yields (fun a d => good a d.disk) (fun d => bad d.disk) (perform effect torn step device) := by
  rw [perform_eq]
  cases device.plan device.clock effect with
  | some fault => exact htorn fault
  | none =>
    cases hs : step device.disk with
    | ok done => exact hstep done.1 done.2 hs
    | error cause => exact hstay

/-- A question changes nothing. -/
theorem query_leaves (question : Disk → Except IoCause α) :
    Yields (fun a d => question device.disk = .ok a ∧ d = device) (· = device)
      (query question device) := by
  rw [query_eq]
  cases question device.disk with
  | ok a => exact ⟨rfl, rfl⟩
  | error cause => exact rfl

/-- An effect that opens a file does so where the path of the file leads. -/
theorem opening_leaves {effect : Effect} {step : Disk → Except IoCause (Nat × Disk)}
    (hstep : ∀ inode d, step device.disk = .ok (inode, d) → Disk.Opens p inode device.disk d) :
    Yields (fun inode d => Disk.Opens p inode device.disk d.disk) (fun d => d.disk = device.disk)
      (perform effect untouched step device) :=
  perform_leaves (fun inode d => Disk.Opens p inode device.disk d) (· = device.disk) rfl
    (fun _ => rfl) hstep

/-- Making a file if it is missing opens a file, or nothing changes. -/
theorem touch_leaves (hd : device.disk.Sound) :
    Yields (fun inode d => Disk.Opens p inode device.disk d.disk) (fun d => d.disk = device.disk)
      (touch p device) :=
  opening_leaves fun _ _ => Disk.opens_of_touch hd

/-- Making a file opens a file, or nothing changes. -/
theorem create_leaves (hd : device.disk.Sound) :
    Yields (fun inode d => Disk.Opens p inode device.disk d.disk) (fun d => d.disk = device.disk)
      (create p device) :=
  opening_leaves fun _ _ => Disk.opens_of_create hd

/-- Emptying a file opens a file, or nothing changes. -/
theorem truncate_leaves (hd : device.disk.Sound) :
    Yields (fun inode d => Disk.Opens p inode device.disk d.disk) (fun d => d.disk = device.disk)
      (truncate p device) :=
  opening_leaves fun _ _ => Disk.opens_of_truncate hd

/-- Opening a file at its end opens it, or nothing changes. -/
theorem openEnd_leaves (hd : device.disk.Sound) :
    Yields (fun inode d => Disk.Opens p inode device.disk d.disk) (fun d => d.disk = device.disk)
      (openEnd p device) := by
  refine opening_leaves fun inode d hs => ?_
  cases hf : device.disk.file p with
  | error cause => rw [hf] at hs; cases hs
  | ok i =>
    rw [hf] at hs
    cases hs
    exact Disk.opens_of_file hd hf

/-- The lock is taken on a file where its path leads. -/
theorem lock_leaves (hd : device.disk.Sound) :
    Yields (fun inode d => Disk.Opens p inode device.disk d.disk) (fun d => d.disk = device.disk ∨
      ∃ inode, Disk.Opens p inode device.disk d.disk) (lock p device) := by
  refine Yields.bind ((touch_leaves hd).imp (fun _ _ h => h) fun _ h => Or.inl h) fun inode d h => ?_
  rw [get_bind]
  split
  · exact Or.inr ⟨inode, h⟩
  · exact h

/-- Octets that are written, or a first part of them, come into the file that is open. -/
theorem write_leaves (hd : device.disk.Sound)
    (he : device.disk.occupant? place = some (.file inode)) (bytes : Bytes) :
    Yields (fun _ d => Disk.Touched (· = place) device.disk d.disk ∧
        d.disk.occupant? place = some (.file inode))
      (fun d => Disk.Touched (· = place) device.disk d.disk ∧
        d.disk.occupant? place = some (.file inode)) (write inode bytes device) := by
  have happend : ∀ part, Disk.Touched (· = place) device.disk (device.disk.append inode part) :=
    fun part => Disk.touches_setContents he _ hd
  refine perform_leaves (fun _ d => Disk.Touched (· = place) device.disk d ∧
    d.occupant? place = some (.file inode)) (fun d => Disk.Touched (· = place) device.disk d ∧
    d.occupant? place = some (.file inode)) ⟨.refl hd, he⟩ (fun fault => ⟨happend _, he⟩)
    fun _ d hs => ?_
  cases hs
  exact ⟨happend bytes, he⟩

/-- Forcing a file to the medium changes no disk. -/
theorem sync_leaves (inode : Nat) :
    Yields (fun _ d => d.disk = device.disk) (fun d => d.disk = device.disk) (sync inode device) :=
  perform_leaves (fun _ d => d = device.disk) (· = device.disk) rfl (fun _ => rfl)
    fun _ _ hs => by cases hs; rfl

/-- A step without an answer does what it does by itself. -/
theorem silently_eq_ok {step : Disk → Except IoCause Disk} {u : Unit} {d d' : Disk}
    (h : silently step d = .ok (u, d')) : step d = .ok d' := by
  rw [silently] at h
  cases hs : step d with
  | error cause => rw [hs] at h; cases h
  | ok after =>
    rw [hs] at h
    cases h
    rfl

/-- Taking a name away touches at most its place. -/
theorem remove_leaves (hd : device.disk.Sound) (hfollow : device.disk.follow [] p = .ok place) :
    Yields (fun _ d => Disk.Touched (· = place) device.disk d.disk)
      (fun d => Disk.Touched (· = place) device.disk d.disk) (remove p device) := by
  refine perform_leaves (fun _ d => Disk.Touched (· = place) device.disk d)
    (fun d => Disk.Touched (· = place) device.disk d) (.refl hd) (fun _ => .refl hd) fun _ d hs => ?_
  obtain ⟨l, hl, htouched⟩ := Disk.touched_of_remove hd (silently_eq_ok hs)
  cases hfollow.symm.trans hl
  exact htouched

/-- Renaming touches at most the two places. -/
theorem rename_leaves (hd : device.disk.Sound) (hplace : device.disk.follow [] p = .ok place)
    (htarget : device.disk.follow [] q = .ok target) (hne : place ≠ target)
    (hasks : q.asksForFolder = false) :
    Yields (fun _ d => Disk.Touched (fun l => l = place ∨ l = target) device.disk d.disk)
      (fun d => d.disk = device.disk) (rename p q device) :=
  perform_leaves (fun _ d => Disk.Touched (fun l => l = place ∨ l = target) device.disk d)
    (· = device.disk) rfl (fun _ => rfl) fun _ _ hs =>
      Disk.touched_of_rename hd (silently_eq_ok hs) hplace htarget hne hasks

/-- Folders are made on the way to another one, at places that are not spared. -/
theorem makeFolders_leaves (h : Disk.Undisturbed spared start device.disk)
    (hfree : ∀ q ∈ p.containing ++ [p], ∀ d place, Disk.Undisturbed spared start d →
      d.follow [] q = .ok place → d.occupant? place = none → ¬spared place) :
    Yields (fun _ d => Disk.Undisturbed spared start d.disk) (fun d => Disk.Undisturbed spared start d.disk)
      (makeFolders p device) := by
  refine Yields.bind ((query_leaves _).imp (fun _ d hd => hd.2 ▸ h) fun d hd => hd ▸ h)
    fun _ d hd => ?_
  refine Yields.forM (fun _ (d : Device) => Disk.Undisturbed spared start d.disk)
    (fun done q rest d hsplit hd => ?_) hd
  rw [makeMissing, get_bind]
  split
  · exact hd
  refine perform_leaves (fun _ d => Disk.Undisturbed spared start d) (Disk.Undisturbed spared start) hd
    (fun _ => hd) fun _ d' hs => ?_
  obtain ⟨place, hfollow, htouched, hnone, hmade⟩ :=
    Disk.touched_of_makeFolder hd.touched.sound (silently_eq_ok hs)
  refine hd.trans (.of_made htouched (hfree q ?_ d.disk place hd hfollow hnone) hnone hmade)
  rw [hsplit]
  exact List.mem_append_right _ (List.mem_cons_self ..)

end Device

end ContentTree
