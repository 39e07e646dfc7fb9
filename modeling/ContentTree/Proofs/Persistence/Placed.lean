import ContentTree.Proofs.Disk.Undisturbed
import ContentTree.Proofs.Persistence.Journal

/-!
# Journals in their places

The path of a journal leads to a place, and the file that the journal has open stands there (`Placed`).
Whatever is done with a journal, and whatever fails, this stays so, and nothing changes elsewhere
(`Stays`).
-/

namespace ContentTree

namespace Hosted

variable {τ υ α : Type}

/-- A host is its device and its value. -/
theorem eq_of_parts {s s' : Hosted τ} (hdevice : s'.device = s.device) (hvalue : s'.value = s.value) :
    s' = s := by
  cases s
  cases s'
  rw [Hosted.mk.injEq]
  exact ⟨hdevice, hvalue⟩

/-- A step on a part leaves the device as the step does, with the part replaced. -/
theorem stateAfter_onPart (part : τ → υ) (replace : τ → υ → τ) (step : EStateM Error (Hosted υ) α)
    (s : Hosted τ) : stateAfter (onPart part replace step) s =
      ⟨(stateAfter step ⟨s.device, part s.value⟩).device,
        replace s.value (stateAfter step ⟨s.device, part s.value⟩).value⟩ := by
  simp only [stateAfter, onPart]
  cases step ⟨s.device, part s.value⟩ <;> rfl

/-- A question to the device leaves the host as it was. -/
theorem stateAfter_query (question : Disk → Except IoCause α) (s : Hosted τ) :
    stateAfter (onDevice (Device.query question)) s = s := by
  rw [stateAfter, onDevice, Device.query_eq]
  cases question s.device.disk <;> rfl

end Hosted

/-! ## The journal -/

namespace Journal

variable {place : Location} {inode : Nat} {s s' : Hosted Journal} {device : Device}

/-- A journal whose path leads to a place, at which its open file stands. -/
structure Placed (place : Location) (s : Hosted Journal) : Prop where
  sound : s.device.disk.Sound
  follow : s.device.disk.follow [] s.value.path = .ok place
  writer : ∀ {w}, s.value.writer = some w → s.device.disk.occupant? place = some (.file w.inode)

/-- A journal that is in its place stays there, and only its file changes. -/
def Stays (place : Location) (s s' : Hosted Journal) : Prop :=
  Placed place s → Placed place s' ∧ s'.value.path = s.value.path ∧
    Disk.Touched (· = place) s.device.disk s'.device.disk

instance (place : Location) : IsPreorder (Hosted Journal) (Stays place) where
  refl _ h := ⟨h, rfl, .refl h.sound⟩
  trans _ _ _ hab hbc h := by
    obtain ⟨hb, hpath, htouched⟩ := hab h
    obtain ⟨hc, hpath', htouched'⟩ := hbc hb
    exact ⟨hc, hpath'.trans hpath, htouched.trans htouched'⟩

/-- A journal stays placed where only its own file was touched. -/
theorem Placed.stays (h : Placed place s)
    (htouched : Disk.Touched (· = place) s.device.disk s'.device.disk)
    (hpath : s'.value.path = s.value.path) (hwriter : ∀ {w}, s'.value.writer = some w →
      s'.device.disk.occupant? place = some (.file w.inode)) :
    Placed place s' ∧ s'.value.path = s.value.path ∧
      Disk.Touched (· = place) s.device.disk s'.device.disk :=
  ⟨⟨htouched.sound, hpath ▸ Disk.follow_kept htouched.folder h.follow, hwriter⟩, hpath, htouched⟩

/-- Staying in place is kept by writing. -/
theorem keptByWriting_stays (place : Location) : KeptByWriting (Stays place) where
  buffer rest := Tracks.modify fun s h => h.stays (.refl h.sound) rfl fun {w} hw => by
    obtain ⟨w', hw', rfl⟩ := Option.map_eq_some_iff.1 hw
    have hentry := h.writer hw'
    exact hentry
  write {s w} bytes hw h := by
    have hafter : ∀ s' : Hosted Journal, (Disk.Touched (· = place) s.device.disk s'.device.disk ∧
        s'.device.disk.occupant? place = some (.file w.inode)) ∧ s'.value = s.value →
        Placed place s' ∧ s'.value.path = s.value.path ∧
          Disk.Touched (· = place) s.device.disk s'.device.disk := by
      rintro s' ⟨⟨htouched, hentry⟩, hvalue⟩
      refine h.stays htouched (congrArg Journal.path hvalue) fun {w'} hw' => ?_
      rw [hvalue, hw] at hw'
      cases hw'
      exact hentry
    exact (Hosted.onDevice_yields (Device.write_leaves h.sound (h.writer hw) bytes)).stateAfter
      (fun _ => hafter) hafter
  sync inode s h := by
    have hafter : ∀ s' : Hosted Journal, s'.device.disk = s.device.disk ∧ s'.value = s.value →
        Placed place s' ∧ s'.value.path = s.value.path ∧
          Disk.Touched (· = place) s.device.disk s'.device.disk := by
      rintro ⟨device, value⟩ ⟨hdisk, rfl⟩
      replace hdisk : device.disk = s.device.disk := hdisk
      refine h.stays ?_ rfl fun hw => hdisk ▸ h.writer hw
      rw [hdisk]
      exact .refl h.sound
    exact (Hosted.onDevice_yields (Device.sync_leaves inode)).stateAfter (fun _ => hafter) hafter

/-- Marking a batch leaves the journal in place. -/
theorem mark_stays (seq : Nat) (status : JournalStatus) :
    Tracks (Stays place) (mark seq status) :=
  (keptByWriting_stays place).mark_tracks seq status

/-- Logging a batch leaves the journal in place. -/
theorem log_stays (batch : ChangeSet) : Tracks (Stays place) (log batch) := by
  intro s
  rw [stateAfter, log, get_bind]
  refine Tracks.bindAt (R := Stays place) (s := s)
    (fun h => h.stays (.refl h.sound) rfl h.writer) fun _ mid _ => ?_
  exact Tracks.bind ((keptByWriting_stays place).append_tracks _) (fun _ => Tracks.pure _) mid

/-- Asking for the pending entries leaves the journal in place. -/
theorem pendingEntries_stays : Tracks (Stays place) pendingEntries := by
  refine Tracks.bind Tracks.get fun s => ?_
  exact Tracks.of_unchanged (Hosted.stateAfter_query _)

/-- Asking whether entries are pending leaves the journal in place. -/
theorem hasPending_stays : Tracks (Stays place) hasPending :=
  Tracks.bind pendingEntries_stays fun _ => Tracks.pure _

/-- Closing leaves the journal in place. -/
theorem close_stays : Tracks (Stays place) close :=
  Tracks.bind (Tracks.tryCatch (keptByWriting_stays place).flush_tracks fun _ => Tracks.pure _)
    fun _ => Tracks.modify fun _ h => h.stays (.refl h.sound) rfl fun hw => nomatch hw

/-- A closed journal has no writer. -/
theorem writer_of_close {u : Unit} (h : close s = .ok u s') : s'.value.writer = none := by
  obtain ⟨_, mid, -, hmodify⟩ := exists_of_bind_ok h
  cases hmodify
  rfl

/-- A header goes into the file that is open. -/
theorem writeHeader_leaves (hd : device.disk.Sound)
    (he : device.disk.occupant? place = some (.file inode)) :
    Yields (fun _ d => Disk.Touched (· = place) device.disk d.disk ∧
        d.disk.occupant? place = some (.file inode))
      (fun d => Disk.Touched (· = place) device.disk d.disk) (writeHeader inode device) := by
  refine Yields.bind ((Device.write_leaves hd he magic).imp (fun _ _ h => h) fun _ h => h.1)
    fun _ d₁ h₁ => ?_
  refine Yields.bind ((Device.write_leaves h₁.1.sound h₁.2 [version]).imp (fun _ _ h => h)
    fun _ h => h₁.1.trans h.1) fun _ d₂ h₂ => ?_
  have htouched := h₁.1.trans h₂.1
  exact (Device.sync_leaves inode).imp (fun _ d h => ⟨h ▸ htouched, h ▸ h₂.2⟩) fun d h => h ▸ htouched

/-- After changes of a file, the file that opens is the one where the path led before. -/
theorem openEnd_leaves {start : Disk} {path : Path} (hfollow : start.follow [] path = .ok place)
    (ht : Disk.Touched (· = place) start device.disk) :
    Yields (fun i d => Disk.Touched (· = place) start d.disk ∧
        d.disk.occupant? place = some (.file i))
      (fun d => Disk.Touched (· = place) start d.disk) (Device.openEnd path device) := by
  refine (Device.openEnd_leaves ht.sound).imp (fun i d h => ?_) fun _ h => h ▸ ht
  obtain ⟨htouched, hentry⟩ := h.at_place (Disk.follow_kept ht.folder hfollow)
  exact ⟨ht.trans htouched, hentry⟩

/-- Clearing leaves the journal in place. -/
theorem clear_stays : Tracks (Stays place) clear := by
  intro s
  refine Tracks.bindAt (close_stays s) fun _ closed hclose => ?_
  have hnone := writer_of_close hclose
  refine Tracks.bindAt (Tracks.get closed) fun s' mid hget h => ?_
  cases hget
  -- the file is emptied and gets its header before it is opened again
  have hreopen : Yields (fun i d => Disk.Touched (· = place) closed.device.disk d.disk ∧
        d.disk.occupant? place = some (.file i))
      (fun d => Disk.Touched (· = place) closed.device.disk d.disk)
      ((do writeHeader (← Device.truncate closed.value.path); Device.openEnd closed.value.path)
        closed.device) := by
    refine Yields.bind ((Device.truncate_leaves h.sound).imp (fun _ _ hd => hd)
      fun _ hd => by rw [hd]; exact .refl h.sound) fun i d hd => ?_
    obtain ⟨htouched, hentry⟩ := hd.at_place h.follow
    refine Yields.bind ((writeHeader_leaves htouched.sound hentry).imp (fun _ _ hd' => hd')
      fun _ hd' => htouched.trans hd') fun _ d' hd' => ?_
    exact openEnd_leaves h.follow (htouched.trans hd'.1)
  refine Yields.always (p := fun t => Placed place t ∧ t.value.path = closed.value.path ∧
    Disk.Touched (· = place) closed.device.disk t.device.disk) ?_
  refine Yields.bind ((Hosted.onDevice_yields hreopen).imp (fun _ _ ht => ht) fun t ht => ?_)
    fun i t ht => ?_
  · obtain ⟨htouched, hvalue⟩ := ht
    refine h.stays htouched (congrArg Journal.path hvalue) fun hw => ?_
    rw [hvalue, hnone] at hw
    cases hw
  · obtain ⟨⟨htouched, hentry⟩, hvalue⟩ := ht
    have hpath : t.value.path = closed.value.path := congrArg Journal.path hvalue
    refine h.stays htouched hpath fun hw => ?_
    cases hw
    exact hentry

/-- A journal that opens is in its place. -/
theorem openAt_leaves {path : Path} (hd : device.disk.Sound)
    (hfollow : device.disk.follow [] path = .ok place) :
    Yields (fun journal d => Placed place ⟨d, journal⟩ ∧ journal.path = path ∧
        Disk.Touched (· = place) device.disk d.disk)
      (fun _ => True) (openAt path device) := by
  have hlast : ∀ (n : Nat) (d : Device), Disk.Touched (· = place) device.disk d.disk →
      Yields (fun journal d => Placed place ⟨d, journal⟩ ∧ journal.path = path ∧
          Disk.Touched (· = place) device.disk d.disk)
        (fun _ => True) ((do return ⟨path, n, some ⟨← Device.openEnd path, []⟩⟩ :
          Device.Action Journal) d) := by
    intro n d hd'
    refine Yields.bind ((openEnd_leaves hfollow hd').imp (fun _ _ h => h) fun _ _ => trivial)
      fun i d' h => ?_
    refine ⟨⟨h.1.sound, Disk.follow_kept h.1.folder hfollow, fun hw => ?_⟩, rfl, h.1⟩
    cases hw
    exact h.2
  rw [openAt, get_bind]
  split
  · refine Yields.bind ((Device.query_leaves _).imp (fun _ d hd' => hd'.2) fun _ _ => trivial)
      fun contents d hd' => ?_
    subst hd'
    cases body contents with
    | ok rest => exact hlast _ _ (.refl hd)
    | error e => trivial
  · refine Yields.bind ((Device.create_leaves hd).imp (fun _ _ hd' => hd') fun _ _ => trivial)
      fun i d hd' => ?_
    obtain ⟨htouched, hentry⟩ := hd'.at_place hfollow
    refine Yields.bind ((writeHeader_leaves htouched.sound hentry).imp (fun _ _ hd'' => hd'')
      fun _ _ => trivial) fun _ d' hd'' => ?_
    exact hlast _ _ (htouched.trans hd''.1)

end Journal

end ContentTree
