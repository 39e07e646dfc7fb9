import ContentTree.Persistence.Depot
import ContentTree.Proofs.Action

/-!
# What backends complain of

A backend knows nothing of the targets of reference records. So whatever fails in a memory or in a
folder fails for another reason than that a target is missing, and being asked for an item changes
nothing there. The same holds of every place of a depot, whichever failures are switched on
(`Depot.candid_backend`).
-/

namespace ContentTree

/-! ## Errors that an action can fail with -/

section Confined

variable {ε σ τ α β : Type}

/-- The state that a result leaves satisfies `I`, and a failure is one that `P` allows. -/
def Abides (I : σ → Prop) (P : ε → Prop) : EStateM.Result ε σ α → Prop
  | .ok _ s => I s
  | .error e s => P e ∧ I s

/-- Started where `I` holds, an action ends where it holds, and fails only with errors that `P` allows. -/
def Confined (I : σ → Prop) (P : ε → Prop) (x : EStateM ε σ α) : Prop :=
  ∀ s, I s → Abides I P (x s)

namespace Confined

variable {I : σ → Prop} {P Q : ε → Prop} {x : EStateM ε σ α}

/-- Answering without a step is confined. -/
theorem pure (a : α) : Confined I P (pure a : EStateM ε σ α) := fun _ hs => hs

/-- Raising an admitted error is confined. -/
theorem throw {e : ε} (h : P e) : Confined I P (throw e : EStateM ε σ α) := fun _ hs => ⟨h, hs⟩

/-- Reading the state is confined. -/
theorem get : Confined I P (MonadState.get : EStateM ε σ σ) := fun _ hs => hs

/-- Replacing the state by one that satisfies the invariant is confined. -/
theorem set {s : σ} (h : I s) : Confined I P (MonadStateOf.set s : EStateM ε σ PUnit) := fun _ _ => h

/-- A change of the state that keeps the invariant is confined. -/
theorem modify {f : σ → σ} (h : ∀ s, I s → I (f s)) : Confined I P (modify f : EStateM ε σ PUnit) := h

/-- A confined computation raises admitted errors only. -/
theorem error (h : Confined I P x) {s s' : σ} {e : ε} (hs : I s) (hx : x s = .error e s') : P e := by
  have hend := h s hs
  rw [hx] at hend
  exact hend.1

/-- A sequence of confined computations is confined. -/
theorem bind {f : α → EStateM ε σ β} (hx : Confined I P x) (hf : ∀ a, Confined I P (f a)) :
    Confined I P (x >>= f) := by
  intro s hs
  have hmid := hx s hs
  cases hr : x s with
  | ok a s' =>
    rw [hr] at hmid
    rw [bind_of_ok hr]
    exact hf a s' hmid
  | error e s' =>
    rw [hr] at hmid
    rw [bind_of_error hr]
    exact hmid

/-- What looks at the state first goes on with a state where `I` holds. -/
theorem withState {f : σ → EStateM ε σ α} (hf : ∀ s, I s → Abides I P (f s s)) :
    Confined I P (MonadState.get >>= f) := hf

/-- A handler that is confined for every error raised makes the whole confined. -/
theorem tryCatch {handler : ε → EStateM ε σ α} (hx : Confined I Q x)
    (hh : ∀ e, Q e → Confined I P (handler e)) : Confined I P (tryCatch x handler) := by
  intro s hs
  have hmid := hx s hs
  cases hr : x s with
  | ok a s' =>
    rw [hr] at hmid
    rw [tryCatch_of_ok hr]
    exact hmid
  | error e s' =>
    rw [hr] at hmid
    rw [tryCatch_of_error hr]
    exact hh e hmid.1 s' hmid.2

/-- Being confined passes along sequences. -/
theorem sequential : Sequential fun x : EStateM ε σ _ => Confined I P x :=
  ⟨pure, bind⟩

/-- A loop over confined steps is confined. -/
theorem forM {f : α → EStateM ε σ PUnit} {l : List α} (hf : ∀ a ∈ l, Confined I P (f a)) :
    Confined I P (l.forM f) :=
  sequential.forM hf

/-- Collecting the answers of confined steps is confined. -/
theorem mapM {f : α → EStateM ε σ β} (hf : ∀ a, Confined I P (f a)) (l : List α) :
    Confined I P (l.mapM f) :=
  sequential.mapM hf l

/-- A computation confined on a part is confined on the whole. -/
theorem onPart {J : τ → Prop} {P : Error → Prop} {x : EStateM Error σ α} {part : τ → σ}
    {replace : τ → σ → τ} (hx : Confined I P x) (hpart : ∀ t, J t → I (part t))
    (hreplace : ∀ t s, J t → I s → J (replace t s)) : Confined J P (Backend.onPart part replace x) := by
  intro t ht
  have hend := hx (part t) (hpart t ht)
  unfold Backend.onPart
  cases hr : x (part t) with
  | ok a s =>
    rw [hr] at hend
    exact hreplace t s ht hend
  | error e s =>
    rw [hr] at hend
    exact ⟨hend.1, hreplace t s ht hend.2⟩

end Confined

end Confined

/-- An error that does not say that the target of a reference record is missing. -/
def Error.NotDangling : Error → Prop
  | .danglingReference _ => False
  | _ => True

/-- A sequence fails where one of its parts does. -/
theorem Error.notDangling_of_bind {α β : Type} {x : Except Error α} {f : α → Except Error β} {e : Error}
    (h : (x >>= f) = .error e) (hx : ∀ e, x = .error e → e.NotDangling)
    (hf : ∀ a e, f a = .error e → e.NotDangling) : e.NotDangling := by
  cases hr : x with
  | error e' =>
    rw [hr] at h
    cases h
    exact hx e hr
  | ok a =>
    rw [hr] at h
    exact hf a e h

/-- An action that never says that the target of a reference record is missing. -/
abbrev Unconcerned {σ α : Type} (x : EStateM Error σ α) : Prop :=
  Confined (fun _ => True) Error.NotDangling x

/-- Backends that never say that the target of a reference record is missing, and that are not changed
by being asked for an item, as far as `view` can tell. -/
structure Backend.Candid {σ κ : Type} (b : Backend σ) (view : σ → κ) : Prop where
  load : ∀ id, Unconcerned (b.load id)
  store : ∀ set, Unconcerned (b.store set)
  contains : ∀ id s, view (stateAfter (b.contains id) s) = view s

/-! ## Memories -/

/-- The memory never reports a dangling reference, and asking it changes nothing. -/
theorem MemoryStore.candid_backend : MemoryStore.backend.Candid id where
  load i := by
    refine .bind .get fun m => ?_
    split
    · exact .bind (.set trivial) fun _ => .pure _
    · exact .throw trivial
  store set := by
    refine .bind .get fun m => ?_
    split
    · exact .bind (.set trivial) fun _ => .throw trivial
    · refine .bind .get fun m => ?_
      split
      · exact .throw trivial
      · exact .set trivial
  contains _ _ := rfl

/-! ## Devices and journals -/

namespace Device

/-- A step on the tree reports no dangling reference. -/
theorem unconcerned_onDisk {α : Type} (step : Disk → Except IoCause (α × Disk)) :
    Unconcerned (onDisk step) := by
  refine .bind .get fun device => ?_
  split
  · exact .bind (.set trivial) fun _ => .pure _
  · exact .throw trivial

/-- A question to the tree reports no dangling reference. -/
theorem unconcerned_query {α : Type} (question : Disk → Except IoCause α) :
    Unconcerned (query question) := by
  refine .bind .get fun device => ?_
  split
  · exact .pure _
  · exact .throw trivial

/-- An effect on the device reports no dangling reference. -/
theorem unconcerned_perform {α : Type} (effect : Effect) (torn : Fault → Disk → Disk)
    (step : Disk → Except IoCause (α × Disk)) : Unconcerned (perform effect torn step) := by
  refine .bind .get fun device => .bind (.set trivial) fun _ => ?_
  split
  · exact unconcerned_onDisk step
  · exact .bind (.modify fun _ _ => trivial) fun _ => .throw trivial

/-- Making folders reports no dangling reference. -/
theorem unconcerned_makeFolders (p : Path) : Unconcerned (makeFolders p) := by
  refine .bind (unconcerned_query _) fun _ => .forM fun q _ => .bind .get fun device => ?_
  split
  · exact .pure _
  · exact unconcerned_perform _ _ _

/-- Removing a file reports no dangling reference. -/
theorem unconcerned_removeIfThere (p : Path) : Unconcerned (removeIfThere p) := by
  refine .tryCatch (unconcerned_perform _ _ _) fun e he => ?_
  split
  · exact .pure _
  · exact .throw he

end Device

/-- A step on the device of a host reports no dangling reference if the step itself reports none. -/
theorem Hosted.unconcerned_onDevice {τ α : Type} {step : Device.Action α} (h : Unconcerned step) :
    Unconcerned (Hosted.onDevice (τ := τ) step) := by
  intro s _
  have hend := h s.device trivial
  unfold Hosted.onDevice
  cases hr : step s.device with
  | ok a device => exact trivial
  | error e device =>
    rw [hr] at hend
    exact ⟨hend.1, trivial⟩

namespace Journal

/-- Opening the writer reports no dangling reference. -/
theorem unconcerned_openWriter : Unconcerned openWriter := by
  refine .bind .get fun s => ?_
  split
  · exact .pure _
  · exact .throw trivial

/-- Filling the buffer reports no dangling reference. -/
theorem unconcerned_setBuffered (bytes : Bytes) : Unconcerned (setBuffered bytes) :=
  .modify fun _ _ => trivial

/-- Writing to the journal file reports no dangling reference. -/
theorem unconcerned_write (inode : Nat) (bytes : Bytes) :
    Unconcerned (Hosted.onDevice (Device.write inode bytes) : Action Unit) :=
  Hosted.unconcerned_onDevice (Device.unconcerned_perform _ _ _)

/-- Flushing reports no dangling reference. -/
theorem unconcerned_flush : Unconcerned flush := by
  refine .bind unconcerned_openWriter fun w => ?_
  split
  · exact .pure _
  · refine .bind .get fun s => .tryCatch (.bind (unconcerned_write _ _) fun _ =>
      unconcerned_setBuffered _) fun e he => ?_
    exact .bind .get fun s' => .bind (unconcerned_setBuffered _) fun _ => .throw he

/-- Putting a piece of an entry reports no dangling reference. -/
theorem unconcerned_put (piece : Bytes) : Unconcerned (put piece) := by
  have hlast : Unconcerned (openWriter >>= fun w => if capacity ≤ piece.length
      then Hosted.onDevice (Device.write w.inode piece)
      else setBuffered (w.buffered ++ piece)) := by
    refine .bind unconcerned_openWriter fun w => ?_
    split
    · exact unconcerned_write _ _
    · exact unconcerned_setBuffered _
  refine .bind unconcerned_openWriter fun w => ?_
  by_cases hfull : capacity < w.buffered.length + piece.length
  · rw [if_pos hfull]
    exact .bind unconcerned_flush fun _ => hlast
  · rw [if_neg hfull]
    exact hlast

/-- Appending an entry reports no dangling reference. -/
theorem unconcerned_append (e : JournalEntry) : Unconcerned (append e) := by
  refine .bind unconcerned_openWriter fun w => .bind (.forM fun piece _ => unconcerned_put piece) fun _ => ?_
  exact .bind unconcerned_flush fun _ => Hosted.unconcerned_onDevice (Device.unconcerned_perform _ _ _)

/-- Logging a batch reports no dangling reference. -/
theorem unconcerned_log (batch : ChangeSet) : Unconcerned (log batch) := by
  refine .bind .get fun s => .bind (.set trivial) fun _ => ?_
  exact .bind (unconcerned_append _) fun _ => .pure _

/-- Marking a batch reports no dangling reference. -/
theorem unconcerned_mark (seq : Nat) (status : JournalStatus) : Unconcerned (mark seq status) :=
  .bind .get fun _ => unconcerned_append _

/-- Asking for pending batches reports no dangling reference. -/
theorem unconcerned_hasPending : Unconcerned hasPending :=
  .bind (.bind .get fun _ => Hosted.unconcerned_onDevice (Device.unconcerned_query _)) fun _ => .pure _

/-- Clearing the journal reports no dangling reference. -/
theorem unconcerned_clear : Unconcerned clear := by
  have hclose : Unconcerned close :=
    .bind (.tryCatch unconcerned_flush fun _ _ => .pure _) fun _ => .modify fun _ _ => trivial
  have hheader : ∀ inode, Unconcerned (writeHeader inode) := fun inode =>
    .bind (Device.unconcerned_perform _ _ _) fun _ => .bind (Device.unconcerned_perform _ _ _) fun _ =>
      Device.unconcerned_perform _ _ _
  refine .bind hclose fun _ => .bind .get fun s => .bind (Hosted.unconcerned_onDevice ?_) fun inode =>
    .modify fun _ _ => trivial
  exact .bind (Device.unconcerned_perform _ _ _) fun _ => .bind (hheader _) fun _ =>
    Device.unconcerned_perform _ _ _

end Journal

/-! ## Folders -/

namespace Record

variable {α : Type}

/-- A file that is too short is not a dangling reference. -/
theorem notDangling_of_take {n : Nat} {bytes : Bytes} {e : Error} (h : take n bytes = .error e) :
    e.NotDangling := by
  unfold take at h
  split at h
  · cases h
  · cases h
    trivial

/-- A wrong check sum is not a dangling reference. -/
theorem notDangling_of_checkSum {payload bytes : Bytes} {e : Error}
    (h : checkSum payload bytes = .error e) : e.NotDangling := by
  refine Error.notDangling_of_bind h (fun _ => notDangling_of_take) fun parts e h => ?_
  dsimp only at h
  split at h
  · cases h
    trivial
  · cases h

/-- A broken record is not a dangling reference. -/
theorem notDangling_of_payload {magic contents : Bytes} {path : String} {e : Error}
    (h : payload magic path contents = .error e) : e.NotDangling := by
  refine Error.notDangling_of_bind h (fun _ => notDangling_of_take) fun kind e h => ?_
  dsimp only at h
  split at h
  · cases h
    trivial
  refine Error.notDangling_of_bind h (fun _ => notDangling_of_take) fun format e h => ?_
  split at h
  · cases h
    trivial
  refine Error.notDangling_of_bind h (fun _ => notDangling_of_take) fun stated e h => ?_
  split at h
  · cases h
    trivial
  refine Error.notDangling_of_bind h (fun _ => notDangling_of_take) fun parts e h => ?_
  refine Error.notDangling_of_bind h (fun _ => notDangling_of_checkSum) fun rest e h => ?_
  cases h

/-- A file that cannot be read is damaged or foreign. -/
theorem notDangling_of_read [Portable α] {magic contents : Bytes} {path : String} {e : Error}
    (h : (read magic path contents : Except Error α) = .error e) : e.NotDangling := by
  refine Error.notDangling_of_bind h (fun _ => notDangling_of_payload) fun payload e h => ?_
  unfold decode at h
  split at h
  · cases h
  · cases h
    trivial

end Record

namespace FileStore

/-- A step of the journal within a workspace reports no dangling reference if the step itself reports
none. -/
theorem unconcerned_onJournal {α : Type} {step : Journal.Action α} (h : Unconcerned step) :
    Unconcerned (onJournal step) := by
  intro s _
  have hend := h ⟨s.device, s.value.journal⟩ trivial
  unfold onJournal Hosted.onPart
  cases hr : step ⟨s.device, s.value.journal⟩ with
  | ok a t => exact trivial
  | error e t =>
    rw [hr] at hend
    exact ⟨hend.1, trivial⟩

/-- Writing through a temporary copy reports no dangling reference. -/
theorem unconcerned_writeThenRename (syncWrites : Bool) (temporary path : Path) (contents : Bytes) :
    Unconcerned (writeThenRename syncWrites temporary path contents) := by
  refine .bind (Device.unconcerned_perform _ _ _) fun inode =>
    .bind (Device.unconcerned_perform _ _ _) fun _ => ?_
  split
  · exact .bind (Device.unconcerned_perform _ _ _) fun _ => Device.unconcerned_perform _ _ _
  · exact Device.unconcerned_perform _ _ _

/-- A change of a record reports no dangling reference. -/
theorem unconcerned_makeChange (syncWrites : Bool) (c : Change) : Unconcerned (makeChange syncWrites c) := by
  cases c with
  | remove path => exact Device.unconcerned_removeIfThere path
  | write path contents =>
    refine .bind (Device.unconcerned_makeFolders _) fun _ =>
      .tryCatch (unconcerned_writeThenRename _ _ _ _) fun e he => ?_
    refine .bind (.tryCatch (Device.unconcerned_perform _ _ _) fun _ _ => .pure _) fun _ => ?_
    exact .throw he

/-- Making the changes of a batch reports no dangling reference. -/
theorem unconcerned_apply (batch : ChangeSet) : Unconcerned (apply batch) :=
  .bind .get fun _ => Hosted.unconcerned_onDevice (.forM fun c _ => unconcerned_makeChange _ c)

/-- Taking the images of a batch reports no dangling reference. -/
theorem unconcerned_capture (batch : ChangeSet) : Unconcerned (capture batch) := by
  refine .bind .get fun s => Hosted.unconcerned_onDevice (.mapM (fun path => ?_) _)
  refine .bind .get fun device => ?_
  split
  · exact .pure _
  · exact .pure _
  · exact .throw trivial

/-- Undoing a batch reports no dangling reference. -/
theorem unconcerned_undo (seq : Nat) (images : List (Path × Option Bytes)) :
    Unconcerned (undo seq images) := by
  refine .tryCatch (.bind ?_ fun _ => unconcerned_onJournal (Journal.unconcerned_mark _ _))
    fun _ _ => .pure _
  exact .bind .get fun s => Hosted.unconcerned_onDevice (.forM fun i _ => unconcerned_makeChange _ _)

/-- Storing a batch reports no dangling reference. -/
theorem unconcerned_store (batch : ChangeSet) : Unconcerned (store batch) := by
  unfold store
  split
  · exact .pure _
  refine .bind (unconcerned_capture _) fun images =>
    .bind (unconcerned_onJournal (Journal.unconcerned_log _)) fun seq => .bind ?_ fun _ =>
      .bind (unconcerned_onJournal Journal.unconcerned_hasPending) fun pending => ?_
  · refine .tryCatch (.bind (unconcerned_apply _) fun _ =>
      unconcerned_onJournal (Journal.unconcerned_mark _ _)) fun e he => ?_
    exact .bind (unconcerned_undo _ _) fun _ => .throw he
  · split
    · exact unconcerned_onJournal Journal.unconcerned_clear
    · exact .pure _

/-- Loading a record reports no dangling reference. -/
theorem unconcerned_loadRecord {α : Type} [Portable α] (magic : Bytes) (path : Path) :
    Unconcerned (loadRecord magic path : Action (Option α)) := by
  refine .bind .get fun s => ?_
  split
  · split
    · exact .pure _
    · next e hread => exact .throw (Record.notDangling_of_read hread)
  · exact .pure _
  · exact .throw trivial

/-- A workspace folder never reports a dangling reference, and asking it changes nothing. -/
theorem candid_backend : FileStore.backend.Candid id where
  load i := by
    refine .bind .get fun s => .bind (unconcerned_loadRecord _ _) fun found => ?_
    split
    · exact .pure _
    · exact .throw trivial
  store := unconcerned_store
  contains _ _ := rfl

end FileStore

/-! ## Switched failures and places -/

/-- A fault of the device is not a dangling reference. -/
theorem Faults.notDangling_of_checkDevice {f : Faults} {e : Error} (h : f.checkDevice = .error e) :
    e.NotDangling := by
  unfold checkDevice at h
  split at h
  · cases h
    trivial
  · cases h

namespace Backend

variable {σ : Type} {b : Backend σ}

/-- A guarded step reports no dangling reference if neither the guard nor the step does. -/
theorem unconcerned_guarded {α : Type} {check : Faults → Except Error Unit} {step : EStateM Error σ α}
    (hcheck : ∀ f e, check f = .error e → e.NotDangling) (hstep : Unconcerned step) :
    Unconcerned (guarded check step) := by
  refine .bind .get fun t => ?_
  split
  · exact hstep.onPart (fun _ _ => trivial) fun _ _ _ _ => trivial
  · next e he => exact .throw (hcheck _ e he)

/-- A candid backend stays candid when faults are injected. -/
theorem Candid.faulty {κ : Type} {view : σ → κ} (h : b.Candid view) :
    b.faulty.Candid fun t => (view t.1, t.2) where
  load i := by
    show Unconcerned (guarded (fun f => f.checkLoad i i.display) (b.load i))
    refine unconcerned_guarded (fun f e he => ?_) (h.load i)
    unfold Faults.checkLoad at he
    refine Error.notDangling_of_bind he (fun e he => ?_) fun _ e he => ?_
    · exact Faults.notDangling_of_checkDevice he
    · split at he
      · cases he
        trivial
      · cases he
  store set := by
    show Unconcerned (guarded
      (fun f => if f.store then .error (.persistence (.stated "disk full")) else .ok ()) (b.store set))
    refine unconcerned_guarded (fun f e he => ?_) (h.store set)
    split at he
    · cases he
      trivial
    · cases he
  contains i t := by
    show (fun t => (view t.1, t.2)) (stateAfter (guarded Faults.checkDevice (b.contains i)) t) = _
    unfold stateAfter guarded
    rw [get_bind]
    cases hc : t.2.checkDevice with
    | error e => rfl
    | ok u =>
      show (fun t => (view t.1, t.2)) (stateAfter (onPart Prod.fst (fun t s => (s, t.2)) (b.contains i)) t) = _
      rw [stateAfter_onPart]
      exact congrArg (·, t.2) (h.contains i t.1)

/-- A backend for a part is as candid as it is on that part alone. -/
theorem Candid.focus {τ : Type} {part : τ → σ} {replace : τ → σ → τ} (h : b.Candid id)
    (hsame : ∀ t, replace t (part t) = t) : (b.focus part replace).Candid id where
  load i := (h.load i).onPart (fun _ _ => trivial) fun _ _ _ _ => trivial
  store set := (h.store set).onPart (fun _ _ => trivial) fun _ _ _ _ => trivial
  contains i t := by
    show stateAfter (onPart part replace (b.contains i)) t = t
    have hpart : stateAfter (b.contains i) (part t) = part t := h.contains i (part t)
    rw [stateAfter_onPart, hpart, hsame]

end Backend

namespace Place

variable {α : Type} {inMemory : EStateM Error (MemoryStore × Faults) α}
  {inFolder : EStateM Error (Hosted FileStore × Faults) α}

/-- A step of a place in memory is one on a part of it. -/
theorem onMedium_memory (device : Device) (store : MemoryStore) (faults : Faults) :
    onMedium inMemory inFolder ⟨device, .memory store, faults⟩ =
      Backend.onPart (fun s : Hosted Place => (store, s.value.faults))
        (fun s t => { s with value := ⟨.memory t.1, t.2⟩ }) inMemory ⟨device, .memory store, faults⟩ := rfl

/-- A step of a place in a folder is one on the folder and the device. -/
theorem onMedium_folder (device : Device) (store : FileStore) (faults : Faults) :
    onMedium inMemory inFolder ⟨device, .folder store, faults⟩ =
      Backend.onPart
        (fun s : Hosted Place => ((⟨s.device, store⟩, s.value.faults) : Hosted FileStore × Faults))
        (fun _ t => ⟨t.1.device, .folder t.1.value, t.2⟩) inFolder ⟨device, .folder store, faults⟩ := rfl

/-- A step on either medium reports no dangling reference if neither step does. -/
theorem unconcerned_onMedium (hmemory : Unconcerned inMemory) (hfolder : Unconcerned inFolder) :
    Unconcerned (onMedium inMemory inFolder) := by
  rintro ⟨device, medium, faults⟩ h
  cases medium with
  | memory store =>
    rw [onMedium_memory]
    exact hmemory.onPart (fun _ _ => trivial) (fun _ _ _ _ => trivial) _ h
  | folder store =>
    rw [onMedium_folder]
    exact hfolder.onPart (fun _ _ => trivial) (fun _ _ _ _ => trivial) _ h

/-- A step that changes nothing on either medium changes nothing on the one at hand. -/
theorem stateAfter_onMedium (hmemory : ∀ t, stateAfter inMemory t = t)
    (hfolder : ∀ t, stateAfter inFolder t = t) (s : Hosted Place) :
    stateAfter (onMedium inMemory inFolder) s = s := by
  obtain ⟨device, medium, faults⟩ := s
  cases medium with
  | memory store =>
    rw [stateAfter, onMedium_memory]
    refine (stateAfter_onPart _ _ inMemory _).trans ?_
    rw [hmemory]
  | folder store =>
    rw [stateAfter, onMedium_folder]
    refine (stateAfter_onPart _ _ inFolder _).trans ?_
    rw [hfolder]

/-- A place in memory or in a folder never reports a dangling reference, and asking it changes nothing.
-/
theorem candid_backend : Place.backend.Candid id where
  load i := unconcerned_onMedium (MemoryStore.candid_backend.faulty.load i)
    (FileStore.candid_backend.faulty.load i)
  store set := unconcerned_onMedium (MemoryStore.candid_backend.faulty.store set)
    (FileStore.candid_backend.faulty.store set)
  contains i := stateAfter_onMedium (MemoryStore.candid_backend.faulty.contains i)
    (FileStore.candid_backend.faulty.contains i)

end Place

/-- Every place of a depot is a candid backend, in memory or in a folder, whatever is switched on. -/
theorem Depot.candid_backend (n : Nat) : (Depot.backend n).Candid id := by
  refine Place.candid_backend.focus fun d => ?_
  show ({ d.setPlace n (d.place n) with device := d.device } : Depot) = d
  have hplaces : d.places.set n (d.place n) = d.places := by
    by_cases hn : n < d.places.length
    · have hplace : d.place n = d.places[n] := by
        rw [place, List.getD_eq_getElem?_getD, List.getElem?_eq_getElem hn, Option.getD_some]
      rw [hplace, List.set_getElem_self]
    · exact List.set_eq_of_length_le (Nat.le_of_not_lt hn)
  rw [setPlace, hplaces]

end ContentTree
