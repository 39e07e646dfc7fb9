import ContentTree.Disk.Device
import ContentTree.Proofs.Action
import ContentTree.Proofs.Disk.Path
import Mathlib.Data.List.Induction

/-!
# Devices that fail

A regime says how the failures of a device go: a device that is up carries an effect out and stays up,
or the effect fails and the device goes down. What a program does is proved once for all regimes. In
the regime in which nothing fails no device is down, so a program that goes well on every device that
stays up goes well there.
-/

namespace ContentTree

/-- A device that loses its power: the effects before some number are carried out, and of the write
at that number a first part. -/
structure Crash where
  done : Nat
  kept : Nat

/-- Every effect from a number on fails, and leaves nothing behind except at that number. -/
def Crash.plan (c : Crash) : FaultPlan := fun n _ =>
  if n < c.done then none else some ⟨.other "power lost", if n = c.done then c.kept else 0⟩

/-- The device, losing its power at some point from now on. -/
def Device.crashing (device : Device) (c : Crash) : Device :=
  { device with clock := 0, plan := c.plan }

/-- How failures go: by the plan of a device and the number of effects so far. -/
structure Regime where
  locks : List Nat
  time : Nat
  up : FaultPlan → Nat → Prop
  down : FaultPlan → Nat → Prop
  fine : ∀ {plan n effect}, up plan n → plan n effect = none → up plan (n + 1)
  fails : ∀ {plan n effect fault}, up plan n → plan n effect = some fault → down plan (n + 1)
  stays : ∀ {plan n}, down plan n → down plan (n + 1)
  /-- A name that cannot be taken away is never said not to be there. -/
  honest : Prop
  denies : ∀ {plan n p fault}, up plan n → plan n (.remove p) = some fault →
    fault.cause = .notFound → ¬honest ∧ up plan (n + 1)

namespace Regime

/-- Any effect may fail at any time. -/
def free (locks : List Nat) (time : Nat) : Regime where
  locks := locks
  time := time
  up _ _ := True
  down _ _ := True
  fine _ _ := trivial
  fails _ _ := trivial
  stays _ := trivial
  honest := False
  denies _ _ _ := ⟨id, trivial⟩

/-- Nothing fails. -/
def reliable (locks : List Nat) (time : Nat) : Regime where
  locks := locks
  time := time
  up plan _ := plan = fun _ _ => none
  down _ _ := False
  fine h _ := h
  fails h hfault := by
    subst h
    cases hfault
  stays h := h
  honest := True
  denies h hfault := by
    subst h
    cases hfault

/-- A device that is up. -/
structure Up (r : Regime) (device : Device) : Prop where
  locks_eq : device.locks = r.locks
  time_eq : device.time = r.time
  isUp : r.up device.plan device.clock

/-- A device that is down. -/
structure Down (r : Regime) (device : Device) : Prop where
  locks_eq : device.locks = r.locks
  time_eq : device.time = r.time
  isDown : r.down device.plan device.clock

/-- The same regime with other locks held. -/
def holding (r : Regime) (locks : List Nat) : Regime :=
  { r with locks }

/-- Every device is up where anything may fail. -/
theorem Up.of_free {device : Device} : (free device.locks device.time).Up device :=
  ⟨rfl, rfl, trivial⟩

/-- A device that does all it is told is up. -/
theorem Up.of_reliable (disk : Disk) (time : Nat) : (reliable [] time).Up (Device.reliable disk time) :=
  ⟨rfl, rfl, rfl⟩

/-- The effects up to a number are carried out, and none behind them. -/
def crash (c : Crash) (locks : List Nat) (time : Nat) : Regime where
  locks := locks
  time := time
  up plan n := plan = c.plan ∧ n ≤ c.done
  down plan n := plan = c.plan ∧ c.done < n
  fine {plan n effect} h hnone := by
    obtain ⟨rfl, hle⟩ := h
    rw [Crash.plan] at hnone
    split at hnone
    · next hlt => exact ⟨rfl, hlt⟩
    · cases hnone
  fails {plan n effect fault} h hfault := by
    obtain ⟨rfl, hle⟩ := h
    rw [Crash.plan] at hfault
    split at hfault
    · cases hfault
    · exact ⟨rfl, by omega⟩
  stays h := ⟨h.1, Nat.lt_succ_of_lt h.2⟩
  honest := True
  denies {plan n p fault} h hfault hcause := by
    obtain ⟨rfl, hle⟩ := h
    rw [Crash.plan] at hfault
    split at hfault
    · cases hfault
    · cases hfault
      cases hcause

/-- A device that is going to crash is up before it does. -/
theorem Up.of_crash (c : Crash) (device : Device) :
    (crash c device.locks device.time).Up (device.crashing c) :=
  ⟨rfl, rfl, rfl, Nat.zero_le _⟩

/-- Where anything may fail, a device goes on after a failure. -/
theorem Down.up_of_free {locks : List Nat} {time : Nat} {device : Device}
    (h : (free locks time).Down device) : (free locks time).Up device :=
  ⟨h.locks_eq, h.time_eq, trivial⟩

/-- Some device may go down. -/
def Fallible (r : Regime) : Prop :=
  ∃ plan n, r.down plan n

/-- A device is down only where something may fail. -/
theorem Down.fallible {r : Regime} {device : Device} (h : r.Down device) : r.Fallible :=
  ⟨_, _, h.isDown⟩

/-- Nothing fails on a reliable device. -/
theorem not_fallible_of_reliable (locks : List Nat) (time : Nat) : ¬(reliable locks time).Fallible :=
  fun ⟨_, _, h⟩ => h

/-- A reliable device is never down. -/
theorem not_down_of_reliable {locks : List Nat} {time : Nat} (device : Device) :
    ¬(reliable locks time).Down device := fun h => h.isDown

end Regime

namespace Device

variable {r : Regime} {device : Device} {α : Type}

/-! ## Effects -/

/-- A step on the disk leaves the rest of the device. -/
theorem onDisk_eq (step : Disk → Except IoCause (α × Disk)) (device : Device) :
    onDisk step device =
      match step device.disk with
      | .ok (a, disk) => .ok a { device with disk }
      | .error cause => .error (.io cause) device := by
  rw [onDisk, get_bind]
  cases step device.disk <;> rfl

/-- What becomes of an effect. -/
theorem perform_eq (effect : Effect) (torn : Fault → Disk → Disk)
    (step : Disk → Except IoCause (α × Disk)) (device : Device) :
    perform effect torn step device =
      match device.plan device.clock effect with
      | none =>
        match step device.disk with
        | .ok (a, disk) => .ok a { device with disk, clock := device.clock + 1 }
        | .error cause => .error (.io cause) { device with clock := device.clock + 1 }
      | some fault =>
        .error (.io fault.cause)
          { device with disk := torn fault device.disk, clock := device.clock + 1 } := by
  rw [perform, get_bind, set_bind]
  cases device.plan device.clock effect with
  | none =>
    show onDisk step _ = _
    rw [onDisk_eq]
  | some fault => rfl

/-- An effect that can be carried out is, or the device goes down with what a failure leaves. -/
theorem perform_yields {effect : Effect} {torn : Fault → Disk → Disk}
    {step : Disk → Except IoCause (α × Disk)} (good : α → Disk → Prop) (bad : Disk → Prop)
    (hup : r.Up device) (hstep : ∃ a disk, step device.disk = .ok (a, disk) ∧ good a disk)
    (htorn : ∀ fault, bad (torn fault device.disk)) :
    Yields (fun a d => r.Up d ∧ good a d.disk) (fun d => r.Down d ∧ bad d.disk)
      (perform effect torn step device) := by
  obtain ⟨a, disk, hstep, hgood⟩ := hstep
  cases hplan : device.plan device.clock effect with
  | none =>
    rw [perform_eq, hplan, hstep]
    exact ⟨⟨hup.locks_eq, hup.time_eq, r.fine hup.isUp hplan⟩, hgood⟩
  | some fault =>
    rw [perform_eq, hplan]
    exact ⟨⟨hup.locks_eq, hup.time_eq, r.fails hup.isUp hplan⟩, htorn fault⟩

/-- On a device that is down an effect is carried out or not. -/
theorem perform_down {effect : Effect} {torn : Fault → Disk → Disk}
    {step : Disk → Except IoCause (α × Disk)} (after : Disk → Prop) (hdown : r.Down device)
    (hstay : after device.disk) (htorn : ∀ fault, after (torn fault device.disk))
    (hstep : ∀ a disk, step device.disk = .ok (a, disk) → after disk) :
    r.Down (stateAfter (perform effect torn step) device) ∧
      after (stateAfter (perform effect torn step) device).disk := by
  have hlater : r.down device.plan (device.clock + 1) := r.stays hdown.isDown
  rw [stateAfter, perform_eq]
  cases device.plan device.clock effect with
  | none =>
    cases hs : step device.disk with
    | ok p => exact ⟨⟨hdown.locks_eq, hdown.time_eq, hlater⟩, hstep p.1 p.2 hs⟩
    | error cause => exact ⟨⟨hdown.locks_eq, hdown.time_eq, hlater⟩, hstay⟩
  | some fault => exact ⟨⟨hdown.locks_eq, hdown.time_eq, hlater⟩, htorn fault⟩

/-- A question leaves the device alone. -/
theorem query_eq (question : Disk → Except IoCause α) (device : Device) :
    query question device =
      match question device.disk with
      | .ok a => .ok a device
      | .error cause => .error (.io cause) device := by
  rw [query, get_bind]
  cases question device.disk <;> rfl

/-! ## Files -/

section Files

variable {p q : Path} {place target : Location} {inode : Nat}

/-- Making a file leaves an empty one in its place, or nothing changes. -/
theorem create_yields (hup : r.Up device) (h : device.disk.Leads p place) (hd : device.disk.Sound)
    (he : device.disk.occupant? place ≠ some .folder) :
    Yields (fun inode d => r.Up d ∧ Disk.Touched (· = place) device.disk d.disk ∧
        d.disk.occupant? place = some (.file inode) ∧ d.disk.contentsOf inode = [])
      (fun d => r.Down d ∧ d.disk = device.disk) (create p device) := by
  obtain ⟨inode, disk, hcreate, hafter⟩ := h.create hd he
  exact perform_yields (fun i d => Disk.Touched (· = place) device.disk d ∧
    d.occupant? place = some (.file i) ∧ d.contentsOf i = []) (· = device.disk) hup
    ⟨inode, disk, hcreate, hafter⟩ fun _ => rfl

/-- Emptying a file touches its contents only, or nothing changes. -/
theorem truncate_yields (hup : r.Up device) (h : device.disk.Leads p place)
    (he : device.disk.occupant? place = some (.file inode)) :
    Yields (fun i d => r.Up d ∧ i = inode ∧ d.disk = device.disk.setContents inode [])
      (fun d => r.Down d ∧ d.disk = device.disk) (truncate p device) :=
  perform_yields (fun i d => i = inode ∧ d = device.disk.setContents inode [])
    (· = device.disk) hup ⟨inode, _, h.truncate he, rfl, rfl⟩ fun _ => rfl

/-- Opening a file at its end changes nothing. -/
theorem openEnd_yields (hup : r.Up device) (h : device.disk.Leads p place)
    (he : device.disk.occupant? place = some (.file inode)) :
    Yields (fun i d => r.Up d ∧ i = inode ∧ d.disk = device.disk)
      (fun d => r.Down d ∧ d.disk = device.disk) (openEnd p device) := by
  refine perform_yields (fun i d => i = inode ∧ d = device.disk) (· = device.disk) hup
    ⟨inode, device.disk, ?_, rfl, rfl⟩ fun _ => rfl
  rw [h.file_of_file he]
  rfl

/-- Writing appends all octets, or a first part of them if it fails. -/
theorem write_yields (hup : r.Up device) (inode : Nat) (bytes : Bytes) :
    Yields (fun _ d => r.Up d ∧ d.disk = device.disk.append inode bytes)
      (fun d => r.Down d ∧ ∃ n, d.disk = device.disk.append inode (bytes.take n))
      (write inode bytes device) :=
  perform_yields (fun _ d => d = device.disk.append inode bytes)
    (fun d => ∃ n, d = device.disk.append inode (bytes.take n)) hup ⟨(), _, rfl, rfl⟩
    fun fault => ⟨fault.kept, rfl⟩

/-- Forcing a file to the medium changes no contents. -/
theorem sync_yields (hup : r.Up device) (inode : Nat) :
    Yields (fun _ d => r.Up d ∧ d.disk = device.disk) (fun d => r.Down d ∧ d.disk = device.disk)
      (sync inode device) :=
  perform_yields (fun _ d => d = device.disk) (· = device.disk) hup ⟨(), _, rfl, rfl⟩
    fun _ => rfl

/-- Renaming moves a file over the target, or nothing changes. -/
theorem rename_yields (hup : r.Up device) (h : device.disk.Leads p place)
    (hq : device.disk.Leads q target) (hd : device.disk.Sound) (hne : place ≠ target)
    (he : device.disk.occupant? place = some (.file inode))
    (ht : device.disk.occupant? target ≠ some .folder) :
    Yields (fun _ d => r.Up d ∧ Disk.Touched (fun l => l = place ∨ l = target) device.disk d.disk ∧
        d.disk.occupant? place = none ∧ d.disk.occupant? target = some (.file inode) ∧
        d.disk.contentsOf inode = device.disk.contentsOf inode)
      (fun d => r.Down d ∧ d.disk = device.disk) (rename p q device) := by
  obtain ⟨disk, hrename, hafter⟩ := h.rename hq hd hne he ht
  refine perform_yields (fun _ d => Disk.Touched (fun l => l = place ∨ l = target)
    device.disk d ∧ d.occupant? place = none ∧ d.occupant? target = some (.file inode) ∧
    d.contentsOf inode = device.disk.contentsOf inode) (· = device.disk) hup
    ⟨(), disk, ?_, hafter⟩ fun _ => rfl
  rw [silently, hrename]
  rfl

/-- A lock that nobody holds is taken. -/
theorem lock_yields (good : Nat → Disk → Prop) (hup : r.Up device)
    (htouch : ∃ inode disk, device.disk.touch p = .ok (inode, disk) ∧ good inode disk)
    (hfree : ∀ inode disk, good inode disk → inode ∉ r.locks) :
    Yields (fun inode d => (r.holding (inode :: r.locks)).Up d ∧ good inode d.disk)
      (fun d => r.Down d ∧ d.disk = device.disk) (lock p device) := by
  have hopen : Yields (fun inode d => r.Up d ∧ good inode d.disk)
      (fun d => r.Down d ∧ d.disk = device.disk) (touch p device) :=
    perform_yields good (· = device.disk) hup htouch fun _ => rfl
  refine Yields.bind hopen fun inode d hd => ?_
  obtain ⟨hup', hgood⟩ := hd
  rw [get_bind, if_neg (hup'.locks_eq ▸ hfree inode d.disk hgood)]
  exact ⟨⟨congrArg (inode :: ·) hup'.locks_eq, hup'.time_eq, hup'.isUp⟩, hgood⟩

/-- Taking a name away on a device that is down changes at most what stands there. -/
theorem remove_down (hdown : r.Down device) (h : device.disk.Leads p place) (hd : device.disk.Sound)
    (he : device.disk.occupant? place ≠ some .folder) :
    r.Down (stateAfter (remove p) device) ∧
      Disk.Touched (· = place) device.disk (stateAfter (remove p) device).disk ∧
      (stateAfter (remove p) device).disk.occupant? place ≠ some .folder := by
  refine perform_down (fun d => Disk.Touched (· = place) device.disk d ∧
    d.occupant? place ≠ some .folder) hdown ⟨.refl hd, he⟩
    (fun _ => ⟨.refl hd, he⟩) fun _ disk hs => ?_
  cases hentry : device.disk.occupant? place with
  | none =>
    rw [silently, h.remove_of_none hentry] at hs
    cases hs
  | some e =>
    cases e with
    | folder => exact absurd hentry he
    | file inode =>
      obtain ⟨hremove, htouched⟩ := h.remove_of_file hd hentry
      rw [silently, hremove] at hs
      cases hs
      refine ⟨htouched, ?_⟩
      rw [Disk.occupant?_drop h.ne_nil, if_pos rfl]
      exact fun h => by cases h

/-- A name is gone afterwards whether it was there or not, unless a failure is taken for its absence. -/
theorem removeIfThere_yields (gone : Disk → Prop) (hup : r.Up device)
    (hremove : (∃ d, device.disk.remove p = .ok d ∧ gone d) ∨
      device.disk.remove p = .error .notFound ∧ gone device.disk) :
    Yields (fun _ d => r.Up d ∧ (gone d.disk ∨ ¬r.honest ∧ d.disk = device.disk))
      (fun d => r.Down d ∧ d.disk = device.disk) (removeIfThere p device) := by
  cases hplan : device.plan device.clock (.remove p) with
  | some fault =>
    have hfail : remove p device =
        .error (.io fault.cause) { device with clock := device.clock + 1 } := by
      rw [remove, perform_eq, hplan]
      rfl
    rw [removeIfThere, tryCatch_of_error hfail]
    -- a device that is not honest may deny that there was a file
    by_cases hcause : fault.cause = .notFound
    · obtain ⟨hlie, hlater⟩ := r.denies hup.isUp hplan hcause
      rw [hcause]
      exact ⟨⟨hup.locks_eq, hup.time_eq, hlater⟩, Or.inr ⟨hlie, rfl⟩⟩
    · have hdown : r.Down { device with clock := device.clock + 1 } :=
        ⟨hup.locks_eq, hup.time_eq, r.fails hup.isUp hplan⟩
      cases hc : fault.cause with
      | notFound => exact absurd hc hcause
      | unexpectedEnd => exact ⟨hdown, rfl⟩
      | other message => exact ⟨hdown, rfl⟩
  | none =>
    have hnext : r.up device.plan (device.clock + 1) := r.fine hup.isUp hplan
    rcases hremove with ⟨d, hremove, hgone⟩ | ⟨hremove, hgone⟩
    · have hdone : remove p device =
          .ok () { device with disk := d, clock := device.clock + 1 } := by
        rw [remove, perform_eq, hplan, silently, hremove]
        rfl
      rw [removeIfThere, tryCatch_of_ok hdone]
      exact ⟨⟨hup.locks_eq, hup.time_eq, hnext⟩, Or.inl hgone⟩
    · have hfail : remove p device =
          .error (.io .notFound) { device with clock := device.clock + 1 } := by
        rw [remove, perform_eq, hplan, silently, hremove]
        rfl
      rw [removeIfThere, tryCatch_of_error hfail]
      exact ⟨⟨hup.locks_eq, hup.time_eq, hnext⟩, Or.inl hgone⟩

end Files

/-! ## Folders -/

/-- A folder that is there or is made. -/
theorem makeMissing_yields {p : Path} {place : Location} (hup : r.Up device)
    (h : device.disk.Leads p place) (hd : device.disk.Sound)
    (hfile : ∀ i, device.disk.occupant? place ≠ some (.file i)) :
    Yields (fun _ d => r.Up d ∧ Disk.Touched (· = place) device.disk d.disk ∧
        d.disk.occupant? place = some .folder)
      (fun d => r.Down d ∧ d.disk = device.disk) (makeMissing p device) := by
  rw [makeMissing, get_bind]
  by_cases hthere : device.disk.occupant? place = some .folder
  · rw [if_pos (h.hasFolder.2 hthere)]
    exact ⟨hup, .refl hd, hthere⟩
  · have hnone : device.disk.occupant? place = none := by
      cases he : device.disk.occupant? place with
      | none => rfl
      | some e =>
        cases e with
        | folder => exact absurd he hthere
        | file i => exact absurd he (hfile i)
    obtain ⟨hmake, htouched⟩ := h.makeFolder hd hnone
    rw [if_neg fun hh => hthere (h.hasFolder.1 hh)]
    refine perform_yields (fun _ d => Disk.Touched (· = place) device.disk d ∧
      d.occupant? place = some .folder) (· = device.disk) hup
      ⟨(), _, ?_, htouched, ?_⟩ fun _ => rfl
    · rw [silently, hmake]
      rfl
    · rw [Disk.occupant?_put h.ne_nil, if_pos rfl]

/-- A folder that is there is not made again. -/
theorem makeMissing_of_hasFolder {p : Path} (h : device.disk.hasFolder p = true) :
    makeMissing p device = .ok ⟨⟩ device := by
  rw [makeMissing, get_bind, if_pos h]
  rfl

/-- The folders on the way to a name in a folder are there. -/
theorem forM_makeMissing_containing {above : Path} {name : String} {l : Location}
    (h : Disk.Anchored above l device.disk) (hd : device.disk.Sound) (hname : Path.Plain name)
    (hcheck : (above ++ [name]).check = .ok ()) :
    (above ++ [name]).containing.forM makeMissing device = .ok ⟨⟩ device := by
  refine forM_of_unchanged fun q hq => makeMissing_of_hasFolder ?_
  obtain ⟨hpart, hlt⟩ := Path.mem_containing hq
  rw [Path.bare_append hname] at hpart hlt
  rw [List.length_append, List.length_singleton] at hlt
  have habove : q <+: above :=
    List.prefix_of_prefix_length_le hpart (List.prefix_append _ _) (by omega)
  exact Disk.hasFolder_of_prefix hd (Path.check_of_prefix hcheck (List.prefix_append _ _)) h.follow
    h.isFolder habove

/-- Of the folders on the way to a name in a folder none is missing, so only the last one is made. -/
theorem makeFolders_yields {above : Path} {name : String} {l : Location} (hup : r.Up device)
    (hd : device.disk.Sound) (h : Disk.Anchored above l device.disk) (hname : Path.Plain name)
    (hcheck : (above ++ [name]).check = .ok ())
    (hfile : ∀ i, device.disk.occupant? (name :: l) ≠ some (.file i)) :
    Yields (fun _ d => r.Up d ∧ Disk.Touched (· = name :: l) device.disk d.disk ∧
        d.disk.occupant? (name :: l) = some .folder)
      (fun d => r.Down d ∧ d.disk = device.disk) (makeFolders (above ++ [name]) device) := by
  have hquery : query (fun _ => (above ++ [name]).check) device = .ok () device := by
    rw [query_eq, hcheck]
  rw [makeFolders, bind_of_ok hquery, forM_concat,
    bind_of_ok (forM_makeMissing_containing h hd hname hcheck)]
  exact makeMissing_yields hup (h.leads_name hname hcheck) hd hfile

/-- Of the folders on the way to a place those that are missing are made, if no file is in the way. -/
theorem makeFoldersTo_yields {above p : Path} {l : Location} {ns : Path} (hup : r.Up device)
    (hd : device.disk.Sound) (h : Disk.Anchored above l device.disk) (hne : ns ≠ [])
    (hplain : ∀ n ∈ ns, Path.Plain n) (hp : p = above ++ ns) (hcheck : p.check = .ok ())
    (hfile : ∀ q, q <:+ ns.reverse ++ l → ∀ i, device.disk.occupant? q ≠ some (.file i)) :
    Yields (fun _ d => r.Up d ∧ Disk.Touched (· <:+ ns.reverse ++ l) device.disk d.disk ∧
        d.disk.occupant? (ns.reverse ++ l) = some .folder)
      (fun d => r.Down d) (makeFolders p device) := by
  have hquery : query (fun _ => p.check) device = .ok () device := by
    rw [query_eq, hcheck]
  rw [makeFolders, bind_of_ok hquery]
  clear hquery
  -- the induction adds the last name: the folders above are made before it
  induction ns using List.reverseRecOn generalizing p with
  | nil => exact absurd rfl hne
  | append_singleton ns name ih =>
    subst hp
    have hname : Path.Plain name := hplain name (List.mem_append_right _ (List.mem_singleton.2 rfl))
    rw [List.reverse_append, List.reverse_singleton, List.singleton_append, List.cons_append]
      at hfile ⊢
    have habove : Yields (fun _ d => r.Up d ∧ Disk.Touched (· <:+ ns.reverse ++ l) device.disk d.disk ∧
          d.disk.occupant? (ns.reverse ++ l) = some .folder)
        (fun d => r.Down d) ((above ++ (ns ++ [name])).containing.forM makeMissing device) := by
      rcases List.eq_nil_or_concat ns with rfl | ⟨ns', m, hns⟩
      · rw [List.nil_append, forM_makeMissing_containing h hd hname hcheck]
        exact ⟨hup, .refl hd, h.isFolder⟩
      · rw [List.concat_eq_append] at hns
        subst hns
        have hm : Path.Plain m :=
          hplain m (List.mem_append_left _ (List.mem_append_right _ (List.mem_singleton.2 rfl)))
        have hcontaining : (above ++ (ns' ++ [m] ++ [name])).containing =
            (above ++ (ns' ++ [m])).containing ++ [above ++ (ns' ++ [m])] := by
          rw [← List.append_assoc, ← List.append_assoc above ns' [m]]
          exact Path.containing_append hm hname
        rw [hcontaining]
        refine ih (by simp) (fun n hn => hplain n (List.mem_append_left _ hn)) rfl
          (Path.check_of_prefix hcheck ?_) fun q hq => hfile q (hq.trans (List.suffix_cons _ _))
        exact ⟨[name], by rw [List.append_assoc]⟩
    rw [forM_concat]
    refine Yields.bind habove fun _ d hd' => ?_
    obtain ⟨hup', ht, hfolder⟩ := hd'
    -- the last folder is not above itself, so what stands there is as before
    have hnot : ¬(name :: (ns.reverse ++ l)) <:+ ns.reverse ++ l := fun hs => by
      have hle := hs.length_le
      rw [List.length_cons] at hle
      omega
    have hentry : ∀ i, d.disk.occupant? (name :: (ns.reverse ++ l)) ≠ some (.file i) := by
      rw [ht.entry hnot]
      exact hfile _ (List.suffix_refl _)
    refine (makeMissing_yields hup' ((h.kept ht.folder).leads ns hplain hcheck hfolder) ht.sound
      hentry).imp (fun _ d' hd' => ?_) fun d' hd' => hd'.1
    exact ⟨hd'.1, (ht.mono fun q hq => hq.trans (List.suffix_cons _ _)).trans
      (hd'.2.1.mono fun q hq => hq ▸ List.suffix_refl _), hd'.2.2⟩

/-! ## Without power -/

/-- A device that has lost its power keeps its files. -/
def Frozen (c : Crash) (d d' : Device) : Prop :=
  d.plan = c.plan → c.done < d.clock →
    (d'.plan = c.plan ∧ c.done < d'.clock) ∧ Disk.Touches (fun _ => False) d.disk d'.disk

instance (c : Crash) : IsPreorder Device (Frozen c) where
  refl d hplan hlt := ⟨⟨hplan, hlt⟩, refl_of (Disk.Touches _) d.disk⟩
  trans a b d hab hbd hplan hlt := by
    obtain ⟨⟨hplan', hlt'⟩, hdisk⟩ := hab hplan hlt
    obtain ⟨hlater, hdisk'⟩ := hbd hplan' hlt'
    exact ⟨hlater, trans_of (Disk.Touches _) hdisk hdisk'⟩

/-- An effect does nothing without power, if a failure leaves the disk as it is. -/
theorem perform_frozen (c : Crash) {effect : Effect} {torn : Fault → Disk → Disk}
    {step : Disk → Except IoCause (α × Disk)}
    (htorn : ∀ cause disk, Disk.Touches (fun _ => False) disk (torn ⟨cause, 0⟩ disk)) :
    Tracks (Frozen c) (perform effect torn step) := by
  intro device hplan hlt
  have hfault : device.plan device.clock effect = some ⟨.other "power lost", 0⟩ := by
    rw [hplan, Crash.plan, if_neg (by omega), if_neg (by omega)]
  rw [stateAfter, perform_eq, hfault]
  exact ⟨⟨hplan, Nat.lt_succ_of_lt hlt⟩, htorn _ device.disk⟩

/-- An effect that is carried out as a whole does nothing without power. -/
theorem perform_untouched_frozen (c : Crash) {effect : Effect}
    {step : Disk → Except IoCause (α × Disk)} :
    Tracks (Frozen c) (perform effect untouched step) :=
  perform_frozen c fun _ disk => refl_of (Disk.Touches _) disk

/-- Nothing is written without power. -/
theorem write_frozen (c : Crash) (inode : Nat) (bytes : Bytes) :
    Tracks (Frozen c) (write inode bytes) :=
  perform_frozen c fun _ disk => Disk.touches_append_nil _ disk inode

/-- A question changes nothing. -/
theorem query_frozen (c : Crash) (question : Disk → Except IoCause α) :
    Tracks (Frozen c) (query question) :=
  Tracks.of_unchanged fun device => by
    rw [stateAfter, query_eq]
    cases question device.disk <;> rfl

/-- No folders are made without power. -/
theorem makeFolders_frozen (c : Crash) (p : Path) : Tracks (Frozen c) (makeFolders p) := by
  refine Tracks.bind (query_frozen c _) fun _ => Tracks.forM fun q _ => ?_
  refine Tracks.bind Tracks.get fun device => ?_
  split
  · exact Tracks.pure _
  · exact perform_untouched_frozen c

/-- Nothing is taken away without power. -/
theorem removeIfThere_frozen (c : Crash) (p : Path) : Tracks (Frozen c) (removeIfThere p) := by
  refine Tracks.tryCatch (perform_untouched_frozen c) fun e => ?_
  split
  · exact Tracks.pure _
  · exact Tracks.throw _

end Device

namespace Hosted

variable {τ υ α : Type}

/-- A step on the device answers what it answers by itself. -/
theorem onDevice_of_ok {step : Device.Action α} {s : Hosted τ} {a : α} {device : Device}
    (h : step s.device = .ok a device) : onDevice step s = .ok a { s with device } := by
  rw [onDevice, h]

/-- What a step on the device yields, beside a value that stays. -/
theorem onDevice_yields {good : α → Device → Prop} {bad : Device → Prop} {step : Device.Action α}
    {s : Hosted τ} (h : Yields good bad (step s.device)) :
    Yields (fun a s' => good a s'.device ∧ s'.value = s.value)
      (fun s' => bad s'.device ∧ s'.value = s.value) (onDevice step s) := by
  unfold onDevice
  cases hs : step s.device with
  | ok a device =>
    rw [hs] at h
    exact ⟨h, rfl⟩
  | error e device =>
    rw [hs] at h
    exact ⟨h, rfl⟩

/-- What a step on a part yields, inside the rest. -/
theorem onPart_yields {part : τ → υ} {replace : τ → υ → τ} {good : α → Hosted υ → Prop}
    {bad : Hosted υ → Prop} {step : EStateM Error (Hosted υ) α} {s : Hosted τ}
    (h : Yields good bad (step ⟨s.device, part s.value⟩)) :
    Yields (fun a s' => ∃ t, good a t ∧ s' = ⟨t.device, replace s.value t.value⟩)
      (fun s' => ∃ t, bad t ∧ s' = ⟨t.device, replace s.value t.value⟩)
      (onPart part replace step s) := by
  unfold onPart
  cases hs : step ⟨s.device, part s.value⟩ with
  | ok a t =>
    rw [hs] at h
    exact ⟨t, h, rfl⟩
  | error e t =>
    rw [hs] at h
    exact ⟨t, h, rfl⟩

/-- What a step on the device tracks, of the devices of two states. -/
theorem onDevice_tracks {R : Device → Device → Prop} {step : Device.Action α} (h : Tracks R step) :
    Tracks (fun s s' : Hosted τ => R s.device s'.device) (onDevice step) := by
  intro s
  have hstep := h s.device
  unfold stateAfter at hstep ⊢
  unfold onDevice
  cases hs : step s.device <;> rw [hs] at hstep <;> exact hstep

/-- A step on a part does to the device what it does by itself. -/
theorem onPart_tracks {R : Device → Device → Prop} {part : τ → υ} {replace : τ → υ → τ}
    {step : EStateM Error (Hosted υ) α}
    (h : Tracks (fun s s' : Hosted υ => R s.device s'.device) step) :
    Tracks (fun s s' : Hosted τ => R s.device s'.device) (onPart part replace step) := by
  intro s
  have hstep := h ⟨s.device, part s.value⟩
  unfold stateAfter at hstep ⊢
  unfold onPart
  cases hs : step ⟨s.device, part s.value⟩ <;> rw [hs] at hstep <;> exact hstep

instance (R : Device → Device → Prop) [IsPreorder Device R] :
    IsPreorder (Hosted τ) (fun s s' => R s.device s'.device) where
  refl s := refl_of R s.device
  trans _ _ _ := trans_of R

end Hosted

end ContentTree
