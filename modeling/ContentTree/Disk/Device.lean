import ContentTree.Disk.Tree

/-!
# Devices

A device carries out effects on a file tree one after the other. A plan may make any of them fail;
of a write that fails a first part may have been done. A device that fails for good from some effect
on leaves its tree as a crash would at that point. Reading never fails by plan.
-/

namespace ContentTree

/-- An effect on a file tree. -/
inductive Effect where
  /-- A folder is made. -/
  | makeFolder (path : Path)
  /-- A file is opened, and made if there is none. -/
  | touch (path : Path)
  /-- A file is opened and emptied, and made if there is none. -/
  | create (path : Path)
  /-- A file that is there is opened and emptied. -/
  | truncate (path : Path)
  /-- A file that is there is opened to write behind its end. -/
  | openEnd (path : Path)
  /-- Octets are put behind the contents with this number. -/
  | write (inode : Nat) (bytes : Bytes)
  /-- Contents are forced to the medium. -/
  | sync (inode : Nat)
  | rename (source target : Path)
  | remove (path : Path)
  deriving DecidableEq, Repr

/-- How an effect fails. -/
structure Fault where
  cause : IoCause
  /-- Number of octets that a write has put down before it failed. -/
  kept : Nat
  deriving DecidableEq, Repr

/-- Which effects fail, by their number and by what they are. -/
abbrev FaultPlan := Nat → Effect → Option Fault

/-- A file tree together with what happens to it. -/
structure Device where
  disk : Disk
  /-- Contents that somebody has locked. -/
  locks : List Nat
  /-- Number of effects so far. -/
  clock : Nat
  plan : FaultPlan
  /-- Seconds since the start of 1970, as programs are told. -/
  time : Nat

namespace Device

/-- A device that does all it is told. -/
def reliable (disk : Disk) (time : Nat) : Device :=
  ⟨disk, [], 0, fun _ _ => none, time⟩

instance : Inhabited Device := ⟨reliable ∅ 0⟩

/-- Something done on a device. What was done before a failure stays. -/
abbrev Action := EStateM Error Device

/-- A step on the file tree alone. -/
def onDisk {α : Type} (step : Disk → Except IoCause (α × Disk)) : Action α := do
  let device ← get
  match step device.disk with
  | .ok (a, disk) =>
    set { device with disk := disk }
    return a
  | .error cause => throw (.io cause)

/-- A question about the file tree. -/
def query {α : Type} (question : Disk → Except IoCause α) : Action α := do
  match question (← get).disk with
  | .ok a => return a
  | .error cause => throw (.io cause)

/-- Carries out an effect, unless the plan makes it fail. `torn` says what a failing effect leaves
behind. -/
def perform {α : Type} (effect : Effect) (torn : Fault → Disk → Disk)
    (step : Disk → Except IoCause (α × Disk)) : Action α := do
  let device ← get
  let fault? := device.plan device.clock effect
  set { device with clock := device.clock + 1 }
  match fault? with
  | none => onDisk step
  | some fault =>
    modify fun device => { device with disk := torn fault device.disk }
    throw (.io fault.cause)

/-- A failing effect that leaves nothing behind. -/
def untouched : Fault → Disk → Disk := fun _ disk => disk

/-- A step that answers nothing. -/
def silently (step : Disk → Except IoCause Disk) (disk : Disk) : Except IoCause (Unit × Disk) :=
  (step disk).map fun disk => ((), disk)

/-- Makes a folder unless there is one. -/
def makeMissing (p : Path) : Action Unit := do
  if (← get).disk.hasFolder p then return ()
  else perform (.makeFolder p) untouched (silently (·.makeFolder p))

/-- Makes a folder and every missing one on the way to it. -/
def makeFolders (p : Path) : Action Unit := do
  query fun _ => p.check
  (p.containing ++ [p]).forM makeMissing

/-- Opens a file, which is made if there is none. -/
def touch (p : Path) : Action Nat :=
  perform (.touch p) untouched (·.touch p)

/-- Opens a file, which is made if there is none, and empties it. -/
def create (p : Path) : Action Nat :=
  perform (.create p) untouched (·.create p)

/-- Opens a file that is there and empties it. -/
def truncate (p : Path) : Action Nat :=
  perform (.truncate p) untouched (·.truncate p)

/-- Opens a file that is there to write behind its end. -/
def openEnd (p : Path) : Action Nat :=
  perform (.openEnd p) untouched fun disk => (disk.file p).map fun inode => (inode, disk)

/-- Puts octets behind contents. A write that fails may have put down the first of them. -/
def write (inode : Nat) (bytes : Bytes) : Action Unit :=
  perform (.write inode bytes) (fun fault disk => disk.append inode (bytes.take fault.kept))
    fun disk => .ok ((), disk.append inode bytes)

/-- Forces contents to the medium. -/
def sync (inode : Nat) : Action Unit :=
  perform (.sync inode) untouched fun disk => .ok ((), disk)

/-- Gives a file another name. -/
def rename (source target : Path) : Action Unit :=
  perform (.rename source target) untouched (silently (·.rename source target))

/-- Takes a file's name away. -/
def remove (p : Path) : Action Unit :=
  perform (.remove p) untouched (silently (·.remove p))

/-- Takes a file's name away if there is one. -/
def removeIfThere (p : Path) : Action Unit :=
  tryCatch (remove p) fun e =>
    match e with
    | .io .notFound => return ()
    | e => throw e

/-- Takes the lock on a file, which is made if there is none. -/
def lock (p : Path) : Action Nat := do
  let inode ← touch p
  if inode ∈ (← get).locks then throw .locked
  else
    modify fun device => { device with locks := inode :: device.locks }
    return inode

/-- Gives a lock back. -/
def unlock (inode : Nat) (device : Device) : Device :=
  { device with locks := device.locks.erase inode }

end Device

/-- Something that lives on a device. -/
structure Hosted (τ : Type) where
  device : Device
  value : τ

namespace Hosted

variable {τ υ α : Type}

/-- A step on the device alone. -/
def onDevice (step : Device.Action α) : EStateM Error (Hosted τ) α := fun s =>
  match step s.device with
  | .ok a device => .ok a { s with device }
  | .error e device => .error e { s with device }

/-- A step on a part of the thing and its device. -/
def onPart (part : τ → υ) (replace : τ → υ → τ) (step : EStateM Error (Hosted υ) α) :
    EStateM Error (Hosted τ) α := fun s =>
  match step ⟨s.device, part s.value⟩ with
  | .ok a t => .ok a ⟨t.device, replace s.value t.value⟩
  | .error e t => .error e ⟨t.device, replace s.value t.value⟩

end Hosted

end ContentTree
