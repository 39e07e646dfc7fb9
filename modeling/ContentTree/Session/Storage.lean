import ContentTree.Disk.Edit
import ContentTree.Session.State

/-!
# The storage of a session

A session has one place of storage in hand. A place is closed as soon as neither the session nor its
workspace uses it, so that the lock of a folder is given back.
-/

namespace ContentTree.Session

variable {α : Type}

/-- A step on the depot. -/
def onDepot (step : Depot.Action α) : Action α :=
  Backend.onPart (fun s => s.shared.storage)
    (fun s storage => { s with shared := { s.shared with storage } }) step

/-- A step on the device. -/
def onDevice (step : Device.Action α) : Action α :=
  onDepot (Depot.onDevice step)

/-- Whether a place is in use. -/
def uses (s : Session) (n : Nat) : Bool :=
  s.place = some n || (s.workspace.isSome && s.workspacePlace = n)

/-- Closes a place that was given up, unless it is still in use. -/
def retire (n : Nat) (s : Session) : Session :=
  if s.uses n then s
  else { s with shared := { s.shared with storage := s.shared.storage.close n } }

/-- Takes another place in hand, or none. -/
def takePlace (n : Option Nat) (s : Session) : Session :=
  match s.place with
  | some old => retire old { s with place := n }
  | none => { s with place := n }

/-- Takes a fresh memory in hand. -/
def takeMemory : Action Unit := do
  let n ← onDepot (modifyGet (·.add (.memory ∅)))
  modify (takePlace (some n))

/-- Opens a folder and takes it in hand; what was in hand stays if that fails. -/
def takeFolder (opening : Device.Action FileStore) : Action Unit := do
  let n ← onDepot (Depot.addFolder opening)
  modify (takePlace (some n))

/-- The number of the place in hand. -/
def currentPlace : Action Nat := do
  match (← get).place with
  | some n => return n
  | none => missing "a backend"

/-- A step on the memory in hand. -/
def onMemory (step : EStateM Error MemoryStore α) : Action α := do
  onDepot (Depot.onMemory (← currentPlace) step)

/-- A step of the backend in hand. -/
def onBackend (step : Backend Depot → EStateM Error Depot α) : Action α := do
  onDepot (step (Depot.backend (← currentPlace)))

/-- A fresh state from the backend in hand. -/
def createNew (id : ItemId) : Action ItemState := do
  return (Depot.backend (← currentPlace)).createNew (← get).shared.storage id

/-- Switches failures of the backend in hand on and off. -/
def setFaults (faults : Faults) : Action Unit := do
  let n ← currentPlace
  onDepot (modify (·.setFaults n faults))

/-! ## Files -/

/-- Changes files by hand. -/
def editFiles (step : Disk → Except IoCause Disk) : Action Unit :=
  onDevice (Device.onDisk (Device.silently step))

/-! ## The journal -/

/-- A step on the journal. -/
def onJournal (step : Journal.Action α) : Action α := do
  match (← get).journal with
  | none => missing "a journal"
  | some journal =>
    Backend.onPart (fun s => ⟨s.shared.storage.device, journal⟩)
      (fun s hosted =>
        { s with
          journal := some hosted.value
          shared :=
            { s.shared with storage := { s.shared.storage with device := hosted.device } } })
      step

/-- Closes the journal, if one is open. -/
def closeJournal : Action Unit := do
  if (← get).journal.isSome then onJournal Journal.close
  modify fun s => { s with journal := none }

/-- Opens a journal in the place of the one before. -/
def openJournal (path : Path) : Action Unit := do
  closeJournal
  let journal ← onDevice (Journal.openAt path)
  modify fun s => { s with journal := some journal }

end ContentTree.Session
