import ContentTree.Persistence.Faults
import ContentTree.Persistence.FileStore
import ContentTree.Persistence.Memory

/-!
# Several places of storage

A depot keeps several backends, in memory or in folders, on one device. Each place has a number that
stays its own, and failures of its own that can be switched on. `Depot.backend` is a place as a
backend of the whole depot, so that workspaces over different places have one type.
-/

namespace ContentTree

/-- What a place keeps things in. -/
inductive Medium where
  | memory (store : MemoryStore)
  | folder (store : FileStore)

/-- A medium and the failures that are switched on for it. -/
structure Place where
  medium : Medium
  faults : Faults

instance : Inhabited Place := ⟨.memory ∅, .none⟩

namespace Place

variable {α : Type}

/-- A step on whichever medium a place has. -/
def onMedium (inMemory : EStateM Error (MemoryStore × Faults) α)
    (inFolder : EStateM Error (Hosted FileStore × Faults) α) : EStateM Error (Hosted Place) α :=
  fun s =>
    match s.value.medium with
    | .memory store =>
      Backend.onPart (fun s => (store, s.value.faults))
        (fun s (store, faults) => { s with value := ⟨.memory store, faults⟩ }) inMemory s
    | .folder store =>
      Backend.onPart (fun s => (⟨s.device, store⟩, s.value.faults))
        (fun _ (hosted, faults) => ⟨hosted.device, .folder hosted.value, faults⟩) inFolder s

/-- A place as a backend. -/
def backend : Backend (Hosted Place) where
  load id := onMedium (MemoryStore.backend.faulty.load id) (FileStore.backend.faulty.load id)
  contains id :=
    onMedium (MemoryStore.backend.faulty.contains id) (FileStore.backend.faulty.contains id)
  createNew s id :=
    match s.value.medium with
    | .memory store => MemoryStore.backend.faulty.createNew (store, s.value.faults) id
    | .folder store => FileStore.backend.faulty.createNew (⟨s.device, store⟩, s.value.faults) id
  store set := onMedium (MemoryStore.backend.faulty.store set) (FileStore.backend.faulty.store set)
  loadReferences target :=
    onMedium (MemoryStore.backend.faulty.loadReferences target)
      (FileStore.backend.faulty.loadReferences target)
  containsReferences target :=
    onMedium (MemoryStore.backend.faulty.containsReferences target)
      (FileStore.backend.faulty.containsReferences target)

/-- The memory of a place that is in memory. -/
def memory? (p : Place) : Option MemoryStore :=
  match p.medium with
  | .memory store => some store
  | .folder _ => none

end Place

/-- Places by number, on one device. -/
structure Depot where
  device : Device
  places : List Place

namespace Depot

variable {α : Type}

/-- A depot without places. -/
def new (device : Device) : Depot :=
  ⟨device, []⟩

instance : Inhabited Depot := ⟨new default⟩

/-- A place by its number. -/
def place (d : Depot) (n : Nat) : Place :=
  d.places.getD n default

/-- Puts something in a place. -/
def setPlace (d : Depot) (n : Nat) (p : Place) : Depot :=
  { d with places := d.places.set n p }

/-- A new place without failures; answers its number. -/
def add (d : Depot) (medium : Medium) : Nat × Depot :=
  (d.places.length, { d with places := d.places ++ [⟨medium, .none⟩] })

/-- Something done with a depot. What was done before a failure stays. -/
abbrev Action := EStateM Error Depot

/-- A step on the device alone. -/
def onDevice (step : Device.Action α) : Action α :=
  Backend.onPart Depot.device (fun d device => { d with device }) step

/-- Opens a folder as a new place; answers its number. -/
def addFolder (opening : Device.Action FileStore) : Action Nat := do
  let store ← onDevice opening
  modifyGet fun d => d.add (.folder store)

/-- A step on the memory of a place. A folder gives an empty memory, and is left as it is. -/
def onMemory (n : Nat) (step : EStateM Error MemoryStore α) : Action α :=
  Backend.onPart (fun d => ((d.place n).memory?).getD ∅)
    (fun d store =>
      if ((d.place n).memory?).isSome then
        d.setPlace n { d.place n with medium := .memory store }
      else d)
    step

/-- Switches failures of a place on and off. -/
def setFaults (d : Depot) (n : Nat) (faults : Faults) : Depot :=
  d.setPlace n { d.place n with faults }

/-- Closes a place: the lock of a folder is given back. -/
def close (d : Depot) (n : Nat) : Depot :=
  match (d.place n).medium with
  | .memory _ => d
  | .folder store => { d with device := FileStore.close ⟨d.device, store⟩ }

/-- A place as a backend of the whole depot. -/
def backend (n : Nat) : Backend Depot :=
  Place.backend.focus (fun d => ⟨d.device, d.place n⟩)
    (fun d s => { d.setPlace n s.value with device := s.device })

end Depot

end ContentTree
