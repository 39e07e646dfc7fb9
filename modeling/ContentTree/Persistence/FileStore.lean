import ContentTree.Digest.Sha256
import ContentTree.Config
import ContentTree.Persistence.Backend
import ContentTree.Persistence.Journal

/-!
# Storage in a folder

A backend with one file for each item and each reference record, named by the hash of its identity.
A batch is announced in a journal before any file changes and marked when all files are in place. A
batch that fails is undone; one that was cut short is applied again when the folder is opened.
-/

namespace ContentTree

/-- An open workspace folder. -/
structure FileStore where
  folder : Path
  /-- Whether every record is forced to the medium before it gets its name. -/
  syncWrites : Bool
  /-- Contents of the lock file. -/
  lock : Nat
  journal : Journal
  deriving DecidableEq, Repr

namespace FileStore

/-- Something done with a workspace folder on its device. -/
abbrev Action := EStateM Error (Hosted FileStore)

/-- A step on the journal. -/
def onJournal {α : Type} (step : Journal.Action α) : Action α :=
  Hosted.onPart FileStore.journal (fun s journal => { s with journal }) step

/-! ## Names of files -/

/-- The text that names an item. -/
def itemKey : ItemId → String
  | .node id => "n:" ++ id.hex
  | .property id => "p:" ++ id.display

/-- The text that names the reference record of a target. -/
def referencesKey (target : NodeId) : String :=
  "r:" ++ target.hex

/-- The file for a key: named by the hash of the key, in a folder named by its first octet. -/
def recordPath (folder : Path) (kind key : String) : Path :=
  let hash := Sha256.hash key.toUTF8.toList
  folder ++ [kind, Hex.encode (hash.take 1), Hex.encode hash]

/-- The file of an item. -/
def itemPath (folder : Path) (id : ItemId) : Path :=
  recordPath folder "items" (itemKey id)

/-- The file of a reference record. -/
def referencesPath (folder : Path) (target : NodeId) : Path :=
  recordPath folder "refs" (referencesKey target)

/-! ## Writing records -/

/-- Writes a file under another name first, and then gives it its own. -/
def writeThenRename (syncWrites : Bool) (temporary path : Path) (contents : Bytes) :
    Device.Action Unit := do
  let inode ← Device.create temporary
  Device.write inode contents
  if syncWrites then Device.sync inode
  Device.rename temporary path

/-- Replaces a file. What a failure leaves under the other name is taken away if possible. -/
def writeFile (syncWrites : Bool) (path : Path) (contents : Bytes) : Device.Action Unit := do
  Device.makeFolders path.parent
  let temporary := path.withEnding ".tmp"
  try writeThenRename syncWrites temporary path contents
  catch e =>
    try Device.remove temporary catch _ => pure ()
    throw e

/-- What applying a batch does to one file. -/
inductive Change where
  | write (path : Path) (contents : Bytes)
  | remove (path : Path)
  deriving DecidableEq, Repr

/-- The file that a change is about. -/
def Change.path : Change → Path
  | write path _ => path
  | remove path => path

/-- The changes of a batch in the order in which they are made. -/
def changes (folder : Path) (batch : ChangeSet) : List Change :=
  (batch.written.map fun s =>
    .write (itemPath folder s.id) (Record.write Record.itemMagic (s.withStatus .existing)))
  ++ (batch.deleted.map fun id => .remove (itemPath folder id))
  ++ batch.references.map fun r =>
    let path := referencesPath folder r.target
    if r.hasReferences then .write path (Record.write Record.referencesMagic r) else .remove path

/-- Makes a change. -/
def makeChange (syncWrites : Bool) : Change → Device.Action Unit
  | .write path contents => writeFile syncWrites path contents
  | .remove path => Device.removeIfThere path

/-- Makes the changes of a batch. -/
def apply (batch : ChangeSet) : Action Unit := do
  let s := (← get).value
  Hosted.onDevice ((changes s.folder batch).forM (makeChange s.syncWrites))

/-- The contents of a file before a batch; nothing if there is none. -/
def image (path : Path) : Device.Action (Path × Option Bytes) := do
  match (← get).disk.read path with
  | .ok contents => return (path, some contents)
  | .error .notFound => return (path, none)
  | .error cause => throw (.io cause)

/-- The files that a batch is about, as the contents before it are taken down. -/
def pathsOf (folder : Path) (batch : ChangeSet) : List Path :=
  (batch.written.map fun s => itemPath folder s.id)
  ++ (batch.deleted.map fun id => itemPath folder id)
  ++ batch.references.map fun r => referencesPath folder r.target

/-- The contents of all files that a batch is going to change. -/
def capture (batch : ChangeSet) : Action (List (Path × Option Bytes)) := do
  let folder := (← get).value.folder
  Hosted.onDevice ((pathsOf folder batch).mapM image)

/-- The change that brings contents back. -/
def restoring : Path × Option Bytes → Change
  | (path, some contents) => .write path contents
  | (path, none) => .remove path

/-- Brings back the contents of files, the last one first. -/
def restore (images : List (Path × Option Bytes)) : Action Unit := do
  let s := (← get).value
  Hosted.onDevice (images.reverse.forM fun i => makeChange s.syncWrites (restoring i))

/-- Undoes a batch that failed. If that does not go well the batch stays pending. -/
def undo (seq : Nat) (images : List (Path × Option Bytes)) : Action Unit := do
  try
    restore images
    onJournal (Journal.rollBack seq)
  catch _ => pure ()

/-- Applies the pending batches of the journal and empties it. -/
def recover : Action Unit := do
  let pending ← onJournal Journal.pendingEntries
  if pending.isEmpty then return ()
  pending.forM fun entry => do
    if let some batch := entry.batch then apply batch
    onJournal (Journal.commit entry.seq)
  onJournal Journal.clear

/-! ## Opening and closing -/

/-- The octets that begin a manifest. -/
def manifestMagic : Bytes := [0x54, 0x53, 0x54, 0x00]

/-- The one version of a workspace folder. -/
def manifestVersion : UInt8 := 1

/-- The file that marks a workspace folder. -/
def manifestPath (folder : Path) : Path :=
  folder ++ ["MANIFEST"]

/-- Marks a workspace folder. -/
def writeManifest (folder : Path) : Device.Action Unit := do
  let inode ← Device.create (manifestPath folder)
  Device.write inode manifestMagic
  Device.write inode [manifestVersion]
  Device.sync inode

/-- Checks the contents of a manifest. -/
def checkManifest (contents : Bytes) : Except Error Unit := do
  let (found, rest) ← Record.take 4 contents
  if found ≠ manifestMagic then throw (.invalidFormat .workspaceMagic)
  let (found, _) ← Record.take 1 rest
  if found ≠ [manifestVersion] then
    throw (.invalidFormat (.workspaceVersion (Bytes.ofLittleEndian found)))

/-- Closes the journal and gives the lock back. -/
def close (s : Hosted FileStore) : Device :=
  match onJournal Journal.close s with
  | .ok _ s | .error _ s => s.device.unlock s.value.lock

/-- Applies what is pending in a folder whose lock is held; the lock goes back if that fails. -/
def recovered (folder : Path) (syncWrites : Bool) (lock : Nat) : Device.Action FileStore :=
  fun device =>
    match Journal.openAt (folder ++ ["journal"]) device with
    | .error e device => .error e (device.unlock lock)
    | .ok journal device =>
      match recover ⟨device, ⟨folder, syncWrites, lock, journal⟩⟩ with
      | .error e s => .error e (close s)
      | .ok _ s => .ok s.value s.device

/-- Opens a workspace folder and applies what is pending. -/
def openAt (config : FileConfig) : Device.Action FileStore := do
  let folder := Path.ofFolder config.path
  match checkManifest (← Device.query (·.read (manifestPath folder))) with
  | .error e => throw e
  | .ok () =>
    let lock ← Device.lock (folder ++ [".lock"])
    recovered folder config.syncWrites lock

/-- Makes a workspace folder and opens it. -/
def create (config : FileConfig) : Device.Action FileStore := do
  let folder := Path.ofFolder config.path
  Device.makeFolders (folder ++ ["items"])
  Device.makeFolders (folder ++ ["refs"])
  writeManifest folder
  openAt config

/-- Opens a workspace folder, which is made if there is none and that is allowed. -/
def openOrCreate (config : FileConfig) : Device.Action FileStore := do
  if (← get).disk.has (manifestPath (Path.ofFolder config.path)) then openAt config
  else if config.createIfMissing then create config
  else throw (.persistence (.noWorkspace config.path))

/-! ## As a backend -/

/-- The value in a record file, if there is one. -/
def loadRecord {α : Type} [Portable α] (magic : Bytes) (path : Path) : Action (Option α) := do
  match (← get).device.disk.read path with
  | .ok contents =>
    match Record.read magic path.display contents with
    | .ok a => return some a
    | .error e => throw e
  | .error .notFound => return none
  | .error cause => throw (.io cause)

/-- Applies a batch: announced first, marked when it is in place, undone when it fails. The journal
is emptied when nothing in it is pending. -/
def store (batch : ChangeSet) : Action Unit := do
  if batch.isEmpty then return ()
  let before ← capture batch
  let seq ← onJournal (Journal.log batch)
  try
    apply batch
    onJournal (Journal.commit seq)
  catch e =>
    undo seq before
    throw e
  if !(← onJournal Journal.hasPending) then onJournal Journal.clear

/-- A workspace folder as a backend. -/
def backend : Backend (Hosted FileStore) where
  load id := do
    match ← loadRecord Record.itemMagic (itemPath (← get).value.folder id) with
    | some s => return s
    | none => throw (.noSuchItem id)
  contains id := do
    let s ← get
    return s.device.disk.has (itemPath s.value.folder id)
  createNew _ id := .empty id
  store := store
  loadReferences target := do
    match ← loadRecord Record.referencesMagic (referencesPath (← get).value.folder target) with
    | some r => return r
    | none => throw (.noSuchReferences ⟨target⟩)
  containsReferences target := do
    let s ← get
    return s.device.disk.has (referencesPath s.value.folder target)

end FileStore

end ContentTree
