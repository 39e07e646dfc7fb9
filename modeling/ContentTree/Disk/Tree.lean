import ContentTree.Bytes
import ContentTree.Collection.OrderedMap
import ContentTree.Disk.Path

/-!
# File trees

Folders and files by place. A file's contents belong to a number of their own, so that a program that
opened the file keeps writing to the same contents when the name is gone or given to another file.
A path leads to a place only over folders that are there.
-/

namespace ContentTree

/-- A place in a tree: its name first, then the names of the folders around it up to the root. -/
abbrev Location := List String

/-- What stands at a place. -/
inductive Entry where
  | folder
  /-- The file with these contents. -/
  | file (inode : Nat)
  deriving DecidableEq, Repr

/-- A tree of folders and files. -/
structure Disk where
  entries : OrderedMap Location Entry
  contents : OrderedMap Nat Bytes
  /-- Number for the contents of the next new file. -/
  nextInode : Nat
  deriving DecidableEq

/-- A folder was named where a file is needed. -/
def IoCause.isFolder : IoCause := .other "Is a directory (os error 21)"

/-- A file stands where a folder is needed. -/
def IoCause.isNoFolder : IoCause := .other "Not a directory (os error 20)"

/-- The name is taken. -/
def IoCause.alreadyThere : IoCause := .other "File exists (os error 17)"

namespace Disk

/-- The tree with nothing but its root. -/
def empty : Disk :=
  ⟨.empty, .empty, 0⟩

instance : EmptyCollection Disk := ⟨empty⟩

instance : Inhabited Disk := ⟨empty⟩

/-- What stands at a place; at the root it is a folder. -/
def occupant? (d : Disk) (place : Location) : Option Entry :=
  if place = [] then some .folder else d.entries.get? place

/-- Fails unless a folder stands at a place. -/
def checkFolder (d : Disk) : Location → Except IoCause Unit
  | [] => .ok ()
  | name :: above =>
    match d.entries.get? (name :: above) with
    | some .folder => .ok ()
    | some (.file _) => .error .isNoFolder
    | none => do
      d.checkFolder above
      .error .notFound

/-- The place to which the pieces of a path lead from another one. Dots and names that are too long
only come into their own inside a folder. -/
def follow (d : Disk) : Location → Path → Except IoCause Location
  | here, [] => .ok here
  | here, "" :: rest => d.follow here rest
  | here, "." :: rest => do
    d.checkFolder here
    d.follow here rest
  | here, ".." :: rest => do
    d.checkFolder here
    d.follow here.tail rest
  | here, name :: rest =>
    if Path.maxNameSize < name.utf8ByteSize then do
      d.checkFolder here
      .error .nameTooLong
    else d.follow (name :: here) rest

/-- The place to which a path leads, and what stands there: nothing if only the last name is
missing. -/
def lookup (d : Disk) (p : Path) : Except IoCause (Location × Option Entry) := do
  p.check
  let place ← d.follow [] p
  match d.occupant? place with
  | some (.file inode) =>
    if p.asksForFolder then throw .isNoFolder else return (place, some (.file inode))
  | some .folder => return (place, some .folder)
  | none =>
    d.checkFolder place.tail
    return (place, none)

/-- Whether a path leads to something. -/
def has (d : Disk) (p : Path) : Bool :=
  match d.lookup p with
  | .ok (_, some _) => true
  | _ => false

/-- Whether a path leads to a folder. -/
def hasFolder (d : Disk) (p : Path) : Bool :=
  match d.lookup p with
  | .ok (_, some .folder) => true
  | _ => false

/-- The contents under a number. -/
def contentsOf (d : Disk) (inode : Nat) : Bytes :=
  (d.contents.get? inode).getD []

/-- The file that a path leads to, with its place. -/
def located (d : Disk) (p : Path) : Except IoCause (Location × Nat) := do
  match ← d.lookup p with
  | (place, some (.file inode)) => return (place, inode)
  | (_, some .folder) => throw .isFolder
  | (_, none) => throw .notFound

/-- The file that a path leads to. -/
def file (d : Disk) (p : Path) : Except IoCause Nat := do
  return (← d.located p).2

/-- The contents of a file. -/
def read (d : Disk) (p : Path) : Except IoCause Bytes := do
  return d.contentsOf (← d.file p)

/-- Replaces the contents under a number. -/
def setContents (d : Disk) (inode : Nat) (bytes : Bytes) : Disk :=
  { d with contents := d.contents.insert inode bytes }

/-- Puts octets behind the contents under a number. -/
def append (d : Disk) (inode : Nat) (bytes : Bytes) : Disk :=
  d.setContents inode (d.contentsOf inode ++ bytes)

/-- Opens a file, which is made if there is none. -/
def touch (d : Disk) (p : Path) : Except IoCause (Nat × Disk) := do
  match ← d.lookup p with
  | (_, some (.file inode)) => return (inode, d)
  | (_, some .folder) => throw .isFolder
  | (place, none) =>
    if p.asksForFolder then throw .isFolder
    return (d.nextInode,
      { entries := d.entries.insert place (.file d.nextInode)
        contents := d.contents.insert d.nextInode []
        nextInode := d.nextInode + 1 })

/-- Opens a file, which is made if there is none, and empties it. -/
def create (d : Disk) (p : Path) : Except IoCause (Nat × Disk) := do
  let (inode, d) ← d.touch p
  return (inode, d.setContents inode [])

/-- Opens a file that is there and empties it. -/
def truncate (d : Disk) (p : Path) : Except IoCause (Nat × Disk) := do
  let inode ← d.file p
  return (inode, d.setContents inode [])

/-- Gives a file another name, where a file may be replaced. -/
def rename (d : Disk) (source target : Path) : Except IoCause Disk := do
  let (before, inode) ← d.located source
  match ← d.lookup target with
  | (_, some .folder) => throw .isFolder
  | (after, _) => return { d with entries := (d.entries.erase before).insert after (.file inode) }

/-- Takes a file's name away. -/
def remove (d : Disk) (p : Path) : Except IoCause Disk := do
  let (place, _) ← d.located p
  return { d with entries := d.entries.erase place }

/-- Makes one folder. -/
def makeFolder (d : Disk) (p : Path) : Except IoCause Disk := do
  match ← d.lookup p with
  | (_, some _) => throw .alreadyThere
  | (place, none) => return { d with entries := d.entries.insert place .folder }

/-- Makes a folder and every missing folder on the way to it. -/
def makeFolders (d : Disk) (p : Path) : Except IoCause Disk := do
  p.check
  (p.containing ++ [p]).foldlM (fun d q => if d.hasFolder q then .ok d else d.makeFolder q) d

/-- Takes away what a path leads to, and all below it. -/
def removeTree (d : Disk) (p : Path) : Except IoCause Disk := do
  match ← d.lookup p with
  | (place, some _) =>
    return { d with entries := d.entries.filter fun other _ => !place.isSuffixOf other }
  | (_, none) => throw .notFound

/-- Order of paths: a folder before what it contains, siblings by name. -/
def comesBefore : Path → Path → Bool
  | [], _ => true
  | _ :: _, [] => false
  | a :: as, b :: bs => if a = b then comesBefore as bs else decide (a < b)

/-- What stands below a folder, by the path from there: the contents of files, nothing for folders. -/
def listing (d : Disk) (folder : Location) : List (Path × Option Bytes) :=
  let below := d.entries.entries.filter fun e => folder.isSuffixOf e.1 ∧ e.1 ≠ folder
  let found := below.map fun (place, e) =>
    ((place.take (place.length - folder.length)).reverse,
      match e with
      | .folder => none
      | .file inode => some (d.contentsOf inode))
  found.mergeSort fun a b => comesBefore a.1 b.1

end Disk

end ContentTree
