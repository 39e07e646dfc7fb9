import ContentTree.Disk.Tree

/-!
# Editing files by hand

Changes to files from outside the programs that own them. Contents keep their number, so a program
that has the file open sees the change.
-/

namespace ContentTree.Disk

/-- The first `n` octets, with zeros for those that are not there, and others behind them. -/
def padded (bytes : Bytes) (n : Nat) (rest : Bytes) : Bytes :=
  bytes.take n ++ Nat.repeat (0 :: ·) (n - bytes.length) rest

/-- Octets with others put over them from a position on; nothing if these reach behind the end. -/
def overlay? (bytes : Bytes) (position : Nat) (new : Bytes) : Option Bytes :=
  if position + new.length ≤ bytes.length then
    some (bytes.take position ++ (new ++ bytes.drop (position + new.length)))
  else none

/-- Changes the contents of a file that is there. -/
def edit (d : Disk) (p : Path) (f : Bytes → Bytes) : Except IoCause Disk := do
  let inode ← d.file p
  return d.setContents inode (f (d.contentsOf inode))

/-- Writes a file and makes the folders in front of it. -/
def writeFile (d : Disk) (p : Path) (bytes : Bytes) : Except IoCause Disk := do
  let (inode, d) ← (← d.makeFolders p.parent).create p
  return d.setContents inode bytes

/-- Puts octets behind the contents of a file. -/
def appendFile (d : Disk) (p : Path) (bytes : Bytes) : Except IoCause Disk :=
  d.edit p (· ++ bytes)

/-- Puts octets over those of a file from a position on. They have to be there. -/
def patchFile (d : Disk) (p : Path) (position : Nat) (bytes : Bytes) : Except IoCause Disk := do
  let inode ← d.file p
  match overlay? (d.contentsOf inode) position bytes with
  | some patched => return d.setContents inode patched
  | none => throw .unexpectedEnd

/-- Gives a file a length, with zeros for what was not there. -/
def resizeFile (d : Disk) (p : Path) (length : Nat) : Except IoCause Disk :=
  d.edit p (padded · length [])

end ContentTree.Disk
