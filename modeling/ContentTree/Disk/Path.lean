import ContentTree.Error

/-!
# Paths

A path is kept as it is written: the pieces between the slashes of its text. A piece is a name, two
dots for the folder above, or one dot or nothing at all for the folder one is in. Two paths that are
written differently may lead to one place, which only the tree can tell (`Disk.follow`); messages show
a path the way it was written.
-/

namespace ContentTree

/-- The pieces of a path, from the root on. -/
abbrev Path := List String

/-- A piece of a path has more octets than a name may have, or a path more than a path may have. -/
def IoCause.nameTooLong : IoCause := .other "File name too long (os error 36)"

/-- A path holds a character that no name may hold. -/
def IoCause.invalidName : IoCause := .other "file name contained an unexpected NUL byte"

namespace Path

/-- The pieces between the slashes of a text. -/
def parse (text : String) : Path :=
  (text.split (· = '/')).toList.map (·.copy)

/-- The pieces with slashes between them. -/
def display (p : Path) : String :=
  "/".intercalate p

/-- The path of a folder to put names behind: a slash at the end of the text counts once. -/
def ofFolder (text : String) : Path :=
  let p := parse text
  if p.getLast? = some "" then p.dropLast else p

/-- The piece stands for the folder one is in. -/
def staysHere (piece : String) : Bool :=
  piece = "" ∨ piece = "."

/-- The path without the pieces at its end that stay where they are. -/
def bare (p : Path) : Path :=
  (p.reverse.dropWhile staysHere).reverse

/-- The path of the folder that holds what a path is written for. -/
def parent (p : Path) : Path :=
  bare p.bare.dropLast

/-- The paths of the folders on the way to what a path is written for, the root first. -/
def containing (p : Path) : List Path :=
  ((List.range p.bare.length).map fun n => p.bare.take n).filter fun q => q.bare = q

/-- The path with `ending` put behind its last piece. -/
def withEnding (p : Path) (ending : String) : Path :=
  match p.getLast? with
  | some name => p.dropLast ++ [name ++ ending]
  | none => []

/-- A slash at the end asks for a folder. -/
def asksForFolder (p : Path) : Bool :=
  p.getLast? = some ""

/-- The octets of a path: its pieces and the slashes between them. -/
def size (p : Path) : Nat :=
  p.display.utf8ByteSize

/-- The most octets of a path. The system takes 4095, of which the place of the tree needs a few. -/
def maxSize : Nat := 4085

/-- The most octets of a name. -/
def maxNameSize : Nat := 255

/-- Fails if the system refuses a path for what is written in it. -/
def check (p : Path) : Except IoCause Unit :=
  if p.any fun piece => piece.toList.any (· = '\x00') then .error .invalidName
  else if maxSize < p.size then .error .nameTooLong
  else .ok ()

end Path

end ContentTree
