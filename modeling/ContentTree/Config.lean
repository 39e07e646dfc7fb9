import ContentTree.Identity

/-!
# Configuration

What a workspace and a directory backend are told when they are opened, with their defaults.
-/

namespace ContentTree

/-- A span of time; `nanos` is below one second. -/
structure Duration where
  seconds : Nat
  nanos : Nat
  deriving DecidableEq, Repr

/-- Configuration of a workspace. -/
structure Config where
  /-- Name of the workspace. -/
  workspace : String
  /-- Identity of its root node. -/
  rootNode : NodeId
  /-- Number of cached states above which those that nobody holds are evicted. -/
  cacheSoftLimit : Nat
  /-- Longest wait for the lock; `none` waits for ever. -/
  lockTimeout : Option Duration
  /-- Transitions kept for a subscriber before it is dropped. -/
  eventBufferSize : Nat
  deriving DecidableEq, Repr

/-- The configuration in which nothing was chosen. -/
def Config.default : Config where
  workspace := "default"
  rootNode := NodeId.ofName "rep:root"
  cacheSoftLimit := 10000
  lockTimeout := some ⟨30, 0⟩
  eventBufferSize := 1000

/-- Configuration of a directory backend. -/
structure FileConfig where
  /-- Folder of the workspace. -/
  path : String
  /-- Whether a missing workspace is created. -/
  createIfMissing : Bool
  /-- Whether every record is forced to the medium before it gets its name. -/
  syncWrites : Bool
  deriving DecidableEq, Repr

/-- The configuration in which nothing was chosen. -/
def FileConfig.default : FileConfig where
  path := "./workspace"
  createIfMissing := true
  syncWrites := true

end ContentTree
