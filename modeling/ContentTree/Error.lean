import ContentTree.Identity

/-!
# Errors

Every way in which an operation of the library fails, as a cause, and the one function that words
the causes (`Error.message`). Causes with the name `stated` carry a wording chosen by the caller,
for sinks and backends that bring their own reasons.
-/

namespace ContentTree

/-- Why an operation on files failed. -/
inductive IoCause where
  /-- No file or folder of that name. -/
  | notFound
  /-- The file ended before the octets asked for. -/
  | unexpectedEnd
  /-- Any other reason. -/
  | other (text : String)
  deriving DecidableEq, Repr

/-- The rule that a change log or a property breaks. -/
inductive Violation where
  /-- The operation with this number reaches an item outside the unit of work. -/
  | notSelfContained (operation : Nat) (outside : ItemId)
  /-- No definition of the type fits the property. -/
  | noDefinition (property type : Name)
  | stated (text : String)
  deriving DecidableEq, Repr

/-- An item state that is not in the condition an operation needs. -/
inductive StateFault where
  /-- The overlay is connected to some other instance. -/
  | alreadyConnected (id : ItemId)
  /-- Overlay and instance have different identities. -/
  | mismatched (overlay instanceId : ItemId)
  /-- The overlay has no shared counterpart. -/
  | notConnected (id : ItemId)
  /-- A backend made property data for a node. -/
  | notNodeState (id : ItemId)
  /-- A backend made node data for a property. -/
  | notPropertyState (id : ItemId)
  /-- The root of a virtual subtree is a property. -/
  | virtualRootNotNode (id : ItemId)
  /-- The registry lacks what the root node needs. -/
  | rootNotCreated (reason : String)
  | stated (text : String)
  deriving DecidableEq, Repr

/-- Why a backend did not do its work. -/
inductive StorageFault where
  /-- A batch modifies or deletes an item that is not there. -/
  | missingItem (id : ItemId)
  /-- The next store was told to fail. -/
  | injected
  /-- No workspace in this folder, and none may be created. -/
  | noWorkspace (path : String)
  /-- The journal could not be reopened after it was cleared. -/
  | journalClosed
  | stated (text : String)
  deriving DecidableEq, Repr

/-- Contents that contradict themselves. -/
inductive Damage where
  /-- A record claims more octets than its file holds. -/
  | recordTooLong (length : Nat) (path : String)
  /-- A journal entry claims more octets than an entry may have. -/
  | entryTooLarge
  | stated (text : String)
  deriving DecidableEq, Repr

/-- A file that does not begin as its kind of file does. -/
inductive FormatFault where
  | recordMagic (path : String)
  | recordVersion (version : Nat)
  | workspaceMagic
  | workspaceVersion (version : Nat)
  | journalMagic
  | journalVersion (version : Nat)
  | stated (text : String)
  deriving DecidableEq, Repr

/-- The two ways of taking the lock of a workspace. -/
inductive LockKind where
  | read
  | write
  deriving DecidableEq, Repr

/-- An error of the item state layer. -/
inductive Error where
  | io (cause : IoCause)
  | noSuchItem (id : ItemId)
  | noSuchReferences (id : ReferencesId)
  | constraintViolation (violation : Violation)
  /-- A reference record has a target that does not exist. -/
  | danglingReference (target : NodeId)
  /-- The lock was not free within the time allowed. -/
  | lockInterrupted (lock : LockKind)
  | noSuchNodeType (name : Name)
  | itemState (fault : StateFault)
  | persistence (fault : StorageFault)
  | serialization (text : String)
  | deserialization (text : String)
  | corruption (damage : Damage)
  | checksumMismatch (expected got : UInt32)
  | invalidFormat (fault : FormatFault)
  /-- Another process holds the workspace. -/
  | locked
  deriving DecidableEq, Repr

/-- The wording of a failed operation on files. -/
def IoCause.message : IoCause → String
  | notFound => "No such file or directory (os error 2)"
  | unexpectedEnd => "failed to fill whole buffer"
  | other text => text

/-- The wording of a broken rule. -/
def Violation.message : Violation → String
  | notSelfContained operation outside =>
    "change log is not self contained: Op(" ++ toString operation ++ ") also affects "
      ++ outside.display
  | noDefinition property type =>
    "no applicable definition for property " ++ property.text ++ " on " ++ type.text
  | stated text => text

/-- The wording of an item state in the wrong condition. -/
def StateFault.message : StateFault → String
  | alreadyConnected id => "item " ++ id.display ++ " is already connected to another shared state"
  | mismatched overlay instanceId =>
    "cannot connect " ++ overlay.display ++ " to shared state " ++ instanceId.display
  | notConnected id => "item " ++ id.display ++ " is not connected"
  | notNodeState id => id.display ++ " is not a node state"
  | notPropertyState id => id.display ++ " is not a property state"
  | virtualRootNotNode id => "virtual root " ++ id.display ++ " must be a node"
  | rootNotCreated reason => "failed to create root node: " ++ reason
  | stated text => text

/-- The wording of a backend's failure. -/
def StorageFault.message : StorageFault → String
  | missingItem id => "cannot update " ++ id.display ++ ": item does not exist"
  | injected => "injected store failure"
  | noWorkspace path => "no workspace at " ++ path
  | journalClosed => "journal is closed"
  | stated text => text

/-- The wording of damaged contents. -/
def Damage.message : Damage → String
  | recordTooLong length path => "record length " ++ toString length ++ " exceeds file size in " ++ path
  | entryTooLarge => "journal entry too large"
  | stated text => text

/-- The wording of a foreign file. -/
def FormatFault.message : FormatFault → String
  | recordMagic path => "Invalid record magic in " ++ path
  | recordVersion version => "Unsupported record version: " ++ toString version
  | workspaceMagic => "Invalid workspace magic"
  | workspaceVersion version => "Unsupported workspace version: " ++ toString version
  | journalMagic => "Invalid journal magic"
  | journalVersion version => "Unsupported journal version: " ++ toString version
  | stated text => text

/-- The word for a way of taking the lock. -/
def LockKind.message : LockKind → String
  | read => "read"
  | write => "write"

namespace Error

/-- The word for the kind of an error. -/
def kind : Error → String
  | io _ => "Io"
  | noSuchItem _ => "NoSuchItem"
  | noSuchReferences _ => "NoSuchReferences"
  | constraintViolation _ => "ConstraintViolation"
  | danglingReference _ => "DanglingReference"
  | lockInterrupted _ => "LockInterrupted"
  | noSuchNodeType _ => "NoSuchNodeType"
  | itemState _ => "ItemState"
  | persistence _ => "Persistence"
  | serialization _ => "Serialization"
  | deserialization _ => "Deserialization"
  | corruption _ => "Corruption"
  | checksumMismatch _ _ => "ChecksumMismatch"
  | invalidFormat _ => "InvalidFormat"
  | locked => "Locked"

/-- The wording of an error. -/
def message : Error → String
  | io cause => "IO error: " ++ cause.message
  | noSuchItem id => "No such item state: " ++ id.display
  | noSuchReferences id => "No such node references: " ++ id.display
  | constraintViolation v => "Constraint violation: " ++ v.message
  | danglingReference target =>
    "Target node " ++ target.hex ++ " of REFERENCE property does not exist"
  | lockInterrupted lock => "Interrupted while acquiring " ++ lock.message ++ " lock"
  | noSuchNodeType name => "No such node type: " ++ name.text
  | itemState fault => "Item state error: " ++ fault.message
  | persistence fault => "Persistence error: " ++ fault.message
  | serialization text => "Serialization error: " ++ text
  | deserialization text => "Deserialization error: " ++ text
  | corruption damage => "Corruption detected: " ++ damage.message
  | checksumMismatch expected got =>
    "Checksum mismatch: expected " ++ toString expected.toNat ++ ", got " ++ toString got.toNat
  | invalidFormat fault => "Invalid store format: " ++ fault.message
  | locked => "Store is locked by another process"

/-- The item or record asked for is absent everywhere. -/
def isNotFound : Error → Bool
  | noSuchItem _ | noSuchReferences _ => true
  | _ => false

/-- A change log failed validation. -/
def isConstraintViolation : Error → Bool
  | constraintViolation _ => true
  | _ => false

/-- Repeating the call may succeed. Only a lock that was not free qualifies: that call left no
trace. -/
def isRetryable : Error → Bool
  | lockInterrupted _ => true
  | _ => false

end Error

end ContentTree
