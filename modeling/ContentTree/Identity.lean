import ContentTree.Digest.Sha256
import ContentTree.Text.Hex

/-!
# Identities

Nodes are named by 16 octets, properties by their node and a name, reference records by the node they
are kept for. Each identity has a display form, which is unambiguous, and a short form for
diagnostics, which shows the first eight digits of a node only.
-/

namespace ContentTree

/-- A qualified name of an item or a type, such as `jcr:primaryType`. -/
structure Name where
  text : String
  deriving DecidableEq, Repr, Inhabited

/-- Path-independent identity of a node: 16 octets. -/
structure NodeId where
  bytes : Bytes
  length_bytes : bytes.length = 16
  deriving DecidableEq, Repr

/-- Identity of a property: the node it belongs to and its name. -/
structure PropertyId where
  parent : NodeId
  name : Name
  deriving DecidableEq, Repr

/-- Identity of a node or a property. -/
inductive ItemId where
  | node (id : NodeId)
  | property (id : PropertyId)
  deriving DecidableEq, Repr

/-- Identity of the reference record kept for a target node. -/
structure ReferencesId where
  target : NodeId
  deriving DecidableEq, Repr

namespace Name

/-- Type of the root node. -/
def root : Name := ⟨"rep:root"⟩

/-- Mandatory property that holds the type of a node. -/
def primaryType : Name := ⟨"jcr:primaryType"⟩

end Name

namespace NodeId

/-- The identity with 16 given octets; `none` for any other number of them. -/
def ofBytes? (bytes : Bytes) : Option NodeId :=
  if h : bytes.length = 16 then some ⟨bytes, h⟩ else none

/-- The first half of a digest. -/
def ofDigest (message : Bytes) : NodeId :=
  ⟨(Sha256.hash message).take 16, by simp⟩

/-- The stable identity derived from a well-known name. -/
def ofName (name : String) : NodeId :=
  ofDigest ("node:".toUTF8.toList ++ name.toUTF8.toList)

/-- A fresh identity: the digest of a running number, a time in microseconds and the number of the
process. -/
def mint (count : Nat) (time : Int64) (process : UInt32) : NodeId :=
  ofDigest (Bytes.littleEndian 8 count ++ Bytes.littleEndian 8 time.toUInt64.toNat
    ++ Bytes.littleEndian 4 process.toNat)

instance : Inhabited NodeId := ⟨⟨List.replicate 16 0, rfl⟩⟩

/-- 32 lower-case digits. -/
def hex (id : NodeId) : String :=
  Hex.encode id.bytes

/-- The first eight digits. -/
def shortHex (id : NodeId) : String :=
  Hex.encode (id.bytes.take 4)

/-- Reads 32 digits of either case. -/
def ofHex (text : String) : Except Hex.Error NodeId := do
  match ofBytes? (← Hex.decode text) with
  | some id => return id
  | none => throw .badLength

/-- Short form for diagnostics. -/
def debug (id : NodeId) : String :=
  "NodeId(" ++ id.shortHex ++ "...)"

end NodeId

namespace PropertyId

/-- The node's digits, a slash, and the name. -/
def display (id : PropertyId) : String :=
  id.parent.hex ++ "/" ++ id.name.text

/-- Short form for diagnostics. -/
def debug (id : PropertyId) : String :=
  "PropertyId(" ++ id.parent.shortHex ++ "/" ++ id.name.text ++ ")"

end PropertyId

instance : Inhabited ItemId := ⟨.node default⟩

namespace ItemId

/-- Whether the identity is a node's. -/
def denotesNode : ItemId → Bool
  | node _ => true
  | property _ => false

/-- The node identity, if it is one. -/
def node? : ItemId → Option NodeId
  | node id => some id
  | property _ => none

/-- The property identity, if it is one. -/
def property? : ItemId → Option PropertyId
  | node _ => none
  | property id => some id

/-- Display form of either kind. -/
def display : ItemId → String
  | node id => id.hex
  | property id => id.display

/-- Short form of either kind. -/
def debug : ItemId → String
  | node id => id.debug
  | property id => id.debug

/-- Order of identities: nodes before properties, nodes by octets, properties by node and then by
the code points of the name. -/
def compare : ItemId → ItemId → Ordering
  | node a, node b => Bytes.compare a.bytes b.bytes
  | node _, property _ => .lt
  | property _, node _ => .gt
  | property a, property b =>
    (Bytes.compare a.parent.bytes b.parent.bytes).then (Ord.compare a.name.text b.name.text)

end ItemId

namespace ReferencesId

/-- Display form. -/
def display (id : ReferencesId) : String :=
  "refs:" ++ id.target.hex

/-- Short form for diagnostics. -/
def debug (id : ReferencesId) : String :=
  "NodeReferencesId(" ++ id.target.shortHex ++ "...)"

end ReferencesId

end ContentTree
