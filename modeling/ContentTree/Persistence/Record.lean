import ContentTree.Digest.Crc32
import ContentTree.Encoding.Change

/-!
# Record files

A record file holds one value: four octets that tell its kind, a version, the length of the payload,
the payload and its checksum. What follows the checksum is ignored.
-/

namespace ContentTree.Record

/-- The octets that begin the file of an item. -/
def itemMagic : Bytes := [0x49, 0x54, 0x4d, 0x00]

/-- The octets that begin the file of a reference record. -/
def referencesMagic : Bytes := [0x52, 0x45, 0x46, 0x00]

/-- The one version of the format. -/
def version : UInt8 := 1

/-- Octets around the payload: kind, version, length and checksum. -/
def overhead : Nat := 4 + 1 + 8 + 4

/-- The contents of a record file. -/
def frame (magic payload : Bytes) : Bytes :=
  magic ++ [version] ++ Bytes.littleEndian 8 payload.length ++ payload
    ++ Bytes.littleEndian 4 (Crc32.checksum payload).toNat

/-- The first octets of a file, and the rest. -/
def take (n : Nat) (bytes : Bytes) : Except Error (Bytes × Bytes) :=
  match Bytes.splitAt? n bytes with
  | some parts => .ok parts
  | none => .error (.io .unexpectedEnd)

/-- Takes a checksum off the front and compares it with that of the payload. -/
def checkSum (payload bytes : Bytes) : Except Error Bytes := do
  let (stated, rest) ← take 4 bytes
  let expected := UInt32.ofNat (Bytes.ofLittleEndian stated)
  let got := Crc32.checksum payload
  if expected ≠ got then throw (.checksumMismatch expected got) else return rest

/-- The payload of a record file; `path` is its name. -/
def payload (magic : Bytes) (path : String) (contents : Bytes) : Except Error Bytes := do
  let (found, rest) ← take 4 contents
  if found ≠ magic then throw (.invalidFormat (.recordMagic path))
  let (found, rest) ← take 1 rest
  if found ≠ [version] then
    throw (.invalidFormat (.recordVersion (Bytes.ofLittleEndian found)))
  let (stated, rest) ← take 8 rest
  let length := Bytes.ofLittleEndian stated
  if contents.length - overhead < length then throw (.corruption (.recordTooLong length path))
  let (payload, rest) ← take length rest
  let _ ← checkSum payload rest
  return payload

/-- The value in a payload. -/
def decode {α : Type} [Portable α] (payload : Bytes) : Except Error α :=
  match Portable.ofBytes? payload with
  | some a => .ok a
  | none => .error (.deserialization "malformed value")

/-- The contents of the file of a value. -/
def write {α : Type} [Portable α] (magic : Bytes) (a : α) : Bytes :=
  frame magic (Portable.toBytes a)

/-- The value in a record file; `path` is its name. -/
def read {α : Type} [Portable α] (magic : Bytes) (path : String) (contents : Bytes) :
    Except Error α := do
  decode (← payload magic path contents)

end ContentTree.Record
