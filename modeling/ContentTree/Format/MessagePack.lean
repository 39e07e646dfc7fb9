import ContentTree.Format.Datum
import ContentTree.Format.Document

/-!
# MessagePack

The binary form of documents. A record is a list of its fields, an alternative without content its
name, one with content a table with the name as its only key; numbers and lengths take the shortest
form. Reading accepts every form of every length and stops after one complete value.
-/

namespace ContentTree.MessagePack

/-- The deepest nesting of lists and tables that is read: more than any value may use, also when
tables that only name an alternative are counted. -/
def maxDepth : Nat := 2 * Dialect.maxLevels

/-- The octets that a number without a sign needs: 0 (within the marker), 1, 2, 4 or 8. -/
def unsignedSize (n : Nat) : Nat :=
  if n < 0x80 then 0 else if n < 0x100 then 1 else if n < 0x10000 then 2
  else if n < 0x100000000 then 4 else 8

/-- The octets that a negative number needs: 0 (within the marker), 1, 2, 4 or 8. -/
def signedSize (n : Int) : Nat :=
  if -0x20 ≤ n then 0 else if -0x80 ≤ n then 1 else if -0x8000 ≤ n then 2
  else if -0x80000000 ≤ n then 4 else 8

/-- A whole number in its shortest form. -/
def integer (n : Int) : Datum :=
  if 0 ≤ n then .unsigned (unsignedSize n.toNat) n.toNat else .signed (signedSize n) n

/-- A text by its octets. -/
def text (s : String) : Datum :=
  .text s.toUTF8.toList

mutual

/-- The tree that stands for a document. -/
def tree : Document → Datum
  | .null => .null
  | .boolean b => .boolean b
  | .integer n => integer n
  | .double x => .double x
  | .text s => text s
  | .list items => .list (trees items)
  | .record fields => .list (fieldTrees fields)
  | .tag name => text name
  | .variant name content => .table [(text name, tree content)]

/-- The trees of the items of a list. -/
def trees : List Document → List Datum
  | [] => []
  | d :: rest => tree d :: trees rest

/-- The trees of the fields of a record. -/
def fieldTrees : List (String × Document) → List Datum
  | [] => []
  | (_, d) :: rest => tree d :: fieldTrees rest

end

/-- A length in its marker, or after a marker in the fewest octets. Each pair gives a marker and the
octets that follow it; the last takes every length. -/
def lengthHead (fix : Option (Nat × Nat)) (markers : List (UInt8 × Nat)) (n : Nat) : Bytes :=
  match fix with
  | some (base, bound) =>
    if n < bound then [UInt8.ofNat (base + n)] else sized markers
  | none => sized markers
where
  /-- The first marker whose octets hold the length. -/
  sized : List (UInt8 × Nat) → Bytes
    | [] => []
    | [(marker, size)] => marker :: Bytes.bigEndian size n
    | (marker, size) :: rest =>
      if n < 1 <<< (8 * size) then marker :: Bytes.bigEndian size n else sized rest

/-- Marker and length of a text. -/
def textHead : Nat → Bytes :=
  lengthHead (some (0xa0, 32)) [(0xd9, 1), (0xda, 2), (0xdb, 4)]

/-- Marker and length of a byte string. -/
def binaryHead : Nat → Bytes :=
  lengthHead none [(0xc4, 1), (0xc5, 2), (0xc6, 4)]

/-- Marker and length of a list. -/
def listHead : Nat → Bytes :=
  lengthHead (some (0x90, 16)) [(0xdc, 2), (0xdd, 4)]

/-- Marker and length of a table. -/
def tableHead : Nat → Bytes :=
  lengthHead (some (0x80, 16)) [(0xde, 2), (0xdf, 4)]

/-- A number without a sign in the given number of octets. -/
def writeUnsigned (size n : Nat) : Bytes :=
  match size with
  | 0 => [UInt8.ofNat n]
  | 1 => 0xcc :: Bytes.bigEndian 1 n
  | 2 => 0xcd :: Bytes.bigEndian 2 n
  | 4 => 0xce :: Bytes.bigEndian 4 n
  | _ => 0xcf :: Bytes.bigEndian 8 n

/-- A number with a sign in the given number of octets. -/
def writeSigned (size : Nat) (n : Int) : Bytes :=
  let low (bits : Nat) : Nat := (n % (1 <<< bits : Nat)).toNat
  match size with
  | 0 => [UInt8.ofNat (low 8)]
  | 1 => 0xd0 :: Bytes.bigEndian 1 (low 8)
  | 2 => 0xd1 :: Bytes.bigEndian 2 (low 16)
  | 4 => 0xd2 :: Bytes.bigEndian 4 (low 32)
  | _ => 0xd3 :: Bytes.bigEndian 8 (low 64)

mutual

/-- The octets of a tree. -/
def write : Datum → Bytes
  | .null | .extension | .unreadable => [0xc0]
  | .boolean b => [if b then 0xc3 else 0xc2]
  | .unsigned size n => writeUnsigned size n
  | .signed size n => writeSigned size n
  | .double x => 0xcb :: Bytes.bigEndian 8 x.bits.toNat
  | .text octets => textHead octets.length ++ octets
  | .binary octets => binaryHead octets.length ++ octets
  | .list items => listHead items.length ++ writeItems items
  | .table entries => tableHead entries.length ++ writeEntries entries

/-- The octets of items, one after the other. -/
def writeItems : List Datum → Bytes
  | [] => []
  | d :: rest => write d ++ writeItems rest

/-- The octets of keys and values in turn. -/
def writeEntries : List (Datum × Datum) → Bytes
  | [] => []
  | (k, v) :: rest => write k ++ write v ++ writeEntries rest

end

/-- The octets of a document. -/
def encode (d : Document) : Bytes :=
  write (tree d)

/-- What a marker and the length after it announce. -/
inductive Head where
  /-- A complete value. -/
  | value (d : Datum)
  /-- Text of so many octets. -/
  | text (length : Nat)
  /-- A byte string of so many octets. -/
  | binary (length : Nat)
  /-- An extension of so many octets, its kind included. -/
  | extension (length : Nat)
  /-- So many items. -/
  | list (length : Nat)
  /-- So many keys, each with its value. -/
  | table (length : Nat)

/-- A number in the next `size` octets. -/
def readNumber (size : Nat) (bytes : Bytes) : Option (Nat × Bytes) :=
  (Bytes.splitAt? size bytes).map fun (front, rest) => (Bytes.ofBigEndian front, rest)

/-- The signed number that so many octets denote. -/
def signedValue (size n : Nat) : Int :=
  if n < 1 <<< (8 * size - 1) then n else (n : Int) - (1 <<< (8 * size) : Nat)

/-- Reads a marker together with the number or length that follows it. -/
def readHead : Bytes → Option (Head × Bytes)
  | [] => none
  | marker :: rest =>
    let m := marker.toNat
    let sized (size : Nat) (head : Nat → Head) : Option (Head × Bytes) :=
      (readNumber size rest).map fun (n, rest) => (head n, rest)
    if m < 0x80 then some (.value (.unsigned 0 m), rest)
    else if m < 0x90 then some (.table (m - 0x80), rest)
    else if m < 0xa0 then some (.list (m - 0x90), rest)
    else if m < 0xc0 then some (.text (m - 0xa0), rest)
    else if 0xe0 ≤ m then some (.value (.signed 0 ((m : Int) - 256)), rest)
    else
      match m with
      | 0xc0 => some (.value .null, rest)
      | 0xc2 => some (.value (.boolean false), rest)
      | 0xc3 => some (.value (.boolean true), rest)
      | 0xc4 => sized 1 .binary
      | 0xc5 => sized 2 .binary
      | 0xc6 => sized 4 .binary
      | 0xc7 => sized 1 fun n => .extension (n + 1)
      | 0xc8 => sized 2 fun n => .extension (n + 1)
      | 0xc9 => sized 4 fun n => .extension (n + 1)
      | 0xca => sized 4 fun n => .value (.double (Double.ofSingleBits (UInt32.ofNat n)))
      | 0xcb => sized 8 fun n => .value (.double ⟨UInt64.ofNat n⟩)
      | 0xcc => sized 1 fun n => .value (.unsigned 1 n)
      | 0xcd => sized 2 fun n => .value (.unsigned 2 n)
      | 0xce => sized 4 fun n => .value (.unsigned 4 n)
      | 0xcf => sized 8 fun n => .value (.unsigned 8 n)
      | 0xd0 => sized 1 fun n => .value (.signed 1 (signedValue 1 n))
      | 0xd1 => sized 2 fun n => .value (.signed 2 (signedValue 2 n))
      | 0xd2 => sized 4 fun n => .value (.signed 4 (signedValue 4 n))
      | 0xd3 => sized 8 fun n => .value (.signed 8 (signedValue 8 n))
      | 0xd4 => some (.extension 2, rest)
      | 0xd5 => some (.extension 3, rest)
      | 0xd6 => some (.extension 5, rest)
      | 0xd7 => some (.extension 9, rest)
      | 0xd8 => some (.extension 17, rest)
      | 0xd9 => sized 1 .text
      | 0xda => sized 2 .text
      | 0xdb => sized 4 .text
      | 0xdc => sized 2 .list
      | 0xdd => sized 4 .list
      | 0xde => sized 2 .table
      | 0xdf => sized 4 .table
      | _ => none

/-- A function that reads one value from the front of a byte string. -/
abbrev ValueReader := Bytes → Option (Datum × Bytes)

/-- Reads so many items. -/
def readItems (item : ValueReader) : Nat → Bytes → Option (List Datum × Bytes)
  | 0, bytes => some ([], bytes)
  | n + 1, bytes => do
    let (d, bytes) ← item bytes
    let (ds, bytes) ← readItems item n bytes
    return (d :: ds, bytes)

/-- Reads so many keys, each with its value. -/
def readEntries (item : ValueReader) : Nat → Bytes → Option (List (Datum × Datum) × Bytes)
  | 0, bytes => some ([], bytes)
  | n + 1, bytes => do
    let (k, bytes) ← item bytes
    let (v, bytes) ← item bytes
    let (rest, bytes) ← readEntries item n bytes
    return ((k, v) :: rest, bytes)

/-- Reads one value, whose items, keys and values are read by `inner`. Without that there are no lists
and no tables. -/
def readValue (inner : Option ValueReader) : ValueReader := fun bytes => do
  let (head, bytes) ← readHead bytes
  match head, inner with
  | .value d, _ => return (d, bytes)
  | .text n, _ =>
    let (octets, bytes) ← Bytes.splitAt? n bytes
    return (.text octets, bytes)
  | .binary n, _ =>
    let (octets, bytes) ← Bytes.splitAt? n bytes
    return (.binary octets, bytes)
  | .extension n, _ =>
    let (_, bytes) ← Bytes.splitAt? n bytes
    return (.extension, bytes)
  | .list n, some item =>
    let (items, bytes) ← readItems item n bytes
    return (.list items, bytes)
  | .table n, some item =>
    let (entries, bytes) ← readEntries item n bytes
    return (.table entries, bytes)
  | .list _, none => none
  | .table _, none => none

/-- Reads one value whose lists and tables are nested no deeper than `depth`. -/
def readWithin : (depth : Nat) → ValueReader
  | 0 => readValue none
  | depth + 1 => readValue (some (readWithin depth))

/-- Reads one value; answers what follows it as well. -/
def read : ValueReader :=
  readWithin maxDepth

/-- The value at the front of a byte string, which may be followed by anything. -/
def decode {α : Type} (ofDatum : Datum → Option α) (bytes : Bytes) : Option α := do
  let (d, _) ← read bytes
  ofDatum d

end ContentTree.MessagePack
