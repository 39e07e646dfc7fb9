import ContentTree.Format.Json.Printer
import ContentTree.Format.Json.Reader
import ContentTree.Format.MessagePack

/-!
# Portable types

A type is portable if its values can be said as documents and found again in what a reader answers.
Each such type has a binary form and a text form.
-/

namespace ContentTree

/-- Types whose values can be written and read. -/
class Portable (α : Type) where
  /-- What a value says. -/
  document : α → Document
  /-- The value that a tree stands for. -/
  ofDatum? : Dialect → Datum → Option α

namespace Portable

variable {α : Type} [Portable α]

/-- The binary form of a value. -/
def toBytes (a : α) : Bytes :=
  MessagePack.encode (document a)

/-- The value whose binary form is at the front of a byte string. -/
def ofBytes? (bytes : Bytes) : Option α :=
  MessagePack.decode (ofDatum? .binary) bytes

/-- The text form of a value. -/
def toJson (a : α) : String :=
  Json.print (document a)

/-- The value that a whole text stands for. -/
def ofJson? (text : String) : Option α :=
  Json.decode (ofDatum? .textual) text

/-- Values in a list. -/
def listDocument (as : List α) : Document :=
  .list (as.map document)

/-- A list of values. -/
def listOfDatum? (dialect : Dialect) (d : Datum) : Option (List α) :=
  d.listOf? dialect (ofDatum? dialect.deeper)

/-- A value that may be missing. -/
def optionDocument (a : Option α) : Document :=
  Document.optional document a

end Portable

/-- The largest number of 64 bits. -/
def maxUInt64 : Nat := 0xffffffffffffffff

/-- The largest number of 32 bits. -/
def maxUInt32 : Nat := 0xffffffff

end ContentTree
