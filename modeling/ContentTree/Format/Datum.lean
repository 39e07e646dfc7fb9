import ContentTree.Decimal.Double
import ContentTree.Bytes

/-!
# Data

What a reader finds in a text or a byte string: a tree of scalars, lists and tables, without the
names that a record or an alternative gives to its parts. The functions of this module look for a
number, a text, a record or an alternative in such a tree, and answer `none` when it is not there.

A record may stand as a table with its fields in any order or as a list of them in the declared
order; what a table holds besides is skipped, if it is not nested too deep. An alternative stands as
its name, or as a table with the name as its only key.
-/

namespace ContentTree

/-- A tree as a reader finds it. -/
inductive Datum where
  | null
  | boolean (flag : Bool)
  /-- A whole number written without a sign in `size` octets, or within its marker if `size` is 0. -/
  | unsigned (size number : Nat)
  /-- A whole number written with a sign in `size` octets, or within its marker if `size` is 0. -/
  | signed (size : Nat) (number : Int)
  | double (number : Double)
  /-- Text by its octets, which need not be sound. -/
  | text (octets : Bytes)
  | binary (octets : Bytes)
  | list (items : List Datum)
  | table (entries : List (Datum × Datum))
  /-- A value of some application's own kind. -/
  | extension
  /-- A well-formed literal that stands for no value. -/
  | unreadable
  deriving Inhabited

/-- What a format allows beyond the common rules. -/
structure Dialect where
  /-- A name may be given by its number in the order of declaration. -/
  namesByNumber : Bool
  /-- Sizes of unsigned numbers that count as names. -/
  nameSizes : List Nat
  /-- A byte string may stand for the list of its octets. -/
  octetsAsList : Bool
  /-- How deep lists and tables may still be nested, if there is a limit. A table that only names an
  alternative does not count. -/
  levels : Option Nat
  deriving DecidableEq, Repr

namespace Dialect

/-- The deepest nesting of lists and tables in a binary form. -/
def maxLevels : Nat := 1023

/-- Names are texts. -/
def textual : Dialect := ⟨false, [], false, none⟩

/-- Names are texts or numbers. -/
def binary : Dialect := ⟨true, [0, 1, 2, 4, 8], true, some maxLevels⟩

/-- Names inside a value that was kept before its kind was known. -/
def kept : Dialect := ⟨true, [0, 1, 8], false, none⟩

/-- What is allowed inside a list or a table. -/
def deeper (d : Dialect) : Dialect :=
  { d with levels := d.levels.map (· - 1) }

end Dialect

namespace Datum

/-- Sound octets as text. -/
def decodeText (octets : Bytes) : Option String :=
  String.fromUTF8? ⟨octets.toArray⟩

/-- Text, or octets that are sound as text. -/
def text? : Datum → Option String
  | text octets | binary octets => decodeText octets
  | _ => none

/-- A truth value. -/
def boolean? : Datum → Option Bool
  | boolean b => some b
  | _ => none

/-- A whole number. -/
def integer? : Datum → Option Int
  | unsigned _ n => some n
  | signed _ n => some n
  | _ => none

/-- A whole number from 0 to `bound`. -/
def natural? (bound : Nat) (d : Datum) : Option Nat := do
  let n ← d.integer?
  if 0 ≤ n ∧ n ≤ bound then some n.toNat else none

/-- A whole number of 64 bits with a sign. -/
def int64? (d : Datum) : Option Int64 := do
  let n ← d.integer?
  if -0x8000000000000000 ≤ n ∧ n < 0x8000000000000000 then some (Int64.ofInt n) else none

/-- A floating-point number; a whole number counts as the nearest one. -/
def double? : Datum → Option Double
  | double x => some x
  | unsigned _ n => some (Double.ofInt n)
  | signed _ n => some (Double.ofInt n)
  | _ => none

/-- The items of a list. -/
def items? (dialect : Dialect) : Datum → Option (List Datum)
  | list items => some items
  | binary octets =>
    if dialect.octetsAsList then some (octets.map fun b => unsigned 1 b.toNat) else none
  | _ => none

/-- A list whose items are all found by `f`. -/
def listOf? {α : Type} (dialect : Dialect) (f : Datum → Option α) (d : Datum) :
    Option (List α) := do
  (← d.items? dialect).mapM f

/-- A value that is missing if there is `null`. -/
def optional? {α : Type} (f : Datum → Option α) : Datum → Option (Option α)
  | null => some none
  | d => (f d).map some

/-- Octets as a list of numbers below 256. -/
def octets? (dialect : Dialect) (d : Datum) : Option Bytes :=
  d.listOf? dialect fun d => (d.natural? 255).map UInt8.ofNat

/-- So many octets. A list holds no others, while a byte string may go on. -/
def octetsOf? (dialect : Dialect) (size : Nat) (d : Datum) : Option Bytes := do
  let octets ← d.octets? dialect
  match d with
  | binary _ => if size ≤ octets.length then some (octets.take size) else none
  | _ => if octets.length = size then some octets else none

mutual

/-- The number of lists and tables around the innermost value. A value of some application's own
kind counts as one of them. -/
def depth : Datum → Nat
  | list items => listDepth items + 1
  | table entries => tableDepth entries + 1
  | extension => 1
  | _ => 0

/-- The largest depth among items. -/
def listDepth : List Datum → Nat
  | [] => 0
  | d :: rest => max d.depth (listDepth rest)

/-- The largest depth among keys and values. -/
def tableDepth : List (Datum × Datum) → Nat
  | [] => 0
  | (k, v) :: rest => max (max k.depth v.depth) (tableDepth rest)

end

/-- The nesting stays within what is allowed. -/
def fits (d : Datum) (dialect : Dialect) : Bool :=
  dialect.levels.all (d.depth ≤ ·)

/-- What a key or a tag names among the declared names. -/
inductive Naming where
  /-- The declared name with this number. -/
  | known (index : Nat)
  /-- Some other name. -/
  | unknown
  /-- No name at all. -/
  | invalid
  deriving DecidableEq, Repr

/-- The number of a name among the declared ones. -/
def nameIndex? (names : List String) (octets : Bytes) : Option Nat :=
  names.findIdx? fun n => n.toUTF8.toList = octets

/-- What a datum names. -/
def naming (dialect : Dialect) (names : List String) : Datum → Naming
  | text octets | binary octets =>
    match nameIndex? names octets with
    | some i => .known i
    | none => .unknown
  | unsigned size n =>
    if dialect.namesByNumber ∧ size ∈ dialect.nameSizes then
      if n < names.length then .known n else .unknown
    else .invalid
  | _ => .invalid

/-- The fields found of a record. -/
structure Fields where
  /-- What is allowed inside the record. -/
  inner : Dialect
  /-- One entry a declared name. -/
  found : List (Option Datum)
  /-- The record stood as a list, where a field that may be missing still needs its place. -/
  positional : Bool

namespace Fields

/-- The datum of a field, if there is one. -/
def get? (f : Fields) (index : Nat) : Option Datum :=
  f.found.getD index none

/-- A field that has to be there. -/
def required {α : Type} (f : Fields) (index : Nat) (read : Datum → Option α) : Option α := do
  read (← f.get? index)

/-- A field that is missing if it holds `null`, or if a table leaves it out. -/
def optional {α : Type} (f : Fields) (index : Nat) (read : Datum → Option α) :
    Option (Option α) :=
  match f.get? index with
  | some d => d.optional? read
  | none => if f.positional then none else some none

/-- A field with a value of its own when it is left out. -/
def defaulted {α : Type} (f : Fields) (index : Nat) (missing : α) (read : Datum → Option α) :
    Option α :=
  match f.get? index with
  | some d => read d
  | none => some missing

end Fields

/-- The fields of a table; a field given twice, a key that is no name, or a skipped value that is
nested too deep spoils it. `strict` refuses names that are not declared. -/
def tableFields (dialect : Dialect) (strict : Bool) (names : List String) :
    List (Datum × Datum) → List (Option Datum) → Option (List (Option Datum))
  | [], found => some found
  | (key, value) :: rest, found =>
    match naming dialect names key with
    | .known i =>
      if (found.getD i none).isSome then none
      else tableFields dialect strict names rest (found.set i (some value))
    | .unknown =>
      if strict ∨ !value.fits dialect then none
      else tableFields dialect strict names rest found
    | .invalid => none

/-- The fields of a record that stands as a table, or as a list with no more items than fields. -/
def recordWith? (dialect : Dialect) (strict : Bool) (names : List String) : Datum → Option Fields
  | list items =>
    if items.length ≤ names.length then
      some ⟨dialect.deeper, items.map some ++ List.replicate (names.length - items.length) none, true⟩
    else none
  | table entries =>
    (tableFields dialect.deeper strict names entries (List.replicate names.length none)).map
      (⟨dialect.deeper, ·, false⟩)
  | _ => none

/-- The fields of a record whose table may hold other names besides. -/
def record? (dialect : Dialect) (names : List String) (d : Datum) : Option Fields :=
  d.recordWith? dialect false names

/-- The number of an alternative, and its content if it has some. -/
def variant? (dialect : Dialect) (names : List String) : Datum → Option (Nat × Option Datum)
  | table [(key, content)] =>
    match naming dialect names key with
    | .known i => some (i, some content)
    | _ => none
  | table _ => none
  | d =>
    match naming dialect names d with
    | .known i => some (i, none)
    | _ => none

/-- The number of an alternative that has no content; `null` may stand for none. -/
def tag? (dialect : Dialect) (names : List String) (d : Datum) : Option Nat :=
  match d.variant? dialect names with
  | some (i, none) => some i
  | some (i, some null) => some i
  | _ => none

mutual

/-- Every literal in the tree stands for a value. -/
def isReadable : Datum → Bool
  | unreadable => false
  | list items => allReadable items
  | table entries => tableReadable entries
  | _ => true

/-- Every item is readable. -/
def allReadable : List Datum → Bool
  | [] => true
  | d :: rest => d.isReadable && allReadable rest

/-- Every key and value is readable. -/
def tableReadable : List (Datum × Datum) → Bool
  | [] => true
  | (k, v) :: rest => k.isReadable && v.isReadable && tableReadable rest

end

end Datum

end ContentTree
