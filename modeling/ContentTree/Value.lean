import ContentTree.Decimal.Double
import ContentTree.Identity

/-!
# Property values

The values a property can hold, and the type that each carries. A time is a number of microseconds.
-/

namespace ContentTree

/-- Declared type of a property; `undefined` stands for any. -/
inductive PropertyType where
  | undefined
  | string
  | binary
  | long
  | double
  | date
  | boolean
  | name
  | reference
  deriving DecidableEq, Repr, Inhabited

/-- A single value of a property. -/
inductive Value where
  | string (text : String)
  | name (name : Name)
  /-- A reference to a node. -/
  | reference (target : NodeId)
  | long (number : Int64)
  | double (number : Double)
  | boolean (flag : Bool)
  /-- Microseconds since the start of 1970. -/
  | date (microseconds : Int64)
  | binary (bytes : Bytes)
  deriving DecidableEq, Repr

namespace Value

/-- The property type a value carries. -/
def type : Value → PropertyType
  | string _ => .string
  | name _ => .name
  | reference _ => .reference
  | long _ => .long
  | double _ => .double
  | boolean _ => .boolean
  | date _ => .date
  | binary _ => .binary

/-- The target, if the value is a reference. -/
def target? : Value → Option NodeId
  | reference id => some id
  | _ => none

/-- Equality of values; doubles are compared as numbers, so not-a-number differs from itself. -/
def equals : Value → Value → Bool
  | double a, double b => a.equals b
  | a, b => a == b

/-- Diagnostic form: the kind and the content in parentheses. Doubles have none. -/
def debug? : Value → Option String
  | string s => some ("String(" ++ Quoted.text s ++ ")")
  | name n => some ("Name(" ++ Quoted.text n.text ++ ")")
  | reference id => some ("Reference(" ++ id.debug ++ ")")
  | long n => some ("Long(" ++ toString n.toInt ++ ")")
  | double _ => none
  | boolean b => some ("Boolean(" ++ (if b then "true" else "false") ++ ")")
  | date t => some ("Date(Timestamp(" ++ toString t.toInt ++ "))")
  | binary bytes =>
    some ("Binary([" ++ ", ".intercalate (bytes.map fun b => toString b.toNat) ++ "])")

end Value

end ContentTree
