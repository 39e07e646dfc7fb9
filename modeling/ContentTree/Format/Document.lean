import ContentTree.Decimal.Double
import ContentTree.Bytes

/-!
# Documents

What a value says when it is written, apart from any format: records with named fields in a fixed
order, alternatives by name, lists and scalars. A format decides how these look (`MessagePack`
writes a record as a list, `Json` as an object).
-/

namespace ContentTree

/-- The content of a value to be written. -/
inductive Document where
  | null
  | boolean (flag : Bool)
  | integer (number : Int)
  | double (number : Double)
  | text (text : String)
  | list (items : List Document)
  /-- Named fields in the order of their declaration. -/
  | record (fields : List (String × Document))
  /-- An alternative without content. -/
  | tag (name : String)
  /-- An alternative with content. -/
  | variant (name : String) (content : Document)
  deriving Inhabited

namespace Document

/-- A whole number that is not negative. -/
def natural (n : Nat) : Document :=
  integer n

/-- Octets, as the list of their numbers. -/
def octets (bytes : Bytes) : Document :=
  list (bytes.map fun b => natural b.toNat)

/-- A value that may be missing. -/
def optional {α : Type} (f : α → Document) : Option α → Document
  | none => null
  | some a => f a

end Document

end ContentTree
