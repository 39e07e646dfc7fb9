import ContentTree.Encoding.Identity

/-!
# Written forms of values

A value stands under the name of its type. Octets are a list of numbers.
-/

namespace ContentTree

namespace PropertyType

/-- The word for a type. -/
def word : PropertyType → String
  | undefined => "Undefined"
  | string => "String"
  | binary => "Binary"
  | long => "Long"
  | double => "Double"
  | date => "Date"
  | boolean => "Boolean"
  | name => "Name"
  | reference => "Reference"

/-- All types in the order of their declaration. -/
def all : List PropertyType :=
  [undefined, string, binary, long, double, date, boolean, name, reference]

/-- The type of a word. -/
def ofWord? (word : String) : Option PropertyType :=
  all.find? fun t => t.word = word

end PropertyType

instance : Portable PropertyType where
  document t := .tag t.word
  ofDatum? dialect d := do
    PropertyType.all[← d.tag? dialect (PropertyType.all.map PropertyType.word)]?

instance : Portable Value where
  document
    | .string s => .variant "String" (.text s)
    | .name n => .variant "Name" (Portable.document n)
    | .reference id => .variant "Reference" (Portable.document id)
    | .long n => .variant "Long" (.integer n.toInt)
    | .double x => .variant "Double" (.double x)
    | .boolean b => .variant "Boolean" (.boolean b)
    | .date t => .variant "Date" (.integer t.toInt)
    | .binary bytes => .variant "Binary" (.octets bytes)
  ofDatum? dialect d := do
    let names :=
      ["String", "Name", "Reference", "Long", "Double", "Boolean", "Date", "Binary"]
    match ← d.variant? dialect names with
    | (0, some content) => content.text?.map Value.string
    | (1, some content) => (Portable.ofDatum? dialect content).map Value.name
    | (2, some content) => (Portable.ofDatum? dialect content).map Value.reference
    | (3, some content) => content.int64?.map Value.long
    | (4, some content) => content.double?.map Value.double
    | (5, some content) => content.boolean?.map Value.boolean
    | (6, some content) => content.int64?.map Value.date
    | (7, some content) => (content.octets? dialect).map Value.binary
    | _ => none

end ContentTree
