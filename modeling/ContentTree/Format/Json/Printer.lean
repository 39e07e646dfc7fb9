import ContentTree.Decimal.Shortest
import ContentTree.Format.Document

/-!
# Writing JSON text

A document as JSON text without blanks: a record is an object with its fields in order, an
alternative its name, or an object with the name as its only key. Floating-point numbers have the
fewest digits that read back, and one that is not finite is `null`.
-/

namespace ContentTree.Json

/-- A character inside a string: short escapes, `\u00…` for other control characters, all else as
it is. -/
def escape (c : Char) : List Char :=
  match c with
  | '"' => ['\\', '"']
  | '\\' => ['\\', '\\']
  | '\x08' => ['\\', 'b']
  | '\x0c' => ['\\', 'f']
  | '\n' => ['\\', 'n']
  | '\r' => ['\\', 'r']
  | '\t' => ['\\', 't']
  | c =>
    if c.toNat < 0x20 then
      ['\\', 'u', '0', '0', Nat.digitChar (c.toNat / 16), Nat.digitChar (c.toNat % 16)]
    else [c]

/-- A text in double quotes. -/
def quote (s : String) : String :=
  String.ofList ('"' :: s.toList.flatMap escape ++ ['"'])

/-- So many zeros. -/
def zeros (n : Nat) : String :=
  String.ofList (List.replicate n '0')

/-- The text of a decimal that is not zero. Positional notation is used when the first digit stands
at most 16 places before the point or at most 5 after it; otherwise the exponent has its sign. -/
def decimal (d : Shortest.Decimal) : String :=
  let digits := toString d.digits
  let length : Int := digits.length
  let point := length + d.exponent
  if 0 ≤ d.exponent ∧ point ≤ 16 then digits ++ zeros d.exponent.toNat ++ ".0"
  else if 0 < point ∧ point ≤ 16 then
    String.ofList (digits.toList.take point.toNat) ++ "."
      ++ String.ofList (digits.toList.drop point.toNat)
  else if -5 < point ∧ point ≤ 0 then "0." ++ zeros (-point).toNat ++ digits
  else
    let rest := digits.toList.drop 1
    String.ofList (digits.toList.take 1) ++ (if rest.isEmpty then "" else "." ++ String.ofList rest)
      ++ "e" ++ (if 1 < point then "+" else "") ++ toString (point - 1)

/-- The text of a floating-point number. -/
def double (x : Double) : String :=
  if !x.isFinite then "null"
  else
    (if x.isNegative then "-" else "")
      ++ if x.isZero then "0.0" else decimal (Shortest.ofDouble x)

mutual

/-- The text of a document. -/
def print : Document → String
  | .null => "null"
  | .boolean b => if b then "true" else "false"
  | .integer n => toString n
  | .double x => double x
  | .text s => quote s
  | .list items => "[" ++ ",".intercalate (printItems items) ++ "]"
  | .record fields => "\x7b" ++ ",".intercalate (printFields fields) ++ "\x7d"
  | .tag name => quote name
  | .variant name content => "\x7b" ++ quote name ++ ":" ++ print content ++ "\x7d"

/-- The texts of items. -/
def printItems : List Document → List String
  | [] => []
  | d :: rest => print d :: printItems rest

/-- The texts of fields, each with its name. -/
def printFields : List (String × Document) → List String
  | [] => []
  | (name, d) :: rest => (quote name ++ ":" ++ print d) :: printFields rest

end

end ContentTree.Json
