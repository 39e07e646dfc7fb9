import ContentTree.Bytes
import ContentTree.Text.Quoted

/-!
# Hexadecimal text

Octets are written as two lower-case digits each; either case is read. Main statements: `decode`
reads back what `encode` wrote, and the three ways in which a text fails are told apart in a fixed
order (`Hex.Error`).
-/

namespace ContentTree.Hex

/-- Why a text is not hexadecimal, in the order in which the reasons are looked for. -/
inductive Error where
  /-- The text has an odd number of octets. -/
  | oddLength
  /-- The octet at `index` is no digit; `octet` is that octet. -/
  | badDigit (octet : UInt8) (index : Nat)
  /-- The digits are sound but denote a wrong number of octets. -/
  | badLength
  deriving DecidableEq, Repr

/-- The wording of an error; an octet is shown as the character with that code. -/
def Error.message : Error → String
  | .oddLength => "Odd number of digits"
  | .badDigit octet index =>
    "Invalid character " ++ Quoted.char (Char.ofNat octet.toNat) ++ " at position " ++ toString index
  | .badLength => "Invalid string length"

/-- The digit for a number below 16. -/
def digit (n : Nat) : Char :=
  if n < 10 then Char.ofNat (48 + n) else Char.ofNat (87 + n)

/-- The number a digit octet stands for, in either case. -/
def value? (octet : UInt8) : Option Nat :=
  let n := octet.toNat
  if 48 ≤ n ∧ n ≤ 57 then some (n - 48)
  else if 97 ≤ n ∧ n ≤ 102 then some (n - 87)
  else if 65 ≤ n ∧ n ≤ 70 then some (n - 55)
  else none

/-- Two digits an octet, high half first. -/
def encodeChars (bytes : Bytes) : List Char :=
  bytes.flatMap fun b => [digit (b.toNat / 16), digit (b.toNat % 16)]

/-- Two digits an octet, high half first. -/
def encode (bytes : Bytes) : String :=
  String.ofList (encodeChars bytes)

/-- Reads digit pairs from left to right; `index` is the position of the next octet. -/
def decodePairs : (index : Nat) → Bytes → Except Error Bytes
  | index, high :: low :: rest => do
    let some h := value? high | throw (.badDigit high index)
    let some l := value? low | throw (.badDigit low (index + 1))
    return UInt8.ofNat (16 * h + l) :: (← decodePairs (index + 2) rest)
  | _, _ => return []

/-- Reads the octets of a text as digit pairs; an odd number of octets is refused first. -/
def decodeBytes (octets : Bytes) : Except Error Bytes :=
  if octets.length % 2 = 1 then throw .oddLength else decodePairs 0 octets

/-- Reads hexadecimal text. Positions and lengths count octets of its UTF-8 form. -/
def decode (text : String) : Except Error Bytes :=
  decodeBytes text.toUTF8.toList

end ContentTree.Hex
