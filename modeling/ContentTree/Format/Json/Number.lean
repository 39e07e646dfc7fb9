import ContentTree.Format.Datum

/-!
# Numbers in JSON text

A numeral is cut into whole digits, fraction and exponent (`Numeral`), and `Numeral.datum` says what
it denotes. A numeral of whole digits that fits 64 bits is a whole number. Any other is a
floating-point number: as many digits as 64 bits hold, times or divided by a power of ten, each step
rounded. A numeral beyond the largest finite number denotes nothing.
-/

namespace ContentTree.Json

/-- A numeral in its parts. -/
structure Numeral where
  negative : Bool
  whole : List Char
  /-- Digits after the point, if there is one. -/
  fraction : Option (List Char)
  /-- Whether the exponent is negative, and its digits, if there is one. -/
  exponent : Option (Bool × List Char)
  deriving DecidableEq, Repr

/-- The longest run of digits at the front, which is not empty, and what follows it. -/
def takeDigits? (s : List Char) : Option (List Char × List Char) :=
  match s.takeWhile Char.isDigit with
  | [] => none
  | digits => some (digits, s.dropWhile Char.isDigit)

/-- The digits after a point, if a point comes next. -/
def takeFraction? : List Char → Option (Option (List Char) × List Char)
  | '.' :: rest => do
    let (digits, rest) ← takeDigits? rest
    return (some digits, rest)
  | s => some (none, s)

/-- A sign of an exponent: whether it is negative, and what follows. -/
def takeSign : List Char → Bool × List Char
  | '-' :: rest => (true, rest)
  | '+' :: rest => (false, rest)
  | s => (false, s)

/-- The exponent, if one comes next. -/
def takeExponent? : List Char → Option (Option (Bool × List Char) × List Char)
  | 'e' :: rest | 'E' :: rest => do
    let (negative, rest) := takeSign rest
    let (digits, rest) ← takeDigits? rest
    return (some (negative, digits), rest)
  | s => some (none, s)

/-- Reads a numeral after its sign. A zero stands alone in front of the point. -/
def readNumeral (negative : Bool) (s : List Char) : Option (Numeral × List Char) := do
  let (whole, s) ← takeDigits? s
  if whole.head? = some '0' ∧ 1 < whole.length then none
  else
    let (fraction, s) ← takeFraction? s
    let (exponent, s) ← takeExponent? s
    return (⟨negative, whole, fraction, exponent⟩, s)

/-- The number that a digit stands for. -/
def digitValue (c : Char) : Nat :=
  c.toNat - '0'.toNat

/-- The number that digits denote. -/
def digitsValue (digits : List Char) : Nat :=
  digits.foldl (fun n c => 10 * n + digitValue c) 0

/-- Takes digits into a significand while it fits 64 bits; answers how many are left. -/
def absorb : Nat → List Char → Nat × Nat
  | n, [] => (n, 0)
  | n, c :: rest =>
    let next := 10 * n + digitValue c
    if next < 1 <<< 64 then absorb next rest else (n, rest.length + 1)

/-- The number nearest to a power of ten. -/
def powerOfTen (n : Nat) : Double :=
  Double.ofRatio false (Nat.pow 10 n) 1

/-- The largest power of ten that is used in one step. -/
def maxPower : Nat := 308

/-- A magnitude times a power of ten, in at most `steps` further divisions by the largest power;
`none` if the result is too large. -/
def scale : (steps : Nat) → Double → Int → Option Double
  | steps, f, exponent =>
    if exponent.natAbs ≤ maxPower then
      if 0 ≤ exponent then
        let product := f.mulMagnitude (powerOfTen exponent.natAbs)
        if product.isFinite then some product else none
      else some (f.divMagnitude (powerOfTen exponent.natAbs))
    else if f.isZero then some f
    else if 0 ≤ exponent then none
    else
      match steps with
      | 0 => some (Double.ofInt 0)
      | steps + 1 => scale steps (f.divMagnitude (powerOfTen maxPower)) (exponent + maxPower)

/-- The largest exponent that is taken at its value. -/
def maxExponent : Nat := 0x7fffffff

/-- The magnitude of a significand times powers of ten; `none` if it is too large. A significand of
64 bits is zero after two divisions by the largest power. -/
def magnitude (significand : Nat) (shift : Int) (exponent : Option (Bool × List Char)) :
    Option Double :=
  match exponent with
  | none => scale 3 (Double.ofInt significand) shift
  | some (negative, digits) =>
    let e := digitsValue digits
    if maxExponent < e then
      if significand ≠ 0 ∧ !negative then none else some (Double.ofInt 0)
    else scale 3 (Double.ofInt significand) (if negative then shift - e else shift + e)

/-- What a numeral denotes. Zero with a minus sign is a floating-point number, and so is a negative
number below the range of 64 bits. -/
def Numeral.datum (n : Numeral) : Datum :=
  let (whole, dropped) := absorb 0 n.whole
  let signed (magnitude : Double) : Datum :=
    .double (if n.negative then magnitude.negate else magnitude)
  if dropped = 0 ∧ n.fraction.isNone ∧ n.exponent.isNone then
    if !n.negative then .unsigned 8 whole
    else if whole = 0 ∨ 1 <<< 63 < whole then signed (Double.ofInt whole)
    else .signed 8 (-(whole : Int))
  else
    let fraction := n.fraction.getD []
    let (significand, ignored) := absorb whole fraction
    let shift : Int := dropped - (fraction.length - ignored : Nat)
    match magnitude significand shift n.exponent with
    | some m => signed m
    | none => .unreadable

end ContentTree.Json
