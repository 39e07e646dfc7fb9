/-!
# Double-precision numbers

Floating-point numbers of 64 bits, kept as their bits so that statements about them are statements
about whole numbers. A finite number is `significand · 2 ^ exponent`. `ofRatio` rounds an exact
quotient to the nearest number, a tie to the even neighbour.
-/

namespace ContentTree

/-- A floating-point number of 64 bits: sign, 11 bits of exponent, 52 bits of fraction. -/
structure Double where
  bits : UInt64
  deriving DecidableEq, Repr, Inhabited

namespace Double

/-- Distance of the least significant bit of every number below the smallest normal one. -/
def minExponent : Int := -1074

/-- Exponent of the largest finite numbers. -/
def maxExponent : Int := 971

/-- The leading bit of a normal significand, which the fraction leaves out: two to the 52nd. -/
def hiddenBit : Nat := 0x10000000000000

/-- The sign bit. -/
def isNegative (d : Double) : Bool :=
  d.bits.toNat >>> 63 = 1

/-- The 11 bits between sign and fraction. -/
def exponentField (d : Double) : Nat :=
  d.bits.toNat >>> 52 % 2048

/-- The 52 low bits. -/
def fraction (d : Double) : Nat :=
  d.bits.toNat % hiddenBit

/-- Neither infinite nor not-a-number. -/
def isFinite (d : Double) : Bool :=
  d.exponentField ≠ 2047

/-- Not a number. -/
def isNaN (d : Double) : Bool :=
  d.exponentField = 2047 ∧ d.fraction ≠ 0

/-- Zero of either sign. -/
def isZero (d : Double) : Bool :=
  d.exponentField = 0 ∧ d.fraction = 0

/-- The whole number `m` in `m · 2 ^ exponent` for a finite magnitude. -/
def significand (d : Double) : Nat :=
  if d.exponentField = 0 then d.fraction else hiddenBit + d.fraction

/-- The power of two that goes with `significand`. -/
def exponent (d : Double) : Int :=
  if d.exponentField = 0 then minExponent else (d.exponentField : Int) - 1075

/-- Numeric equality: not-a-number equals nothing, and the two zeros are equal. -/
def equals (a b : Double) : Bool :=
  !a.isNaN && !b.isNaN && ((a.isZero && b.isZero) || a.bits == b.bits)

/-- The number with the given sign, exponent field and fraction. -/
def assemble (negative : Bool) (field fraction : Nat) : Double :=
  ⟨UInt64.ofNat ((if negative then 1 <<< 63 else 0) + field <<< 52 + fraction)⟩

/-- Infinity of the given sign. -/
def infinity (negative : Bool) : Double :=
  assemble negative 2047 0

/-- The quotient rounded to a whole number, a tie to the even one; `0 < den`. -/
def roundQuotient (num den : Nat) : Nat :=
  let q := num / den
  let r := num % den
  if 2 * r < den then q
  else if den < 2 * r then q + 1
  else if q % 2 = 0 then q else q + 1

/-- The quotient `num / (den · 2 ^ e)` rounded to a whole number. -/
def roundScaled (num den : Nat) (e : Int) : Nat :=
  if 0 ≤ e then roundQuotient num (den <<< e.toNat) else roundQuotient (num <<< (-e).toNat) den

/-- The whole part of `num / (den · 2 ^ e)`. -/
def floorScaled (num den : Nat) (e : Int) : Nat :=
  if 0 ≤ e then num / (den <<< e.toNat) else (num <<< (-e).toNat) / den

/-- The exponent at which `num / den` has 53 bits before the point, no smaller than the least one. -/
def exponentOfRatio (num den : Nat) : Int :=
  let guess : Int := (Nat.log2 num : Int) - (Nat.log2 den : Int) - 52
  let e := if floorScaled num den guess < hiddenBit then guess - 1 else guess
  max e minExponent

/-- The number nearest to `num / den`, with the given sign; infinity if that is too large. -/
def ofRatio (negative : Bool) (num den : Nat) : Double :=
  if num = 0 ∨ den = 0 then assemble negative 0 0
  else
    let e := exponentOfRatio num den
    let m := roundScaled num den e
    -- Rounding up may reach the next power of two.
    let (m, e) := if m = 2 * hiddenBit then (hiddenBit, e + 1) else (m, e)
    if maxExponent < e then infinity negative
    else if m < hiddenBit then assemble negative 0 m
    else assemble negative (e + 1075).toNat (m - hiddenBit)

/-- The number nearest to a whole number. -/
def ofInt (n : Int) : Double :=
  ofRatio (n < 0) n.natAbs 1

/-- A finite magnitude as an exact quotient. -/
def ratio (d : Double) : Nat × Nat :=
  if 0 ≤ d.exponent then (d.significand <<< d.exponent.toNat, 1)
  else (d.significand, 1 <<< (-d.exponent).toNat)

/-- Product of two finite magnitudes, rounded. -/
def mulMagnitude (a b : Double) : Double :=
  ofRatio false (a.ratio.1 * b.ratio.1) (a.ratio.2 * b.ratio.2)

/-- Quotient of two finite magnitudes, rounded; the divisor is not zero. -/
def divMagnitude (a b : Double) : Double :=
  ofRatio false (a.ratio.1 * b.ratio.2) (a.ratio.2 * b.ratio.1)

/-- The opposite number. -/
def negate (d : Double) : Double :=
  ⟨d.bits ^^^ 0x8000000000000000⟩

/-- The number of 64 bits with the value of one of 32 bits; not-a-number keeps its leading fraction
bits and becomes quiet. -/
def ofSingleBits (bits : UInt32) : Double :=
  let n := bits.toNat
  let negative := n >>> 31 = 1
  let field := n >>> 23 % 256
  let fraction := n % (1 <<< 23)
  if field = 255 then
    if fraction = 0 then infinity negative
    else assemble negative 2047 (1 <<< 51 + (fraction % (1 <<< 22)) <<< 29)
  else if field = 0 then ofRatio negative fraction (1 <<< 149)
  else assemble negative (field + 896) (fraction <<< 29)

end Double

end ContentTree
