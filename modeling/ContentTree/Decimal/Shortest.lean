import ContentTree.Decimal.Double

/-!
# Shortest decimal digits

The fewest decimal digits that denote a floating-point number among all others: of the grids with
1, 2, … 17 digits the first that has a point in the interval of reals that round to the number, and
of two such points the nearer one, the even one if both are equally near.
-/

namespace ContentTree.Shortest

/-- A decimal number `digits · 10 ^ exponent`. -/
structure Decimal where
  digits : Nat
  exponent : Int
  deriving DecidableEq, Repr

/-- The reals that round to a number, as quotients over one denominator: the number itself and the
two ends, which belong to the interval iff the significand is even. -/
structure Interval where
  low : Nat
  value : Nat
  high : Nat
  denominator : Nat
  closed : Bool
  deriving DecidableEq, Repr

/-- The interval around the magnitude of a finite number that is not zero. Below a power of two the
gap is half as wide. -/
def interval (d : Double) : Interval :=
  let m := d.significand
  let below := if m = Double.hiddenBit ∧ 1 < d.exponentField then 1 else 2
  let e := d.exponent - 2
  let scale := if 0 ≤ e then 1 <<< e.toNat else 1
  { low := (4 * m - below) * scale
    value := 4 * m * scale
    high := (4 * m + 2) * scale
    denominator := if 0 ≤ e then 1 else 1 <<< (-e).toNat
    closed := m % 2 = 0 }

/-- The point `digits · 10 ^ exponent` as a numerator over `denominator · 10 ^ lift`, together with
the factor `10 ^ lift` that the other numerators then take. -/
def numerator (i : Interval) (digits : Nat) (exponent : Int) : Nat × Nat :=
  if 0 ≤ exponent then (digits * Nat.pow 10 exponent.toNat * i.denominator, 1)
  else (digits * i.denominator, Nat.pow 10 (-exponent).toNat)

/-- Whether a decimal point lies in the interval. -/
def Interval.contains (i : Interval) (digits : Nat) (exponent : Int) : Bool :=
  let (n, factor) := numerator i digits exponent
  if i.closed then i.low * factor ≤ n ∧ n ≤ i.high * factor
  else i.low * factor < n ∧ n < i.high * factor

/-- Distance of a decimal point from the value, over the common denominator. -/
def Interval.distance (i : Interval) (digits : Nat) (exponent : Int) : Nat :=
  let (n, factor) := numerator i digits exponent
  let v := i.value * factor
  if v ≤ n then n - v else v - n

/-- The number of decimal digits of the whole part of `num / den`, or minus the number of zeros
after the point if there is no whole part. -/
def magnitude (num den : Nat) : Int :=
  if den ≤ num then ((Nat.toDigits 10 (num / den)).length : Int)
  else
    -- `num / den < 1`: the digits of `⌊den / num⌋` say how far down the first digit is.
    let k := (Nat.toDigits 10 (den / num)).length
    if den ≤ num * Nat.pow 10 (k - 1) then 2 - (k : Int) else 1 - (k : Int)

/-- The largest point of the grid `10 ^ exponent` that is not above the value. -/
def gridFloor (i : Interval) (exponent : Int) : Nat :=
  if 0 ≤ exponent then i.value / (i.denominator * Nat.pow 10 exponent.toNat)
  else i.value * Nat.pow 10 (-exponent).toNat / i.denominator

/-- The point of the grid with `count` digits that stands for the number, if there is one. -/
def onGrid (i : Interval) (count : Nat) : Option Decimal :=
  let exponent := magnitude i.value i.denominator - (count : Int)
  let d := gridFloor i exponent
  match i.contains d exponent, i.contains (d + 1) exponent with
  | true, true =>
    let below := i.distance d exponent
    let above := i.distance (d + 1) exponent
    if below < above ∨ below = above ∧ d % 2 = 0 then some ⟨d, exponent⟩
    else some ⟨d + 1, exponent⟩
  | true, false => some ⟨d, exponent⟩
  | false, true => some ⟨d + 1, exponent⟩
  | false, false => none

/-- Moves the zeros at the end of the digits into the exponent, at most `fuel` of them. -/
def strip : (fuel : Nat) → Decimal → Decimal
  | 0, d => d
  | fuel + 1, d =>
    if d.digits ≠ 0 ∧ d.digits % 10 = 0 then strip fuel ⟨d.digits / 10, d.exponent + 1⟩ else d

/-- The shortest decimal for the magnitude of a finite number that is not zero. -/
def ofDouble (d : Double) : Decimal :=
  let i := interval d
  let hits := (List.range 17).filterMap fun n => onGrid i (n + 1)
  match hits with
  | first :: _ => strip 20 first
  | [] => ⟨0, 0⟩

end ContentTree.Shortest
