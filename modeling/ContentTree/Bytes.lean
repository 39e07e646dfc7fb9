/-!
# Byte strings

Byte strings are lists of octets. This module holds the fixed-width integer forms that the record,
journal and MessagePack formats share. Main statements: a number that fits its width is read back
(`ofLittleEndian_littleEndian`, `ofBigEndian_bigEndian`), and `splitAt?` cuts off an exact prefix.
-/

namespace ContentTree

/-- A string of octets. -/
abbrev Bytes := List UInt8

namespace Bytes

/-- The `width` low octets of `n`, least significant first. -/
def littleEndian : (width n : Nat) → Bytes
  | 0, _ => []
  | width + 1, n => UInt8.ofNat (n % 256) :: littleEndian width (n / 256)

/-- The number that octets denote, least significant first. -/
def ofLittleEndian : Bytes → Nat
  | [] => 0
  | b :: rest => b.toNat + 256 * ofLittleEndian rest

/-- The `width` low octets of `n`, most significant first. -/
def bigEndian (width n : Nat) : Bytes :=
  (littleEndian width n).reverse

/-- The number that octets denote, most significant first. -/
def ofBigEndian (bytes : Bytes) : Nat :=
  ofLittleEndian bytes.reverse

/-- A number is written in as many octets as asked for. -/
@[simp] theorem length_littleEndian (width n : Nat) : (littleEndian width n).length = width := by
  induction width generalizing n with
  | zero => rfl
  | succ width ih => simp [littleEndian, ih]

/-- A number is written in as many octets as asked for, whatever their order. -/
@[simp] theorem length_bigEndian (width n : Nat) : (bigEndian width n).length = width := by
  simp [bigEndian]

/-- A number that fits into its octets is read back, the lowest octet first. -/
theorem ofLittleEndian_littleEndian {width n : Nat} (h : n < 1 <<< (8 * width)) :
    ofLittleEndian (littleEndian width n) = n := by
  induction width generalizing n with
  | zero =>
    have h0 : n = 0 := by simpa using h
    simp [littleEndian, ofLittleEndian, h0]
  | succ width ih =>
    have hq : n / 256 < 1 <<< (8 * width) := by
      rw [Nat.shiftLeft_eq, Nat.one_mul] at h ⊢
      rw [Nat.div_lt_iff_lt_mul (by decide)]
      simpa [Nat.mul_add, Nat.pow_add] using h
    simp only [littleEndian, ofLittleEndian, ih hq, UInt8.toNat_ofNat']
    omega

/-- A number that fits into its octets is read back, the highest octet first. -/
theorem ofBigEndian_bigEndian {width n : Nat} (h : n < 1 <<< (8 * width)) :
    ofBigEndian (bigEndian width n) = n := by
  simp [ofBigEndian, bigEndian, ofLittleEndian_littleEndian h]

/-- Cuts off the first `n` octets; `none` if there are fewer. -/
def splitAt? (n : Nat) (bytes : Bytes) : Option (Bytes × Bytes) :=
  let front := bytes.take n
  if front.length = n then some (front, bytes.drop n) else none

/-- What was put in front of a rest is split off again. -/
theorem splitAt?_append (front rest : Bytes) :
    splitAt? front.length (front ++ rest) = some (front, rest) := by
  simp [splitAt?]

/-- The two parts of a split make up the whole, and the first one has the length asked for. -/
theorem append_of_splitAt? {n : Nat} {bytes front rest : Bytes}
    (h : splitAt? n bytes = some (front, rest)) : bytes = front ++ rest ∧ front.length = n := by
  unfold splitAt? at h
  dsimp only at h
  split at h
  · next hn =>
    cases h
    exact ⟨(List.take_append_drop n bytes).symm, hn⟩
  · cases h

/-- Nothing is split off where there are fewer octets than asked for. -/
theorem splitAt?_of_lt {n : Nat} {bytes : Bytes} (h : bytes.length < n) :
    splitAt? n bytes = none := by
  refine if_neg fun hn => ?_
  rw [List.length_take] at hn
  omega

/-- Lexicographic order of octets; a proper prefix comes first. -/
def compare : Bytes → Bytes → Ordering
  | [], [] => .eq
  | [], _ :: _ => .lt
  | _ :: _, [] => .gt
  | a :: as, b :: bs =>
    if a < b then .lt else if b < a then .gt else compare as bs

end Bytes

end ContentTree
