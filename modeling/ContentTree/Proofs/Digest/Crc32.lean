import ContentTree.Digest.Crc32
import Mathlib.Logic.Function.Iterate

/-!
# One changed octet changes the checksum

The polynomial has its highest bit set, and a remainder that is shifted has not. So the highest bit of a
remainder tells whether the polynomial was subtracted, and no two remainders are led to the same one by
the same octet. Remainders that differ once differ to the end (`checksum_ne_of_ne`). So octets that have
their checksum behind them do not have it any more when one of them is changed, or one of the checksum
(`Bytes.Altered.exists_checksum_ne`).
-/

namespace ContentTree

namespace Crc32

open Function (Injective)

/-! ## Remainders -/

/-- One shift as arithmetic on the number. -/
theorem toNat_shift (c : UInt32) :
    (shift c).toNat = if c.toNat % 2 = 1 then c.toNat / 2 ^^^ polynomial.toNat else c.toNat / 2 := by
  have hbit : c &&& 1 = 1 ↔ c.toNat % 2 = 1 := by
    rw [← UInt32.toNat_inj, UInt32.toNat_and]
    show c.toNat &&& 1 = 1 ↔ _
    rw [Nat.and_one_is_mod]
  have hhalf : (c >>> 1).toNat = c.toNat / 2 := by
    rw [UInt32.toNat_shiftRight]
    exact Nat.shiftRight_eq_div_pow c.toNat 1
  unfold shift
  by_cases hodd : c.toNat % 2 = 1
  · rw [if_pos (hbit.2 hodd), if_pos hodd, UInt32.toNat_xor, hhalf]
  · rw [if_neg fun h => hodd (hbit.1 h), if_neg hodd, hhalf]

/-- The highest bit tells whether the polynomial was subtracted. -/
theorem testBit_shift (c : UInt32) : (shift c).toNat.testBit 31 = decide (c.toNat % 2 = 1) := by
  have hlt : c.toNat / 2 < 2 ^ 31 := by
    have hc : c.toNat < 2 ^ 32 := c.toNat_lt
    omega
  have hhalf : (c.toNat / 2).testBit 31 = false := Nat.testBit_lt_two_pow hlt
  have hpolynomial : polynomial.toNat.testBit 31 = true := by decide
  rw [toNat_shift]
  split
  · next hodd => simp [Nat.testBit_xor, hhalf, hpolynomial, hodd]
  · next heven => simp [hhalf, heven]

/-- Different registers are different after a shift. -/
theorem shift_injective : Injective shift := by
  intro a b h
  have hbits := congrArg (fun c : UInt32 => c.toNat.testBit 31) h
  have hnats := congrArg UInt32.toNat h
  simp only [testBit_shift, decide_eq_decide] at hbits
  rw [toNat_shift, toNat_shift] at hnats
  have hhalves : a.toNat / 2 = b.toNat / 2 := by
    by_cases hodd : a.toNat % 2 = 1
    · rw [if_pos hodd, if_pos (hbits.1 hodd)] at hnats
      have hcancel := congrArg (· ^^^ polynomial.toNat) hnats
      simpa only [Nat.xor_assoc, Nat.xor_self, Nat.xor_zero] using hcancel
    · rw [if_neg hodd, if_neg fun hb => hodd (hbits.2 hb)] at hnats
      exact hnats
  apply UInt32.toNat_inj.1
  omega

/-- An octet goes into the register in eight shifts. -/
theorem update_eq (c : UInt32) (octet : UInt8) : update c octet = shift^[8] (c ^^^ octet.toUInt32) :=
  rfl

/-- Different registers stay different when the same octet goes in. -/
theorem update_injective (octet : UInt8) : Injective fun c => update c octet := by
  intro a b h
  dsimp only at h
  rw [update_eq, update_eq] at h
  simpa using shift_injective.iterate 8 h

/-- Different octets leave different registers. -/
theorem update_octet_injective (c : UInt32) : Injective (update c) := by
  intro x y h
  rw [update_eq, update_eq] at h
  have hxor := shift_injective.iterate 8 h
  rwa [UInt32.xor_right_inj, UInt8.toUInt32_inj] at hxor

/-- Different registers stay different when the same octets go in. -/
theorem foldl_update_injective (bytes : Bytes) : Injective fun c => bytes.foldl update c := by
  induction bytes with
  | nil => exact fun _ _ h => h
  | cons octet rest ih => exact ih.comp (update_injective octet)

/-- Octets that differ in one place have different checksums. -/
theorem checksum_ne_of_ne {x y : UInt8} (h : x ≠ y) (front back : Bytes) :
    checksum (front ++ x :: back) ≠ checksum (front ++ y :: back) := by
  intro heq
  have hfold : (front ++ x :: back).foldl update 0xFFFFFFFF =
      (front ++ y :: back).foldl update 0xFFFFFFFF := by
    simpa [checksum] using heq
  rw [List.foldl_append, List.foldl_append, List.foldl_cons, List.foldl_cons] at hfold
  exact h (update_octet_injective _ (foldl_update_injective back hfold))

/-- A checksum is told by its four octets. -/
theorem eq_of_littleEndian {c c' : UInt32}
    (h : Bytes.littleEndian 4 c.toNat = Bytes.littleEndian 4 c'.toNat) : c = c' := by
  have hlt : c.toNat < 1 <<< (8 * 4) := c.toNat_lt
  have hlt' : c'.toNat < 1 <<< (8 * 4) := c'.toNat_lt
  apply UInt32.toNat_inj.1
  rw [← Bytes.ofLittleEndian_littleEndian hlt, h, Bytes.ofLittleEndian_littleEndian hlt']

end Crc32

namespace Bytes

/-! ## A changed octet -/

/-- One octet was changed, which is not among the first `n`. -/
def Altered (n : Nat) (old new : Bytes) : Prop :=
  ∃ front x y back, x ≠ y ∧ n ≤ front.length ∧ old = front ++ x :: back ∧ new = front ++ y :: back

variable {n : Nat} {head old new payload : Bytes}

/-- What stands in front of the place where octets are changed is as it was. -/
theorem Altered.exists_append (h : Altered (head.length + n) (head ++ old) new) :
    ∃ new', new = head ++ new' ∧ Altered n old new' := by
  obtain ⟨front, x, y, back, hne, hle, hold, rfl⟩ := h
  have hfront : head <+: front :=
    List.prefix_of_prefix_length_le ⟨old, rfl⟩ ⟨x :: back, hold.symm⟩ (by omega)
  obtain ⟨front, rfl⟩ := hfront
  rw [List.append_assoc] at hold
  rw [List.length_append] at hle
  exact ⟨front ++ y :: back, List.append_assoc .., front, x, y, back, hne, by omega,
    List.append_cancel_left hold, rfl⟩

/-- A changed octet makes a difference. -/
theorem Altered.ne (h : Altered n old new) : new ≠ old := by
  obtain ⟨front, x, y, back, hne, -, rfl, rfl⟩ := h
  exact fun heq => hne (List.cons.inj (List.append_cancel_left heq)).1.symm

/-- A changed octet changes no length. -/
theorem Altered.length_eq (h : Altered n old new) : new.length = old.length := by
  obtain ⟨front, x, y, back, -, -, rfl, rfl⟩ := h
  simp

/-- A change is in the first of two parts or in the second one. -/
theorem Altered.of_append {tail : Bytes} (h : Altered 0 (old ++ tail) new) :
    (∃ old', new = old' ++ tail ∧ Altered 0 old old') ∨
      ∃ tail', new = old ++ tail' ∧ Altered 0 tail tail' := by
  obtain ⟨front, x, y, back, hne, -, hold, rfl⟩ := h
  rcases List.append_eq_append_iff.1 hold with ⟨front, rfl, rfl⟩ | ⟨back', rfl, h⟩
  · exact Or.inr ⟨front ++ y :: back, List.append_assoc .., front, x, y, back, hne, Nat.zero_le _, rfl,
      rfl⟩
  · cases back' with
    | nil =>
      exact Or.inr ⟨y :: back, by simp, [], x, y, back, hne, Nat.zero_le _, h.symm, rfl⟩
    | cons x' back' =>
      obtain ⟨rfl, rfl⟩ := List.cons.inj h
      exact Or.inl ⟨front ++ y :: back', by simp, front, x, y, back', hne, Nat.zero_le _, rfl, rfl⟩

/-- Octets that had their checksum behind them have another one after a change. -/
theorem Altered.exists_checksum_ne
    (h : Altered 0 (payload ++ littleEndian 4 (Crc32.checksum payload).toNat) new) :
    ∃ payload' sum, new = payload' ++ sum ∧ payload'.length = payload.length ∧ sum.length = 4 ∧
      sum ≠ littleEndian 4 (Crc32.checksum payload').toNat := by
  rcases h.of_append with ⟨payload', rfl, hpayload⟩ | ⟨sum, rfl, hsum⟩
  · refine ⟨payload', _, rfl, hpayload.length_eq, length_littleEndian .., fun heq => ?_⟩
    obtain ⟨front, x, y, back, hne, -, rfl, rfl⟩ := hpayload
    exact Crc32.checksum_ne_of_ne hne front back (Crc32.eq_of_littleEndian heq)
  · exact ⟨payload, sum, rfl, rfl, hsum.length_eq.trans (length_littleEndian ..), hsum.ne⟩

end Bytes

end ContentTree
