import Mathlib.Data.Nat.Bitwise

/-!
# Bitmaps

A set of numbers as bytes, eight to a byte and the least significant bit first, cut off after so
many bytes; and the test of one bit. The test finds the members that fit and nothing else
(`test_ofBits`).
-/

namespace Bitmap

/-- The byte with these bits, the lowest first. -/
def byte (bits : ℕ → Bool) : UInt8 := .ofNat (Nat.ofBits fun i : Fin 8 ↦ bits i)

/-- The first `size` bytes. -/
def ofBits (bits : ℕ → Bool) (size : ℕ) : List UInt8 :=
  (List.range size).map fun i ↦ byte fun j ↦ bits (8 * i + j)

/-- Bit `i`; there is none past the end. -/
def test (bytes : List UInt8) (i : ℕ) : Bool :=
  match bytes[i / 8]? with
  | some b => b &&& (1 <<< UInt8.ofNat (i % 8)) != 0
  | none => false

theorem and_shiftLeft_ne_zero (b : UInt8) {k : ℕ} (hk : k < 8) :
    (b &&& (1 <<< UInt8.ofNat k) != 0) = b.toNat.testBit k := by
  have hmask : (1 <<< UInt8.ofNat k : UInt8).toNat = 2 ^ k := by
    have hpow : 2 ^ k < 2 ^ 8 := Nat.pow_lt_pow_right Nat.one_lt_two hk
    simp only [UInt8.toNat_shiftLeft, UInt8.toNat_one, UInt8.toNat_ofNat', Nat.shiftLeft_eq,
      one_mul]
    rw [Nat.mod_eq_of_lt (show k < 2 ^ 8 by omega), Nat.mod_eq_of_lt hk, Nat.mod_eq_of_lt hpow]
  have hand : (b &&& (1 <<< UInt8.ofNat k)).toNat = (b.toNat.testBit k).toNat * 2 ^ k := by
    rw [UInt8.toNat_and, hmask, Nat.and_two_pow]
  rw [bne, Bool.eq_iff_iff, Bool.not_eq_true', beq_eq_false_iff_ne, ne_eq, ← UInt8.toNat_inj, hand]
  rcases b.toNat.testBit k
  · simp
  · simp

theorem testBit_byte (bits : ℕ → Bool) {k : ℕ} (hk : k < 8) :
    (byte bits).toNat.testBit k = bits k := by
  have hlt : Nat.ofBits (fun i : Fin 8 ↦ bits i) < 2 ^ 8 := Nat.ofBits_lt_two_pow _
  rw [byte, UInt8.toNat_ofNat', Nat.mod_eq_of_lt hlt, Nat.testBit_ofBits_lt _ _ hk]

/-- **The test finds what the bitmap was made of**, as far as it reaches. -/
theorem test_ofBits (bits : ℕ → Bool) {size i : ℕ} (hi : i < 8 * size) :
    test (ofBits bits size) i = bits i := by
  have hbyte : (ofBits bits size)[i / 8]? = some (byte fun j ↦ bits (8 * (i / 8) + j)) := by
    rw [ofBits, List.getElem?_map, List.getElem?_range (by omega)]
    rfl
  rw [test, hbyte]
  show (_ != 0) = _
  rw [and_shiftLeft_ne_zero _ (Nat.mod_lt i (by decide)), testBit_byte _ (Nat.mod_lt i (by decide)),
    Nat.div_add_mod]

end Bitmap
