import Mathlib.Data.Nat.Size
import Mathlib.Tactic.Ring
import SwmSdk.ByteCodec

/-! # Numbers as bytes of either order

The little-endian encoding of a fixed width beside the big-endian one, and the two's
complement arrays in which the big integers of a standard library are read and written: the
shortest one that leaves room for the sign.
-/
namespace ByteOrder
open ByteText ByteCodec

/-! ## The little-endian order -/

/-- The number that bytes write, least significant byte first. -/
def littleNat (bytes : Bytes) : Nat := natOf bytes.reverse

/-- A number on a fixed count of bytes, least significant byte first. -/
def littleEndian (width n : Nat) : Bytes := (bigEndian width n).reverse

theorem littleEndian_length (width n : Nat) : (littleEndian width n).length = width := by
  rw [littleEndian, List.length_reverse, bigEndian_length]

theorem littleNat_littleEndian {width n : Nat} (h : n < 256 ^ width) :
    littleNat (littleEndian width n) = n := by
  rw [littleNat, littleEndian, List.reverse_reverse, natOf_bigEndian h]

theorem littleNat_cons (b : UInt8) (bytes : Bytes) :
    littleNat (b :: bytes) = b.toNat + 256 * littleNat bytes := by
  rw [littleNat, List.reverse_cons, natOf_concat, littleNat]
  omega

theorem littleNat_append (a b : Bytes) :
    littleNat (a ++ b) = littleNat a + 256 ^ a.length * littleNat b := by
  induction a with
  | nil =>
    rw [List.nil_append, List.length_nil, pow_zero, one_mul]
    exact (Nat.zero_add _).symm
  | cons c a ih =>
    rw [List.cons_append, littleNat_cons, littleNat_cons, ih, List.length_cons, pow_succ]
    ring

theorem littleNat_lt (bytes : Bytes) : littleNat bytes < 256 ^ bytes.length := by
  rw [littleNat, ← List.length_reverse]
  exact natOf_lt _

theorem littleNat_zeros (n : Nat) : littleNat (List.replicate n 0) = 0 := by
  induction n with
  | zero => rfl
  | succ n ih => rw [List.replicate_succ, littleNat_cons, ih]; rfl

/-- Bytes are the encoding of what they write. -/
theorem littleEndian_littleNat (bytes : Bytes) :
    littleEndian bytes.length (littleNat bytes) = bytes := by
  rw [littleEndian, littleNat, ← List.length_reverse, bigEndian_natOf, List.reverse_reverse]

/-- A wider encoding only adds zeros. -/
theorem littleEndian_pad {narrow width n : Nat} (h : n < 256 ^ narrow) (hle : narrow ≤ width) :
    littleEndian narrow n ++ List.replicate (width - narrow) 0 = littleEndian width n := by
  have hlen : (littleEndian narrow n ++ List.replicate (width - narrow) 0).length = width := by
    rw [List.length_append, littleEndian_length, List.length_replicate]
    omega
  have hnat : littleNat (littleEndian narrow n ++ List.replicate (width - narrow) 0) = n := by
    rw [littleNat_append, littleNat_littleEndian h, littleNat_zeros, mul_zero, add_zero]
  rw [← littleEndian_littleNat (_ ++ _), hlen, hnat]

/-- Clearing the top bit of the last byte takes the number modulo the bits left. -/
theorem littleNat_clear (bytes : Bytes) (b : UInt8) :
    littleNat (bytes ++ [b &&& 0x7f]) = littleNat (bytes ++ [b]) % (128 * 256 ^ bytes.length) := by
  have hmask : (b &&& 0x7f).toNat = b.toNat % 128 := by
    rw [UInt8.toNat_and]
    exact Nat.and_two_pow_sub_one_eq_mod _ 7
  have hone : ∀ c : UInt8, littleNat [c] = c.toNat := by
    intro c
    rw [littleNat_cons]
    rfl
  have hlow := littleNat_lt bytes
  have hmod : (littleNat bytes + 256 ^ bytes.length * b.toNat) % 256 ^ bytes.length =
      littleNat bytes := by
    rw [Nat.add_mul_mod_self_left, Nat.mod_eq_of_lt hlow]
  have hdiv : (littleNat bytes + 256 ^ bytes.length * b.toNat) / 256 ^ bytes.length = b.toNat := by
    rw [Nat.add_mul_div_left _ _ (Nat.pow_pos (by decide)), Nat.div_eq_of_lt hlow, Nat.zero_add]
  rw [littleNat_append, littleNat_append, hone, hone, hmask, mul_comm 128, Nat.mod_mul, hmod, hdiv]

/-! ## Two's complement -/

/-- The number that bytes write in two's complement, most significant byte first. -/
def signedOf (bytes : Bytes) : Int :=
  if 128 ≤ (bytes.headD 0).toNat then natOf bytes - 256 ^ bytes.length else natOf bytes

/-- The bits of the two's complement without the sign bit. -/
def bitLength (n : Int) : Nat := if 0 ≤ n then n.toNat.size else (-n - 1).toNat.size

/-- The shortest two's complement array, most significant byte first. -/
def shortest (n : Int) : Bytes :=
  let width := bitLength n / 8 + 1
  bigEndian width (n % 256 ^ width).toNat

theorem signedOf_zero_cons (bytes : Bytes) : signedOf (0 :: bytes) = littleNat bytes.reverse := by
  have hzero : natOf (0 :: bytes) = natOf bytes := by
    rw [natOf, List.foldl_cons, natOf]
    rfl
  have hsign : ¬ 128 ≤ ((0 :: bytes).headD 0).toNat := by
    rw [List.headD_cons]
    decide
  rw [signedOf, if_neg hsign, hzero, littleNat, List.reverse_reverse]

/-- A number below half of the range is written on as many bytes at most. -/
theorem shortest_reverse {width n : Nat} (h : n < 2 ^ (8 * width + 7)) :
    (shortest n).length ≤ width + 1 ∧
      (shortest n).reverse ++ List.replicate (width + 1 - (shortest n).length) 0 =
        littleEndian (width + 1) n := by
  have hbits : bitLength n = n.size := by rw [bitLength, if_pos (by omega)]; rfl
  have hsize : n.size ≤ 8 * width + 7 := Nat.size_le.mpr h
  have hfit : n < 256 ^ (n.size / 8 + 1) := by
    have hpow : (256 : Nat) = 2 ^ 8 := rfl
    calc n < 2 ^ n.size := Nat.lt_size_self n
      _ ≤ 2 ^ (8 * (n.size / 8 + 1)) := Nat.pow_le_pow_right (by decide) (by omega)
      _ = 256 ^ (n.size / 8 + 1) := by rw [hpow, ← pow_mul]
  have heq : shortest n = bigEndian (n.size / 8 + 1) n := by
    rw [shortest, hbits]
    congr 1
    have hcast : ((256 : Int) ^ (n.size / 8 + 1)) = ((256 ^ (n.size / 8 + 1) : Nat) : Int) := by
      rw [Nat.cast_pow]
      rfl
    rw [hcast, ← Int.natCast_emod, Int.toNat_natCast, Nat.mod_eq_of_lt hfit]
  rw [heq, bigEndian_length]
  refine ⟨by omega, ?_⟩
  exact littleEndian_pad hfit (by omega)

end ByteOrder
