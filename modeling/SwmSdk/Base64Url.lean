import SwmSdk.ByteText

/-! # Base64url without padding

Three bytes are written as four digits of six bits, and a last group of one or
two bytes as two or three digits.  The text determines the bytes
(`encode_injective`) and holds digits of the alphabet only, so it can stand
between separators (`dot_notMem_encode`).
-/
namespace Base64Url
open ByteText

/-- The digit of a six-bit number. -/
def digit (n : Nat) : UInt8 :=
  UInt8.ofNat (if n < 26 then 65 + n else if n < 52 then 71 + n else if n < 62 then n - 4
    else if n < 63 then 45 else 95)

/-- The number of a digit. -/
def value (d : UInt8) : Nat :=
  if d.toNat = 45 then 62 else if d.toNat = 95 then 63 else if d.toNat < 65 then d.toNat + 4
    else if d.toNat < 97 then d.toNat - 65 else d.toNat - 71

theorem value_digit : ∀ n < 64, value (digit n) = n := by decide

theorem digit_ne_dot : ∀ n < 64, digit n ≠ 46 := by decide

/-- The digits of a byte string. -/
def encode : Bytes → Bytes
  | a :: b :: c :: rest =>
      digit (a.toNat / 4) :: digit (a.toNat % 4 * 16 + b.toNat / 16) ::
        digit (b.toNat % 16 * 4 + c.toNat / 64) :: digit (c.toNat % 64) :: encode rest
  | [a, b] =>
      [digit (a.toNat / 4), digit (a.toNat % 4 * 16 + b.toNat / 16), digit (b.toNat % 16 * 4)]
  | [a] => [digit (a.toNat / 4), digit (a.toNat % 4 * 16)]
  | [] => []

/-- The bytes of a text of digits. -/
def decode : Bytes → Bytes
  | a :: b :: c :: d :: rest =>
      UInt8.ofNat (value a * 4 + value b / 16) ::
        UInt8.ofNat (value b % 16 * 16 + value c / 4) ::
          UInt8.ofNat (value c % 4 * 64 + value d) :: decode rest
  | [a, b, c] =>
      [UInt8.ofNat (value a * 4 + value b / 16), UInt8.ofNat (value b % 16 * 16 + value c / 4)]
  | [a, b] => [UInt8.ofNat (value a * 4 + value b / 16)]
  | _ => []

theorem ofNat_eq {n : Nat} {b : UInt8} (h : n = b.toNat) : UInt8.ofNat n = b := by
  rw [h, UInt8.ofNat_toNat]

theorem decode_encode (bytes : Bytes) : decode (encode bytes) = bytes := by
  fun_induction encode bytes with
  | case1 a b c rest ih =>
    have ha := a.toNat_lt
    have hb := b.toNat_lt
    have hc := c.toNat_lt
    simp only [decode, ih]
    rw [value_digit _ (by omega), value_digit _ (by omega), value_digit _ (by omega),
      value_digit _ (by omega), ofNat_eq (by omega : _ = a.toNat), ofNat_eq (by omega : _ = b.toNat),
      ofNat_eq (by omega : _ = c.toNat)]
  | case2 a b =>
    have ha := a.toNat_lt
    have hb := b.toNat_lt
    simp only [decode]
    rw [value_digit _ (by omega), value_digit _ (by omega), value_digit _ (by omega),
      ofNat_eq (by omega : _ = a.toNat), ofNat_eq (by omega : _ = b.toNat)]
  | case3 a =>
    have ha := a.toNat_lt
    simp only [decode]
    rw [value_digit _ (by omega), value_digit _ (by omega), ofNat_eq (by omega : _ = a.toNat)]
  | case4 => rfl

/-- **The digits determine the bytes.** -/
theorem encode_injective {first second : Bytes} (h : encode first = encode second) :
    first = second := by
  rw [← decode_encode first, h, decode_encode]

theorem dot_notMem_encode (bytes : Bytes) : (46 : UInt8) ∉ encode bytes := by
  fun_induction encode bytes with
  | case1 a b c rest ih =>
    have ha := a.toNat_lt
    have hb := b.toNat_lt
    have hc := c.toNat_lt
    simp only [List.mem_cons, not_or]
    exact ⟨(digit_ne_dot _ (by omega)).symm, (digit_ne_dot _ (by omega)).symm,
      (digit_ne_dot _ (by omega)).symm, (digit_ne_dot _ (by omega)).symm, ih⟩
  | case2 a b =>
    have ha := a.toNat_lt
    have hb := b.toNat_lt
    simp only [List.mem_cons, List.not_mem_nil, or_false, not_or]
    exact ⟨(digit_ne_dot _ (by omega)).symm, (digit_ne_dot _ (by omega)).symm,
      (digit_ne_dot _ (by omega)).symm⟩
  | case3 a =>
    have ha := a.toNat_lt
    simp only [List.mem_cons, List.not_mem_nil, or_false, not_or]
    exact ⟨(digit_ne_dot _ (by omega)).symm, (digit_ne_dot _ (by omega)).symm⟩
  | case4 => exact List.not_mem_nil

end Base64Url
