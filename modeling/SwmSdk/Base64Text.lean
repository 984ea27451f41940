import Mathlib.Data.List.DropRight
import SwmSdk.Base64Url

/-! # Readers of base64

A reader takes the digits of one alphabet, to groups of four or with what remains at the end, and
may insist on the padding and on zeros in the bits that no byte takes.  Whatever it insists on, it
reads back what base64url writes without padding (`raw_encode`).
-/
namespace Base64Text
open ByteText

/-- The number of a digit, in the alphabet with these two last digits. -/
def digitValue (plus slash d : UInt8) : Option Nat :=
  if 65 ≤ d ∧ d ≤ 90 then some (d.toNat - 65)
  else if 97 ≤ d ∧ d ≤ 122 then some (d.toNat - 71)
  else if 48 ≤ d ∧ d ≤ 57 then some (d.toNat + 4)
  else if d = plus then some 62
  else if d = slash then some 63
  else none

/-- The digits `+` and `/`. -/
def standard : UInt8 → Option Nat := digitValue 0x2b 0x2f

/-- The digits `-` and `_`. -/
def url : UInt8 → Option Nat := digitValue 0x2d 0x5f

/-- The bytes of the numbers of digits; one digit is too few. -/
def group : List Nat → Option Bytes
  | a :: b :: c :: d :: rest =>
      (group rest).map fun bytes => UInt8.ofNat (a * 4 + b / 16) ::
        UInt8.ofNat (b % 16 * 16 + c / 4) :: UInt8.ofNat (c % 4 * 64 + d) :: bytes
  | [a, b, c] => some [UInt8.ofNat (a * 4 + b / 16), UInt8.ofNat (b % 16 * 16 + c / 4)]
  | [a, b] => some [UInt8.ofNat (a * 4 + b / 16)]
  | [_] => none
  | [] => some []

/-- The bits that no byte takes are zero. -/
def spareZero : List Nat → Bool
  | _ :: _ :: _ :: _ :: rest => spareZero rest
  | [_, _, c] => c % 4 = 0
  | [_, b] => b % 16 = 0
  | _ => true

section Readers
variable (value : UInt8 → Option Nat) (strict : Bool)

/-- A text without padding. -/
def raw (text : Bytes) : Option Bytes := do
  let numbers ← text.mapM value
  if strict && !spareZero numbers then none else group numbers

/-- The text before its padding, and how long the padding is. -/
def splitPadding (text : Bytes) : Bytes × Nat :=
  let body := text.rdropWhile (· = 0x3d)
  (body, text.length - body.length)

/-- A text that is padded to groups of four. -/
def padded (text : Bytes) : Option Bytes :=
  let (body, padding) := splitPadding text
  if text.length % 4 = 0 ∧ padding ≤ 2 then raw value strict body else none

/-- A text that is padded to groups of four or not at all. -/
def optionallyPadded (text : Bytes) : Option Bytes :=
  let (body, padding) := splitPadding text
  if padding = 0 ∨ padding = (4 - body.length % 4) % 4 then raw value strict body else none

end Readers

/-! ## What base64url writes -/

theorem url_digit : ∀ n < 64, url (Base64Url.digit n) = some n := by decide

theorem digit_ne_padding : ∀ n < 64, Base64Url.digit n ≠ 0x3d := by decide

/-- The numbers of the digits that are written. -/
def numbersOf : Bytes → List Nat
  | a :: b :: c :: rest =>
      a.toNat / 4 :: (a.toNat % 4 * 16 + b.toNat / 16) :: (b.toNat % 16 * 4 + c.toNat / 64) ::
        c.toNat % 64 :: numbersOf rest
  | [a, b] => [a.toNat / 4, a.toNat % 4 * 16 + b.toNat / 16, b.toNat % 16 * 4]
  | [a] => [a.toNat / 4, a.toNat % 4 * 16]
  | [] => []

theorem numbersOf_lt (bytes : Bytes) : ∀ n ∈ numbersOf bytes, n < 64 := by
  fun_induction numbersOf bytes with
  | case1 a b c rest ih =>
    have ha := a.toNat_lt
    have hb := b.toNat_lt
    have hc := c.toNat_lt
    simp only [List.forall_mem_cons]
    exact ⟨by omega, by omega, by omega, by omega, ih⟩
  | case2 a b =>
    have ha := a.toNat_lt
    have hb := b.toNat_lt
    simp only [List.forall_mem_cons]
    exact ⟨by omega, by omega, by omega, by simp⟩
  | case3 a =>
    have ha := a.toNat_lt
    simp only [List.forall_mem_cons]
    exact ⟨by omega, by omega, by simp⟩
  | case4 => simp

theorem encode_eq_map (bytes : Bytes) :
    Base64Url.encode bytes = (numbersOf bytes).map Base64Url.digit := by
  fun_induction Base64Url.encode bytes with
  | case1 a b c rest ih => rw [numbersOf, ih]; rfl
  | case2 a b => rfl
  | case3 a => rfl
  | case4 => rfl

/-- Digits are read as their numbers. -/
theorem mapM_digits {value : UInt8 → Option Nat} {digit : Nat → UInt8}
    (hdigit : ∀ n < 64, value (digit n) = some n) {numbers : List Nat}
    (h : ∀ n ∈ numbers, n < 64) : (numbers.map digit).mapM value = some numbers := by
  induction numbers with
  | nil => rfl
  | cons n numbers ih =>
    obtain ⟨hn, hnumbers⟩ := List.forall_mem_cons.mp h
    rw [List.map_cons, List.mapM_cons, hdigit n hn, ih hnumbers]
    rfl

theorem group_numbersOf (bytes : Bytes) : group (numbersOf bytes) = some bytes := by
  fun_induction numbersOf bytes with
  | case1 a b c rest ih =>
    have ha := a.toNat_lt
    have hb := b.toNat_lt
    have hc := c.toNat_lt
    rw [group, ih, Option.map_some, Base64Url.ofNat_eq (by omega : _ = a.toNat),
      Base64Url.ofNat_eq (by omega : _ = b.toNat), Base64Url.ofNat_eq (by omega : _ = c.toNat)]
  | case2 a b =>
    have ha := a.toNat_lt
    have hb := b.toNat_lt
    rw [group, Base64Url.ofNat_eq (by omega : _ = a.toNat),
      Base64Url.ofNat_eq (by omega : _ = b.toNat)]
  | case3 a =>
    have ha := a.toNat_lt
    rw [group, Base64Url.ofNat_eq (by omega : _ = a.toNat)]
  | case4 => rfl

theorem spareZero_numbersOf (bytes : Bytes) : spareZero (numbersOf bytes) = true := by
  fun_induction numbersOf bytes with
  | case1 a b c rest ih => exact ih
  | case2 a b =>
    rw [spareZero, decide_eq_true_iff]
    omega
  | case3 a =>
    rw [spareZero, decide_eq_true_iff]
    omega
  | case4 => rfl

theorem raw_numbersOf {value : UInt8 → Option Nat} {digit : Nat → UInt8}
    (hdigit : ∀ n < 64, value (digit n) = some n) (strict : Bool) (bytes : Bytes) :
    raw value strict ((numbersOf bytes).map digit) = some bytes := by
  rw [raw, mapM_digits hdigit (numbersOf_lt bytes)]
  simp only [Option.bind_eq_bind, Option.bind_some, spareZero_numbersOf, Bool.not_true,
    Bool.and_false, Bool.false_eq_true, if_false]
  exact group_numbersOf bytes

/-- **What base64url writes is read back.** -/
theorem raw_encode (strict : Bool) (bytes : Bytes) :
    raw url strict (Base64Url.encode bytes) = some bytes := by
  rw [encode_eq_map]
  exact raw_numbersOf url_digit strict bytes

theorem padding_notMem_encode (bytes : Bytes) : 0x3d ∉ Base64Url.encode bytes := by
  intro hmem
  rw [encode_eq_map] at hmem
  obtain ⟨n, hn, hdigit⟩ := List.mem_map.mp hmem
  exact digit_ne_padding n (numbersOf_lt bytes n hn) hdigit

theorem splitPadding_append {body : Bytes} (h : 0x3d ∉ body) (padding : Nat) :
    splitPadding (body ++ List.replicate padding 0x3d) = (body, padding) := by
  have hbody : (body ++ List.replicate padding 0x3d).rdropWhile (· = 0x3d) = body := by
    induction padding with
    | zero =>
      rw [List.replicate_zero, List.append_nil, List.rdropWhile_eq_self_iff]
      intro hne hlast
      rw [decide_eq_true_iff] at hlast
      exact h (hlast ▸ List.getLast_mem hne)
    | succ padding ih =>
      rw [List.replicate_succ', ← List.append_assoc, List.rdropWhile_concat_pos _ _ _ (by decide),
        ih]
  rw [splitPadding, hbody, List.length_append, List.length_replicate, Nat.add_sub_cancel_left]

theorem optionallyPadded_encode (strict : Bool) (bytes : Bytes) :
    optionallyPadded url strict (Base64Url.encode bytes) = some bytes := by
  have hsplit := splitPadding_append (padding_notMem_encode bytes) 0
  rw [List.replicate_zero, List.append_nil] at hsplit
  rw [optionallyPadded, hsplit]
  exact (if_pos (.inl rfl)).trans (raw_encode strict bytes)

/-- A text whose length is no multiple of four is not padded. -/
theorem padded_eq_none {value : UInt8 → Option Nat} {strict : Bool} {text : Bytes}
    (h : text.length % 4 ≠ 0) : padded value strict text = none :=
  if_neg fun hpadded => h hpadded.1

/-! ## What base64 writes -/

/-- A digit of base64url as one of base64. -/
def toStandard (d : UInt8) : UInt8 := if d = 0x2d then 0x2b else if d = 0x5f then 0x2f else d

/-- What fills a text up to groups of four. -/
def fill (length : Nat) : Bytes := List.replicate ((4 - length % 4) % 4) 0x3d

/-- Base64 with padding. -/
def encodeStandard (bytes : Bytes) : Bytes :=
  (Base64Url.encode bytes).map toStandard ++ fill (Base64Url.encode bytes).length

theorem standard_digit : ∀ n < 64, standard (toStandard (Base64Url.digit n)) = some n := by decide

theorem toStandard_ne_padding : ∀ n < 64, toStandard (Base64Url.digit n) ≠ 0x3d := by decide

theorem numbersOf_length (bytes : Bytes) : (numbersOf bytes).length % 4 ≠ 1 := by
  fun_induction numbersOf bytes with
  | case1 a b c rest ih =>
    simp only [List.length_cons]
    omega
  | case2 a b => simp
  | case3 a => simp
  | case4 => simp

/-- **What base64 writes is read back.** -/
theorem padded_encodeStandard (strict : Bool) (bytes : Bytes) :
    padded standard strict (encodeStandard bytes) = some bytes := by
  have hbody : (Base64Url.encode bytes).map toStandard =
      (numbersOf bytes).map (toStandard ∘ Base64Url.digit) := by
    rw [encode_eq_map, List.map_map]
  have hpadding : 0x3d ∉ (Base64Url.encode bytes).map toStandard := by
    rw [hbody]
    intro hmem
    obtain ⟨n, hn, hdigit⟩ := List.mem_map.mp hmem
    exact toStandard_ne_padding n (numbersOf_lt bytes n hn) hdigit
  have hlength : (Base64Url.encode bytes).length % 4 ≠ 1 := by
    rw [encode_eq_map, List.length_map]
    exact numbersOf_length bytes
  have htotal : (encodeStandard bytes).length % 4 = 0 := by
    rw [encodeStandard, fill, List.length_append, List.length_map, List.length_replicate]
    omega
  rw [padded, htotal, encodeStandard, fill, splitPadding_append hpadding]
  refine (if_pos ⟨rfl, by omega⟩).trans ?_
  rw [hbody]
  exact raw_numbersOf standard_digit strict bytes

end Base64Text
