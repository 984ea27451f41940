import SwmSdk.ByteText

/-! # Numerals, and the integers of a machine

A signed decimal numeral of 64 bits over any alphabet: an optional sign and at least one digit.
Texts of bytes and texts of UTF-16 units are read alike, and what `decimal` writes is
read back (`signedDigits_decimal`).

A cast to a machine integer maps every integer into the range of its type and leaves the
integers of that range as they are.  Nothing else about a cast is used: its result is
the integer it was given exactly when that integer is in the range (`Narrowed.eq_iff`).
-/
namespace Numeral
open ByteText

section Reading
variable {α : Type} [DecidableEq α]

/-- The number that digits write, when all of them are digits. -/
def digitsValue (digit : α → Option Nat) : Nat → List α → Option Nat
  | value, [] => some value
  | value, d :: rest =>
      match digit d with
      | some n => digitsValue digit (value * 10 + n) rest
      | none => none

/-- The numbers of 64 bits. -/
def InInt64 (value : Int) : Prop := -2 ^ 63 ≤ value ∧ value < 2 ^ 63

instance (value : Int) : Decidable (InInt64 value) := inferInstanceAs (Decidable (_ ∧ _))

/-- The number that digits after a sign write. -/
def unsignedDigits (digit : α → Option Nat) (negative : Bool) (digits : List α) : Option Int :=
  if digits = [] then none
  else
    match digitsValue digit 0 digits with
    | none => none
    | some n =>
        let value : Int := if negative then -n else n
        if InInt64 value then some value else none

/-- A numeral with an optional sign. -/
def signedDigits (plus minus : α) (digit : α → Option Nat) (text : List α) : Option Int :=
  match text with
  | [] => none
  | c :: rest =>
      if c = plus then unsignedDigits digit false rest
      else if c = minus then unsignedDigits digit true rest
      else unsignedDigits digit false (c :: rest)

omit [DecidableEq α] in
theorem unsignedDigits_inInt64 {digit : α → Option Nat} {negative : Bool} {digits : List α}
    {value : Int} (h : unsignedDigits digit negative digits = some value) : InInt64 value := by
  unfold unsignedDigits at h
  split at h
  · cases h
  · split at h
    · cases h
    · obtain ⟨hrange, hvalue⟩ := Option.ite_none_right_eq_some.mp h
      rw [← Option.some.inj hvalue]
      exact hrange

/-- What is read fits 64 bits. -/
theorem signedDigits_inInt64 {plus minus : α} {digit : α → Option Nat} {text : List α}
    {value : Int} (h : signedDigits plus minus digit text = some value) : InInt64 value := by
  cases text with
  | nil => cases h
  | cons c rest =>
    by_cases hplus : c = plus
    · rw [signedDigits, if_pos hplus] at h
      exact unsignedDigits_inInt64 h
    · by_cases hminus : c = minus
      · rw [signedDigits, if_neg hplus, if_pos hminus] at h
        exact unsignedDigits_inInt64 h
      · rw [signedDigits, if_neg hplus, if_neg hminus] at h
        exact unsignedDigits_inInt64 h

/-- An alphabet that writes the signs and digits of ASCII as `f` does. -/
structure Writes (f : UInt8 → α) (plus minus : α) (digit : α → Option Nat) : Prop where
  negative : f 45 = minus ∧ minus ≠ plus
  digits : ∀ b : UInt8, 48 ≤ b.toNat → b.toNat ≤ 57 →
    digit (f b) = some (b.toNat - 48) ∧ f b ≠ plus ∧ f b ≠ minus

variable {f : UInt8 → α} {plus minus : α} {digit : α → Option Nat}

omit [DecidableEq α] in
theorem digitsValue_append (value : Nat) (first second : List α) :
    digitsValue digit value (first ++ second) =
      (digitsValue digit value first).bind fun n => digitsValue digit n second := by
  induction first generalizing value with
  | nil => rfl
  | cons d first ih =>
    rw [List.cons_append, digitsValue, digitsValue]
    cases digit d with
    | none => rfl
    | some n => exact ih _

theorem decimalNat_of_lt {n : Nat} (h : n < 10) : decimalNat n = [UInt8.ofNat (48 + n)] := by
  have hall : ∀ k < 10, decimalNat k = [UInt8.ofNat (48 + k)] := by decide
  exact hall n h

theorem decimalNat_of_ge {n : Nat} (h : 10 ≤ n) :
    decimalNat n = decimalNat (n / 10) ++ [UInt8.ofNat (48 + n % 10)] := by
  have hlast : ∀ k < 10, charByte (Nat.digitChar k) = UInt8.ofNat (48 + k) := by decide
  rw [decimalNat, Nat.toDigits_of_base_le (by decide) h, List.map_append, List.map_singleton,
    hlast _ (Nat.mod_lt n (by decide))]
  rfl

omit [DecidableEq α] in
theorem Writes.digitsValue_decimalNat (hw : Writes f plus minus digit) (n : Nat) :
    digitsValue digit 0 ((decimalNat n).map f) = some n := by
  have hdigit : ∀ k < 10, digit (f (UInt8.ofNat (48 + k))) = some k := by
    intro k hk
    have hbyte : (UInt8.ofNat (48 + k)).toNat = 48 + k := by
      rw [UInt8.toNat_ofNat']
      omega
    rw [(hw.digits _ (by omega) (by omega)).1, hbyte, Nat.add_sub_cancel_left]
  induction n using Nat.strongRecOn with
  | ind n ih =>
    by_cases hn : n < 10
    · rw [decimalNat_of_lt hn, List.map_singleton, digitsValue, hdigit n hn]
      dsimp only
      rw [digitsValue, Nat.zero_mul, Nat.zero_add]
    · have hge : 10 ≤ n := Nat.not_lt.mp hn
      rw [decimalNat_of_ge hge, List.map_append, List.map_singleton, digitsValue_append,
        ih (n / 10) (by omega), Option.bind_some, digitsValue,
        hdigit _ (Nat.mod_lt n (by decide))]
      dsimp only
      rw [digitsValue, Nat.div_add_mod']

theorem decimalNat_cons (n : Nat) :
    ∃ b rest, decimalNat n = b :: rest ∧ 48 ≤ b.toNat ∧ b.toNat ≤ 57 := by
  cases h : decimalNat n with
  | nil =>
    have hnil : Nat.toDigits 10 n = [] := List.map_eq_nil_iff.mp h
    exact absurd hnil Nat.toDigits_ne_nil
  | cons b rest =>
    have hb : b ∈ decimalNat n := h ▸ List.mem_cons_self ..
    obtain ⟨hlow, hhigh⟩ := digit_of_mem_decimalNat hb
    exact ⟨b, rest, rfl, hlow, hhigh⟩

/-- **A numeral of 64 bits is read back.** -/
theorem Writes.signedDigits_decimal (hw : Writes f plus minus digit) {n : Int} (hn : InInt64 n) :
    signedDigits plus minus digit ((decimal n).map f) = some n := by
  have hne : ∀ k, (decimalNat k).map f ≠ [] := by
    intro k hnil
    obtain ⟨b, rest, hcons, -⟩ := decimalNat_cons k
    rw [hcons] at hnil
    cases hnil
  cases n with
  | ofNat n =>
    obtain ⟨b, rest, hcons, hlow, hhigh⟩ := decimalNat_cons n
    obtain ⟨-, hplus, hminus⟩ := hw.digits b hlow hhigh
    have hvalue := hw.digitsValue_decimalNat n
    rw [decimal, hcons, List.map_cons] at *
    rw [signedDigits, if_neg hplus, if_neg hminus, unsignedDigits, if_neg (List.cons_ne_nil _ _),
      hvalue]
    exact if_pos hn
  | negSucc n =>
    have hvalue := hw.digitsValue_decimalNat (n + 1)
    rw [decimal, List.map_cons, hw.negative.1, signedDigits, if_neg hw.negative.2, if_pos rfl,
      unsignedDigits, if_neg (hne (n + 1)), hvalue]
    exact if_pos hn

end Reading

/-! ## ASCII -/

/-- The value of an ASCII digit. -/
def asciiDigit (b : UInt8) : Option Nat :=
  if 48 ≤ b ∧ b ≤ 57 then some (b.toNat - 48) else none

/-- A numeral of 64 bits in ASCII. -/
def parseInt64 (text : Bytes) : Option Int := signedDigits 43 45 asciiDigit text

theorem ascii_writes : Writes id 43 45 asciiDigit where
  negative := ⟨rfl, by decide⟩
  digits b hlow hhigh := by
    refine ⟨?_, ?_, ?_⟩
    · rw [id, asciiDigit, if_pos]
      exact ⟨UInt8.le_iff_toNat_le.mpr hlow, UInt8.le_iff_toNat_le.mpr hhigh⟩
    · rintro rfl
      exact absurd hlow (by decide)
    · rintro rfl
      exact absurd hlow (by decide)

theorem parseInt64_decimal {n : Int} (hn : InInt64 n) : parseInt64 (decimal n) = some n := by
  have hread := ascii_writes.signedDigits_decimal hn
  rw [List.map_id] at hread
  exact hread

end Numeral

/-! ## Narrowing casts -/

namespace Narrowing

/-- What a cast into the integers from `low` on and below `high` makes of `n`. -/
structure Narrowed (low high n m : Int) : Prop where
  range : low ≤ m ∧ m < high
  fixed : low ≤ n → n < high → m = n

/-- A cast of integers into those from `low` on and below `high`. -/
def Narrows (low high : Int) (cast : Int → Int) : Prop := ∀ n, Narrowed low high n (cast n)

variable {low high low' high' n m : Int} {cast cast' : Int → Int}

theorem Narrowed.eq_iff (h : Narrowed low high n m) : m = n ↔ low ≤ n ∧ n < high := by
  constructor
  · rintro rfl
    exact h.range
  · rintro ⟨hlow, hhigh⟩
    exact h.fixed hlow hhigh

/-- A cast through a wider type. -/
theorem Narrows.comp (outer : Narrows low high cast) (inner : Narrows low' high' cast')
    (hlow : low' ≤ low) (hhigh : high ≤ high') : Narrows low high (cast ∘ cast') := by
  intro n
  refine ⟨(outer (cast' n)).range, fun hl hh => ?_⟩
  have hinner : cast' n = n := (inner n).fixed (by omega) (by omega)
  rw [Function.comp_apply, hinner]
  exact (outer n).fixed hl hh

/-- The cast to an unsigned type. -/
theorem narrows_emod {m : Int} (hm : 0 < m) : Narrows 0 m (· % m) := fun n =>
  ⟨⟨Int.emod_nonneg n (by omega), Int.emod_lt_of_pos n hm⟩, Int.emod_eq_of_lt⟩

/-- The cast to a signed type. -/
theorem narrows_bmod {m half : Nat} (hm : m = 2 * half) (hpos : 0 < half) :
    Narrows (-half) half (Int.bmod · m) := by
  intro n
  have hlow := @Int.le_bmod n m (by omega)
  have hhigh := @Int.bmod_lt n m (by omega)
  have hrange : -(half : Int) ≤ Int.bmod n m ∧ Int.bmod n m < half := by omega
  exact ⟨hrange, fun hl hh => Int.bmod_eq_of_le_mul_two (by omega) (by omega)⟩

end Narrowing
