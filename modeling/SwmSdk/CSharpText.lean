import SwmSdk.ByteText

/-! # C# strings

The operations of `System.String` that the SDK uses, on the UTF-16 code units of the
text.  A text that came in as ASCII has one unit for each byte (`units`).
-/
namespace SwmSdk
namespace CSharp
open ByteText

/-- A `System.String`. -/
abbrev Text := List UInt16

/-- The code units of an ASCII text. -/
def units (bytes : Bytes) : Text := bytes.map UInt8.toUInt16

/-- The code point of a UTF-8 character with its continuation bytes. -/
def codePoint (b : UInt8) (rest : Bytes) : Nat :=
  rest.foldl (fun value c => value * 64 + c.toNat % 64) (b.toNat % 2 ^ (6 - rest.length))

/-- The code units of a code point. -/
def unitsOf (code : Nat) : Text :=
  if code < 0x10000 then [UInt16.ofNat code]
  else [UInt16.ofNat (0xd800 + (code - 0x10000) / 1024),
    UInt16.ofNat (0xdc00 + (code - 0x10000) % 1024)]

/-- `Encoding.UTF8.GetString`: U+FFFD stands for what is no UTF-8, as in `lossyUtf8`. -/
def decode : Nat → Bytes → Text
  | 0, _ => []
  | _ + 1, [] => []
  | fuel + 1, b :: rest =>
      if b < 0x80 then b.toUInt16 :: decode fuel rest
      else
        match continuation b with
        | none => 0xfffd :: decode fuel rest
        | some ranges =>
            let taken := takeInRanges ranges rest
            if taken.length = ranges.length then
              unitsOf (codePoint b taken) ++ decode fuel (rest.drop taken.length)
            else 0xfffd :: decode fuel (rest.drop taken.length)

/-- `Encoding.UTF8.GetString`: what is not UTF-8 becomes U+FFFD. -/
def getString (bytes : Bytes) : Text := decode bytes.length bytes

/-- `char.IsWhiteSpace`. -/
def isWhiteSpace (c : UInt16) : Bool :=
  (0x09 ≤ c && c ≤ 0x0d) || c = 0x20 || c = 0x85 || c = 0xa0 || c = 0x1680 ||
    (0x2000 ≤ c && c ≤ 0x200a) || c = 0x2028 || c = 0x2029 || c = 0x202f || c = 0x205f ||
    c = 0x3000

/-- `string.IsNullOrWhiteSpace`, of a text that is not null. -/
def isNullOrWhiteSpace (text : Text) : Bool := text.all isWhiteSpace

/-- `ToLowerInvariant` as far as it reaches ASCII: besides the letters, the Kelvin sign. -/
def toLowerInvariant (text : Text) : Text :=
  text.map fun c =>
    if 0x41 ≤ c ∧ c ≤ 0x5a then c + 0x20 else if c = 0x212a then 0x6b else c

theorem decode_ascii {bytes : Bytes} (h : ∀ b ∈ bytes, b < 0x80) {fuel : Nat}
    (hfuel : bytes.length ≤ fuel) : decode fuel bytes = units bytes := by
  induction bytes generalizing fuel with
  | nil =>
    cases fuel with
    | zero => rfl
    | succ fuel => rfl
  | cons b rest ih =>
    cases fuel with
    | zero => simp at hfuel
    | succ fuel =>
      rw [decode, if_pos (h b (List.mem_cons_self ..)),
        ih (fun c hc => h c (List.mem_cons_of_mem _ hc)) (by simpa using hfuel)]
      rfl

/-- ASCII is decoded byte by byte. -/
theorem getString_ascii {bytes : Bytes} (h : ∀ b ∈ bytes, b < 0x80) :
    getString bytes = units bytes :=
  decode_ascii h (Nat.le_refl _)

theorem units_injective {first second : Bytes} (h : units first = units second) :
    first = second :=
  List.map_injective_iff.mpr (fun a b hab => by
    have := congrArg UInt16.toNat hab
    exact UInt8.toNat_inj.mp (by simpa using this)) h

theorem toUInt16_inj {b c : UInt8} : b.toUInt16 = c.toUInt16 ↔ b = c := by
  refine ⟨fun h => ?_, congrArg _⟩
  have hunits : units [b] = units [c] := congrArg ([·]) h
  exact (List.cons.inj (units_injective hunits)).1

theorem mem_units {bytes : Bytes} {b : UInt8} : b.toUInt16 ∈ units bytes ↔ b ∈ bytes := by
  simp only [units, List.mem_map, toUInt16_inj, exists_eq_right]

/-- An ASCII text is split as its bytes are. -/
theorem units_splitOn (bytes : Bytes) (b : UInt8) :
    (units bytes).splitOn b.toUInt16 = (bytes.splitOn b).map units := by
  induction bytes with
  | nil => rfl
  | cons c bytes ih =>
    have hsame : (c.toUInt16 == b.toUInt16) = (c == b) := by
      rw [Bool.eq_iff_iff, beq_iff_eq, beq_iff_eq, toUInt16_inj]
    rw [units, List.map_cons, ← units, List.splitOn_cons_eq_if_modifyHead,
      List.splitOn_cons_eq_if_modifyHead, ih, hsame]
    split
    · rfl
    · cases bytes.splitOn b with
      | nil => rfl
      | cons part parts => rfl

/-- ASCII is put in lower case byte by byte. -/
theorem toLowerInvariant_units {bytes : Bytes} (h : ∀ b ∈ bytes, b < 0x80) :
    toLowerInvariant (units bytes) = units (lower bytes) := by
  rw [toLowerInvariant, units, units, lower, List.map_map, List.map_map]
  refine List.map_congr_left fun b hb => ?_
  have hsmall := h b hb
  simp only [UInt8.lt_iff_toNat_lt] at hsmall
  simp only [Function.comp_apply, lowerByte, UInt16.le_iff_toNat_le, UInt8.le_iff_toNat_le,
    ← UInt16.toNat_inj, UInt8.toNat_toUInt16]
  by_cases hupper : 65 ≤ b.toNat ∧ b.toNat ≤ 90
  · have hlower : ((65 : UInt8).toNat ≤ b.toNat ∧ b.toNat ≤ (90 : UInt8).toNat) := hupper
    have hunit : ((0x41 : UInt16).toNat ≤ b.toNat ∧ b.toNat ≤ (0x5a : UInt16).toNat) := hupper
    rw [if_pos hunit, if_pos hlower]
    simp
    omega
  · have hlower : ¬ ((65 : UInt8).toNat ≤ b.toNat ∧ b.toNat ≤ (90 : UInt8).toNat) := hupper
    have hunit : ¬ ((0x41 : UInt16).toNat ≤ b.toNat ∧ b.toNat ≤ (0x5a : UInt16).toNat) := hupper
    have hkelvin : ¬ b.toNat = (0x212a : UInt16).toNat := by
      simp at hsmall ⊢
      omega
    rw [if_neg hunit, if_neg hkelvin, if_neg hlower]
    rw [UInt8.toNat_toUInt16]

/-- The only white space among the printable ASCII characters is the space. -/
theorem isWhiteSpace_iff {b : UInt8} (hb : b < 0x80) (hprintable : 0x20 ≤ b) :
    isWhiteSpace b.toUInt16 = true ↔ b = 0x20 := by
  simp only [isWhiteSpace, Bool.or_eq_true, Bool.and_eq_true, decide_eq_true_eq,
    UInt16.le_iff_toNat_le, ← UInt16.toNat_inj, ← UInt8.toNat_inj, UInt8.lt_iff_toNat_lt,
    UInt8.le_iff_toNat_le, UInt8.toNat_toUInt16] at hb hprintable ⊢
  simp at hb hprintable ⊢
  omega

end CSharp
end SwmSdk
