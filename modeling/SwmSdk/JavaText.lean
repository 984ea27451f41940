import Mathlib.Data.List.DropRight
import SwmSdk.ByteText

/-! # Java strings

The operations of `java.lang.String` that the SDK uses, on the UTF-8 bytes of the
text.
-/
namespace SwmSdk
namespace Java
open ByteText

/-- `String.isBlank`: every character is white space. -/
def isBlank : Bytes → Bool
  | 0xe1 :: 0x9a :: 0x80 :: rest => isBlank rest
  | 0xe2 :: 0x80 :: b :: rest =>
      ((0x80 ≤ b && b ≤ 0x86) || (0x88 ≤ b && b ≤ 0x8a) || b = 0xa8 || b = 0xa9) && isBlank rest
  | 0xe2 :: 0x81 :: 0x9f :: rest => isBlank rest
  | 0xe3 :: 0x80 :: 0x80 :: rest => isBlank rest
  | b :: rest => ((0x09 ≤ b && b ≤ 0x0d) || (0x1c ≤ b && b ≤ 0x20)) && isBlank rest
  | [] => true

/-- The case folding of `equalsIgnoreCase` as far as it reaches ASCII: besides the
letters, the Kelvin sign, the long s and the two Turkish letters. -/
def foldCase : Bytes → Bytes
  | 0xe2 :: 0x84 :: 0xaa :: rest => 0x6b :: foldCase rest
  | 0xc5 :: 0xbf :: rest => 0x73 :: foldCase rest
  | 0xc4 :: 0xb0 :: rest => 0x69 :: foldCase rest
  | 0xc4 :: 0xb1 :: rest => 0x69 :: foldCase rest
  | b :: rest => lowerByte b :: foldCase rest
  | [] => []

/-- `String.equalsIgnoreCase`, for a text that is compared with an ASCII one. -/
def equalsIgnoreCase (value asciiText : Bytes) : Bool := foldCase value = foldCase asciiText

/-- Against a text without `k`, `s` and `i`, folding changes ASCII letters only. -/
theorem foldCase_eq_lower {value : Bytes} (hk : 0x6b ∉ foldCase value)
    (hs : 0x73 ∉ foldCase value) (hi : 0x69 ∉ foldCase value) : foldCase value = lower value := by
  fun_induction foldCase value with
  | case1 rest ih => exact absurd (List.mem_cons_self ..) hk
  | case2 rest ih => exact absurd (List.mem_cons_self ..) hs
  | case3 rest ih => exact absurd (List.mem_cons_self ..) hi
  | case4 rest ih => exact absurd (List.mem_cons_self ..) hi
  | case5 b rest h₁ h₂ h₃ h₄ ih =>
    rw [ih (fun h => hk (List.mem_cons_of_mem _ h)) (fun h => hs (List.mem_cons_of_mem _ h))
      (fun h => hi (List.mem_cons_of_mem _ h))]
    rfl
  | case6 => rfl

/-- Hexadecimal digits are folded. -/
theorem foldCase_hex {value : Bytes}
    (h : ∀ d ∈ value, (48 ≤ d ∧ d ≤ 57) ∨ ((97 : UInt8) ≤ d ∧ d ≤ 102)) :
    foldCase value = value := by
  fun_induction foldCase value with
  | case1 rest ih => exact absurd (h 0xe2 (List.mem_cons_self ..)) (by decide)
  | case2 rest ih => exact absurd (h 0xc5 (List.mem_cons_self ..)) (by decide)
  | case3 rest ih => exact absurd (h 0xc4 (List.mem_cons_self ..)) (by decide)
  | case4 rest ih => exact absurd (h 0xc4 (List.mem_cons_self ..)) (by decide)
  | case5 b rest h₁ h₂ h₃ h₄ ih =>
    rw [lowerByte_hex (h b (List.mem_cons_self ..)),
      ih (fun d hd => h d (List.mem_cons_of_mem _ hd))]
  | case6 => rfl

theorem foldCase_ascii {value : Bytes} (h : ∀ b ∈ value, b < 0x80) :
    foldCase value = lower value := by
  fun_induction foldCase value with
  | case1 rest ih => exact absurd (h 0xe2 (List.mem_cons_self ..)) (by decide)
  | case2 rest ih => exact absurd (h 0xc5 (List.mem_cons_self ..)) (by decide)
  | case3 rest ih => exact absurd (h 0xc4 (List.mem_cons_self ..)) (by decide)
  | case4 rest ih => exact absurd (h 0xc4 (List.mem_cons_self ..)) (by decide)
  | case5 b rest h₁ h₂ h₃ h₄ ih =>
    rw [ih (fun d hd => h d (List.mem_cons_of_mem _ hd))]
    rfl
  | case6 => rfl

/-- **Against hexadecimal digits, only the case of ASCII letters is ignored.** -/
theorem equalsIgnoreCase_hex {value bytes : Bytes} :
    equalsIgnoreCase value (hex bytes) = true ↔ lower value = hex bytes := by
  rw [equalsIgnoreCase, decide_eq_true_iff, foldCase_hex fun d hd => mem_hex hd]
  constructor
  · intro hfold
    have hmem : ∀ d ∈ foldCase value, (48 ≤ d ∧ d ≤ 57) ∨ (97 ≤ d ∧ d ≤ 102) := by
      rw [hfold]
      exact fun d hd => mem_hex hd
    rw [← hfold, foldCase_eq_lower]
    · exact fun hd => absurd (hmem _ hd) (by decide)
    · exact fun hd => absurd (hmem _ hd) (by decide)
    · exact fun hd => absurd (hmem _ hd) (by decide)
  · intro hlower
    rw [foldCase_ascii (ascii_of_lower hlower), hlower]

/-- `String.trim`. -/
def trim (text : Bytes) : Bytes := (text.dropWhile (· ≤ 0x20)).rdropWhile (· ≤ 0x20)

/-- `String.length`: a character of four bytes counts twice. -/
def length (text : Bytes) : Nat :=
  (text.filter fun b => b < 0x80 || 0xc0 ≤ b).length + (text.filter fun b => 0xf0 ≤ b).length

/-- `String.toLowerCase(Locale.ROOT)`, of which only its action on ASCII is fixed here. -/
structure RootLocale where
  toLowerCase : Bytes → Bytes
  toLowerCase_ascii : ∀ text, (∀ b ∈ text, b < 0x80) → toLowerCase text = lower text

/-- `new String(bytes, UTF_8)`. -/
def utf8String (bytes : Bytes) : Bytes := lossyUtf8 (bytes.length + 1) bytes

end Java
end SwmSdk
