import Mathlib.Algebra.Group.Int.Defs
import Mathlib.Algebra.Group.Nat.Defs
import Mathlib.Algebra.GroupWithZero.Nat
import Mathlib.Data.List.Basic
import Mathlib.Data.List.TakeWhile
import Mathlib.Tactic.Common

/-! # Byte strings

Texts on the wire are byte strings.  `ascii` reads a literal as its bytes, so
that a model can quote the texts of a protocol.  Decimal numerals, hexadecimal
digits and ASCII lower case are the conversions every text protocol needs; the
lemmas say what their results can hold and when they determine their argument.
-/
namespace ByteText

/-- A byte string. -/
abbrev Bytes := List UInt8

/-- The bytes of a literal. -/
def ascii (s : String) : Bytes := s.toByteArray.data.toList

/-- A literal is seen to be ASCII by evaluation. -/
theorem ascii_of_all {text : Bytes} (h : text.all (· < 0x80) = true) : ∀ b ∈ text, b < 0x80 :=
  fun b hb => of_decide_eq_true (List.all_eq_true.mp h b hb)

/-- The newline byte. -/
def newline : UInt8 := 10

/-! ## Decimal numerals -/

/-- The byte of a character below 256. -/
def charByte (c : Char) : UInt8 := UInt8.ofNat c.toNat

/-- The decimal numeral of a natural number. -/
def decimalNat (n : Nat) : Bytes := (Nat.toDigits 10 n).map charByte

/-- The decimal numeral of an integer. -/
def decimal : Int → Bytes
  | .ofNat n => decimalNat n
  | .negSucc n => 45 :: decimalNat (n + 1)

theorem decimal_ne_nil (n : Int) : decimal n ≠ [] := by
  cases n with
  | ofNat n => simp [decimal, decimalNat, Nat.toDigits_ne_nil]
  | negSucc n => exact List.cons_ne_nil _ _

theorem charByte_digit {c : Char} (h : c.isDigit) :
    48 ≤ (charByte c).toNat ∧ (charByte c).toNat ≤ 57 ∧ Char.ofNat (charByte c).toNat = c := by
  have hlow : 48 ≤ c.toNat ∧ c.toNat ≤ 57 := by
    simp only [Char.isDigit, Bool.and_eq_true, decide_eq_true_eq] at h
    exact ⟨h.1, h.2⟩
  have hbyte : (charByte c).toNat = c.toNat := by
    simp only [charByte, UInt8.toNat_ofNat']
    omega
  rw [hbyte]
  exact ⟨hlow.1, hlow.2, Char.ofNat_toNat c⟩

/-- A numeral holds digits only. -/
theorem digit_of_mem_decimalNat {n : Nat} {b : UInt8} (h : b ∈ decimalNat n) :
    48 ≤ b.toNat ∧ b.toNat ≤ 57 := by
  obtain ⟨c, hc, rfl⟩ := List.mem_map.mp h
  have hd := charByte_digit (Nat.isDigit_of_mem_toDigits (by decide) (by decide) hc)
  exact ⟨hd.1, hd.2.1⟩

theorem newline_notMem_decimal (n : Int) : newline ∉ decimal n := by
  intro h
  cases n with
  | ofNat n => exact absurd (digit_of_mem_decimalNat h).1 (by decide)
  | negSucc n =>
    rcases List.mem_cons.mp h with h | h
    · exact absurd h (by decide)
    · exact absurd (digit_of_mem_decimalNat h).1 (by decide)

/-- **A numeral determines its number.** -/
theorem decimalNat_inj {m n : Nat} (h : decimalNat m = decimalNat n) : m = n := by
  have back : ∀ k, (decimalNat k).map (fun b => Char.ofNat b.toNat) = Nat.toDigits 10 k := by
    intro k
    rw [decimalNat, List.map_map]
    refine (List.map_congr_left fun c hc => ?_).trans (List.map_id _)
    exact (charByte_digit (Nat.isDigit_of_mem_toDigits (by decide) (by decide) hc)).2.2
  have hdigits : Nat.toDigits 10 m = Nat.toDigits 10 n := by rw [← back m, h, back n]
  rw [← @Nat.ofDigitChars_ten_toDigits m, hdigits, Nat.ofDigitChars_ten_toDigits]

theorem decimal_inj {m n : Int} (h : decimal m = decimal n) : m = n := by
  have apart : ∀ (k : Nat) (rest : Bytes), decimalNat k ≠ 45 :: rest := by
    intro k rest he
    have hm : (45 : UInt8) ∈ decimalNat k := he ▸ List.mem_cons_self ..
    exact absurd (digit_of_mem_decimalNat hm).1 (by decide)
  cases m with
  | ofNat m =>
    cases n with
    | ofNat n => exact congrArg _ (decimalNat_inj h)
    | negSucc n => exact absurd h (apart m _)
  | negSucc m =>
    cases n with
    | ofNat n => exact absurd h.symm (apart n _)
    | negSucc n => exact congrArg _ (Nat.succ_inj.mp (decimalNat_inj (List.tail_eq_of_cons_eq h)))

/-! ## Hexadecimal and case -/

/-- The lower-case hexadecimal digit of a half byte. -/
def hexDigit (n : Nat) : UInt8 := UInt8.ofNat (if n < 10 then 48 + n else 87 + n)

/-- Two lower-case hexadecimal digits for each byte. -/
def hex (bytes : Bytes) : Bytes :=
  bytes.flatMap fun b => [hexDigit (b.toNat / 16), hexDigit (b.toNat % 16)]

theorem hex_length (bytes : Bytes) : (hex bytes).length = 2 * bytes.length := by
  induction bytes with
  | nil => rfl
  | cons b bytes ih =>
    rw [hex, List.flatMap_cons, List.length_append, ← hex, ih, List.length_cons]
    simp only [List.length_cons, List.length_nil]
    omega

/-- `hex` writes digits and the letters `a` to `f`. -/
theorem mem_hex {bytes : Bytes} {d : UInt8} (h : d ∈ hex bytes) :
    (48 ≤ d ∧ d ≤ 57) ∨ (97 ≤ d ∧ d ≤ 102) := by
  have digit : ∀ n < 16, (48 ≤ hexDigit n ∧ hexDigit n ≤ 57) ∨
      (97 ≤ hexDigit n ∧ hexDigit n ≤ 102) := by decide
  obtain ⟨b, -, hd⟩ := List.mem_flatMap.mp h
  have hb : b.toNat < 256 := b.toNat_lt
  simp only [List.mem_cons, List.not_mem_nil, or_false] at hd
  rcases hd with rfl | rfl
  · exact digit _ (by omega)
  · exact digit _ (by omega)

/-- The value of a hexadecimal digit of either case. -/
def hexValue (d : UInt8) : Option Nat :=
  if 48 ≤ d ∧ d ≤ 57 then some (d.toNat - 48)
  else if 97 ≤ d ∧ d ≤ 102 then some (d.toNat - 87)
  else if 65 ≤ d ∧ d ≤ 70 then some (d.toNat - 55)
  else none

/-- The bytes that pairs of hexadecimal digits write. -/
def unhex : Bytes → Option Bytes
  | [] => some []
  | [_] => none
  | a :: b :: rest =>
      match hexValue a, hexValue b, unhex rest with
      | some high, some low, some bytes => some (UInt8.ofNat (16 * high + low) :: bytes)
      | _, _, _ => none

theorem hexValue_hexDigit : ∀ n < 16, hexValue (hexDigit n) = some n := by decide

/-- **Hexadecimal digits are read back.** -/
theorem unhex_hex (bytes : Bytes) : unhex (hex bytes) = some bytes := by
  induction bytes with
  | nil => rfl
  | cons b bytes ih =>
    have hb : b.toNat < 256 := b.toNat_lt
    have hbyte : UInt8.ofNat (16 * (b.toNat / 16) + b.toNat % 16) = b := by
      rw [Nat.div_add_mod, UInt8.ofNat_toNat]
    rw [hex, List.flatMap_cons, List.cons_append, List.cons_append, List.nil_append, ← hex, unhex,
      hexValue_hexDigit _ (by omega), hexValue_hexDigit _ (by omega), ih]
    dsimp only
    rw [hbyte]

/-- An ASCII upper-case letter becomes lower case; other bytes stay. -/
def lowerByte (b : UInt8) : UInt8 := if 65 ≤ b ∧ b ≤ 90 then b + 32 else b

/-- The text with its ASCII letters in lower case. -/
def lower (bytes : Bytes) : Bytes := bytes.map lowerByte

theorem lower_length (bytes : Bytes) : (lower bytes).length = bytes.length :=
  List.length_map ..

/-- A hexadecimal digit is in lower case. -/
theorem lowerByte_hex {d : UInt8} (hd : (48 ≤ d ∧ d ≤ 57) ∨ (97 ≤ d ∧ d ≤ 102)) :
    lowerByte d = d := by
  rw [lowerByte, if_neg]
  rintro ⟨hlow, hhigh⟩
  simp only [UInt8.le_iff_toNat_le] at hd hlow hhigh
  simp at hd hlow hhigh
  omega

theorem lower_hex (bytes : Bytes) : lower (hex bytes) = hex bytes :=
  (List.map_congr_left (g := id) fun _ hd => lowerByte_hex (mem_hex hd)).trans (List.map_id _)

/-- A text whose lower case is hexadecimal is ASCII. -/
theorem ascii_of_lower {value bytes : Bytes} (h : lower value = hex bytes) :
    ∀ b ∈ value, b < 0x80 := by
  intro b hb
  have hlower : lowerByte b ∈ lower value := List.mem_map_of_mem hb
  have hmem := mem_hex (h ▸ hlower)
  by_contra hlarge
  have hb : lowerByte b = b := by
    rw [lowerByte, if_neg]
    rintro ⟨-, hhigh⟩
    simp only [UInt8.lt_iff_toNat_lt, UInt8.le_iff_toNat_le] at hlarge hhigh
    simp at hlarge hhigh
    omega
  rw [hb] at hmem
  simp only [UInt8.lt_iff_toNat_lt, UInt8.le_iff_toNat_le] at hlarge hmem
  simp at hlarge hmem
  omega

/-! ## Parts of a text -/

/-- The parts of a text hold its bytes but the separator. -/
theorem forall_mem_splitOn {α : Type} [BEq α] [LawfulBEq α] {p : α → Prop} (text : List α) (b : α) :
    (∀ part ∈ text.splitOn b, ∀ c ∈ part, p c) ↔ ∀ c ∈ text, c ≠ b → p c := by
  induction text with
  | nil => simp
  | cons d text ih =>
    rw [List.splitOn_cons_eq_if_modifyHead, List.forall_mem_cons]
    by_cases hd : d = b
    · rw [if_pos (beq_iff_eq.mpr hd), List.forall_mem_cons, ih]
      simp [hd]
    · rw [if_neg (by simpa using hd), ← ih]
      cases hparts : text.splitOn b with
      | nil => exact absurd hparts (List.splitOn_ne_nil b text)
      | cons part parts =>
        simp only [List.modifyHead_cons, List.forall_mem_cons]
        tauto

/-- What goes before the first occurrence of a byte is dropped. -/
theorem dropWhile_ne_cases (c : UInt8) (text : Bytes) :
    text.dropWhile (· ≠ c) = [] ∨ ∃ rest, text.dropWhile (· ≠ c) = c :: rest := by
  have hhead := List.head?_dropWhile_not (· ≠ c) text
  cases hrest : text.dropWhile (· ≠ c) with
  | nil => exact .inl rfl
  | cons b rest =>
    rw [hrest] at hhead
    have hb : b = c := by simpa using hhead
    exact .inr ⟨rest, by rw [hb]⟩

/-- A text is cut at the first occurrence of a byte. -/
theorem takeWhile_ne_append {c : UInt8} {text : Bytes} (h : c ∈ text) :
    text.takeWhile (· ≠ c) ++ c :: (text.dropWhile (· ≠ c)).tail = text := by
  rcases dropWhile_ne_cases c text with hnil | ⟨rest, hrest⟩
  · rw [List.dropWhile_eq_nil_iff] at hnil
    exact absurd rfl (of_decide_eq_true (hnil _ h))
  · have hsplit := List.takeWhile_append_dropWhile (p := (· ≠ c)) (l := text)
    rw [hrest] at hsplit ⊢
    exact hsplit

/-! ## UTF-8 -/

/-- The ranges of the bytes after the first byte of a UTF-8 character; none for a byte
that starts no character. -/
def continuation (b : UInt8) : Option (List (UInt8 × UInt8)) :=
  if 0xc2 ≤ b ∧ b ≤ 0xdf then some [(0x80, 0xbf)]
  else if b = 0xe0 then some [(0xa0, 0xbf), (0x80, 0xbf)]
  else if b = 0xed then some [(0x80, 0x9f), (0x80, 0xbf)]
  else if 0xe1 ≤ b ∧ b ≤ 0xef then some [(0x80, 0xbf), (0x80, 0xbf)]
  else if b = 0xf0 then some [(0x90, 0xbf), (0x80, 0xbf), (0x80, 0xbf)]
  else if 0xf1 ≤ b ∧ b ≤ 0xf3 then some [(0x80, 0xbf), (0x80, 0xbf), (0x80, 0xbf)]
  else if b = 0xf4 then some [(0x80, 0x8f), (0x80, 0xbf), (0x80, 0xbf)]
  else none

theorem continuation_low {b : UInt8} {ranges : List (UInt8 × UInt8)}
    (h : continuation b = some ranges) : ∀ r ∈ ranges, (0x80 : UInt8) ≤ r.1 := by
  unfold continuation at h
  split_ifs at h <;>
    (obtain rfl := Option.some.inj h
     simp only [List.mem_cons, List.not_mem_nil, or_false, forall_eq_or_imp, forall_eq]
     decide)

/-- The longest part of the bytes that lies in the ranges, byte by byte. -/
def takeInRanges : List (UInt8 × UInt8) → Bytes → Bytes
  | (low, high) :: ranges, b :: rest =>
      if low ≤ b ∧ b ≤ high then b :: takeInRanges ranges rest else []
  | _, _ => []

/-- Decoding that puts U+FFFD for the longest part of a character that is cut short,
and for a byte that starts no character. -/
def lossyUtf8 : Nat → Bytes → Bytes
  | 0, _ => []
  | _ + 1, [] => []
  | fuel + 1, b :: rest =>
      if b < 0x80 then b :: lossyUtf8 fuel rest
      else
        match continuation b with
        | none => [0xef, 0xbf, 0xbd] ++ lossyUtf8 fuel rest
        | some ranges =>
            let taken := takeInRanges ranges rest
            if taken.length = ranges.length then
              b :: taken ++ lossyUtf8 fuel (rest.drop taken.length)
            else [0xef, 0xbf, 0xbd] ++ lossyUtf8 fuel (rest.drop taken.length)

theorem lossyUtf8_ascii {bytes : Bytes} (h : ∀ b ∈ bytes, b < 0x80) {fuel : Nat}
    (hfuel : bytes.length ≤ fuel) : lossyUtf8 fuel bytes = bytes := by
  induction bytes generalizing fuel with
  | nil =>
    cases fuel with
    | zero => rfl
    | succ fuel => rfl
  | cons b rest ih =>
    cases fuel with
    | zero => simp at hfuel
    | succ fuel =>
      rw [lossyUtf8, if_pos (h b (List.mem_cons_self ..)),
        ih (fun c hc => h c (List.mem_cons_of_mem _ hc)) (by simpa using hfuel)]

/-- The bytes are UTF-8. -/
def isUtf8 : Nat → Bytes → Bool
  | _, [] => true
  | 0, _ => false
  | fuel + 1, b :: rest =>
      if b < 0x80 then isUtf8 fuel rest
      else
        match continuation b with
        | none => false
        | some ranges =>
            let taken := takeInRanges ranges rest
            taken.length = ranges.length && isUtf8 fuel (rest.drop taken.length)

/-- The bytes are UTF-8; every character takes at least one of them. -/
def validUtf8 (bytes : Bytes) : Bool := isUtf8 bytes.length bytes

theorem validUtf8_ascii {bytes : Bytes} (h : ∀ b ∈ bytes, b < 0x80) : validUtf8 bytes = true := by
  unfold validUtf8
  induction bytes with
  | nil => rfl
  | cons b rest ih =>
    rw [List.length_cons, isUtf8, if_pos (h b (List.mem_cons_self ..))]
    exact ih fun c hc => h c (List.mem_cons_of_mem _ hc)

end ByteText
