import SwmSdk.Base64Text
import SwmSdk.BodyAadPython
import SwmSdk.DeviceIdRust
import SwmSdk.KeyMaterial

/-! # The texts of keys

A key travels as a text, in hexadecimal or in base64url.  `decode_key_material` guesses which of the
two it is: first it tries hexadecimal, then base64, then base64url, each SDK with the decoders of
its platform.  Every one of them reads a key back from either text (`KeyText`).
-/
namespace SwmSdk
open ByteText

/-- The texts that a key is sent as. -/
inductive KeyText (key : Bytes) : Bytes → Prop where
  | hex : KeyText key (hex key)
  | base64url : KeyText key (Base64Url.encode key)

/-! ## Go -/

namespace Go

/-- The decoders of `encoding/base64` pass over line breaks. -/
def withoutBreaks (text : Bytes) : Bytes := text.filter fun b => b ≠ 0x0a ∧ b ≠ 0x0d

/-- `base64URLDecode`. -/
def base64URLDecode (value : Bytes) : Option Bytes :=
  let value := withoutBreaks (trimSpace value)
  Base64Text.raw Base64Text.url false value <|> Base64Text.padded Base64Text.url false value

/-- `decodeKeyMaterial`; none for its errors. -/
def decodeKeyMaterial (value : Bytes) : Option Bytes :=
  let input := trimSpace value
  if input = [] then none
  else
    (if input.length % 2 = 0 then unhex input else none) <|>
      Base64Text.padded Base64Text.standard false (withoutBreaks input) <|> base64URLDecode input

end Go

/-! ## Java -/

namespace Java

/-- `CryptoUtil.decodeKeyMaterial`, of a text that is not null. -/
def decodeKeyMaterial (value : Bytes) : Except Thrown Bytes :=
  let cleaned := trim value
  if cleaned = [] then .error (invalid "empty key material")
  else if cleaned.length % 2 = 0 ∧ cleaned.all (fun b => (hexValue b).isSome) then
    match unhex cleaned with
    | some bytes => .ok bytes
    | none => .error (invalid "invalid hexadecimal value")
  else
    -- the URL decoder of `java.util.Base64` takes a text with its padding or without
    match Base64Text.optionallyPadded Base64Text.url false cleaned with
    | some bytes => .ok bytes
    | none => .error (invalid "invalid key material")
where
  /-- `SwmException.Configuration`. -/
  invalid (message : String) : Thrown :=
    .swm { kind := .configuration, statusCode := 0, serviceCode := [], message := ascii message }

end Java

/-! ## C# -/

namespace CSharp

/-- `Convert.FromBase64String`, which passes over blanks. -/
def fromBase64String (text : Text) : Option Bytes :=
  let digits := text.filter fun c => c ≠ 0x20 ∧ c ≠ 0x09 ∧ c ≠ 0x0a ∧ c ≠ 0x0d
  if digits.all (· < 0x80) then
    Base64Text.padded Base64Text.standard false (digits.map UInt16.toUInt8)
  else none

/-- `Base64UrlDecode`. -/
def base64UrlDecode (value : Text) : Option Bytes :=
  let normalized := (trim value).map fun c =>
    if c = 0x2d then 0x2b else if c = 0x5f then 0x2f else c
  fromBase64String (normalized ++ List.replicate ((4 - normalized.length % 4) % 4) 0x3d)

/-- `Uri.IsHexDigit`. -/
def isHexDigit (c : UInt16) : Bool := c < 0x80 && (hexValue c.toUInt8).isSome

/-- `DecodeKeyMaterial`, of a text that is given by its UTF-8 bytes; all its exceptions are
`FormatException`. -/
def decodeKeyMaterial (value : Bytes) : Except Thrown Bytes :=
  let input := trim (getString value)
  let decoded :=
    if input = [] then none
    else if input.length % 2 = 0 ∧ input.all isHexDigit then unhex (input.map UInt16.toUInt8)
    else fromBase64String input <|> base64UrlDecode input
  match decoded with
  | some bytes => .ok bytes
  | none => .error .format

end CSharp

/-! ## The decoders of the libraries -/

/-- What Rust is promised of its base64 decoders. -/
structure Rust.Crates.Lawful (crates : Rust.Crates) : Prop where
  standardDecode_unfilled : ∀ text, text.length % 4 ≠ 0 → crates.standardDecode text = none
  urlSafeDecode_encode : ∀ bytes, crates.urlSafeDecode (Base64Url.encode bytes) = .ok bytes

/-- What Python is promised of `bytes.fromhex` and of `base64.b64decode` with `validate`. -/
structure Python.Libraries.Lawful (libraries : Python.Libraries) : Prop where
  fromHex_hex : ∀ bytes, libraries.fromHex (hex bytes) = some bytes
  b64decode_unfilled : ∀ text, 0x3d ∉ text → text.length % 4 ≠ 0 → libraries.b64decode text = none
  b64decode_encode : ∀ bytes, libraries.b64decode (Base64Text.encodeStandard bytes) = some bytes

/-! ## Blanks -/

/-- A text without blanks, which only ASCII is in. -/
def VisibleText (text : Bytes) : Prop := ∀ b ∈ text, Go.VisibleByte b

namespace VisibleText
variable {text : Bytes}

theorem trimStart (h : VisibleText text) : Go.trimStart text = text := by
  unfold VisibleText at h
  fun_cases Go.trimStart text with
  | case1 rest => exact absurd (h _ (List.mem_cons_self ..)) (by decide)
  | case2 rest => exact absurd (h _ (List.mem_cons_self ..)) (by decide)
  | case3 rest => exact absurd (h _ (List.mem_cons_self ..)) (by decide)
  | case4 b rest => exact absurd (h _ (List.mem_cons_self ..)) (by decide)
  | case5 => rfl
  | case6 rest => exact absurd (h _ (List.mem_cons_self ..)) (by decide)
  | case7 rest => exact absurd (h _ (List.mem_cons_self ..)) (by decide)
  | case8 b rest _ _ _ _ _ _ hblank =>
    exact absurd (h _ (List.mem_cons_self ..)) (Go.not_visible_of_space hblank)
  | case9 => rfl
  | case10 => rfl

theorem trimEnd (h : VisibleText text) : Go.trimEnd text = text := by
  unfold VisibleText at h
  fun_cases Go.trimEnd text with
  | case1 rest => exact absurd (h _ (List.mem_cons_self ..)) (by decide)
  | case2 rest => exact absurd (h _ (List.mem_cons_self ..)) (by decide)
  | case3 rest => exact absurd (h _ (List.mem_cons_self ..)) (by decide)
  | case4 rest => exact absurd (h _ (List.mem_cons_self ..)) (by decide)
  | case5 rest => exact absurd (h _ (List.mem_cons_self ..)) (by decide)
  | case6 b rest hblank =>
    exact absurd (h _ (List.mem_cons_self ..)) (Go.not_visible_of_blank hblank)
  | case7 => rfl
  | case8 b rest _ _ _ _ _ _ hblank =>
    exact absurd (h _ (List.mem_cons_self ..)) (Go.not_visible_of_space hblank)
  | case9 => rfl
  | case10 => rfl

theorem reverse (h : VisibleText text) : VisibleText text.reverse :=
  fun b hb => h b (List.mem_reverse.mp hb)

theorem trimSpace (h : VisibleText text) : Go.trimSpace text = text := by
  rw [Go.trimSpace, h.trimStart, h.reverse.trimEnd, List.reverse_reverse]

/-- Dropping what is not visible from both ends drops nothing. -/
theorem ends {α : Type} {blank : α → Bool} {text : List α} (h : ∀ a ∈ text, blank a = false) :
    (text.dropWhile blank).rdropWhile blank = text := by
  have hfront : text.dropWhile blank = text := by
    cases text with
    | nil => rfl
    | cons a text => exact List.dropWhile_cons_of_neg (by simp [h a (List.mem_cons_self ..)])
  rw [hfront, List.rdropWhile_eq_self_iff]
  intro hne
  rw [h _ (List.getLast_mem hne)]
  exact Bool.false_ne_true

theorem java_trim (h : VisibleText text) : Java.trim text = text :=
  ends fun b hb => decide_eq_false (UInt8.not_le.mpr (h b hb).1)

theorem csharp_trim (h : VisibleText text) :
    CSharp.trim (CSharp.units text) = CSharp.units text := by
  apply ends
  intro c hc
  obtain ⟨b, hb, rfl⟩ := List.mem_map.mp hc
  obtain ⟨hlow, hhigh⟩ := h b hb
  rw [Bool.eq_false_iff]
  intro hblank
  rw [CSharp.isWhiteSpace_iff hhigh (UInt8.le_of_lt hlow)] at hblank
  exact absurd (hblank ▸ hlow) (by decide)

theorem getString (h : VisibleText text) : CSharp.getString text = CSharp.units text :=
  CSharp.getString_ascii fun b hb => (h b hb).2

/-- The decoders have no blank to pass over. -/
theorem withoutBreaks (h : VisibleText text) : Go.withoutBreaks text = text := by
  rw [Go.withoutBreaks, List.filter_eq_self]
  intro b hb
  have hvisible := h b hb
  rw [decide_eq_true_iff]
  constructor
  · rintro rfl
    exact absurd hvisible (by decide)
  · rintro rfl
    exact absurd hvisible (by decide)

end VisibleText

theorem visible_encode (bytes : Bytes) : VisibleText (Base64Url.encode bytes) := by
  have hdigit : ∀ n < 64, Go.VisibleByte (Base64Url.digit n) := by decide
  intro b hb
  obtain ⟨n, hn, rfl⟩ := Cpp.mem_encode hb
  exact hdigit n hn

/-! ## Code units of ASCII -/

theorem CSharp.toUInt8_units (text : Bytes) : (CSharp.units text).map UInt16.toUInt8 = text := by
  rw [CSharp.units, List.map_map]
  exact (List.map_congr_left fun b _ => by simp).trans (List.map_id _)

theorem CSharp.toUInt16_lt {b : UInt8} (h : b < 0x80) : b.toUInt16 < 0x80 := by
  rw [UInt16.lt_iff_toNat_lt, UInt8.toNat_toUInt16]
  exact UInt8.lt_iff_toNat_lt.mp h

theorem CSharp.fromBase64String_units {text : Bytes} (h : VisibleText text) :
    CSharp.fromBase64String (CSharp.units text) =
      Base64Text.padded Base64Text.standard false text := by
  have hdigits : ((CSharp.units text).filter fun c =>
      c ≠ 0x20 ∧ c ≠ 0x09 ∧ c ≠ 0x0a ∧ c ≠ 0x0d) = CSharp.units text := by
    rw [List.filter_eq_self]
    intro c hc
    obtain ⟨b, hb, rfl⟩ := List.mem_map.mp hc
    have hlow := (h b hb).1
    simp only [decide_eq_true_iff, ne_eq, ← UInt16.toNat_inj, UInt8.toNat_toUInt16,
      UInt8.lt_iff_toNat_lt] at hlow ⊢
    simp at hlow ⊢
    omega
  have hascii : (CSharp.units text).all (· < 0x80) = true := by
    rw [List.all_eq_true]
    intro c hc
    obtain ⟨b, hb, rfl⟩ := List.mem_map.mp hc
    exact decide_eq_true (CSharp.toUInt16_lt (h b hb).2)
  rw [CSharp.fromBase64String, hdigits, if_pos hascii, CSharp.toUInt8_units]

theorem visible_encodeStandard (bytes : Bytes) : VisibleText (Base64Text.encodeStandard bytes) := by
  have hdigit : ∀ n < 64, Go.VisibleByte (Base64Text.toStandard (Base64Url.digit n)) := by decide
  intro b hb
  rcases List.mem_append.mp hb with hb | hb
  · obtain ⟨d, hd, rfl⟩ := List.mem_map.mp hb
    obtain ⟨n, hn, rfl⟩ := Cpp.mem_encode hd
    exact hdigit n hn
  · rw [List.eq_of_mem_replicate hb]
    decide

/-- The digits of base64url are replaced, and the text filled. -/
theorem CSharp.base64UrlDecode_encode (bytes : Bytes) :
    CSharp.base64UrlDecode (CSharp.units (Base64Url.encode bytes)) = some bytes := by
  have hdigit : ∀ b : UInt8, (if b.toUInt16 = 0x2d then 0x2b else
      if b.toUInt16 = 0x5f then 0x2f else b.toUInt16) = (Base64Text.toStandard b).toUInt16 := by
    intro b
    rw [Base64Text.toStandard, apply_ite UInt8.toUInt16, apply_ite UInt8.toUInt16]
    exact if_congr (CSharp.toUInt16_inj (c := 0x2d)) rfl
      (if_congr (CSharp.toUInt16_inj (c := 0x5f)) rfl rfl)
  have hnormalized : (CSharp.units (Base64Url.encode bytes)).map (fun c =>
      if c = 0x2d then 0x2b else if c = 0x5f then 0x2f else c) =
      CSharp.units ((Base64Url.encode bytes).map Base64Text.toStandard) := by
    rw [CSharp.units, CSharp.units, List.map_map, List.map_map]
    exact List.map_congr_left fun b _ => hdigit b
  have htext : CSharp.units ((Base64Url.encode bytes).map Base64Text.toStandard) ++
      List.replicate ((4 - (Base64Url.encode bytes).length % 4) % 4) 0x3d =
      CSharp.units (Base64Text.encodeStandard bytes) := by
    rw [Base64Text.encodeStandard, Base64Text.fill, CSharp.units, CSharp.units, List.map_append,
      List.map_replicate]
    rfl
  rw [CSharp.base64UrlDecode, (visible_encode bytes).csharp_trim, hnormalized]
  rw [CSharp.units, List.length_map, List.length_map, ← CSharp.units, htext,
    CSharp.fromBase64String_units (visible_encodeStandard bytes),
    Base64Text.padded_encodeStandard]

/-! ## Every SDK reads every text of a key -/

/-- An even number of hexadecimal digits is read as the bytes it spells. -/
theorem unhex_isSome_iff {text : Bytes} :
    (unhex text).isSome ↔ text.length % 2 = 0 ∧ Cpp.HexText text := by
  fun_induction unhex text with
  | case1 => simp [Cpp.HexText]
  | case2 a => simp
  | case3 a b rest high low tail htail hb ha ih =>
    rw [htail] at ih
    have hrest := ih.mp rfl
    refine iff_of_true rfl ⟨by simp only [List.length_cons]; omega, ?_⟩
    intro d hd
    simp only [List.mem_cons] at hd
    rcases hd with rfl | rfl | hd
    · rw [ha]; rfl
    · rw [hb]; rfl
    · exact hrest.2 d hd
  | case4 a b rest hnone ih =>
    refine iff_of_false (by simp) ?_
    rintro ⟨heven, hhex⟩
    obtain ⟨high, ha⟩ := Option.isSome_iff_exists.mp (hhex a (by simp))
    obtain ⟨low, hb⟩ := Option.isSome_iff_exists.mp (hhex b (by simp))
    obtain ⟨tail, htail⟩ := Option.isSome_iff_exists.mp
      (ih.mpr ⟨by simp only [List.length_cons] at heven; omega, fun d hd => hhex d (by simp [hd])⟩)
    exact hnone high low tail ha hb htail

/-- The texts that every SDK reads as the same bytes: hexadecimal digits, and base64url that is not
mistaken for them and that the standard decoders do not take. -/
inductive KeyMaterial : Bytes → Bytes → Prop where
  | hex {text bytes : Bytes} (ne_nil : text ≠ []) (read : unhex text = some bytes) :
      KeyMaterial text bytes
  | base64url {bytes : Bytes} (ne_nil : bytes ≠ [])
      (unhexed : unhex (Base64Url.encode bytes) = none)
      (unfilled : (Base64Url.encode bytes).length % 4 ≠ 0) :
      KeyMaterial (Base64Url.encode bytes) bytes

/-- `bytes.fromhex`, of a text without blanks. -/
def Python.Libraries.ReadsHex (libraries : Python.Libraries) : Prop :=
  ∀ text, VisibleText text → libraries.fromHex text = unhex text

/-- The text that `base64url_decode` makes of a base64url text. -/
theorem Python.b64decode_filled {libraries : Python.Libraries} (hlibraries : libraries.Lawful)
    (bytes : Bytes) :
    libraries.b64decode ((Base64Url.encode bytes).map (fun b =>
      if b = 0x2d then 0x2b else if b = 0x5f then 0x2f else b) ++
        List.replicate ((4 - (Base64Url.encode bytes).length % 4) % 4) 0x3d) = some bytes :=
  hlibraries.b64decode_encode bytes

/-- There is a text to decode, and nothing to trim from it. -/
structure KeyMaterial.Read (text : Bytes) : Prop where
  visible : VisibleText text
  ne_nil : text ≠ []

theorem hexValue_range {b : UInt8} (h : (hexValue b).isSome) : 48 ≤ b ∧ b ≤ 102 := by
  unfold hexValue at h
  split_ifs at h with hdigit hlow hhigh
  · exact ⟨hdigit.1, UInt8.le_trans hdigit.2 (by decide)⟩
  · exact ⟨UInt8.le_trans (by decide) hlow.1, hlow.2⟩
  · exact ⟨UInt8.le_trans (by decide) hhigh.1, UInt8.le_trans hhigh.2 (by decide)⟩
  · cases h

theorem visible_hexText {text : Bytes} (h : Cpp.HexText text) : VisibleText text := by
  intro b hb
  obtain ⟨hlow, hhigh⟩ := hexValue_range (h b hb)
  exact ⟨UInt8.lt_of_lt_of_le (by decide) hlow, UInt8.lt_of_le_of_lt hhigh (by decide)⟩

theorem notBlank_hexValue {b : UInt8} (h : (hexValue b).isSome) :
    Cpp.trimAscii.isBlankByte b = false := by
  obtain ⟨hlow, hhigh⟩ := hexValue_range h
  simp only [Cpp.trimAscii.isBlankByte, Bool.or_eq_false_iff, decide_eq_false_iff_not,
    UInt8.not_le]
  refine ⟨UInt8.lt_of_lt_of_le (by decide) hlow, ?_⟩
  rintro rfl
  exact absurd hhigh (by decide)

theorem encode_ne_nil {bytes : Bytes} (h : bytes ≠ []) : Base64Url.encode bytes ≠ [] := by
  apply List.ne_nil_of_length_pos
  have hpos := List.length_pos_iff.mpr h
  rw [Cpp.encode_length]
  omega

section Material
variable {text bytes : Bytes} (h : KeyMaterial text bytes)
include h

theorem KeyMaterial.read : KeyMaterial.Read text := by
  cases h with
  | hex ne_nil read =>
    exact ⟨visible_hexText (unhex_isSome_iff.mp (Option.isSome_of_eq_some read)).2, ne_nil⟩
  | base64url ne_nil => exact ⟨visible_encode bytes, encode_ne_nil ne_nil⟩

theorem Cpp.decodeKeyMaterial_read : Cpp.decodeKeyMaterial text = .ok bytes := by
  cases h with
  | hex ne_nil read =>
    have htext := unhex_isSome_iff.mp (Option.isSome_of_eq_some read)
    have hblank : ∀ b ∈ text, Cpp.trimAscii.isBlankByte b = false := fun b hb =>
      notBlank_hexValue (htext.2 b hb)
    rw [Cpp.decodeKeyMaterial_of_notBlank ne_nil hblank, if_pos htext, Cpp.hexDecode, read]
  | base64url ne_nil unhexed =>
    rw [← Cpp.base64urlEncode_eq] at unhexed ⊢
    refine Cpp.decodeKeyMaterial_encode ne_nil fun hguess => ?_
    have hsome := unhex_isSome_iff.mpr hguess
    rw [unhexed] at hsome
    cases hsome

theorem Go.decodeKeyMaterial_read : Go.decodeKeyMaterial text = some bytes := by
  obtain ⟨hvisible, hne⟩ := h.read
  rw [Go.decodeKeyMaterial, hvisible.trimSpace]
  rw [if_neg hne]
  cases h with
  | hex ne_nil read =>
    rw [if_pos (unhex_isSome_iff.mp (Option.isSome_of_eq_some read)).1, read]
    rfl
  | base64url ne_nil unhexed unfilled =>
    rw [unhexed, ite_self, hvisible.withoutBreaks, Base64Text.padded_eq_none unfilled,
      Go.base64URLDecode, hvisible.trimSpace, hvisible.withoutBreaks, Base64Text.raw_encode]
    rfl

theorem Rust.decodeKeyMaterial_read {crates : Rust.Crates} (hcrates : crates.Lawful) :
    Rust.decodeKeyMaterial crates text = .ok bytes := by
  obtain ⟨hvisible, hne⟩ := h.read
  have htrim : Rust.trim text = text := hvisible.trimSpace
  rw [Rust.decodeKeyMaterial, htrim]
  rw [if_neg hne, htrim]
  cases h with
  | hex ne_nil read =>
    rw [if_pos (unhex_isSome_iff.mp (Option.isSome_of_eq_some read)).1, read]
  | base64url ne_nil unhexed unfilled =>
    rw [unhexed, ite_self, hcrates.standardDecode_unfilled _ unfilled, hcrates.urlSafeDecode_encode]

theorem Java.decodeKeyMaterial_read : Java.decodeKeyMaterial text = .ok bytes := by
  obtain ⟨hvisible, hne⟩ := h.read
  rw [Java.decodeKeyMaterial, hvisible.java_trim]
  rw [if_neg hne]
  cases h with
  | hex ne_nil read =>
    have htext := unhex_isSome_iff.mp (Option.isSome_of_eq_some read)
    rw [if_pos ⟨htext.1, List.all_eq_true.mpr htext.2⟩, read]
  | base64url ne_nil unhexed =>
    have hguess : ¬ ((Base64Url.encode bytes).length % 2 = 0 ∧
        ((Base64Url.encode bytes).all fun b => (hexValue b).isSome) = true) := by
      rw [List.all_eq_true]
      intro hguess
      have hsome := unhex_isSome_iff.mpr hguess
      rw [unhexed] at hsome
      cases hsome
    rw [if_neg hguess, Base64Text.optionallyPadded_encode]

theorem Python.decodeKeyMaterial_read {libraries : Python.Libraries}
    (hlibraries : libraries.Lawful) (hhex : libraries.ReadsHex) :
    Python.decodeKeyMaterial libraries text = .ok bytes := by
  obtain ⟨hvisible, hne⟩ := h.read
  have hstrip : Python.strip text = text := Python.strip_visible hvisible
  rw [Python.decodeKeyMaterial, hstrip]
  rw [if_neg hne, hhex text hvisible]
  cases h with
  | hex ne_nil read =>
    rw [if_pos (unhex_isSome_iff.mp (Option.isSome_of_eq_some read)).1, read]
  | base64url ne_nil unhexed unfilled =>
    rw [unhexed, ite_self, hlibraries.b64decode_unfilled _
      (Base64Text.padding_notMem_encode bytes) unfilled, Python.base64urlDecode, hstrip]
    rw [List.length_map, Python.b64decode_filled hlibraries]

theorem CSharp.decodeKeyMaterial_read : CSharp.decodeKeyMaterial text = .ok bytes := by
  obtain ⟨hvisible, hne⟩ := h.read
  have hunits : CSharp.units text ≠ [] := by rwa [CSharp.units, ne_eq, List.map_eq_nil_iff]
  have hlength : (CSharp.units text).length = text.length := List.length_map _
  have hguess : (CSharp.units text).length % 2 = 0 ∧
      (CSharp.units text).all CSharp.isHexDigit = true ↔ (unhex text).isSome := by
    rw [unhex_isSome_iff, hlength, CSharp.units, List.all_map, List.all_eq_true]
    refine and_congr_right fun _ => forall₂_congr fun b hb => ?_
    simp only [Function.comp, CSharp.isHexDigit, Bool.and_eq_true, UInt8.toUInt8_toUInt16]
    exact and_iff_right (decide_eq_true (CSharp.toUInt16_lt (hvisible b hb).2))
  rw [CSharp.decodeKeyMaterial, hvisible.getString, hvisible.csharp_trim, if_neg hunits,
    CSharp.toUInt8_units]
  cases h with
  | hex ne_nil read => rw [if_pos (hguess.mpr (Option.isSome_of_eq_some read)), read]
  | base64url ne_nil unhexed unfilled =>
    have hmistaken : ¬ (unhex (Base64Url.encode bytes)).isSome := by rw [unhexed]; simp
    rw [if_neg (fun hmistake => hmistaken (hguess.mp hmistake)),
      CSharp.fromBase64String_units hvisible, Base64Text.padded_eq_none unfilled,
      CSharp.base64UrlDecode_encode]
    rfl

end Material

/-- A key is such a text: 43 digits, or 64. -/
theorem KeyText.material {key text : Bytes} (hkey : key.length = 32) (h : KeyText key text) :
    KeyMaterial text key := by
  have hne : key ≠ [] := List.ne_nil_of_length_pos (by omega)
  cases h with
  | hex =>
    refine .hex (List.ne_nil_of_length_pos ?_) (unhex_hex key)
    rw [hex_length]
    omega
  | base64url =>
    have hlength : (Base64Url.encode key).length = 43 := by rw [Cpp.encode_length, hkey]
    refine .base64url hne (Option.not_isSome_iff_eq_none.mp ?_) (by rw [hlength]; decide)
    rw [unhex_isSome_iff, hlength]
    rintro ⟨heven, -⟩
    cases heven

section Key
variable {key text : Bytes} (hkey : key.length = 32)
include hkey

theorem Cpp.decodeKeyMaterial_text (h : KeyText key text) :
    Cpp.decodeKeyMaterial text = .ok key := Cpp.decodeKeyMaterial_read (h.material hkey)

theorem Go.decodeKeyMaterial_text (h : KeyText key text) :
    Go.decodeKeyMaterial text = some key := Go.decodeKeyMaterial_read (h.material hkey)

theorem Rust.decodeKeyMaterial_text {crates : Rust.Crates} (hcrates : crates.Lawful)
    (h : KeyText key text) : Rust.decodeKeyMaterial crates text = .ok key :=
  Rust.decodeKeyMaterial_read (h.material hkey) hcrates

theorem Java.decodeKeyMaterial_text (h : KeyText key text) :
    Java.decodeKeyMaterial text = .ok key := Java.decodeKeyMaterial_read (h.material hkey)

theorem Python.decodeKeyMaterial_text {libraries : Python.Libraries}
    (hlibraries : libraries.Lawful) (h : KeyText key text) :
    Python.decodeKeyMaterial libraries text = .ok key := by
  obtain ⟨hvisible, hne⟩ := (h.material hkey).read
  have hstrip : Python.strip text = text := Python.strip_visible hvisible
  rw [Python.decodeKeyMaterial, hstrip]
  rw [if_neg hne]
  cases h with
  | hex => rw [if_pos (by rw [hex_length]; omega), hlibraries.fromHex_hex]
  | base64url =>
    have hlength : (Base64Url.encode key).length = 43 := by rw [Cpp.encode_length, hkey]
    rw [if_neg (by rw [hlength]; decide), hlibraries.b64decode_unfilled _
      (Base64Text.padding_notMem_encode key) (by rw [hlength]; decide), Python.base64urlDecode,
      hstrip]
    rw [List.length_map, Python.b64decode_filled hlibraries]

theorem CSharp.decodeKeyMaterial_text (h : KeyText key text) :
    CSharp.decodeKeyMaterial text = .ok key := CSharp.decodeKeyMaterial_read (h.material hkey)

end Key

/-! ## Signatures from texts -/

/-- Ed25519, the same in every library: the keys that are points, and the signatures that hold. -/
structure Ed25519 where
  validKey : Bytes → Bool
  check : Cpp.Ed25519Check

/-- No signature holds under a key that is no point. -/
def Ed25519.Lawful (library : Ed25519) : Prop :=
  ∀ signature key message, library.check signature key message = true → library.validKey key = true

/-- The verification of a signature from texts; none for what it throws.  Some libraries throw when
a key is no point. -/
def verifyTexts (decode : Bytes → Option Bytes) (throwsForKey : Bool) (library : Ed25519)
    (publicKey message signature : Bytes) : Option Bool :=
  match decode publicKey, decode signature with
  | some key, some bytes =>
      if key.length ≠ 32 ∨ bytes.length ≠ 64 then none
      else if throwsForKey && !library.validKey key then none
      else some (library.check bytes key message)
  | _, _ => none

/-- `verifyEd25519`. -/
def Go.verifyEd25519Texts : Ed25519 → Bytes → Bytes → Bytes → Option Bool :=
  verifyTexts decodeKeyMaterial false

/-- `CryptoUtil.VerifyEd25519`. -/
def CSharp.verifyEd25519Texts : Ed25519 → Bytes → Bytes → Bytes → Option Bool :=
  verifyTexts (fun text => (decodeKeyMaterial text).toOption) true

/-- `CryptoUtil.verifyEd25519`. -/
def Java.verifyEd25519Texts : Ed25519 → Bytes → Bytes → Bytes → Option Bool :=
  verifyTexts (fun text => (decodeKeyMaterial text).toOption) true

/-- `verify_ed25519`. -/
def Rust.verifyEd25519Texts (crates : Crates) : Ed25519 → Bytes → Bytes → Bytes → Option Bool :=
  verifyTexts (fun text => (decodeKeyMaterial crates text).toOption) true

/-- `verify_ed25519`. -/
def Python.verifyEd25519Texts (libraries : Libraries) :
    Ed25519 → Bytes → Bytes → Bytes → Option Bool :=
  verifyTexts (fun text => (decodeKeyMaterial libraries text).toOption) false

/-- `Convert.ToBase64String` of a length that is no multiple of three: the padding at its end is no
hexadecimal digit, so the text is read back. -/
theorem CSharp.decodeKeyMaterial_standard {bytes : Bytes} (h : bytes.length % 3 ≠ 0) :
    CSharp.decodeKeyMaterial (Base64Text.encodeStandard bytes) = .ok bytes := by
  have hvisible := visible_encodeStandard bytes
  have hpadding : (0x3d : UInt8) ∈ Base64Text.encodeStandard bytes := by
    refine List.mem_append_right _ (List.mem_replicate.mpr ⟨?_, rfl⟩)
    rw [Cpp.encode_length]
    omega
  have hne : CSharp.units (Base64Text.encodeStandard bytes) ≠ [] := by
    rw [CSharp.units, Ne, List.map_eq_nil_iff]
    exact List.ne_nil_of_mem hpadding
  have hdigits :
      ¬ (CSharp.units (Base64Text.encodeStandard bytes)).all CSharp.isHexDigit = true := by
    rw [List.all_eq_true]
    intro hall
    exact absurd (hall _ (List.mem_map_of_mem hpadding)) (by decide)
  rw [CSharp.decodeKeyMaterial, hvisible.getString, hvisible.csharp_trim, if_neg hne,
    if_neg fun hguess => hdigits hguess.2, CSharp.fromBase64String_units hvisible,
    Base64Text.padded_encodeStandard]
  rfl

end SwmSdk
