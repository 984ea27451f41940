import SwmSdk.ClientOptions

/-! # Keys and signatures as texts

The codecs of `common.cpp`.  `base64url_encode` and `base64url_decode` shift what they read into
an accumulator of 32 bits that is never masked: what matters are the bits that wait, and they
are the low ones (`toNat_shifted`).  Both codecs are read back (`codecs_roundTrip`).

`decode_key_material` is not told in which of the two a text is written.  It takes an even
number of hexadecimal digits for hexadecimal, so a signature is read back exactly if its base64url
text has another digit in it (`signature_text_iff`).
-/
namespace SwmSdk
namespace Cpp
open ByteText Outcome

/-! ## The accumulator -/

/-- What is shifted in stands behind what was there, of which the high bits are gone. -/
theorem toNat_shifted (accumulator next : UInt32) {k : Nat} (hk : k < 32)
    (hnext : next.toNat < 2 ^ k) :
    ((accumulator <<< UInt32.ofNat k) ||| next).toNat =
      accumulator.toNat % 2 ^ (32 - k) * 2 ^ k + next.toNat := by
  have hshift : (UInt32.ofNat k).toNat % 32 = k := by
    rw [UInt32.toNat_ofNat']
    omega
  have hpow : 2 ^ 32 = 2 ^ (32 - k) * 2 ^ k := by
    rw [← Nat.pow_add]
    congr 1
    omega
  rw [UInt32.toNat_or, UInt32.toNat_shiftLeft, hshift, Nat.shiftLeft_eq, hpow,
    Nat.mul_mod_mul_right, Nat.mul_comm _ (2 ^ k), ← Nat.two_pow_add_eq_or_of_lt hnext]

theorem toNat_shiftedOut (accumulator : UInt32) {k : Nat} (hk : k < 32) :
    (accumulator >>> UInt32.ofNat k).toNat = accumulator.toNat / 2 ^ k := by
  have hshift : (UInt32.ofNat k).toNat % 32 = k := by
    rw [UInt32.toNat_ofNat']
    omega
  rw [UInt32.toNat_shiftRight, hshift, Nat.shiftRight_eq_div_pow]

theorem toNat_sixBits (accumulator : UInt32) :
    (accumulator &&& 0x3f).toNat = accumulator.toNat % 64 :=
  (UInt32.toNat_and _ _).trans (Nat.and_two_pow_sub_one_eq_mod _ 6)

/-! ## Base64url -/

/-- `alphabet`. -/
def base64urlAlphabet : Bytes :=
  ascii "ABCDEFGHIJKLMNOPQRSTUVWXYZabcdefghijklmnopqrstuvwxyz0123456789-_"

/-- The digit for the low bits of a number. -/
def alphabetAt (n : UInt32) : UInt8 := base64urlAlphabet.getD (n &&& 0x3f).toNat 0

/-- The inner loop of `base64url_encode`: the digits of the bits that wait, and how many of them
still wait afterwards. -/
def drainBits (accumulator : UInt32) : Nat → Bytes × Nat
  | bits + 6 =>
      let (digits, left) := drainBits accumulator bits
      (alphabetAt (accumulator >>> UInt32.ofNat bits) :: digits, left)
  | bits => ([], bits)

/-- The outer loop of `base64url_encode`. -/
def base64urlEncodeLoop (accumulator : UInt32) (bits : Nat) : Bytes → Bytes
  | [] => if bits > 0 then [alphabetAt (accumulator <<< UInt32.ofNat (6 - bits))] else []
  | byte :: rest =>
      let accumulator := (accumulator <<< 8) ||| byte.toUInt32
      let (digits, left) := drainBits accumulator (bits + 8)
      digits ++ base64urlEncodeLoop accumulator left rest

/-- `base64url_encode`. -/
def base64urlEncode (value : Bytes) : Bytes := base64urlEncodeLoop 0 0 value

theorem alphabetAt_eq (n : UInt32) : alphabetAt n = Base64Url.digit (n.toNat % 64) := by
  have htable : ∀ k < 64, base64urlAlphabet.getD k 0 = Base64Url.digit k := by decide
  rw [alphabetAt, toNat_sixBits, htable _ (Nat.mod_lt _ (by decide))]

theorem alphabetAt_shiftedOut (accumulator : UInt32) {k : Nat} (hk : k < 32) :
    alphabetAt (accumulator >>> UInt32.ofNat k) =
      Base64Url.digit (accumulator.toNat / 2 ^ k % 64) := by
  rw [alphabetAt_eq, toNat_shiftedOut _ hk]

theorem alphabetAt_padded (accumulator : UInt32) {k : Nat} (hk : k ≤ 6) :
    alphabetAt (accumulator <<< UInt32.ofNat k) =
      Base64Url.digit (accumulator.toNat * 2 ^ k % 64) := by
  have h := toNat_shifted accumulator 0 (k := k) (by omega) (Nat.two_pow_pos k)
  rw [UInt32.or_zero, UInt32.toNat_zero, Nat.add_zero] at h
  have hpow : 64 = 2 ^ (6 - k) * 2 ^ k := by
    rw [← Nat.pow_add, Nat.sub_add_cancel hk]
  have hdvd : 2 ^ (6 - k) ∣ 2 ^ (32 - k) := Nat.pow_dvd_pow 2 (by omega)
  rw [alphabetAt_eq, h, hpow, Nat.mul_mod_mul_right, Nat.mul_mod_mul_right,
    Nat.mod_mod_of_dvd _ hdvd]

theorem byte_shifted (accumulator : UInt32) (byte : UInt8) :
    ((accumulator <<< 8) ||| byte.toUInt32).toNat =
      accumulator.toNat % 2 ^ 24 * 256 + byte.toNat :=
  toNat_shifted accumulator byte.toUInt32 (k := 8) (by decide) byte.toNat_lt

/-! The digits that a byte makes, with no bits, two or four waiting before it. -/

theorem encode_first (accumulator : UInt32) (byte : UInt8) (rest : Bytes) :
    ∃ after : UInt32, after.toNat % 4 = byte.toNat % 4 ∧
      base64urlEncodeLoop accumulator 0 (byte :: rest) =
        Base64Url.digit (byte.toNat / 4) :: base64urlEncodeLoop after 2 rest := by
  refine ⟨(accumulator <<< 8) ||| byte.toUInt32, ?_, ?_⟩
  · rw [byte_shifted]
    omega
  · have hbyte := byte.toNat_lt
    rw [base64urlEncodeLoop]
    simp only [drainBits, List.cons_append, List.nil_append]
    rw [alphabetAt_shiftedOut _ (by decide), byte_shifted]
    congr 2
    omega

theorem encode_second (accumulator : UInt32) (byte : UInt8) (rest : Bytes) :
    ∃ after : UInt32, after.toNat % 16 = byte.toNat % 16 ∧
      base64urlEncodeLoop accumulator 2 (byte :: rest) =
        Base64Url.digit (accumulator.toNat % 4 * 16 + byte.toNat / 16) ::
          base64urlEncodeLoop after 4 rest := by
  refine ⟨(accumulator <<< 8) ||| byte.toUInt32, ?_, ?_⟩
  · rw [byte_shifted]
    omega
  · have hbyte := byte.toNat_lt
    rw [base64urlEncodeLoop]
    simp only [drainBits, List.cons_append, List.nil_append]
    rw [alphabetAt_shiftedOut _ (by decide), byte_shifted]
    congr 2
    omega

theorem encode_third (accumulator : UInt32) (byte : UInt8) (rest : Bytes) :
    ∃ after : UInt32, base64urlEncodeLoop accumulator 4 (byte :: rest) =
      Base64Url.digit (accumulator.toNat % 16 * 4 + byte.toNat / 64) ::
        Base64Url.digit (byte.toNat % 64) :: base64urlEncodeLoop after 0 rest := by
  refine ⟨(accumulator <<< 8) ||| byte.toUInt32, ?_⟩
  have hbyte := byte.toNat_lt
  rw [base64urlEncodeLoop]
  simp only [drainBits, List.cons_append, List.nil_append]
  rw [alphabetAt_shiftedOut _ (by decide), alphabetAt_shiftedOut _ (by decide), byte_shifted]
  congr 2
  · omega
  · congr 1
    omega

/-- **The loop writes what the format says**, whatever stands before the bits that wait. -/
theorem base64urlEncodeLoop_eq (accumulator : UInt32) (bytes : Bytes) :
    base64urlEncodeLoop accumulator 0 bytes = Base64Url.encode bytes := by
  fun_induction Base64Url.encode bytes generalizing accumulator with
  | case1 a b c rest ih =>
    obtain ⟨first, hfirst, hdigits⟩ := encode_first accumulator a (b :: c :: rest)
    obtain ⟨second, hsecond, hmore⟩ := encode_second first b (c :: rest)
    obtain ⟨third, hlast⟩ := encode_third second c rest
    rw [hdigits, hmore, hlast, ih, hfirst, hsecond]
  | case2 a b =>
    obtain ⟨first, hfirst, hdigits⟩ := encode_first accumulator a [b]
    obtain ⟨second, hsecond, hmore⟩ := encode_second first b []
    have hpad : second.toNat * 2 ^ (6 - 4) % 64 = b.toNat % 16 * 4 := by omega
    rw [hdigits, hmore, hfirst, base64urlEncodeLoop, if_pos (by decide),
      alphabetAt_padded _ (by decide), hpad]
  | case3 a =>
    obtain ⟨first, hfirst, hdigits⟩ := encode_first accumulator a []
    have hpad : first.toNat * 2 ^ (6 - 2) % 64 = a.toNat % 4 * 16 := by omega
    rw [hdigits, base64urlEncodeLoop, if_pos (by decide), alphabetAt_padded _ (by decide), hpad]
  | case4 => rfl

theorem base64urlEncode_eq (bytes : Bytes) : base64urlEncode bytes = Base64Url.encode bytes :=
  base64urlEncodeLoop_eq 0 bytes

/-! The bytes that a digit completes, with no bits, six, four or two waiting before it. -/

theorem digit_shifted (accumulator : UInt32) {n : Nat} (hn : n < 64) :
    ((accumulator <<< 6) ||| UInt32.ofNat n).toNat = accumulator.toNat % 2 ^ 26 * 64 + n := by
  have htoNat : (UInt32.ofNat n).toNat = n := by
    rw [UInt32.toNat_ofNat']
    omega
  have h := toNat_shifted accumulator (UInt32.ofNat n) (k := 6) (by decide) (by omega)
  rw [htoNat] at h
  exact h

theorem base64urlDigit_digit : ∀ n < 64,
    base64urlDigit (Base64Url.digit n) = some (UInt32.ofNat n) ∧ Base64Url.digit n ≠ 0x3d := by
  decide

/-- A digit is shifted in, and a byte is put out if eight bits wait then. -/
theorem decode_digit (accumulator : UInt32) (bits : Nat) {n : Nat} (hn : n < 64) (rest : Bytes) :
    ∃ after : UInt32, after.toNat = accumulator.toNat % 2 ^ 26 * 64 + n ∧
      base64urlLoop accumulator bits (Base64Url.digit n :: rest) =
        if bits + 6 ≥ 8 then (base64urlLoop after (bits + 6 - 8) rest).map fun output =>
          (after >>> UInt32.ofNat (bits + 6 - 8)).toUInt8 :: output
        else base64urlLoop after (bits + 6) rest := by
  refine ⟨_, digit_shifted accumulator hn, ?_⟩
  obtain ⟨hdigit, hpad⟩ := base64urlDigit_digit n hn
  rw [base64urlLoop, if_neg hpad, hdigit]
  dsimp only
  split
  · cases base64urlLoop _ (bits + 6 - 8) rest <;> rfl
  · rfl

theorem byte_shiftedOut (accumulator : UInt32) {k : Nat} (hk : k < 32) {byte : UInt8}
    (h : accumulator.toNat / 2 ^ k % 256 = byte.toNat) :
    (accumulator >>> UInt32.ofNat k).toUInt8 = byte := by
  apply UInt8.toNat_inj.mp
  rw [UInt32.toNat_toUInt8, toNat_shiftedOut _ hk]
  exact h

/-- The first digit of a group waits for the next. -/
theorem decode_start (accumulator : UInt32) {n : Nat} (hn : n < 64) (rest : Bytes) :
    ∃ after : UInt32, after.toNat % 64 = n ∧
      base64urlLoop accumulator 0 (Base64Url.digit n :: rest) = base64urlLoop after 6 rest := by
  obtain ⟨after, hafter, hloop⟩ := decode_digit accumulator 0 hn rest
  refine ⟨after, by omega, ?_⟩
  rw [hloop, if_neg (by decide)]

/-- A later digit completes the byte of which the high bits wait, and leaves its own low ones. -/
theorem decode_completes (accumulator : UInt32) {bits n : Nat} (hn : n < 64) (hbits : 2 ≤ bits)
    (hsix : bits ≤ 6) (rest : Bytes) {byte : UInt8}
    (hbyte : byte.toNat = accumulator.toNat % 2 ^ bits * 2 ^ (8 - bits) + n / 2 ^ (bits - 2)) :
    ∃ after : UInt32, after.toNat % 2 ^ (bits - 2) = n % 2 ^ (bits - 2) ∧
      base64urlLoop accumulator bits (Base64Url.digit n :: rest) =
        (base64urlLoop after (bits - 2) rest).map (byte :: ·) := by
  obtain ⟨after, hafter, hloop⟩ := decode_digit accumulator bits hn rest
  have hleft : bits + 6 - 8 = bits - 2 := by omega
  rw [hleft, if_pos (by omega)] at hloop
  have hwaiting : bits = 2 ∨ bits = 3 ∨ bits = 4 ∨ bits = 5 ∨ bits = 6 := by omega
  have hout : after.toNat / 2 ^ (bits - 2) % 256 = byte.toNat := by
    rcases hwaiting with rfl | rfl | rfl | rfl | rfl <;> omega
  have hleaves : after.toNat % 2 ^ (bits - 2) = n % 2 ^ (bits - 2) := by
    rcases hwaiting with rfl | rfl | rfl | rfl | rfl <;> omega
  refine ⟨after, hleaves, ?_⟩
  rw [hloop, byte_shiftedOut after (by omega) hout]

/-- **The loop reads the format back**, whatever stands before the bits that wait. -/
theorem base64urlLoop_encode (accumulator : UInt32) (bytes : Bytes) :
    base64urlLoop accumulator 0 (Base64Url.encode bytes) = .ok bytes := by
  fun_induction Base64Url.encode bytes generalizing accumulator with
  | case1 a b c rest ih =>
    have ha := a.toNat_lt
    have hb := b.toNat_lt
    have hc := c.toNat_lt
    obtain ⟨first, hfirst, hstart⟩ := decode_start accumulator (n := a.toNat / 4) (by omega) _
    have htop : a.toNat = first.toNat % 2 ^ 6 * 2 ^ (8 - 6) +
        (a.toNat % 4 * 16 + b.toNat / 16) / 2 ^ (6 - 2) := by omega
    obtain ⟨second, hsecond, hone⟩ :=
      decode_completes first (by omega) (by decide) (by decide) _ htop
    have hmiddle : b.toNat = second.toNat % 2 ^ 4 * 2 ^ (8 - 4) +
        (b.toNat % 16 * 4 + c.toNat / 64) / 2 ^ (4 - 2) := by omega
    obtain ⟨third, hthird, htwo⟩ :=
      decode_completes second (by omega) (by decide) (by decide) _ hmiddle
    have hlow : c.toNat = third.toNat % 2 ^ 2 * 2 ^ (8 - 2) + c.toNat % 64 / 2 ^ (2 - 2) := by
      omega
    obtain ⟨fourth, -, hthree⟩ :=
      decode_completes third (by omega) (by decide) (by decide) _ hlow
    rw [hstart, hone, htwo, hthree, ih]
    rfl
  | case2 a b =>
    have ha := a.toNat_lt
    have hb := b.toNat_lt
    obtain ⟨first, hfirst, hstart⟩ := decode_start accumulator (n := a.toNat / 4) (by omega) _
    have htop : a.toNat = first.toNat % 2 ^ 6 * 2 ^ (8 - 6) +
        (a.toNat % 4 * 16 + b.toNat / 16) / 2 ^ (6 - 2) := by omega
    obtain ⟨second, hsecond, hone⟩ :=
      decode_completes first (by omega) (by decide) (by decide) _ htop
    have hmiddle : b.toNat = second.toNat % 2 ^ 4 * 2 ^ (8 - 4) +
        b.toNat % 16 * 4 / 2 ^ (4 - 2) := by omega
    obtain ⟨third, -, htwo⟩ :=
      decode_completes second (by omega) (by decide) (by decide) _ hmiddle
    rw [hstart, hone, htwo]
    rfl
  | case3 a =>
    have ha := a.toNat_lt
    obtain ⟨first, hfirst, hstart⟩ := decode_start accumulator (n := a.toNat / 4) (by omega) _
    have htop : a.toNat = first.toNat % 2 ^ 6 * 2 ^ (8 - 6) +
        a.toNat % 4 * 16 / 2 ^ (6 - 2) := by omega
    obtain ⟨second, -, hone⟩ :=
      decode_completes first (by omega) (by decide) (by decide) _ htop
    rw [hstart, hone]
    rfl
  | case4 => rfl

theorem base64urlDecode_encode (bytes : Bytes) :
    base64urlDecode (base64urlEncode bytes) = .ok bytes := by
  rw [base64urlEncode_eq]
  exact base64urlLoop_encode 0 bytes

theorem hexDecode_hex (bytes : Bytes) : hexDecode (hex bytes) = .ok bytes := by
  rw [hexDecode, unhex_hex]

/-! ## The guess -/

/-- A text that `decode_key_material` takes for hexadecimal, if it is of even length. -/
def HexText (text : Bytes) : Prop := ∀ b ∈ text, (hexValue b).isSome

instance (text : Bytes) : Decidable (HexText text) := List.decidableBAll _ _

theorem trimAscii_of_notBlank {text : Bytes} (h : ∀ b ∈ text, trimAscii.isBlankByte b = false) :
    trimAscii text = text := by
  have hfront : text.dropWhile trimAscii.isBlankByte = text := by
    cases text with
    | nil => rfl
    | cons b text => exact List.dropWhile_cons_of_neg (by simp [h b (List.mem_cons_self ..)])
  rw [trimAscii, hfront, List.rdropWhile_eq_self_iff]
  intro hne
  rw [h _ (List.getLast_mem hne)]
  exact Bool.false_ne_true

/-- What the branches of `decode_key_material` are for a text without blanks. -/
theorem decodeKeyMaterial_of_notBlank {text : Bytes} (hne : text ≠ [])
    (h : ∀ b ∈ text, trimAscii.isBlankByte b = false) :
    decodeKeyMaterial text =
      if text.length % 2 = 0 ∧ HexText text then hexDecode text else base64urlDecode text := by
  have hguess : ((text.length % 2 = 0 : Bool) && text.all fun b => (hexValue b).isSome) = true ↔
      text.length % 2 = 0 ∧ HexText text := by
    rw [Bool.and_eq_true, decide_eq_true_iff, List.all_eq_true, HexText]
  unfold decodeKeyMaterial
  rw [trimAscii_of_notBlank h, if_neg hne]
  exact if_congr hguess rfl rfl

theorem hex_notBlank {bytes : Bytes} {b : UInt8} (h : b ∈ hex bytes) :
    trimAscii.isBlankByte b = false := by
  have hdigit := mem_hex h
  simp only [trimAscii.isBlankByte, Bool.or_eq_false_iff, decide_eq_false_iff_not]
  constructor
  · intro hlow
    rw [UInt8.le_iff_toNat_le] at hlow
    simp only [UInt8.le_iff_toNat_le] at hdigit
    simp at hlow hdigit
    omega
  · rintro rfl
    revert hdigit
    decide

theorem hex_hexText (bytes : Bytes) : HexText (hex bytes) := by
  have hvalue : ∀ n < 16, (hexValue (hexDigit n)).isSome := by decide
  intro d hd
  obtain ⟨b, -, hd⟩ := List.mem_flatMap.mp hd
  have hb := b.toNat_lt
  simp only [List.mem_cons, List.not_mem_nil, or_false] at hd
  rcases hd with rfl | rfl
  · exact hvalue _ (by omega)
  · exact hvalue _ (by omega)

/-- Every digit of a text is a digit of the alphabet. -/
theorem mem_encode {bytes : Bytes} {d : UInt8} (h : d ∈ Base64Url.encode bytes) :
    ∃ n < 64, d = Base64Url.digit n := by
  fun_induction Base64Url.encode bytes with
  | case1 a b c rest ih =>
    have ha := a.toNat_lt
    have hb := b.toNat_lt
    have hc := c.toNat_lt
    simp only [List.mem_cons] at h
    rcases h with rfl | rfl | rfl | rfl | h
    · exact ⟨_, by omega, rfl⟩
    · exact ⟨_, by omega, rfl⟩
    · exact ⟨_, by omega, rfl⟩
    · exact ⟨_, by omega, rfl⟩
    · exact ih h
  | case2 a b =>
    have ha := a.toNat_lt
    have hb := b.toNat_lt
    simp only [List.mem_cons, List.not_mem_nil, or_false] at h
    rcases h with rfl | rfl | rfl
    · exact ⟨_, by omega, rfl⟩
    · exact ⟨_, by omega, rfl⟩
    · exact ⟨_, by omega, rfl⟩
  | case3 a =>
    have ha := a.toNat_lt
    simp only [List.mem_cons, List.not_mem_nil, or_false] at h
    rcases h with rfl | rfl
    · exact ⟨_, by omega, rfl⟩
    · exact ⟨_, by omega, rfl⟩
  | case4 => cases h

theorem encode_notBlank {bytes : Bytes} {d : UInt8} (h : d ∈ Base64Url.encode bytes) :
    trimAscii.isBlankByte d = false := by
  have hdigit : ∀ n < 64, trimAscii.isBlankByte (Base64Url.digit n) = false := by decide
  obtain ⟨n, hn, rfl⟩ := mem_encode h
  exact hdigit n hn

theorem encode_length (bytes : Bytes) :
    (Base64Url.encode bytes).length = (4 * bytes.length + 2) / 3 := by
  fun_induction Base64Url.encode bytes with
  | case1 a b c rest ih =>
    simp only [List.length_cons, ih]
    omega
  | case2 a b => simp
  | case3 a => simp
  | case4 => rfl

theorem unhex_length {text bytes : Bytes} (h : unhex text = some bytes) :
    text.length = 2 * bytes.length := by
  fun_induction unhex text generalizing bytes with
  | case1 =>
    obtain rfl := Option.some.inj h
    rfl
  | case2 a => cases h
  | case3 a b rest high low tail htail hlow hhigh ih =>
    obtain rfl := Option.some.inj h
    simp only [List.length_cons, ih htail]
    omega
  | case4 a b rest hnone ih => cases h

/-- What is not empty is decoded to what was encoded, if the guess does not go wrong. -/
theorem decodeKeyMaterial_encode {bytes : Bytes} (hne : bytes ≠ [])
    (h : ¬ ((base64urlEncode bytes).length % 2 = 0 ∧ HexText (base64urlEncode bytes))) :
    decodeKeyMaterial (base64urlEncode bytes) = .ok bytes := by
  have htext : base64urlEncode bytes ≠ [] := by
    intro hnil
    rw [base64urlEncode_eq] at hnil
    have hlength := encode_length bytes
    rw [hnil, List.length_nil] at hlength
    have hpos := List.length_pos_iff.mpr hne
    omega
  rw [decodeKeyMaterial_of_notBlank htext
    (fun b hb => encode_notBlank (base64urlEncode_eq bytes ▸ hb)), if_neg h,
    base64urlDecode_encode]

theorem decodeKeyMaterial_hex {bytes : Bytes} (hne : bytes ≠ []) :
    decodeKeyMaterial (hex bytes) = .ok bytes := by
  have hlength := hex_length bytes
  have hpos := List.length_pos_iff.mpr hne
  have htext : hex bytes ≠ [] := by
    intro hnil
    rw [hnil, List.length_nil] at hlength
    omega
  rw [decodeKeyMaterial_of_notBlank htext (fun _ => hex_notBlank),
    if_pos ⟨by omega, hex_hexText bytes⟩, hexDecode_hex]

/-- The text of a key has 43 digits. -/
theorem decodeKeyMaterial_key {bytes : Bytes} (h : bytes.length = 32) :
    decodeKeyMaterial (base64urlEncode bytes) = .ok bytes := by
  apply decodeKeyMaterial_encode (List.ne_nil_of_length_pos (by omega))
  rw [base64urlEncode_eq, encode_length, h]
  rintro ⟨heven, -⟩
  exact absurd heven (by decide)

/-- **The codecs are read back**, for bytes of any length. -/
theorem codecs_roundTrip (bytes : Bytes) :
    base64urlDecode (base64urlEncode bytes) = .ok bytes ∧
      hexDecode (hex bytes) = .ok bytes ∧
      (bytes ≠ [] → decodeKeyMaterial (hex bytes) = .ok bytes) ∧
      (bytes.length = 32 → decodeKeyMaterial (base64urlEncode bytes) = .ok bytes) :=
  ⟨base64urlDecode_encode bytes, hexDecode_hex bytes, decodeKeyMaterial_hex,
    decodeKeyMaterial_key⟩

/-- A key of 32 bytes in both codecs. -/
theorem codecs_roundTrip_key :
    decodeKeyMaterial (hex appDigest) = .ok appDigest ∧
      decodeKeyMaterial (base64urlEncode appDigest) = .ok appDigest :=
  ⟨(codecs_roundTrip appDigest).2.2.1 (by decide), (codecs_roundTrip appDigest).2.2.2 rfl⟩

/-! ## Signatures -/

/-- `crypto_ed25519_check`: signature, key, message. -/
abbrev Ed25519Check := Bytes → Bytes → Bytes → Bool

/-- `ed25519_verify`. -/
def ed25519Verify (check : Ed25519Check) (publicKey message signature : Bytes) :
    Except Error Bool := do
  let key ← decodeKeyMaterial publicKey
  let signatureBytes ← decodeKeyMaterial signature
  if key.length ≠ 32 ∨ signatureBytes.length ≠ 64 then
    .error {
      kind := .cryptographic
      statusCode := 0
      serviceCode := []
      message := ascii "Ed25519 key or signature length is invalid" }
  else .ok (check signatureBytes key message)

theorem ed25519Verify_eq_ok {check : Ed25519Check} {publicKey message signature : Bytes}
    {valid : Bool} :
    ed25519Verify check publicKey message signature = .ok valid ↔
      ∃ key, decodeKeyMaterial publicKey = .ok key ∧
        ∃ bytes, decodeKeyMaterial signature = .ok bytes ∧ key.length = 32 ∧ bytes.length = 64 ∧
          check bytes key message = valid := by
  unfold ed25519Verify
  rw [bind_eq_ok]
  refine exists_congr fun key => and_congr_right fun _ => ?_
  rw [bind_eq_ok]
  refine exists_congr fun bytes => and_congr_right fun _ => ?_
  rw [guard_eq_ok, not_or, not_not, not_not, and_assoc, Except.ok.injEq]

/-- A text of 86 hexadecimal digits is taken for 43 bytes. -/
theorem decodeKeyMaterial_hexText {bytes decoded : Bytes} (h : bytes.length = 64)
    (hhex : HexText (base64urlEncode bytes))
    (hdecode : decodeKeyMaterial (base64urlEncode bytes) = .ok decoded) : decoded.length = 43 := by
  have htext : (base64urlEncode bytes).length = 86 := by rw [base64urlEncode_eq, encode_length, h]
  have hne : base64urlEncode bytes ≠ [] := List.ne_nil_of_length_pos (by omega)
  rw [decodeKeyMaterial_of_notBlank hne
    (fun b hb => encode_notBlank (base64urlEncode_eq bytes ▸ hb)),
    if_pos ⟨by omega, hhex⟩, hexDecode] at hdecode
  split at hdecode
  · cases hdecode
  · rename_i short hshort
    obtain rfl := Except.ok.inj hdecode
    have hlength := unhex_length hshort
    omega

theorem decodeKeyMaterial_signature {bytes : Bytes} (h : bytes.length = 64) :
    decodeKeyMaterial (base64urlEncode bytes) = .ok bytes ↔ ¬ HexText (base64urlEncode bytes) := by
  constructor
  · intro hdecode hhex
    have hshort := decodeKeyMaterial_hexText h hhex hdecode
    omega
  · intro hhex
    exact decodeKeyMaterial_encode (List.ne_nil_of_length_pos (by omega)) fun hguess =>
      hhex hguess.2

/-- What `ed25519_verify` answers of a signature that it is given as text. -/
theorem ed25519Verify_signature {check : Ed25519Check} {publicKey message signature : Bytes}
    {valid : Bool} (h : signature.length = 64) :
    ed25519Verify check publicKey message (base64urlEncode signature) = .ok valid ↔
      ¬ HexText (base64urlEncode signature) ∧
        ∃ key, decodeKeyMaterial publicKey = .ok key ∧ key.length = 32 ∧
          check signature key message = valid := by
  rw [ed25519Verify_eq_ok]
  constructor
  · rintro ⟨key, hkey, bytes, hbytes, hkeyLength, hlength, hvalid⟩
    have hhex : ¬ HexText (base64urlEncode signature) := by
      intro hhex
      have hshort := decodeKeyMaterial_hexText h hhex hbytes
      omega
    rw [(decodeKeyMaterial_signature h).mpr hhex] at hbytes
    obtain rfl := Except.ok.inj hbytes
    exact ⟨hhex, key, hkey, hkeyLength, hvalid⟩
  · rintro ⟨hhex, key, hkey, hkeyLength, hvalid⟩
    exact ⟨key, hkey, signature, (decodeKeyMaterial_signature h).mpr hhex, hkeyLength, h, hvalid⟩

/-- SHA-256, and Ed25519 as `ed25519_verify` calls it. -/
def withEd25519 (crypto : Crypto) (check : Ed25519Check) : Crypto :=
  { crypto with ed25519Verify := ed25519Verify check }

/-- A manifest of the release that is expected, of which both signatures are valid. -/
structure Rim2Genuine (check : Ed25519Check) (expected : Rim2Expected) (m : Rim2) : Prop where
  wellFormed : m.WellFormed
  identity : ¬ rim2Mismatch expected m
  certified : ∃ key, decodeKeyMaterial expected.rootTrustPublicKey = .ok key ∧ key.length = 32 ∧
    check m.trailer.rootSignature key m.keyMessage
  signed : check m.trailer.manifestSignature m.trailer.signerPublic m.manifestMessage

/-- What is accepted is genuine, and no text of its signatures is taken for hexadecimal. -/
theorem rim2Admissible_iff {crypto : Crypto} {check : Ed25519Check} {expected : Rim2Expected}
    {m : Rim2} :
    Rim2Admissible (withEd25519 crypto check) expected m ↔
      Rim2Genuine check expected m ∧ ¬ HexText (base64urlEncode m.trailer.rootSignature) ∧
        ¬ HexText (base64urlEncode m.trailer.manifestSignature) := by
  constructor
  · intro h
    have htrailer := h.wellFormed.trailer
    have hcertified := h.certified
    have hsigned := h.signed
    rw [← base64urlEncode_eq] at hcertified
    rw [← base64urlEncode_eq, ← base64urlEncode_eq] at hsigned
    obtain ⟨hroot, key, hkey, hlength, hvalid⟩ :=
      (ed25519Verify_signature htrailer.rootSignature).mp hcertified
    obtain ⟨hmanifest, signer, hsigner, -, hvalidManifest⟩ :=
      (ed25519Verify_signature htrailer.manifestSignature).mp hsigned
    rw [decodeKeyMaterial_key htrailer.signerPublic] at hsigner
    obtain rfl := Except.ok.inj hsigner
    exact ⟨⟨h.wellFormed, h.identity, ⟨key, hkey, hlength, hvalid⟩, hvalidManifest⟩, hroot,
      hmanifest⟩
  · rintro ⟨h, hroot, hmanifest⟩
    have htrailer := h.wellFormed.trailer
    refine ⟨h.wellFormed, h.identity, ?_, ?_⟩
    · rw [← base64urlEncode_eq]
      exact (ed25519Verify_signature htrailer.rootSignature).mpr ⟨hroot, h.certified⟩
    · rw [← base64urlEncode_eq, ← base64urlEncode_eq]
      exact (ed25519Verify_signature htrailer.manifestSignature).mpr ⟨hmanifest, _,
        decodeKeyMaterial_key htrailer.signerPublic, htrailer.signerPublic, h.signed⟩

/-- **A signature survives as text exactly if the text has a digit that is not hexadecimal.**  So
a genuine manifest is accepted exactly if that holds of both its signatures. -/
theorem signature_text_iff (crypto : Crypto) (check : Ed25519Check) :
    (∀ bytes : Bytes, bytes.length = 64 →
      (decodeKeyMaterial (base64urlEncode bytes) = .ok bytes ↔
        ¬ HexText (base64urlEncode bytes))) ∧
    ∀ expected m, Rim2Genuine check expected m →
      ((∃ result, parseRim2 (withEd25519 crypto check) expected m.encode = .ok result) ↔
        ¬ HexText (base64urlEncode m.trailer.rootSignature) ∧
          ¬ HexText (base64urlEncode m.trailer.manifestSignature)) := by
  refine ⟨fun bytes => decodeKeyMaterial_signature, fun expected m h => ?_⟩
  constructor
  · rintro ⟨result, hparse⟩
    obtain ⟨read, hencode, hadmissible, -⟩ := parseRim2_eq_ok.mp hparse
    obtain rfl := encode_unique h.wellFormed hadmissible.wellFormed hencode
    exact (rim2Admissible_iff.mp hadmissible).2
  · intro hhex
    exact ⟨_, parseRim2_eq_ok.mpr ⟨m, rfl, rim2Admissible_iff.mpr ⟨h, hhex⟩, rfl⟩⟩

/-- The signatures of the sample, by their bytes. -/
def sampleCheck : Ed25519Check := fun signature key message =>
  signature = sampleRim2.trailer.rootSignature ∧ message = sampleRim2.keyMessage ∨
    signature = sampleRim2.trailer.manifestSignature ∧ key = sampleRim2.trailer.signerPublic ∧
      message = sampleRim2.manifestMessage

theorem sampleRim2_genuine : Rim2Genuine sampleCheck sampleExpected sampleRim2 where
  wellFormed := sampleRim2_wellFormed
  identity := by decide
  certified := ⟨_, rfl, rfl, decide_eq_true (.inl ⟨rfl, rfl⟩)⟩
  signed := decide_eq_true (.inr ⟨rfl, rfl, rfl⟩)

/-- The sample is accepted. -/
theorem signature_text_iff_sample :
    decodeKeyMaterial (base64urlEncode sampleRim2.trailer.rootSignature) =
        .ok sampleRim2.trailer.rootSignature ∧
      ∃ result, parseRim2 (withEd25519 sampleRim2Crypto sampleCheck) sampleExpected
        sampleRim2.encode = .ok result :=
  have hroot : ¬ HexText (base64urlEncode sampleRim2.trailer.rootSignature) := by decide
  have hmanifest : ¬ HexText (base64urlEncode sampleRim2.trailer.manifestSignature) := by decide
  ⟨((signature_text_iff sampleRim2Crypto sampleCheck).1 _ rfl).mpr hroot,
    ((signature_text_iff sampleRim2Crypto sampleCheck).2 sampleExpected sampleRim2
      sampleRim2_genuine).mpr ⟨hroot, hmanifest⟩⟩

/-- Sixty-four zero bytes are 86 times the letter A. -/
theorem zero_signature_lost :
    ¬ ∀ bytes : Bytes, bytes.length = 64 →
      decodeKeyMaterial (base64urlEncode bytes) = .ok bytes := by
  intro hclaim
  have hzero := hclaim (List.replicate 64 0) List.length_replicate
  have hhex : HexText (base64urlEncode (List.replicate 64 0)) := by
    decide
  exact (decodeKeyMaterial_signature List.length_replicate).mp hzero hhex

end Cpp
end SwmSdk
