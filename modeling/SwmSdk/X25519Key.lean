import SwmSdk.ByteOrder
import SwmSdk.PrimeModulus

/-! # The key agreement key of a signing key

The online key of the server is an Ed25519 public key; request bodies are encrypted to the
X25519 key that it converts to.  The Go SDK inverts with `ModInverse`, the Python, C# and Java
SDKs raise to the power `prime - 2`, and each of them reads and writes the bytes its own way.

`IsMontgomery` says what the conversion is for.  Each SDK is shown to compute the quotient in
the field and to encode it; the prime is certified, not assumed (`curvePrime_prime`).
-/
namespace SwmSdk
open ByteText ByteCodec ByteOrder PrimeModulus

/-! ## The prime -/

/-- The prime of the curve. -/
def curvePrime : Nat := 2 ^ 255 - 19

/-! The factors of the predecessor that are too large for trial division, the small ones first. -/

theorem factors_certified :
    Certificate 2773320623 5 [2, 2437, 569003] ∧
    Certificate 72106336199 7 [2, 13, 2773320623] ∧
    Certificate 1919519569386763 2 [2, 3, 7, 19, 47, 47, 127, 8574133] ∧
    Certificate 31757755568855353 10 [2, 2, 2, 3, 31, 107, 223, 4153, 430751] ∧
    Certificate 75445702479781427272750846543864801 7
      [2, 2, 2, 2, 2, 3, 3, 5, 5, 75707, 72106336199, 1919519569386763] ∧
    Certificate 74058212732561358302231226437062788676166966415465897661863160754340907 2
      [2, 3, 353, 57467, 132049, 1923133, 31757755568855353,
        75445702479781427272750846543864801] := by
  decide +kernel

theorem prime_2773320623 : Nat.Prime 2773320623 := by
  apply factors_certified.1.prime
  simp only [List.forall_mem_cons]
  norm_num

theorem prime_72106336199 : Nat.Prime 72106336199 := by
  apply factors_certified.2.1.prime
  simp only [List.forall_mem_cons, prime_2773320623]
  norm_num

theorem prime_1919519569386763 : Nat.Prime 1919519569386763 := by
  apply factors_certified.2.2.1.prime
  simp only [List.forall_mem_cons]
  norm_num

theorem prime_31757755568855353 : Nat.Prime 31757755568855353 := by
  apply factors_certified.2.2.2.1.prime
  simp only [List.forall_mem_cons]
  norm_num

theorem prime_75445702479781427272750846543864801 :
    Nat.Prime 75445702479781427272750846543864801 := by
  apply factors_certified.2.2.2.2.1.prime
  simp only [List.forall_mem_cons, prime_72106336199, prime_1919519569386763]
  norm_num

theorem prime_largestFactor :
    Nat.Prime 74058212732561358302231226437062788676166966415465897661863160754340907 := by
  apply factors_certified.2.2.2.2.2.prime
  simp only [List.forall_mem_cons, prime_31757755568855353,
    prime_75445702479781427272750846543864801]
  norm_num

theorem curvePrime_prime : curvePrime.Prime := by
  have h : Certificate curvePrime 2 [2, 2, 3, 65147,
      74058212732561358302231226437062788676166966415465897661863160754340907] := by
    decide +kernel
  apply h.prime
  simp only [List.forall_mem_cons, prime_largestFactor]
  norm_num

instance : Fact curvePrime.Prime := ⟨curvePrime_prime⟩

/-! ## What the conversion is for -/

/-- An Ed25519 public key: 32 bytes, as the server sends them. -/
structure Ed25519Key where
  bytes : Bytes
  length_eq : bytes.length = 32

/-- The coordinate that a key encodes; the top bit is the sign of the other coordinate. -/
def Ed25519Key.coordinate (key : Ed25519Key) : Nat := littleNat key.bytes % 2 ^ 255

/-- `u` is the Montgomery coordinate of the point with the Edwards coordinate `y`. -/
def IsMontgomery (y u : Nat) : Prop :=
  u < curvePrime ∧ (u : Int) * (1 - y) ≡ 1 + y [ZMOD curvePrime]

/-- The Montgomery coordinate as a quotient of the field. -/
def montgomery (y : Nat) : ZMod curvePrime := (1 + y) * (1 - (y : ZMod curvePrime))⁻¹

/-- How a conversion fails. -/
inductive ConversionFault
  /-- The error of the SDK. -/
  | cryptographic (message : Bytes)
  /-- A panic of the runtime, or an exception that is not the SDK's. -/
  | runtime
  deriving DecidableEq

/-- The error of the SDK with a text. -/
def cryptographicFault (message : String) : ConversionFault := .cryptographic (ascii message)

/-- The bytes with the top bit of the last of 32 cleared. -/
def clearSign (encoded : Bytes) : Bytes := encoded.modify 31 (· &&& 0x7f)

/-! ## Go -/

namespace Go

/-- `(*big.Int).ModInverse`, for a positive modulus. -/
def modInverse (g n : Int) : Option Int :=
  let g := if g < 0 then g % n else g
  if Int.gcd g n ≠ 1 then none
  else
    let x := Int.gcdA g n
    some (if x < 0 then x + n else x)

/-- `(*big.Int).FillBytes` on a buffer of so many bytes, which panics when they do not hold
the number. -/
def fillBytes (u : Int) (width : Nat) : Except ConversionFault Bytes :=
  if 256 ^ width ≤ u.natAbs then .error .runtime else .ok (bigEndian width u.natAbs)

def ed25519PublicKeyToX25519 (encoded : Bytes) : Except ConversionFault Bytes :=
  if encoded.length ≠ 32 then
    .error (cryptographicFault "authorization public key has invalid length")
  else
    let littleY := (clearSign encoded).reverse
    let y : Int := natOf littleY
    let prime : Int := 2 ^ 255 - 19
    if y < 0 ∨ y ≥ prime then
      .error (cryptographicFault "authorization Ed25519 public key is not canonical")
    else
      let denominator := (1 - y) % prime
      if denominator = 0 then
        .error (cryptographicFault "authorization Ed25519 public key cannot be converted")
      else
        match modInverse denominator prime with
        -- the product with a nil pointer
        | none => .error .runtime
        | some inverse => do
            let u := (1 + y) * inverse % prime
            let be ← fillBytes u 32
            .ok be.reverse

end Go

/-! ## Python -/

namespace Python

/-- `int.to_bytes` in little-endian order, with its `OverflowError`. -/
def toBytes (u : Int) (width : Nat) : Except ConversionFault Bytes :=
  if u < 0 ∨ 256 ^ width ≤ u.toNat then .error .runtime else .ok (littleEndian width u.toNat)

def ed25519PublicKeyToX25519 (encoded : Bytes) : Except ConversionFault Bytes :=
  if encoded.length ≠ 32 then
    .error (cryptographicFault "authorization public key has invalid length")
  else
    let y : Int := littleNat (clearSign encoded)
    let prime : Int := 2 ^ 255 - 19
    if y ≥ prime then
      .error (cryptographicFault "authorization Ed25519 public key is not canonical")
    else
      let denominator := (1 - y) % prime
      if denominator = 0 then
        .error (cryptographicFault "authorization Ed25519 public key cannot be converted")
      else
        let u := (1 + y) * power (· % prime) denominator (prime - 2).toNat % prime
        toBytes u 32

end Python

/-! ## C# -/

namespace CSharp

/-- `Buffer.BlockCopy` of the first bytes, with its `ArgumentException`. -/
def blockCopy (source : Bytes) (count : Nat) : Except ConversionFault Bytes :=
  if source.length < count then .error .runtime else .ok (source.take count)

/-- The remainder of a `BigInteger` has the sign of the dividend. -/
def convertEd25519PublicKeyToX25519 (encoded : Bytes) : Except ConversionFault Bytes := do
  let copied ← blockCopy encoded 32
  let yBytes := clearSign (copied ++ [0])
  let prime : Int := 2 ^ 255 - 19
  let y := signedOf yBytes.reverse
  if y < 0 ∨ y ≥ prime then
    .error (cryptographicFault "authorization Ed25519 public key is not canonical")
  else
    let remainder := (1 - y).tmod prime
    let denominator := if remainder < 0 then remainder + prime else remainder
    if denominator = 0 then
      .error (cryptographicFault "authorization Ed25519 public key cannot be converted to X25519")
    else
      let u := ((1 + y) * power (Int.tmod · prime) denominator (prime - 2).toNat).tmod prime
      let encodedU := (shortest u).reverse
      if encodedU.length > 32 then
        .error (cryptographicFault "authorization X25519 public key is invalid")
      else .ok (encodedU ++ List.replicate (32 - encodedU.length) 0)

end CSharp

/-! ## Java -/

namespace Java

def ed25519PublicToX25519 (publicKey : Bytes) : Except ConversionFault Bytes :=
  if publicKey.length ≠ 32 then
    .error (cryptographicFault "invalid Ed25519 public key length")
  else
    let yBytes := clearSign publicKey
    let y : Int := natOf yBytes.reverse
    let prime : Int := 2 ^ 255 - 19
    if y ≥ prime then .error (cryptographicFault "non-canonical Ed25519 public key")
    else
      let denominator := (1 - y) % prime
      if denominator = 0 then
        .error (cryptographicFault "Ed25519 public key cannot be converted")
      else
        let u := (1 + y) * power (· % prime) denominator (prime - 2).toNat % prime
        let encoded := shortest u
        -- the copying loop takes the low bytes and leaves the rest zero
        .ok (encoded.reverse.take 32 ++ List.replicate (32 - encoded.length) 0)

end Java

/-! ## The coordinate that each SDK reads -/

theorem modify_append_cons {α : Type} (f : α → α) (low rest : List α) (b : α) :
    (low ++ b :: rest).modify low.length f = low ++ f b :: rest := by
  induction low with
  | nil => rfl
  | cons a low ih =>
    rw [List.cons_append, List.length_cons, List.modify_succ_cons, ih, List.cons_append]

theorem Ed25519Key.split (key : Ed25519Key) :
    ∃ low b, key.bytes = low ++ [b] ∧ low.length = 31 := by
  have hlen := key.length_eq
  obtain hnil | ⟨low, b, hbytes⟩ := key.bytes.eq_nil_or_concat'
  · rw [hnil] at hlen
    cases hlen
  · refine ⟨low, b, hbytes, ?_⟩
    rw [hbytes, List.length_append, List.length_singleton] at hlen
    omega

theorem littleNat_clearSign (key : Ed25519Key) :
    littleNat (clearSign key.bytes) = key.coordinate := by
  obtain ⟨low, b, hbytes, hlow⟩ := key.split
  have hclear : clearSign key.bytes = low ++ [b &&& 0x7f] := by
    rw [clearSign, hbytes, ← hlow]
    exact modify_append_cons ..
  rw [hclear, littleNat_clear, hlow, Ed25519Key.coordinate, hbytes]
  rfl

/-- The byte that keeps the number of .NET positive is not touched. -/
theorem clearSign_append (key : Ed25519Key) :
    clearSign (key.bytes ++ [0]) = clearSign key.bytes ++ [0] := by
  obtain ⟨low, b, hbytes, hlow⟩ := key.split
  rw [clearSign, clearSign, hbytes, List.append_assoc, ← hlow, List.singleton_append,
    modify_append_cons, modify_append_cons, List.append_assoc]
  rfl

/-! ## The denominator and the quotient -/

section Quotient
variable {y : Nat}

theorem prime_eq : (2 ^ 255 - 19 : Int) = curvePrime := by decide

theorem curvePrime_pos : (0 : Int) < curvePrime := Int.natCast_pos.mpr curvePrime_prime.pos

theorem denominator_eq_zero_iff (hy : y < curvePrime) :
    (1 - (y : Int)) % curvePrime = 0 ↔ y = 1 := by
  have htwo : 2 ≤ curvePrime := curvePrime_prime.two_le
  constructor
  · intro h
    have hsmall : |1 - (y : Int)| < curvePrime := abs_lt.mpr (by omega)
    have hzero := Int.eq_zero_of_abs_lt_dvd (Int.dvd_of_emod_eq_zero h) hsmall
    omega
  · rintro rfl
    exact Int.zero_emod _

theorem cast_denominator_ne_zero (hy : y < curvePrime) (hone : y ≠ 1) :
    (((1 - (y : Int)) % curvePrime : Int) : ZMod curvePrime) ≠ 0 := by
  rw [Ne, cast_emod, ZMod.intCast_zmod_eq_zero_iff_dvd, Int.dvd_iff_emod_eq_zero,
    denominator_eq_zero_iff hy]
  exact hone

/-- The remainder of .NET, made positive. -/
theorem positive_tmod {a m : Int} (hm : 0 < m) :
    (if a.tmod m < 0 then a.tmod m + m else a.tmod m) = a % m := by
  have hlow := Int.emod_nonneg a hm.ne'
  have hhigh := Int.emod_lt_of_pos a hm
  rw [Int.tmod_eq_emod]
  by_cases hsign : 0 ≤ a ∨ m ∣ a
  · rw [if_pos hsign, Nat.cast_zero, sub_zero, if_neg (not_lt.mpr hlow)]
  · rw [if_neg hsign, if_pos (by omega)]
    omega

/-- The quotient, by whatever inverse of the denominator. -/
theorem quotient_eq {inverse : Int}
    (h : (inverse : ZMod curvePrime) =
      (((1 - (y : Int)) % curvePrime : Int) : ZMod curvePrime)⁻¹) :
    (1 + (y : Int)) * inverse % curvePrime = (montgomery y).val := by
  have hcast : (((1 + (y : Int)) * inverse : Int) : ZMod curvePrime) = montgomery y := by
    rw [Int.cast_mul, h, cast_emod, montgomery]
    push_cast
    rfl
  rw [← hcast, ZMod.val_intCast]

theorem montgomery_lt (y : Nat) : (montgomery y).val < 2 ^ (8 * 31 + 7) :=
  lt_trans (ZMod.val_lt _) (by decide)

end Quotient

/-! ## What each SDK computes -/

/-- The conversion of a coordinate, with the texts of its two errors. -/
def converted (notCanonical notConvertible : String) (y : Nat) : Except ConversionFault Bytes :=
  if curvePrime ≤ y then .error (cryptographicFault notCanonical)
  else if y = 1 then .error (cryptographicFault notConvertible)
  else .ok (littleEndian 32 (montgomery y).val)

/-- The two tests of each SDK are those of the conversion. -/
theorem converted_eq {P : Prop} [Decidable P] {y : Nat} {denominator : Int}
    {body : Except ConversionFault Bytes} {notCanonical notConvertible : String}
    (hcanonical : P ↔ curvePrime ≤ y) (hdenominator : denominator = (1 - (y : Int)) % curvePrime)
    (hbody : (denominator : ZMod curvePrime) ≠ 0 →
      body = .ok (littleEndian 32 (montgomery y).val)) :
    (if P then .error (cryptographicFault notCanonical)
      else if denominator = 0 then .error (cryptographicFault notConvertible) else body) =
      converted notCanonical notConvertible y := by
  rw [converted]
  by_cases hlarge : curvePrime ≤ y
  · rw [if_pos hlarge, if_pos (hcanonical.mpr hlarge)]
  · have hy : y < curvePrime := not_le.mp hlarge
    have hzero : denominator = 0 ↔ y = 1 := by rw [hdenominator, denominator_eq_zero_iff hy]
    rw [if_neg hlarge, if_neg (mt hcanonical.mp hlarge)]
    by_cases hone : y = 1
    · rw [if_pos hone, if_pos (hzero.mpr hone)]
    · rw [if_neg hone, if_neg (mt hzero.mp hone), hbody]
      rw [hdenominator]
      exact cast_denominator_ne_zero hy hone

/-- The power `prime - 2` inverts, under a remainder that agrees with the modulus. -/
theorem quotient_power {rem : Int → Int} {y : Nat} (hrem : IsRemainder rem)
    (hcast : ∀ a, ((rem a : Int) : ZMod curvePrime) = a)
    (hne : (((1 - (y : Int)) % curvePrime : Int) : ZMod curvePrime) ≠ 0) :
    (1 + (y : Int)) * power rem ((1 - (y : Int)) % curvePrime) ((curvePrime : Int) - 2).toNat %
      curvePrime = (montgomery y).val := by
  have hexp : ((curvePrime : Int) - 2).toNat = curvePrime - 2 := by omega
  apply quotient_eq
  rw [hexp, power_eq hrem, hcast, cast_fermat hne]

theorem Go.cast_modInverse {d : Int} (hd : (d : ZMod curvePrime) ≠ 0) (hnonneg : 0 ≤ d) :
    ∃ inverse, Go.modInverse d curvePrime = some inverse ∧
      (inverse : ZMod curvePrime) = (d : ZMod curvePrime)⁻¹ := by
  refine ⟨if Int.gcdA d curvePrime < 0 then Int.gcdA d curvePrime + curvePrime
    else Int.gcdA d curvePrime, ?_, ?_⟩
  · rw [Go.modInverse, if_neg (not_lt.mpr hnonneg)]
    dsimp only
    rw [if_neg (not_not.mpr (gcd_eq_one hd))]
  · rw [← cast_gcdA hd]
    split
    · rw [Int.cast_add, Int.cast_natCast, ZMod.natCast_self, add_zero]
    · rfl

theorem Go.convert_eq (key : Ed25519Key) :
    Go.ed25519PublicKeyToX25519 key.bytes =
      converted "authorization Ed25519 public key is not canonical"
        "authorization Ed25519 public key cannot be converted" key.coordinate := by
  have hnat : natOf (clearSign key.bytes).reverse = key.coordinate := littleNat_clearSign key
  rw [Go.ed25519PublicKeyToX25519, if_neg (not_not.mpr key.length_eq)]
  dsimp only
  rw [hnat, prime_eq]
  apply converted_eq (by omega) rfl
  intro hne
  obtain ⟨inverse, hinverse, hcast⟩ :=
    Go.cast_modInverse hne (Int.emod_nonneg _ curvePrime_pos.ne')
  have hfit : ¬ 256 ^ 32 ≤ (montgomery key.coordinate).val := by
    have hlt := montgomery_lt key.coordinate
    omega
  rw [hinverse]
  dsimp only
  rw [quotient_eq hcast, Go.fillBytes, Int.natAbs_natCast, if_neg hfit]
  rfl

theorem Python.convert_eq (key : Ed25519Key) :
    Python.ed25519PublicKeyToX25519 key.bytes =
      converted "authorization Ed25519 public key is not canonical"
        "authorization Ed25519 public key cannot be converted" key.coordinate := by
  rw [Python.ed25519PublicKeyToX25519, if_neg (not_not.mpr key.length_eq)]
  dsimp only
  rw [littleNat_clearSign, prime_eq]
  apply converted_eq (by omega) rfl
  intro hne
  have hfit : ¬ ((montgomery key.coordinate).val < (0 : Int) ∨
      256 ^ 32 ≤ ((montgomery key.coordinate).val : Int).toNat) := by
    have hlt := montgomery_lt key.coordinate
    omega
  rw [quotient_power (isRemainder_emod _) cast_emod hne, Python.toBytes, if_neg hfit,
    Int.toNat_natCast]

theorem CSharp.convert_eq (key : Ed25519Key) :
    CSharp.convertEd25519PublicKeyToX25519 key.bytes =
      converted "authorization Ed25519 public key is not canonical"
        "authorization Ed25519 public key cannot be converted to X25519" key.coordinate := by
  have hlen := key.length_eq
  have hcopy : CSharp.blockCopy key.bytes 32 = .ok key.bytes := by
    rw [CSharp.blockCopy, if_neg (by omega), List.take_of_length_le (by omega)]
  have hy : signedOf (clearSign (key.bytes ++ [0])).reverse = key.coordinate := by
    rw [clearSign_append, List.reverse_append, List.reverse_singleton, List.singleton_append,
      signedOf_zero_cons, List.reverse_reverse, littleNat_clearSign]
  have hnonneg : (0 : Int) ≤ (1 + (key.coordinate : Int)) *
      power (Int.tmod · (curvePrime : Int)) ((1 - (key.coordinate : Int)) % curvePrime)
        ((curvePrime : Int) - 2).toNat := by
    rw [power_eq (isRemainder_tmod _)]
    have hbase := Int.emod_nonneg (1 - (key.coordinate : Int)) curvePrime_pos.ne'
    exact Int.mul_nonneg (by omega) (Int.tmod_nonneg _ (pow_nonneg hbase _))
  rw [CSharp.convertEd25519PublicKeyToX25519, hcopy]
  change (if _ then _ else _) = _
  rw [hy, prime_eq]
  dsimp only
  rw [positive_tmod curvePrime_pos]
  apply converted_eq (by omega) rfl
  intro hne
  obtain ⟨hshort, hpad⟩ := shortest_reverse (montgomery_lt key.coordinate)
  rw [Int.tmod_eq_emod_of_nonneg hnonneg, quotient_power (isRemainder_tmod _) cast_tmod hne]
  rw [if_neg (by rw [List.length_reverse]; omega), List.length_reverse, hpad]

theorem Java.convert_eq (key : Ed25519Key) :
    Java.ed25519PublicToX25519 key.bytes =
      converted "non-canonical Ed25519 public key"
        "Ed25519 public key cannot be converted" key.coordinate := by
  have hnat : natOf (clearSign key.bytes).reverse = key.coordinate := littleNat_clearSign key
  rw [Java.ed25519PublicToX25519, if_neg (not_not.mpr key.length_eq)]
  dsimp only
  rw [hnat, prime_eq]
  apply converted_eq (by omega) rfl
  intro hne
  obtain ⟨hshort, hpad⟩ := shortest_reverse (montgomery_lt key.coordinate)
  rw [quotient_power (isRemainder_emod _) cast_emod hne]
  rw [List.take_of_length_le (by rw [List.length_reverse]; exact hshort), hpad]

/-! ## The conversions agree -/

/-- The quotient is the one solution below the prime. -/
theorem isMontgomery_iff {y u : Nat} (hy : y < curvePrime) (hone : y ≠ 1) :
    IsMontgomery y u ↔ u = (montgomery y).val := by
  have hne : (1 - (y : ZMod curvePrime)) ≠ 0 := by
    have hcast := cast_denominator_ne_zero hy hone
    rw [cast_emod] at hcast
    push_cast at hcast
    exact hcast
  have hmod : (u : Int) * (1 - y) ≡ 1 + y [ZMOD curvePrime] ↔
      (u : ZMod curvePrime) = montgomery y := by
    rw [← ZMod.intCast_eq_intCast_iff, montgomery, eq_mul_inv_iff_mul_eq₀ hne]
    push_cast
    rfl
  rw [IsMontgomery, hmod]
  constructor
  · rintro ⟨hlt, h⟩
    rw [← h, ZMod.val_natCast_of_lt hlt]
  · rintro rfl
    exact ⟨ZMod.val_lt _, ZMod.natCast_zmod_val _⟩

/-- The conversions of the SDKs. -/
def conversions : List (Bytes → Except ConversionFault Bytes) :=
  [Go.ed25519PublicKeyToX25519, Python.ed25519PublicKeyToX25519,
    CSharp.convertEd25519PublicKeyToX25519, Java.ed25519PublicToX25519]

theorem convert_eq {convert : Bytes → Except ConversionFault Bytes} (h : convert ∈ conversions) :
    ∃ notCanonical notConvertible, ∀ key : Ed25519Key,
      convert key.bytes = converted notCanonical notConvertible key.coordinate := by
  simp only [conversions, List.mem_cons, List.not_mem_nil, or_false] at h
  rcases h with rfl | rfl | rfl | rfl
  · exact ⟨_, _, Go.convert_eq⟩
  · exact ⟨_, _, Python.convert_eq⟩
  · exact ⟨_, _, CSharp.convert_eq⟩
  · exact ⟨_, _, Java.convert_eq⟩

/-- **The conversions agree.**  A key is refused by every SDK, with an error of the SDK, exactly
when its coordinate is not canonical or is one; any other key is converted by every SDK to
the encoding of the one solution below the prime. -/
theorem ed25519_to_x25519 (key : Ed25519Key) :
    (∀ convert ∈ conversions, (∃ message, convert key.bytes = .error (.cryptographic message)) ↔
      curvePrime ≤ key.coordinate ∨ key.coordinate = 1) ∧
    (¬ (curvePrime ≤ key.coordinate ∨ key.coordinate = 1) →
      ∃ u, IsMontgomery key.coordinate u ∧ (∀ v, IsMontgomery key.coordinate v → v = u) ∧
        ∀ convert ∈ conversions, convert key.bytes = .ok (littleEndian 32 u)) := by
  constructor
  · intro convert hmem
    obtain ⟨notCanonical, notConvertible, heq⟩ := convert_eq hmem
    rw [heq, converted]
    by_cases hlarge : curvePrime ≤ key.coordinate
    · rw [if_pos hlarge]
      exact iff_of_true ⟨_, rfl⟩ (Or.inl hlarge)
    · rw [if_neg hlarge]
      by_cases hone : key.coordinate = 1
      · rw [if_pos hone]
        exact iff_of_true ⟨_, rfl⟩ (Or.inr hone)
      · rw [if_neg hone]
        refine iff_of_false ?_ (not_or.mpr ⟨hlarge, hone⟩)
        rintro ⟨message, h⟩
        cases h
  · intro h
    obtain ⟨hlarge, hone⟩ := not_or.mp h
    have hiff : ∀ {v}, IsMontgomery key.coordinate v ↔ v = (montgomery key.coordinate).val :=
      isMontgomery_iff (not_le.mp hlarge) hone
    refine ⟨(montgomery key.coordinate).val, hiff.mpr rfl, fun v hv => hiff.mp hv, ?_⟩
    intro convert hmem
    obtain ⟨notCanonical, notConvertible, heq⟩ := convert_eq hmem
    rw [heq, converted, if_neg hlarge, if_neg hone]

/-- The base point of the one curve is the base point of the other. -/
example : Java.ed25519PublicToX25519 (0x58 :: List.replicate 31 0x66) =
    .ok (9 :: List.replicate 31 0) := by decide +kernel

end SwmSdk
