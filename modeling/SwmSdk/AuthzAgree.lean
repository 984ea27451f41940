import SwmSdk.AuthzBinding
import SwmSdk.BodySealing
import SwmSdk.KeyRingsAgree
import SwmSdk.KeyTexts

/-! # The signed envelope in all six SDKs

Every SDK makes the same test of the identity and the lifetime of an envelope, looks its key up,
compares the digest of the data and verifies the signature of the same text.  They differ in what
they take for a key id, in the case of the digest, and in the session they keep: C# and Java keep
none that is blank, and Rust compares the digest letter by letter.

`authz_sixAgree_iff` says when this shows: for keys and signatures in the texts they travel in, what
one SDK takes is taken by C++, and all six take the same envelopes and keep the same sessions
exactly as long as what C++ takes is plain.
-/
namespace SwmSdk
open ByteText Outcome

/-! ## The checks -/

/-- `verify_authz`, from the envelope on: the session that is kept, if the envelope is taken. -/
def Cpp.verifyAuthzEnvelope (crypto : Crypto) (library : Ed25519) (context : AuthzContext)
    (rawData : Bytes) (authz : AuthzEnvelope) : Except Error (Option Session) := do
  let key ← checkEnvelope crypto context rawData authz
  let valid ← ed25519Verify library.check key.publicKey (canonical context authz) authz.signature
  if ¬ valid then .error authzSignatureInvalid
  else .ok (if authz.session ≠ [] then some ⟨authz.session, authz.expiresAt⟩ else none)

/-- `verifyAuthz`, from the envelope on. -/
def Go.verifyAuthzEnvelope (crypto : Crypto) (library : Ed25519) (context : AuthzContext)
    (data : Bytes) (envelope : AuthzEnvelope) : Except Error (Option Session) := do
  let key ← checkEnvelope crypto context data envelope
  if verifyEd25519Texts library key.publicKey (canonical context envelope) envelope.signature ≠
      some true then
    .error (newError .integrity "authz_signature_invalid"
      "Authz v3 response signature is invalid")
  else .ok (if envelope.session ≠ [] then some ⟨envelope.session, envelope.expiresAt⟩ else none)

/-- `verifyAuthz`, from the envelope on; none for what the signature check throws. -/
def Java.verifyAuthzEnvelope (crypto : Crypto) (library : Ed25519) (context : AuthzContext)
    (rawData : Bytes) (authz : AuthzEnvelope) : Except (Option Thrown) (Option Session) := do
  let key ← (checkEnvelope crypto context rawData authz).mapError some
  match verifyEd25519Texts library key.publicKey (Cpp.canonical context authz) authz.signature with
  | none => .error none
  | some false =>
      .error (some (integrity "authz_signature_invalid" "Authz v3 response signature is invalid"))
  | some true =>
      .ok (if isBlank authz.session then none else some ⟨authz.session, authz.expiresAt⟩)

/-- What the C#, Rust and Python checks do in their own way. -/
structure EnvelopeRules where
  refusesKeyId : Bytes → Bool
  findKey : KeyRing → Bytes → Option ProtocolKey
  sameDigest : Bytes → Bytes → Bool
  verify : Bytes → Bytes → Bytes → Option Bool
  keepsSession : Bytes → Bool
  invalid : Error
  unknownKey : Error
  mismatch : Error
  badSignature : Error

/-- The checks in the order of C#, Rust and Python, which join the signed text as Go does; none for
what the signature check throws. -/
def EnvelopeRules.verifyAuthzEnvelope (rules : EnvelopeRules) (crypto : Crypto)
    (context : AuthzContext) (data : Bytes) (envelope : AuthzEnvelope) :
    Except (Option Error) (Option Session) :=
  if ¬ envelope.Current context ∨ rules.refusesKeyId envelope.keyId = true then
    .error (some rules.invalid)
  else
    match rules.findKey context.ring envelope.keyId with
    | none => .error (some rules.unknownKey)
    | some key =>
        if rules.sameDigest envelope.dataSha256 (crypto.sha256Hex data) = false then
          .error (some rules.mismatch)
        else
          match rules.verify key.publicKey (Go.canonical context envelope) envelope.signature with
          | none => .error none
          | some false => .error (some rules.badSignature)
          | some true =>
              .ok (if rules.keepsSession envelope.session then
                some ⟨envelope.session, envelope.expiresAt⟩ else none)

namespace CSharp

/-- The exceptions of `VerifyAuthzEnvelope`, all with status 403. -/
def authzError (kind : ErrorKind) (code message : String) : Error where
  kind := kind
  statusCode := 403
  serviceCode := ascii code
  message := ascii message

/-- `string.Equals` with `OrdinalIgnoreCase` of a text and hexadecimal digits, which only ASCII
letters are folded to. -/
def equalsOrdinalIgnoreCase (value digits : Bytes) : Bool := lower value = lower digits

/-- `string.IsNullOrWhiteSpace`, of a text that came in as UTF-8. -/
def isBlank (value : Bytes) : Bool := isNullOrWhiteSpace (getString value)

/-- The rules of `VerifyAuthzEnvelope`. -/
def envelopeRules (library : Ed25519) : EnvelopeRules where
  refusesKeyId := isBlank
  findKey := findKey
  sameDigest := equalsOrdinalIgnoreCase
  verify := verifyEd25519Texts library
  keepsSession := fun session => !isBlank session
  invalid := authzError .unauthorized "authz_invalid"
    "Authz v3 response identity or lifetime is invalid"
  unknownKey := authzError .unauthorized "authz_invalid" "Authz v3 response key is unknown"
  mismatch := authzError .integrity "authz_data_mismatch"
    "Authz v3 response data hash is invalid"
  badSignature := authzError .integrity "authz_signature_invalid"
    "Authz v3 response signature is invalid"

/-- `VerifyAuthzEnvelope`. -/
def verifyAuthzEnvelope (crypto : Crypto) (library : Ed25519) :
    AuthzContext → Bytes → AuthzEnvelope → Except (Option Error) (Option Session) :=
  (envelopeRules library).verifyAuthzEnvelope crypto

end CSharp

namespace Rust

/-- `constant_time_eq`. -/
def constantTimeEq (left right : Bytes) : Bool := left = right

/-- The rules of `verify_authz`. -/
def envelopeRules (crates : Crates) (library : Ed25519) : EnvelopeRules where
  refusesKeyId := List.isEmpty
  findKey := findKey
  sameDigest := constantTimeEq
  verify := verifyEd25519Texts crates library
  keepsSession := fun session => !session.isEmpty
  invalid := rustError .unauthorized "Authz v3 response identity or lifetime is invalid"
  unknownKey := rustError .unauthorized "Authz v3 response key is unknown"
  mismatch := rustError .integrity "Authz v3 response data hash is invalid"
  badSignature := rustError .integrity "Authz v3 response signature is invalid"

/-- `verify_authz`, from the envelope on. -/
def verifyAuthzEnvelope (crates : Crates) (crypto : Crypto) (library : Ed25519) :
    AuthzContext → Bytes → AuthzEnvelope → Except (Option Error) (Option Session) :=
  (envelopeRules crates library).verifyAuthzEnvelope crypto

end Rust

namespace Python

/-- The errors of `_verify_authz`, which carry no service code. -/
def authzError (kind : ErrorKind) (message : String) : Error where
  kind := kind
  statusCode := 0
  serviceCode := []
  message := ascii message

/-- The comparison of `str.lower` with hexadecimal digits, which it makes of ASCII letters only. -/
def lowerEquals (value digits : Bytes) : Bool := lower value = digits

/-- The rules of `_verify_authz`. -/
def envelopeRules (libraries : Libraries) (library : Ed25519) : EnvelopeRules where
  refusesKeyId := List.isEmpty
  findKey := findKey
  sameDigest := lowerEquals
  verify := verifyEd25519Texts libraries library
  keepsSession := fun session => !session.isEmpty
  invalid := authzError .unauthorized "Authz v3 response identity or lifetime is invalid"
  unknownKey := authzError .unauthorized "Authz v3 response key is unknown"
  mismatch := authzError .integrity "Authz v3 response data hash is invalid"
  badSignature := authzError .integrity "Authz v3 response signature is invalid"

/-- `_verify_authz`, from the envelope on. -/
def verifyAuthzEnvelope (libraries : Libraries) (crypto : Crypto) (library : Ed25519) :
    AuthzContext → Bytes → AuthzEnvelope → Except (Option Error) (Option Session) :=
  (envelopeRules libraries library).verifyAuthzEnvelope crypto

end Python

/-! ## What every SDK asks for -/

namespace Go

/-- Against a text without `k` and `s`, folding puts ASCII letters in lower case. -/
theorem fold_eq_lower {value : Bytes} (hk : 0x6b ∉ fold value) (hs : 0x73 ∉ fold value) :
    fold value = lower value := by
  fun_induction fold value with
  | case1 rest ih => exact absurd (List.mem_cons_self ..) hk
  | case2 rest ih => exact absurd (List.mem_cons_self ..) hs
  | case3 b rest h₁ h₂ ih =>
    rw [ih (fun h => hk (List.mem_cons_of_mem _ h)) (fun h => hs (List.mem_cons_of_mem _ h))]
    rfl
  | case4 => rfl

theorem fold_ascii {value : Bytes} (h : ∀ b ∈ value, b < 0x80) : fold value = lower value := by
  fun_induction fold value with
  | case1 rest ih => exact absurd (h 0xe2 (List.mem_cons_self ..)) (by decide)
  | case2 rest ih => exact absurd (h 0xc5 (List.mem_cons_self ..)) (by decide)
  | case3 b rest h₁ h₂ ih =>
    rw [ih (fun d hd => h d (List.mem_cons_of_mem _ hd))]
    rfl
  | case4 => rfl

theorem equalFold_hex {value bytes : Bytes} :
    equalFold value (hex bytes) ↔ lower value = hex bytes := by
  rw [equalFold, fold_hex fun d hd => mem_hex hd]
  constructor
  · intro hfold
    have hdigit : ∀ d ∈ fold value, (48 ≤ d ∧ d ≤ 57) ∨ (97 ≤ d ∧ d ≤ 102) := by
      rw [hfold]
      exact fun d hd => mem_hex hd
    rw [← hfold, fold_eq_lower]
    · exact fun hd => absurd (hdigit _ hd) (by decide)
    · exact fun hd => absurd (hdigit _ hd) (by decide)
  · intro hlower
    rw [fold_ascii (ascii_of_lower hlower), hlower]

end Go

theorem Cpp.checkEnvelope_iff {crypto : Crypto} {context : AuthzContext} {rawData : Bytes}
    {authz : AuthzEnvelope} {key : ProtocolKey} :
    checkEnvelope crypto context rawData authz = .ok key ↔
      authz.Current context ∧ lower authz.dataSha256 = crypto.sha256Hex rawData ∧
        findKey context.ring authz.keyId = some key := by
  rw [checkEnvelope, guard_eq_ok, guard_eq_ok, not_not, not_not, Crypto.sha256Hex, lower_hex]
  refine and_congr_right fun _ => and_congr eq_comm ?_
  cases findKey context.ring authz.keyId with
  | none => simp
  | some found => simp

theorem Go.checkEnvelope_iff {crypto : Crypto} {context : AuthzContext} {data : Bytes}
    {envelope : AuthzEnvelope} {key : ProtocolKey} :
    checkEnvelope crypto context data envelope = .ok key ↔
      (envelope.Current context ∧ envelope.keyId ≠ []) ∧
        Cpp.findKey context.ring envelope.keyId = some key ∧
        lower envelope.dataSha256 = crypto.sha256Hex data := by
  rw [checkEnvelope, guard_eq_ok, not_or, not_not, Go.findKey_eq]
  refine and_congr_right fun _ => ?_
  cases Cpp.findKey context.ring envelope.keyId with
  | none => simp
  | some found =>
    dsimp only
    rw [guard_eq_ok, not_not, Crypto.sha256Hex, equalFold_hex, and_comm, Except.ok.injEq,
      Option.some.injEq]

theorem Java.checkEnvelope_iff {crypto : Crypto} {context : AuthzContext} {rawData : Bytes}
    {authz : AuthzEnvelope} {key : ProtocolKey} :
    checkEnvelope crypto context rawData authz = .ok key ↔
      authz.Current context ∧ lower authz.dataSha256 = crypto.sha256Hex rawData ∧
        Cpp.findKey context.ring authz.keyId = some key := by
  rw [checkEnvelope, guard_eq_ok, guard_eq_ok, not_not, Bool.not_eq_true, Bool.not_eq_false,
    Crypto.sha256Hex, equalsIgnoreCase_hex, Java.findKey_eq_cpp]
  refine and_congr_right fun _ => and_congr_right fun _ => ?_
  cases Cpp.findKey context.ring authz.keyId with
  | none => simp
  | some found => simp

/-- The texts are those of a key and of a signature that holds under it. -/
def Ed25519.Signs (library : Ed25519) (publicKey message signature : Bytes) : Prop :=
  ∃ key bytes, KeyMaterial publicKey key ∧ KeyMaterial signature bytes ∧ key.length = 32 ∧
    bytes.length = 64 ∧ library.check bytes key message = true

/-- The envelope is one of this client, for this data, signed by a key of the ring. -/
def Endorsed (crypto : Crypto) (library : Ed25519) (context : AuthzContext) (data : Bytes)
    (envelope : AuthzEnvelope) : Prop :=
  envelope.Current context ∧ lower envelope.dataSha256 = crypto.sha256Hex data ∧
    ∃ key, Cpp.findKey context.ring envelope.keyId = some key ∧
      library.Signs key.publicKey (Cpp.canonical context envelope) envelope.signature

theorem KeyMaterial.unique {text first second : Bytes} (h : KeyMaterial text first)
    (h' : KeyMaterial text second) : first = second := by
  have hread := Cpp.decodeKeyMaterial_read h
  rw [Cpp.decodeKeyMaterial_read h'] at hread
  exact (Except.ok.inj hread).symm

theorem Ed25519.signs_iff {library : Ed25519} {publicKey message signature key bytes : Bytes}
    (hkey : KeyMaterial publicKey key) (hbytes : KeyMaterial signature bytes) :
    library.Signs publicKey message signature ↔
      key.length = 32 ∧ bytes.length = 64 ∧ library.check bytes key message = true := by
  constructor
  · rintro ⟨other, others, hother, hothers, h⟩
    rw [hkey.unique hother, hbytes.unique hothers]
    exact h
  · exact fun h => ⟨key, bytes, hkey, hbytes, h⟩

/-- The verification holds exactly when the texts are those of a signature that holds, if the SDK
reads them. -/
theorem verifyTexts_iff {decode : Bytes → Option Bytes} {throwsForKey : Bool} {library : Ed25519}
    (hlibrary : library.Lawful)
    (hdecode : ∀ text bytes, KeyMaterial text bytes → decode text = some bytes)
    {publicKey message signature key bytes : Bytes} (hkey : KeyMaterial publicKey key)
    (hbytes : KeyMaterial signature bytes) :
    verifyTexts decode throwsForKey library publicKey message signature = some true ↔
      library.Signs publicKey message signature := by
  rw [Ed25519.signs_iff hkey hbytes, verifyTexts, hdecode _ _ hkey, hdecode _ _ hbytes]
  constructor
  · intro h
    dsimp only at h
    split_ifs at h with hlength
    · rw [not_or, not_not, not_not] at hlength
      exact ⟨hlength.1, hlength.2, Option.some.inj h⟩
  · rintro ⟨hkeyLength, hlength, hcheck⟩
    simp [hkeyLength, hlength, hcheck, hlibrary _ _ _ hcheck]

/-- The texts of the client's keys, and of the signature. -/
structure ReadableTexts (context : AuthzContext) (envelope : AuthzEnvelope) : Prop where
  keys : ∀ keyId key, Cpp.findKey context.ring keyId = some key →
    ∃ bytes, KeyMaterial key.publicKey bytes
  signature : ∃ bytes, KeyMaterial envelope.signature bytes

/-- A signature is such a text, even if its text is taken for hexadecimal digits. -/
theorem KeyText.signature {bytes text : Bytes} (hlength : bytes.length = 64)
    (h : KeyText bytes text) : ∃ read, KeyMaterial text read := by
  have hne : bytes ≠ [] := List.ne_nil_of_length_pos (by omega)
  cases h with
  | hex =>
    refine ⟨bytes, .hex (List.ne_nil_of_length_pos ?_) (unhex_hex bytes)⟩
    rw [hex_length]
    omega
  | base64url =>
    cases hunhex : unhex (Base64Url.encode bytes) with
    | some short => exact ⟨short, .hex (encode_ne_nil hne) hunhex⟩
    | none =>
      refine ⟨bytes, .base64url hne hunhex ?_⟩
      rw [Cpp.encode_length, hlength]
      decide

section Envelopes
variable {crypto : Crypto} {library : Ed25519} (hlibrary : library.Lawful)
  {context : AuthzContext} {data : Bytes} {envelope : AuthzEnvelope}
  (hread : ReadableTexts context envelope) {session : Option Session}
include hlibrary hread

/-- One lookup and one verification, in the order of the SDK. -/
theorem endorsed_of_verify {decode : Bytes → Option Bytes} {throwsForKey : Bool}
    (hdecode : ∀ text bytes, KeyMaterial text bytes → decode text = some bytes)
    {key : ProtocolKey} (hfind : Cpp.findKey context.ring envelope.keyId = some key)
    {message : Bytes} :
    verifyTexts decode throwsForKey library key.publicKey message envelope.signature = some true ↔
      library.Signs key.publicKey message envelope.signature := by
  obtain ⟨keyBytes, hkey⟩ := hread.keys _ _ hfind
  obtain ⟨bytes, hbytes⟩ := hread.signature
  exact verifyTexts_iff hlibrary hdecode hkey hbytes

theorem EnvelopeRules.verifyAuthzEnvelope_iff {rules : EnvelopeRules}
    {decode : Bytes → Option Bytes} {throwsForKey : Bool}
    (hdecode : ∀ text bytes, KeyMaterial text bytes → decode text = some bytes)
    (hverify : rules.verify = verifyTexts decode throwsForKey library)
    (hring : rules.findKey = Cpp.findKey)
    (hdigest : ∀ value, rules.sameDigest value (crypto.sha256Hex data) = true →
      lower value = crypto.sha256Hex data) :
    (rules.verifyAuthzEnvelope crypto context data envelope).toOption = some session ↔
      Endorsed crypto library context data envelope ∧
        rules.refusesKeyId envelope.keyId = false ∧
        rules.sameDigest envelope.dataSha256 (crypto.sha256Hex data) = true ∧
        session = if rules.keepsSession envelope.session then
          some ⟨envelope.session, envelope.expiresAt⟩ else none := by
  have hsigns : ∀ key, Cpp.findKey context.ring envelope.keyId = some key →
      (rules.verify key.publicKey (Go.canonical context envelope) envelope.signature = some true ↔
        library.Signs key.publicKey (Cpp.canonical context envelope) envelope.signature) := by
    intro key hfind
    rw [hverify, Go.canonical_eq]
    exact endorsed_of_verify hlibrary hread hdecode hfind
  unfold EnvelopeRules.verifyAuthzEnvelope Endorsed
  rw [hring]
  constructor
  · intro h
    split at h
    · cases h
    · rename_i hcurrent
      rw [not_or, not_not, Bool.not_eq_true] at hcurrent
      split at h
      · cases h
      · rename_i key hfind
        split at h
        · cases h
        · rename_i hsame
          rw [Bool.not_eq_false] at hsame
          split at h
          · cases h
          · cases h
          · rename_i hvalid
            exact ⟨⟨hcurrent.1, hdigest _ hsame, key, hfind, (hsigns key hfind).mp hvalid⟩,
              hcurrent.2, hsame, (Option.some.inj h).symm⟩
  · rintro ⟨⟨hcurrent, -, key, hfind, hkey⟩, hid, hsame, rfl⟩
    rw [if_neg (by simp [hcurrent, hid]), hfind]
    simp only [hsame, Bool.true_eq_false, if_false, (hsigns key hfind).mpr hkey]
    rfl

/-! ## One SDK at a time -/

theorem CSharp.verifyAuthzEnvelope_iff :
    (CSharp.verifyAuthzEnvelope crypto library context data envelope).toOption = some session ↔
      Endorsed crypto library context data envelope ∧ CSharp.isBlank envelope.keyId = false ∧
        session = if CSharp.isBlank envelope.session then none
          else some ⟨envelope.session, envelope.expiresAt⟩ := by
  have hdigest : ∀ value, CSharp.equalsOrdinalIgnoreCase value (crypto.sha256Hex data) = true ↔
      lower value = crypto.sha256Hex data := by
    intro value
    rw [CSharp.equalsOrdinalIgnoreCase, decide_eq_true_iff, Crypto.sha256Hex, lower_hex]
  have hdecode : ∀ text bytes, KeyMaterial text bytes →
      (CSharp.decodeKeyMaterial text).toOption = some bytes := by
    intro text bytes h
    rw [CSharp.decodeKeyMaterial_read h]
    rfl
  rw [CSharp.verifyAuthzEnvelope, EnvelopeRules.verifyAuthzEnvelope_iff hlibrary hread hdecode rfl
    rfl fun value => (hdigest value).mp]
  constructor
  · rintro ⟨hendorsed, hid, -, rfl⟩
    refine ⟨hendorsed, hid, ?_⟩
    cases hblank : CSharp.isBlank envelope.session <;> simp [CSharp.envelopeRules, hblank]
  · rintro ⟨hendorsed, hid, rfl⟩
    refine ⟨hendorsed, hid, (hdigest _).mpr hendorsed.2.1, ?_⟩
    cases hblank : CSharp.isBlank envelope.session <;> simp [CSharp.envelopeRules, hblank]

theorem Rust.verifyAuthzEnvelope_iff {crates : Rust.Crates} (hcrates : crates.Lawful) :
    (Rust.verifyAuthzEnvelope crates crypto library context data envelope).toOption = some session ↔
      Endorsed crypto library context data envelope ∧ envelope.keyId ≠ [] ∧
        envelope.dataSha256 = crypto.sha256Hex data ∧
        session = if envelope.session = [] then none
          else some ⟨envelope.session, envelope.expiresAt⟩ := by
  have hdecode : ∀ text bytes, KeyMaterial text bytes →
      (Rust.decodeKeyMaterial crates text).toOption = some bytes := by
    intro text bytes h
    rw [Rust.decodeKeyMaterial_read h hcrates]
    rfl
  have hdigest : ∀ value, Rust.constantTimeEq value (crypto.sha256Hex data) = true →
      lower value = crypto.sha256Hex data := by
    intro value h
    rw [of_decide_eq_true h, Crypto.sha256Hex, lower_hex]
  rw [Rust.verifyAuthzEnvelope,
    EnvelopeRules.verifyAuthzEnvelope_iff hlibrary hread hdecode rfl rfl hdigest]
  refine and_congr_right fun _ => and_congr ?_ (and_congr ?_ ?_)
  · exact List.isEmpty_eq_false_iff
  · exact decide_eq_true_iff
  · cases envelope.session <;> simp [Rust.envelopeRules]

theorem Python.verifyAuthzEnvelope_iff {libraries : Python.Libraries}
    (hlibraries : libraries.Lawful) (hhex : libraries.ReadsHex) :
    (Python.verifyAuthzEnvelope libraries crypto library context data envelope).toOption =
        some session ↔
      Endorsed crypto library context data envelope ∧ envelope.keyId ≠ [] ∧
        session = if envelope.session = [] then none
          else some ⟨envelope.session, envelope.expiresAt⟩ := by
  have hdecode : ∀ text bytes, KeyMaterial text bytes →
      (Python.decodeKeyMaterial libraries text).toOption = some bytes := by
    intro text bytes h
    rw [Python.decodeKeyMaterial_read h hlibraries hhex]
    rfl
  rw [Python.verifyAuthzEnvelope, EnvelopeRules.verifyAuthzEnvelope_iff hlibrary hread hdecode rfl
    rfl fun value => of_decide_eq_true]
  constructor
  · rintro ⟨hendorsed, hid, -, rfl⟩
    refine ⟨hendorsed, List.isEmpty_eq_false_iff.mp hid, ?_⟩
    cases envelope.session <;> simp [Python.envelopeRules]
  · rintro ⟨hendorsed, hid, rfl⟩
    refine ⟨hendorsed, List.isEmpty_eq_false_iff.mpr hid, decide_eq_true hendorsed.2.1, ?_⟩
    cases envelope.session <;> simp [Python.envelopeRules]

omit hlibrary in
theorem Cpp.verifyAuthzEnvelope_iff :
    (Cpp.verifyAuthzEnvelope crypto library context data envelope).toOption = some session ↔
      Endorsed crypto library context data envelope ∧
        session = if envelope.session = [] then none
          else some ⟨envelope.session, envelope.expiresAt⟩ := by
  have hsigns : ∀ key, Cpp.findKey context.ring envelope.keyId = some key →
      (Cpp.ed25519Verify library.check key.publicKey (Cpp.canonical context envelope)
        envelope.signature = .ok true ↔
        library.Signs key.publicKey (Cpp.canonical context envelope) envelope.signature) := by
    intro key hfind
    obtain ⟨keyBytes, hkey⟩ := hread.keys _ _ hfind
    obtain ⟨bytes, hbytes⟩ := hread.signature
    rw [Ed25519.signs_iff hkey hbytes, Cpp.ed25519Verify_eq_ok, Cpp.decodeKeyMaterial_read hkey,
      Cpp.decodeKeyMaterial_read hbytes]
    simp
  have hok : ∀ value : Option Session,
      (Cpp.verifyAuthzEnvelope crypto library context data envelope).toOption = some value ↔
        Cpp.verifyAuthzEnvelope crypto library context data envelope = .ok value := by
    intro value
    cases Cpp.verifyAuthzEnvelope crypto library context data envelope <;> simp [Except.toOption]
  rw [hok, Cpp.verifyAuthzEnvelope, bind_eq_ok]
  constructor
  · rintro ⟨key, hcheck, h⟩
    obtain ⟨hcurrent, hdigest, hfind⟩ := Cpp.checkEnvelope_iff.mp hcheck
    obtain ⟨valid, hvalid, h⟩ := bind_eq_ok.mp h
    obtain ⟨hv, h⟩ := guard_eq_ok.mp h
    obtain rfl : valid = true := by simpa using hv
    refine ⟨⟨hcurrent, hdigest, key, hfind, (hsigns key hfind).mp hvalid⟩, ?_⟩
    rw [← Except.ok.inj h, ite_not]
  · rintro ⟨⟨hcurrent, hdigest, key, hfind, hkey⟩, rfl⟩
    refine ⟨key, Cpp.checkEnvelope_iff.mpr ⟨hcurrent, hdigest, hfind⟩, ?_⟩
    refine bind_eq_ok.mpr ⟨true, (hsigns key hfind).mpr hkey, ?_⟩
    rw [if_neg (by simp), ite_not]

theorem Go.verifyAuthzEnvelope_iff :
    (Go.verifyAuthzEnvelope crypto library context data envelope).toOption = some session ↔
      Endorsed crypto library context data envelope ∧ envelope.keyId ≠ [] ∧
        session = if envelope.session = [] then none
          else some ⟨envelope.session, envelope.expiresAt⟩ := by
  have hsigns : ∀ key, Cpp.findKey context.ring envelope.keyId = some key →
      (Go.verifyEd25519Texts library key.publicKey (Go.canonical context envelope)
        envelope.signature = some true ↔
        library.Signs key.publicKey (Cpp.canonical context envelope) envelope.signature) := by
    intro key hfind
    rw [Go.canonical_eq]
    exact endorsed_of_verify hlibrary hread (fun _ _ h => Go.decodeKeyMaterial_read h) hfind
  have hok : ∀ value : Option Session,
      (Go.verifyAuthzEnvelope crypto library context data envelope).toOption = some value ↔
        Go.verifyAuthzEnvelope crypto library context data envelope = .ok value := by
    intro value
    cases Go.verifyAuthzEnvelope crypto library context data envelope <;> simp [Except.toOption]
  rw [hok, Go.verifyAuthzEnvelope, bind_eq_ok]
  constructor
  · rintro ⟨key, hcheck, h⟩
    obtain ⟨⟨hcurrent, hid⟩, hfind, hdigest⟩ := Go.checkEnvelope_iff.mp hcheck
    obtain ⟨hvalid, h⟩ := guard_eq_ok.mp h
    refine ⟨⟨hcurrent, hdigest, key, hfind, (hsigns key hfind).mp (not_not.mp hvalid)⟩, hid, ?_⟩
    rw [← Except.ok.inj h, ite_not]
  · rintro ⟨⟨hcurrent, hdigest, key, hfind, hkey⟩, hid, rfl⟩
    refine ⟨key, Go.checkEnvelope_iff.mpr ⟨⟨hcurrent, hid⟩, hfind, hdigest⟩, ?_⟩
    rw [if_neg (not_not.mpr ((hsigns key hfind).mpr hkey)), ite_not]

theorem Java.verifyAuthzEnvelope_iff :
    (Java.verifyAuthzEnvelope crypto library context data envelope).toOption = some session ↔
      Endorsed crypto library context data envelope ∧
        session = if Java.isBlank envelope.session then none
          else some ⟨envelope.session, envelope.expiresAt⟩ := by
  have hdecode : ∀ text bytes, KeyMaterial text bytes →
      (Java.decodeKeyMaterial text).toOption = some bytes := by
    intro text bytes h
    rw [Java.decodeKeyMaterial_read h]
    rfl
  have hsigns : ∀ key, Cpp.findKey context.ring envelope.keyId = some key →
      (Java.verifyEd25519Texts library key.publicKey (Cpp.canonical context envelope)
        envelope.signature = some true ↔
        library.Signs key.publicKey (Cpp.canonical context envelope) envelope.signature) :=
    fun key hfind => endorsed_of_verify hlibrary hread hdecode hfind
  have hok : ∀ value : Option Session,
      (Java.verifyAuthzEnvelope crypto library context data envelope).toOption = some value ↔
        Java.verifyAuthzEnvelope crypto library context data envelope = .ok value := by
    intro value
    cases Java.verifyAuthzEnvelope crypto library context data envelope <;> simp [Except.toOption]
  have hmap : ∀ key, (Java.checkEnvelope crypto context data envelope).mapError some = .ok key ↔
      Java.checkEnvelope crypto context data envelope = .ok key := by
    intro key
    cases Java.checkEnvelope crypto context data envelope <;> simp [Except.mapError]
  rw [hok, Java.verifyAuthzEnvelope, bind_eq_ok]
  constructor
  · rintro ⟨key, hcheck, h⟩
    obtain ⟨hcurrent, hdigest, hfind⟩ := Java.checkEnvelope_iff.mp ((hmap key).mp hcheck)
    split at h
    · cases h
    · cases h
    · rename_i hvalid
      exact ⟨⟨hcurrent, hdigest, key, hfind, (hsigns key hfind).mp hvalid⟩,
        (Except.ok.inj h).symm⟩
  · rintro ⟨⟨hcurrent, hdigest, key, hfind, hkey⟩, rfl⟩
    refine ⟨key, (hmap key).mpr (Java.checkEnvelope_iff.mpr ⟨hcurrent, hdigest, hfind⟩), ?_⟩
    rw [(hsigns key hfind).mpr hkey]

end Envelopes

/-- What `verify_authz` returns was taken, and its session is the one that is kept. -/
theorem Cpp.verifyAuthz_taken {crypto : Crypto} {library : Ed25519} {what : Bytes → Bytes}
    {note : Except Error Unit} {context : AuthzContext} {session : Session}
    {response : ProtocolResponse} {data : Json}
    (h : (verifyAuthz (withEd25519 crypto library.check) what note context session response).1 =
      .ok data) :
    ∃ authz rawData kept,
      verifiedCarrier (withEd25519 crypto library.check) what context response =
        .ok (data, authz) ∧
      extractJsonMemberRaw response.body (ascii "data") = some rawData ∧
      verifyAuthzEnvelope crypto library context rawData authz = .ok kept ∧
      (verifyAuthz (withEd25519 crypto library.check) what note context session response).2 =
        kept.getD session := by
  obtain ⟨authz, hcarrier⟩ := verifyAuthz_ok h
  obtain ⟨carrier, rawData, key, hverified⟩ := verifiedCarrier_ok hcarrier
  have hkey : checkEnvelope crypto context rawData authz = .ok key := hverified.checked
  have hvalid : ed25519Verify library.check key.publicKey (canonical context authz)
      authz.signature = .ok true := hverified.signed
  refine ⟨authz, rawData, _, hcarrier, hverified.sliced,
    bind_eq_ok.mpr ⟨key, hkey, bind_eq_ok.mpr ⟨true, hvalid, rfl⟩⟩, ?_⟩
  unfold verifyAuthz
  rw [hcarrier]
  cases note with
  | error e => by_cases hsession : authz.session = [] <;> simp [hsession]
  | ok u => by_cases hsession : authz.session = [] <;> simp [hsession]

/-! ## All six -/

/-- What every SDK asks for and keeps alike: an id and a digest that C# and Rust take too, and no
blank session, which only some would keep. -/
structure PlainEnvelope (crypto : Crypto) (data : Bytes) (envelope : AuthzEnvelope) : Prop where
  keyId : CSharp.isBlank envelope.keyId = false
  digest : envelope.dataSha256 = crypto.sha256Hex data
  session : envelope.session ≠ [] →
    CSharp.isBlank envelope.session = false ∧ Java.isBlank envelope.session = false

/-- What Go, C#, Rust, Java and Python answer; none for a refusal. -/
def verdicts (crypto : Crypto) (crates : Rust.Crates) (libraries : Python.Libraries)
    (library : Ed25519) (context : AuthzContext) (data : Bytes) (envelope : AuthzEnvelope) :
    List (Option (Option Session)) :=
  [(Go.verifyAuthzEnvelope crypto library context data envelope).toOption,
    (CSharp.verifyAuthzEnvelope crypto library context data envelope).toOption,
    (Rust.verifyAuthzEnvelope crates crypto library context data envelope).toOption,
    (Java.verifyAuthzEnvelope crypto library context data envelope).toOption,
    (Python.verifyAuthzEnvelope libraries crypto library context data envelope).toOption]

/-- A verdict that asks for more than another one, and may keep something else. -/
theorem verdict_agrees {α : Type} {reference verdict : Option α} {taken asks : Prop}
    {keeps kept : α} (hreference : ∀ a, reference = some a ↔ taken ∧ a = keeps)
    (hverdict : ∀ a, verdict = some a ↔ taken ∧ asks ∧ a = kept) :
    (verdict.isSome → reference.isSome) ∧
      (verdict = reference ↔ (reference.isSome → asks ∧ kept = keeps)) := by
  have htaken : reference.isSome ↔ taken := by
    rw [Option.isSome_iff_exists]
    exact ⟨fun ⟨a, ha⟩ => ((hreference a).mp ha).1, fun h => ⟨keeps, (hreference _).mpr ⟨h, rfl⟩⟩⟩
  have hof : verdict.isSome → taken := by
    rw [Option.isSome_iff_exists]
    exact fun ⟨a, ha⟩ => ((hverdict a).mp ha).1
  refine ⟨fun h => htaken.mpr (hof h), ?_, ?_⟩
  · intro h hsome
    have hkeeps := (hreference keeps).mpr ⟨htaken.mp hsome, rfl⟩
    obtain ⟨-, hasks, heq⟩ := (hverdict keeps).mp (h.trans hkeeps)
    exact ⟨hasks, heq.symm⟩
  · intro h
    cases hsome : reference.isSome with
    | true =>
      obtain ⟨hasks, rfl⟩ := h hsome
      rw [(hreference kept).mpr ⟨htaken.mp hsome, rfl⟩]
      exact (hverdict kept).mpr ⟨htaken.mp hsome, hasks, rfl⟩
    | false =>
      rw [Option.isSome_eq_false_iff, Option.isNone_iff_eq_none] at hsome
      rw [hsome, ← Option.not_isSome_iff_eq_none]
      intro hverdictSome
      rw [← htaken, hsome] at hof
      exact absurd (hof hverdictSome) Bool.false_ne_true

theorem ne_nil_of_notBlank {value : Bytes} (h : CSharp.isBlank value = false) : value ≠ [] := by
  rintro rfl
  exact absurd h (by decide)

/-- Two SDKs keep the same of a session exactly if it is blank to both or to none. -/
theorem kept_eq_iff {blank : Bool} {empty : Prop} [Decidable empty] {session : Session} :
    ((if blank then none else some session) = if empty then none else some session) ↔
      (blank = true ↔ empty) := by
  cases blank <;> by_cases h : empty <;> simp [h]

/-- **When all six SDKs take the same envelopes and keep the same sessions**: exactly as long as
what C++ takes is plain.  What another SDK takes, C++ takes. -/
theorem authz_sixAgree_iff (crypto : Crypto) {crates : Rust.Crates} {libraries : Python.Libraries}
    {library : Ed25519} (hcrates : crates.Lawful) (hlibraries : libraries.Lawful)
    (hhex : libraries.ReadsHex) (hlibrary : library.Lawful) (context : AuthzContext)
    (data : Bytes) (envelope : AuthzEnvelope)
    (hkeys : ∀ keyId key, Cpp.findKey context.ring keyId = some key →
      ∃ bytes, bytes.length = 32 ∧ KeyText bytes key.publicKey)
    (hsignature : ∃ bytes, bytes.length = 64 ∧ KeyText bytes envelope.signature) :
    (∀ verdict ∈ verdicts crypto crates libraries library context data envelope,
      verdict.isSome →
        (Cpp.verifyAuthzEnvelope crypto library context data envelope).toOption.isSome) ∧
    ((∀ verdict ∈ verdicts crypto crates libraries library context data envelope,
        verdict = (Cpp.verifyAuthzEnvelope crypto library context data envelope).toOption) ↔
      ((Cpp.verifyAuthzEnvelope crypto library context data envelope).toOption.isSome →
        PlainEnvelope crypto data envelope)) := by
  have hread : ReadableTexts context envelope := by
    constructor
    · intro keyId key hfind
      obtain ⟨bytes, hlength, htext⟩ := hkeys keyId key hfind
      exact ⟨bytes, htext.material hlength⟩
    · obtain ⟨bytes, hlength, htext⟩ := hsignature
      exact htext.signature hlength
  have hcpp := fun a => @Cpp.verifyAuthzEnvelope_iff crypto library context data envelope hread a
  obtain ⟨hgoTaken, hgo⟩ := verdict_agrees hcpp fun _ => Go.verifyAuthzEnvelope_iff hlibrary hread
  obtain ⟨hcsharpTaken, hcsharp⟩ :=
    verdict_agrees hcpp fun _ => CSharp.verifyAuthzEnvelope_iff hlibrary hread
  obtain ⟨hrustTaken, hrust⟩ := verdict_agrees hcpp fun _ =>
    (Rust.verifyAuthzEnvelope_iff hlibrary hread hcrates).trans
      (and_congr_right fun _ => and_assoc.symm)
  obtain ⟨hjavaTaken, hjava⟩ := verdict_agrees hcpp fun _ =>
    (Java.verifyAuthzEnvelope_iff hlibrary hread).trans
      (and_congr_right fun _ => by rw [true_and])
  obtain ⟨hpythonTaken, hpython⟩ :=
    verdict_agrees hcpp fun _ => Python.verifyAuthzEnvelope_iff hlibrary hread hlibraries hhex
  rw [kept_eq_iff] at hcsharp hjava
  constructor
  · simpa [verdicts] using ⟨hgoTaken, hcsharpTaken, hrustTaken, hjavaTaken, hpythonTaken⟩
  constructor
  · intro h htaken
    obtain ⟨hid, hcsharpSession⟩ := hcsharp.mp (h _ (by simp [verdicts])) htaken
    obtain ⟨⟨-, hdigest⟩, -⟩ := hrust.mp (h _ (by simp [verdicts])) htaken
    obtain ⟨-, hjavaSession⟩ := hjava.mp (h _ (by simp [verdicts])) htaken
    refine ⟨hid, hdigest, fun hne => ⟨?_, ?_⟩⟩
    · rwa [← Bool.not_eq_true, hcsharpSession]
    · rwa [← Bool.not_eq_true, hjavaSession]
  · intro h
    have hne := fun htaken => ne_nil_of_notBlank (h htaken).keyId
    have hempty : ∀ {blank : Bytes → Bool}, blank [] = true →
        (envelope.session ≠ [] → blank envelope.session = false) →
        (blank envelope.session = true ↔ envelope.session = []) := by
      intro blank hnil hblank
      refine ⟨fun htrue => ?_, fun heq => heq ▸ hnil⟩
      by_contra hsession
      rw [hblank hsession] at htrue
      exact Bool.false_ne_true htrue
    have hcsharpSame := hcsharp.mpr fun htaken =>
      ⟨(h htaken).keyId, hempty (by decide) fun hs => ((h htaken).session hs).1⟩
    have hjavaSame := hjava.mpr fun htaken =>
      ⟨trivial, hempty (by decide) fun hs => ((h htaken).session hs).2⟩
    have hgoSame := hgo.mpr fun htaken => ⟨hne htaken, rfl⟩
    have hrustSame := hrust.mpr fun htaken => ⟨⟨hne htaken, (h htaken).digest⟩, rfl⟩
    have hpythonSame := hpython.mpr fun htaken => ⟨hne htaken, rfl⟩
    simpa [verdicts] using ⟨hgoSame, hcsharpSame, hrustSame, hjavaSame, hpythonSame⟩

/-! ## The signed envelope of the samples -/

namespace AuthzCheck

/-- The key of the samples, in bytes. -/
def keyBytes : Bytes :=
  SealedCheck.hexBytes "d75a980182b10ab7d54bfed3c964073a0ee172f3daa62325af021a68f707511a"

/-- The signature of the samples, in bytes. -/
def signatureBytes : Bytes :=
  SealedCheck.hexBytes "a4cc00a745d53b5c4fcffdb9af83946feba6540903d3ee60f7fa00018af6b088" ++
    SealedCheck.hexBytes "7b077676abb23de28831d56e52837d88e2f9d02a93acc2bdcaf4dd53be1e0b01"

/-- Ed25519 on the signature of the samples. -/
def library : Ed25519 where
  validKey key := key = keyBytes
  check signature key message :=
    signature = signatureBytes && key = keyBytes && message = signedText

theorem library_lawful : library.Lawful := by
  intro signature key message h
  simp only [library, Bool.and_eq_true, decide_eq_true_iff] at h ⊢
  exact h.1.2

theorem key_text : KeyText keyBytes signedKey.publicKey := by
  have htext : signedKey.publicKey = Base64Url.encode keyBytes := by decide
  exact htext ▸ .base64url

theorem signature_text : KeyText signatureBytes signatureText := by
  have htext : signatureText = Base64Url.encode signatureBytes := by decide
  exact htext ▸ .base64url

/-- The envelope of the sample response. -/
def envelope : AuthzEnvelope where
  version := ascii "authz_v3"
  decision := ascii "allow"
  releaseId := ascii "release"
  deviceId := ascii "device"
  nonce := ascii "nonce"
  dataSha256 := hex oneDigest
  keyId := ascii "k1"
  reason := []
  session := []
  signature := signatureText
  issuedAt := 990
  expiresAt := 1200

theorem plain : PlainEnvelope signedCrypto (ascii "1") envelope where
  keyId := by decide
  digest := by decide
  session h := absurd rfl h

theorem taken : (Cpp.verifyAuthzEnvelope signedCrypto library signedContext (ascii "1")
    envelope).toOption = some none := by decide +kernel

theorem keys (keyId : Bytes) (key : ProtocolKey)
    (h : Cpp.findKey signedContext.ring keyId = some key) :
    ∃ bytes, bytes.length = 32 ∧ KeyText bytes key.publicKey := by
  obtain ⟨-, rfl⟩ : signedKey.keyId = keyId ∧ signedKey = key := by
    simpa [Cpp.findKey, signedContext] using h
  exact ⟨keyBytes, by decide, key_text⟩

end AuthzCheck

theorem authz_sixAgree_signed :
    verdicts signedCrypto SealedCheck.platforms.crates SealedCheck.platforms.python
      AuthzCheck.library signedContext (ascii "1") AuthzCheck.envelope =
        List.replicate 5 (some none) := by
  refine List.eq_replicate_iff.mpr ⟨rfl, ?_⟩
  rw [← AuthzCheck.taken]
  exact (authz_sixAgree_iff signedCrypto SealedCheck.platforms_lawful.crates
    SealedCheck.platforms_lawful.python (fun _ _ => rfl) AuthzCheck.library_lawful signedContext
    (ascii "1") AuthzCheck.envelope AuthzCheck.keys
    ⟨AuthzCheck.signatureBytes, by decide, AuthzCheck.signature_text⟩).2.mpr
    fun _ => AuthzCheck.plain

end SwmSdk
