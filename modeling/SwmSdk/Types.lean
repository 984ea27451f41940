import Mathlib.Data.List.DropRight
import SwmSdk.ByteText

/-! # What the SDKs share

The public error type, and the cryptographic primitives that the protocol code of every SDK
calls.  Texts are byte strings; an empty text is how the sources write "absent" wherever no
`optional` is used.

The primitives are parameters of the model: a digest of fixed length, and the Ed25519 check of a
text-encoded key and signature, which may also fail on an encoding it cannot read.
-/
namespace SwmSdk
open ByteText

/-- `ErrorKind`, with the kinds of all SDKs. -/
inductive ErrorKind where
  | configuration | validation | network | timeout | clock | protocol | cryptographic
  | identity | unauthorized | session | deviceBlocked | unsupportedVersion
  | updateRegionBlocked | feedbackDisabled | integrity | operationAuthorization
  | offlineBudget | rateLimit | api
  deriving DecidableEq, Repr

/-- What a client does after an integrity error. -/
inductive IntegrityFailureAction where
  | denyOperations | shutdownClient
  deriving DecidableEq, Repr

/-- `swm::Error`: what a failing call throws. -/
structure Error where
  kind : ErrorKind
  statusCode : Int
  serviceCode : Bytes
  message : Bytes
  responseBody : Bytes := []
  failureAction : IntegrityFailureAction := .shutdownClient
  minimumSupportedVersion : Bytes := []
  deriving DecidableEq, Repr

/-- What a C++ call may throw: an `Error`, or another `std::exception`. -/
inductive Cpp.Failure where
  | swm (error : Error)
  | other (what : Bytes)
  deriving DecidableEq, Repr

/-- What a Java call may throw: an exception of the SDK, or one of the runtime that it
does not catch. -/
inductive Java.Thrown where
  | swm (error : Error)
  | illegalArgument
  | illegalState
  | indexOutOfBounds
  | negativeArraySize
  | nullPointer
  deriving DecidableEq, Repr

/-- `OperationClass`: what a request is for, which selects its timeouts and retries. -/
inductive OperationClass where
  | trustedTimeSync | onlineKeyManifest | updateCheck | heartbeat | operationAuthorization
  | operationGrantConsume | events | feedback | enrollmentTicket | deviceKeyRotation | download
  | updateStream | firmwareIdentity | debugProtocol | debugStream
  deriving DecidableEq, Repr

/-! ## Cryptography -/

/-- SHA-256 and Ed25519 as the SDKs call them. -/
structure Crypto where
  sha256 : Bytes → Bytes
  /-- A digest has 32 bytes. -/
  sha256_length : ∀ value, (sha256 value).length = 32
  /-- Public key text, message, signature text. -/
  ed25519Verify : Bytes → Bytes → Bytes → Except Error Bool

namespace Crypto

/-- `sha256_hex`. -/
def sha256Hex (crypto : Crypto) (value : Bytes) : Bytes := hex (crypto.sha256 value)

theorem sha256Hex_length (crypto : Crypto) (value : Bytes) :
    (crypto.sha256Hex value).length = 64 := by
  rw [sha256Hex, hex_length, crypto.sha256_length]

theorem sha256Hex_ne_nil (crypto : Crypto) (value : Bytes) : crypto.sha256Hex value ≠ [] := by
  intro hnil
  have hlength := crypto.sha256Hex_length value
  rw [hnil] at hlength
  cases hlength

end Crypto

/-! ## Known values -/

/-- SHA-256 of the empty text. -/
def emptyDigest : Bytes :=
  [0xe3, 0xb0, 0xc4, 0x42, 0x98, 0xfc, 0x1c, 0x14, 0x9a, 0xfb, 0xf4, 0xc8, 0x99, 0x6f, 0xb9, 0x24,
   0x27, 0xae, 0x41, 0xe4, 0x64, 0x9b, 0x93, 0x4c, 0xa4, 0x95, 0x99, 0x1b, 0x78, 0x52, 0xb8, 0x55]

/-- SHA-256 of the text `app`. -/
def appDigest : Bytes :=
  [0xa1, 0x72, 0xce, 0xdc, 0xae, 0x47, 0x47, 0x4b, 0x61, 0x5c, 0x54, 0xd5, 0x10, 0xa5, 0xd8, 0x4a,
   0x8d, 0xea, 0x30, 0x32, 0xe9, 0x58, 0x58, 0x74, 0x30, 0xb4, 0x13, 0x53, 0x8b, 0xe3, 0xf3, 0x33]

/-- Oracles that know some digests and accept some signatures. -/
def listedCrypto (digests : List (Bytes × Bytes)) (signatures : List (Bytes × Bytes × Bytes)) :
    Crypto where
  sha256 value := ((digests.lookup value).filter (·.length = 32)).getD emptyDigest
  sha256_length value := by
    cases h : (digests.lookup value).filter (·.length = 32) with
    | none => rfl
    | some digest => simpa using (Option.filter_eq_some_iff.mp h).2
  ed25519Verify publicKey message signature := .ok ((publicKey, message, signature) ∈ signatures)

namespace Cpp

/-- `trim_ascii`. -/
def trimAscii (value : Bytes) : Bytes :=
  (value.dropWhile isBlankByte).rdropWhile isBlankByte
where
  isBlankByte (b : UInt8) : Bool := b ≤ 0x20 || b = 0x7f

theorem mem_trimAscii {value : Bytes} {b : UInt8} (h : b ∈ trimAscii value) : b ∈ value :=
  (List.dropWhile_sublist _).mem ((List.rdropWhile_prefix _ _).subset h)

end Cpp

end SwmSdk
