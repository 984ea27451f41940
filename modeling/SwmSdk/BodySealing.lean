import SwmSdk.DownloadGo
import SwmSdk.KeyTexts
import SwmSdk.SealedBox

/-! # Encrypted bodies

A body that only the server may read is sealed for the online key.  `encrypt_request_body` takes the
Ed25519 key of the server to its X25519 key, agrees on a secret with it, derives a key from the
secret, and encrypts the body under a text that names the request (`SealedRequest.aad`).

The six SDKs do this with the libraries of their platforms, three of them with HKDF written out.
From the same draws all of them send the same sealed box, and the holder of the online key opens it
(`encryptRequestBody_sealed`).
-/
namespace SwmSdk
open ByteText ByteOrder Outcome

/-- Lines, with line feeds between them. -/
def lineText (lines : List Bytes) : Bytes := [newline].intercalate lines

/-- The primitives, and what is drawn for one encryption. -/
structure Sealing where
  suite : SealedBox.Suite
  ephemeralPrivate : Bytes
  ephemeralPrivate_length : ephemeralPrivate.length = 32
  aesNonce : Bytes
  aesNonce_length : aesNonce.length = 12

namespace Sealing

/-- The public key that is sent with the sealed body. -/
def ephemeralPublic (sealing : Sealing) : Bytes := sealing.suite.publicOf sealing.ephemeralPrivate

/-- The agreement of the libraries, which refuse a secret that is zero. -/
def exchange (sealing : Sealing) (serverPublic : Bytes) : Option Bytes :=
  let shared := sealing.suite.agree sealing.ephemeralPrivate serverPublic
  if shared.any (· ≠ 0) then some shared else none

end Sealing

/-! ## C++ -/

namespace Cpp

/-- `build_body_aad`. -/
def buildBodyAad (method path canonicalQuery : Bytes) (timestamp : Int)
    (nonce appId releaseId version versionCode onlineKeyId : Bytes) : Bytes :=
  ascii "swm-body-x25519-aes-gcm-v1\n" ++ method ++ ascii "\n" ++ path ++ ascii "\n" ++
    canonicalQuery ++ ascii "\n\n" ++ decimal timestamp ++ ascii "\n" ++ nonce ++ ascii "\n" ++
    appId ++ ascii "\nclient_release_id:" ++ releaseId ++ ascii "\nclient_version:" ++ version ++
    ascii "\nclient_version_code:" ++ versionCode ++
    ascii "\nauthz_capability:v3\nbody_enc:x25519-aes-gcm-v1\nkey_id:" ++ onlineKeyId

/-- The error of a library call that failed. -/
def cryptographicError (message : String) : Error where
  kind := .cryptographic
  statusCode := 0
  serviceCode := []
  message := ascii message

/-- `crypto_eddsa_to_x25519`: a quotient of the field, in which the inverse of zero is zero. -/
def cryptoEddsaToX25519 (eddsa : Bytes) : Bytes :=
  littleEndian 32 (montgomery (littleNat eddsa % 2 ^ 255)).val

/-- `ed25519_public_to_x25519`. -/
def ed25519PublicToX25519 (publicKey : Bytes) : Except Error Bytes :=
  if publicKey.length ≠ 32 then .error (cryptographicError "Ed25519 public key length is invalid")
  else .ok (cryptoEddsaToX25519 (clearSign publicKey))

/-- `x25519_shared_secret`. -/
def x25519SharedSecret (sealing : Sealing) (privateKey publicKey : Bytes) : Except Error Bytes :=
  if privateKey.length ≠ 32 ∨ publicKey.length ≠ 32 then
    .error (cryptographicError "X25519 key length is invalid")
  else
    let output := sealing.suite.agree privateKey publicKey
    if output.all (· = 0) then .error (cryptographicError "X25519 shared secret is invalid")
    else .ok output

/-- `aes256_gcm_encrypt`: the lengths are passed in 32 bits, and the buffer is one of zeros. -/
def aes256GcmEncrypt (sealing : Sealing) (key nonce plaintext aad : Bytes) : Except Error Bytes :=
  if key.length ≠ 32 ∨ nonce.length ≠ 12 ∨ aad.length > 0xffffffff then
    .error (cryptographicError "AES-256-GCM parameters are invalid")
  else
    let written := plaintext.length % 2 ^ 32
    .ok (sealing.suite.encrypt key nonce (plaintext.take written) aad ++
      List.replicate (plaintext.length - written) 0)

/-- `encrypt_request_body`. -/
def encryptRequestBody (crypto : Crypto) (sealing : Sealing) (method path canonicalQuery : Bytes)
    (timestamp : Int) (nonce appId releaseId version versionCode onlineKeyId onlinePublicKey
      plaintext : Bytes) : Except Error Bytes := do
  let onlineKey ← decodeKeyMaterial onlinePublicKey
  let serverX25519 ← ed25519PublicToX25519 onlineKey
  let sharedSecret ← x25519SharedSecret sealing sealing.ephemeralPrivate serverX25519
  let context := ascii "swm-body-x25519-aes-gcm-v1\napp_id:" ++ appId ++ ascii "\nrelease_id:" ++
    releaseId ++ ascii "\nkey_id:" ++ onlineKeyId ++ ascii "\npublic_key:" ++ hex onlineKey
  let salt := crypto.sha256 context
  let infoText := context ++ ascii "\nephemeral_public:" ++ base64urlEncode sealing.ephemeralPublic
  let pseudoRandomKey := sealing.suite.hmac salt sharedSecret
  let requestKey := sealing.suite.hmac pseudoRandomKey (infoText ++ [1])
  let aad := buildBodyAad method path canonicalQuery timestamp nonce appId releaseId version
    versionCode onlineKeyId
  let ciphertext ← aes256GcmEncrypt sealing requestKey sealing.aesNonce plaintext aad
  .ok (sealing.ephemeralPublic ++ sealing.aesNonce ++ ciphertext)

end Cpp

/-! ## Java -/

namespace Java

/-- The exception that carries the text of a library call that failed. -/
def cryptographic (message : Bytes) : Thrown :=
  .swm { kind := .cryptographic, statusCode := 0, serviceCode := [], message := message }

/-- `bodyAad`. -/
def bodyAad (method path query : Bytes) (timestamp : Int) (nonce appId releaseId version : Bytes)
    (versionCode : Option Bytes) (onlineKeyId : Bytes) : Bytes :=
  ascii "swm-body-x25519-aes-gcm-v1\n" ++ method ++ ascii "\n" ++ path ++ ascii "\n" ++ query ++
    ascii "\n\n" ++ decimal timestamp ++ ascii "\n" ++ nonce ++ ascii "\n" ++ appId ++
    ascii "\nclient_release_id:" ++ releaseId ++
    ascii "\nclient_version:" ++ version ++
    ascii "\nclient_version_code:" ++ versionCode.getD [] ++
    ascii "\nauthz_capability:v3\nbody_enc:x25519-aes-gcm-v1\nkey_id:" ++ onlineKeyId

def ofConversion {α : Type} : Except ConversionFault α → Except Thrown α
  | .ok a => .ok a
  | .error (.cryptographic message) => .error (cryptographic message)
  | .error .runtime => .error .indexOutOfBounds

/-- `CryptoUtil.encryptRequestBody`. -/
def encryptRequestBody (crypto : Crypto) (sealing : Sealing) (method path canonicalQuery : Bytes)
    (timestamp : Int) (nonce appId releaseId version : Bytes) (versionCode : Option Bytes)
    (onlineKeyId onlinePublicKey plaintext : Bytes) : Except Thrown Bytes := do
  let key ← decodeKeyMaterial onlinePublicKey
  let serverX ← ofConversion (ed25519PublicToX25519 key)
  let shared ← match sealing.exchange serverX with
    | some shared => .ok shared
    | none => .error .illegalState
  let context := ascii "swm-body-x25519-aes-gcm-v1\napp_id:" ++ appId ++ ascii "\nrelease_id:" ++
    releaseId ++ ascii "\nkey_id:" ++ onlineKeyId ++ ascii "\npublic_key:" ++ hex key
  let salt := crypto.sha256 context
  let prk := sealing.suite.hmac salt shared
  let info := context ++ ascii "\nephemeral_public:" ++ Base64Url.encode sealing.ephemeralPublic
  let requestKey := sealing.suite.hmac prk (info ++ [1])
  let aad := bodyAad method path canonicalQuery timestamp nonce appId releaseId version versionCode
    onlineKeyId
  .ok (sealing.ephemeralPublic ++ sealing.aesNonce ++
    sealing.suite.encrypt requestKey sealing.aesNonce plaintext aad)

end Java

/-! ## Go -/

namespace Go

def ofConversion : Except ConversionFault Bytes → Except Fault Bytes
  | .ok bytes => .ok bytes
  | .error (.cryptographic message) => .error (wrapError .cryptographic { text := message })
  | .error .runtime => .error {}

def bodyEncryptionLabel : Bytes := ascii "swm-body-x25519-aes-gcm-v1"

/-- `buildBodyEncryptionAAD`, with `strings.ToUpper`. -/
def buildBodyEncryptionAAD (toUpper : Bytes → Bytes) (method path query : Bytes) (timestamp : Int)
    (nonce appID releaseID releaseVersion : Bytes) (releaseVersionCode : Option Int)
    (onlineKeyID : Bytes) : Bytes :=
  lineText [bodyEncryptionLabel, toUpper method, path, query, [], decimal timestamp, nonce, appID,
    ascii "client_release_id:" ++ releaseID, ascii "client_version:" ++ releaseVersion,
    ascii "client_version_code:" ++ (releaseVersionCode.map decimal).getD [],
    ascii "authz_capability:v3", ascii "body_enc:x25519-aes-gcm-v1",
    ascii "key_id:" ++ onlineKeyID]

/-- `encryptRequestBody`. -/
def encryptRequestBody (crypto : Crypto) (sealing : Sealing) (toUpper : Bytes → Bytes)
    (method path query : Bytes) (timestamp : Int) (nonce appID releaseID releaseVersion : Bytes)
    (releaseVersionCode : Option Int) (onlineKeyID onlinePublicKey plaintext : Bytes) :
    Except Fault Bytes :=
  match (decodeKeyMaterial onlinePublicKey).filter (·.length = 32) with
  | none => .error (.ofError (newError .cryptographic "online_key_invalid"
      "online authorization key must be a 32-byte Ed25519 key"))
  | some edKey => do
      let xKeyBytes ← ofConversion (ed25519PublicKeyToX25519 edKey)
      -- `NewPublicKey`
      if xKeyBytes.length ≠ 32 then
        .error (wrapError .cryptographic { text := ascii "crypto/ecdh: invalid public key" })
      else
        match sealing.exchange xKeyBytes with
        | none => .error (wrapError .cryptographic
            { text := ascii "crypto/ecdh: bad X25519 remote ECDH input: low order point" })
        | some shared =>
            let contextValue := lineText [bodyEncryptionLabel, ascii "app_id:" ++ appID,
              ascii "release_id:" ++ releaseID, ascii "key_id:" ++ onlineKeyID,
              ascii "public_key:" ++ hex edKey]
            let salt := crypto.sha256 contextValue
            let info := contextValue ++ ascii "\nephemeral_public:" ++
              Base64Url.encode sealing.ephemeralPublic
            let requestKey := sealing.suite.hkdf salt info shared 32
            let aad := buildBodyEncryptionAAD toUpper method path query timestamp nonce appID
              releaseID releaseVersion releaseVersionCode onlineKeyID
            .ok (sealing.ephemeralPublic ++ sealing.aesNonce ++
              sealing.suite.encrypt requestKey sealing.aesNonce plaintext aad)

end Go

/-! ## Rust -/

namespace Rust

def bodyEncryptionLabel : Bytes := ascii "swm-body-x25519-aes-gcm-v1"

/-- `build_body_encryption_aad`. -/
def buildBodyEncryptionAad (method path query : Bytes) (timestamp : Int)
    (nonce appId releaseId releaseVersion : Bytes) (releaseVersionCode : Option Int)
    (onlineKeyId : Bytes) : Bytes :=
  lineText [bodyEncryptionLabel, upperAscii method, path, query, [], decimal timestamp, nonce,
    appId, ascii "client_release_id:" ++ releaseId, ascii "client_version:" ++ releaseVersion,
    ascii "client_version_code:" ++ (releaseVersionCode.map decimal).getD [],
    ascii "authz_capability:v3", ascii "body_enc:x25519-aes-gcm-v1",
    ascii "key_id:" ++ onlineKeyId]

/-- `ed25519_public_key_to_x25519`; `toMontgomery` decompresses the point and takes its Montgomery
coordinate. -/
def ed25519PublicKeyToX25519 (toMontgomery : Bytes → Option Bytes) (encoded : Bytes) :
    Except Error Bytes :=
  if encoded.length ≠ 32 then .error (rustError .cryptographic "invalid Ed25519 key length")
  else
    match toMontgomery encoded with
    | none => .error (rustError .cryptographic "Ed25519 key is not a valid point")
    | some u => .ok u

/-- `encrypt_request_body`; the agreement takes any secret. -/
def encryptRequestBody (crypto : Crypto) (crates : Crates) (toMontgomery : Bytes → Option Bytes)
    (sealing : Sealing) (method path query : Bytes) (timestamp : Int)
    (nonce appId releaseId releaseVersion : Bytes) (releaseVersionCode : Option Int)
    (onlineKeyId onlinePublicKey plaintext : Bytes) : Except Error Bytes := do
  let ed25519PublicKey ← decodeKeyMaterial crates onlinePublicKey
  if ed25519PublicKey.length ≠ 32 then
    .error (rustError .cryptographic "online authorization key must be a 32-byte Ed25519 key")
  else do
    let serverPublicKey ← ed25519PublicKeyToX25519 toMontgomery ed25519PublicKey
    let sharedSecret := sealing.suite.agree sealing.ephemeralPrivate serverPublicKey
    let context := lineText [bodyEncryptionLabel, ascii "app_id:" ++ appId,
      ascii "release_id:" ++ releaseId, ascii "key_id:" ++ onlineKeyId,
      ascii "public_key:" ++ hex ed25519PublicKey]
    let salt := crypto.sha256 context
    let info := context ++ ascii "\nephemeral_public:" ++ Base64Url.encode sealing.ephemeralPublic
    let requestKey := sealing.suite.hkdf salt info sharedSecret 32
    let aad := buildBodyEncryptionAad method path query timestamp nonce appId releaseId
      releaseVersion releaseVersionCode onlineKeyId
    .ok (sealing.ephemeralPublic ++ sealing.aesNonce ++
      sealing.suite.encrypt requestKey sealing.aesNonce plaintext aad)

end Rust

/-! ## C# -/

namespace CSharp

def bodyEncryptionLabel : Bytes := ascii "swm-body-x25519-aes-gcm-v1"

def cryptographic (message : Bytes) : Thrown :=
  .swm { kind := .cryptographic, statusCode := 0, serviceCode := [], message := message }

def ofConversion {α : Type} : Except ConversionFault α → Except Thrown α
  | .ok a => .ok a
  | .error (.cryptographic message) => .error (cryptographic message)
  | .error .runtime => .error .argumentOutOfRange

/-- `BuildBodyEncryptionAad`, with `ToUpperInvariant`. -/
def buildBodyEncryptionAad (toUpper : Bytes → Bytes) (method path canonicalQuery : Bytes)
    (timestamp : Int) (nonce appId releaseId releaseVersion : Bytes)
    (releaseVersionCode : Option Bytes) (onlineKeyId : Bytes) : Bytes :=
  lineText [bodyEncryptionLabel, toUpper method, path, canonicalQuery, [], decimal timestamp,
    nonce, appId, ascii "client_release_id:" ++ releaseId,
    ascii "client_version:" ++ releaseVersion,
    ascii "client_version_code:" ++ releaseVersionCode.getD [],
    ascii "authz_capability:v3", ascii "body_enc:x25519-aes-gcm-v1",
    ascii "key_id:" ++ onlineKeyId]

/-- `HkdfSha256`. -/
def hkdfSha256 (sealing : Sealing) (inputKeyMaterial salt info : Bytes) : Bytes :=
  let pseudoRandomKey := sealing.suite.hmac salt inputKeyMaterial
  sealing.suite.hmac pseudoRandomKey (info ++ [1])

/-- `DeriveRequestBodyKey`. -/
def deriveRequestBodyKey (crypto : Crypto) (sealing : Sealing) (sharedSecret ephemeralPublicKey
    appId releaseId onlineKeyId ed25519PublicKey : Bytes) : Bytes :=
  let context := lineText [bodyEncryptionLabel, ascii "app_id:" ++ appId,
    ascii "release_id:" ++ releaseId, ascii "key_id:" ++ onlineKeyId,
    ascii "public_key:" ++ hex ed25519PublicKey]
  let salt := crypto.sha256 context
  let info := context ++ ascii "\nephemeral_public:" ++ Base64Url.encode ephemeralPublicKey
  hkdfSha256 sealing sharedSecret salt info

/-- `EncryptRequestBody`. -/
def encryptRequestBody (crypto : Crypto) (sealing : Sealing) (toUpper : Bytes → Bytes)
    (method path canonicalQuery : Bytes) (timestamp : Int)
    (nonce appId releaseId releaseVersion : Bytes) (releaseVersionCode : Option Bytes)
    (onlineKeyId onlinePublicKey plaintext : Bytes) : Except Thrown Bytes := do
  let ed25519PublicKey ← decodeKeyMaterial onlinePublicKey
  if ed25519PublicKey.length ≠ 32 then
    .error (cryptographic (ascii "online authorization key must be a 32-byte Ed25519 key"))
  else do
    let serverX25519PublicKey ← ofConversion (convertEd25519PublicKeyToX25519 ed25519PublicKey)
    match sealing.exchange serverX25519PublicKey with
    | none => .error (cryptographic (ascii "request body key agreement failed"))
    | some sharedSecret =>
        let requestKey := deriveRequestBodyKey crypto sealing sharedSecret sealing.ephemeralPublic
          appId releaseId onlineKeyId ed25519PublicKey
        let aad := buildBodyEncryptionAad toUpper method path canonicalQuery timestamp nonce appId
          releaseId releaseVersion releaseVersionCode onlineKeyId
        .ok (sealing.ephemeralPublic ++ sealing.aesNonce ++
          sealing.suite.encrypt requestKey sealing.aesNonce plaintext aad)

end CSharp

/-! ## What a body is sealed for -/

/-- The request that a body belongs to, and the online key that it is sealed for. -/
structure SealedRequest where
  method : Bytes
  path : Bytes
  query : Bytes
  timestamp : Int
  nonce : Bytes
  appId : Bytes
  releaseId : Bytes
  version : Bytes
  versionCode : Option Int
  keyId : Bytes

namespace SealedRequest

/-- The version code as the header has it. -/
def versionText (request : SealedRequest) : Bytes := (request.versionCode.map decimal).getD []

/-- The associated data, line by line. -/
def lines (request : SealedRequest) : List Bytes :=
  [ascii "swm-body-x25519-aes-gcm-v1", request.method, request.path, request.query, [],
    decimal request.timestamp, request.nonce, request.appId,
    ascii "client_release_id:" ++ request.releaseId, ascii "client_version:" ++ request.version,
    ascii "client_version_code:" ++ request.versionText, ascii "authz_capability:v3",
    ascii "body_enc:x25519-aes-gcm-v1", ascii "key_id:" ++ request.keyId]

/-- The additional data of a request, its lines joined. -/
def aad (request : SealedRequest) : Bytes := lineText request.lines

/-- What the key of the box is derived for. -/
def context (request : SealedRequest) (key : Bytes) : Bytes :=
  lineText [ascii "swm-body-x25519-aes-gcm-v1", ascii "app_id:" ++ request.appId,
    ascii "release_id:" ++ request.releaseId, ascii "key_id:" ++ request.keyId,
    ascii "public_key:" ++ hex key]

/-- How the request key is derived: the salt is the digest of the context, and the info names both
public keys. -/
def derivation (crypto : Crypto) (key : Bytes) (request : SealedRequest) :
    SealedBox.Derivation where
  salt := crypto.sha256 (request.context key)
  info senderPublic :=
    request.context key ++ ascii "\nephemeral_public:" ++ Base64Url.encode senderPublic

/-- Every text has one line, and the method is in capital letters. -/
structure OneLine (request : SealedRequest) : Prop where
  method : ∀ b ∈ request.method, 65 ≤ b ∧ b ≤ 90
  path : newline ∉ request.path
  query : newline ∉ request.query
  nonce : newline ∉ request.nonce
  appId : newline ∉ request.appId
  releaseId : newline ∉ request.releaseId
  version : newline ∉ request.version
  keyId : newline ∉ request.keyId

theorem versionText_inj {first second : SealedRequest}
    (h : first.versionText = second.versionText) :
    first.versionCode = second.versionCode := by
  unfold versionText at h
  cases hfirst : first.versionCode with
  | none =>
    cases hsecond : second.versionCode with
    | none => rfl
    | some n =>
      rw [hfirst, hsecond] at h
      exact absurd h.symm (decimal_ne_nil n)
  | some m =>
    cases hsecond : second.versionCode with
    | none =>
      rw [hfirst, hsecond] at h
      exact absurd h (decimal_ne_nil m)
    | some n =>
      rw [hfirst, hsecond] at h
      exact congrArg some (decimal_inj h)

theorem newline_notMem_versionText (request : SealedRequest) : newline ∉ request.versionText := by
  unfold versionText
  cases request.versionCode with
  | none => exact List.not_mem_nil
  | some n => exact newline_notMem_decimal n

/-- The lines are lines. -/
theorem OneLine.lines {request : SealedRequest} (h : request.OneLine) :
    ∀ line ∈ request.lines, newline ∉ line := by
  have happend : ∀ {label text : Bytes}, newline ∉ label → newline ∉ text →
      newline ∉ label ++ text := fun hlabel htext hmem =>
        (List.mem_append.mp hmem).elim hlabel htext
  have hmethod : newline ∉ request.method := fun hmem =>
    absurd (h.method _ hmem).1 (by decide)
  simp only [SealedRequest.lines, List.forall_mem_cons]
  exact ⟨by decide, hmethod, h.path, h.query, List.not_mem_nil, newline_notMem_decimal _,
    h.nonce, h.appId, happend (by decide) h.releaseId,
    happend (by decide) h.version,
    happend (by decide) (newline_notMem_versionText request), by decide,
    by decide, happend (by decide) h.keyId, List.forall_mem_nil _⟩

/-- **The associated data determines the request.** -/
theorem aad_injective {first second : SealedRequest} (hfirst : first.OneLine)
    (hsecond : second.OneLine) (h : first.aad = second.aad) : first = second := by
  have hlines : first.lines = second.lines := by
    rw [← List.splitOn_intercalate newline hfirst.lines (List.cons_ne_nil _ _),
      ← List.splitOn_intercalate newline hsecond.lines (List.cons_ne_nil _ _)]
    exact congrArg (List.splitOn newline) h
  simp only [SealedRequest.lines, List.cons.injEq, List.append_cancel_left_eq, true_and,
    and_true] at hlines
  obtain ⟨hmethod, hpath, hquery, htime, hnonce, happ, hrelease, hversion, hcode, hkey⟩ := hlines
  have htimestamp := decimal_inj htime
  have hversionCode := versionText_inj hcode
  cases first
  cases second
  simp only [SealedRequest.mk.injEq]
  exact ⟨hmethod, hpath, hquery, htimestamp, hnonce, happ, hrelease, hversion, hversionCode, hkey⟩

end SealedRequest

/-! ## Every SDK seals the same box -/

theorem Cpp.buildBodyAad_eq (request : SealedRequest) :
    Cpp.buildBodyAad request.method request.path request.query request.timestamp request.nonce
      request.appId request.releaseId request.version request.versionText request.keyId =
        request.aad := by
  have label : ascii "swm-body-x25519-aes-gcm-v1\n" =
      ascii "swm-body-x25519-aes-gcm-v1" ++ [newline] := by decide
  have line : ascii "\n" = [newline] := rfl
  have empty : ascii "\n\n" = [newline, newline] := rfl
  have release : ascii "\nclient_release_id:" = newline :: ascii "client_release_id:" := rfl
  have version : ascii "\nclient_version:" = newline :: ascii "client_version:" := rfl
  have code : ascii "\nclient_version_code:" = newline :: ascii "client_version_code:" := rfl
  have last : ascii "\nauthz_capability:v3\nbody_enc:x25519-aes-gcm-v1\nkey_id:" =
      newline :: (ascii "authz_capability:v3" ++ newline ::
        (ascii "body_enc:x25519-aes-gcm-v1" ++ newline :: ascii "key_id:")) := by decide
  unfold Cpp.buildBodyAad SealedRequest.aad SealedRequest.lines lineText
  simp only [label, line, empty, release, version, code, last, List.intercalate_cons_cons,
    List.intercalate_singleton, List.append_assoc, List.cons_append, List.nil_append]

theorem Java.bodyAad_eq (request : SealedRequest) :
    Java.bodyAad request.method request.path request.query request.timestamp request.nonce
      request.appId request.releaseId request.version (some request.versionText) request.keyId =
        request.aad := by
  rw [← Cpp.buildBodyAad_eq]
  unfold Java.bodyAad Cpp.buildBodyAad
  rw [Option.getD_some]

theorem context_eq (request : SealedRequest) (key : Bytes) :
    ascii "swm-body-x25519-aes-gcm-v1\napp_id:" ++ request.appId ++ ascii "\nrelease_id:" ++
      request.releaseId ++ ascii "\nkey_id:" ++ request.keyId ++ ascii "\npublic_key:" ++ hex key =
        request.context key := by
  have app : ascii "swm-body-x25519-aes-gcm-v1\napp_id:" =
      ascii "swm-body-x25519-aes-gcm-v1" ++ newline :: ascii "app_id:" := by decide
  have release : ascii "\nrelease_id:" = newline :: ascii "release_id:" := rfl
  have keyId : ascii "\nkey_id:" = newline :: ascii "key_id:" := rfl
  have publicKey : ascii "\npublic_key:" = newline :: ascii "public_key:" := rfl
  unfold SealedRequest.context lineText
  simp only [app, release, keyId, publicKey, List.intercalate_cons_cons,
    List.intercalate_singleton, List.append_assoc, List.cons_append, List.nil_append]

/-- The library functions that the platforms bring. -/
structure Platforms where
  goUpper : Bytes → Bytes
  csharpUpper : Bytes → Bytes
  python : Python.Libraries
  crates : Rust.Crates
  /-- `CompressedEdwardsY::decompress` and `to_montgomery`. -/
  toMontgomery : Bytes → Option Bytes

namespace Platforms

/-- Python takes the primitives and the draws from its libraries. -/
def withSealing (platforms : Platforms) (sealing : Sealing) : Python.Libraries :=
  { platforms.python with
    ephemeralPrivate := sealing.ephemeralPrivate
    publicOf := sealing.suite.publicOf
    exchange := fun _ => sealing.exchange
    hkdf := fun salt info secret => sealing.suite.hkdf salt info secret 32
    aesNonce := sealing.aesNonce
    aesGcm := sealing.suite.encrypt }

/-- What the platforms promise: capital letters stay, keys are read, and a point has the Montgomery
coordinate of its other coordinate. -/
structure Lawful (platforms : Platforms) : Prop where
  goUpper : ∀ text, (∀ b ∈ text, 65 ≤ b ∧ b ≤ 90) → platforms.goUpper text = text
  csharpUpper : ∀ text, (∀ b ∈ text, 65 ≤ b ∧ b ≤ 90) → platforms.csharpUpper text = text
  pythonUpper : ∀ text, (∀ b ∈ text, 65 ≤ b ∧ b ≤ 90) → platforms.python.upper text = text
  python : platforms.python.Lawful
  crates : platforms.crates.Lawful
  toMontgomery : ∀ (key : Ed25519Key) u, platforms.toMontgomery key.bytes = some u →
    u = littleEndian 32 (montgomery key.coordinate).val

end Platforms

/-- A private key whose public key is the one that an Ed25519 key converts to. -/
structure Holder (suite : SealedBox.Suite) (key : Ed25519Key) where
  privateKey : Bytes
  canonical : key.coordinate < curvePrime
  convertible : key.coordinate ≠ 1
  publicOf_eq : suite.publicOf privateKey = littleEndian 32 (montgomery key.coordinate).val

/-- The box of a request. -/
def sealedBody (crypto : Crypto) (sealing : Sealing) (key recipient : Bytes)
    (request : SealedRequest) (plaintext : Bytes) : Bytes :=
  SealedBox.sealBox sealing.suite (request.derivation crypto key) sealing.ephemeralPrivate
    sealing.aesNonce request.aad recipient plaintext

theorem Rust.upperAscii_capitals {text : Bytes} (h : ∀ b ∈ text, 65 ≤ b ∧ b ≤ 90) :
    Rust.upperAscii text = text := by
  refine (List.map_congr_left (g := id) fun b hb => ?_).trans (List.map_id _)
  have hcapital := (h b hb).2
  rw [if_neg]
  · rfl
  · rintro ⟨hsmall, -⟩
    exact absurd (UInt8.le_trans hsmall hcapital) (by decide)

section Sealed
variable {crypto : Crypto} {sealing : Sealing} {key : Ed25519Key} {text plaintext : Bytes}
variable {request : SealedRequest} {platforms : Platforms}
variable (hsuite : sealing.suite.Lawful) (holder : Holder sealing.suite key)
variable (htext : KeyText key.bytes text)

include holder in
theorem converted_holder (notCanonical notConvertible : String) :
    converted notCanonical notConvertible key.coordinate =
      .ok (sealing.suite.publicOf holder.privateKey) := by
  rw [converted, if_neg (not_le.mpr holder.canonical), if_neg holder.convertible,
    holder.publicOf_eq]

include hsuite in
theorem Sealing.exchange_publicOf (a : Bytes) :
    sealing.exchange (sealing.suite.publicOf a) =
      some (sealing.suite.agree sealing.ephemeralPrivate (sealing.suite.publicOf a)) :=
  if_pos (hsuite.agree_nonzero _ _)

include hsuite htext in
theorem Go.encryptRequestBody_eq (hplatforms : platforms.Lawful) (hrequest : request.OneLine) :
    Go.encryptRequestBody crypto sealing platforms.goUpper request.method request.path
      request.query request.timestamp request.nonce request.appId request.releaseId
      request.version request.versionCode request.keyId text plaintext =
        .ok (sealedBody crypto sealing key.bytes (sealing.suite.publicOf holder.privateKey) request
          plaintext) := by
  have hkey : ((Go.decodeKeyMaterial text).filter (·.length = 32)) = some key.bytes := by
    rw [Go.decodeKeyMaterial_text key.length_eq htext]
    exact Option.filter_some_pos (decide_eq_true key.length_eq)
  have hlength : (sealing.suite.publicOf holder.privateKey).length = 32 :=
    hsuite.publicOf_length _
  have haad : Go.buildBodyEncryptionAAD platforms.goUpper request.method request.path
      request.query request.timestamp request.nonce request.appId request.releaseId
      request.version request.versionCode request.keyId = request.aad := by
    unfold Go.buildBodyEncryptionAAD
    rw [hplatforms.goUpper _ hrequest.method]
    rfl
  unfold Go.encryptRequestBody
  rw [hkey]
  refine bind_eq_ok.mpr ⟨sealing.suite.publicOf holder.privateKey, ?_, ?_⟩
  · rw [Go.convert_eq, converted_holder holder]
    rfl
  · rw [if_neg (not_not.mpr hlength), sealing.exchange_publicOf hsuite, haad]
    rfl

include htext in
theorem Rust.encryptRequestBody_eq (hplatforms : platforms.Lawful) (hrequest : request.OneLine)
    (hpoint : (platforms.toMontgomery key.bytes).isSome) :
    Rust.encryptRequestBody crypto platforms.crates platforms.toMontgomery sealing request.method
      request.path request.query request.timestamp request.nonce request.appId request.releaseId
      request.version request.versionCode request.keyId text plaintext =
        .ok (sealedBody crypto sealing key.bytes (sealing.suite.publicOf holder.privateKey) request
          plaintext) := by
  have haad : Rust.buildBodyEncryptionAad request.method request.path request.query
      request.timestamp request.nonce request.appId request.releaseId request.version
      request.versionCode request.keyId = request.aad := by
    unfold Rust.buildBodyEncryptionAad
    rw [Rust.upperAscii_capitals hrequest.method]
    rfl
  obtain ⟨u, hu⟩ := Option.isSome_iff_exists.mp hpoint
  have hconvert : Rust.ed25519PublicKeyToX25519 platforms.toMontgomery key.bytes =
      .ok (sealing.suite.publicOf holder.privateKey) := by
    rw [Rust.ed25519PublicKeyToX25519, if_neg (not_not.mpr key.length_eq), hu,
      hplatforms.toMontgomery key u hu, holder.publicOf_eq]
  unfold Rust.encryptRequestBody
  refine bind_eq_ok.mpr
    ⟨key.bytes, Rust.decodeKeyMaterial_text key.length_eq hplatforms.crates htext, ?_⟩
  rw [if_neg (not_not.mpr key.length_eq)]
  refine bind_eq_ok.mpr ⟨_, hconvert, ?_⟩
  rw [haad]
  rfl

include hsuite htext in
theorem Python.encryptRequestBody_eq (hplatforms : platforms.Lawful) (hrequest : request.OneLine) :
    (Python.encryptRequestBody crypto (platforms.withSealing sealing) request.method request.path
      request.query request.timestamp request.nonce request.appId request.releaseId
      request.version request.versionCode request.keyId text plaintext).map (·.text) =
        .ok (sealedBody crypto sealing key.bytes (sealing.suite.publicOf holder.privateKey) request
          plaintext) := by
  have hlibraries : (platforms.withSealing sealing).Lawful :=
    ⟨hplatforms.python.fromHex_hex, hplatforms.python.b64decode_unfilled,
      hplatforms.python.b64decode_encode⟩
  have haad : Python.buildBodyEncryptionAad (platforms.withSealing sealing) request.method
      request.path request.query request.timestamp request.nonce request.appId request.releaseId
      request.version request.versionCode request.keyId = request.aad := by
    have hupper : (platforms.withSealing sealing).upper request.method = request.method :=
      hplatforms.pythonUpper _ hrequest.method
    unfold Python.buildBodyEncryptionAad
    rw [hupper]
    rfl
  have hexchange : (platforms.withSealing sealing).exchange
      (platforms.withSealing sealing).ephemeralPrivate
        (sealing.suite.publicOf holder.privateKey) = _ :=
    sealing.exchange_publicOf hsuite holder.privateKey
  refine map_eq_ok.mpr ⟨⟨sealedBody crypto sealing key.bytes
    (sealing.suite.publicOf holder.privateKey) request plaintext, request.aad⟩, ?_, rfl⟩
  unfold Python.encryptRequestBody
  refine bind_eq_ok.mpr
    ⟨key.bytes, Python.decodeKeyMaterial_text key.length_eq hlibraries htext, ?_⟩
  rw [if_neg (not_not.mpr key.length_eq)]
  refine bind_eq_ok.mpr ⟨sealing.suite.publicOf holder.privateKey, ?_, ?_⟩
  · rw [Python.convert_eq, converted_holder holder]
    rfl
  · rw [hexchange, haad]
    rfl

include hsuite in
/-- HKDF as it is written out. -/
theorem requestKey_eq (salt info secret : Bytes) :
    sealing.suite.hmac (sealing.suite.hmac salt secret) (info ++ [1]) =
      sealing.suite.hkdf salt info secret 32 :=
  (SealedBox.Suite.hkdf_block hsuite salt info secret).symm

include hsuite htext in
theorem CSharp.encryptRequestBody_eq (hplatforms : platforms.Lawful) (hrequest : request.OneLine) :
    CSharp.encryptRequestBody crypto sealing platforms.csharpUpper request.method request.path
      request.query request.timestamp request.nonce request.appId request.releaseId
      request.version (request.versionCode.map decimal) request.keyId text plaintext =
        .ok (sealedBody crypto sealing key.bytes (sealing.suite.publicOf holder.privateKey) request
          plaintext) := by
  have haad : CSharp.buildBodyEncryptionAad platforms.csharpUpper request.method request.path
      request.query request.timestamp request.nonce request.appId request.releaseId
      request.version (request.versionCode.map decimal) request.keyId = request.aad := by
    unfold CSharp.buildBodyEncryptionAad
    rw [hplatforms.csharpUpper _ hrequest.method]
    rfl
  unfold CSharp.encryptRequestBody
  refine bind_eq_ok.mpr ⟨key.bytes, CSharp.decodeKeyMaterial_text key.length_eq htext, ?_⟩
  rw [if_neg (not_not.mpr key.length_eq)]
  refine bind_eq_ok.mpr ⟨sealing.suite.publicOf holder.privateKey, ?_, ?_⟩
  · rw [CSharp.convert_eq, converted_holder holder]
    rfl
  · rw [sealing.exchange_publicOf hsuite, haad]
    unfold CSharp.deriveRequestBodyKey CSharp.hkdfSha256
    dsimp only
    rw [requestKey_eq hsuite]
    rfl

include hsuite htext in
theorem Java.encryptRequestBody_eq :
    Java.encryptRequestBody crypto sealing request.method request.path request.query
      request.timestamp request.nonce request.appId request.releaseId request.version
      (some request.versionText) request.keyId text plaintext =
        .ok (sealedBody crypto sealing key.bytes (sealing.suite.publicOf holder.privateKey) request
          plaintext) := by
  unfold Java.encryptRequestBody
  refine bind_eq_ok.mpr ⟨key.bytes, Java.decodeKeyMaterial_text key.length_eq htext, ?_⟩
  refine bind_eq_ok.mpr ⟨sealing.suite.publicOf holder.privateKey, ?_, ?_⟩
  · rw [Java.convert_eq, converted_holder holder]
    rfl
  · rw [sealing.exchange_publicOf hsuite]
    refine bind_eq_ok.mpr ⟨_, rfl, ?_⟩
    rw [Java.bodyAad_eq, context_eq]
    dsimp only
    rw [requestKey_eq hsuite]
    rfl

include hsuite htext in
theorem Cpp.encryptRequestBody_eq (haad : request.aad.length < 2 ^ 32)
    (hplaintext : plaintext.length < 2 ^ 32) :
    Cpp.encryptRequestBody crypto sealing request.method request.path request.query
      request.timestamp request.nonce request.appId request.releaseId request.version
      request.versionText request.keyId text plaintext =
        .ok (sealedBody crypto sealing key.bytes (sealing.suite.publicOf holder.privateKey) request
          plaintext) := by
  have hlength : (sealing.suite.publicOf holder.privateKey).length = 32 :=
    hsuite.publicOf_length _
  have hcoordinate : littleNat (clearSign key.bytes) % 2 ^ 255 = key.coordinate := by
    have hnat : littleNat (clearSign key.bytes) = key.coordinate := littleNat_clearSign key
    rw [hnat]
    exact Nat.mod_eq_of_lt (Nat.mod_lt _ (by decide))
  have hconvert : Cpp.ed25519PublicToX25519 key.bytes =
      .ok (sealing.suite.publicOf holder.privateKey) := by
    rw [Cpp.ed25519PublicToX25519, if_neg (not_not.mpr key.length_eq), Cpp.cryptoEddsaToX25519,
      hcoordinate, holder.publicOf_eq]
  have hsecret : Cpp.x25519SharedSecret sealing sealing.ephemeralPrivate
      (sealing.suite.publicOf holder.privateKey) = .ok (sealing.suite.agree
        sealing.ephemeralPrivate (sealing.suite.publicOf holder.privateKey)) := by
    have hnonzero := hsuite.agree_nonzero sealing.ephemeralPrivate holder.privateKey
    unfold Cpp.x25519SharedSecret
    rw [if_neg (not_or.mpr ⟨not_not.mpr sealing.ephemeralPrivate_length, not_not.mpr hlength⟩)]
    apply if_neg
    simpa using hnonzero
  have hencrypt : ∀ requestKey : Bytes, requestKey.length = 32 →
      Cpp.aes256GcmEncrypt sealing requestKey sealing.aesNonce plaintext request.aad =
        .ok (sealing.suite.encrypt requestKey sealing.aesNonce plaintext request.aad) := by
    intro requestKey hkey
    unfold Cpp.aes256GcmEncrypt
    rw [if_neg (by rw [hkey, sealing.aesNonce_length]; omega), Nat.mod_eq_of_lt hplaintext]
    dsimp only
    rw [List.take_length, Nat.sub_self, List.replicate_zero, List.append_nil]
  unfold Cpp.encryptRequestBody
  refine bind_eq_ok.mpr ⟨key.bytes, Cpp.decodeKeyMaterial_text key.length_eq htext, ?_⟩
  refine bind_eq_ok.mpr ⟨_, hconvert, bind_eq_ok.mpr ⟨_, hsecret, ?_⟩⟩
  rw [Cpp.buildBodyAad_eq, context_eq, Cpp.base64urlEncode_eq]
  dsimp only
  rw [requestKey_eq hsuite]
  refine bind_eq_ok.mpr ⟨_, hencrypt _ ?_, rfl⟩
  rw [← requestKey_eq hsuite]
  exact hsuite.hmac_length _ _

end Sealed

/-- What the six SDKs send, from the same arguments and draws. -/
def sealedBodies (crypto : Crypto) (platforms : Platforms) (sealing : Sealing)
    (request : SealedRequest) (onlinePublicKey plaintext : Bytes) : List (Option Bytes) := [
  (Cpp.encryptRequestBody crypto sealing request.method request.path request.query
    request.timestamp request.nonce request.appId request.releaseId request.version
    request.versionText request.keyId onlinePublicKey plaintext).toOption,
  (Go.encryptRequestBody crypto sealing platforms.goUpper request.method request.path
    request.query request.timestamp request.nonce request.appId request.releaseId request.version
    request.versionCode request.keyId onlinePublicKey plaintext).toOption,
  (Rust.encryptRequestBody crypto platforms.crates platforms.toMontgomery sealing request.method
    request.path request.query request.timestamp request.nonce request.appId request.releaseId
    request.version request.versionCode request.keyId onlinePublicKey plaintext).toOption,
  (Java.encryptRequestBody crypto sealing request.method request.path request.query
    request.timestamp request.nonce request.appId request.releaseId request.version
    (some request.versionText) request.keyId onlinePublicKey plaintext).toOption,
  (CSharp.encryptRequestBody crypto sealing platforms.csharpUpper request.method request.path
    request.query request.timestamp request.nonce request.appId request.releaseId request.version
    (request.versionCode.map decimal) request.keyId onlinePublicKey plaintext).toOption,
  ((Python.encryptRequestBody crypto (platforms.withSealing sealing) request.method request.path
    request.query request.timestamp request.nonce request.appId request.releaseId request.version
    request.versionCode request.keyId onlinePublicKey plaintext).map (·.text)).toOption]

/-- **The SDKs seal one box, and the holder of the online key opens it.**  The associated data that
the box is sealed under is that of no other request. -/
theorem encryptRequestBody_sealed {crypto : Crypto} {platforms : Platforms} {sealing : Sealing}
    {request : SealedRequest} {key : Ed25519Key} {text plaintext : Bytes}
    (hsuite : sealing.suite.Lawful) (hplatforms : platforms.Lawful)
    (holder : Holder sealing.suite key) (hpoint : (platforms.toMontgomery key.bytes).isSome)
    (htext : KeyText key.bytes text) (hrequest : request.OneLine)
    (haad : request.aad.length < 2 ^ 32) (hplaintext : plaintext.length < 2 ^ 32) :
    ∃ box, (∀ body ∈ sealedBodies crypto platforms sealing request text plaintext,
        body = some box) ∧
      SealedBox.openBox sealing.suite (request.derivation crypto key.bytes) holder.privateKey
        request.aad box = some plaintext ∧
      ∀ other : SealedRequest, other.OneLine → other.aad = request.aad → other = request := by
  refine ⟨sealedBody crypto sealing key.bytes (sealing.suite.publicOf holder.privateKey) request
    plaintext, ?_, SealedBox.openBox_sealBox hsuite sealing.aesNonce_length,
    fun other hother heq => SealedRequest.aad_injective hother hrequest heq⟩
  simp only [sealedBodies, List.forall_mem_cons]
  refine ⟨?_, ?_, ?_, ?_, ?_, ?_, List.forall_mem_nil _⟩
  · rw [Cpp.encryptRequestBody_eq hsuite holder htext haad hplaintext]
    rfl
  · rw [Go.encryptRequestBody_eq hsuite holder htext hplatforms hrequest]
    rfl
  · rw [Rust.encryptRequestBody_eq holder htext hplatforms hrequest hpoint]
    rfl
  · rw [Java.encryptRequestBody_eq hsuite holder htext]
    rfl
  · rw [CSharp.encryptRequestBody_eq hsuite holder htext hplatforms hrequest]
    rfl
  · rw [Python.encryptRequestBody_eq hsuite holder htext hplatforms hrequest]
    rfl

/-! ## One box -/

/-- The request of the test of Go. -/
def sealedCheck : SealedRequest where
  method := ascii "POST"
  path := ascii "/api/client/update-check"
  query := []
  timestamp := 1234567890
  nonce := ascii "00000000-0000-0000-0000-000000000001"
  appId := ascii "00000000-0000-0000-0000-000000000002"
  releaseId := ascii "app"
  version := ascii "1.2.3"
  versionCode := none
  keyId := ascii "key-1"

namespace SealedCheck

/-- The bytes of a hexadecimal text, for the samples. -/
def hexBytes (text : String) : Bytes := (unhex (ascii text)).getD []

/-- The Ed25519 key of the seed 1, 2, .., 32, and its X25519 keys. -/
def onlineKey : Bytes := hexBytes "79b5562e8fe654f94078b112e8a98ba7901f853ae695bed7e0e3910bad049664"

/-- The X25519 private key of the sample service. -/
def serverPrivate : Bytes :=
  hexBytes "70788f1a0cea001a2631dae5d05dbd062008d5b30f50b9e29beb2a7822289044"

/-- Its public key, which the Ed25519 key of the manifest is converted to. -/
def serverPublic : Bytes :=
  hexBytes "4a3807d064d077181cc070989e76891d20dca5559548dc2c77c1a50273882b38"

/-- The ephemeral private key of the sample client. -/
def clientPrivate : Bytes := List.replicate 32 7

/-- The public key that the client sends along. -/
def clientPublic : Bytes :=
  hexBytes "13be4feaeaf204c7fd3358fc9c00721881d174278128227ec674f37f7fe97b6d"

/-- What X25519 gives both sides of the sample. -/
def sharedSecret : Bytes :=
  hexBytes "3b992115dd2790904c61e6ef311021943bd715a4fb96605f99041a835deff140"

def salt : Bytes := hexBytes "b42a0650898febd50451b0bea2b31bd31d03a732d5bf8fcc3c526284c0c1a755"

/-- What HKDF extracts from the shared secret and the salt. -/
def pseudoRandomKey : Bytes :=
  hexBytes "f37440e27b8026ecf33ca994d3ec5dcbeee836f4b672e25e0d2870994786bac8"

/-- What HKDF expands it to. -/
def requestKey : Bytes :=
  hexBytes "bfebeda393ba0b60fe32eaa1f81100ce89074663120250d5cdb1d5333671b15c"

def aesNonce : Bytes := [0, 1, 2, 3, 4, 5, 6, 7, 8, 9, 10, 11]

def plaintext : Bytes := ascii "\x7b\"hello\":\"world\"\x7d"

/-- The sealed body of the sample, as AES-GCM gives it. -/
def ciphertext : Bytes :=
  hexBytes "d400a135806982daff001dd456690879a0556e05ce91b1c787d4777c62c6a8d567"

def crypto : Crypto := listedCrypto [(sealedCheck.context onlineKey, salt)] []

/-- X25519 and HMAC-SHA256 on the values of this box, and AES-256-GCM on one text. -/
def suiteOf (aad text sealed : Bytes) : SealedBox.Suite where
  publicOf a :=
    if a = serverPrivate then serverPublic
    else if a = clientPrivate then clientPublic
    else List.replicate 32 0
  agree a peer :=
    if (a = clientPrivate ∧ peer = serverPublic) ∨ (a = serverPrivate ∧ peer = clientPublic)
    then sharedSecret
    else List.replicate 32 1
  hmac key message :=
    if key = salt ∧ message = sharedSecret then pseudoRandomKey
    else if key = pseudoRandomKey ∧ message =
        (sealedCheck.derivation crypto onlineKey).info clientPublic ++ [1] then requestKey
    else List.replicate 32 0
  encrypt key nonce plain data :=
    if (key, nonce, data) = (requestKey, aesNonce, aad) ∧ plain = text then sealed else 0 :: plain
  decrypt key nonce box data :=
    if box ≠ sealed then some (box.drop 1)
    else if (key, nonce, data) = (requestKey, aesNonce, aad) then some text
    else none

def suite : SealedBox.Suite := suiteOf sealedCheck.aad plaintext ciphertext

section Suite
variable {aad text sealed : Bytes}

theorem publicOf_eq_server {a : Bytes} :
    (suiteOf aad text sealed).publicOf a = serverPublic ↔ a = serverPrivate := by
  have hclient : clientPublic ≠ serverPublic := by decide
  have hnone : List.replicate 32 0 ≠ serverPublic := by decide
  unfold suiteOf
  dsimp only
  split_ifs with hserver hclientPrivate
  · exact iff_of_true rfl hserver
  · exact iff_of_false hclient hserver
  · exact iff_of_false hnone hserver

theorem publicOf_eq_client {a : Bytes} :
    (suiteOf aad text sealed).publicOf a = clientPublic ↔ a = clientPrivate := by
  have hserver : serverPublic ≠ clientPublic := by decide
  have hprivate : serverPrivate ≠ clientPrivate := by decide
  have hnone : List.replicate 32 0 ≠ clientPublic := by decide
  unfold suiteOf
  dsimp only
  split_ifs with hs hc
  · exact iff_of_false hserver (hs ▸ hprivate)
  · exact iff_of_true rfl hc
  · exact iff_of_false hnone hc

theorem agree_publicOf (a b : Bytes) :
    (suiteOf aad text sealed).agree a ((suiteOf aad text sealed).publicOf b) =
    if (a = clientPrivate ∧ b = serverPrivate) ∨ (a = serverPrivate ∧ b = clientPrivate)
    then sharedSecret
    else List.replicate 32 1 :=
  if_congr (or_congr (and_congr_right' publicOf_eq_server) (and_congr_right' publicOf_eq_client))
    rfl rfl

theorem suiteOf_lawful (h : sealed.head? ≠ some 0) : (suiteOf aad text sealed).Lawful where
  publicOf_length a := by
    unfold suiteOf
    dsimp only
    split_ifs
    · decide
    · decide
    · rfl
  agree_comm a b := by
    rw [agree_publicOf, agree_publicOf]
    refine if_congr ?_ rfl rfl
    rw [or_comm]
    exact or_congr and_comm and_comm
  agree_nonzero a b := by
    rw [agree_publicOf]
    split_ifs
    · decide
    · rfl
  hmac_length key message := by
    unfold suiteOf
    dsimp only
    split_ifs
    · decide
    · decide
    · rfl
  decrypt_encrypt key nonce plain data := by
    have hmarked : 0 :: plain ≠ sealed := by
      rintro rfl
      exact h rfl
    unfold suiteOf
    dsimp only
    by_cases hreal : (key, nonce, data) = (requestKey, aesNonce, aad) ∧ plain = text
    · rw [if_pos hreal, if_neg (not_not.mpr rfl), if_pos hreal.1, hreal.2]
    · rw [if_neg hreal, if_pos hmarked, List.drop_one, List.tail_cons]

end Suite

theorem suite_lawful : suite.Lawful := suiteOf_lawful (by decide)

/-- The draws of this box, for a suite. -/
def sealingOf (suite : SealedBox.Suite) : Sealing where
  suite := suite
  ephemeralPrivate := clientPrivate
  ephemeralPrivate_length := rfl
  aesNonce := aesNonce
  aesNonce_length := rfl

def sealing : Sealing := sealingOf suite

def key : Ed25519Key := ⟨onlineKey, by decide +kernel⟩

/-- Libraries that read texts and bytes as they promise; the point of the key is the one known. -/
def platforms : Platforms where
  goUpper := id
  csharpUpper := id
  python := { Python.plainLibraries with
    b64decode := Base64Text.padded Base64Text.standard true }
  crates := {
    urlScheme := fun _ => .ok (ascii "https")
    standardDecode := Base64Text.padded Base64Text.standard true
    urlSafeDecode := fun text =>
      match Base64Text.raw Base64Text.url true text with
      | some bytes => .ok bytes
      | none => .error (Rust.rustError .cryptographic "Invalid symbol") }
  toMontgomery bytes := if bytes = onlineKey then some serverPublic else none

/-- The key converts to the X25519 key of the server. -/
theorem converted_eq : littleEndian 32 (montgomery key.coordinate).val = serverPublic := by
  have hjava : Java.ed25519PublicToX25519 key.bytes = .ok serverPublic := by decide +kernel
  have hcanonical : ¬ curvePrime ≤ key.coordinate := by decide
  have hone : key.coordinate ≠ 1 := by decide
  rw [Java.convert_eq, converted, if_neg hcanonical, if_neg hone] at hjava
  exact Except.ok.inj hjava

theorem platforms_lawful : platforms.Lawful where
  goUpper _ _ := rfl
  csharpUpper _ _ := rfl
  pythonUpper _ _ := rfl
  python := {
    fromHex_hex := unhex_hex
    b64decode_unfilled := fun _ _ h => Base64Text.padded_eq_none h
    b64decode_encode := Base64Text.padded_encodeStandard true }
  crates := {
    standardDecode_unfilled := fun _ h => Base64Text.padded_eq_none h
    urlSafeDecode_encode := fun bytes => by
      unfold platforms
      dsimp only
      rw [Base64Text.raw_encode] }
  toMontgomery other u h := by
    unfold platforms at h
    dsimp only at h
    split_ifs at h with hkey
    have heq : other = key := by
      obtain ⟨bytes, hlength⟩ := other
      subst hkey
      rfl
    rw [heq, converted_eq]
    exact (Option.some.inj h).symm

theorem point_known : (platforms.toMontgomery key.bytes).isSome = true := by decide

/-- The holder of the sample's private key, who can open what is sealed for it. -/
def holderOf (aad text sealed : Bytes) : Holder (suiteOf aad text sealed) key where
  privateKey := serverPrivate
  canonical := by decide +kernel
  convertible := by decide +kernel
  publicOf_eq := (publicOf_eq_server.mpr rfl).trans converted_eq.symm

def holder : Holder sealing.suite key := holderOf sealedCheck.aad plaintext ciphertext

theorem sealedCheck_oneLine : sealedCheck.OneLine where
  method := by decide +kernel
  path := by decide +kernel
  query := by decide +kernel
  nonce := by decide +kernel
  appId := by decide +kernel
  releaseId := by decide +kernel
  version := by decide +kernel
  keyId := by decide +kernel

end SealedCheck

theorem encryptRequestBody_sealed_check : ∃ box,
    (∀ body ∈ sealedBodies SealedCheck.crypto SealedCheck.platforms SealedCheck.sealing sealedCheck
      (hex SealedCheck.key.bytes) SealedCheck.plaintext, body = some box) ∧
    SealedBox.openBox SealedCheck.sealing.suite
      (sealedCheck.derivation SealedCheck.crypto SealedCheck.key.bytes)
      SealedCheck.holder.privateKey sealedCheck.aad box = some SealedCheck.plaintext ∧
    ∀ other : SealedRequest, other.OneLine → other.aad = sealedCheck.aad → other = sealedCheck :=
  @encryptRequestBody_sealed SealedCheck.crypto SealedCheck.platforms SealedCheck.sealing
    sealedCheck SealedCheck.key _ SealedCheck.plaintext SealedCheck.suite_lawful
    SealedCheck.platforms_lawful SealedCheck.holder SealedCheck.point_known .hex
    SealedCheck.sealedCheck_oneLine (by decide +kernel) (by decide +kernel)

end SwmSdk
