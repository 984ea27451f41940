import SwmSdk.AuthzEnvelope
import SwmSdk.ByteCodec
import SwmSdk.JsonMember

/-! # Verified responses

`verify_authz` as the C++ client runs it on every signed response: the status, the
carrier and its envelope, the digest of the `data` member as it was sent, the
signature, and then the session that the envelope may carry.  What a failed check
leaves unchanged is the session; only the record of the interaction, written
last, can fail after the session was taken over.
-/
namespace SwmSdk
open ByteText Outcome

/-- `ProtocolResponse`; the nonce of the request is part of the `AuthzContext`. -/
structure ProtocolResponse where
  statusCode : Int
  body : Bytes

/-- The session of the pipeline. -/
structure Session where
  session : Bytes
  expiresAt : Int
  deriving DecidableEq, Repr

namespace Cpp

/-! ## Service errors -/

/-- The `error` member of a response that the service rejected, with empty texts for what is absent.
-/
structure ServiceError where
  code : Bytes := []
  message : Bytes := []
  minimumSupportedVersion : Bytes := []

/-- A text that can stand for an error code. -/
def isCodeText (text : Bytes) : Bool :=
  text ≠ [] && text.length ≤ 128 &&
    text.all fun b => (0x61 ≤ b && b ≤ 0x7a) || (0x30 ≤ b && b ≤ 0x39) || b = 0x5f

/-- `json_service_error`. -/
def jsonServiceError (body : Json) : Except Error ServiceError :=
  match body.find (ascii "error") with
  | none => do
      let code ← jsonGetString body (ascii "code") false
      let message ← jsonGetString body (ascii "message") false
      .ok { code := code, message := message }
  | some (.string message) =>
      .ok { code := if isCodeText message then message else [], message := message }
  | some error =>
      if isObject error then do
        let code ← jsonGetString error (ascii "code") false
        let message ← jsonGetString error (ascii "message") false
        let minimum ← jsonGetString error (ascii "minimum_supported_version") false
        .ok {
          code := code
          message := if message = [] then code else message
          minimumSupportedVersion := minimum }
      else .ok {}

/-- The action that an integrity error asks for. -/
def failureAction (body : Json) : IntegrityFailureAction :=
  match (body.find (ascii "error")).bind (·.find (ascii "failure_action")) with
  | some (.string action) =>
      if action = ascii "deny_operations" then .denyOperations else .shutdownClient
  | _ => .shutdownClient

/-- The error of a response that is not a success. -/
def serviceFailure (response : ProtocolResponse) (parsed : ServiceError)
    (action : IntegrityFailureAction) : Error :=
  let error (kind : ErrorKind) : Error :=
    { kind := kind, statusCode := response.statusCode, serviceCode := parsed.code
      message := parsed.message }
  if parsed.code = ascii "device_blocked" then error .deviceBlocked
  else if parsed.code = ascii "client_version_unsupported" then
    { error .unsupportedVersion with minimumSupportedVersion := parsed.minimumSupportedVersion }
  else if parsed.code = ascii "update_region_blocked" then error .updateRegionBlocked
  else if parsed.code = ascii "feedback_disabled" then error .feedbackDisabled
  else if ascii "release_integrity_" <+: parsed.code then
    { error .integrity with responseBody := response.body, failureAction := action }
  else if ascii "operation_auth_" <+: parsed.code ∨ ascii "operation_grant_" <+: parsed.code then
    error .operationAuthorization
  else if response.statusCode = 401 then error .session
  else if response.statusCode = 403 then error .unauthorized
  else if response.statusCode = 429 then error .rateLimit
  else if 500 ≤ response.statusCode then error .api
  else error .validation

/-- `throw_if_error`. -/
def throwIfError (what : Bytes → Bytes) (response : ProtocolResponse) : Except Error Unit :=
  if 200 ≤ response.statusCode ∧ response.statusCode < 300 then .ok ()
  else
    let parsed := do
      let body ← parseJson what response.body (ascii "service error")
      let parsed ← jsonServiceError body
      .ok (parsed, failureAction body)
    match parsed with
    | .ok (parsed, action) => .error (serviceFailure response parsed action)
    | .error _ => .error (serviceFailure response { message := response.body } .shutdownClient)

/-! ## The envelope -/

/-- The fields of `authz`, in the order they are read. -/
def readEnvelope (authz : Json) : Except Error AuthzEnvelope := do
  let version ← jsonGetString authz (ascii "version") true
  let decision ← jsonGetString authz (ascii "decision") true
  let release ← jsonGetString authz (ascii "release_id") true
  let device ← jsonGetString authz (ascii "device_id") true
  let nonce ← jsonGetString authz (ascii "nonce") true
  let dataHash ← jsonGetString authz (ascii "data_sha256") true
  let keyId ← jsonGetString authz (ascii "key_id") true
  let reason ← jsonGetString authz (ascii "reason") false
  let session ← jsonGetString authz (ascii "session") false
  let signature ← jsonGetString authz (ascii "signature") true
  let issuedAt ← jsonGetInt64 authz (ascii "issued_at") 0
  let expiresAt ← jsonGetInt64 authz (ascii "expires_at") 0
  .ok {
    version := version, decision := decision, releaseId := release, deviceId := device
    nonce := nonce, dataSha256 := dataHash, keyId := keyId, reason := reason
    session := session, signature := signature, issuedAt := issuedAt, expiresAt := expiresAt }

/-- What `verify_authz` throws for a signature that does not hold. -/
def authzSignatureInvalid : Error where
  kind := .integrity
  statusCode := 403
  serviceCode := ascii "authz_signature_invalid"
  message := ascii "Authz v3 response signature is invalid"

/-- The checks of `verify_authz`: the data of the carrier, and its envelope. -/
def verifiedCarrier (crypto : Crypto) (what : Bytes → Bytes) (context : AuthzContext)
    (response : ProtocolResponse) : Except Error (Json × AuthzEnvelope) := do
  throwIfError what response
  let carrier ← parseJson what response.body (ascii "Authz v3 carrier")
  match carrier.find (ascii "data"), carrier.find (ascii "authz") with
  | some data, some (.object fields) =>
      match extractJsonMemberRaw response.body (ascii "data") with
      | none => .error (protocolError (ascii "Authz v3 response data is missing"))
      | some rawData => do
          let authz ← readEnvelope (.object fields)
          let key ← checkEnvelope crypto context rawData authz
          let valid ← crypto.ed25519Verify key.publicKey (canonical context authz) authz.signature
          if ¬ valid then .error authzSignatureInvalid else .ok (data, authz)
  | _, _ => .error (protocolError (ascii "Authz v3 carrier is incomplete"))

/-- `verify_authz`: the data, and the session after the call.  `note` is the outcome of
`note_verified_interaction`. -/
def verifyAuthz (crypto : Crypto) (what : Bytes → Bytes) (note : Except Error Unit)
    (context : AuthzContext) (session : Session) (response : ProtocolResponse) :
    Except Error Json × Session :=
  match verifiedCarrier crypto what context response with
  | .error e => (.error e, session)
  | .ok (data, authz) =>
      let session := if authz.session ≠ [] then ⟨authz.session, authz.expiresAt⟩ else session
      match note with
      | .error e => (.error e, session)
      | .ok () => (.ok data, session)

/-! ## What a verified response satisfies -/

/-- The facts behind a verified response: the slice that was hashed, the envelope
that was checked against it, and the key that signed the envelope. -/
structure Verified (crypto : Crypto) (context : AuthzContext) (response : ProtocolResponse)
    (data : Json) (authz : AuthzEnvelope) (carrier : Json) (rawData : Bytes)
    (key : ProtocolKey) : Prop where
  status : 200 ≤ response.statusCode ∧ response.statusCode < 300
  parsed : Nlohmann.parse true response.body = some carrier
  member : carrier.find (ascii "data") = some data
  sliced : extractJsonMemberRaw response.body (ascii "data") = some rawData
  envelope : ∃ fields, carrier.find (ascii "authz") = some (.object fields) ∧
    readEnvelope (.object fields) = .ok authz
  checked : checkEnvelope crypto context rawData authz = .ok key
  signed : crypto.ed25519Verify key.publicKey (canonical context authz) authz.signature = .ok true

theorem throwIfError_eq_ok {what : Bytes → Bytes} {response : ProtocolResponse} :
    throwIfError what response = .ok () ↔
      200 ≤ response.statusCode ∧ response.statusCode < 300 := by
  unfold throwIfError
  split
  · simp [*]
  · rename_i h
    dsimp only
    split <;> simp [h]

/-- **Every check was made.** -/
theorem verifiedCarrier_ok {crypto : Crypto} {what : Bytes → Bytes} {context : AuthzContext}
    {response : ProtocolResponse} {data : Json} {authz : AuthzEnvelope}
    (h : verifiedCarrier crypto what context response = .ok (data, authz)) :
    ∃ carrier rawData key, Verified crypto context response data authz carrier rawData key := by
  unfold verifiedCarrier at h
  obtain ⟨⟨⟩, hstatus, h⟩ := bind_eq_ok.mp h
  obtain ⟨carrier, hcarrier, h⟩ := bind_eq_ok.mp h
  split at h
  · rename_i data' fields hdata hauthz
    split at h
    · cases h
    · rename_i rawData hraw
      obtain ⟨authz', hread, h⟩ := bind_eq_ok.mp h
      obtain ⟨key, hkey, h⟩ := bind_eq_ok.mp h
      obtain ⟨valid, hvalid, h⟩ := bind_eq_ok.mp h
      obtain ⟨hv, h⟩ := guard_eq_ok.mp h
      obtain ⟨rfl, rfl⟩ := Prod.mk.inj (Except.ok.inj h)
      obtain rfl : valid = true := by simpa using hv
      exact ⟨carrier, rawData, key, throwIfError_eq_ok.mp hstatus, parseJson_eq_ok.mp hcarrier,
        hdata, hraw, ⟨fields, hauthz, hread⟩, hkey, hvalid⟩
  · cases h

theorem verifyAuthz_ok {crypto : Crypto} {what : Bytes → Bytes} {note : Except Error Unit}
    {context : AuthzContext} {session : Session} {response : ProtocolResponse} {data : Json}
    (h : (verifyAuthz crypto what note context session response).1 = .ok data) :
    ∃ authz, verifiedCarrier crypto what context response = .ok (data, authz) := by
  unfold verifyAuthz at h
  split at h
  · cases h
  · rename_i data' authz hcarrier
    cases note with
    | error e => cases h
    | ok u =>
      obtain rfl := Except.ok.inj h
      exact ⟨authz, hcarrier⟩

/-- **A response that fails a check leaves the session as it was.** -/
theorem verifyAuthz_session {crypto : Crypto} {what : Bytes → Bytes} {note : Except Error Unit}
    {context : AuthzContext} {session : Session} {response : ProtocolResponse} {e : Error}
    (h : verifiedCarrier crypto what context response = .error e) :
    verifyAuthz crypto what note context session response = (.error e, session) := by
  rw [verifyAuthz, h]

end Cpp

/-! ## A signed response

One envelope for the data `1`, with the digest and the signature it really has. -/

/-- SHA-256 of the text `1`. -/
def oneDigest : Bytes :=
  [0x6b, 0x86, 0xb2, 0x73, 0xff, 0x34, 0xfc, 0xe1, 0x9d, 0x6b, 0x80, 0x4e, 0xff, 0x5a, 0x3f, 0x57,
   0x47, 0xad, 0xa4, 0xea, 0xa2, 0x2f, 0x1d, 0x49, 0xc0, 0x1e, 0x52, 0xdd, 0xb7, 0x87, 0x5b, 0x4b]

/-- The key of the sample responses, a real Ed25519 key in the text the service sends. -/
def signedKey : ProtocolKey :=
  ⟨ascii "k1", ascii "11qYAYKxCrfVS_7TyWQHOg7hcvPapiMlrwIaaPcHURo", 1, 2000⟩

/-- The text that the signature of the sample response is made over. -/
def signedText : Bytes :=
  ascii "authz_v3\napp_id:app\nrelease_id:release\ndevice_id:device\nnonce:nonce\ndecision:allow" ++
    ascii "\nreason:\ndata_sha256:" ++ hex oneDigest ++
    ascii "\nsession:\nissued_at:990\nexpires_at:1200\nkey_id:k1"

/-- The signature of the sample response. -/
def signatureText : Bytes :=
  ascii "pMwAp0XVO1xPz_25r4OUb-umVAkD0-5g9_oAAYr2sIh7B3Z2q7I94ogx1W5Sg32I4vnQKpOswr3K9N1Tvh4LAQ"

/-- SHA-256 and Ed25519 on the texts of the samples. -/
def signedCrypto : Crypto where
  sha256 value := if value = ascii "1" then oneDigest else emptyDigest
  sha256_length value := by
    split
    · rfl
    · rfl
  ed25519Verify publicKey message signature :=
    .ok (publicKey = signedKey.publicKey && message = signedText && signature = signatureText)

/-- The context of the samples, with their key in the ring. -/
def signedContext : AuthzContext := { sampleContext with ring := ⟨some signedKey, []⟩ }

/-- A response with these members before the signed envelope. -/
def signedResponse (members : Bytes) : ProtocolResponse where
  statusCode := 200
  body := ascii "\x7b" ++ members ++
    ascii ",\"authz\":\x7b\"version\":\"authz_v3\",\"decision\":\"allow\"," ++
    ascii "\"release_id\":\"release\",\"device_id\":\"device\",\"nonce\":\"nonce\"," ++
    ascii "\"data_sha256\":\"" ++ hex oneDigest ++ ascii "\",\"key_id\":\"k1\"," ++
    ascii "\"issued_at\":990,\"expires_at\":1200,\"signature\":\"" ++ signatureText ++
    ascii "\"\x7d\x7d"

/-- The value is this unsigned number. -/
def isUnsigned (n : Nat) : Json → Bool
  | .unsigned m => m = n
  | _ => false

theorem eq_of_isUnsigned {n : Nat} {v : Json} (h : isUnsigned n v = true) : v = .unsigned n := by
  cases v with
  | unsigned m => rw [of_decide_eq_true h]
  | _ => cases h

/-- The client takes the response and returns this number. -/
def Cpp.returns (members : Bytes) (n : Nat) : Bool :=
  match (verifyAuthz signedCrypto id (.ok ()) signedContext ⟨[], 0⟩ (signedResponse members)).1 with
  | .ok v => isUnsigned n v
  | .error _ => false

theorem Cpp.of_returns {members : Bytes} {n : Nat} (h : returns members n = true) :
    (verifyAuthz signedCrypto id (.ok ()) signedContext ⟨[], 0⟩ (signedResponse members)).1 =
      .ok (.unsigned n) := by
  unfold returns at h
  split at h
  · rename_i v hv
    rw [hv, eq_of_isUnsigned h]
  · cases h

end SwmSdk
