import SwmSdk.Base64Url
import SwmSdk.ByteCodec
import SwmSdk.FieldLines
import SwmSdk.JavaText
import SwmSdk.JsonWrite
import SwmSdk.KeyRing
import SwmSdk.Types

/-! # The DPoP proof of a request

Every request that needs an online key carries an `X-SWM-DPoP` header, a compact
token whose payload names the method, the URL, the session and the digest of the
body it is meant for.  The server compares these with the request it receives.

A call site may override the URL of the proof.  In C++ an empty override means
"none"; the Java pipeline tests for `null`, while all its call sites pass the
empty text (`PublicOperation.request`).  So no Java proof names the URL of its
request (`Java.dpop_unbound`).
-/
namespace SwmSdk
open ByteText FieldLines

/-- The payload of a proof. -/
structure DpopPayload where
  appId : Bytes
  ath : Bytes
  bodySha256 : Bytes
  channel : Bytes
  deviceId : Bytes
  exp : Int
  htm : Bytes
  htu : Bytes
  iat : Int
  installId : Bytes
  jti : Bytes
  pcid : Bytes
  releaseId : Bytes
  deriving DecidableEq, Repr

namespace DpopPayload

/-- The members of the payload, in the order they are put. -/
def fields (payload : DpopPayload) : List (Bytes × JsonWrite.Scalar) := [
  (ascii "app_id", .text payload.appId),
  (ascii "ath", .text payload.ath),
  (ascii "body_sha256", .text payload.bodySha256),
  (ascii "channel", .text payload.channel),
  (ascii "device_id", .text payload.deviceId),
  (ascii "exp", .number payload.exp),
  (ascii "htm", .text payload.htm),
  (ascii "htu", .text payload.htu),
  (ascii "iat", .number payload.iat),
  (ascii "install_id", .text payload.installId),
  (ascii "jti", .text payload.jti),
  (ascii "pcid", .text payload.pcid),
  (ascii "release_id", .text payload.releaseId)]

theorem fields_injective {first second : DpopPayload} (h : first.fields = second.fields) :
    first = second := by
  unfold fields at h
  simp only [List.cons.injEq, Prod.mk.injEq, JsonWrite.Scalar.text.injEq,
    JsonWrite.Scalar.number.injEq, true_and, and_true] at h
  cases first
  cases second
  simp_all

end DpopPayload

/-- The header of a proof. -/
def dpopHeader (keyId : Bytes) : List (Bytes × JsonWrite.Scalar) := [
  (ascii "alg", .text (ascii "ES256")),
  (ascii "kid", .text keyId),
  (ascii "typ", .text (ascii "swm-dpop+jwt"))]

/-- The dot between the parts of a compact token. -/
def dot : Separator UInt8 := ⟨46, [], by decide⟩

/-- `encodedHeader + "." + encodedPayload`, in the digits the JSON writer uses for
control characters. -/
def signingInput (upper : Bool) (header payload : List (Bytes × JsonWrite.Scalar)) : Bytes :=
  Base64Url.encode (JsonWrite.object upper header) ++ (dot.text ++
    Base64Url.encode (JsonWrite.object upper payload))

/-- The token on the wire is a proof with this payload, whoever signed it. -/
def ProofOf (upper : Bool) (token : Bytes) (payload : DpopPayload) : Prop :=
  ∃ header signature, token =
    signingInput upper header payload.fields ++ (dot.text ++ Base64Url.encode signature)

/-- **A token has one payload.** -/
theorem ProofOf.unique {upper : Bool} {token : Bytes} {first second : DpopPayload}
    (h₁ : ProofOf upper token first) (h₂ : ProofOf upper token second) : first = second := by
  obtain ⟨header₁, signature₁, rfl⟩ := h₁
  obtain ⟨header₂, signature₂, h⟩ := h₂
  have spare : ∀ bytes, ¬ dot.text <:+: Base64Url.encode bytes := fun bytes =>
    dot.not_infix_of_head (Base64Url.dot_notMem_encode bytes)
  simp only [signingInput, List.append_assoc] at h
  obtain ⟨-, h⟩ := dot.split_first (spare _) (spare _) h
  obtain ⟨h, -⟩ := dot.split_first (spare _) (spare _) h
  exact DpopPayload.fields_injective (JsonWrite.object_injective (Base64Url.encode_injective h))

/-- An HTTP request as the transport receives it. -/
structure HttpRequest where
  method : Bytes
  url : Bytes
  headers : List (Bytes × Bytes)
  body : Bytes
  deriving DecidableEq, Repr

/-- The value of a header. -/
def HttpRequest.header (request : HttpRequest) (name : String) : Option Bytes :=
  (request.headers.find? (fun entry => entry.1 = ascii name)).map Prod.snd

/-- What a proof owes to the request it is sent with: the method, the URL, the
session that is sent (or the empty text) and the body before encryption. -/
structure DpopBound (crypto : Crypto) (plaintext : Bytes) (http : HttpRequest)
    (payload : DpopPayload) : Prop where
  htm : payload.htm = http.method
  htu : payload.htu = http.url
  ath : payload.ath =
    Base64Url.encode (crypto.sha256 ((http.header "X-SWM-Session").getD []))
  bodySha256 : payload.bodySha256 = crypto.sha256Hex plaintext

/-- What a pipeline reads of its options and its state, in both SDKs. -/
structure Pipeline where
  baseUrl : Bytes
  appId : Bytes
  releaseId : Bytes
  version : Bytes
  versionCode : Option Int
  channel : Bytes
  deviceId : Bytes
  installId : Bytes
  deviceKeyId : Bytes
  /-- `initialized` and `now_unix_seconds` of the trusted clock. -/
  clockInitialized : Bool
  now : Int
  ring : KeyRing
  session : Option Bytes
  sessionExpiresAt : Int

/-- The error of a session that is missing or has expired. -/
def sessionError (code message : String) : Error where
  kind := .session
  statusCode := 401
  serviceCode := ascii code
  message := ascii message

/-- The error of a client that does not know the time. -/
def clockError (message : String) : Error where
  kind := .clock
  statusCode := 0
  serviceCode := []
  message := ascii message

namespace Pipeline

/-- `current_key`. -/
def currentKey (pipeline : Pipeline) : Except Error ProtocolKey :=
  match pipeline.ring.currentKey with
  | none => .error (sessionError "authz_key_required" "online authorization key is unavailable")
  | some key =>
      if pipeline.clockInitialized ∧ key.refreshAfter ≤ pipeline.now then
        .error (sessionError "authz_key_expired" "online authorization key has expired")
      else .ok key

/-- `ensure_session`; the SDKs differ in the text for a missing clock. -/
def ensureSession (pipeline : Pipeline) (unavailable : String) : Except Error Bytes :=
  if ¬ pipeline.clockInitialized then .error (clockError unavailable)
  else
    match pipeline.session with
    | some session =>
        if pipeline.sessionExpiresAt ≤ pipeline.now then
          .error (sessionError "authz_session_invalid"
            "authorization session is missing or expired")
        else .ok session
    | none =>
        .error (sessionError "authz_session_invalid" "authorization session is missing or expired")

/-- The payload `create_dpop` puts together, with `jti` the random bytes of its id. -/
def dpopPayload (crypto : Crypto) (pipeline : Pipeline)
    (jti method url sessionBinding body : Bytes) : DpopPayload where
  appId := pipeline.appId
  ath := Base64Url.encode (crypto.sha256 sessionBinding)
  bodySha256 := crypto.sha256Hex body
  channel := pipeline.channel
  deviceId := pipeline.deviceId
  exp := pipeline.now + 60
  htm := method
  htu := url
  iat := pipeline.now
  installId := pipeline.installId
  jti := hex jti
  pcid := pipeline.deviceId
  releaseId := pipeline.releaseId

/-- `create_dpop`, with `sign` the device key. -/
def createDpop (upper : Bool) (crypto : Crypto) (pipeline : Pipeline) (sign : Bytes → Bytes)
    (jti method url sessionBinding body : Bytes) : Except Error Bytes :=
  if pipeline.now ≤ 0 then .error (clockError "trusted server time is unavailable")
  else
    let input := signingInput upper (dpopHeader pipeline.deviceKeyId)
      (dpopPayload crypto pipeline jti method url sessionBinding body).fields
    .ok (input ++ (dot.text ++ Base64Url.encode (sign (crypto.sha256 input))))

/-- The headers every request carries. -/
def identityHeaders (pipeline : Pipeline) (timestamp nonce : Bytes) : List (Bytes × Bytes) := [
  (ascii "X-App-Id", pipeline.appId),
  (ascii "X-Timestamp", timestamp),
  (ascii "X-Nonce", nonce),
  (ascii "X-Authz-Capability", ascii "v3"),
  (ascii "X-Client-Release-Id", pipeline.releaseId),
  (ascii "X-Client-Version", pipeline.version),
  (ascii "X-Client-Version-Code", (pipeline.versionCode.map decimal).getD [])]

/-- The session header, when the request needs a session. -/
def sessionHeader (requireSession : Bool) (sessionBinding : Bytes) : List (Bytes × Bytes) :=
  if requireSession then [(ascii "X-SWM-Session", sessionBinding)] else []

/-- The headers of an encrypted body. -/
def encryptionHeaders (key : ProtocolKey) : List (Bytes × Bytes) :=
  [(ascii "X-SWM-Body-Enc", ascii "x25519-aes-gcm-v1"), (ascii "X-SWM-Online-Key-Id", key.keyId)]

/-! ### The headers of a sent request -/

theorem header_append {method url body : Bytes} {front back : List (Bytes × Bytes)} {name : String}
    (h : front.find? (fun entry => entry.1 = ascii name) = none) :
    (HttpRequest.mk method url (front ++ back) body).header name =
      (HttpRequest.mk method url back body).header name := by
  simp only [HttpRequest.header, List.find?_append, h, Option.none_or]

theorem header_cons {method url body value : Bytes} {back : List (Bytes × Bytes)} (name : String) :
    (HttpRequest.mk method url ((ascii name, value) :: back) body).header name = some value := by
  simp [HttpRequest.header]

section Headers
variable {pipeline : Pipeline}

theorem identityHeaders_dpop (timestamp nonce : Bytes) :
    (pipeline.identityHeaders timestamp nonce).find?
      (fun entry => entry.1 = ascii "X-SWM-DPoP") = none := rfl

theorem identityHeaders_session (timestamp nonce : Bytes) :
    (pipeline.identityHeaders timestamp nonce).find?
      (fun entry => entry.1 = ascii "X-SWM-Session") = none := rfl

/-- The proof is found under its name. -/
theorem header_dpop (method url body timestamp nonce token : Bytes) (back : List (Bytes × Bytes)) :
    (HttpRequest.mk method url (pipeline.identityHeaders timestamp nonce ++
      [(ascii "X-SWM-DPoP", token)] ++ back) body).header "X-SWM-DPoP" = some token := by
  rw [List.append_assoc, header_append (identityHeaders_dpop _ _), List.singleton_append,
    header_cons]

/-- The session header is the session the proof was made for. -/
theorem header_session {requireSession : Bool} {sessionBinding : Bytes}
    (hsession : requireSession = false → sessionBinding = [])
    (method url body timestamp nonce token : Bytes) {back : List (Bytes × Bytes)}
    (hback : back.find? (fun entry => entry.1 = ascii "X-SWM-Session") = none) :
    ((HttpRequest.mk method url (pipeline.identityHeaders timestamp nonce ++
      [(ascii "X-SWM-DPoP", token)] ++ sessionHeader requireSession sessionBinding ++ back)
      body).header "X-SWM-Session").getD [] = sessionBinding := by
  have dpop : [(ascii "X-SWM-DPoP", token)].find?
      (fun entry => entry.1 = ascii "X-SWM-Session") = none := rfl
  rw [List.append_assoc, List.append_assoc, header_append (identityHeaders_session _ _),
    header_append dpop, sessionHeader]
  cases requireSession with
  | true =>
    rw [if_pos rfl, List.singleton_append, header_cons]
    rfl
  | false =>
    rw [if_neg (by decide), List.nil_append, HttpRequest.header, hback, hsession rfl]
    rfl

theorem createDpop_ok {upper : Bool} {crypto : Crypto} {sign : Bytes → Bytes}
    {jti method url sessionBinding body token : Bytes}
    (h : createDpop upper crypto pipeline sign jti method url sessionBinding body = .ok token) :
    ProofOf upper token (pipeline.dpopPayload crypto jti method url sessionBinding body) := by
  obtain ⟨-, h⟩ := Outcome.guard_eq_ok.mp h
  obtain rfl := Except.ok.inj h
  exact ⟨_, _, rfl⟩

end Headers
end Pipeline

/-! ## Java -/

namespace Java
open Pipeline

/-- `RequestPipeline.Operation`. -/
inductive Operation where
  | time | keyManifest | updateCheck | heartbeat | event | feedback | enrollment
  | rotate | authorize | consume | download | updateStream | firmware | debug
  deriving DecidableEq, Repr

/-- `RequestPipeline.Request`; `none` stands for `null`. -/
structure Request where
  method : Bytes
  path : Bytes
  operation : Operation
  body : Option Bytes
  encryptBody : Bool
  requireSession : Bool
  requireTrustedTime : Bool
  requireOnlineKey : Bool
  contentType : Option Bytes
  query : Option Bytes
  dpopResource : Option Bytes

/-- What the platform contributes to one attempt. -/
structure Platform where
  /-- `System.currentTimeMillis() / 1000`. -/
  wallSeconds : Int
  /-- `randomUuid()`, and the sixteen random bytes of the proof's id. -/
  nonce : Bytes
  jti : Bytes
  /-- Whether `URI.create` accepts the text, and `validateHttpUri` the base. -/
  uriValid : Bytes → Bool
  baseValid : Bytes → Bool
  /-- `identity().signSha256`. -/
  signSha256 : Bytes → Bytes
  /-- `CryptoUtil.encryptRequestBody`: request, timestamp, nonce, key, body. -/
  encryptRequestBody : Request → Bytes → Bytes → ProtocolKey → Bytes → Except Error Bytes

/-- `URI.create` throws `IllegalArgumentException`. -/
def uriSyntax : Error where
  kind := .configuration
  statusCode := 0
  serviceCode := []
  message := ascii "URI syntax"

section Send
variable (crypto : Crypto) (pipeline : Pipeline) (platform : Platform)

/-- The session a request is bound to. -/
def sessionBindingOf (request : Request) : Except Error Bytes :=
  if request.requireSession then pipeline.ensureSession "trusted server time is unavailable"
  else .ok []

/-- `options.baseUri()`: the base URL with a slash at its end. -/
def baseUri : Except Error Bytes :=
  let base := if pipeline.baseUrl.getLast? = some 0x2f then pipeline.baseUrl
    else pipeline.baseUrl ++ [0x2f]
  if platform.uriValid base ∧ platform.baseValid base then .ok base else .error uriSyntax

/-- One slash at the end is taken off. -/
def dropSlash (base : Bytes) : Bytes :=
  if base.getLast? = some 0x2f then base.dropLast else base

/-- The query with its question mark, unless it is blank. -/
def querySuffix : Option Bytes → Bytes
  | none => []
  | some query => if isBlank query then [] else 0x3f :: query

/-- `absolute`. -/
def absolute (path : Bytes) (query : Option Bytes) : Except Error Bytes := do
  let base ← baseUri pipeline platform
  let uri := dropSlash base ++ path ++ querySuffix query
  if ¬ platform.uriValid uri then .error uriSyntax else .ok uri

/-- The content type of the request, unless it is blank. -/
def contentTypeHeader (request : Request) : List (Bytes × Bytes) :=
  match request.contentType with
  | none => []
  | some contentType => if isBlank contentType then [] else [(ascii "Content-Type", contentType)]

/-- `sendAttempt`, up to the request it hands to the transport. -/
def sendAttempt (request : Request) : Except Error HttpRequest := do
  let timestamp := decimal (if request.requireTrustedTime then pipeline.now
    else platform.wallSeconds)
  let uri ← absolute pipeline platform request.path request.query
  let headers := pipeline.identityHeaders timestamp platform.nonce
  let body := request.body.getD []
  if request.requireOnlineKey then
    let key ← pipeline.currentKey
    let sessionBinding ← sessionBindingOf pipeline request
    let proof ← pipeline.createDpop true crypto platform.signSha256 platform.jti request.method
      (request.dpopResource.getD uri) sessionBinding body
    let headers := headers ++ [(ascii "X-SWM-DPoP", proof)] ++
      sessionHeader request.requireSession sessionBinding
    if request.encryptBody then
      let encrypted ← platform.encryptRequestBody request timestamp platform.nonce key body
      .ok ⟨request.method, uri, headers ++ (encryptionHeaders key ++ contentTypeHeader request),
        encrypted⟩
    else .ok ⟨request.method, uri, headers ++ contentTypeHeader request, body⟩
  else .ok ⟨request.method, uri, headers ++ contentTypeHeader request, body⟩

end Send

/-- The public operations of `SwmClient` that send a request with an online key. -/
inductive PublicOperation where
  | checkUpdate | reportHeartbeat | reportEvents | submitFeedback | requestEnrollmentTicket
  | authorizeOperation | consumeOperationAuthorization | rotateDeviceKey
  deriving DecidableEq, Repr

/-- `application/json; charset=utf-8`. -/
def jsonContent : Bytes := ascii "application/json; charset=utf-8"

/-- The request of each call site.  `body` is the serialised payload of the call,
and `multipart` the content type of a feedback form. -/
def PublicOperation.request (body multipart : Bytes) : PublicOperation → Request
  | .checkUpdate => ⟨ascii "POST", ascii "/api/client/update-check", .updateCheck, some body,
      true, false, true, true, some jsonContent, some [], some []⟩
  | .reportHeartbeat => ⟨ascii "POST", ascii "/api/client/heartbeat", .heartbeat, some body,
      true, true, true, true, some jsonContent, some [], some []⟩
  | .reportEvents => ⟨ascii "POST", ascii "/api/client/events", .event, some body,
      true, true, true, true, some jsonContent, some [], some []⟩
  | .submitFeedback => ⟨ascii "POST", ascii "/api/client/feedback", .feedback, some body,
      true, true, true, true, some multipart, some [], some []⟩
  | .requestEnrollmentTicket => ⟨ascii "POST", ascii "/api/client/enrollment-ticket",
      .enrollment, some body, true, true, true, true, some jsonContent, some [], some []⟩
  | .authorizeOperation => ⟨ascii "POST", ascii "/api/client/operation-authorizations",
      .authorize, some body, true, true, true, true, some jsonContent, some [], some []⟩
  | .consumeOperationAuthorization => ⟨ascii "POST",
      ascii "/api/client/operation-authorizations/consume", .consume, some body,
      true, true, true, true, some jsonContent, some [], some []⟩
  | .rotateDeviceKey => ⟨ascii "POST", ascii "/api/client/device-key/rotate", .rotate, some body,
      true, true, true, true, some jsonContent, some [], some []⟩

/-! ### What is sent -/

section Sent
variable {crypto : Crypto} {pipeline : Pipeline} {platform : Platform} {request : Request}

theorem contentTypeHeader_session :
    (contentTypeHeader request).find? (fun entry => entry.1 = ascii "X-SWM-Session") = none := by
  unfold contentTypeHeader
  split
  · rfl
  · split <;> rfl

theorem sessionBindingOf_ok {sessionBinding : Bytes}
    (h : sessionBindingOf pipeline request = .ok sessionBinding)
    (hreq : request.requireSession = false) : sessionBinding = [] := by
  rw [sessionBindingOf, hreq, if_neg (by decide)] at h
  exact (Except.ok.inj h).symm

/-- **What an attempt with an online key sends**: its proof names the override or
the URL of the request, the session that is sent and the plaintext body. -/
theorem sendAttempt_ok {http : HttpRequest} (hkey : request.requireOnlineKey = true)
    (h : sendAttempt crypto pipeline platform request = .ok http) :
    ∃ sessionBinding token, http.method = request.method ∧
      absolute pipeline platform request.path request.query = .ok http.url ∧
      http.header "X-SWM-DPoP" = some token ∧
      (http.header "X-SWM-Session").getD [] = sessionBinding ∧
      ProofOf true token (pipeline.dpopPayload crypto platform.jti request.method
        (request.dpopResource.getD http.url) sessionBinding (request.body.getD [])) := by
  unfold sendAttempt at h
  simp only [hkey, if_true] at h
  obtain ⟨uri, huri, h⟩ := Outcome.bind_eq_ok.mp h
  obtain ⟨key, -, h⟩ := Outcome.bind_eq_ok.mp h
  obtain ⟨sessionBinding, hsession, h⟩ := Outcome.bind_eq_ok.mp h
  obtain ⟨token, htoken, h⟩ := Outcome.bind_eq_ok.mp h
  refine ⟨sessionBinding, token, ?_⟩
  split at h
  · obtain ⟨encrypted, -, h⟩ := Outcome.bind_eq_ok.mp h
    obtain rfl := Except.ok.inj h
    have hback : (encryptionHeaders key ++ contentTypeHeader request).find?
        (fun entry => entry.1 = ascii "X-SWM-Session") = none := by
      rw [List.find?_append, contentTypeHeader_session]
      rfl
    refine ⟨rfl, huri, ?_, header_session (sessionBindingOf_ok hsession) _ _ _ _ _ _ hback,
      createDpop_ok htoken⟩
    rw [List.append_assoc (_ ++ _)]
    exact header_dpop ..
  · obtain rfl := Except.ok.inj h
    refine ⟨rfl, huri, ?_, header_session (sessionBindingOf_ok hsession) _ _ _ _ _ _
      contentTypeHeader_session, createDpop_ok htoken⟩
    rw [List.append_assoc (_ ++ _)]
    exact header_dpop ..

end Sent

theorem absolute_ne_nil {pipeline : Pipeline} {platform : Platform} {path uri : Bytes}
    {query : Option Bytes} (hpath : path ≠ [])
    (h : absolute pipeline platform path query = .ok uri) : uri ≠ [] := by
  obtain ⟨base, -, h⟩ := Outcome.bind_eq_ok.mp h
  obtain ⟨-, h⟩ := Outcome.guard_eq_ok.mp h
  obtain rfl := Except.ok.inj h
  simp [hpath]

theorem PublicOperation.request_spec (operation : PublicOperation) (body multipart : Bytes) :
    (operation.request body multipart).requireOnlineKey = true ∧
      (operation.request body multipart).body = some body ∧
      (operation.request body multipart).path ≠ [] ∧
      (operation.request body multipart).dpopResource = some [] := by
  have hpath : (operation.request [] []).path ≠ [] := by
    cases operation <;> decide
  cases operation <;> exact ⟨rfl, rfl, hpath, rfl⟩

/-- The proof of every call site is right but for its URL, which is empty. -/
theorem callSite_payload {crypto : Crypto} {pipeline : Pipeline} {platform : Platform}
    {operation : PublicOperation} {body multipart : Bytes} {http : HttpRequest}
    (h : sendAttempt crypto pipeline platform (operation.request body multipart) = .ok http) :
    ∃ token payload, http.header "X-SWM-DPoP" = some token ∧ ProofOf true token payload ∧
      payload.htm = http.method ∧
      payload.ath = Base64Url.encode (crypto.sha256 ((http.header "X-SWM-Session").getD [])) ∧
      payload.bodySha256 = crypto.sha256Hex body ∧ payload.htu = [] ∧ http.url ≠ [] := by
  obtain ⟨hkey, hbody, hpath, hresource⟩ := operation.request_spec body multipart
  obtain ⟨sessionBinding, token, hmethod, hurl, htoken, hsession, hproof⟩ := sendAttempt_ok hkey h
  refine ⟨token, _, htoken, hproof, hmethod.symm, ?_, ?_, ?_, absolute_ne_nil hpath hurl⟩
  · rw [hsession]
    rfl
  · rw [hbody]
    rfl
  · rw [hresource]
    rfl

/-- **No call site of the Java client sends a proof that is bound to its
request**: the method, the session and the body are named, the URL is not. -/
theorem dpop_unbound (crypto : Crypto) (pipeline : Pipeline) (platform : Platform)
    (operation : PublicOperation) (body multipart : Bytes) (http : HttpRequest)
    (h : sendAttempt crypto pipeline platform (operation.request body multipart) = .ok http) :
    (∃ token payload, http.header "X-SWM-DPoP" = some token ∧ ProofOf true token payload ∧
      payload.htm = http.method ∧
      payload.ath = Base64Url.encode (crypto.sha256 ((http.header "X-SWM-Session").getD [])) ∧
      payload.bodySha256 = crypto.sha256Hex body ∧ payload.htu = []) ∧
    ¬ ∃ token payload, http.header "X-SWM-DPoP" = some token ∧ ProofOf true token payload ∧
      DpopBound crypto body http payload := by
  obtain ⟨token, payload, htoken, hproof, htm, hath, hdigest, htu, hurl⟩ := callSite_payload h
  refine ⟨⟨token, payload, htoken, hproof, htm, hath, hdigest, htu⟩, ?_⟩
  rintro ⟨token', payload', htoken', hproof', hbound⟩
  obtain rfl := Option.some.inj (htoken.symm.trans htoken')
  rw [← hproof.unique hproof'] at hbound
  exact hurl (hbound.htu.symm.trans htu)

/-! A first update check: no session, an empty JSON object as its payload. -/

/-- SHA-256 of the three texts a first update check hashes: the absent session,
the body and the signing input. -/
def sampleDpopCrypto : Crypto where
  sha256 value :=
    if value = [] then
      [0xe3, 0xb0, 0xc4, 0x42, 0x98, 0xfc, 0x1c, 0x14, 0x9a, 0xfb, 0xf4, 0xc8, 0x99, 0x6f, 0xb9,
       0x24, 0x27, 0xae, 0x41, 0xe4, 0x64, 0x9b, 0x93, 0x4c, 0xa4, 0x95, 0x99, 0x1b, 0x78, 0x52,
       0xb8, 0x55]
    else if value = [0x7b, 0x7d] then
      [0x44, 0x13, 0x6f, 0xa3, 0x55, 0xb3, 0x67, 0x8a, 0x11, 0x46, 0xad, 0x16, 0xf7, 0xe8, 0x64,
       0x9e, 0x94, 0xfb, 0x4f, 0xc2, 0x1f, 0xe7, 0x7e, 0x83, 0x10, 0xc0, 0x60, 0xf6, 0x1c, 0xaa,
       0xff, 0x8a]
    else
      [0x3e, 0x25, 0x3a, 0x4b, 0xaa, 0x49, 0x82, 0xbf, 0xcb, 0x79, 0xcc, 0x58, 0x8b, 0xae, 0x12,
       0xa9, 0xea, 0xe6, 0xfd, 0x3c, 0x8d, 0xcf, 0xbb, 0x28, 0xaf, 0x28, 0xf9, 0xe8, 0xc5, 0xaf,
       0xc7, 0x2a]
  sha256_length value := by
    split
    · rfl
    · split <;> rfl
  ed25519Verify _ _ _ := .ok true

/-- The client of the samples. -/
def samplePipeline : Pipeline where
  baseUrl := ascii "https://api.example.com"
  appId := ascii "app"
  releaseId := ascii "release"
  version := ascii "1.0.0"
  versionCode := none
  channel := ascii "stable"
  deviceId := ascii "device"
  installId := ascii "install"
  deviceKeyId := ascii "kid"
  clockInitialized := true
  now := 1000
  ring := ⟨some ⟨ascii "k1", ascii "key", 900, 2000⟩, []⟩
  session := none
  sessionExpiresAt := 0

/-- The clock and the random values of the samples. -/
def samplePlatform : Platform where
  wallSeconds := 1000
  nonce := ascii "nonce"
  jti := List.replicate 16 0
  uriValid _ := true
  baseValid _ := true
  signSha256 _ := List.replicate 64 0
  encryptRequestBody _ _ _ _ body := .ok body

/-- The request of a first update check is sent. -/
theorem sampleAttempt_sent : ∃ http, sendAttempt sampleDpopCrypto samplePipeline samplePlatform
    (PublicOperation.checkUpdate.request [0x7b, 0x7d] []) = .ok http := ⟨_, rfl⟩

theorem dpop_unbound_updateCheck :
    ∃ http, sendAttempt sampleDpopCrypto samplePipeline samplePlatform
        (PublicOperation.checkUpdate.request [0x7b, 0x7d] []) = .ok http ∧
      ¬ ∃ token payload, http.header "X-SWM-DPoP" = some token ∧ ProofOf true token payload ∧
        DpopBound sampleDpopCrypto [0x7b, 0x7d] http payload := by
  obtain ⟨http, h⟩ := sampleAttempt_sent
  exact ⟨http, h, (dpop_unbound _ _ _ _ _ _ http h).2⟩

/-- The proof of a first update check names no URL. -/
theorem updateCheck_htu_empty :
    ¬ ∀ (crypto : Crypto) (pipeline : Pipeline) (platform : Platform)
      (operation : PublicOperation) (body multipart : Bytes) (http : HttpRequest),
      sendAttempt crypto pipeline platform (operation.request body multipart) = .ok http →
      ∃ token payload, http.header "X-SWM-DPoP" = some token ∧ ProofOf true token payload ∧
        DpopBound crypto body http payload := by
  intro hall
  obtain ⟨http, h⟩ := sampleAttempt_sent
  obtain ⟨token, payload, htoken, hproof, -, -, -, htu, hurl⟩ := callSite_payload h
  obtain ⟨token', payload', htoken', hproof', hbound⟩ := hall _ _ _ _ _ _ http h
  obtain rfl := Option.some.inj (htoken.symm.trans htoken')
  rw [← hproof.unique hproof'] at hbound
  exact hurl (hbound.htu.symm.trans htu)

end Java

/-! ## C++ -/

namespace Cpp
open Pipeline

/-- `ProtocolRequest`; an empty `dpop_resource` is the default. -/
structure ProtocolRequest where
  method : Bytes
  path : Bytes
  body : Bytes
  encryptBody : Bool := true
  requireSession : Bool := false
  requireTrustedTime : Bool := true
  requireOnlineKey : Bool := true
  contentType : Bytes := ascii "application/json; charset=utf-8"
  query : Bytes := []
  dpopResource : Bytes := []

/-- What the platform contributes to one attempt. -/
structure Platform where
  wallSeconds : Int
  nonce : Bytes
  jti : Bytes
  /-- `identity().sign_sha256`. -/
  signSha256 : Bytes → Bytes
  /-- Whether `dump` can write the objects: it throws on text that is not UTF-8. -/
  writable : List (Bytes × JsonWrite.Scalar) → Bool
  /-- `encrypt_request_body`: request, timestamp, nonce, key. -/
  encryptRequestBody : ProtocolRequest → Bytes → Bytes → ProtocolKey → Except Error Bytes

/-- `absolute_url`: all slashes at the end of the base are taken off. -/
def absoluteUrl (baseUrl path query : Bytes) : Bytes :=
  (baseUrl.reverse.dropWhile (· = 0x2f)).reverse ++ path ++
    (if query = [] then [] else 0x3f :: query)

/-- `nlohmann::json::type_error`, which is no `swm::Error`. -/
def dumpError : Error where
  kind := .api
  statusCode := 0
  serviceCode := []
  message := ascii "type_error"

section Send
variable (crypto : Crypto) (pipeline : Pipeline) (platform : Platform)

/-- The timestamp of a request: the trusted time, or the system clock. -/
def timestampOf (request : ProtocolRequest) : Except Error Bytes :=
  if request.requireTrustedTime then
    if pipeline.now ≤ 0 then .error (clockError "trusted server time is unavailable")
    else .ok (decimal pipeline.now)
  else .ok (decimal platform.wallSeconds)

/-- The session that the proof is bound to, or none for a request that needs no session. -/
def sessionBindingOf (request : ProtocolRequest) : Except Error Bytes :=
  if request.requireSession then
    pipeline.ensureSession "trusted server time is unavailable for session validation"
  else .ok []

/-- `create_dpop`: the proof of possession, or what the JSON library throws for a text that is not
UTF-8. -/
def createDpop (method url sessionBinding body : Bytes) : Except Error Bytes :=
  if ¬ (platform.writable (dpopHeader pipeline.deviceKeyId) ∧ platform.writable
      (pipeline.dpopPayload crypto platform.jti method url sessionBinding body).fields) then
    .error dumpError
  else pipeline.createDpop false crypto platform.signSha256 platform.jti method url
    sessionBinding body

/-- The content type of the request, if it names one. -/
def contentTypeHeader (request : ProtocolRequest) : List (Bytes × Bytes) :=
  if request.contentType = [] then [] else [(ascii "content-type", request.contentType)]

/-- `send_attempt`, up to the request it hands to the transport. -/
def sendAttempt (request : ProtocolRequest) : Except Error HttpRequest := do
  let timestamp ← timestampOf pipeline platform request
  let absolute := absoluteUrl pipeline.baseUrl request.path request.query
  let url := if request.dpopResource = [] then absolute else request.dpopResource
  let headers := pipeline.identityHeaders timestamp platform.nonce
  if request.requireOnlineKey then
    let key ← pipeline.currentKey
    let sessionBinding ← sessionBindingOf pipeline request
    let proof ← createDpop crypto pipeline platform request.method url sessionBinding request.body
    let headers := headers ++ [(ascii "X-SWM-DPoP", proof)] ++
      sessionHeader request.requireSession sessionBinding
    if request.encryptBody then
      let encrypted ← platform.encryptRequestBody request timestamp platform.nonce key
      .ok ⟨request.method, absolute, headers ++ (encryptionHeaders key ++
        contentTypeHeader request), encrypted⟩
    else .ok ⟨request.method, absolute, headers ++ contentTypeHeader request, request.body⟩
  else .ok ⟨request.method, absolute, headers ++ contentTypeHeader request, request.body⟩

end Send

section Sent
variable {crypto : Crypto} {pipeline : Pipeline} {platform : Platform} {request : ProtocolRequest}

theorem contentTypeHeader_session :
    (contentTypeHeader request).find? (fun entry => entry.1 = ascii "X-SWM-Session") = none := by
  unfold contentTypeHeader
  split <;> rfl

theorem sessionBindingOf_ok {sessionBinding : Bytes}
    (h : sessionBindingOf pipeline request = .ok sessionBinding)
    (hreq : request.requireSession = false) : sessionBinding = [] := by
  rw [sessionBindingOf, hreq, if_neg (by decide)] at h
  exact (Except.ok.inj h).symm

/-- **Every C++ request without an override carries a proof that is bound to it**;
all call sites leave `dpop_resource` at its default. -/
theorem sendAttempt_bound {http : HttpRequest} (hkey : request.requireOnlineKey = true)
    (hresource : request.dpopResource = [])
    (h : sendAttempt crypto pipeline platform request = .ok http) :
    ∃ token payload, http.header "X-SWM-DPoP" = some token ∧ ProofOf false token payload ∧
      DpopBound crypto request.body http payload := by
  unfold sendAttempt at h
  simp only [hkey, hresource, if_true] at h
  obtain ⟨timestamp, -, h⟩ := Outcome.bind_eq_ok.mp h
  obtain ⟨key, -, h⟩ := Outcome.bind_eq_ok.mp h
  obtain ⟨sessionBinding, hsession, h⟩ := Outcome.bind_eq_ok.mp h
  obtain ⟨token, htoken, h⟩ := Outcome.bind_eq_ok.mp h
  have hproof := createDpop_ok (Outcome.guard_eq_ok.mp htoken).2
  refine ⟨token, _, ?_, hproof, ?_⟩
  · split at h
    · obtain ⟨encrypted, -, h⟩ := Outcome.bind_eq_ok.mp h
      obtain rfl := Except.ok.inj h
      rw [List.append_assoc (_ ++ _)]
      exact header_dpop ..
    · obtain rfl := Except.ok.inj h
      rw [List.append_assoc (_ ++ _)]
      exact header_dpop ..
  · split at h
    · obtain ⟨encrypted, -, h⟩ := Outcome.bind_eq_ok.mp h
      obtain rfl := Except.ok.inj h
      have hback : (encryptionHeaders key ++ contentTypeHeader request).find?
          (fun entry => entry.1 = ascii "X-SWM-Session") = none := by
        rw [List.find?_append, contentTypeHeader_session]
        rfl
      refine ⟨rfl, rfl, ?_, rfl⟩
      rw [header_session (sessionBindingOf_ok hsession) _ _ _ _ _ _ hback]
      rfl
    · obtain rfl := Except.ok.inj h
      refine ⟨rfl, rfl, ?_, rfl⟩
      rw [header_session (sessionBindingOf_ok hsession) _ _ _ _ _ _ contentTypeHeader_session]
      rfl

end Sent
end Cpp
end SwmSdk
