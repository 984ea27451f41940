import SwmSdk.BodySealing
import SwmSdk.ClientCalls
import SwmSdk.OfflineFile

/-! # Encrypted requests on the wire

`send_attempt` seals a body for the online key and says in the headers what it was sealed for.  A
server that knows its own base address finds all of it in the request (`receivedRequest`): it opens
the body with the private key, and the digest in the proof of possession is that of what it finds
(`sendAttempt_opened`).
-/
namespace SwmSdk
open ByteText Numeral Outcome

/-! ## The client -/

namespace Cpp

/-- The pairs of a query; a part without `=` is a key with an empty value. -/
def queryPairs (value : Bytes) : List (Bytes × Bytes) :=
  ((value.splitOn 0x26).filter (· ≠ [])).map (Python.splitAt 0x3d)

/-- `canonical_query`. -/
def canonicalQuery (query : Bytes) : Bytes :=
  let value := if query.head? = some 0x3f then query.drop 1 else query
  (ascii "&").intercalate (((queryPairs value).mergeSort Python.pairLe).map fun (key, value) =>
    urlEscape key ++ 0x3d :: urlEscape value)

/-- `std::out_of_range` or `std::invalid_argument`, which is no `swm::Error`. -/
def stollError : Error where
  kind := .api
  statusCode := 0
  serviceCode := []
  message := ascii "stoll"

/-- What `send_attempt` asks of `encrypt_request_body`. -/
def bodyEncryption (crypto : Crypto) (sealing : Sealing) (pipeline : Pipeline)
    (request : ProtocolRequest) (timestamp nonce : Bytes) (key : ProtocolKey) :
    Except Error Bytes :=
  match stoll timestamp with
  | none => .error stollError
  | some seconds => encryptRequestBody crypto sealing request.method request.path
      (canonicalQuery request.query) seconds nonce pipeline.appId pipeline.releaseId
      pipeline.version ((pipeline.versionCode.map decimal).getD []) key.keyId key.publicKey
      request.body

/-- The platform of a client that seals bodies. -/
def Platform.sealed (platform : Platform) (crypto : Crypto) (sealing : Sealing)
    (pipeline : Pipeline) : Platform :=
  { platform with encryptRequestBody := bodyEncryption crypto sealing pipeline }

/-- What a body is sealed for. -/
def sealedRequest (pipeline : Pipeline) (platform : Platform) (request : ProtocolRequest)
    (key : ProtocolKey) : SealedRequest where
  method := request.method
  path := request.path
  query := canonicalQuery request.query
  timestamp := pipeline.now
  nonce := platform.nonce
  appId := pipeline.appId
  releaseId := pipeline.releaseId
  version := pipeline.version
  versionCode := pipeline.versionCode
  keyId := key.keyId

end Cpp

/-! ## The server -/

/-- The version code that a header says. -/
def receivedVersionCode (text : Bytes) : Option (Option Int) :=
  if text = [] then some none else (Python.parseInt text).map some

/-- What a request says of its body, to a server behind a base address. -/
def receivedRequest (base : Bytes) (http : HttpRequest) : Option SealedRequest := do
  let target ← if base <+: http.url then some (http.url.drop base.length) else none
  let timestamp ← (http.header "X-Timestamp").bind Python.parseInt
  let nonce ← http.header "X-Nonce"
  let appId ← http.header "X-App-Id"
  let releaseId ← http.header "X-Client-Release-Id"
  let version ← http.header "X-Client-Version"
  let versionCode ← (http.header "X-Client-Version-Code").bind receivedVersionCode
  let keyId ← http.header "X-SWM-Online-Key-Id"
  some {
    method := http.method
    path := (Python.splitAt 0x3f target).1
    query := Cpp.canonicalQuery (Python.splitAt 0x3f target).2
    timestamp, nonce, appId, releaseId, version, versionCode, keyId }

/-- What the server finds in the body, with the private key of an online key. -/
def openedBody (crypto : Crypto) (suite : SealedBox.Suite) (key privateKey base : Bytes)
    (http : HttpRequest) : Option Bytes := do
  let request ← receivedRequest base http
  if http.header "X-SWM-Body-Enc" ≠ some (ascii "x25519-aes-gcm-v1") then none
  else SealedBox.openBox suite (request.derivation crypto key) privateKey request.aad http.body

namespace Cpp
open Pipeline

/-- The base that `absolute_url` puts paths behind. -/
def baseOf (baseUrl : Bytes) : Bytes := (baseUrl.reverse.dropWhile (· = 0x2f)).reverse

theorem splitAt_target {path : Bytes} (h : 0x3f ∉ path) (query : Bytes) :
    Python.splitAt 0x3f (path ++ if query = [] then [] else 0x3f :: query) = (path, query) := by
  have hpath : ∀ b ∈ path, decide (b ≠ 0x3f) = true := by
    intro b hb
    rw [decide_eq_true_iff]
    rintro rfl
    exact h hb
  unfold Python.splitAt
  rw [List.takeWhile_append_of_pos hpath, List.dropWhile_append_of_pos hpath]
  by_cases hquery : query = []
  · rw [if_pos hquery, hquery]
    simp
  · rw [if_neg hquery]
    simp

theorem receivedVersionCode_text (versionCode : Option Int) :
    receivedVersionCode ((versionCode.map decimal).getD []) = some versionCode := by
  unfold receivedVersionCode
  cases versionCode with
  | none => rfl
  | some code =>
    rw [Option.map_some, Option.getD_some, if_neg (decimal_ne_nil code), Python.parseInt_decimal]
    rfl

section Sent
variable {crypto : Crypto} {sealing : Sealing} {pipeline : Pipeline} {platform : Platform}
variable {request : ProtocolRequest} {http : HttpRequest} {online : ProtocolKey}

/-- The request with a sealed body. -/
def sealedHttp (pipeline : Pipeline) (platform : Platform) (request : ProtocolRequest)
    (online : ProtocolKey) (session token body : Bytes) : HttpRequest where
  method := request.method
  url := absoluteUrl pipeline.baseUrl request.path request.query
  headers := pipeline.identityHeaders (decimal pipeline.now) platform.nonce ++
    [(ascii "X-SWM-DPoP", token)] ++ sessionHeader request.requireSession session ++
    (encryptionHeaders online ++ contentTypeHeader request)
  body := body

/-- **The server reads what the body was sealed for.** -/
theorem receivedRequest_sealed (hpath : 0x3f ∉ request.path) (session token body : Bytes) :
    receivedRequest (baseOf pipeline.baseUrl)
      (sealedHttp pipeline platform request online session token body) =
        some (sealedRequest pipeline platform request online) := by
  generalize hhttp : sealedHttp pipeline platform request online session token body = http
  have hurl : http.url = baseOf pipeline.baseUrl ++
      (request.path ++ if request.query = [] then [] else 0x3f :: request.query) := by
    rw [← hhttp, sealedHttp, absoluteUrl, List.append_assoc, baseOf]
  have hfront : baseOf pipeline.baseUrl <+: http.url := hurl ▸ List.prefix_append _ _
  have htarget : http.url.drop (baseOf pipeline.baseUrl).length =
      request.path ++ if request.query = [] then [] else 0x3f :: request.query := by
    rw [hurl, List.drop_left]
  have hmethod : http.method = request.method := hhttp ▸ rfl
  have htime : http.header "X-Timestamp" = some (decimal pipeline.now) := hhttp ▸ rfl
  have hnonce : http.header "X-Nonce" = some platform.nonce := hhttp ▸ rfl
  have happ : http.header "X-App-Id" = some pipeline.appId := hhttp ▸ rfl
  have hrelease : http.header "X-Client-Release-Id" = some pipeline.releaseId := hhttp ▸ rfl
  have hversion : http.header "X-Client-Version" = some pipeline.version := hhttp ▸ rfl
  have hcode : http.header "X-Client-Version-Code" =
      some ((pipeline.versionCode.map decimal).getD []) := hhttp ▸ rfl
  have hkeyId : http.header "X-SWM-Online-Key-Id" = some online.keyId := by
    rw [← hhttp, sealedHttp]
    cases request.requireSession with
    | true => rfl
    | false => rfl
  simp only [receivedRequest, if_pos hfront, htarget, splitAt_target hpath, hmethod, htime, hnonce,
    happ, hrelease, hversion, hcode, hkeyId, Python.parseInt_decimal, receivedVersionCode_text,
    Option.bind_eq_bind, Option.bind_some]
  rfl

theorem header_bodyEnc (session token body : Bytes) :
    (sealedHttp pipeline platform request online session token body).header "X-SWM-Body-Enc" =
      some (ascii "x25519-aes-gcm-v1") := by
  unfold sealedHttp
  cases request.requireSession with
  | true => rfl
  | false => rfl

/-- **What an attempt with a sealed body sends.** -/
theorem sendAttempt_sealed (hencrypt : request.encryptBody = true)
    (honline : request.requireOnlineKey = true) (htime : request.requireTrustedTime = true)
    (hcurrent : pipeline.ring.currentKey = some online)
    (h : sendAttempt crypto pipeline (platform.sealed crypto sealing pipeline) request =
      .ok http) :
    0 < pipeline.now ∧ ∃ session token body,
      bodyEncryption crypto sealing pipeline request (decimal pipeline.now) platform.nonce online =
        .ok body ∧
      http = sealedHttp pipeline platform request online session token body := by
  unfold sendAttempt at h
  simp only [honline, hencrypt, if_true] at h
  obtain ⟨timestamp, htimestamp, h⟩ := bind_eq_ok.mp h
  obtain ⟨key, hkey, h⟩ := bind_eq_ok.mp h
  obtain ⟨session, -, h⟩ := bind_eq_ok.mp h
  obtain ⟨token, -, h⟩ := bind_eq_ok.mp h
  obtain ⟨body, hbody, h⟩ := bind_eq_ok.mp h
  rw [timestampOf, if_pos htime] at htimestamp
  obtain ⟨hpositive, htimestamp⟩ := guard_eq_ok.mp htimestamp
  obtain rfl := Except.ok.inj htimestamp
  have hsame : key = online := by
    rw [currentKey, hcurrent] at hkey
    obtain ⟨-, hkey⟩ := guard_eq_ok.mp hkey
    exact (Except.ok.inj hkey).symm
  rw [hsame] at hbody h
  exact ⟨not_le.mp hpositive, session, token, body, hbody, (Except.ok.inj h).symm⟩

theorem bodyEncryption_eq {key : Ed25519Key} (hsuite : sealing.suite.Lawful)
    (holder : Holder sealing.suite key) (htext : KeyText key.bytes online.publicKey)
    (hpositive : 0 < pipeline.now) (hnow : InInt64 pipeline.now)
    (haad : (sealedRequest pipeline platform request online).aad.length < 2 ^ 32)
    (hbody : request.body.length < 2 ^ 32) :
    bodyEncryption crypto sealing pipeline request (decimal pipeline.now) platform.nonce online =
      .ok (sealedBody crypto sealing key.bytes (sealing.suite.publicOf holder.privateKey)
        (sealedRequest pipeline platform request online) request.body) := by
  unfold bodyEncryption
  rw [stoll_decimal hpositive hnow]
  exact @encryptRequestBody_eq crypto sealing key _ request.body
    (sealedRequest pipeline platform request online) hsuite holder htext haad hbody

/-- **The server opens every sealed body**, and finds what the proof of the request names. -/
theorem sendAttempt_opened {key : Ed25519Key} (hsuite : sealing.suite.Lawful)
    (holder : Holder sealing.suite key) (hcurrent : pipeline.ring.currentKey = some online)
    (htext : KeyText key.bytes online.publicKey) (hencrypt : request.encryptBody = true)
    (honline : request.requireOnlineKey = true) (htime : request.requireTrustedTime = true)
    (hresource : request.dpopResource = []) (hpath : 0x3f ∉ request.path)
    (hnow : InInt64 pipeline.now)
    (haad : (sealedRequest pipeline platform request online).aad.length < 2 ^ 32)
    (hbody : request.body.length < 2 ^ 32)
    (h : sendAttempt crypto pipeline (platform.sealed crypto sealing pipeline) request =
      .ok http) :
    openedBody crypto sealing.suite key.bytes holder.privateKey (baseOf pipeline.baseUrl) http =
        some request.body ∧
      ∃ token payload, http.header "X-SWM-DPoP" = some token ∧ ProofOf false token payload ∧
        DpopBound crypto request.body http payload := by
  refine ⟨?_, sendAttempt_bound honline hresource h⟩
  obtain ⟨hpositive, session, token, body, hsealed, rfl⟩ :=
    sendAttempt_sealed hencrypt honline htime hcurrent h
  have hbox : body = sealedBody crypto sealing key.bytes
      (sealing.suite.publicOf holder.privateKey)
        (sealedRequest pipeline platform request online) request.body := by
    exact Except.ok.inj (hsealed.symm.trans
      (bodyEncryption_eq hsuite holder htext hpositive hnow haad hbody))
  rw [openedBody, receivedRequest_sealed hpath]
  dsimp only [Option.bind_eq_bind, Option.bind_some]
  rw [if_neg (not_not.mpr (header_bodyEnc session token body)), sealedHttp, hbox]
  exact SealedBox.openBox_sealBox hsuite sealing.aesNonce_length

end Sent
/-! ## One request -/

namespace SealedCheck
open SwmSdk.SealedCheck

def online : ProtocolKey := ⟨ascii "key-1", hex onlineKey, 1234567000, 1234568000⟩

/-- The client of the sample, which has no session yet. -/
def pipeline : Pipeline where
  baseUrl := ascii "https://swm.example/"
  appId := sealedCheck.appId
  releaseId := sealedCheck.releaseId
  version := sealedCheck.version
  versionCode := none
  channel := ascii "stable"
  deviceId := ascii "device"
  installId := ascii "install"
  deviceKeyId := ascii "kid"
  clockInitialized := true
  now := 1234567890
  ring := ⟨some online, []⟩
  session := none
  sessionExpiresAt := 0

/-- The clock and the random values of the sample. -/
def platform : Platform where
  wallSeconds := 1234567890
  nonce := sealedCheck.nonce
  jti := List.replicate 16 0
  signSha256 _ := List.replicate 64 0
  writable _ := true
  encryptRequestBody _ _ _ _ := .error stollError

/-- The update check of the sample. -/
def request : ProtocolRequest where
  method := ascii "POST"
  path := ascii "/api/client/update-check"
  body := plaintext

/-- SHA-256 of the four texts that are hashed; the last is what the proof signs. -/
def crypto : Crypto where
  sha256 value :=
    if value = [] then emptyDigest
    else if value = sealedCheck.context onlineKey then salt
    else if value = plaintext then
      hexBytes "93a23971a914e5eacbf0a8d25154cda309c3c1c72fbb9914d47c60f3cb681588"
    else hexBytes "4740309b47e00c8fe99d5ccd0120ca12b4cc19df1ca1d675fc6b283b4549f0c3"
  sha256_length value := by
    split_ifs
    · rfl
    · decide +kernel
    · decide +kernel
    · decide +kernel
  ed25519Verify _ _ _ := .ok true

end SealedCheck

theorem sealedCheck_sent : ∃ http, sendAttempt SealedCheck.crypto SealedCheck.pipeline
    (SealedCheck.platform.sealed SealedCheck.crypto SwmSdk.SealedCheck.sealing
      SealedCheck.pipeline) SealedCheck.request = .ok http := by
  have hsealed := @bodyEncryption_eq SealedCheck.crypto SwmSdk.SealedCheck.sealing
    SealedCheck.pipeline SealedCheck.platform SealedCheck.request SealedCheck.online
    SwmSdk.SealedCheck.key SwmSdk.SealedCheck.suite_lawful SwmSdk.SealedCheck.holder .hex
    (by decide) (by decide) (by decide +kernel) (by decide +kernel)
  unfold sendAttempt
  exact ⟨_, bind_eq_ok.mpr ⟨_, rfl, bind_eq_ok.mpr ⟨_, rfl, bind_eq_ok.mpr ⟨_, rfl,
    bind_eq_ok.mpr ⟨_, rfl, bind_eq_ok.mpr ⟨_, hsealed, rfl⟩⟩⟩⟩⟩⟩

theorem sendAttempt_opened_check : ∃ http, sendAttempt SealedCheck.crypto SealedCheck.pipeline
      (SealedCheck.platform.sealed SealedCheck.crypto SwmSdk.SealedCheck.sealing
        SealedCheck.pipeline) SealedCheck.request = .ok http ∧
    openedBody SealedCheck.crypto SwmSdk.SealedCheck.sealing.suite SwmSdk.SealedCheck.key.bytes
      SwmSdk.SealedCheck.holder.privateKey (baseOf SealedCheck.pipeline.baseUrl) http =
        some SealedCheck.request.body ∧
    ∃ token payload, http.header "X-SWM-DPoP" = some token ∧ ProofOf false token payload ∧
      DpopBound SealedCheck.crypto SealedCheck.request.body http payload := by
  obtain ⟨http, hsent⟩ := sealedCheck_sent
  exact ⟨http, hsent, sendAttempt_opened SwmSdk.SealedCheck.suite_lawful SwmSdk.SealedCheck.holder
    rfl .hex rfl rfl rfl rfl (by decide +kernel) (by decide) (by decide +kernel)
    (by decide) hsent⟩

end Cpp
end SwmSdk
