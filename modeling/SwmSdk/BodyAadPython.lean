import SwmSdk.CSharpText
import SwmSdk.Dpop
import SwmSdk.Numeral
import SwmSdk.X25519Key

/-! # The associated data of an encrypted body

The Python client encrypts a body under a text that names the request: its method, path and query,
its time and nonce, and the headers that say what sends it.  The server puts the same text together
from the request that it receives.

All of it comes from the URL and the headers as they are sent, but for the version code: the header
says nothing of a code that is zero, as of one that is missing, and the text says `0` of it
(`recoverable_iff`).
-/
namespace SwmSdk.Python
open ByteText Outcome

/-! ## Strings -/

/-- What `str.isspace` holds of, in UTF-8. -/
def spaces : List Bytes :=
  [[0x09], [0x0a], [0x0b], [0x0c], [0x0d], [0x1c], [0x1d], [0x1e], [0x1f], [0x20], [0xc2, 0x85],
    [0xc2, 0xa0], [0xe1, 0x9a, 0x80], [0xe2, 0x80, 0x80], [0xe2, 0x80, 0x81], [0xe2, 0x80, 0x82],
    [0xe2, 0x80, 0x83], [0xe2, 0x80, 0x84], [0xe2, 0x80, 0x85], [0xe2, 0x80, 0x86],
    [0xe2, 0x80, 0x87], [0xe2, 0x80, 0x88], [0xe2, 0x80, 0x89], [0xe2, 0x80, 0x8a],
    [0xe2, 0x80, 0xa8], [0xe2, 0x80, 0xa9], [0xe2, 0x80, 0xaf], [0xe2, 0x81, 0x9f],
    [0xe3, 0x80, 0x80]]

/-- The text without the spaces at its front. -/
def stripFront (spaces : List Bytes) : Nat → Bytes → Bytes
  | 0, text => text
  | fuel + 1, text =>
      match spaces.find? (· <+: text) with
      | none => text
      | some space => stripFront spaces fuel (text.drop space.length)

/-- `str.strip`. -/
def strip (text : Bytes) : Bytes :=
  let front := stripFront spaces text.length text
  (stripFront (spaces.map List.reverse) front.length front.reverse).reverse

/-- The digits of a numeral, in groups between underscores. -/
def parseDigits (digits : Bytes) : Option Nat :=
  if [] ∈ digits.splitOn 0x5f then none
  else Numeral.digitsValue Numeral.asciiDigit 0 (digits.splitOn 0x5f).flatten

/-- `int`, of an ASCII text. -/
def parseInt (text : Bytes) : Option Int :=
  match strip text with
  | [] => none
  | sign :: digits =>
      if sign = 0x2b then (parseDigits digits).map Int.ofNat
      else if sign = 0x2d then (parseDigits digits).map fun n => -(n : Int)
      else (parseDigits (sign :: digits)).map Int.ofNat

/-! ## URLs -/

/-- What the client uses of libraries: `str.upper`, the checks of a network location, base64,
`bytes.fromhex`, and the primitives of the encryption with the random values that they draw. -/
structure Libraries where
  upper : Bytes → Bytes
  netlocValid : Bytes → Bool
  b64decode : Bytes → Option Bytes
  fromHex : Bytes → Option Bytes
  ephemeralPrivate : Bytes
  publicOf : Bytes → Bytes
  exchange : Bytes → Bytes → Option Bytes
  /-- Salt, information and key material. -/
  hkdf : Bytes → Bytes → Bytes → Bytes
  aesNonce : Bytes
  /-- Key, nonce, plaintext and associated data. -/
  aesGcm : Bytes → Bytes → Bytes → Bytes → Bytes

/-- `SplitResult`. -/
structure SplitUrl where
  scheme : Bytes
  netloc : Bytes
  path : Bytes
  query : Bytes
  fragment : Bytes
  deriving DecidableEq, Repr

/-- The text before the first such byte, and the text behind it. -/
def splitAt (b : UInt8) (text : Bytes) : Bytes × Bytes :=
  (text.takeWhile (· ≠ b), (text.dropWhile (· ≠ b)).drop 1)

/-- An ASCII letter. -/
def isAlpha (b : UInt8) : Bool := (65 ≤ b ∧ b ≤ 90) ∨ (97 ≤ b ∧ b ≤ 122)

/-- The characters that `urlsplit` takes for those of a scheme. -/
def schemeByte (b : UInt8) : Bool :=
  isAlpha b || (48 ≤ b ∧ b ≤ 57) || b = 0x2b || b = 0x2d || b = 0x2e

/-- The scheme in small letters, and the rest. -/
def splitScheme (url : Bytes) : Bytes × Bytes :=
  let (front, back) := splitAt 0x3a url
  if 0x3a ∈ url ∧ front.head?.any isAlpha ∧ front.all schemeByte then (lower front, back)
  else ([], url)

/-- `urlsplit`; none for its `ValueError`. -/
def urlsplit (libraries : Libraries) (url : Bytes) : Option SplitUrl :=
  let url := (url.dropWhile (· ≤ 0x20)).filter fun b => b ≠ 0x09 ∧ b ≠ 0x0a ∧ b ≠ 0x0d
  let (scheme, url) := splitScheme url
  let ends : UInt8 → Bool := fun b => b = 0x2f ∨ b = 0x3f ∨ b = 0x23
  let (netloc, url) :=
    if ascii "//" <+: url then
      ((url.drop 2).takeWhile fun b => !ends b, (url.drop 2).dropWhile fun b => !ends b)
    else ([], url)
  let (url, fragment) := splitAt 0x23 url
  let (path, query) := splitAt 0x3f url
  if libraries.netlocValid netloc then some ⟨scheme, netloc, path, query, fragment⟩ else none

/-- The schemes that `urlunsplit` writes a network location for. -/
def usesNetloc : List Bytes :=
  (["ftp", "http", "gopher", "nntp", "telnet", "imap", "wais", "file", "mms", "https", "shttp",
    "snews", "prospero", "rtsp", "rtsps", "rtspu", "rsync", "svn", "svn+ssh", "sftp", "nfs", "git",
    "git+ssh", "ws", "wss", "itms-services"] : List String).map ascii

/-- `urlunsplit`. -/
def urlunsplit (parts : SplitUrl) : Bytes :=
  let url :=
    if parts.netloc ≠ [] ∨ (parts.scheme ∈ usesNetloc ∧ ¬ ascii "//" <+: parts.path) then
      ascii "//" ++ parts.netloc ++
        (if parts.path ≠ [] ∧ parts.path.head? ≠ some 0x2f then 0x2f :: parts.path
          else parts.path)
    else parts.path
  let url := if parts.scheme ≠ [] then parts.scheme ++ 0x3a :: url else url
  let url := if parts.query ≠ [] then url ++ 0x3f :: parts.query else url
  if parts.fragment ≠ [] then url ++ 0x23 :: parts.fragment else url

/-- A digit of a percent escape. -/
def escapeDigit (n : Nat) : UInt8 := UInt8.ofNat (if n < 10 then 48 + n else 55 + n)

/-- `quote(value, safe='-._~')`: with these, or none, letters, digits and `-._~` stay. -/
def quote (value : Bytes) : Bytes :=
  value.flatMap fun b =>
    if isAlpha b ∨ (48 ≤ b ∧ b ≤ 57) ∨ b = 0x2d ∨ b = 0x2e ∨ b = 0x5f ∨ b = 0x7e then [b]
    else [0x25, escapeDigit (b.toNat / 16), escapeDigit (b.toNat % 16)]

/-- `quote_plus`. -/
def quotePlus (value : Bytes) : Bytes :=
  value.flatMap fun b => if b = 0x20 then [0x2b] else quote [b]

/-- `urlencode`. -/
def urlencode (pairs : List (Bytes × Bytes)) : Bytes :=
  (ascii "&").intercalate (pairs.map fun (key, value) => quotePlus key ++ 0x3d :: quotePlus value)

/-- `unquote_to_bytes`. -/
def unquoteToBytes : Bytes → Bytes
  | 0x25 :: high :: low :: rest =>
      match hexValue high, hexValue low with
      | some h, some l => UInt8.ofNat (16 * h + l) :: unquoteToBytes rest
      | _, _ => 0x25 :: unquoteToBytes (high :: low :: rest)
  | b :: rest => b :: unquoteToBytes rest
  | [] => []

/-- `unquote`, of a text in which `+` stands for a space. -/
def unquotePlus (value : Bytes) : Bytes :=
  let bytes := unquoteToBytes (value.map fun b => if b = 0x2b then 0x20 else b)
  lossyUtf8 bytes.length bytes

/-- `parse_qsl(query, keep_blank_values=True)`. -/
def parseQsl (query : Bytes) : List (Bytes × Bytes) :=
  ((query.splitOn 0x26).filter (· ≠ [])).map fun pair =>
    (unquotePlus (splitAt 0x3d pair).1, unquotePlus (splitAt 0x3d pair).2)

/-- The order of texts; that of their bytes is that of their characters. -/
def textLe : Bytes → Bytes → Bool
  | [], _ => true
  | _ :: _, [] => false
  | a :: first, b :: second => a < b || (a = b && textLe first second)

/-- The order in which `sorted` puts the pairs of a query. -/
def pairLe (first second : Bytes × Bytes) : Bool :=
  if first.1 = second.1 then textLe first.2 second.2 else textLe first.1 second.1

/-- `canonical_query`. -/
def canonicalQuery (libraries : Libraries) (url : Bytes) : Option Bytes :=
  (urlsplit libraries url).map fun parsed =>
    (ascii "&").intercalate (((parseQsl parsed.query).mergeSort pairLe).map fun (key, value) =>
      quote key ++ 0x3d :: quote value)

/-- `_make_url`. -/
def makeUrl (libraries : Libraries) (baseUrl path : Bytes) (query : Option (List (Bytes × Bytes))) :
    Option Bytes :=
  (urlsplit libraries baseUrl).map fun parts =>
    urlunsplit ⟨parts.scheme, parts.netloc, path, urlencode (query.getD []), []⟩

/-! ## Encryption -/

/-- What is raised: an error of the SDK, or another exception. -/
inductive Raised where
  | swm (error : Error)
  | other
  deriving DecidableEq

/-- An error of the SDK with a text, without a status and a code. -/
def raised (kind : ErrorKind) (message : String) : Raised :=
  .swm { kind := kind, statusCode := 0, serviceCode := [], message := ascii message }

/-- `base64url_decode`. -/
def base64urlDecode (libraries : Libraries) (value : Bytes) : Except Raised Bytes :=
  let normalized := (strip value).map fun b =>
    if b = 0x2d then 0x2b else if b = 0x5f then 0x2f else b
  let padding := List.replicate ((4 - normalized.length % 4) % 4) 0x3d
  match libraries.b64decode (normalized ++ padding) with
  | some bytes => .ok bytes
  | none => .error (raised .cryptographic "invalid base64url value")

/-- `decode_key_material`. -/
def decodeKeyMaterial (libraries : Libraries) (value : Bytes) : Except Raised Bytes :=
  let value := strip value
  if value = [] then .error (raised .cryptographic "key material is empty")
  else
    match if value.length % 2 = 0 then libraries.fromHex value else none with
    | some bytes => .ok bytes
    | none =>
        match libraries.b64decode value with
        | some bytes => .ok bytes
        | none => base64urlDecode libraries value

/-- The name of the scheme. -/
def bodyEncryptionLabel : Bytes := ascii "swm-body-x25519-aes-gcm-v1"

/-- `"\n".join`. -/
def joinLines (lines : List Bytes) : Bytes := [newline].intercalate lines

/-- `build_body_encryption_aad`. -/
def buildBodyEncryptionAad (libraries : Libraries) (method path query : Bytes) (timestamp : Int)
    (nonce appId releaseId releaseVersion : Bytes) (releaseVersionCode : Option Int)
    (onlineKeyId : Bytes) : Bytes :=
  joinLines [bodyEncryptionLabel, libraries.upper method, path, query, [], decimal timestamp, nonce,
    appId, ascii "client_release_id:" ++ releaseId, ascii "client_version:" ++ releaseVersion,
    ascii "client_version_code:" ++ (releaseVersionCode.map decimal).getD [],
    ascii "authz_capability:v3", ascii "body_enc:x25519-aes-gcm-v1",
    ascii "key_id:" ++ onlineKeyId]

/-- An encrypted body, and the associated data it was encrypted under. -/
structure EncryptedBody where
  text : Bytes
  aad : Bytes

/-- What a failed key conversion raises. -/
def ofConversion {α : Type} : Except ConversionFault α → Except Raised α
  | .ok a => .ok a
  | .error (.cryptographic message) =>
      .error (.swm
        { kind := .cryptographic, statusCode := 0, serviceCode := [], message := message })
  | .error .runtime => .error .other

/-- `encrypt_request_body`. -/
def encryptRequestBody (crypto : Crypto) (libraries : Libraries) (method path query : Bytes)
    (timestamp : Int) (nonce appId releaseId releaseVersion : Bytes)
    (releaseVersionCode : Option Int) (onlineKeyId onlinePublicKey plaintext : Bytes) :
    Except Raised EncryptedBody := do
  let edKey ← decodeKeyMaterial libraries onlinePublicKey
  if edKey.length ≠ 32 then
    .error (raised .cryptographic "online authorization key must be a 32-byte Ed25519 key")
  else do
    let serverPublic ← ofConversion (ed25519PublicKeyToX25519 edKey)
    let ephemeralPublic := libraries.publicOf libraries.ephemeralPrivate
    match libraries.exchange libraries.ephemeralPrivate serverPublic with
    | none => .error .other
    | some shared =>
        let context := joinLines [bodyEncryptionLabel, ascii "app_id:" ++ appId,
          ascii "release_id:" ++ releaseId, ascii "key_id:" ++ onlineKeyId,
          ascii "public_key:" ++ hex edKey]
        let info := context ++ ascii "\nephemeral_public:" ++ Base64Url.encode ephemeralPublic
        let requestKey := libraries.hkdf (crypto.sha256 context) info shared
        let aad := buildBodyEncryptionAad libraries method path query timestamp nonce appId
          releaseId releaseVersion releaseVersionCode onlineKeyId
        .ok ⟨ephemeralPublic ++ libraries.aesNonce ++
          libraries.aesGcm requestKey libraries.aesNonce plaintext aad, aad⟩

/-! ## Proofs of possession -/

/-- A unit of a text as `json.dumps` writes it. -/
def dumpsUnit (u : UInt16) : Bytes :=
  if u < 0x7f then JsonWrite.escape false u.toUInt8
  else [0x5c, 0x75, digit (u.toNat / 4096), digit (u.toNat / 256 % 16), digit (u.toNat / 16 % 16),
    digit (u.toNat % 16)]
where
  digit (n : Nat) : UInt8 := JsonWrite.controlDigit false n

/-- `json.dumps` of a text, with every character beyond ASCII escaped. -/
def dumpsText (value : Bytes) : Bytes :=
  0x22 :: ((CSharp.getString value).flatMap dumpsUnit ++ [0x22])

/-- `json.dumps` of a flat object, with the separators `,` and `:`. -/
def dumps (fields : List (Bytes × JsonWrite.Scalar)) : Bytes :=
  0x7b :: ((ascii ",").intercalate (fields.map fun (key, value) =>
    dumpsText key ++ 0x3a :: (match value with
      | .text text => dumpsText text
      | .number n => decimal n)) ++ [0x7d])

/-- What the client draws and asks the device for in one attempt. -/
structure AttemptPlatform where
  /-- `int(time.time())`. -/
  wallSeconds : Int
  /-- `random_uuid()` for the request and for the proof. -/
  nonce : Bytes
  jti : Bytes
  /-- `_ensure_identity` and `sign_digest`. -/
  identityLoads : Except Raised Unit
  signDigest : Bytes → Except Raised Bytes

/-- `_create_dpop`. -/
def createDpop (crypto : Crypto) (libraries : Libraries) (platform : AttemptPlatform)
    (pipeline : Pipeline) (method url session body : Bytes) : Except Raised Bytes := do
  platform.identityLoads
  if pipeline.now ≤ 0 then .error (raised .clock "trusted time is unavailable")
  else do
    let payload := { pipeline.dpopPayload crypto [] (libraries.upper method) url session body with
      jti := platform.jti }
    let input := Base64Url.encode (dumps (dpopHeader pipeline.deviceKeyId)) ++
      0x2e :: Base64Url.encode (dumps payload.fields)
    let signature ← platform.signDigest (crypto.sha256 input)
    .ok (input ++ 0x2e :: Base64Url.encode signature)

/-! ## The attempt -/

/-- `ProtocolRequest`, as `_send_attempt` reads it. -/
structure ProtocolRequest where
  method : Bytes
  path : Bytes
  body : Bytes
  query : Option (List (Bytes × Bytes))
  encryptBody : Bool
  requireSession : Bool
  requireTrustedTime : Bool
  requireOnlineKey : Bool
  contentType : Option Bytes

/-- `_ensure_session`, which clears a session that has expired. -/
def ensureSession (pipeline : Pipeline) : Except Raised Bytes × Pipeline :=
  if pipeline.session.getD [] = [] ∨ pipeline.sessionExpiresAt ≤ pipeline.now then
    (.error (raised .session "authorization session is missing or expired"),
      { pipeline with session := none, sessionExpiresAt := 0 })
  else (.ok (pipeline.session.getD []), pipeline)

/-- `_get_current_key`. -/
def getCurrentKey (pipeline : Pipeline) : Except Raised ProtocolKey :=
  match pipeline.ring.currentKey with
  | none => .error (raised .session "online authorization key is unavailable")
  | some key =>
      if pipeline.clockInitialized ∧ key.refreshAfter ≤ pipeline.now then
        .error (raised .session "online authorization key has expired")
      else .ok key

/-- `str(self.options.version_code or "")`. -/
def versionCodeText (versionCode : Option Int) : Bytes :=
  ((versionCode.filter (· ≠ 0)).map decimal).getD []

/-- A request that is handed to the HTTP client, and its body as it was encrypted. -/
structure SentRequest where
  http : HttpRequest
  encrypted : Option EncryptedBody

/-- The headers that every request has. -/
def baseHeaders (pipeline : Pipeline) (timestamp nonce : Bytes) : List (Bytes × Bytes) := [
  (ascii "X-App-Id", pipeline.appId),
  (ascii "X-Timestamp", timestamp),
  (ascii "X-Nonce", nonce),
  (ascii "X-Authz-Capability", ascii "v3"),
  (ascii "X-Client-Release-Id", pipeline.releaseId),
  (ascii "X-Client-Version", pipeline.version),
  (ascii "X-Client-Version-Code", versionCodeText pipeline.versionCode)]

/-- The value, or the exception that is raised instead. -/
def orRaise {α : Type} (result : Option α) : Except Raised α :=
  match result with
  | some a => .ok a
  | none => .error .other

section Attempt
variable (crypto : Crypto) (libraries : Libraries) (platform : AttemptPlatform)

/-- The headers and the body under the online key. -/
def protectBody (pipeline : Pipeline) (request : ProtocolRequest) (url timestamp session : Bytes) :
    Except Raised (List (Bytes × Bytes) × Option EncryptedBody) := do
  let key ← getCurrentKey pipeline
  let proof ← createDpop crypto libraries platform pipeline request.method url session request.body
  if request.encryptBody then do
    let parsed ← orRaise (urlsplit libraries url)
    let query ← orRaise (canonicalQuery libraries url)
    let seconds ← orRaise (parseInt timestamp)
    let encrypted ← encryptRequestBody crypto libraries request.method parsed.path query seconds
      platform.nonce pipeline.appId pipeline.releaseId pipeline.version pipeline.versionCode
      key.keyId key.publicKey request.body
    .ok ([(ascii "X-SWM-DPoP", proof), (ascii "X-SWM-Body-Enc", ascii "x25519-aes-gcm-v1"),
      (ascii "X-SWM-Online-Key-Id", key.keyId)], some encrypted)
  else .ok ([(ascii "X-SWM-DPoP", proof)], none)

/-- The headers and the body for a request that may need the online key. -/
def onlineKeyPart (pipeline : Pipeline) (request : ProtocolRequest)
    (url timestamp session : Bytes) :
    Except Raised (List (Bytes × Bytes) × Option EncryptedBody) :=
  if request.requireOnlineKey then
    protectBody crypto libraries platform pipeline request url timestamp session
  else .ok ([], none)

/-- The header for the type of a body that is sent. -/
def contentTypeHeader (contentType : Option Bytes) (body : Bytes) : List (Bytes × Bytes) :=
  match contentType.filter (· ≠ []) with
  | some type => [(ascii "Content-Type", type)]
  | none =>
      if body ≠ [] then [(ascii "Content-Type", ascii "application/json; charset=utf-8")] else []

/-- `_send_attempt` up to the call of the HTTP client. -/
def sendAttempt (pipeline : Pipeline) (request : ProtocolRequest) :
    Except Raised SentRequest × Pipeline :=
  match orRaise (makeUrl libraries pipeline.baseUrl request.path request.query) with
  | .error e => (.error e, pipeline)
  | .ok url =>
      let timestamp := decimal
        (if request.requireTrustedTime then pipeline.now else platform.wallSeconds)
      let (session, pipeline) :=
        if request.requireSession then ensureSession pipeline else (.ok [], pipeline)
      let result := do
        let session ← session
        let (extra, encrypted) ←
          onlineKeyPart crypto libraries platform pipeline request url timestamp session
        let body := (encrypted.map EncryptedBody.text).getD request.body
        .ok ⟨⟨request.method, url, baseHeaders pipeline timestamp platform.nonce ++
          (if request.requireSession then [(ascii "X-SWM-Session", session)] else []) ++ extra ++
          contentTypeHeader request.contentType body, body⟩, encrypted⟩
      (result, pipeline)

end Attempt

/-- The version code that a header says. -/
def receivedVersionCode (text : Bytes) : Option (Option Int) :=
  if text = [] then some none else (parseInt text).map some

/-- The associated data for a request as it is received. -/
def receivedAad (libraries : Libraries) (http : HttpRequest) : Option Bytes := do
  let parsed ← urlsplit libraries http.url
  let query ← canonicalQuery libraries http.url
  let timestamp ← (http.header "X-Timestamp").bind parseInt
  let nonce ← http.header "X-Nonce"
  let appId ← http.header "X-App-Id"
  let releaseId ← http.header "X-Client-Release-Id"
  let version ← http.header "X-Client-Version"
  let versionCode ← (http.header "X-Client-Version-Code").bind receivedVersionCode
  let keyId ← http.header "X-SWM-Online-Key-Id"
  some (buildBodyEncryptionAad libraries http.method parsed.path query timestamp nonce appId
    releaseId version versionCode keyId)

/-! ## Numbers are read back -/

/-- No space begins with such a byte. -/
theorem stripFront_visible {spaces : List Bytes}
    (hspaces : spaces.all (fun space => space.head?.any fun b => b ≤ 0x20 || 0x80 ≤ b) = true)
    {text : Bytes} (htext : ∀ b ∈ text, 0x20 < b ∧ b < 0x80) (fuel : Nat) :
    stripFront spaces fuel text = text := by
  cases fuel with
  | zero => rfl
  | succ fuel =>
    have hnone : spaces.find? (· <+: text) = none := by
      rw [List.find?_eq_none]
      intro space hspace hfront
      have hhead := List.all_eq_true.mp hspaces space hspace
      cases space with
      | nil => exact absurd hhead Bool.false_ne_true
      | cons b space =>
        obtain ⟨hlow, hhigh⟩ := htext b ((of_decide_eq_true hfront).subset (List.mem_cons_self ..))
        simp only [List.head?_cons, Option.any_some, Bool.or_eq_true, decide_eq_true_eq] at hhead
        rcases hhead with hblank | hwide
        · exact absurd hlow (UInt8.not_lt.mpr hblank)
        · exact absurd hhigh (UInt8.not_lt.mpr hwide)
    rw [stripFront, hnone]

theorem strip_visible {text : Bytes} (htext : ∀ b ∈ text, 0x20 < b ∧ b < 0x80) :
    strip text = text := by
  have hreverse : ∀ b ∈ text.reverse, 0x20 < b ∧ b < 0x80 :=
    fun b hb => htext b (List.mem_reverse.mp hb)
  rw [strip, stripFront_visible rfl htext, stripFront_visible rfl hreverse, List.reverse_reverse]

theorem parseDigits_decimalNat (n : Nat) : parseDigits (decimalNat n) = some n := by
  have hunderscore : (0x5f : UInt8) ∉ decimalNat n :=
    fun hmem => absurd (digit_of_mem_decimalNat hmem).2 (by decide)
  obtain ⟨b, rest, hcons, -⟩ := Numeral.decimalNat_cons n
  have hne : ¬ [] ∈ [decimalNat n] := by
    rw [hcons, List.mem_singleton]
    exact (List.cons_ne_nil b rest).symm
  have hvalue := Numeral.ascii_writes.digitsValue_decimalNat n
  rw [List.map_id] at hvalue
  rw [parseDigits, List.splitOn_eq_singleton hunderscore, if_neg hne, List.flatten_singleton,
    hvalue]

theorem visible_of_digit {b : UInt8} (h : 48 ≤ b.toNat ∧ b.toNat ≤ 57) : 0x20 < b ∧ b < 0x80 := by
  rw [UInt8.lt_iff_toNat_lt, UInt8.lt_iff_toNat_lt]
  have hspace : (0x20 : UInt8).toNat = 32 := rfl
  have hwide : (0x80 : UInt8).toNat = 128 := rfl
  omega

/-- **A numeral that was written is read.** -/
theorem parseInt_decimal (n : Int) : parseInt (decimal n) = some n := by
  have hvisible : ∀ (m : Nat), ∀ b ∈ decimalNat m, 0x20 < b ∧ b < 0x80 :=
    fun m b hb => visible_of_digit (digit_of_mem_decimalNat hb)
  cases n with
  | ofNat n =>
    have hdecimal : decimal (.ofNat n) = decimalNat n := rfl
    obtain ⟨b, rest, hcons, hlow, hhigh⟩ := Numeral.decimalNat_cons n
    have hplus : b ≠ 0x2b := by
      rintro rfl
      exact absurd hlow (by decide)
    have hminus : b ≠ 0x2d := by
      rintro rfl
      exact absurd hlow (by decide)
    rw [parseInt, hdecimal, strip_visible (hvisible n), hcons]
    dsimp only
    rw [if_neg hplus, if_neg hminus, ← hcons, parseDigits_decimalNat]
    rfl
  | negSucc n =>
    have hdecimal : decimal (.negSucc n) = 0x2d :: decimalNat (n + 1) := rfl
    have hall : ∀ b ∈ 0x2d :: decimalNat (n + 1), 0x20 < b ∧ b < 0x80 :=
      List.forall_mem_cons.mpr ⟨by decide, hvisible (n + 1)⟩
    rw [parseInt, hdecimal, strip_visible hall]
    dsimp only
    rw [if_neg (by decide), if_pos rfl, parseDigits_decimalNat]
    rfl

/-- The text of a version code says it, unless it is zero. -/
theorem receivedVersionCode_text (versionCode : Option Int) :
    receivedVersionCode (versionCodeText versionCode) = some (versionCode.filter (· ≠ 0)) := by
  unfold receivedVersionCode versionCodeText
  cases versionCode.filter (· ≠ 0) with
  | none => rfl
  | some code =>
    rw [Option.map_some, Option.getD_some, if_neg (decimal_ne_nil code), parseInt_decimal]
    rfl

/-! ## What is sent -/

section Attempt
variable {crypto : Crypto} {libraries : Libraries} {platform : AttemptPlatform}
variable {pipeline : Pipeline} {request : ProtocolRequest} {sent : SentRequest}

/-- The associated data for the values of a pipeline. -/
def pipelineAad (libraries : Libraries) (pipeline : Pipeline) (method : Bytes) (parsed : SplitUrl)
    (query : Bytes) (timestamp : Int) (nonce : Bytes) (versionCode : Option Int) (keyId : Bytes) :
    Bytes :=
  buildBodyEncryptionAad libraries method parsed.path query timestamp nonce pipeline.appId
    pipeline.releaseId pipeline.version versionCode keyId

theorem orRaise_eq_ok {α : Type} {result : Option α} {a : α} :
    orRaise result = .ok a ↔ result = some a := by
  cases result with
  | none => exact iff_of_false (fun h => nomatch h) (fun h => nomatch h)
  | some b => exact ⟨fun h => congrArg some (Except.ok.inj h), fun h => by rw [h]; rfl⟩

theorem encryptRequestBody_aad {method path query nonce appId releaseId version keyId publicKey
    plaintext : Bytes} {timestamp : Int} {versionCode : Option Int} {body : EncryptedBody}
    (h : encryptRequestBody crypto libraries method path query timestamp nonce appId releaseId
      version versionCode keyId publicKey plaintext = .ok body) :
    body.aad = buildBodyEncryptionAad libraries method path query timestamp nonce appId releaseId
      version versionCode keyId := by
  unfold encryptRequestBody at h
  obtain ⟨edKey, -, h⟩ := bind_eq_ok.mp h
  obtain ⟨-, h⟩ := guard_eq_ok.mp h
  obtain ⟨serverPublic, -, h⟩ := bind_eq_ok.mp h
  dsimp only at h
  split at h
  · cases h
  · rw [← Except.ok.inj h]

theorem protectBody_ok {url timestamp session : Bytes} {extra : List (Bytes × Bytes)}
    {encrypted : Option EncryptedBody} (hencrypt : request.encryptBody = true)
    (h : protectBody crypto libraries platform pipeline request url timestamp session =
      .ok (extra, encrypted)) :
    ∃ parsed query seconds body keyId proof, urlsplit libraries url = some parsed ∧
      canonicalQuery libraries url = some query ∧ parseInt timestamp = some seconds ∧
      encrypted = some body ∧ body.aad = pipelineAad libraries pipeline request.method parsed query
        seconds platform.nonce pipeline.versionCode keyId ∧
      extra = [(ascii "X-SWM-DPoP", proof),
        (ascii "X-SWM-Body-Enc", ascii "x25519-aes-gcm-v1"),
        (ascii "X-SWM-Online-Key-Id", keyId)] := by
  unfold protectBody at h
  obtain ⟨key, -, h⟩ := bind_eq_ok.mp h
  obtain ⟨proof, -, h⟩ := bind_eq_ok.mp h
  rw [if_pos hencrypt] at h
  obtain ⟨parsed, hparsed, h⟩ := bind_eq_ok.mp h
  obtain ⟨query, hquery, h⟩ := bind_eq_ok.mp h
  obtain ⟨seconds, hseconds, h⟩ := bind_eq_ok.mp h
  obtain ⟨body, hbody, h⟩ := bind_eq_ok.mp h
  obtain ⟨rfl, rfl⟩ := Prod.mk.inj (Except.ok.inj h)
  exact ⟨parsed, query, seconds, body, key.keyId, proof, orRaise_eq_ok.mp hparsed,
    orRaise_eq_ok.mp hquery, orRaise_eq_ok.mp hseconds, rfl, encryptRequestBody_aad hbody, rfl⟩

theorem ensureSession_ok {session : Bytes} (h : (ensureSession pipeline).1 = .ok session) :
    (ensureSession pipeline).2 = pipeline := by
  unfold ensureSession at h ⊢
  split
  · next hmissing =>
    rw [if_pos hmissing] at h
    cases h
  · rfl

/-- The request with an encrypted body. -/
def encryptedRequest (pipeline : Pipeline) (request : ProtocolRequest)
    (platform : AttemptPlatform) (url session proof keyId : Bytes) (timestamp : Int)
    (body : EncryptedBody) : HttpRequest where
  method := request.method
  url := url
  headers := baseHeaders pipeline (decimal timestamp) platform.nonce ++
    (if request.requireSession then [(ascii "X-SWM-Session", session)] else []) ++
    [(ascii "X-SWM-DPoP", proof), (ascii "X-SWM-Body-Enc", ascii "x25519-aes-gcm-v1"),
      (ascii "X-SWM-Online-Key-Id", keyId)] ++ contentTypeHeader request.contentType body.text
  body := body.text

/-- **What an attempt with an encrypted body sends.** -/
theorem sendAttempt_ok (hencrypt : request.encryptBody = true)
    (hkey : request.requireOnlineKey = true)
    (h : (sendAttempt crypto libraries platform pipeline request).1 = .ok sent) :
    ∃ url parsed query timestamp session proof keyId body, urlsplit libraries url = some parsed ∧
      canonicalQuery libraries url = some query ∧ sent.encrypted = some body ∧
      sent.http = encryptedRequest pipeline request platform url session proof keyId timestamp
        body ∧
      body.aad = pipelineAad libraries pipeline request.method parsed query timestamp
        platform.nonce pipeline.versionCode keyId := by
  unfold sendAttempt at h
  split at h
  · cases h
  · next url _ =>
    obtain ⟨session, hsession, h⟩ := bind_eq_ok.mp h
    have hsame : (if request.requireSession = true then ensureSession pipeline
        else (.ok [], pipeline)).2 = pipeline := by
      split at hsession
      · next hrequire => rw [if_pos hrequire, ensureSession_ok hsession]
      · next hrequire => rw [if_neg hrequire]
    obtain ⟨⟨extra, encrypted⟩, hprotect, h⟩ := bind_eq_ok.mp h
    rw [onlineKeyPart, if_pos hkey, hsame] at hprotect
    obtain ⟨parsed, query, seconds, body, keyId, proof, hparsed, hquery, hseconds, rfl, haad,
      rfl⟩ := protectBody_ok hencrypt hprotect
    rw [parseInt_decimal] at hseconds
    obtain rfl := Option.some.inj hseconds
    rw [← Except.ok.inj h, hsame]
    exact ⟨url, parsed, query, _, session, proof, keyId, body, hparsed, hquery, rfl, rfl, haad⟩

/-- What the server puts together for such a request. -/
theorem receivedAad_encrypted {url session proof keyId query : Bytes} {timestamp : Int}
    {body : EncryptedBody} {parsed : SplitUrl} (hparsed : urlsplit libraries url = some parsed)
    (hquery : canonicalQuery libraries url = some query) :
    receivedAad libraries (encryptedRequest pipeline request platform url session proof keyId
        timestamp body) =
      some (pipelineAad libraries pipeline request.method parsed query timestamp platform.nonce
        (pipeline.versionCode.filter (· ≠ 0)) keyId) := by
  have hkeyId : (encryptedRequest pipeline request platform url session proof keyId timestamp
      body).header "X-SWM-Online-Key-Id" = some keyId := by
    unfold encryptedRequest
    cases request.requireSession with
    | true => rfl
    | false => rfl
  have htime : (encryptedRequest pipeline request platform url session proof keyId timestamp
      body).header "X-Timestamp" = some (decimal timestamp) := rfl
  have hnonce : (encryptedRequest pipeline request platform url session proof keyId timestamp
      body).header "X-Nonce" = some platform.nonce := rfl
  have happ : (encryptedRequest pipeline request platform url session proof keyId timestamp
      body).header "X-App-Id" = some pipeline.appId := rfl
  have hrelease : (encryptedRequest pipeline request platform url session proof keyId timestamp
      body).header "X-Client-Release-Id" = some pipeline.releaseId := rfl
  have hversion : (encryptedRequest pipeline request platform url session proof keyId timestamp
      body).header "X-Client-Version" = some pipeline.version := rfl
  have hcode : (encryptedRequest pipeline request platform url session proof keyId timestamp
      body).header "X-Client-Version-Code" = some (versionCodeText pipeline.versionCode) := rfl
  have hurl : (encryptedRequest pipeline request platform url session proof keyId timestamp
      body).url = url := rfl
  simp only [receivedAad, hurl, hparsed, hquery, htime, hnonce, happ, hrelease, hversion, hcode,
    hkeyId, parseInt_decimal, receivedVersionCode_text, Option.bind_eq_bind, Option.bind_some]
  rfl

/-- Texts that differ in the length of one line. -/
theorem joinLines_ne (before : List Bytes) {after : List Bytes} {first second : Bytes}
    (h : first.length ≠ second.length) :
    joinLines (before ++ first :: after) ≠ joinLines (before ++ second :: after) := by
  induction before with
  | nil =>
    intro heq
    have hlength := congrArg List.length heq
    cases after with
    | nil =>
      rw [List.nil_append, List.nil_append, joinLines, joinLines, List.intercalate_singleton,
        List.intercalate_singleton] at hlength
      exact h hlength
    | cons line after =>
      rw [List.nil_append, List.nil_append, joinLines, joinLines, List.intercalate_cons_cons,
        List.intercalate_cons_cons, List.length_append, List.length_append, List.length_append,
        List.length_append] at hlength
      omega
  | cons line before ih =>
    have hcons : ∀ text, joinLines (line :: before ++ text :: after) =
        line ++ [newline] ++ joinLines (before ++ text :: after) := fun text =>
      List.intercalate_cons_of_ne_nil (List.append_ne_nil_of_right_ne_nil _ (List.cons_ne_nil _ _))
    rw [hcons, hcons]
    exact fun heq => ih (List.append_cancel_left heq)

/-- A code that is zero is told from a missing one. -/
theorem pipelineAad_zero_ne {parsed : SplitUrl} {method query nonce keyId : Bytes}
    {timestamp : Int} :
    pipelineAad libraries pipeline method parsed query timestamp nonce (some 0) keyId ≠
      pipelineAad libraries pipeline method parsed query timestamp nonce
        ((some 0 : Option Int).filter (· ≠ 0)) keyId := by
  have hlength : (ascii "client_version_code:" ++ decimal 0).length ≠
      (ascii "client_version_code:" ++ []).length := by decide
  exact joinLines_ne [bodyEncryptionLabel, libraries.upper method, parsed.path, query, [],
    decimal timestamp, nonce, pipeline.appId, ascii "client_release_id:" ++ pipeline.releaseId,
    ascii "client_version:" ++ pipeline.version] hlength

/-- The server puts together the associated data of the body from what it receives. -/
def Recoverable (libraries : Libraries) (sent : SentRequest) : Prop :=
  ∃ body, sent.encrypted = some body ∧ sent.http.body = body.text ∧
    receivedAad libraries sent.http = some body.aad

/-- The version code is what may be lost. -/
theorem recoverable_iff_aad (hencrypt : request.encryptBody = true)
    (hkey : request.requireOnlineKey = true)
    (h : (sendAttempt crypto libraries platform pipeline request).1 = .ok sent) :
    ∃ parsed query timestamp keyId, Recoverable libraries sent ↔
      pipelineAad libraries pipeline request.method parsed query timestamp platform.nonce
          (pipeline.versionCode.filter (· ≠ 0)) keyId =
        pipelineAad libraries pipeline request.method parsed query timestamp platform.nonce
          pipeline.versionCode keyId := by
  obtain ⟨url, parsed, query, timestamp, session, proof, keyId, body, hparsed, hquery, hbody,
    hhttp, haad⟩ := sendAttempt_ok hencrypt hkey h
  have hreceived : receivedAad libraries sent.http = some (pipelineAad libraries pipeline
      request.method parsed query timestamp platform.nonce
      (pipeline.versionCode.filter (· ≠ 0)) keyId) := by
    rw [hhttp]
    exact receivedAad_encrypted hparsed hquery
  refine ⟨parsed, query, timestamp, keyId, ?_⟩
  rw [Recoverable, hreceived, hbody, ← haad]
  constructor
  · rintro ⟨received, hsome, -, hsame⟩
    rw [Option.some.inj hsome]
    exact Option.some.inj hsame
  · exact fun hsame => ⟨body, rfl, by rw [hhttp]; rfl, congrArg some hsame⟩

theorem not_recoverable_zero (hencrypt : request.encryptBody = true)
    (hkey : request.requireOnlineKey = true)
    (h : (sendAttempt crypto libraries platform pipeline request).1 = .ok sent)
    (hzero : pipeline.versionCode = some 0) : ¬ Recoverable libraries sent := by
  obtain ⟨parsed, query, timestamp, keyId, hiff⟩ := recoverable_iff_aad hencrypt hkey h
  rw [hiff, hzero]
  exact pipelineAad_zero_ne.symm

/-- **An encrypted request can be answered** exactly if its version code is not zero. -/
theorem recoverable_iff (hencrypt : request.encryptBody = true)
    (hkey : request.requireOnlineKey = true)
    (h : (sendAttempt crypto libraries platform pipeline request).1 = .ok sent) :
    Recoverable libraries sent ↔ pipeline.versionCode ≠ some 0 := by
  constructor
  · exact fun hrecoverable hzero => not_recoverable_zero hencrypt hkey h hzero hrecoverable
  · intro hne
    obtain ⟨parsed, query, timestamp, keyId, hiff⟩ := recoverable_iff_aad hencrypt hkey h
    have hfilter : pipeline.versionCode.filter (· ≠ 0) = pipeline.versionCode := by
      cases hcode : pipeline.versionCode with
      | none => rfl
      | some code =>
        exact Option.filter_some_pos (decide_eq_true fun hzero => hne (by rw [hcode, hzero]))
    rw [hiff, hfilter]

end Attempt

/-- Libraries that check and encrypt nothing. -/
def plainLibraries : Libraries where
  upper := id
  netlocValid _ := true
  b64decode _ := none
  fromHex := unhex
  ephemeralPrivate := List.replicate 32 1
  publicOf := id
  exchange _ shared := some shared
  hkdf _ _ key := key
  aesNonce := List.replicate 12 0
  aesGcm _ _ plaintext _ := plaintext

/-- The clock and the random values of the sample attempt. -/
def sampleAttempt : AttemptPlatform where
  wallSeconds := 1
  nonce := ascii "n"
  jti := ascii "j"
  identityLoads := .ok ()
  signDigest _ := .ok []

/-- A pipeline with a version code and an online key. -/
def versionPipeline (versionCode : Option Int) : Pipeline where
  baseUrl := ascii "https://swm.example"
  appId := ascii "app"
  releaseId := ascii "release"
  version := ascii "1.0"
  versionCode := versionCode
  channel := ascii "stable"
  deviceId := ascii "d"
  installId := ascii "i"
  deviceKeyId := ascii "k"
  clockInitialized := true
  now := 1
  ring := ⟨some ⟨ascii "online", hex (List.replicate 32 0), 0, 100⟩, []⟩
  session := none
  sessionExpiresAt := 0

/-- The request of `check_update`. -/
def updateCheckRequest : ProtocolRequest where
  method := ascii "POST"
  path := ascii "/api/client/update-check"
  body := ascii "{}"
  query := none
  encryptBody := true
  requireSession := false
  requireTrustedTime := true
  requireOnlineKey := true
  contentType := none

/-- A body is encrypted under the key whose bytes are zero. -/
theorem encryptRequestBody_zeroKey (method path query nonce appId releaseId version keyId
    plaintext : Bytes) (timestamp : Int) (versionCode : Option Int) :
    ∃ body, encryptRequestBody (listedCrypto [] []) plainLibraries method path query timestamp nonce
      appId releaseId version versionCode keyId (hex (List.replicate 32 0)) plaintext =
        .ok body := by
  have hkey : decodeKeyMaterial plainLibraries (hex (List.replicate 32 0)) =
      .ok (List.replicate 32 0) := rfl
  have hconvert := Python.convert_eq ⟨List.replicate 32 0, rfl⟩
  have hcoordinate : (Ed25519Key.mk (List.replicate 32 0) rfl).coordinate = 0 := rfl
  rw [hcoordinate, converted, if_neg curvePrime_prime.pos.not_ge, if_neg (by decide)] at hconvert
  exact ⟨_, bind_eq_ok.mpr ⟨_, hkey, guard_eq_ok.mpr ⟨by decide,
    bind_eq_ok.mpr ⟨_, congrArg ofConversion hconvert, rfl⟩⟩⟩⟩

/-- The address of that request, and what it is read as. -/
def updateCheckUrl : Bytes := ascii "https://swm.example/api/client/update-check"

theorem updateCheckUrl_made : makeUrl plainLibraries (ascii "https://swm.example")
    (ascii "/api/client/update-check") none = some updateCheckUrl := by decide

theorem updateCheckUrl_split : urlsplit plainLibraries updateCheckUrl =
    some ⟨ascii "https", ascii "swm.example", ascii "/api/client/update-check", [], []⟩ := by decide

theorem updateCheckUrl_query : canonicalQuery plainLibraries updateCheckUrl = some [] := by
  have hpairs : parseQsl [] = [] := by decide
  rw [canonicalQuery, updateCheckUrl_split, Option.map_some, hpairs, List.mergeSort_nil]
  rfl

theorem updateCheck_sent (versionCode : Option Int) :
    ∃ sent, (sendAttempt (listedCrypto [] []) plainLibraries sampleAttempt
      (versionPipeline versionCode) updateCheckRequest).1 = .ok sent := by
  obtain ⟨body, hbody⟩ := encryptRequestBody_zeroKey (ascii "POST")
    (ascii "/api/client/update-check") [] (ascii "n") (ascii "app") (ascii "release") (ascii "1.0")
    (ascii "online") (ascii "{}") 1 versionCode
  have hprotect : ∃ part, protectBody (listedCrypto [] []) plainLibraries sampleAttempt
      (versionPipeline versionCode) updateCheckRequest updateCheckUrl (decimal 1) [] = .ok part :=
    ⟨_, bind_eq_ok.mpr ⟨_, rfl, bind_eq_ok.mpr ⟨_, rfl,
      bind_eq_ok.mpr ⟨_, orRaise_eq_ok.mpr updateCheckUrl_split,
        bind_eq_ok.mpr ⟨_, orRaise_eq_ok.mpr updateCheckUrl_query,
          bind_eq_ok.mpr ⟨_, orRaise_eq_ok.mpr (parseInt_decimal 1),
            bind_eq_ok.mpr ⟨_, hbody, rfl⟩⟩⟩⟩⟩⟩⟩
  obtain ⟨part, hpart⟩ := hprotect
  have hurl : makeUrl plainLibraries (versionPipeline versionCode).baseUrl updateCheckRequest.path
      updateCheckRequest.query = some updateCheckUrl := updateCheckUrl_made
  rw [sendAttempt, hurl]
  exact ⟨_, bind_eq_ok.mpr ⟨_, rfl, bind_eq_ok.mpr ⟨_, hpart, rfl⟩⟩⟩

theorem recoverable_sample : ∃ sent, (sendAttempt (listedCrypto [] []) plainLibraries
      sampleAttempt (versionPipeline (some 1)) updateCheckRequest).1 = .ok sent ∧
    Recoverable plainLibraries sent := by
  obtain ⟨sent, hsent⟩ := updateCheck_sent (some 1)
  exact ⟨sent, hsent, (recoverable_iff rfl rfl hsent).mpr (by decide)⟩

/-- With the version code zero the server puts together another text. -/
theorem zero_code_lost : ∃ sent, (sendAttempt (listedCrypto [] []) plainLibraries sampleAttempt
      (versionPipeline (some 0)) updateCheckRequest).1 = .ok sent ∧
    ¬ Recoverable plainLibraries sent := by
  obtain ⟨sent, hsent⟩ := updateCheck_sent (some 0)
  exact ⟨sent, hsent, not_recoverable_zero rfl rfl hsent rfl⟩

end SwmSdk.Python
