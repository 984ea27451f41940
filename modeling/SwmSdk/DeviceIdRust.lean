import SwmSdk.DeviceIdentity
import SwmSdk.Dpop
import SwmSdk.Rim2Ports

/-! # The device id of the Rust client

`device_id` and `expected_device_id` take the configured id without the white space around it, if
anything is left, and the id of the identity otherwise.  `create_dpop` takes the configured id as it
is, and `validate_options` does not look at it.  So a proof names another device than the responses
are checked for exactly if an id is configured that is blank or not trimmed.
-/
namespace SwmSdk.Rust
open ByteText Outcome

/-! ## The options -/

/-- `Error::new`. -/
def rustError (kind : ErrorKind) (message : String) : Error where
  kind := kind
  statusCode := 0
  serviceCode := []
  message := ascii message

/-- `ClientOptions`, without what is handed to the HTTP client, the store and the provider. -/
structure ClientOptions where
  baseUrl : Bytes
  webBaseUrl : Option Bytes
  appId : Bytes
  releaseId : Bytes
  version : Bytes
  rootTrustKeyId : Bytes
  rootTrustPublicKey : Bytes
  channel : Bytes
  platform : Bytes
  arch : Bytes
  deviceId : Option Bytes
  allowInsecureHttp : Bool
  manifestPath : Bytes

/-- `str::trim`: the white space of Unicode, as in Go. -/
def trim (value : Bytes) : Bytes := Go.trimSpace value

/-- The characters of a text against their numbers: those at the marks, and hexadecimal digits. -/
def uuidDigits : Nat → Bytes → Bool
  | _, [] => true
  | index, b :: rest =>
      -- the further bytes of a character
      if 0x80 ≤ b ∧ b < 0xc0 then uuidDigits index rest
      else (index = 8 || index = 13 || index = 18 || index = 23 || (hexValue b).isSome) &&
        uuidDigits (index + 1) rest

/-- `is_uuid`. -/
def isUuid (value : Bytes) : Bool :=
  if value.length ≠ 36 ∨ value[8]? ≠ some 0x2d ∨ value[13]? ≠ some 0x2d ∨
      value[18]? ≠ some 0x2d ∨ value[23]? ≠ some 0x2d then false
  else uuidDigits 0 value

/-- The crates that parse URLs and decode base64. -/
structure Crates where
  /-- `Url::parse`, of which the scheme is read. -/
  urlScheme : Bytes → Except Error Bytes
  standardDecode : Bytes → Option Bytes
  urlSafeDecode : Bytes → Except Error Bytes

/-- `decode_key_material`. -/
def decodeKeyMaterial (crates : Crates) (value : Bytes) : Except Error Bytes :=
  let value := trim value
  if value = [] then .error (rustError .cryptographic "key material is empty")
  else
    match if value.length % 2 = 0 then unhex value else none with
    | some decoded => .ok decoded
    | none =>
        match crates.standardDecode value with
        | some decoded => .ok decoded
        | none => crates.urlSafeDecode (trim value)

/-- `validate_options`. -/
def validateOptions (crates : Crates) (options : ClientOptions) : Except Error Unit :=
  if options.appId = [] ∨ options.releaseId = [] ∨ options.version = [] ∨
      options.rootTrustKeyId = [] ∨ options.rootTrustPublicKey = [] then
    .error (rustError .configuration
      "base URL, app ID, release ID, version, and root trust material are required")
  else if ¬ isUuid options.appId ∨ ¬ isUuid options.releaseId then
    .error (rustError .configuration "app_id and release_id must be UUID values")
  else do
    let scheme ← crates.urlScheme options.baseUrl
    if scheme ≠ ascii "https" ∧ ¬ (options.allowInsecureHttp ∧ scheme = ascii "http") then
      .error (rustError .configuration "base_url must be an absolute HTTPS URL")
    else if options.platform ≠ ascii "windows" then
      .error (rustError .configuration "platform must be windows")
    else if options.arch ≠ ascii "x86" ∧ options.arch ≠ ascii "x64" then
      .error (rustError .configuration "arch must be x86 or x64")
    else do
      let key ← decodeKeyMaterial crates options.rootTrustPublicKey
      if key.length ≠ 32 then
        .error (rustError .configuration "root trust public key must be 32 bytes")
      else if options.manifestPath = [] ∨ options.manifestPath.head? = some 0x2f ∨
          0x3a ∈ options.manifestPath then
        .error (rustError .configuration "host integrity manifest path must be package-relative")
      else .ok ()

/-! ## The client -/

/-- The client, with its cell for the identity. -/
structure Client where
  options : ClientOptions
  identity : Option SwmSdk.DeviceIdentity
  closed : Bool

/-- `Client::new`, with the outcomes of the test of the platform and of what makes the HTTP client
and the store. -/
def Client.new (crates : Crates) (platform http store : Except Error Unit)
    (options : ClientOptions) : Except Error Client := do
  validateOptions crates options
  platform
  let _ ← crates.urlScheme options.baseUrl
  let _ ← crates.urlScheme (options.webBaseUrl.getD options.baseUrl)
  http
  store
  .ok ⟨options, none, false⟩

/-- The calls, each with what happens in it. -/
inductive DeviceCall where
  /-- `identity`, with the outcome of `load_or_create`. -/
  | identity (load : Except Error SwmSdk.DeviceIdentity)
  | deviceId (load : Except Error SwmSdk.DeviceIdentity)
  | expectedDeviceId (load : Except Error SwmSdk.DeviceIdentity)
  /-- `create_dpop`: whether the lock is free, the clock, `sign_digest` and `random_uuid`. -/
  | createDpop (free : Bool) (now : Int) (sign : Bytes → Except Error Bytes)
      (jti method url session body : Bytes)
  | close

/-- What the calls of a client return. -/
inductive DeviceAnswer where
  | identity (result : Except Error SwmSdk.DeviceIdentity)
  | id (result : Except Error Bytes)
  | proof (result : Except Error Bytes)
  | closed

/-- The id that is configured, without the white space around it. -/
def ClientOptions.trimmedId (options : ClientOptions) : Option Bytes :=
  (options.deviceId.map trim).filter (· ≠ [])

/-- `to_ascii_uppercase`. -/
def upperAscii (value : Bytes) : Bytes :=
  value.map fun b => if 97 ≤ b ∧ b ≤ 122 then b - 32 else b

section Calls
variable (crypto : Crypto)

namespace Client

/-- The cell, filled if it was empty. -/
def loadIdentity (load : Except Error SwmSdk.DeviceIdentity) (client : Client) :
    Except Error SwmSdk.DeviceIdentity × Client :=
  match client.identity, load with
  | some identity, _ => (.ok identity, client)
  | none, .ok identity => (.ok identity, { client with identity := some identity })
  | none, .error e => (.error e, client)

/-- `identity`. -/
def identityCall (load : Except Error SwmSdk.DeviceIdentity) (client : Client) :
    Except Error SwmSdk.DeviceIdentity × Client :=
  if client.closed then (.error (rustError .identity "client is closed"), client)
  else client.loadIdentity load

/-- The configured id, or else that of the identity. -/
def configuredOr (loaded : Except Error SwmSdk.DeviceIdentity × Client) (client : Client) :
    Except Error Bytes × Client :=
  match client.options.trimmedId with
  | some value => (.ok value, client)
  | none => (loaded.1.map (·.deviceId), loaded.2)

/-- `device_id`. -/
def deviceId (load : Except Error SwmSdk.DeviceIdentity) (client : Client) :
    Except Error Bytes × Client := client.configuredOr (client.identityCall load)

/-- `expected_device_id`. -/
def expectedDeviceId (load : Except Error SwmSdk.DeviceIdentity) (client : Client) :
    Except Error Bytes × Client := client.configuredOr (client.loadIdentity load)

/-- The payload of `create_dpop`. -/
def dpopPayload (options : ClientOptions) (identity : SwmSdk.DeviceIdentity) (now : Int)
    (jti method url session body : Bytes) : DpopPayload where
  appId := options.appId
  ath := Base64Url.encode (crypto.sha256 session)
  bodySha256 := crypto.sha256Hex body
  channel := options.channel
  deviceId := options.deviceId.getD identity.deviceId
  exp := now + 60
  htm := upperAscii method
  htu := url
  iat := now
  installId := identity.installId
  jti := jti
  pcid := options.deviceId.getD identity.deviceId
  releaseId := options.releaseId

/-- `create_dpop`. -/
def createDpop (free : Bool) (now : Int) (sign : Bytes → Except Error Bytes)
    (jti method url session body : Bytes) (client : Client) : Except Error Bytes :=
  if ¬ free then .error (rustError .identity "identity lock poisoned")
  else
    match client.identity with
    | none => .error (rustError .identity "identity is unavailable")
    | some identity =>
        if now ≤ 0 then .error (rustError .clock "trusted time is unavailable")
        else do
          let input := signingInput false (dpopHeader identity.keyId)
            (dpopPayload crypto client.options identity now jti method url session body).fields
          let signature ← sign (crypto.sha256 input)
          .ok (input ++ (dot.text ++ Base64Url.encode signature))

/-- A call, and the client it leaves. -/
def perform : DeviceCall → Client → DeviceAnswer × Client
  | .identity load, client =>
      (.identity (client.identityCall load).1, (client.identityCall load).2)
  | .deviceId load, client => (.id (client.deviceId load).1, (client.deviceId load).2)
  | .expectedDeviceId load, client =>
      (.id (client.expectedDeviceId load).1, (client.expectedDeviceId load).2)
  | .createDpop free now sign jti method url session body, client =>
      (.proof (client.createDpop crypto free now sign jti method url session body), client)
  | .close, client => (.closed, { client with closed := true })

/-- The answers of some calls, one after the other. -/
def answers : List DeviceCall → Client → List DeviceAnswer
  | [], _ => []
  | call :: calls, client =>
      (perform crypto call client).1 :: answers calls (perform crypto call client).2

end Client
end Calls

/-! ## One id -/

/-- The answers know one id, and every proof among them names it twice. -/
def OneDeviceId (answers : List DeviceAnswer) : Prop :=
  ∀ id, .id (.ok id) ∈ answers → (∀ other, .id (.ok other) ∈ answers → other = id) ∧
    ∀ token, .proof (.ok token) ∈ answers →
      ∃ payload, ProofOf false token payload ∧ payload.deviceId = id ∧ payload.pcid = id

/-- No id is configured, or one that is not empty and has no white space around it. -/
def ClientOptions.PlainId (options : ClientOptions) : Prop :=
  ∀ value ∈ options.deviceId, value ≠ [] ∧ trim value = value

/-- The identity that is loaded in a call, if one is. -/
def DeviceCall.Loads (identity : SwmSdk.DeviceIdentity) : DeviceCall → Prop
  | .identity load | .deviceId load | .expectedDeviceId load =>
      ∀ loaded, load = .ok loaded → loaded = identity
  | _ => True

theorem Client.new_eq_ok {crates : Crates} {platform http store : Except Error Unit}
    {options : ClientOptions} {client : Client}
    (h : Client.new crates platform http store options = .ok client) :
    client = ⟨options, none, false⟩ := by
  obtain ⟨-, -, h⟩ := bind_eq_ok.mp h
  obtain ⟨-, -, h⟩ := bind_eq_ok.mp h
  obtain ⟨-, -, h⟩ := bind_eq_ok.mp h
  obtain ⟨-, -, h⟩ := bind_eq_ok.mp h
  obtain ⟨-, -, h⟩ := bind_eq_ok.mp h
  obtain ⟨-, -, h⟩ := bind_eq_ok.mp h
  exact (Except.ok.inj h).symm

section Calls
variable {crypto : Crypto} {options : ClientOptions} {identity : SwmSdk.DeviceIdentity}

/-- The options are as given, and no other identity is in the cell. -/
structure Client.Holds (options : ClientOptions) (identity : SwmSdk.DeviceIdentity)
    (client : Client) : Prop where
  options : client.options = options
  identity : ∀ loaded ∈ client.identity, loaded = identity

/-- What an answer says: the trimmed id in an id, the id as it is in a proof. -/
def DeviceAnswer.Says (options : ClientOptions) (identity : SwmSdk.DeviceIdentity) :
    DeviceAnswer → Prop
  | .identity result => ∀ loaded, result = .ok loaded → loaded = identity
  | .id result => ∀ id, result = .ok id → id = options.trimmedId.getD identity.deviceId
  | .proof result => ∀ token, result = .ok token → ∃ payload, ProofOf false token payload ∧
      payload.deviceId = options.deviceId.getD identity.deviceId ∧
      payload.pcid = options.deviceId.getD identity.deviceId
  | .closed => True

theorem Client.Holds.loadIdentity {client : Client} (h : client.Holds options identity)
    {load : Except Error SwmSdk.DeviceIdentity} (hload : ∀ loaded, load = .ok loaded →
      loaded = identity) :
    (∀ loaded, (client.loadIdentity load).1 = .ok loaded → loaded = identity) ∧
      (client.loadIdentity load).2.Holds options identity := by
  obtain ⟨hoptions, hidentity⟩ := h
  unfold Client.loadIdentity
  split
  · next held hheld =>
    refine ⟨fun loaded hloaded => ?_, hoptions, hidentity⟩
    rw [← Except.ok.inj hloaded]
    exact hidentity held hheld
  · next held hnone =>
    refine ⟨fun loaded hloaded => hload loaded hloaded, hoptions, fun loaded hloaded => ?_⟩
    rw [← Option.mem_some_iff.mp hloaded]
    exact hload held rfl
  · exact ⟨fun _ hloaded => (nomatch hloaded), hoptions, hidentity⟩

theorem Client.Holds.identityCall {client : Client} (h : client.Holds options identity)
    {load : Except Error SwmSdk.DeviceIdentity} (hload : ∀ loaded, load = .ok loaded →
      loaded = identity) :
    (∀ loaded, (client.identityCall load).1 = .ok loaded → loaded = identity) ∧
      (client.identityCall load).2.Holds options identity := by
  unfold Client.identityCall
  split
  · exact ⟨fun _ hloaded => (nomatch hloaded), h⟩
  · exact h.loadIdentity hload

theorem Client.Holds.configuredOr {client : Client} (h : client.Holds options identity)
    {loaded : Except Error SwmSdk.DeviceIdentity × Client}
    (hloaded : (∀ held, loaded.1 = .ok held → held = identity) ∧ loaded.2.Holds options identity) :
    (∀ id, (client.configuredOr loaded).1 = .ok id →
      id = options.trimmedId.getD identity.deviceId) ∧
      (client.configuredOr loaded).2.Holds options identity := by
  obtain ⟨hidentity, hholds⟩ := hloaded
  unfold Client.configuredOr
  rw [h.options]
  cases options.trimmedId with
  | some value => exact ⟨fun id hid => (Except.ok.inj hid).symm, h⟩
  | none =>
    refine ⟨fun id hid => ?_, hholds⟩
    obtain ⟨held, hheld, rfl⟩ := map_eq_ok.mp hid
    rw [hidentity held hheld]
    rfl

theorem Client.Holds.createDpop {client : Client} (h : client.Holds options identity)
    {free : Bool} {now : Int} {sign : Bytes → Except Error Bytes}
    {jti method url session body token : Bytes}
    (htoken : client.createDpop crypto free now sign jti method url session body = .ok token) :
    ∃ payload, ProofOf false token payload ∧
      payload.deviceId = options.deviceId.getD identity.deviceId ∧
      payload.pcid = options.deviceId.getD identity.deviceId := by
  obtain ⟨hoptions, hidentity⟩ := h
  unfold Client.createDpop at htoken
  obtain ⟨-, htoken⟩ := guard_eq_ok.mp htoken
  split at htoken
  · cases htoken
  · next held hheld =>
    obtain ⟨-, htoken⟩ := guard_eq_ok.mp htoken
    obtain ⟨signature, -, htoken⟩ := bind_eq_ok.mp htoken
    obtain rfl := Except.ok.inj htoken
    obtain rfl := hidentity held hheld
    rw [← hoptions]
    exact ⟨_, ⟨_, signature, rfl⟩, rfl, rfl⟩

/-- **One call** says what it should and keeps the client. -/
theorem Client.Holds.perform {client : Client} (h : client.Holds options identity)
    {call : DeviceCall} (hcall : call.Loads identity) :
    (client.perform crypto call).1.Says options identity ∧
      (client.perform crypto call).2.Holds options identity := by
  cases call with
  | identity load => exact h.identityCall hcall
  | deviceId load => exact h.configuredOr (h.identityCall hcall)
  | expectedDeviceId load => exact h.configuredOr (h.loadIdentity hcall)
  | createDpop free now sign jti method url session body =>
    exact ⟨fun token htoken => h.createDpop htoken, h⟩
  | close => exact ⟨trivial, h.options, h.identity⟩

theorem Client.Holds.answers {calls : List DeviceCall} {client : Client}
    (h : client.Holds options identity) (hcalls : ∀ call ∈ calls, call.Loads identity) :
    ∀ answer ∈ client.answers crypto calls, answer.Says options identity := by
  induction calls generalizing client with
  | nil => exact fun _ hanswer => absurd hanswer List.not_mem_nil
  | cons call calls ih =>
    obtain ⟨hcall, hcalls⟩ := List.forall_mem_cons.mp hcalls
    obtain ⟨hstated, hholds⟩ := h.perform hcall
    exact List.forall_mem_cons.mpr ⟨hstated, ih hholds hcalls⟩

theorem trim_ne_nil_of_hex {text : Bytes} (hne : text ≠ [])
    (hhex : ∀ d ∈ text, (48 ≤ d ∧ d ≤ 57) ∨ (97 ≤ d ∧ d ≤ 102)) : trim text ≠ [] := by
  obtain ⟨d, rest, rfl⟩ := List.exists_cons_of_ne_nil hne
  have hvisible : Go.VisibleByte d := by
    unfold Go.VisibleByte
    rcases hhex d (List.mem_cons_self ..) with ⟨hlow, hhigh⟩ | ⟨hlow, hhigh⟩
    · exact ⟨UInt8.lt_of_lt_of_le (by decide) hlow, UInt8.lt_of_le_of_lt hhigh (by decide)⟩
    · exact ⟨UInt8.lt_of_lt_of_le (by decide) hlow, UInt8.lt_of_le_of_lt hhigh (by decide)⟩
  exact List.ne_nil_of_mem (hvisible.mem_trimSpace (List.mem_cons_self ..))

/-- The id of an identity is not blank. -/
theorem trim_deviceIdentity_ne_nil (appId installId keyName publicKey : Bytes) :
    trim (deviceIdentity crypto appId installId keyName publicKey).deviceId ≠ [] :=
  trim_ne_nil_of_hex (crypto.sha256Hex_ne_nil _) fun _ => mem_hex

/-- **The two ids are one** exactly if the configured one is plain. -/
theorem trimmedId_iff (hidentity : trim identity.deviceId ≠ []) :
    options.deviceId.getD identity.deviceId = options.trimmedId.getD identity.deviceId ↔
      options.PlainId := by
  unfold ClientOptions.trimmedId ClientOptions.PlainId
  cases options.deviceId with
  | none => exact iff_of_true rfl fun _ hvalue => nomatch hvalue
  | some value =>
    rw [Option.getD_some, Option.map_some]
    have hplain : (∀ plain ∈ some value, plain ≠ [] ∧ trim plain = plain) ↔
        value ≠ [] ∧ trim value = value := by
      simp only [Option.mem_some_iff, forall_eq']
    rw [hplain]
    by_cases hblank : trim value = []
    · -- a blank id is not that of the identity
      have hfilter : (some (trim value)).filter (· ≠ []) = none := by
        rw [hblank]
        rfl
      rw [hfilter, Option.getD_none]
      constructor
      · rintro rfl
        exact absurd hblank hidentity
      · rintro ⟨hne, htrim⟩
        exact absurd (htrim.symm.trans hblank) hne
    · have hfilter : (some (trim value)).filter (· ≠ []) = some (trim value) :=
        Option.filter_some_pos (decide_eq_true hblank)
      rw [hfilter, Option.getD_some]
      constructor
      · exact fun htrim => ⟨fun hnil => hblank (htrim.symm.trans hnil), htrim.symm⟩
      · exact fun hplain => hplain.2.symm

/-- Answers with an id and a proof agree if what they are made of does. -/
theorem oneDeviceId_iff_same {answers : List DeviceAnswer}
    (hstated : ∀ answer ∈ answers, answer.Says options identity)
    (hid : ∃ id, .id (.ok id) ∈ answers) (hproof : ∃ token, .proof (.ok token) ∈ answers) :
    OneDeviceId answers ↔
      options.deviceId.getD identity.deviceId = options.trimmedId.getD identity.deviceId := by
  obtain ⟨id, hid⟩ := hid
  obtain ⟨token, hproof⟩ := hproof
  constructor
  · intro hone
    obtain ⟨payload, hpayload, hdevice, -⟩ := (hone id hid).2 token hproof
    obtain ⟨made, hmade, hraw, -⟩ := hstated _ hproof token rfl
    obtain rfl := hmade.unique hpayload
    rw [← hraw, hdevice]
    exact hstated _ hid id rfl
  · intro hsame id hid
    obtain rfl := hstated _ hid id rfl
    refine ⟨fun other hother => hstated _ hother other rfl, fun token htoken => ?_⟩
    rw [← hsame]
    exact hstated _ htoken token rfl

/-- What the calls of a new client say. -/
theorem Client.new_says {crates : Crates} {platform http store : Except Error Unit}
    {client : Client} (hnew : Client.new crates platform http store options = .ok client)
    {calls : List DeviceCall} (hcalls : ∀ call ∈ calls, call.Loads identity) :
    ∀ answer ∈ client.answers crypto calls, answer.Says options identity := by
  obtain rfl := Client.new_eq_ok hnew
  have hholds : Client.Holds options identity ⟨options, none, false⟩ :=
    ⟨rfl, fun _ hloaded => (nomatch hloaded)⟩
  exact hholds.answers hcalls

/-- **A client has one device id** exactly if the configured one is plain: for all calls in any
order, among them one that answers with an id and one that makes a proof. -/
theorem oneDeviceId_iff {crates : Crates} {platform http store : Except Error Unit}
    {client : Client} (hnew : Client.new crates platform http store options = .ok client)
    {installId keyName publicKey : Bytes} {calls : List DeviceCall}
    (hcalls : ∀ call ∈ calls, call.Loads
      (deviceIdentity crypto options.appId installId keyName publicKey))
    (hid : ∃ id, .id (.ok id) ∈ client.answers crypto calls)
    (hproof : ∃ token, .proof (.ok token) ∈ client.answers crypto calls) :
    OneDeviceId (client.answers crypto calls) ↔ options.PlainId :=
  (oneDeviceId_iff_same (Client.new_says hnew hcalls) hid hproof).trans
    (trimmedId_iff (trim_deviceIdentity_ne_nil options.appId installId keyName publicKey))

end Calls

/-- Options with a device id. -/
def deviceOptions (deviceId : Option Bytes) : ClientOptions where
  baseUrl := ascii "https://swm.example"
  webBaseUrl := none
  appId := ascii "00000000-0000-0000-0000-000000000001"
  releaseId := ascii "00000000-0000-0000-0000-000000000002"
  version := ascii "1.0"
  rootTrustKeyId := ascii "root"
  rootTrustPublicKey := hex (List.replicate 32 0)
  channel := ascii "stable"
  platform := ascii "windows"
  arch := ascii "x64"
  deviceId := deviceId
  allowInsecureHttp := false
  manifestPath := ascii "release-integrity.v2"

/-- Library calls for which every URL is one of `https`. -/
def httpsCrates : Crates where
  urlScheme _ := .ok (ascii "https")
  standardDecode _ := none
  urlSafeDecode _ := .error (rustError .cryptographic "Invalid symbol")

/-- `Client::new`, with a device id in the options or without. -/
def newDeviceClient (deviceId : Option Bytes) : Except Error Client :=
  Client.new httpsCrates (.ok ()) (.ok ()) (.ok ()) (deviceOptions deviceId)

/-- The identity of a device whose key is empty. -/
def keylessIdentity : SwmSdk.DeviceIdentity :=
  deviceIdentity (listedCrypto [] []) (ascii "00000000-0000-0000-0000-000000000001") [] [] []

/-- The id is asked for, the identity is loaded, and a proof is made. -/
def deviceCalls : List DeviceCall :=
  [.deviceId (.ok keylessIdentity), .identity (.ok keylessIdentity),
    .createDpop true 1 (fun _ => .ok []) [] (ascii "GET") [] [] []]

theorem deviceCalls_load : ∀ call ∈ deviceCalls, call.Loads keylessIdentity := by
  have hload : ∀ loaded, (.ok keylessIdentity : Except Error SwmSdk.DeviceIdentity) = .ok loaded →
      loaded = keylessIdentity := fun _ hloaded => (Except.ok.inj hloaded).symm
  exact List.forall_mem_cons.mpr ⟨hload, List.forall_mem_cons.mpr
    ⟨hload, List.forall_mem_singleton.mpr trivial⟩⟩

theorem oneDeviceId_plain : ∃ client, newDeviceClient (some (ascii "device-1")) = .ok client ∧
    OneDeviceId (client.answers (listedCrypto [] []) deviceCalls) := by
  have hnew : newDeviceClient (some (ascii "device-1")) =
      .ok ⟨deviceOptions (some (ascii "device-1")), none, false⟩ := rfl
  have hplain : (deviceOptions (some (ascii "device-1"))).PlainId := by
    intro value hvalue
    obtain rfl := Option.mem_some_iff.mp hvalue
    decide
  exact ⟨_, hnew, (oneDeviceId_iff hnew deviceCalls_load ⟨_, .head _⟩
    ⟨_, .tail _ (.tail _ (.head _))⟩).mpr hplain⟩

/-- A blank before the configured id is in the proofs only. -/
theorem untrimmed_id_sent : ∃ client, newDeviceClient (some (ascii " device-1")) = .ok client ∧
    ¬ OneDeviceId (client.answers (listedCrypto [] []) deviceCalls) := by
  have hnew : newDeviceClient (some (ascii " device-1")) =
      .ok ⟨deviceOptions (some (ascii " device-1")), none, false⟩ := rfl
  refine ⟨_, hnew, fun hone => ?_⟩
  have hsame := (oneDeviceId_iff_same (Client.new_says hnew deviceCalls_load) ⟨_, .head _⟩
    ⟨_, .tail _ (.tail _ (.head _))⟩).mp hone
  exact absurd hsame (by decide)

end SwmSdk.Rust
