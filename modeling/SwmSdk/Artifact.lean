import SwmSdk.Authz
import SwmSdk.AuthzBinding

/-! # Signed artifacts

An update names an artifact by its digest in a manifest text.  A manifest key signs
the manifest, and the root key of the options signs the manifest key
(`root_trust_manifest_v1`).  `check_update` reads the update from a verified response and
checks both signatures, unless the update is not one to download: none is
available, it opens in a browser, or it is delivered by an external link.
-/
namespace SwmSdk
open ByteText Outcome

/-- `MaintenanceInfo`: the maintenance window that an update check or an event may carry. -/
structure MaintenanceInfo where
  enabled : Bool
  startAt : Bytes
  message : Bytes
  active : Bool
  deriving DecidableEq, Repr

/-- `UpdateInfo`, as `update_from_json` fills it: what the service says about the newest release,
with the signed manifest of its artifact.  An absent text is empty. -/
structure UpdateInfo where
  updateAvailable : Bool
  mandatory : Bool
  heartbeatIntervalSeconds : Int
  openInBrowser : Bool
  deliveryMethod : Bytes
  releaseId : Bytes
  version : Bytes
  versionCode : Option Int
  notes : Bytes
  downloadUrl : Bytes
  checksumSha256 : Bytes
  signature : Bytes
  manifestKeyId : Bytes
  manifestPublicKey : Bytes
  rootTrustKeyId : Bytes
  rootTrustSignature : Bytes
  artifactFileName : Bytes
  artifactPlatform : Bytes
  artifactArch : Bytes
  authzProtocol : Bytes
  hostIntegrityRequired : Bool
  size : Int
  rollbackAllowed : Bool
  maintenance : Option MaintenanceInfo
  deriving DecidableEq, Repr

/-- The options that updates are checked against. -/
structure TrustOptions where
  appId : Bytes
  baseUrl : Bytes
  rootTrustKeyId : Bytes
  rootTrustPublicKey : Bytes

/-- What a manifest key signs of an artifact. -/
structure ArtifactManifest where
  releaseId : Bytes
  version : Bytes
  versionCode : Option Int
  platform : Bytes
  arch : Bytes
  size : Int
  sha256 : Bytes
  keyId : Bytes

/-- The text `artifact_manifest_v1`. -/
def ArtifactManifest.text (manifest : ArtifactManifest) : Bytes :=
  ascii "artifact_manifest_v1\nrelease_id:" ++ manifest.releaseId ++
    ascii "\nrelease_version:" ++ manifest.version ++
    ascii "\nversion_code:" ++ (manifest.versionCode.map decimal).getD [] ++
    ascii "\nplatform:" ++ manifest.platform ++ ascii "\narch:" ++ manifest.arch ++
    ascii "\nsize:" ++ decimal manifest.size ++ ascii "\nsha256:" ++ manifest.sha256 ++
    ascii "\nkey_id:" ++ manifest.keyId

/-- The text `root_trust_manifest_v1`, with which the root key certifies a manifest key. -/
def TrustOptions.rootText (options : TrustOptions) (keyId publicKey : Bytes) : Bytes :=
  ascii "root_trust_manifest_v1\napp_id:" ++ options.appId ++
    ascii "\nsigner_key_id:" ++ options.rootTrustKeyId ++ ascii "\nkey_id:" ++ keyId ++
    ascii "\npublic_key:" ++ publicKey

/-- An integrity error of the client itself. -/
def artifactError (code message : String) : Error where
  kind := .integrity
  statusCode := 0
  serviceCode := ascii code
  message := ascii message

/-- A cast of doubles to `int`.  C++ fixes the result where the whole part is an `int`, and leaves
it open elsewhere. -/
structure Cpp.DoubleCast where
  toInt : Binary64 → Int
  range : ∀ x, -2 ^ 31 ≤ toInt x ∧ toInt x < 2 ^ 31
  truncates : ∀ x : Binary64, -2 ^ 31 ≤ x.truncate → x.truncate < 2 ^ 31 → toInt x = x.truncate

/-- A cast that wraps as that of an integer does. -/
def Cpp.DoubleCast.wrapping : DoubleCast where
  toInt x := Int.bmod x.truncate (2 ^ 32)
  range x := by
    have hlow := @Int.le_bmod x.truncate (2 ^ 32) (by decide)
    have hhigh := @Int.bmod_lt x.truncate (2 ^ 32) (by decide)
    omega
  truncates x hlow hhigh := Int.bmod_eq_of_le_mul_two (by omega) (by omega)

/-- One turn of an update check: the response to the request, the client while it is
verified, and the outcomes of what the turn writes. -/
structure CheckTurn (Thrown : Type) where
  response : Except Thrown ProtocolResponse
  context : AuthzContext
  note : Except Thrown Unit
  /-- `create_device_auth` for a registration challenge. -/
  deviceAuth : Except Thrown Unit
  /-- `set_host_integrity_required`. -/
  storePolicy : Except Thrown Unit
  /-- The cast that reads a version code, in C++. -/
  doubleCast : Cpp.DoubleCast := .wrapping

/-! ## C++ -/

namespace Cpp

/-- The manifest of an update. -/
def manifestOf (update : UpdateInfo) : ArtifactManifest where
  releaseId := update.releaseId
  version := update.version
  versionCode := update.versionCode
  platform := lower update.artifactPlatform
  arch := lower update.artifactArch
  size := update.size
  sha256 := lower update.checksumSha256
  keyId := update.manifestKeyId

/-- `type_name` of the JSON library, as its errors name the type of a value. -/
def typeName : Json → Bytes
  | .null => ascii "null"
  | .object _ => ascii "object"
  | .array _ => ascii "array"
  | .string _ => ascii "string"
  | .boolean _ => ascii "boolean"
  | _ => ascii "number"

/-- `optional_int`; the library throws for a value that is no number. -/
def optionalInt (cast : DoubleCast) (value : Json) (key : Bytes) : Except Failure (Option Int) :=
  match field value key with
  | none => .ok none
  | some (.unsigned n) => .ok (some (Int.bmod n (2 ^ 32)))
  | some (.integer n) => .ok (some (Int.bmod n (2 ^ 32)))
  | some (.float x) => .ok (some (cast.toInt x))
  | some (.boolean b) => .ok (some (if b then 1 else 0))
  | some other =>
      .error (.other (ascii "[json.exception.type_error.302] type must be number, but is " ++
        typeName other))

/-- `maintenance_from_json`. -/
def maintenanceFromJson (value : Json) : Except Error MaintenanceInfo := do
  let enabled ← jsonGetBool value (ascii "enabled") false
  let startAt ← jsonGetString value (ascii "start_at") false
  let message ← jsonGetString value (ascii "message") false
  let active ← jsonGetBool value (ascii "active") false
  .ok ⟨enabled, startAt, message, active⟩

/-- The maintenance of an update, if it is an object. -/
def optionalMaintenance (value : Json) : Except Error (Option MaintenanceInfo) :=
  match value.find (ascii "maintenance") with
  | some (.object members) => (maintenanceFromJson (.object members)).map some
  | _ => .ok none

/-- An error of the SDK is thrown on. -/
def lift {α : Type} (result : Except Error α) : Except Failure α :=
  match result with
  | .ok a => .ok a
  | .error e => .error (.swm e)

/-- `update_from_json`. -/
def updateFromJson (cast : DoubleCast) (value : Json) : Except Failure UpdateInfo := do
  let updateAvailable ← lift (jsonGetBool value (ascii "update_available") false)
  let mandatory ← lift (jsonGetBool value (ascii "mandatory") false)
  let heartbeat ← lift (jsonGetInt64 value (ascii "heartbeat_interval_seconds") 0)
  let openInBrowser ← lift (jsonGetBool value (ascii "open_in_browser") false)
  let deliveryMethod ← lift (jsonGetString value (ascii "delivery_method") false)
  let releaseId ← lift (jsonGetString value (ascii "release_id") false)
  let version ← lift (jsonGetString value (ascii "version") false)
  let versionCode ← optionalInt cast value (ascii "version_code")
  let notes ← lift (jsonGetString value (ascii "notes") false)
  let downloadUrl ← lift (jsonGetString value (ascii "download_url") false)
  let checksumSha256 ← lift (jsonGetString value (ascii "checksum_sha256") false)
  let signature ← lift (jsonGetString value (ascii "signature") false)
  let manifestKeyId ← lift (jsonGetString value (ascii "manifest_key_id") false)
  let manifestPublicKey ← lift (jsonGetString value (ascii "manifest_public_key") false)
  let rootTrustKeyId ← lift (jsonGetString value (ascii "root_trust_key_id") false)
  let rootTrustSignature ← lift (jsonGetString value (ascii "root_trust_signature") false)
  let artifactFileName ← lift (jsonGetString value (ascii "artifact_file_name") false)
  let artifactPlatform ← lift (jsonGetString value (ascii "artifact_platform") false)
  let artifactArch ← lift (jsonGetString value (ascii "artifact_arch") false)
  let authzProtocol ← lift (jsonGetString value (ascii "authz_protocol") false)
  let hostIntegrityRequired ← lift (jsonGetBool value (ascii "host_integrity_required") false)
  let size ← lift (jsonGetUint64 value (ascii "size") 0)
  let rollbackAllowed ← lift (jsonGetBool value (ascii "rollback_allowed") false)
  let maintenance ← lift (optionalMaintenance value)
  .ok {
    updateAvailable := updateAvailable, mandatory := mandatory
    heartbeatIntervalSeconds := Int.bmod heartbeat (2 ^ 32), openInBrowser := openInBrowser
    deliveryMethod := deliveryMethod, releaseId := releaseId, version := version
    versionCode := versionCode, notes := notes, downloadUrl := downloadUrl
    checksumSha256 := checksumSha256, signature := signature, manifestKeyId := manifestKeyId
    manifestPublicKey := manifestPublicKey, rootTrustKeyId := rootTrustKeyId
    rootTrustSignature := rootTrustSignature, artifactFileName := artifactFileName
    artifactPlatform := artifactPlatform, artifactArch := artifactArch
    authzProtocol := authzProtocol, hostIntegrityRequired := hostIntegrityRequired
    size := Int.bmod size (2 ^ 64), rollbackAllowed := rollbackAllowed
    maintenance := maintenance }

/-- The update is delivered by an external link. -/
def ExternalLink (update : UpdateInfo) : Prop :=
  lower update.deliveryMethod = ascii "external_link"

/-- A field of the manifest is missing. -/
def Incomplete (update : UpdateInfo) : Prop :=
  update.releaseId = [] ∨ update.version = [] ∨ update.downloadUrl = [] ∨
    update.artifactFileName = [] ∨ update.manifestKeyId = [] ∨ update.manifestPublicKey = [] ∨
    update.rootTrustKeyId = [] ∨ update.rootTrustSignature = [] ∨ update.signature = [] ∨
    update.checksumSha256.length ≠ 64 ∨ update.size ≤ 0

instance (update : UpdateInfo) : Decidable (ExternalLink update) := by
  unfold ExternalLink
  infer_instance

instance (update : UpdateInfo) : Decidable (Incomplete update) := by
  unfold Incomplete
  infer_instance

/-- What `verify_artifact_manifest` throws when the manifest is not signed by its own key. -/
def manifestSignatureInvalid : Error :=
  artifactError "artifact_manifest_signature_invalid" "artifact manifest signature is invalid"

/-- The signature of the manifest key over the manifest. -/
def checkManifest (crypto : Crypto) (update : UpdateInfo) : Except Error Unit := do
  let valid ← crypto.ed25519Verify update.manifestPublicKey (manifestOf update).text
    update.signature
  if ¬ valid then .error manifestSignatureInvalid else .ok ()

/-- The signature of the root key over the manifest key. -/
def checkRoot (crypto : Crypto) (options : TrustOptions) (update : UpdateInfo) :
    Except Error Unit := do
  let valid ← crypto.ed25519Verify options.rootTrustPublicKey
    (options.rootText update.manifestKeyId update.manifestPublicKey) update.rootTrustSignature
  if ¬ valid then
    .error (artifactError "artifact_root_trust_invalid"
      "artifact online key root trust signature is invalid")
  else .ok ()

/-- `verify_artifact_manifest`. -/
def verifyArtifactManifest (crypto : Crypto) (options : TrustOptions) (update : UpdateInfo) :
    Except Error Unit :=
  if ¬ update.updateAvailable ∨ update.openInBrowser ∨ ExternalLink update then .ok ()
  else if Incomplete update then
    .error (artifactError "artifact_manifest_incomplete" "signed artifact manifest is incomplete")
  else if update.rootTrustKeyId ≠ options.rootTrustKeyId then
    .error (artifactError "artifact_root_trust_mismatch"
      "artifact root trust key does not match SDK configuration")
  else do
    checkRoot crypto options update
    checkManifest crypto update

/-- `verify_download`. -/
def verifyDownload (crypto : Crypto) (update : UpdateInfo) (actualSha256 : Bytes) :
    Except Error Unit :=
  if lower actualSha256 ≠ lower update.checksumSha256 then
    .error (artifactError "artifact_checksum_mismatch"
      "downloaded artifact SHA-256 does not match")
  else checkManifest crypto update

/-- The end of `check_update`: the response is verified and read. -/
def finishCheck (crypto : Crypto) (what : Bytes → Bytes) (options : TrustOptions)
    (turn : CheckTurn Error) (response : ProtocolResponse) : Except Failure UpdateInfo := do
  let data ← lift (verifyAuthz crypto what turn.note turn.context ⟨[], 0⟩ response).1
  let update ← updateFromJson turn.doubleCast data
  lift turn.storePolicy
  lift (verifyArtifactManifest crypto options update)
  .ok update

/-- A registration challenge of the server. -/
def readChallenge (what : Bytes → Bytes) (turn : CheckTurn Error) (body : Bytes) :
    Except Error Unit := do
  let value ← parseJson what body (ascii "device registration challenge")
  let challenge ← jsonGetString value (ascii "challenge") true
  let expiresAt ← jsonGetInt64 value (ascii "expires_at") 0
  if challenge = [] ∨ expiresAt ≤ turn.context.now then
    .error (protocolError (ascii "device registration challenge is invalid"))
  else turn.deviceAuth

/-- `check_update`, with a second request after a registration challenge. -/
def checkUpdate (crypto : Crypto) (what : Bytes → Bytes) (options : TrustOptions)
    (first second : CheckTurn Error) : Except Failure UpdateInfo := do
  let response ← lift first.response
  if response.statusCode = 428 then
    lift (readChallenge what first response.body)
    let response ← lift second.response
    finishCheck crypto what options second response
  else finishCheck crypto what options first response

end Cpp

/-! ## Java -/

namespace Java

section Check
variable (J : Jackson) (locale : RootLocale)

/-- The manifest of an update. -/
def manifestOf (update : UpdateInfo) : ArtifactManifest where
  releaseId := update.releaseId
  version := update.version
  versionCode := update.versionCode
  platform := locale.toLowerCase update.artifactPlatform
  arch := locale.toLowerCase update.artifactArch
  size := update.size
  sha256 := locale.toLowerCase update.checksumSha256
  keyId := update.manifestKeyId

/-- `maintenanceFromJson`. -/
def maintenanceFromJson (value : Option J.Node) : Except Thrown (Option MaintenanceInfo) :=
  match value.filter J.isObject with
  | none => .ok none
  | some node => do
      let enabled ← boolValue J node (ascii "enabled") false
      let startAt ← text J node (ascii "start_at") false
      let message ← text J node (ascii "message") false
      let active ← boolValue J node (ascii "active") false
      .ok (some ⟨enabled, startAt, message, active⟩)

/-- `updateFromJson`.  For a value that is `null` the fields before the version code have
their defaults, and `hasNonNull` is called on it. -/
def updateFromJson (value : Option J.Node) : Except Thrown UpdateInfo :=
  match value with
  | none => .error .nullPointer
  | some value => do
      let updateAvailable ← boolValue J value (ascii "update_available") false
      let mandatory ← boolValue J value (ascii "mandatory") false
      let heartbeat ← intField J value (ascii "heartbeat_interval_seconds") 0
      let openInBrowser ← boolValue J value (ascii "open_in_browser") false
      let deliveryMethod ← text J value (ascii "delivery_method") false
      let releaseId ← text J value (ascii "release_id") false
      let version ← text J value (ascii "version") false
      let versionCode := (fieldNode J value (ascii "version_code")).map J.intValue
      let notes ← text J value (ascii "notes") false
      let downloadUrl ← text J value (ascii "download_url") false
      let checksumSha256 ← text J value (ascii "checksum_sha256") false
      let signature ← text J value (ascii "signature") false
      let manifestKeyId ← text J value (ascii "manifest_key_id") false
      let manifestPublicKey ← text J value (ascii "manifest_public_key") false
      let rootTrustKeyId ← text J value (ascii "root_trust_key_id") false
      let rootTrustSignature ← text J value (ascii "root_trust_signature") false
      let artifactFileName ← text J value (ascii "artifact_file_name") false
      let artifactPlatform ← text J value (ascii "artifact_platform") false
      let artifactArch ← text J value (ascii "artifact_arch") false
      let authzProtocol ← text J value (ascii "authz_protocol") false
      let hostIntegrityRequired ← boolValue J value (ascii "host_integrity_required") false
      let size ← longValue J value (ascii "size") 0
      let rollbackAllowed ← boolValue J value (ascii "rollback_allowed") false
      let maintenance ← maintenanceFromJson J (J.get value (ascii "maintenance"))
      .ok {
        updateAvailable := updateAvailable, mandatory := mandatory
        heartbeatIntervalSeconds := heartbeat, openInBrowser := openInBrowser
        deliveryMethod := deliveryMethod, releaseId := releaseId, version := version
        versionCode := versionCode, notes := notes, downloadUrl := downloadUrl
        checksumSha256 := checksumSha256, signature := signature, manifestKeyId := manifestKeyId
        manifestPublicKey := manifestPublicKey, rootTrustKeyId := rootTrustKeyId
        rootTrustSignature := rootTrustSignature, artifactFileName := artifactFileName
        artifactPlatform := artifactPlatform, artifactArch := artifactArch
        authzProtocol := authzProtocol, hostIntegrityRequired := hostIntegrityRequired
        size := size, rollbackAllowed := rollbackAllowed, maintenance := maintenance }

/-- The update is delivered by an external link. -/
def ExternalLink (update : UpdateInfo) : Prop :=
  equalsIgnoreCase update.deliveryMethod (ascii "external_link") = true

/-- A field of the manifest is missing. -/
def Incomplete (update : UpdateInfo) : Prop :=
  isBlank update.releaseId ∨ isBlank update.version ∨ isBlank update.downloadUrl ∨
    isBlank update.artifactFileName ∨ isBlank update.manifestKeyId ∨
    isBlank update.manifestPublicKey ∨ isBlank update.rootTrustKeyId ∨
    isBlank update.rootTrustSignature ∨ isBlank update.signature ∨
    length update.checksumSha256 ≠ 64 ∨ update.size ≤ 0

instance (update : UpdateInfo) : Decidable (ExternalLink update) := by
  unfold ExternalLink
  infer_instance

instance (update : UpdateInfo) : Decidable (Incomplete update) := by
  unfold Incomplete
  infer_instance

/-- `verifyArtifactManifest`. -/
def verifyArtifactManifest (crypto : Crypto) (options : TrustOptions) (update : UpdateInfo) :
    Except Thrown Unit :=
  if ¬ update.updateAvailable ∨ update.openInBrowser ∨ ExternalLink update then .ok ()
  else if Incomplete update then
    .error (.swm (artifactError "artifact_manifest_incomplete"
      "signed artifact manifest is incomplete"))
  else if update.rootTrustKeyId ≠ options.rootTrustKeyId then
    .error (.swm (artifactError "artifact_root_trust_mismatch"
      "artifact root trust key does not match"))
  else do
    let certified ← verifyEd25519 crypto options.rootTrustPublicKey
      (options.rootText update.manifestKeyId update.manifestPublicKey) update.rootTrustSignature
    if ¬ certified then
      .error (.swm (artifactError "artifact_root_trust_invalid"
        "artifact root trust signature is invalid"))
    else do
      let signed ← verifyEd25519 crypto update.manifestPublicKey (manifestOf locale update).text
        update.signature
      if ¬ signed then
        .error (.swm (artifactError "artifact_manifest_signature_invalid"
          "artifact manifest signature is invalid"))
      else .ok ()

/-- `verifyDownload`, on the bytes of the file. -/
def verifyDownload (crypto : Crypto) (options : TrustOptions) (update : UpdateInfo)
    (file : Bytes) : Except Thrown Unit :=
  if ¬ equalsIgnoreCase update.checksumSha256 (crypto.sha256Hex file) then
    .error (.swm (artifactError "artifact_checksum_mismatch"
      "downloaded artifact SHA-256 does not match"))
  else verifyArtifactManifest locale crypto options update

/-- The end of `checkUpdate`: the response is verified and read. -/
def finishCheck (crypto : Crypto) (options : TrustOptions) (turn : CheckTurn Thrown)
    (response : ProtocolResponse) : Except Thrown UpdateInfo := do
  let data ← (verifyAuthz J crypto turn.note turn.context ⟨[], 0⟩ response).1
  let update ← updateFromJson J data
  turn.storePolicy
  verifyArtifactManifest locale crypto options update
  .ok update

/-- A registration challenge of the server. -/
def readChallenge (turn : CheckTurn Thrown) (body : Bytes) : Except Thrown Unit := do
  let value ← parse J body (ascii "device registration challenge")
  let challenge ← text J value (ascii "challenge") true
  let expiresAt ← longValue J value (ascii "expires_at") 0
  if isBlank challenge ∨ expiresAt ≤ turn.context.now then
    .error (protocol (ascii "device registration challenge is invalid"))
  else turn.deviceAuth

/-- `checkUpdate`, with a second request after a registration challenge. -/
def checkUpdate (crypto : Crypto) (options : TrustOptions) (first second : CheckTurn Thrown) :
    Except Thrown UpdateInfo := do
  let response ← first.response
  if response.statusCode = 428 then
    readChallenge J first response.body
    let response ← second.response
    finishCheck J locale crypto options second response
  else finishCheck J locale crypto options first response

end Check
end Java
end SwmSdk
