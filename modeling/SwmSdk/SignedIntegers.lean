import SwmSdk.Download
import SwmSdk.Numeral
import SwmSdk.StoredNumbers

/-! # The integers of verified data

`authorize_operation`, `consume_operation_authorization` and `check_update` copy the integers
of the verified data into fields of narrower types.  Each copy is a cast of the number
that the data holds, so a field keeps its number exactly when the number is in the range
of the field's type (`kept_iff`).
-/
namespace SwmSdk
open ByteText Outcome Narrowing

/-- `OperationGrant`: the permission for one operation that the service grants. -/
structure OperationGrant where
  schema : Bytes
  appId : Bytes
  releaseId : Bytes
  deviceId : Bytes
  deviceKeyId : Bytes
  keyThumbprint : Bytes
  devicePublicKey : Bytes
  authzPublicKey : Bytes
  authzKeyId : Bytes
  authzRootTrustKeyId : Bytes
  authzRootTrustSignature : Bytes
  session : Bytes
  grantId : Bytes
  operation : Bytes
  planSha256 : Bytes
  stepCount : Int
  totalBytes : Int
  issuedAt : Int
  expiresAt : Int
  consumerChallenge : Bytes
  integrityManifestSha256 : Bytes
  hostExeSha256 : Bytes
  consumerModule : Bytes
  consumerModuleSha256 : Bytes

/-- `OperationConsumptionReceipt`: what the service confirms about a grant that was used. -/
structure OperationConsumptionReceipt where
  schema : Bytes
  grantId : Bytes
  operation : Bytes
  planSha256 : Bytes
  stepCount : Int
  totalBytes : Int
  consumerChallenge : Bytes
  consumedAt : Int
  expiresAt : Int
  integrityManifestSha256 : Bytes
  hostExeSha256 : Bytes
  consumerModule : Bytes
  consumerModuleSha256 : Bytes

namespace Cpp

/-- The grant that `authorize_operation` returns for verified data. -/
def grantFromJson (data : Json) : Except Error OperationGrant := do
  let schema ← jsonGetString data (ascii "schema") true
  let appId ← jsonGetString data (ascii "app_id") true
  let releaseId ← jsonGetString data (ascii "release_id") true
  let deviceId ← jsonGetString data (ascii "device_id") true
  let deviceKeyId ← jsonGetString data (ascii "device_key_id") true
  let keyThumbprint ← jsonGetString data (ascii "key_thumbprint") true
  let devicePublicKey ← jsonGetString data (ascii "device_public_key") true
  let authzPublicKey ← jsonGetString data (ascii "authz_public_key") true
  let authzKeyId ← jsonGetString data (ascii "authz_key_id") true
  let rootKeyId ← jsonGetString data (ascii "authz_root_trust_key_id") true
  let rootSignature ← jsonGetString data (ascii "authz_root_trust_signature") true
  let session ← jsonGetString data (ascii "session") true
  let grantId ← jsonGetString data (ascii "grant_id") true
  let operation ← jsonGetString data (ascii "operation") true
  let planSha256 ← jsonGetString data (ascii "plan_sha256") true
  let stepCount ← jsonGetUint64 data (ascii "step_count") 0
  let totalBytes ← jsonGetUint64 data (ascii "total_bytes") 0
  let issuedAt ← jsonGetInt64 data (ascii "issued_at") 0
  let expiresAt ← jsonGetInt64 data (ascii "expires_at") 0
  let consumerChallenge ← jsonGetString data (ascii "consumer_challenge") true
  let manifestSha256 ← jsonGetString data (ascii "integrity_manifest_sha256") false
  let hostExeSha256 ← jsonGetString data (ascii "host_exe_sha256") false
  let consumerModule ← jsonGetString data (ascii "consumer_module") true
  let moduleSha256 ← jsonGetString data (ascii "consumer_module_sha256") false
  .ok {
    schema := schema, appId := appId, releaseId := releaseId, deviceId := deviceId
    deviceKeyId := deviceKeyId, keyThumbprint := keyThumbprint
    devicePublicKey := devicePublicKey, authzPublicKey := authzPublicKey
    authzKeyId := authzKeyId, authzRootTrustKeyId := rootKeyId
    authzRootTrustSignature := rootSignature, session := session, grantId := grantId
    operation := operation, planSha256 := planSha256, stepCount := stepCount % 2 ^ 32
    totalBytes := totalBytes, issuedAt := issuedAt, expiresAt := expiresAt
    consumerChallenge := consumerChallenge, integrityManifestSha256 := manifestSha256
    hostExeSha256 := hostExeSha256, consumerModule := consumerModule
    consumerModuleSha256 := moduleSha256 }

/-- The receipt that `consume_operation_authorization` returns for verified data. -/
def receiptFromJson (data : Json) : Except Error OperationConsumptionReceipt := do
  let schema ← jsonGetString data (ascii "schema") true
  let grantId ← jsonGetString data (ascii "grant_id") true
  let operation ← jsonGetString data (ascii "operation") true
  let planSha256 ← jsonGetString data (ascii "plan_sha256") true
  let stepCount ← jsonGetUint64 data (ascii "step_count") 0
  let totalBytes ← jsonGetUint64 data (ascii "total_bytes") 0
  let consumerChallenge ← jsonGetString data (ascii "consumer_challenge") true
  let consumedAt ← jsonGetInt64 data (ascii "consumed_at") 0
  let expiresAt ← jsonGetInt64 data (ascii "expires_at") 0
  let manifestSha256 ← jsonGetString data (ascii "integrity_manifest_sha256") false
  let hostExeSha256 ← jsonGetString data (ascii "host_exe_sha256") false
  let consumerModule ← jsonGetString data (ascii "consumer_module") true
  let moduleSha256 ← jsonGetString data (ascii "consumer_module_sha256") false
  .ok {
    schema := schema, grantId := grantId, operation := operation, planSha256 := planSha256
    stepCount := stepCount % 2 ^ 32, totalBytes := totalBytes
    consumerChallenge := consumerChallenge, consumedAt := consumedAt, expiresAt := expiresAt
    integrityManifestSha256 := manifestSha256, hostExeSha256 := hostExeSha256
    consumerModule := consumerModule, consumerModuleSha256 := moduleSha256 }

section Verified
variable (crypto : Crypto) (what : Bytes → Bytes) (turn : CheckTurn Error)
  (response : ProtocolResponse)

/-- The verified data of a response; the session before the call does not matter to it. -/
def verifiedData : Except Error Json :=
  (verifyAuthz crypto what turn.note turn.context ⟨[], 0⟩ response).1

/-- The end of `authorize_operation`: the response is verified and read. -/
def finishAuthorization : Except Error OperationGrant := do
  let data ← verifiedData crypto what turn response
  grantFromJson data

/-- The end of `consume_operation_authorization`: the response is verified and read. -/
def finishConsumption : Except Error OperationConsumptionReceipt := do
  let data ← verifiedData crypto what turn response
  receiptFromJson data

end Verified

/-! ## Data that the accessors take -/

/-- What an accessor asks of a field. -/
inductive Asked where
  | text (key : Bytes)
  | optionalText (key : Bytes)
  | flag (key : Bytes)
  | integer (key : Bytes)
  | arithmetic (key : Bytes)

/-- The data has what is asked: any field but a required text may be absent or null. -/
def Asked.Met (data : Json) : Asked → Prop
  | .text key => ∃ text, field data key = some (.string text)
  | .optionalText key => ∀ v, field data key = some v → ∃ text, v = .string text
  | .flag key => ∀ v, field data key = some v → ∃ b, v = .boolean b
  | .integer key =>
      ∀ v, field data key = some v → (∃ n, v = .unsigned n) ∨ ∃ n, v = .integer n
  | .arithmetic key =>
      ∀ v, field data key = some v →
        (∃ n, v = .unsigned n) ∨ (∃ n, v = .integer n) ∨ (∃ x, v = .float x) ∨ ∃ b, v = .boolean b

/-- The text of a field, or the default where the accessor throws; so for the next four. -/
def textOf (data : Json) (key : Bytes) : Bytes := valueOr [] (jsonGetString data key false)
def flagOf (data : Json) (key : Bytes) : Bool := valueOr false (jsonGetBool data key false)
def int64Of (data : Json) (key : Bytes) : Int := valueOr 0 (jsonGetInt64 data key 0)
def uint64Of (data : Json) (key : Bytes) : Nat := valueOr 0 (jsonGetUint64 data key 0)
def intOf (cast : DoubleCast) (data : Json) (key : Bytes) : Option Int :=
  valueOr none (optionalInt cast data key)

section Accessors
variable {data : Json} {key : Bytes}

theorem jsonGetString_required {text : Bytes} :
    jsonGetString data key true = .ok text ↔
      (Asked.text key).Met data ∧ text = textOf data key := by
  simp only [Asked.Met, textOf, jsonGetString]
  cases field data key with
  | none => simp
  | some v => cases v <;> simp [valueOr, eq_comm]

theorem jsonGetString_optional {text : Bytes} :
    jsonGetString data key false = .ok text ↔
      (Asked.optionalText key).Met data ∧ text = textOf data key := by
  rw [textOf, eq_ok_iff []]
  refine and_congr_left fun _ => ?_
  simp only [Returns, Asked.Met, jsonGetString]
  cases field data key with
  | none => simp
  | some v => cases v <;> simp

theorem jsonGetBool_eq_ok {b : Bool} :
    jsonGetBool data key false = .ok b ↔ (Asked.flag key).Met data ∧ b = flagOf data key := by
  rw [flagOf, eq_ok_iff false]
  refine and_congr_left fun _ => ?_
  simp only [Returns, Asked.Met, jsonGetBool]
  cases field data key with
  | none => simp
  | some v => cases v <;> simp

theorem jsonGetInt64_eq_ok {n : Int} :
    jsonGetInt64 data key 0 = .ok n ↔ (Asked.integer key).Met data ∧ n = int64Of data key := by
  rw [int64Of, eq_ok_iff 0]
  refine and_congr_left fun _ => ?_
  simp only [Returns, Asked.Met, jsonGetInt64]
  cases field data key with
  | none => simp
  | some v => cases v <;> simp

theorem jsonGetUint64_eq_ok {n : Nat} :
    jsonGetUint64 data key 0 = .ok n ↔ (Asked.integer key).Met data ∧ n = uint64Of data key := by
  rw [uint64Of, eq_ok_iff 0]
  refine and_congr_left fun _ => ?_
  simp only [Returns, Asked.Met, jsonGetUint64]
  cases field data key with
  | none => simp
  | some v => cases v <;> simp

theorem optionalInt_eq_ok {cast : DoubleCast} {n : Option Int} :
    optionalInt cast data key = .ok n ↔
      (Asked.arithmetic key).Met data ∧ n = intOf cast data key := by
  rw [intOf, eq_ok_iff none]
  refine and_congr_left fun _ => ?_
  simp only [Returns, Asked.Met, optionalInt]
  cases field data key with
  | none => simp
  | some v => cases v <;> simp

end Accessors

/-- What `authorize_operation` asks of the data, in its order. -/
def grantFields : List Asked := [
  .text (ascii "schema"), .text (ascii "app_id"), .text (ascii "release_id"),
  .text (ascii "device_id"), .text (ascii "device_key_id"), .text (ascii "key_thumbprint"),
  .text (ascii "device_public_key"), .text (ascii "authz_public_key"),
  .text (ascii "authz_key_id"), .text (ascii "authz_root_trust_key_id"),
  .text (ascii "authz_root_trust_signature"), .text (ascii "session"), .text (ascii "grant_id"),
  .text (ascii "operation"), .text (ascii "plan_sha256"), .integer (ascii "step_count"),
  .integer (ascii "total_bytes"), .integer (ascii "issued_at"), .integer (ascii "expires_at"),
  .text (ascii "consumer_challenge"), .optionalText (ascii "integrity_manifest_sha256"),
  .optionalText (ascii "host_exe_sha256"), .text (ascii "consumer_module"),
  .optionalText (ascii "consumer_module_sha256")]

/-- What `consume_operation_authorization` asks of the data, in its order. -/
def receiptFields : List Asked := [
  .text (ascii "schema"), .text (ascii "grant_id"), .text (ascii "operation"),
  .text (ascii "plan_sha256"), .integer (ascii "step_count"), .integer (ascii "total_bytes"),
  .text (ascii "consumer_challenge"), .integer (ascii "consumed_at"),
  .integer (ascii "expires_at"), .optionalText (ascii "integrity_manifest_sha256"),
  .optionalText (ascii "host_exe_sha256"), .text (ascii "consumer_module"),
  .optionalText (ascii "consumer_module_sha256")]

/-- What `update_from_json` asks of the data, in its order. -/
def updateFields : List Asked := [
  .flag (ascii "update_available"), .flag (ascii "mandatory"),
  .integer (ascii "heartbeat_interval_seconds"), .flag (ascii "open_in_browser"),
  .optionalText (ascii "delivery_method"), .optionalText (ascii "release_id"),
  .optionalText (ascii "version"), .arithmetic (ascii "version_code"),
  .optionalText (ascii "notes"), .optionalText (ascii "download_url"),
  .optionalText (ascii "checksum_sha256"), .optionalText (ascii "signature"),
  .optionalText (ascii "manifest_key_id"), .optionalText (ascii "manifest_public_key"),
  .optionalText (ascii "root_trust_key_id"), .optionalText (ascii "root_trust_signature"),
  .optionalText (ascii "artifact_file_name"), .optionalText (ascii "artifact_platform"),
  .optionalText (ascii "artifact_arch"), .optionalText (ascii "authz_protocol"),
  .flag (ascii "host_integrity_required"), .integer (ascii "size"),
  .flag (ascii "rollback_allowed")]

/-- What `maintenance_from_json` asks of its object. -/
def maintenanceFields : List Asked := [
  .flag (ascii "enabled"), .optionalText (ascii "start_at"), .optionalText (ascii "message"),
  .flag (ascii "active")]

/-- The data has a grant. -/
def GrantReadable (data : Json) : Prop := ∀ asked ∈ grantFields, asked.Met data

/-- The data has a receipt. -/
def ReceiptReadable (data : Json) : Prop := ∀ asked ∈ receiptFields, asked.Met data

/-- The data has an update; a maintenance that is no object is ignored. -/
def UpdateReadable (data : Json) : Prop :=
  (∀ asked ∈ updateFields, asked.Met data) ∧
    ∀ members, data.find (ascii "maintenance") = some (.object members) →
      ∀ asked ∈ maintenanceFields, asked.Met (.object members)

/-- The grant of data that has one. -/
def grantOf (data : Json) : OperationGrant where
  schema := textOf data (ascii "schema")
  appId := textOf data (ascii "app_id")
  releaseId := textOf data (ascii "release_id")
  deviceId := textOf data (ascii "device_id")
  deviceKeyId := textOf data (ascii "device_key_id")
  keyThumbprint := textOf data (ascii "key_thumbprint")
  devicePublicKey := textOf data (ascii "device_public_key")
  authzPublicKey := textOf data (ascii "authz_public_key")
  authzKeyId := textOf data (ascii "authz_key_id")
  authzRootTrustKeyId := textOf data (ascii "authz_root_trust_key_id")
  authzRootTrustSignature := textOf data (ascii "authz_root_trust_signature")
  session := textOf data (ascii "session")
  grantId := textOf data (ascii "grant_id")
  operation := textOf data (ascii "operation")
  planSha256 := textOf data (ascii "plan_sha256")
  stepCount := uint64Of data (ascii "step_count") % 2 ^ 32
  totalBytes := uint64Of data (ascii "total_bytes")
  issuedAt := int64Of data (ascii "issued_at")
  expiresAt := int64Of data (ascii "expires_at")
  consumerChallenge := textOf data (ascii "consumer_challenge")
  integrityManifestSha256 := textOf data (ascii "integrity_manifest_sha256")
  hostExeSha256 := textOf data (ascii "host_exe_sha256")
  consumerModule := textOf data (ascii "consumer_module")
  consumerModuleSha256 := textOf data (ascii "consumer_module_sha256")

theorem grantFromJson_eq_ok {data : Json} {grant : OperationGrant} :
    grantFromJson data = .ok grant ↔ GrantReadable data ∧ grantOf data = grant := by
  simp only [grantFromJson, bind_eq_ok, jsonGetString_required, jsonGetString_optional,
    jsonGetUint64_eq_ok, jsonGetInt64_eq_ok, and_assoc, exists_and_left, exists_eq_left,
    GrantReadable, grantFields, List.forall_mem_cons, List.not_mem_nil, false_imp_iff,
    implies_true, true_and, Except.ok.injEq, grantOf]

/-- The receipt of data that has one. -/
def receiptOf (data : Json) : OperationConsumptionReceipt where
  schema := textOf data (ascii "schema")
  grantId := textOf data (ascii "grant_id")
  operation := textOf data (ascii "operation")
  planSha256 := textOf data (ascii "plan_sha256")
  stepCount := uint64Of data (ascii "step_count") % 2 ^ 32
  totalBytes := uint64Of data (ascii "total_bytes")
  consumerChallenge := textOf data (ascii "consumer_challenge")
  consumedAt := int64Of data (ascii "consumed_at")
  expiresAt := int64Of data (ascii "expires_at")
  integrityManifestSha256 := textOf data (ascii "integrity_manifest_sha256")
  hostExeSha256 := textOf data (ascii "host_exe_sha256")
  consumerModule := textOf data (ascii "consumer_module")
  consumerModuleSha256 := textOf data (ascii "consumer_module_sha256")

theorem receiptFromJson_eq_ok {data : Json} {receipt : OperationConsumptionReceipt} :
    receiptFromJson data = .ok receipt ↔ ReceiptReadable data ∧ receiptOf data = receipt := by
  simp only [receiptFromJson, bind_eq_ok, jsonGetString_required, jsonGetString_optional,
    jsonGetUint64_eq_ok, jsonGetInt64_eq_ok, and_assoc, exists_and_left, exists_eq_left,
    ReceiptReadable, receiptFields, List.forall_mem_cons, List.not_mem_nil, false_imp_iff,
    implies_true, true_and, Except.ok.injEq, receiptOf]

/-- The maintenance of data that has an update. -/
def maintenanceOf (data : Json) : Option MaintenanceInfo :=
  match data.find (ascii "maintenance") with
  | some (.object members) =>
      some ⟨flagOf (.object members) (ascii "enabled"), textOf (.object members) (ascii "start_at"),
        textOf (.object members) (ascii "message"), flagOf (.object members) (ascii "active")⟩
  | _ => none

theorem maintenanceFromJson_eq_ok {value : Json} {maintenance : MaintenanceInfo} :
    maintenanceFromJson value = .ok maintenance ↔
      (∀ asked ∈ maintenanceFields, asked.Met value) ∧
        ⟨flagOf value (ascii "enabled"), textOf value (ascii "start_at"),
          textOf value (ascii "message"), flagOf value (ascii "active")⟩ = maintenance := by
  simp only [maintenanceFromJson, bind_eq_ok, jsonGetBool_eq_ok, jsonGetString_optional, and_assoc,
    exists_and_left, exists_eq_left, maintenanceFields, List.forall_mem_cons, List.not_mem_nil,
    false_imp_iff, implies_true, true_and, Except.ok.injEq]

theorem optionalMaintenance_eq_ok {data : Json} {maintenance : Option MaintenanceInfo} :
    optionalMaintenance data = .ok maintenance ↔
      (∀ members, data.find (ascii "maintenance") = some (.object members) →
        ∀ asked ∈ maintenanceFields, asked.Met (.object members)) ∧
      maintenance = maintenanceOf data := by
  unfold optionalMaintenance maintenanceOf
  split
  · rename_i members hfind
    simp only [map_eq_ok, maintenanceFromJson_eq_ok, and_assoc, exists_and_left, exists_eq_left']
    rw [hfind]
    simp only [Option.some.injEq, Json.object.injEq, forall_eq', eq_comm]
  · rename_i hother
    simp only [Except.ok.injEq]
    constructor
    · rintro rfl
      exact ⟨fun members hfind => (hother members hfind).elim, rfl⟩
    · rintro ⟨-, rfl⟩
      rfl

/-- The update of data that has one. -/
def updateOf (cast : DoubleCast) (data : Json) : UpdateInfo where
  updateAvailable := flagOf data (ascii "update_available")
  mandatory := flagOf data (ascii "mandatory")
  heartbeatIntervalSeconds :=
    Int.bmod (int64Of data (ascii "heartbeat_interval_seconds")) (2 ^ 32)
  openInBrowser := flagOf data (ascii "open_in_browser")
  deliveryMethod := textOf data (ascii "delivery_method")
  releaseId := textOf data (ascii "release_id")
  version := textOf data (ascii "version")
  versionCode := intOf cast data (ascii "version_code")
  notes := textOf data (ascii "notes")
  downloadUrl := textOf data (ascii "download_url")
  checksumSha256 := textOf data (ascii "checksum_sha256")
  signature := textOf data (ascii "signature")
  manifestKeyId := textOf data (ascii "manifest_key_id")
  manifestPublicKey := textOf data (ascii "manifest_public_key")
  rootTrustKeyId := textOf data (ascii "root_trust_key_id")
  rootTrustSignature := textOf data (ascii "root_trust_signature")
  artifactFileName := textOf data (ascii "artifact_file_name")
  artifactPlatform := textOf data (ascii "artifact_platform")
  artifactArch := textOf data (ascii "artifact_arch")
  authzProtocol := textOf data (ascii "authz_protocol")
  hostIntegrityRequired := flagOf data (ascii "host_integrity_required")
  size := Int.bmod (uint64Of data (ascii "size")) (2 ^ 64)
  rollbackAllowed := flagOf data (ascii "rollback_allowed")
  maintenance := maintenanceOf data

theorem updateFromJson_eq_ok {cast : DoubleCast} {data : Json} {update : UpdateInfo} :
    updateFromJson cast data = .ok update ↔
      UpdateReadable data ∧ updateOf cast data = update := by
  simp only [updateFromJson, bind_eq_ok, lift_eq_ok, jsonGetString_optional, jsonGetBool_eq_ok,
    jsonGetUint64_eq_ok, jsonGetInt64_eq_ok, optionalInt_eq_ok, optionalMaintenance_eq_ok,
    and_assoc, exists_and_left, exists_eq_left, UpdateReadable, updateFields, List.forall_mem_cons,
    List.not_mem_nil, false_imp_iff, implies_true, true_and, Except.ok.injEq, updateOf]

/-! ## Fields that keep their number -/

/-- The field of the result is the number that the data holds, if it holds one. -/
def FieldKept (data : Json) (key : Bytes) (result : Option Int) : Prop :=
  ∀ v, field data key = some v → ∃ n, result = some n ∧ v.Denotes n

/-- What the data holds is an integer from `low` on and below `high`, if it is there. -/
def FieldWithin (data : Json) (key : Bytes) (low high : Int) : Prop :=
  ∀ v, field data key = some v → ∃ n, v.Denotes n ∧ low ≤ n ∧ n < high

section Numbers
variable {data : Json} {key : Bytes}

/-- **A field that a cast fills is kept exactly when the number is in its range.** -/
theorem kept_iff {low high : Int} {result : Option Int}
    (hread : ∀ v n, field data key = some v → v.Denotes n →
      ∃ m, result = some m ∧ Narrowed low high n m) :
    FieldKept data key result ↔ FieldWithin data key low high := by
  constructor
  · intro hkept v hv
    obtain ⟨n, hresult, hn⟩ := hkept v hv
    obtain ⟨m, hm, hcast⟩ := hread v n hv hn
    have heq : m = n := Option.some.inj (hm.symm.trans hresult)
    exact ⟨n, hn, hcast.eq_iff.mp heq⟩
  · intro hwithin v hv
    obtain ⟨n, hn, hrange⟩ := hwithin v hv
    obtain ⟨m, hm, hcast⟩ := hread v n hv hn
    exact ⟨n, hm.trans (congrArg some (hcast.eq_iff.mpr hrange)), hn⟩

theorem stored_field {v : Json} (hdata : data.Stored) (h : field data key = some v) :
    v.Stored := by
  unfold field at h
  split at h
  · cases h
  · exact hdata.find h

theorem int64Of_denoted {v : Json} {n : Int} (hdata : data.Stored)
    (hasked : (Asked.integer key).Met data) (hv : field data key = some v) (hn : v.Denotes n) :
    int64Of data key = Int.bmod n (2 ^ 64) := by
  have hstored := stored_field hdata hv
  rcases hasked v hv with ⟨m, rfl⟩ | ⟨m, rfl⟩
  · have hread : jsonGetInt64 data key 0 = .ok (Int.bmod m (2 ^ 64)) := by rw [jsonGetInt64, hv]
    obtain rfl : (m : Int) = n := hn
    rw [int64Of, hread, valueOr_ok]
  · have hread : jsonGetInt64 data key 0 = .ok m := by rw [jsonGetInt64, hv]
    obtain rfl : m = n := hn
    rw [int64Of, hread, valueOr_ok]
    cases hstored with
    | integer hlow hhigh =>
      have hlow' : -((2 ^ 64 : Nat) : Int) ≤ m * 2 := by omega
      have hhigh' : m * 2 < ((2 ^ 64 : Nat) : Int) := by omega
      exact (Int.bmod_eq_of_le_mul_two hlow' hhigh').symm

theorem uint64Of_denoted {v : Json} {n : Int} (hdata : data.Stored)
    (hasked : (Asked.integer key).Met data) (hv : field data key = some v) (hn : v.Denotes n) :
    (uint64Of data key : Int) = n % 2 ^ 64 := by
  have hstored := stored_field hdata hv
  rw [uint64Of, jsonGetUint64, hv]
  rcases hasked v hv with ⟨m, rfl⟩ | ⟨m, rfl⟩
  · obtain rfl : (m : Int) = n := hn
    cases hstored with
    | unsigned h =>
      simp only [valueOr]
      omega
  · obtain rfl : m = n := hn
    simp only [valueOr]
    omega

theorem narrows_uint32 : Narrows 0 (2 ^ 32) (· % 2 ^ 32) := narrows_emod (by decide)

theorem narrows_uint64 : Narrows 0 (2 ^ 64) (· % 2 ^ 64) := narrows_emod (by decide)

theorem narrows_int32 : Narrows (-2 ^ 31) (2 ^ 31) (Int.bmod · (2 ^ 32)) :=
  @narrows_bmod (2 ^ 32) (2 ^ 31) (by norm_num) (by norm_num)

theorem narrows_int64 : Narrows (-2 ^ 63) (2 ^ 63) (Int.bmod · (2 ^ 64)) :=
  @narrows_bmod (2 ^ 64) (2 ^ 63) (by norm_num) (by norm_num)

section Casts
variable (hdata : data.Stored) (hasked : (Asked.integer key).Met data)
include hdata hasked

theorem int64_kept_iff :
    FieldKept data key (some (int64Of data key)) ↔ FieldWithin data key (-2 ^ 63) (2 ^ 63) :=
  kept_iff fun _ n hv hn =>
    ⟨_, congrArg some (int64Of_denoted hdata hasked hv hn), narrows_int64 n⟩

theorem uint64_kept_iff :
    FieldKept data key (some (uint64Of data key)) ↔ FieldWithin data key 0 (2 ^ 64) :=
  kept_iff fun _ n hv hn =>
    ⟨_, congrArg some (uint64Of_denoted hdata hasked hv hn), narrows_uint64 n⟩

/-- `static_cast<std::uint32_t>` of an unsigned number. -/
theorem uint32_kept_iff :
    FieldKept data key (some (uint64Of data key % 2 ^ 32)) ↔ FieldWithin data key 0 (2 ^ 32) := by
  refine kept_iff fun v n hv hn => ?_
  rw [uint64Of_denoted hdata hasked hv hn]
  exact ⟨_, rfl, narrows_uint32.comp narrows_uint64 (by decide) (by decide) n⟩

/-- `static_cast<int>` of a signed number. -/
theorem int32_kept_iff :
    FieldKept data key (some (Int.bmod (int64Of data key) (2 ^ 32))) ↔
      FieldWithin data key (-2 ^ 31) (2 ^ 31) := by
  refine kept_iff fun v n hv hn => ?_
  rw [int64Of_denoted hdata hasked hv hn]
  exact ⟨_, rfl, narrows_int32.comp narrows_int64 (by decide) (by decide) n⟩

/-- `static_cast<std::int64_t>` of an unsigned number. -/
theorem signed_kept_iff :
    FieldKept data key (some (Int.bmod (uint64Of data key) (2 ^ 64))) ↔
      FieldWithin data key (-2 ^ 63) (2 ^ 63) := by
  refine kept_iff fun v n hv hn => ?_
  have hcast : (2 ^ 64 : Int) = ((2 ^ 64 : Nat) : Int) := by norm_num
  rw [uint64Of_denoted hdata hasked hv hn, hcast, Int.emod_bmod]
  exact ⟨_, rfl, narrows_int64 n⟩

end Casts

theorem intOf_denoted {cast : DoubleCast} {v : Json} {n : Int} (hv : field data key = some v)
    (hn : v.Denotes n) :
    ∃ m, intOf cast data key = some m ∧ Narrowed (-2 ^ 31) (2 ^ 31) n m := by
  rw [intOf, optionalInt, hv]
  cases v with
  | unsigned m =>
    obtain rfl : (m : Int) = n := hn
    exact ⟨_, rfl, narrows_int32 m⟩
  | integer m =>
    obtain rfl : m = n := hn
    exact ⟨_, rfl, narrows_int32 m⟩
  | float x =>
    obtain rfl := Binary64.truncate_of_toRat hn
    exact ⟨_, rfl, cast.range x, cast.truncates x⟩
  | null => exact hn.elim
  | boolean b => exact hn.elim
  | string text => exact hn.elim
  | array items => exact hn.elim
  | object members => exact hn.elim

/-- `get<int>`. -/
theorem int_kept_iff {cast : DoubleCast} :
    FieldKept data key (intOf cast data key) ↔ FieldWithin data key (-2 ^ 31) (2 ^ 31) :=
  kept_iff fun _ _ hv hn => intOf_denoted hv hn

end Numbers

/-- Every integer of the grant is the one the data holds. -/
structure GrantKept (data : Json) (grant : OperationGrant) : Prop where
  stepCount : FieldKept data (ascii "step_count") (some grant.stepCount)
  totalBytes : FieldKept data (ascii "total_bytes") (some grant.totalBytes)
  issuedAt : FieldKept data (ascii "issued_at") (some grant.issuedAt)
  expiresAt : FieldKept data (ascii "expires_at") (some grant.expiresAt)

/-- Every integer of the receipt is the one the data holds. -/
structure ReceiptKept (data : Json) (receipt : OperationConsumptionReceipt) : Prop where
  stepCount : FieldKept data (ascii "step_count") (some receipt.stepCount)
  totalBytes : FieldKept data (ascii "total_bytes") (some receipt.totalBytes)
  consumedAt : FieldKept data (ascii "consumed_at") (some receipt.consumedAt)
  expiresAt : FieldKept data (ascii "expires_at") (some receipt.expiresAt)

/-- Every integer of the update is the one the data holds. -/
structure UpdateKept (data : Json) (update : UpdateInfo) : Prop where
  heartbeat : FieldKept data (ascii "heartbeat_interval_seconds")
    (some update.heartbeatIntervalSeconds)
  versionCode : FieldKept data (ascii "version_code") update.versionCode
  size : FieldKept data (ascii "size") (some update.size)

/-- The integers of the data fit the fields of a grant. -/
structure GrantFits (data : Json) : Prop where
  stepCount : FieldWithin data (ascii "step_count") 0 (2 ^ 32)
  totalBytes : FieldWithin data (ascii "total_bytes") 0 (2 ^ 64)
  issuedAt : FieldWithin data (ascii "issued_at") (-2 ^ 63) (2 ^ 63)
  expiresAt : FieldWithin data (ascii "expires_at") (-2 ^ 63) (2 ^ 63)

/-- The integers of the data fit the fields of a receipt. -/
structure ReceiptFits (data : Json) : Prop where
  stepCount : FieldWithin data (ascii "step_count") 0 (2 ^ 32)
  totalBytes : FieldWithin data (ascii "total_bytes") 0 (2 ^ 64)
  consumedAt : FieldWithin data (ascii "consumed_at") (-2 ^ 63) (2 ^ 63)
  expiresAt : FieldWithin data (ascii "expires_at") (-2 ^ 63) (2 ^ 63)

/-- The integers of the data fit the fields of an update. -/
structure UpdateFits (data : Json) : Prop where
  heartbeat : FieldWithin data (ascii "heartbeat_interval_seconds") (-2 ^ 31) (2 ^ 31)
  versionCode : FieldWithin data (ascii "version_code") (-2 ^ 31) (2 ^ 31)
  size : FieldWithin data (ascii "size") (-2 ^ 63) (2 ^ 63)

section Fits
variable {data : Json} (hdata : data.Stored)
include hdata

theorem grantKept_iff (hread : GrantReadable data) :
    GrantKept data (grantOf data) ↔ GrantFits data := by
  have hsteps := @uint32_kept_iff data (ascii "step_count") hdata (hread _ (by simp [grantFields]))
  have htotal := @uint64_kept_iff data (ascii "total_bytes") hdata
    (hread _ (by simp [grantFields]))
  have hissued := @int64_kept_iff data (ascii "issued_at") hdata (hread _ (by simp [grantFields]))
  have hexpires := @int64_kept_iff data (ascii "expires_at") hdata
    (hread _ (by simp [grantFields]))
  constructor
  · rintro ⟨h₁, h₂, h₃, h₄⟩
    exact ⟨hsteps.mp h₁, htotal.mp h₂, hissued.mp h₃, hexpires.mp h₄⟩
  · rintro ⟨h₁, h₂, h₃, h₄⟩
    exact ⟨hsteps.mpr h₁, htotal.mpr h₂, hissued.mpr h₃, hexpires.mpr h₄⟩

theorem receiptKept_iff (hread : ReceiptReadable data) :
    ReceiptKept data (receiptOf data) ↔ ReceiptFits data := by
  have hsteps := @uint32_kept_iff data (ascii "step_count") hdata
    (hread _ (by simp [receiptFields]))
  have htotal := @uint64_kept_iff data (ascii "total_bytes") hdata
    (hread _ (by simp [receiptFields]))
  have hconsumed := @int64_kept_iff data (ascii "consumed_at") hdata
    (hread _ (by simp [receiptFields]))
  have hexpires := @int64_kept_iff data (ascii "expires_at") hdata
    (hread _ (by simp [receiptFields]))
  constructor
  · rintro ⟨h₁, h₂, h₃, h₄⟩
    exact ⟨hsteps.mp h₁, htotal.mp h₂, hconsumed.mp h₃, hexpires.mp h₄⟩
  · rintro ⟨h₁, h₂, h₃, h₄⟩
    exact ⟨hsteps.mpr h₁, htotal.mpr h₂, hconsumed.mpr h₃, hexpires.mpr h₄⟩

theorem updateKept_iff {cast : DoubleCast} (hread : UpdateReadable data) :
    UpdateKept data (updateOf cast data) ↔ UpdateFits data := by
  have hheartbeat := @int32_kept_iff data (ascii "heartbeat_interval_seconds") hdata
    (hread.1 _ (by simp [updateFields]))
  have hcode := @int_kept_iff data (ascii "version_code") cast
  have hsize : FieldKept data (ascii "size") (some (updateOf cast data).size) ↔
      FieldWithin data (ascii "size") (-2 ^ 63) (2 ^ 63) := by
    simp only [updateOf]
    exact signed_kept_iff hdata (hread.1 _ (by simp [updateFields]))
  constructor
  · rintro ⟨h₁, h₂, h₃⟩
    exact ⟨hheartbeat.mp h₁, hcode.mp h₂, hsize.mp h₃⟩
  · rintro ⟨h₁, h₂, h₃⟩
    exact ⟨hheartbeat.mpr h₁, hcode.mpr h₂, hsize.mpr h₃⟩

end Fits

section Calls
variable {crypto : Crypto} {what : Bytes → Bytes} {options : TrustOptions}
  {turn : CheckTurn Error} {response : ProtocolResponse} {data : Json}

theorem verifiedData_stored (h : verifiedData crypto what turn response = .ok data) :
    data.Stored := by
  obtain ⟨authz, hcarrier⟩ := verifyAuthz_ok h
  obtain ⟨carrier, rawData, key, hv⟩ := verifiedCarrier_ok hcarrier
  exact (Nlohmann.parse_stored hv.parsed).find hv.member

/-- **The integers of verified data are returned as they are exactly when they fit.**  The
other way out is an error: of a field that is missing or of another type, or, for an
update, of the policy store or of the manifest. -/
theorem signedIntegers_iff (h : verifiedData crypto what turn response = .ok data) :
    ((∀ grant, finishAuthorization crypto what turn response = .ok grant → GrantKept data grant) ↔
      (GrantReadable data → GrantFits data)) ∧
    ((∀ receipt, finishConsumption crypto what turn response = .ok receipt →
        ReceiptKept data receipt) ↔
      (ReceiptReadable data → ReceiptFits data)) ∧
    ((∀ update, finishCheck crypto what options turn response = .ok update →
        UpdateKept data update) ↔
      (UpdateReadable data → turn.storePolicy = .ok () →
        verifyArtifactManifest crypto options (updateOf turn.doubleCast data) = .ok () →
          UpdateFits data)) := by
  have hdata := verifiedData_stored h
  refine ⟨⟨fun hkept hread => ?_, fun hfits grant hgrant => ?_⟩,
    ⟨fun hkept hread => ?_, fun hfits receipt hreceipt => ?_⟩,
    ⟨fun hkept hread hpolicy hmanifest => ?_, fun hfits update hupdate => ?_⟩⟩
  · refine (grantKept_iff hdata hread).mp (hkept _ ?_)
    exact bind_eq_ok.mpr ⟨data, h, grantFromJson_eq_ok.mpr ⟨hread, rfl⟩⟩
  · obtain ⟨data', hdata', hgrant⟩ := bind_eq_ok.mp hgrant
    obtain rfl := Except.ok.inj (h.symm.trans hdata')
    obtain ⟨hread, rfl⟩ := grantFromJson_eq_ok.mp hgrant
    exact (grantKept_iff hdata hread).mpr (hfits hread)
  · refine (receiptKept_iff hdata hread).mp (hkept _ ?_)
    exact bind_eq_ok.mpr ⟨data, h, receiptFromJson_eq_ok.mpr ⟨hread, rfl⟩⟩
  · obtain ⟨data', hdata', hreceipt⟩ := bind_eq_ok.mp hreceipt
    obtain rfl := Except.ok.inj (h.symm.trans hdata')
    obtain ⟨hread, rfl⟩ := receiptFromJson_eq_ok.mp hreceipt
    exact (receiptKept_iff hdata hread).mpr (hfits hread)
  · refine (updateKept_iff hdata hread).mp (hkept (updateOf turn.doubleCast data) ?_)
    refine bind_eq_ok.mpr ⟨data, lift_eq_ok.mpr h, ?_⟩
    refine bind_eq_ok.mpr ⟨_, updateFromJson_eq_ok.mpr ⟨hread, rfl⟩, ?_⟩
    exact bind_eq_ok.mpr ⟨(), lift_eq_ok.mpr hpolicy,
      bind_eq_ok.mpr ⟨(), lift_eq_ok.mpr hmanifest, rfl⟩⟩
  · obtain ⟨data', hdata', hupdate⟩ := bind_eq_ok.mp hupdate
    obtain rfl := Except.ok.inj (h.symm.trans (lift_eq_ok.mp hdata'))
    obtain ⟨update', hread', hupdate⟩ := bind_eq_ok.mp hupdate
    obtain ⟨hread, rfl⟩ := updateFromJson_eq_ok.mp hread'
    obtain ⟨⟨⟩, hpolicy, hupdate⟩ := bind_eq_ok.mp hupdate
    obtain ⟨⟨⟩, hmanifest, hupdate⟩ := bind_eq_ok.mp hupdate
    obtain rfl := Except.ok.inj hupdate
    exact (updateKept_iff hdata hread).mpr
      (hfits hread (lift_eq_ok.mp hpolicy) (lift_eq_ok.mp hmanifest))

end Calls

/-! ## Two version codes

Both responses are signed: the data of one holds a version code of 33 bits. -/

/-- A signed response with a version code. -/
structure CodeSample where
  code : Bytes
  dataDigest : Bytes
  authzSignature : Bytes

namespace CodeSample

def small : CodeSample where
  code := ascii "7"
  dataDigest :=
    [0x97, 0x8d, 0x2e, 0xe0, 0x5e, 0x3f, 0x0b, 0xba, 0xb1, 0x77, 0x1c, 0xf6, 0x04, 0x7b, 0xb3, 0x3d,
     0x9e, 0x46, 0x4f, 0xe4, 0xac, 0x65, 0x9b, 0xa9, 0xf0, 0xc8, 0xc8, 0xf7, 0xb4, 0xb5, 0x7a, 0xf9]
  authzSignature := ascii
    "raaXM5sU4s66oVIWmJ2kH9XxHYXU67-Ta_dWk1h0CAQKFxtoJbZTJu3DqiqZ29C-Z61KeCapnv7BKVKIwHy3AQ"

def large : CodeSample where
  code := ascii "4294967297"
  dataDigest :=
    [0x33, 0xf8, 0x36, 0xff, 0x5c, 0x20, 0x50, 0x9f, 0x41, 0xfe, 0x55, 0xc4, 0x37, 0x85, 0x44, 0x85,
     0xf2, 0x0a, 0xe0, 0xaa, 0x21, 0x79, 0xee, 0x7a, 0xd3, 0xbd, 0xfd, 0x34, 0x9d, 0xf2, 0x2e, 0xca]
  authzSignature := ascii
    "ILYbaySxLQWPId1aCMb3Dio4m-6nNCCW6lgkzMFWwFyprhi2RdETHudlSB-dh4g3jlrzE-J6wB4hzRtIRrtBCQ"

variable (sample : CodeSample)

def data : Bytes := ascii "\x7b\"version_code\":" ++ sample.code ++ ascii "\x7d"

def authz : AuthzEnvelope :=
  { sampleEnvelope [] [] sample.authzSignature with dataSha256 := hex sample.dataDigest }

/-- The response to the update check of the sample. -/
def response : ProtocolResponse where
  statusCode := 200
  body := ascii "\x7b\"data\":" ++ sample.data ++
    ascii ",\"authz\":\x7b\"version\":\"authz_v3\",\"decision\":\"allow\"," ++
    ascii "\"release_id\":\"release\",\"device_id\":\"device\",\"nonce\":\"nonce\"," ++
    ascii "\"data_sha256\":\"" ++ hex sample.dataDigest ++ ascii "\",\"key_id\":\"k1\"," ++
    ascii "\"issued_at\":990,\"expires_at\":1200,\"signature\":\"" ++ sample.authzSignature ++
    ascii "\"\x7d\x7d"

def crypto : Crypto :=
  listedCrypto [(sample.data, sample.dataDigest)]
    [(signedKey.publicKey, canonical signedContext sample.authz, sample.authzSignature)]

def turn : CheckTurn Error where
  response := .ok sample.response
  context := signedContext
  note := .ok ()
  deviceAuth := .ok ()
  storePolicy := .ok ()

def options : TrustOptions := ⟨ascii "app", ascii "https://h/", ascii "root", ascii "key"⟩

/-- The client takes the response, whose data has this version code and no other number, and
returns that version code. -/
def reads (number : Nat) (returned : Int) : Bool :=
  match verifiedData sample.crypto id sample.turn sample.response with
  | .error _ => false
  | .ok data =>
      match field data (ascii "version_code"),
          finishCheck sample.crypto id options sample.turn sample.response with
      | some (.unsigned n), .ok update =>
          n = number && update.versionCode = some returned &&
            (field data (ascii "heartbeat_interval_seconds")).isNone &&
            (field data (ascii "size")).isNone
      | _, _ => false

theorem of_reads {sample : CodeSample} {number : Nat} {returned : Int}
    (h : sample.reads number returned = true) :
    ∃ data update, verifiedData sample.crypto id sample.turn sample.response = .ok data ∧
      finishCheck sample.crypto id options sample.turn sample.response = .ok update ∧
      field data (ascii "version_code") = some (.unsigned number) ∧
      update.versionCode = some returned ∧
      field data (ascii "heartbeat_interval_seconds") = none ∧
      field data (ascii "size") = none := by
  unfold reads at h
  split at h
  · cases h
  · rename_i data hdata
    split at h
    · rename_i n update hn hupdate
      simp only [Bool.and_eq_true, decide_eq_true_eq, Option.isNone_iff_eq_none] at h
      obtain ⟨⟨⟨rfl, hcode⟩, hheartbeat⟩, hsize⟩ := h
      exact ⟨data, update, hdata, hupdate, hn, hcode, hheartbeat, hsize⟩
    · cases h

end CodeSample

/-- A version code that fits is returned as it is signed. -/
theorem small_code_kept : ∃ data,
    verifiedData CodeSample.small.crypto id CodeSample.small.turn CodeSample.small.response =
      .ok data ∧
    ∀ update, finishCheck CodeSample.small.crypto id CodeSample.options CodeSample.small.turn
      CodeSample.small.response = .ok update → UpdateKept data update := by
  obtain ⟨data, update, hdata, -, hcode, -, hheartbeat, hsize⟩ :=
    @CodeSample.of_reads CodeSample.small 7 7 (by decide +kernel)
  refine ⟨data, hdata, (signedIntegers_iff hdata).2.2.mpr fun _ _ _ => ?_⟩
  refine ⟨fun v hv => ?_, fun v hv => ?_, fun v hv => ?_⟩
  · cases hheartbeat.symm.trans hv
  · cases hcode.symm.trans hv
    exact ⟨7, rfl, by decide, by decide⟩
  · cases hsize.symm.trans hv

/-- The signed version code is 2 ^ 32 + 1, and the update says 1. -/
theorem large_code_reduced : ∃ data update,
    verifiedData CodeSample.large.crypto id CodeSample.large.turn CodeSample.large.response =
      .ok data ∧
    finishCheck CodeSample.large.crypto id CodeSample.options CodeSample.large.turn
      CodeSample.large.response = .ok update ∧
    ¬ UpdateKept data update := by
  obtain ⟨data, update, hdata, hupdate, hcode, hreturned, -, -⟩ :=
    @CodeSample.of_reads CodeSample.large 4294967297 1 (by decide +kernel)
  refine ⟨data, update, hdata, hupdate, fun hkept => ?_⟩
  obtain ⟨n, hn, hdenotes⟩ := hkept.versionCode _ hcode
  obtain rfl : (1 : Int) = n := Option.some.inj (hreturned.symm.trans hn)
  exact absurd (show ((4294967297 : Nat) : Int) = 1 from hdenotes) (by decide)

end Cpp
end SwmSdk
