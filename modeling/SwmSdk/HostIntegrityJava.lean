import SwmSdk.ClientCalls
import SwmSdk.OfflineFile
import SwmSdk.RootOfTrust

/-! # Evidence of the integrity of the host in Java

`Rim2`, `HostIntegrity` and the two calls of the Java client that are bound to the host.  The
heartbeat asks for evidence as the C++ one does; `authorizeOperation` does not, and takes the
digest of a manifest that some other call may have read.

When the calls of both SDKs fail closed is `hostBound_failClosed_iff`.
-/
namespace SwmSdk
open ByteText

namespace Java
open ByteCodec Outcome

/-! ## The manifest -/

/-- `Rim2Parser.error`. -/
def rim2Error (code message : String) : Thrown := .swm (Cpp.rim2Error code message)

/-- The errors of a manifest that cannot be read. -/
def rim2Invalid (message : String) : Thrown := rim2Error "host_manifest_invalid" message

def rim2Truncated : Thrown := rim2Invalid "RIM2 manifest is truncated"

/-- `safePath`. -/
def safePath (value : Bytes) : Bool :=
  value ≠ [] && length value ≤ 255 && value.head? ≠ some 0x2f && value.getLast? ≠ some 0x2f &&
    ¬ value.contains 0x5c && ¬ value.contains 0x3a && ¬ value.contains 0 &&
    (value.splitOn 0x2f).all fun part =>
      part ≠ [] && part ≠ ascii "." && part ≠ ascii ".." &&
        part.all fun b => 0x20 ≤ b && b ≠ 0x7f

/-- `string8` and `string16` of the reader. -/
def readText (width : Nat) (data : Bytes) : Except Thrown (Bytes × Bytes) := do
  let (text, rest) ← counted width rim2Truncated data
  .ok (utf8String text, rest)

/-- The fields of an entry. -/
def readRim2File (data : Bytes) : Except Thrown (Rim2File × Bytes) := do
  let (path, rest) ← readText 2 data
  let (size, rest) ← number 8 rim2Truncated rest
  let (sha256, rest) ← take 32 rim2Truncated rest
  .ok (⟨path, size, sha256⟩, rest)

/-- The test of an entry beside those before it. -/
def acceptRim2File (locale : RootLocale) (before : List Rim2File) (file : Rim2File) :
    Except Thrown Unit :=
  if ¬ safePath file.path ∨ file.size = 0 ∨ file.sha256.all (· = 0) ∨
      (before.map fun old => locale.toLowerCase old.path).contains
        (locale.toLowerCase file.path) then
    .error (rim2Invalid "RIM2 contains an invalid file entry")
  else .ok ()

/-- The body and the bytes after it. -/
def readRim2Header (raw : Bytes) : Except Thrown (Bytes × Bytes) :=
  if raw = [] ∨ raw.length > 64 * 1024 ∨ ¬ rim2Magic <+: raw then
    .error (rim2Invalid "RIM2 manifest header is invalid")
  else do
    let (_, rest) ← take 8 rim2Truncated raw
    let (version, rest) ← number 2 rim2Truncated rest
    if version ≠ 2 then .error (rim2Invalid "RIM2 manifest version is invalid")
    else do
      let (bodySize, rest) ← number 4 rim2Truncated rest
      if bodySize = 0 ∨ bodySize > rest.length then
        .error (rim2Invalid "RIM2 manifest body size is invalid")
      else .ok (rest.take bodySize, rest.drop bodySize)

/-- The body of a manifest.  The parser has one message for every field that is cut short. -/
def readRim2Body (locale : RootLocale) (data : Bytes) : Except Thrown Rim2Body := do
  let (app, rest) ← take 16 rim2Truncated data
  let (release, rest) ← take 16 rim2Truncated rest
  let (versionCode, rest) ← number 8 rim2Truncated rest
  let (platform, rest) ← number 1 rim2Truncated rest
  let (architecture, rest) ← number 1 rim2Truncated rest
  let (version, rest) ← readText 2 rest
  let (count, rest) ← number 2 rim2Truncated rest
  if platform ≠ 1 ∨ count = 0 ∨ count > 255 ∨ version = [] then
    .error (rim2Invalid "RIM2 identity fields are invalid")
  else do
    let (files, rest) ← entries readRim2File (acceptRim2File locale) count [] rest
    if rest ≠ [] then .error (rim2Invalid "RIM2 body has trailing bytes")
    else .ok ⟨app, release, versionCode, platform, architecture, version, files⟩

/-- The trailer, and what is left after it. -/
def readRim2Trailer (data : Bytes) : Except Thrown (Rim2Trailer × Bytes) := do
  let (rootKeyId, rest) ← readText 1 data
  let (signerKeyId, rest) ← readText 1 rest
  let (signerPublic, rest) ← take 32 rim2Truncated rest
  let (rootSignature, rest) ← take 64 rim2Truncated rest
  let (manifestSignature, rest) ← take 64 rim2Truncated rest
  .ok (⟨rootKeyId, signerKeyId, signerPublic, rootSignature, manifestSignature⟩, rest)

/-- The manifest is for another release, or has trailing bytes. -/
def rim2Mismatch (expected : Rim2Expected) (m : Rim2) (rest : Bytes) : Prop :=
  rest ≠ [] ∨ guidText m.body.app ≠ expected.appId ∨
    guidText m.body.release ≠ expected.releaseId ∨ m.body.version ≠ expected.version ∨
    (∃ code ∈ expected.versionCode, m.body.versionCode ≠ unsignedCode code) ∨
    ¬ equalsIgnoreCase expected.arch (archText m.body.arch) ∨
    m.trailer.rootKeyId ≠ expected.rootKeyId

instance (expected : Rim2Expected) (m : Rim2) (rest : Bytes) :
    Decidable (rim2Mismatch expected m rest) := by
  unfold rim2Mismatch
  infer_instance

/-- `Rim2.parseAndVerify`. -/
def parseAndVerify (locale : RootLocale) (crypto : Crypto) (expected : Rim2Expected)
    (raw : Bytes) : Except Thrown Cpp.Rim2Manifest := do
  let (bodyBytes, trailer) ← readRim2Header raw
  let body ← readRim2Body locale bodyBytes
  let (trailer, rest) ← readRim2Trailer trailer
  let m : Rim2 := ⟨body, trailer⟩
  if rim2Mismatch expected m rest then
    .error (rim2Error "host_release_mismatch" "RIM2 identity does not match this release")
  else do
    let certified ← verifyEd25519 crypto expected.rootTrustPublicKey m.keyMessage
      (Base64Url.encode trailer.rootSignature)
    if ¬ certified then
      .error (rim2Error "host_root_signature_invalid" "RIM2 root certificate signature is invalid")
    else do
      let signed ← verifyEd25519 crypto (Base64Url.encode trailer.signerPublic)
        (ascii "OPLUS_RELEASE_MANIFEST_V2" ++ [0] ++ bodyBytes)
        (Base64Url.encode trailer.manifestSignature)
      if ¬ signed then
        .error (rim2Error "host_manifest_signature_invalid" "RIM2 manifest signature is invalid")
      else .ok {
        raw := raw, manifestSha256 := crypto.sha256Hex raw, appId := expected.appId
        releaseId := expected.releaseId, versionCode := body.versionCode, version := body.version
        arch := archText body.arch, rootKeyId := trailer.rootKeyId
        signerKeyId := trailer.signerKeyId, files := body.files }

theorem parseAndVerify_sha256 {locale : RootLocale} {crypto : Crypto} {expected : Rim2Expected}
    {raw : Bytes} {manifest : Cpp.Rim2Manifest}
    (h : parseAndVerify locale crypto expected raw = .ok manifest) :
    manifest.manifestSha256 = crypto.sha256Hex raw := by
  unfold parseAndVerify at h
  obtain ⟨header, -, h⟩ := bind_eq_ok.mp h
  obtain ⟨body, -, h⟩ := bind_eq_ok.mp h
  obtain ⟨trailer, -, h⟩ := bind_eq_ok.mp h
  obtain ⟨-, h⟩ := guard_eq_ok.mp h
  obtain ⟨certified, -, h⟩ := bind_eq_ok.mp h
  obtain ⟨-, h⟩ := guard_eq_ok.mp h
  obtain ⟨signed, -, h⟩ := bind_eq_ok.mp h
  obtain ⟨-, h⟩ := guard_eq_ok.mp h
  obtain rfl := Except.ok.inj h
  rfl

/-! ## The evidence -/

/-- `IntegrityEvidenceContext`. -/
structure IntegrityEvidenceContext where
  appId : Bytes
  releaseId : Bytes
  version : Bytes
  versionCode : Option Int
  arch : Bytes
  packageRoot : Bytes
  manifestPath : Bytes

/-- `HostIntegrityOptions`, less the package root, which the file system knows.  A provider
may return null. -/
structure HostIntegrityOptions (J : Jackson) where
  enabled : Bool
  manifestPath : Bytes
  evidenceProvider : Option (IntegrityEvidenceContext → Except Thrown (Option J.Node))

/-- `SwmClientOptions`, as far as the calls here read it. -/
structure ClientOptions (J : Jackson) where
  appId : Bytes
  releaseId : Bytes
  version : Bytes
  versionCode : Option Int
  rootTrustKeyId : Bytes
  rootTrustPublicKey : Bytes
  channel : Bytes
  platform : Bytes
  arch : Bytes
  hostIntegrity : HostIntegrityOptions J

/-- What the SDK uses of the file system.  A path is its text. -/
structure HostSystem where
  /-- `packageRoot()`. -/
  packageRoot : Bytes
  /-- `root.resolve(relative).normalize().toAbsolutePath()`. -/
  resolve : Bytes → Bytes → Except Thrown Bytes
  /-- The path starts with the root. -/
  startsWith : Bytes → Bytes → Bool
  existsFile : Bytes → Bool
  /-- `Files.readAllBytes`, or none when it throws an `IOException`. -/
  readAllBytes : Bytes → Option Bytes

/-- What the provider is told. -/
def providerContext {J : Jackson} (options : ClientOptions J) (system : HostSystem) :
    IntegrityEvidenceContext where
  appId := options.appId
  releaseId := options.releaseId
  version := options.version
  versionCode := options.versionCode
  arch := options.arch
  packageRoot := system.packageRoot
  manifestPath := options.hostIntegrity.manifestPath

/-- What a block throws that may also throw an `IOException`. -/
inductive Raised where
  | thrown (thrown : Thrown)
  | io

section Manager
variable {J : Jackson} (fields : J.Node → List (Bytes × J.Node)) (locale : RootLocale)
  (crypto : Crypto) (options : ClientOptions J) (system : HostSystem)

/-- What `parseAndVerify` is asked to compare with. -/
def hostExpected : Rim2Expected where
  appId := options.appId
  releaseId := options.releaseId
  version := options.version
  versionCode := options.versionCode
  arch := options.arch
  rootKeyId := options.rootTrustKeyId
  rootTrustPublicKey := options.rootTrustPublicKey

/-- The manifest that is kept, with the root it was read under; it was parsed for the
options. -/
structure HostState where
  manifest : Option (Bytes × Cpp.Rim2Manifest)
  parsed : ∀ kept ∈ manifest,
    ∃ raw, parseAndVerify locale crypto (hostExpected options) raw = .ok kept.2

/-- Nothing is kept before the first check. -/
def HostState.initial : HostState locale crypto options := ⟨none, by simp⟩

/-- `safeJoin`. -/
def safeJoin (root relative : Bytes) : Except Thrown Bytes := do
  let path ← system.resolve root relative
  if ¬ system.startsWith path root then
    .error (rim2Error "host_unsafe_path" "integrity path escapes package root")
  else .ok path

/-- The bytes of the manifest file. -/
def readManifest (root : Bytes) : Except Thrown Bytes := do
  let path ← safeJoin system root options.hostIntegrity.manifestPath
  match system.readAllBytes path with
  | none => .error (rim2Error "host_manifest_missing" "RIM2 manifest is missing")
  | some bytes => .ok bytes

variable {locale crypto options}

/-- `loadManifest`. -/
def loadManifest (root : Bytes) (host : HostState locale crypto options) :
    Except Thrown Cpp.Rim2Manifest × HostState locale crypto options :=
  match host.manifest.filter (·.1 = root) with
  | some kept => (.ok kept.2, host)
  | none =>
      match readManifest options system root with
      | .error e => (.error e, host)
      | .ok raw =>
          match h : parseAndVerify locale crypto (hostExpected options) raw with
          | .error e => (.error e, host)
          | .ok manifest => (.ok manifest, ⟨some (root, manifest), by
              intro kept hkept
              obtain rfl := Option.some.inj hkept
              exact ⟨raw, h⟩⟩)

/-- `files.put(path, digest)`. -/
def putFile (path digest : Bytes) : List (Bytes × Bytes) → List (Bytes × Bytes)
  | [] => [(path, digest)]
  | (p, d) :: rest => if path = p then (p, digest) :: rest else (p, d) :: putFile path digest rest

variable (crypto)

/-- The loop over the files of the manifest. -/
def collectFiles (root : Bytes) : List Rim2File → List (Bytes × Bytes) →
    Except Raised (List (Bytes × Bytes))
  | [], files => .ok files
  | file :: rest, files =>
      match safeJoin system root file.path with
      | .error e => .error (.thrown e)
      | .ok path =>
          if ¬ system.existsFile path then collectFiles root rest files
          else
            match system.readAllBytes path with
            | none => .error .io
            | some bytes =>
                collectFiles root rest (putFile file.path (crypto.sha256Hex bytes) files)

/-- `fromNode`. -/
def fromNode (value : Option J.Node) : Except Thrown (Option IntegrityEvidence) :=
  match value.filter fun node => ¬ J.isNull node with
  | none => .ok none
  | some value => do
      let files := match (J.get value (ascii "integrity_files")).filter (J.isObject ·) with
        | some node => (fields node).filterMap fun entry =>
            (J.textual entry.2).map fun text => (entry.1, text)
        | none => []
      let state ← text J value (ascii "integrity_state") false
      let failureCode ← text J value (ascii "integrity_failure_code") false
      let version := (fieldNode J value (ascii "integrity_evidence_version")).map J.intValue
      let manifestSha256 ← text J value (ascii "integrity_manifest_sha256") false
      .ok (some ⟨state, failureCode, version, manifestSha256, files⟩)

variable {crypto}

/-- The evidence of the manifest and the files it lists. -/
def manifestEvidence (host : HostState locale crypto options) :
    Except Thrown IntegrityEvidence × HostState locale crypto options :=
  let loaded := loadManifest system system.packageRoot host
  let evidence : Except Raised IntegrityEvidence :=
    match loaded.1 with
    | .error e => .error (.thrown e)
    | .ok manifest => do
        let files ← collectFiles crypto system system.packageRoot manifest.files []
        .ok ⟨ascii "verified", [], some 2, manifest.manifestSha256, files⟩
  match evidence with
  | .error (.thrown (.swm e)) => (.ok (.failed e.serviceCode), loaded.2)
  | .error (.thrown e) => (.error e, loaded.2)
  | .error .io => (.ok (.failed (ascii "host_file_io_failed")), loaded.2)
  | .ok evidence => (.ok evidence, loaded.2)

/-- `evidence`. -/
def evidence (host : HostState locale crypto options) :
    Except Thrown (Option IntegrityEvidence) × HostState locale crypto options :=
  match options.hostIntegrity.evidenceProvider with
  | some provider => (do
      let node ← provider (providerContext options system)
      fromNode fields node, host)
  | none =>
      if ¬ options.hostIntegrity.enabled then (.ok none, host)
      else
        let out := manifestEvidence system host
        (out.1.map some, out.2)

/-- The test of required evidence; null passes. -/
def requireEvidence (result : Option IntegrityEvidence) :
    Except Thrown (Option IntegrityEvidence) :=
  match result with
  | none => .ok none
  | some evidence =>
      if evidence.state = ascii "failed" then
        .error (.swm { kind := .integrity, statusCode := 0, serviceCode := evidence.failureCode
                       message := ascii "host integrity validation failed" })
      else .ok (some evidence)

/-- `manifestSha256`. -/
def manifestSha256 (host : HostState locale crypto options) : Bytes :=
  (host.manifest.map fun kept => kept.2.manifestSha256).getD []

end Manager
/-! ## The calls -/

/-- A text that is neither null nor blank. -/
def present (text : Option Bytes) : Option Bytes := text.filter fun text => ¬ isBlank text

/-- `addIntegrityEvidence`. -/
def evidenceMembers (evidence : IntegrityEvidence) : List (Bytes × Json) :=
  (if isBlank evidence.state then [] else [(ascii "integrity_state", .string evidence.state)]) ++
  (if isBlank evidence.failureCode then []
    else [(ascii "integrity_failure_code", .string evidence.failureCode)]) ++
  (evidence.evidenceVersion.toList.map fun version =>
    (ascii "integrity_evidence_version", Json.integer version)) ++
  (if isBlank evidence.manifestSha256 then []
    else [(ascii "integrity_manifest_sha256", .string evidence.manifestSha256)]) ++
  (if evidence.files = [] then []
    else [(ascii "integrity_files", .object (Json.fromMembers (evidence.files.map
      fun (path, digest) => (path, .string digest))))])

/-- `OperationAuthorizationRequest`; a reference may be null. -/
structure OperationAuthorizationRequest where
  operation : Option Bytes
  plan : Option Bytes
  stepCount : Int
  totalBytes : Int
  consumerModule : Option Bytes
  consumerChallenge : Option Bytes
  hostExecutablePath : Option Bytes
  consumerModulePath : Option Bytes

/-- The exception of a request that is refused before it is sent. -/
def validation (message : String) : Thrown :=
  .swm { kind := .validation, statusCode := 0, serviceCode := [], message := ascii message }

/-- What is used of a valid request. -/
structure ValidRequest where
  operation : Bytes
  plan : Bytes
  consumerModule : Bytes
  hostBound : Bool

/-- `validateOperationRequest`. -/
def validateOperationRequest (request : Option OperationAuthorizationRequest)
    (hostIntegrityRequired : Bool) : Except Thrown (OperationAuthorizationRequest × ValidRequest) :=
  let invalid := validation "operation authorization request is invalid"
  match request with
  | none => .error invalid
  | some request =>
      match present request.operation, request.plan.filter (· ≠ []),
        present request.consumerModule with
      | some operation, some plan, some consumerModule =>
          if request.stepCount < 1 ∨ request.stepCount > 100000 then .error invalid
          else if request.hostExecutablePath.isSome ≠ request.consumerModulePath.isSome then
            .error (validation
              "hostExecutablePath and consumerModulePath must be provided together")
          else
            let hostBound := request.hostExecutablePath.isSome || hostIntegrityRequired
            if hostBound && !request.hostExecutablePath.isSome then
              .error (validation
                "host-bound authorization requires hostExecutablePath and consumerModulePath")
            else .ok (request, ⟨operation, plan, consumerModule, hostBound⟩)
      | _, _, _ => .error invalid

/-- `resolveOperationHashes`. -/
def resolveOperationHashes (crypto : Crypto) (system : HostSystem)
    (request : OperationAuthorizationRequest) : Except Thrown (Bytes × Bytes) :=
  match request.hostExecutablePath, request.consumerModulePath with
  | some host, some module =>
      match system.readAllBytes host, system.readAllBytes module with
      | some hostBytes, some moduleBytes =>
          .ok (crypto.sha256Hex hostBytes, crypto.sha256Hex moduleBytes)
      | _, _ => .error (rim2Error "host_file_io_failed" "cannot hash operation paths")
  | _, _ => .error (.swm (Cpp.configurationError "host and consumer paths are required"))

/-- The request of `authorizeOperation`. -/
def operationRequest (crypto : Crypto) (request : OperationAuthorizationRequest)
    (valid : ValidRequest) (challenge : Bytes) (hashes : Option Cpp.OperationHashes) :
    ClientRequest :=
  postRequest "/api/client/operation-authorizations" .operationAuthorization ([
    (ascii "schema", .string (if hashes.isSome then ascii "operation_grant_v3_host"
      else ascii "operation_grant_v3_unbound")),
    (ascii "operation", .string (trim valid.operation)),
    (ascii "plan_sha256", .string (crypto.sha256Hex valid.plan)),
    (ascii "step_count", .integer request.stepCount),
    (ascii "total_bytes", .integer request.totalBytes),
    (ascii "consumer_challenge", .string (hex challenge)),
    (ascii "consumer_module", .string (trim valid.consumerModule))] ++
    hashes.toList.flatMap fun hashes => [
      (ascii "integrity_manifest_sha256", .string hashes.manifest),
      (ascii "host_exe_sha256", .string hashes.host),
      (ascii "consumer_module_sha256", .string hashes.module)])

section Calls
variable {J : Jackson} (fields : J.Node → List (Bytes × J.Node)) {locale : RootLocale}
  {crypto : Crypto} {options : ClientOptions J} (system : HostSystem)
  (host : HostState locale crypto options) (closed required : Bool)

/-- The request of `reportHeartbeat`. -/
def heartbeatRequest (options : ClientOptions J) (deviceId : Bytes) (appVersion : Option Bytes)
    (attributes : Option Json) (userId : Option Bytes) (evidence : Option IntegrityEvidence) :
    ClientRequest :=
  postRequest "/api/client/heartbeat" .heartbeat ([
    (ascii "device_id", .string deviceId),
    (ascii "channel_code", .string options.channel),
    (ascii "app_version", .string ((present appVersion).getD options.version)),
    (ascii "platform", .string options.platform),
    (ascii "arch", .string options.arch),
    (ascii "attributes", attributes.getD (.object []))] ++
    ((present userId).toList.map fun userId => (ascii "user_id", Json.string (trim userId))) ++
    evidence.toList.flatMap evidenceMembers)

/-- The evidence a heartbeat goes on with. -/
def heartbeatEvidence (found : Option IntegrityEvidence) :
    Except Thrown (Option IntegrityEvidence) :=
  if required then requireEvidence found else .ok found

/-- `reportHeartbeat` up to its request, with what the pipeline holds to be required. -/
def reportHeartbeat (deviceId : Bytes) (appVersion : Option Bytes) (attributes : Option Json)
    (userId : Option Bytes) : Attempt Thrown × HostState locale crypto options :=
  if closed then (⟨none, .error .illegalState⟩, host)
  else
    let result := evidence fields system host
    ({ evidence := Cpp.obtained result.1
       request := do
        let found ← result.1
        let evidence ← heartbeatEvidence required found
        .ok (heartbeatRequest options deviceId appVersion attributes userId evidence) }, result.2)

/-- The challenge of a request, or one that is drawn. -/
def operationChallenge (random : {bytes : Bytes // bytes.length = 32})
    (request : OperationAuthorizationRequest) : Bytes :=
  (request.consumerChallenge.filter (· ≠ [])).getD random.val

/-- `authorizeOperation` after its first tests. -/
def authorizeUnlocked (random : {bytes : Bytes // bytes.length = 32})
    (request : Option OperationAuthorizationRequest) : Except Thrown ClientRequest := do
  let (request, valid) ← validateOperationRequest request required
  let challenge := operationChallenge random request
  if challenge.length ≠ 32 then
    .error (validation "consumer challenge must contain 32 bytes")
  else if valid.hostBound then do
    let (hostHash, moduleHash) ← resolveOperationHashes crypto system request
    .ok (operationRequest crypto request valid challenge
      (some ⟨manifestSha256 host, hostHash, moduleHash⟩))
  else .ok (operationRequest crypto request valid challenge none)

/-- `authorizeOperation` up to its request.  It obtains no evidence. -/
def authorizeOperationAttempt (locked : Bool) (random : {bytes : Bytes // bytes.length = 32})
    (request : Option OperationAuthorizationRequest) :
    Attempt Thrown × HostState locale crypto options :=
  let sent : Except Thrown ClientRequest :=
    if closed then .error .illegalState
    else if locked then .error (.swm Cpp.offlineBudgetExceeded)
    else authorizeUnlocked system host required random request
  (⟨none, sent⟩, host)

/-- It is `authorizeOperation` with the request it makes, at the lock that the clock and the
offline record give. -/
theorem authorizeOperationAttempt_request (id : StateIdentity) (now : Int64) (file : Option Bytes)
    (random : {bytes : Bytes // bytes.length = 32})
    (request : Option OperationAuthorizationRequest) :
    (authorizeOperationAttempt system host closed required (offlineLocked id now file) random
        request).1.request =
      authorizeOperation closed id now file
        (authorizeUnlocked system host required random request) := rfl

end Calls
/-! ## When the calls fail closed -/

section FailClosed
variable {J : Jackson} {fields : J.Node → List (Bytes × J.Node)} {locale : RootLocale}
  {crypto : Crypto} {options : ClientOptions J} {system : HostSystem}
  {host : HostState locale crypto options} {closed required : Bool}

/-- The evidence of these options is decided: what is read of an answer of the provider says
`failed`, or `verified` with a digest; without a provider the manifest is looked at. -/
def EvidenceDecided (fields : J.Node → List (Bytes × J.Node)) (options : ClientOptions J)
    (system : HostSystem) : Prop :=
  match options.hostIntegrity.evidenceProvider with
  | some provider => ∀ node result, provider (providerContext options system) = .ok node →
      fromNode fields node = .ok result → ∃ e, result = some e ∧ e.Decided
  | none => options.hostIntegrity.enabled = true

theorem loadManifest_parsed {root : Bytes} {manifest : Cpp.Rim2Manifest}
    (h : (loadManifest system root host).1 = .ok manifest) :
    ∃ raw, parseAndVerify locale crypto (hostExpected options) raw = .ok manifest := by
  unfold loadManifest at h
  split at h
  · rename_i kept hkept
    obtain rfl := Except.ok.inj h
    exact host.parsed _ (Option.filter_eq_some_iff.mp hkept).1
  · split at h
    · cases h
    · split at h
      · cases h
      · rename_i raw _ parsed hparsed
        obtain rfl := Except.ok.inj h
        exact ⟨raw, hparsed⟩

theorem manifestEvidence_decided {e : IntegrityEvidence}
    (h : (manifestEvidence system host).1 = .ok e) : e.Decided := by
  unfold manifestEvidence at h
  dsimp only at h
  split at h
  · obtain rfl := Except.ok.inj h
    exact .inl rfl
  · cases h
  · obtain rfl := Except.ok.inj h
    exact .inl rfl
  · rename_i evidence hevidence
    obtain rfl := Except.ok.inj h
    split at hevidence
    · cases hevidence
    · rename_i manifest hmanifest
      obtain ⟨files, -, hrest⟩ := bind_eq_ok.mp hevidence
      obtain rfl := Except.ok.inj hrest
      obtain ⟨raw, hraw⟩ := loadManifest_parsed hmanifest
      refine .inr ⟨rfl, ?_⟩
      change manifest.manifestSha256 ≠ []
      rw [parseAndVerify_sha256 hraw]
      exact crypto.sha256Hex_ne_nil raw

/-- **Evidence of a manifest** says that the host failed or that it was verified. -/
theorem evidence_manifest {result : Option IntegrityEvidence}
    (hprovider : options.hostIntegrity.evidenceProvider = none)
    (henabled : options.hostIntegrity.enabled = true)
    (h : (evidence fields system host).1 = .ok result) : ∃ e, result = some e ∧ e.Decided := by
  unfold evidence at h
  rw [hprovider] at h
  dsimp only at h
  rw [if_neg (not_not_intro henabled)] at h
  dsimp only at h
  cases hout : (manifestEvidence system host).1 with
  | error e =>
    rw [hout] at h
    cases h
  | ok e =>
    rw [hout] at h
    obtain rfl := Except.ok.inj h
    exact ⟨e, rfl, manifestEvidence_decided hout⟩

theorem requireEvidence_some {found : IntegrityEvidence} {result : Option IntegrityEvidence} :
    requireEvidence (some found) = .ok result ↔
      found.state ≠ ascii "failed" ∧ result = some found := by
  unfold requireEvidence
  dsimp only
  rw [guard_eq_ok]
  exact and_congr_right fun _ => ⟨fun h => (Except.ok.inj h).symm, fun h => congrArg _ h.symm⟩

/-- Decided evidence passes the test only when it is verified. -/
theorem verified_of_decided {found : IntegrityEvidence} {result : Option IntegrityEvidence}
    (hdecided : found.Decided) (h : requireEvidence (some found) = .ok result) :
    found.Verified := by
  obtain ⟨hpassed, -⟩ := requireEvidence_some.mp h
  rcases hdecided with hfailed | hverified
  · exact absurd hfailed hpassed
  · exact hverified

/-- **Required evidence is verified exactly when the evidence is decided.** -/
theorem required_verified_iff :
    (∀ result, ((evidence fields system host).1 >>= requireEvidence) = .ok result →
      ∃ found, Cpp.obtained (evidence fields system host).1 = some found ∧ found.Verified) ↔
      EvidenceDecided fields options system := by
  unfold EvidenceDecided
  split
  · rename_i provider hprovider
    have hevidence : (evidence fields system host).1 = (do
        let node ← provider (providerContext options system)
        fromNode fields node) := by
      unfold evidence
      rw [hprovider]
    rw [hevidence]
    constructor
    · intro h node result hnode hread
      have hresult := bind_eq_ok.mpr ⟨node, hnode, hread⟩
      rw [hresult] at h
      cases result with
      | none =>
        obtain ⟨found, hfound, -⟩ := h none rfl
        cases hfound
      | some e =>
        refine ⟨e, rfl, ?_⟩
        by_cases hfailed : e.state = ascii "failed"
        · exact .inl hfailed
        · obtain ⟨found, hfound, hverified⟩ := h _ (requireEvidence_some.mpr ⟨hfailed, rfl⟩)
          obtain rfl := Option.some.inj hfound
          exact .inr hverified
    · intro hdecided result hresult
      obtain ⟨found, hfound, hpassed⟩ := bind_eq_ok.mp hresult
      obtain ⟨node, hnode, hread⟩ := bind_eq_ok.mp hfound
      obtain ⟨e, rfl, he⟩ := hdecided node found hnode hread
      rw [hfound]
      exact ⟨e, rfl, verified_of_decided he hpassed⟩
  -- without a provider the manifest decides, if there is one
  · rename_i hprovider
    constructor
    · intro h
      by_contra henabled
      have hevidence : (evidence fields system host).1 = .ok none := by
        unfold evidence
        rw [hprovider]
        dsimp only
        rw [if_pos henabled]
      rw [hevidence] at h
      obtain ⟨found, hfound, -⟩ := h none rfl
      cases hfound
    · intro henabled result hresult
      obtain ⟨found, hfound, hpassed⟩ := bind_eq_ok.mp hresult
      obtain ⟨e, rfl, hdecided⟩ := evidence_manifest hprovider henabled hfound
      rw [hfound]
      exact ⟨e, rfl, verified_of_decided hdecided hpassed⟩

/-- **A heartbeat that requires evidence** is sent with verified evidence only, exactly when the
evidence of the options is decided, or the client is closed. -/
theorem heartbeat_closed_iff {deviceId : Bytes} {appVersion : Option Bytes}
    {attributes : Option Json} {userId : Option Bytes} :
    (reportHeartbeat fields system host closed true deviceId appVersion attributes
        userId).1.FailClosed (fun _ => True) ↔
      (closed = false → EvidenceDecided fields options system) := by
  unfold reportHeartbeat
  cases closed with
  | true =>
    refine iff_of_true ?_ fun hopen => by cases hopen
    intro _ herror
    cases herror
  | false =>
    rw [if_neg Bool.false_ne_true,
      ← @required_verified_iff J fields locale crypto options system host]
    constructor
    · intro h _ result hresult
      obtain ⟨found, hfound, hpassed⟩ := bind_eq_ok.mp hresult
      exact h _ (bind_eq_ok.mpr ⟨found, hfound, bind_eq_ok.mpr ⟨result, hpassed, rfl⟩⟩) trivial
    · intro h request hrequest _
      obtain ⟨found, hfound, hrest⟩ := bind_eq_ok.mp hrequest
      obtain ⟨result, hpassed, -⟩ := bind_eq_ok.mp hrest
      exact h rfl result (bind_eq_ok.mpr ⟨found, hfound, hpassed⟩)

/-- The schema of a request to authorize an operation. -/
theorem hostBound_operationRequest {request : OperationAuthorizationRequest}
    {valid : ValidRequest} {challenge : Bytes} {hashes : Option Cpp.OperationHashes} :
    HostBound (operationRequest crypto request valid challenge hashes) ↔ hashes.isSome = true := by
  have hschema : (operationRequest crypto request valid challenge hashes).body.find
      (ascii "schema") = some (.string (if hashes.isSome then ascii "operation_grant_v3_host"
        else ascii "operation_grant_v3_unbound")) := by
    change Json.lookup _ (Json.fromMembers _) = _
    rw [Json.lookup_fromMembers]
    cases hashes with
    | none => rfl
    | some hashes => rfl
  exact hostBound_of_schema hschema

/-- Both files of the request can be read. -/
def FilesReadable (system : HostSystem) (request : OperationAuthorizationRequest) : Prop :=
  ∃ hostPath ∈ request.hostExecutablePath, ∃ modulePath ∈ request.consumerModulePath,
    (system.readAllBytes hostPath).isSome = true ∧ (system.readAllBytes modulePath).isSome = true

theorem resolveOperationHashes_ok_iff {request : OperationAuthorizationRequest} :
    (∃ hashes, resolveOperationHashes crypto system request = .ok hashes) ↔
      FilesReadable system request := by
  unfold resolveOperationHashes FilesReadable
  cases request.hostExecutablePath with
  | none => simp
  | some hostPath =>
    cases request.consumerModulePath with
    | none => simp
    | some modulePath =>
      cases hhost : system.readAllBytes hostPath with
      | none => simp [hhost]
      | some hostBytes =>
        cases hmodule : system.readAllBytes modulePath with
        | none => simp [hmodule]
        | some moduleBytes => simp [hhost, hmodule]

/-- The challenge is absent, empty, or as long as it must be. -/
def ChallengeFits (request : OperationAuthorizationRequest) : Prop :=
  ∀ challenge ∈ request.consumerChallenge, challenge = [] ∨ challenge.length = 32

theorem operationChallenge_length_iff {random : {bytes : Bytes // bytes.length = 32}}
    {request : OperationAuthorizationRequest} :
    (operationChallenge random request).length = 32 ↔ ChallengeFits request := by
  unfold operationChallenge ChallengeFits
  cases request.consumerChallenge with
  | none => simp [random.property]
  | some challenge =>
    by_cases hempty : challenge = []
    · simp [hempty, Option.filter, random.property]
    · simp [hempty, Option.filter]

/-- A request that is bound to the host passes every test of the call. -/
structure OperationPasses (system : HostSystem) (closed locked required : Bool)
    (request : Option OperationAuthorizationRequest) : Prop where
  opened : closed = false
  unlocked : locked = false
  valid : ∃ used valid, validateOperationRequest request required = .ok (used, valid) ∧
    valid.hostBound = true ∧ ChallengeFits used ∧ FilesReadable system used

/-- A host-bound request that is sent after the first tests. -/
theorem authorizeUnlocked_bound_iff {random : {bytes : Bytes // bytes.length = 32}}
    {request : Option OperationAuthorizationRequest} :
    (∃ sent, authorizeUnlocked system host required random request = .ok sent ∧ HostBound sent) ↔
      ∃ used valid, validateOperationRequest request required = .ok (used, valid) ∧
        valid.hostBound = true ∧ ChallengeFits used ∧ FilesReadable system used := by
  unfold authorizeUnlocked
  constructor
  · rintro ⟨sent, hsent, hbound⟩
    obtain ⟨⟨used, valid⟩, hvalid, hrest⟩ := bind_eq_ok.mp hsent
    obtain ⟨hlength, hrest⟩ := guard_eq_ok.mp hrest
    refine ⟨used, valid, hvalid, ?_⟩
    by_cases hhost : valid.hostBound = true
    · rw [if_pos hhost] at hrest
      obtain ⟨hashes, hhashes, -⟩ := bind_eq_ok.mp hrest
      exact ⟨hhost, operationChallenge_length_iff.mp (not_not.mp hlength),
        resolveOperationHashes_ok_iff.mp ⟨hashes, hhashes⟩⟩
    · rw [if_neg hhost] at hrest
      obtain rfl := Except.ok.inj hrest
      exact absurd (hostBound_operationRequest.mp hbound) Bool.false_ne_true
  · rintro ⟨used, valid, hvalid, hhost, hfits, hfiles⟩
    obtain ⟨hashes, hhashes⟩ := resolveOperationHashes_ok_iff.mpr hfiles
    refine ⟨operationRequest crypto used valid (operationChallenge random used)
      (some ⟨manifestSha256 host, hashes.1, hashes.2⟩),
      bind_eq_ok.mpr ⟨(used, valid), hvalid, guard_eq_ok.mpr
        ⟨not_not_intro (operationChallenge_length_iff.mpr hfits), ?_⟩⟩,
      hostBound_operationRequest.mpr rfl⟩
    rw [if_pos hhost]
    exact bind_eq_ok.mpr ⟨hashes, hhashes, rfl⟩

/-- **A host-bound operation** is sent without evidence whenever it passes. -/
theorem operation_closed_iff {locked : Bool} {random : {bytes : Bytes // bytes.length = 32}}
    {request : Option OperationAuthorizationRequest} :
    (authorizeOperationAttempt system host closed required locked random
        request).1.FailClosed HostBound ↔
      ¬ OperationPasses system closed locked required request := by
  unfold authorizeOperationAttempt
  dsimp only
  constructor
  · rintro h ⟨hopened, hunlocked, hvalid⟩
    obtain ⟨sent, hsent, hbound⟩ : ∃ sent,
        authorizeUnlocked system host required random request = .ok sent ∧ HostBound sent :=
      authorizeUnlocked_bound_iff.mpr hvalid
    obtain ⟨e, hnone, -⟩ := h sent (by
      dsimp only
      rw [hopened, hunlocked, if_neg Bool.false_ne_true, if_neg Bool.false_ne_true]
      exact hsent) hbound
    cases hnone
  · intro hpasses sent hsent hbound
    dsimp only at hsent
    obtain ⟨hopened, hsent⟩ := guard_eq_ok.mp hsent
    obtain ⟨hunlocked, hsent⟩ := guard_eq_ok.mp hsent
    exact absurd ⟨Bool.eq_false_iff.mpr hopened, Bool.eq_false_iff.mpr hunlocked,
      authorizeUnlocked_bound_iff.mp ⟨sent, hsent, hbound⟩⟩ hpasses

end FailClosed
end Java

/-- **When the calls that are bound to the host fail closed.**  In C++ and in Java a heartbeat
that requires evidence does exactly when the evidence of the options is decided; so does a
C++ operation that passes; a Java operation never does. -/
theorem hostBound_failClosed_iff (crypto : Crypto)
    (random : {bytes : Bytes // bytes.length = 32}) :
    (∀ (client : Cpp.Client) (system : Cpp.HostSystem)
      (host : Cpp.HostState crypto client.pipelineOptions) (deviceId appVersion : Bytes)
      (attributes : Json) (userId : Bytes),
      (Cpp.reportHeartbeat client system host true deviceId appVersion attributes
          userId).1.FailClosed (fun _ => True) ↔
        Cpp.EvidenceDecided client.pipelineOptions system) ∧
    (∀ (client : Cpp.Client) (system : Cpp.HostSystem)
      (host : Cpp.HostState crypto client.pipelineOptions) (required locked : Bool)
      (request : Cpp.OperationAuthorizationRequest),
      (Cpp.authorizeOperation client system host required locked random request).1.FailClosed
          HostBound ↔
        (Cpp.OperationPasses system locked required request →
          Cpp.EvidenceDecided client.pipelineOptions system)) ∧
    (∀ (J : Java.Jackson) (fields : J.Node → List (Bytes × J.Node)) (locale : Java.RootLocale)
      (options : Java.ClientOptions J) (system : Java.HostSystem)
      (host : Java.HostState locale crypto options) (closed : Bool) (deviceId : Bytes)
      (appVersion : Option Bytes) (attributes : Option Json) (userId : Option Bytes),
      (Java.reportHeartbeat fields system host closed true deviceId appVersion attributes
          userId).1.FailClosed (fun _ => True) ↔
        (closed = false → Java.EvidenceDecided fields options system)) ∧
    (∀ (J : Java.Jackson) (locale : Java.RootLocale) (options : Java.ClientOptions J)
      (system : Java.HostSystem) (host : Java.HostState locale crypto options)
      (closed required locked : Bool) (request : Option Java.OperationAuthorizationRequest),
      (Java.authorizeOperationAttempt system host closed required locked random
          request).1.FailClosed HostBound ↔
        ¬ Java.OperationPasses system closed locked required request) := by
  refine ⟨?_, ?_, ?_, ?_⟩
  · intro client system host deviceId appVersion attributes userId
    exact Cpp.heartbeat_closed_iff
  · intro client system host required locked request
    exact Cpp.operation_closed_iff
  · intro J fields locale options system host closed deviceId appVersion attributes userId
    exact Java.heartbeat_closed_iff
  · intro J locale options system host closed required locked request
    exact Java.operation_closed_iff

/-- A package of two files. -/
def sampleFiles (path : Bytes) : Option Bytes :=
  if path = ascii "host.exe" ∨ path = ascii "plan.dll" then some path else none

/-- A system without a manifest. -/
def bareSystem : Cpp.HostSystem where
  absolute := .ok
  currentPath := .ok []
  narrow _ := .ok []
  fold := id
  existsFile _ := .ok false
  content _ := none
  size _ := 0

namespace Java

/-- A system whose paths are lists of names, without links. -/
def bareSystem : HostSystem where
  packageRoot := []
  resolve root relative := .ok (root ++ relative)
  startsWith path root := root <+: path
  existsFile path := (sampleFiles path).isSome
  readAllBytes := sampleFiles

def sampleOptions : ClientOptions strictJackson where
  appId := Cpp.sampleOptions.appId
  releaseId := Cpp.sampleOptions.releaseId
  version := Cpp.sampleOptions.version
  versionCode := Cpp.sampleOptions.versionCode
  rootTrustKeyId := Cpp.sampleOptions.rootTrustKeyId
  rootTrustPublicKey := Cpp.sampleOptions.rootTrustPublicKey
  channel := Cpp.sampleOptions.channel
  platform := Cpp.sampleOptions.platform
  arch := ascii "x64"
  hostIntegrity := ⟨true, ascii "release-integrity.v2", none⟩

def sampleRequest : OperationAuthorizationRequest where
  operation := some (ascii "flash")
  plan := some (ascii "plan")
  stepCount := 1
  totalBytes := 4
  consumerModule := some (ascii "plan.dll")
  consumerChallenge := none
  hostExecutablePath := some (ascii "host.exe")
  consumerModulePath := some (ascii "plan.dll")

end Java

/-- With host integrity left disabled, as it is by default, a heartbeat goes out without evidence
although the policy requires it; and a Java operation that is bound to the host goes out without
any evidence, also with host integrity enabled and no manifest there. -/
theorem unverified_sent :
    (¬ ∀ (crypto : Crypto) (client : Cpp.Client) (system : Cpp.HostSystem)
      (host : Cpp.HostState crypto client.pipelineOptions) (deviceId appVersion : Bytes)
      (attributes : Json) (userId : Bytes),
      (Cpp.reportHeartbeat client system host true deviceId appVersion attributes
        userId).1.FailClosed fun _ => True) ∧
    ¬ ∀ (J : Java.Jackson) (locale : Java.RootLocale) (crypto : Crypto)
      (options : Java.ClientOptions J) (system : Java.HostSystem)
      (host : Java.HostState locale crypto options) (closed required locked : Bool)
      (random : {bytes : Bytes // bytes.length = 32})
      (request : Option Java.OperationAuthorizationRequest),
      (Java.authorizeOperationAttempt system host closed required locked random
        request).1.FailClosed HostBound := by
  constructor
  · intro h
    have hoff : ¬ Cpp.EvidenceDecided { Cpp.sampleOptions with
        hostIntegrity := ⟨false, [], ascii "release-integrity.v2", none⟩ } bareSystem :=
      Bool.false_ne_true
    exact hoff (Cpp.heartbeat_closed_iff.mp (h sampleRim2Crypto ⟨Cpp.sampleOptions, _⟩ bareSystem
      (Cpp.HostState.initial ..) [] [] .null []))
  · intro h
    refine Java.operation_closed_iff.mp (h Java.strictJackson sampleClient.locale sampleRim2Crypto
      Java.sampleOptions Java.bareSystem (Java.HostState.initial ..) false true false
      ⟨emptyDigest, rfl⟩ (some Java.sampleRequest)) ⟨rfl, rfl, Java.sampleRequest,
        ⟨ascii "flash", ascii "plan", ascii "plan.dll", true⟩, rfl, rfl, ?_, ?_⟩
    · intro challenge hchallenge
      cases hchallenge
    · exact ⟨_, rfl, _, rfl, by decide, by decide⟩

end SwmSdk
