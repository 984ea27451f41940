import SwmSdk.HostIntegrity

/-! # The requests of the C++ client

What `check_update`, `report_heartbeat`, `watch_updates` and `authorize_operation` put into their
requests, and the evidence of the host that they obtain before.

The architecture that a client reports is the one its manifest is compared with exactly when
the options name one; and a signed manifest of the release is then never another release's
exactly when its UUIDs are written in lower case (`options_agree_iff`).
-/
namespace SwmSdk
open ByteText

/-- A `ProtocolRequest` that is given to the pipeline; `body` is the value that is written. -/
structure ClientRequest where
  method : Bytes
  path : Bytes
  operation : OperationClass
  body : Json
  encryptBody : Bool
  requireSession : Bool
  requireTrustedTime : Bool
  requireOnlineKey : Bool

/-- A request with a JSON body. -/
def postRequest (path : String) (operation : OperationClass) (members : List (Bytes × Json)) :
    ClientRequest where
  method := ascii "POST"
  path := ascii path
  operation := operation
  body := .object (Json.fromMembers members)
  encryptBody := true
  requireSession := operation ≠ .updateCheck
  requireTrustedTime := true
  requireOnlineKey := true

/-- A request to authorize an operation of this host. -/
def HostBound (request : ClientRequest) : Prop :=
  request.body.find (ascii "schema") = some (.string (ascii "operation_grant_v3_host"))

/-- The schema says whether a request is bound. -/
theorem hostBound_of_schema {request : ClientRequest} {bound : Bool}
    (h : request.body.find (ascii "schema") = some (.string
      (if bound then ascii "operation_grant_v3_host" else ascii "operation_grant_v3_unbound"))) :
    HostBound request ↔ bound = true := by
  have hnames : ascii "operation_grant_v3_unbound" ≠ ascii "operation_grant_v3_host" := by decide
  unfold HostBound
  rw [h, Option.some.injEq, Json.string.injEq]
  cases bound with
  | true => exact iff_of_true rfl rfl
  | false => exact iff_of_false hnames Bool.false_ne_true

/-- A call up to its request: the evidence that was obtained for it, and the request, or what
is thrown before anything is sent. -/
structure Attempt (ε : Type) where
  evidence : Option IntegrityEvidence
  request : Except ε ClientRequest

/-- **Fail closed**: of the requests in question, one is sent only with verified evidence. -/
def Attempt.FailClosed {ε : Type} (attempt : Attempt ε) (question : ClientRequest → Prop) :
    Prop :=
  ∀ request, attempt.request = .ok request → question request →
    ∃ e, attempt.evidence = some e ∧ e.Verified

namespace Cpp
open Outcome

/-! ## The requests -/

/-- `url_escape`. -/
def urlEscape (value : Bytes) : Bytes :=
  value.flatMap fun b =>
    if (48 ≤ b ∧ b ≤ 57) ∨ (65 ≤ b ∧ b ≤ 90) ∨ (97 ≤ b ∧ b ≤ 122) ∨ b = 0x2d ∨ b = 0x5f ∨
        b = 0x2e ∨ b = 0x7e then [b]
    else [0x25, upperDigit (b.toNat / 16), upperDigit (b.toNat % 16)]
where
  upperDigit (n : Nat) : UInt8 := UInt8.ofNat (if n < 10 then 48 + n else 55 + n)

/-- The query of the stream that `watch_updates` opens. -/
def updatesStreamQuery (client : Client) (deviceId currentVersion : Bytes)
    (versionCode : Option Int) : List (Bytes × Bytes) :=
  let currentVersion := if currentVersion = [] then client.options.version else currentVersion
  let versionCode := versionCode.getD (client.options.versionCode.getD 0)
  [(ascii "device_id", urlEscape deviceId),
    (ascii "channel_code", urlEscape client.options.channel),
    (ascii "platform", urlEscape client.options.platform),
    (ascii "arch", urlEscape client.options.arch),
    (ascii "current_version", urlEscape currentVersion),
    (ascii "version_code", decimal versionCode)]

/-- The attributes, if they are an object. -/
def attributesObject (attributes : Json) : Json :=
  if isObject attributes then attributes else .object []

/-- The user id of a request body, if there is one. -/
def userMember (userId : Bytes) : List (Bytes × Json) :=
  if userId = [] then [] else [(ascii "user_id", .string userId)]

/-- The members of evidence that both requests have. -/
def evidenceMembers (evidence : IntegrityEvidence) : List (Bytes × Json) :=
  (evidence.evidenceVersion.toList.map fun version =>
    (ascii "integrity_evidence_version", Json.unsigned version.toNat)) ++
  (if evidence.manifestSha256 = [] then []
    else [(ascii "integrity_manifest_sha256", .string evidence.manifestSha256)]) ++
  (if evidence.files = [] then []
    else [(ascii "integrity_files",
      .object (evidence.files.map fun (path, digest) => (path, .string digest)))])

/-- The request of `check_update`. -/
def checkUpdateRequest (client : Client) (deviceId : Bytes) (deviceAuth attributes : Json)
    (userId : Bytes) (evidence : Option IntegrityEvidence) : ClientRequest :=
  postRequest "/api/client/update-check" .updateCheck ([
    (ascii "channel_code", .string client.options.channel),
    (ascii "current_version", .string client.options.version),
    (ascii "version_code", (client.options.versionCode.map Json.integer).getD .null),
    (ascii "platform", .string client.options.platform),
    (ascii "arch", .string client.options.arch),
    (ascii "device_id", .string deviceId),
    (ascii "attributes", attributesObject attributes),
    (ascii "device_auth", deviceAuth)] ++ userMember userId ++
    evidence.toList.flatMap fun e =>
      (ascii "integrity_state", .string e.state) ::
      (if e.failureCode = [] then []
        else [(ascii "integrity_failure_code", .string e.failureCode)]) ++ evidenceMembers e)

/-- The request of `report_heartbeat`. -/
def heartbeatRequest (client : Client) (deviceId appVersion : Bytes) (attributes : Json)
    (userId : Bytes) (evidence : IntegrityEvidence) : ClientRequest :=
  postRequest "/api/client/heartbeat" .heartbeat ([
    (ascii "device_id", .string deviceId),
    (ascii "channel_code", .string client.options.channel),
    (ascii "app_version", .string (if appVersion = [] then client.options.version else appVersion)),
    (ascii "platform", .string client.options.platform),
    (ascii "arch", .string client.options.arch),
    (ascii "attributes", attributesObject attributes)] ++ userMember userId ++
    if evidence.state = [] then [] else evidenceMembers evidence)

/-- `OperationAuthorizationRequest`. -/
structure OperationAuthorizationRequest where
  operation : Bytes
  plan : Bytes
  stepCount : UInt32
  totalBytes : UInt64
  consumerModule : Bytes
  consumerChallenge : Bytes
  hostExecutablePath : List UInt16
  consumerModulePath : List UInt16

/-- `validate_operation_authorization_request`: whether the request is bound to the host. -/
def validateOperationAuthorizationRequest (request : OperationAuthorizationRequest)
    (hostIntegrityRequired : Bool) : Except Error Bool :=
  if trimAscii request.operation = [] ∨ request.plan = [] ∨ request.stepCount = 0 ∨
      request.stepCount > 100000 ∨ trimAscii request.consumerModule = [] then
    .error (configurationError "operation authorization request is invalid")
  else
    let hasHostPath : Bool := request.hostExecutablePath ≠ []
    let hasModulePath : Bool := request.consumerModulePath ≠ []
    if hasHostPath ≠ hasModulePath then
      .error (configurationError
        "host_executable_path and consumer_module_path must be provided together")
    else
      let hostBound := hasHostPath || hostIntegrityRequired
      if hostBound && !hasHostPath then
        .error (configurationError
          "host-bound operation authorization requires host and consumer module paths")
      else if request.consumerChallenge ≠ [] ∧ request.consumerChallenge.length ≠ 32 then
        .error (configurationError "consumer challenge must be 32 bytes")
      else .ok hostBound

/-- The digests of a host-bound operation. -/
structure OperationHashes where
  manifest : Bytes
  host : Bytes
  module : Bytes

/-- The request of `authorize_operation`. -/
def operationRequest (crypto : Crypto) (request : OperationAuthorizationRequest)
    (challenge : Bytes) (hashes : Option OperationHashes) : ClientRequest :=
  postRequest "/api/client/operation-authorizations" .operationAuthorization ([
    (ascii "schema", .string (if hashes.isSome then ascii "operation_grant_v3_host"
      else ascii "operation_grant_v3_unbound")),
    (ascii "operation", .string (trimAscii request.operation)),
    (ascii "plan_sha256", .string (crypto.sha256Hex request.plan)),
    (ascii "step_count", .unsigned request.stepCount.toNat),
    (ascii "total_bytes", .unsigned request.totalBytes.toNat),
    (ascii "consumer_challenge", .string (hex challenge)),
    (ascii "consumer_module", .string (trimAscii request.consumerModule))] ++
    hashes.toList.flatMap fun hashes => [
      (ascii "integrity_manifest_sha256", .string hashes.manifest),
      (ascii "host_exe_sha256", .string hashes.host),
      (ascii "consumer_module_sha256", .string hashes.module)])

/-! ## The calls -/

/-- The evidence of a call to `evidence`. -/
def obtained {ε : Type} (result : Except ε (Option IntegrityEvidence)) : Option IntegrityEvidence :=
  match result with
  | .ok evidence => evidence
  | .error _ => none

section Calls
variable {crypto : Crypto} (client : Client) (system : HostSystem)
  (host : HostState crypto client.pipelineOptions) (required : Bool)

/-- The evidence a heartbeat goes on with. -/
def heartbeatEvidence (found : Option IntegrityEvidence) : Except Failure IntegrityEvidence :=
  if required then requireEvidence found else .ok (found.getD .empty)

/-- `report_heartbeat` up to its request, with what the pipeline holds to be required. -/
def reportHeartbeat (deviceId appVersion : Bytes) (attributes : Json) (userId : Bytes) :
    Attempt Failure × HostState crypto client.pipelineOptions :=
  let result := evidence system host
  ({ evidence := obtained result.1
     request := do
      let found ← result.1
      let evidence ← heartbeatEvidence required found
      .ok (heartbeatRequest client deviceId appVersion attributes userId evidence) }, result.2)

/-- What the calls that need the network throw once the offline budget is used up. -/
def offlineBudgetExceeded : Error where
  kind := .offlineBudget
  statusCode := 0
  serviceCode := ascii "offline_budget_exceeded"
  message := ascii "offline budget exceeded; restart the client and complete a full bootstrap"

/-- `authorize_operation` up to its request; `random` is the challenge that is drawn. -/
def authorizeOperation (locked : Bool) (random : {bytes : Bytes // bytes.length = 32})
    (request : OperationAuthorizationRequest) :
    Attempt Failure × HostState crypto client.pipelineOptions :=
  if locked then (⟨none, .error (.swm offlineBudgetExceeded)⟩, host)
  else
    match validateOperationAuthorizationRequest request required with
    | .error e => (⟨none, .error (.swm e)⟩, host)
    | .ok hostBound =>
        let challenge :=
          if request.consumerChallenge = [] then random.val else request.consumerChallenge
        if challenge.length ≠ 32 then
          (⟨none, .error (.swm (configurationError "consumer challenge must be 32 bytes"))⟩, host)
        else if hostBound then
          let result := evidence system host
          ({ evidence := obtained result.1
             request := do
              let evidence ← result.1 >>= requireEvidence
              let (hostHash, moduleHash) ← resolveOperationHashes crypto system
                request.hostExecutablePath request.consumerModulePath
              .ok (operationRequest crypto request challenge
                (some ⟨evidence.manifestSha256, hostHash, moduleHash⟩)) }, result.2)
        else (⟨none, .ok (operationRequest crypto request challenge none)⟩, host)

end Calls

/-! ## When the C++ calls fail closed -/

/-- The evidence of these options is decided: a provider that answers says `failed`, or
`verified` with a digest; without a provider the manifest is looked at. -/
def EvidenceDecided (options : ClientOptions) (system : HostSystem) : Prop :=
  match options.hostIntegrity.evidenceProvider with
  | some provider => ∀ context result e, providerContext options system = .ok context →
      provider context = .ok result → readEvidence result = .ok e → e.Decided
  | none => options.hostIntegrity.enabled = true

/-- The evidence of a provider is decided exactly when what is read of its answer is. -/
theorem providerEvidence_decided_iff {options : ClientOptions} {system : HostSystem}
    {provider : Json → Except Failure Json} :
    (providerEvidence options system provider).Decided ↔
      ∀ context result e, providerContext options system = .ok context →
        provider context = .ok result → readEvidence result = .ok e → e.Decided := by
  unfold providerEvidence
  dsimp only
  constructor
  · intro h context result e hcontext hresult hread
    have hchain : (do
        let context ← providerContext options system
        let result ← provider context
        lift (readEvidence result)) = .ok e :=
      bind_eq_ok.mpr ⟨context, hcontext, bind_eq_ok.mpr ⟨result, hresult, lift_eq_ok.mpr hread⟩⟩
    rw [hchain] at h
    exact h
  · intro h
    split
    · rename_i e hchain
      obtain ⟨context, hcontext, hrest⟩ := bind_eq_ok.mp hchain
      obtain ⟨result, hresult, hread⟩ := bind_eq_ok.mp hrest
      exact h context result e hcontext hresult (lift_eq_ok.mp hread)
    · exact .inl rfl

/-- Evidence that is decided passes the test only when it is verified. -/
theorem requireEvidence_some {found e : IntegrityEvidence} :
    requireEvidence (some found) = .ok e ↔ found.state ≠ ascii "failed" ∧ e = found := by
  unfold requireEvidence
  dsimp only
  rw [guard_eq_ok]
  exact and_congr_right fun _ => ⟨fun h => (Except.ok.inj h).symm, fun h => congrArg _ h.symm⟩

/-- **Required evidence is verified exactly when the evidence is decided.** -/
theorem required_verified_iff {crypto : Crypto} {options : ClientOptions} {system : HostSystem}
    {host : HostState crypto options} :
    (∀ e, ((evidence system host).1 >>= requireEvidence) = .ok e →
      ∃ found, obtained (evidence system host).1 = some found ∧ found.Verified) ↔
      EvidenceDecided options system := by
  unfold EvidenceDecided
  split
  · rename_i provider hprovider
    have hevidence : (evidence system host).1 =
        .ok (some (providerEvidence options system provider)) := by
      unfold evidence
      rw [hprovider]
    rw [hevidence, ← providerEvidence_decided_iff]
    constructor
    · intro h
      by_cases hfailed : (providerEvidence options system provider).state = ascii "failed"
      · exact .inl hfailed
      · obtain ⟨found, hfound, hverified⟩ := h _ (requireEvidence_some.mpr ⟨hfailed, rfl⟩)
        obtain rfl := Option.some.inj hfound
        exact .inr hverified
    · intro hdecided e he
      obtain ⟨hpassed, -⟩ := requireEvidence_some.mp he
      rcases hdecided with hfailed | hverified
      · exact absurd hfailed hpassed
      · exact ⟨_, rfl, hverified⟩
  -- without a provider the manifest decides, if there is one
  · rename_i hprovider
    constructor
    · intro h
      by_contra henabled
      have hevidence : (evidence system host).1 = .ok none := by
        unfold evidence
        rw [hprovider]
        dsimp only
        rw [if_pos henabled]
      rw [hevidence] at h
      obtain ⟨found, hfound, -⟩ := h .empty rfl
      cases hfound
    · intro henabled e he
      obtain ⟨result, hresult, hpassed⟩ := bind_eq_ok.mp he
      obtain ⟨found, rfl, hdecided⟩ := evidence_manifest system hprovider henabled hresult
      obtain ⟨hpassed, -⟩ := requireEvidence_some.mp hpassed
      rcases hdecided with hfailed | hverified
      · exact absurd hfailed hpassed
      · rw [hresult]
        exact ⟨found, rfl, hverified⟩

section FailClosed
variable {crypto : Crypto} {client : Client} {system : HostSystem}
  {host : HostState crypto client.pipelineOptions} {required : Bool}

/-- **A heartbeat that requires evidence** is sent with verified evidence only, exactly when the
evidence of the options is decided. -/
theorem heartbeat_closed_iff {deviceId appVersion : Bytes} {attributes : Json} {userId : Bytes} :
    (reportHeartbeat client system host true deviceId appVersion attributes userId).1.FailClosed
        (fun _ => True) ↔ EvidenceDecided client.pipelineOptions system := by
  rw [← @required_verified_iff crypto client.pipelineOptions system host]
  constructor
  · intro h e he
    obtain ⟨found, hfound, hpassed⟩ := bind_eq_ok.mp he
    exact h _ (bind_eq_ok.mpr ⟨found, hfound, bind_eq_ok.mpr ⟨e, hpassed, rfl⟩⟩) trivial
  · intro h request hrequest _
    obtain ⟨found, hfound, hrest⟩ := bind_eq_ok.mp hrequest
    obtain ⟨e, hpassed, -⟩ := bind_eq_ok.mp hrest
    exact h e (bind_eq_ok.mpr ⟨found, hfound, hpassed⟩)

/-- The schema of a request to authorize an operation. -/
theorem hostBound_operationRequest {request : OperationAuthorizationRequest} {challenge : Bytes}
    {hashes : Option OperationHashes} :
    HostBound (operationRequest crypto request challenge hashes) ↔ hashes.isSome = true := by
  have hschema : (operationRequest crypto request challenge hashes).body.find (ascii "schema") =
      some (.string (if hashes.isSome then ascii "operation_grant_v3_host"
        else ascii "operation_grant_v3_unbound")) := by
    change Json.lookup _ (Json.fromMembers _) = _
    rw [Json.lookup_fromMembers]
    cases hashes with
    | none => rfl
    | some hashes => rfl
  exact hostBound_of_schema hschema

/-- A host-bound request that passes the tests before and after the evidence: nothing is locked,
it is valid, and both of its files can be read. -/
structure OperationPasses (system : HostSystem) (locked required : Bool)
    (request : OperationAuthorizationRequest) : Prop where
  unlocked : locked = false
  valid : validateOperationAuthorizationRequest request required = .ok true
  hostReadable : (system.content request.hostExecutablePath).isSome = true
  moduleReadable : (system.content request.consumerModulePath).isSome = true

/-- What a request that is bound to the host has passed. -/
theorem validate_ok {request : OperationAuthorizationRequest} {hostBound : Bool}
    (h : validateOperationAuthorizationRequest request required = .ok hostBound) :
    (request.consumerChallenge = [] ∨ request.consumerChallenge.length = 32) ∧
      (hostBound = true → request.hostExecutablePath ≠ [] ∧ request.consumerModulePath ≠ []) := by
  unfold validateOperationAuthorizationRequest at h
  obtain ⟨-, h⟩ := guard_eq_ok.mp h
  dsimp only at h
  obtain ⟨htogether, h⟩ := guard_eq_ok.mp h
  obtain ⟨hpaths, h⟩ := guard_eq_ok.mp h
  obtain ⟨hchallenge, h⟩ := guard_eq_ok.mp h
  obtain rfl := Except.ok.inj h
  refine ⟨by tauto, fun hbound => ?_⟩
  rw [hbound, Bool.true_and] at hpaths
  have hhost : request.hostExecutablePath ≠ [] := by simpa using hpaths
  refine ⟨hhost, ?_⟩
  simpa [hhost] using htogether

theorem hashFile_ok_iff {path : List UInt16} :
    (∃ digest, hashFile crypto system path = .ok digest) ↔ (system.content path).isSome = true := by
  unfold hashFile
  cases system.content path with
  | none => simp
  | some bytes => simp

/-- **A host-bound operation** is sent with verified evidence only, exactly when the evidence of
the options is decided, or the request does not pass anyway. -/
theorem operation_closed_iff {locked : Bool} {random : {bytes : Bytes // bytes.length = 32}}
    {request : OperationAuthorizationRequest} :
    (authorizeOperation client system host required locked random request).1.FailClosed HostBound ↔
      (OperationPasses system locked required request →
        EvidenceDecided client.pipelineOptions system) := by
  unfold authorizeOperation
  by_cases hlocked : locked = true
  · rw [if_pos hlocked]
    refine iff_of_true ?_ fun hpasses => ?_
    · intro _ herror
      cases herror
    · rw [hpasses.unlocked] at hlocked
      cases hlocked
  rw [if_neg hlocked]
  cases hvalid : validateOperationAuthorizationRequest request required with
  | error e =>
    refine iff_of_true ?_ fun hpasses => ?_
    · intro _ herror
      cases herror
    · rw [hpasses.valid] at hvalid
      cases hvalid
  | ok hostBound =>
    obtain ⟨hchallenge, hpaths⟩ := validate_ok hvalid
    -- a challenge of the consumer was checked, and a random one has 32 bytes
    have hlength : (if request.consumerChallenge = [] then random.val
        else request.consumerChallenge).length = 32 := by
      split
      · exact random.property
      · tauto
    dsimp only
    rw [if_neg (not_not_intro hlength)]
    cases hostBound with
    -- an operation that is not bound to the host is asked for no evidence
    | false =>
      rw [if_neg Bool.false_ne_true]
      refine iff_of_true ?_ fun hpasses => ?_
      · intro sent hsent hbound
        obtain rfl := Except.ok.inj hsent
        exact absurd (hostBound_operationRequest.mp hbound) Bool.false_ne_true
      · rw [hpasses.valid] at hvalid
        cases hvalid
    | true =>
      obtain ⟨hhost, hmodule⟩ := hpaths rfl
      have hboth : ¬ (request.hostExecutablePath = [] ∨ request.consumerModulePath = []) :=
        not_or.mpr ⟨hhost, hmodule⟩
      rw [if_pos rfl, ← @required_verified_iff crypto client.pipelineOptions system host]
      constructor
      · intro h hpasses e he
        obtain ⟨hostHash, hhostHash⟩ := hashFile_ok_iff.mpr hpasses.hostReadable
        obtain ⟨moduleHash, hmoduleHash⟩ := hashFile_ok_iff.mpr hpasses.moduleReadable
        have hhashes : resolveOperationHashes crypto system request.hostExecutablePath
            request.consumerModulePath = .ok (hex hostHash, hex moduleHash) := by
          unfold resolveOperationHashes
          rw [if_neg hboth]
          exact bind_eq_ok.mpr ⟨_, hhostHash, bind_eq_ok.mpr ⟨_, hmoduleHash, rfl⟩⟩
        exact h _ (bind_eq_ok.mpr ⟨e, he, bind_eq_ok.mpr ⟨_, hhashes, rfl⟩⟩)
          (hostBound_operationRequest.mpr rfl)
      · intro h sent hsent _
        obtain ⟨e, he, hrest⟩ := bind_eq_ok.mp hsent
        obtain ⟨hashes, hhashes, -⟩ := bind_eq_ok.mp hrest
        unfold resolveOperationHashes at hhashes
        rw [if_neg hboth] at hhashes
        obtain ⟨hostHash, hhostHash, hhashes⟩ := bind_eq_ok.mp hhashes
        obtain ⟨moduleHash, hmoduleHash, -⟩ := bind_eq_ok.mp hhashes
        exact h ⟨Bool.eq_false_iff.mpr hlocked, hvalid, hashFile_ok_iff.mp ⟨_, hhostHash⟩,
          hashFile_ok_iff.mp ⟨_, hmoduleHash⟩⟩ e he

end FailClosed

/-! ## The architecture that is reported and the one that is compared -/

/-- The requests of the client that name an architecture name this one. -/
structure ReportsArch (client : Client) (arch : Bytes) : Prop where
  checkUpdate : ∀ deviceId deviceAuth attributes userId evidence,
    (checkUpdateRequest client deviceId deviceAuth attributes userId evidence).body.find
      (ascii "arch") = some (.string arch)
  heartbeat : ∀ deviceId appVersion attributes userId evidence,
    (heartbeatRequest client deviceId appVersion attributes userId evidence).body.find
      (ascii "arch") = some (.string arch)
  stream : ∀ deviceId currentVersion versionCode,
    (updatesStreamQuery client deviceId currentVersion versionCode).lookup (ascii "arch") =
      some (urlEscape arch)

/-- The members of evidence name no architecture. -/
theorem valuesOf_evidenceMembers (e : IntegrityEvidence) :
    Json.valuesOf (ascii "arch") (evidenceMembers e) = [] := by
  unfold evidenceMembers
  rw [Json.valuesOf_append, Json.valuesOf_append, List.append_eq_nil_iff, List.append_eq_nil_iff]
  refine ⟨⟨?_, ?_⟩, ?_⟩
  · cases e.evidenceVersion with
    | none => rfl
    | some version => rfl
  · split
    · rfl
    · rfl
  · split
    · rfl
    · rfl

theorem valuesOf_userMember (userId : Bytes) :
    Json.valuesOf (ascii "arch") (userMember userId) = [] := by
  unfold userMember
  split
  · rfl
  · rfl

/-- The architecture of a request whose further members name none. -/
theorem find_arch_postRequest {path : String} {operation : OperationClass} {arch : Json}
    {members more : List (Bytes × Json)} (h : Json.valuesOf (ascii "arch") members = [arch])
    (hmore : Json.valuesOf (ascii "arch") more = []) :
    (postRequest path operation (members ++ more)).body.find (ascii "arch") = some arch := by
  change Json.lookup _ (Json.fromMembers _) = _
  rw [Json.lookup_fromMembers, Json.valuesOf_append, h, hmore]
  rfl

theorem find_arch_checkUpdate (client : Client) (deviceId : Bytes) (deviceAuth attributes : Json)
    (userId : Bytes) (evidence : Option IntegrityEvidence) :
    (checkUpdateRequest client deviceId deviceAuth attributes userId evidence).body.find
      (ascii "arch") = some (.string client.options.arch) := by
  refine find_arch_postRequest ?_ ?_
  · rw [Json.valuesOf_append, valuesOf_userMember]
    rfl
  · cases evidence with
    | none => rfl
    | some e =>
      rw [Option.toList_some, List.flatMap_singleton, Json.valuesOf_append,
        valuesOf_evidenceMembers, List.append_nil]
      split
      · rfl
      · rfl

theorem find_arch_heartbeat (client : Client) (deviceId appVersion : Bytes) (attributes : Json)
    (userId : Bytes) (evidence : IntegrityEvidence) :
    (heartbeatRequest client deviceId appVersion attributes userId evidence).body.find
      (ascii "arch") = some (.string client.options.arch) := by
  refine find_arch_postRequest ?_ ?_
  · rw [Json.valuesOf_append, valuesOf_userMember]
    rfl
  · split
    · rfl
    · exact valuesOf_evidenceMembers evidence

/-- The architecture of the client's own options is the one in its requests. -/
theorem reportsArch_iff {client : Client} {arch : Bytes} :
    ReportsArch client arch ↔ arch = client.options.arch := by
  constructor
  · intro h
    have hfound := h.checkUpdate [] .null .null [] none
    rw [find_arch_checkUpdate] at hfound
    exact (Json.string.inj (Option.some.inj hfound)).symm
  · rintro rfl
    refine ⟨?_, ?_, ?_⟩
    · intro deviceId deviceAuth attributes userId evidence
      exact find_arch_checkUpdate ..
    · intro deviceId appVersion attributes userId evidence
      exact find_arch_heartbeat ..
    · intro deviceId currentVersion versionCode
      rfl

/-! ## The manifests of a release -/

/-- A well-formed manifest of the app, the release, the version and the architecture, signed by
a key that the root key certified. -/
structure ReleaseManifest (crypto : Crypto) (options : ClientOptions) (m : Rim2) : Prop where
  wellFormed : m.WellFormed
  app : guidText m.body.app = lower options.appId
  release : guidText m.body.release = lower options.releaseId
  platform : m.body.platform = 1
  version : m.body.version = options.version
  versionCode : ∀ code ∈ options.versionCode, m.body.versionCode = unsignedCode code
  arch : m.body.arch = archByte options.arch
  known : archText m.body.arch ≠ []
  rootKeyId : m.trailer.rootKeyId = options.rootTrustKeyId
  certified : crypto.ed25519Verify options.rootTrustPublicKey m.keyMessage
    (Base64Url.encode m.trailer.rootSignature) = .ok true
  signed : crypto.ed25519Verify (Base64Url.encode m.trailer.signerPublic) m.manifestMessage
    (Base64Url.encode m.trailer.manifestSignature) = .ok true

/-- The error of a manifest of another release. -/
def releaseMismatch : Error :=
  rim2Error "host_release_mismatch" "RIM2 identity does not match this release"

/-- **The effective options agree**: the architecture that a manifest is compared with is the one
that the client reports, and no signed manifest of the release is taken for another's. -/
structure OptionsAgree (client : Client) : Prop where
  arch : ReportsArch client (hostExpected client.pipelineOptions).arch
  manifest : ∀ crypto m, ReleaseManifest crypto client.options m →
    parseRim2 crypto (hostExpected client.pipelineOptions) m.encode ≠ .error releaseMismatch

/-- A manifest can be written for the options: the version and the id of the root key fit, and
the architecture is a known one. -/
structure Expressible (options : ClientOptions) : Prop where
  version : options.version.length ≤ 100
  rootTrustKeyId : options.rootTrustKeyId.length ≤ 64
  arch : archByte options.arch ≠ 0

/-- The UUIDs are in lower case. -/
def LowerIds (options : ClientOptions) : Prop :=
  lower options.appId = options.appId ∧ lower options.releaseId = options.releaseId

theorem archByte_lt (arch : Bytes) : archByte arch < 3 := by
  unfold archByte
  dsimp only
  split
  · decide
  · split
    · decide
    · decide

theorem archText_ne_nil {arch : Bytes} : archText (archByte arch) ≠ [] ↔ archByte arch ≠ 0 := by
  have hall : ∀ n < 3, (archText n ≠ [] ↔ n ≠ 0) := by decide
  exact hall _ (archByte_lt arch)

theorem ReleaseManifest.expressible {crypto : Crypto} {options : ClientOptions} {m : Rim2}
    (h : ReleaseManifest crypto options m) : Expressible options := by
  refine ⟨?_, ?_, ?_⟩
  · rw [← h.version]
    exact h.wellFormed.body.version.2
  · rw [← h.rootKeyId]
    exact h.wellFormed.trailer.rootKeyId.2
  · rw [← archText_ne_nil, ← h.arch]
    exact h.known

/-- A manifest of a release is taken for another's exactly when its UUIDs are not in
lower case. -/
theorem ReleaseManifest.mismatch_iff {crypto : Crypto} {options : ClientOptions} {m : Rim2}
    (h : ReleaseManifest crypto options m) :
    parseRim2 crypto (hostExpected options) m.encode = .error releaseMismatch ↔
      ¬ LowerIds options := by
  have hmismatch : rim2Mismatch (hostExpected options) m ↔ ¬ LowerIds options := by
    have hcode : ¬ ∃ code ∈ options.versionCode, m.body.versionCode ≠ unsignedCode code := by
      rintro ⟨code, hmem, hne⟩
      exact hne (h.versionCode code hmem)
    unfold rim2Mismatch LowerIds hostExpected
    dsimp only
    rw [h.app, h.release, h.platform, h.arch, h.version, h.rootKeyId, Decidable.not_and_iff_or_not]
    constructor
    · rintro (happ | hrelease | hplatform | harch | hversion | hversionCode | hroot)
      · exact .inl happ
      · exact .inr hrelease
      · exact absurd rfl hplatform
      · exact absurd rfl harch
      · exact absurd rfl hversion
      · exact absurd hversionCode hcode
      · exact absurd rfl hroot
    · rintro (happ | hrelease)
      · exact .inl happ
      · exact .inr (.inl hrelease)
  by_cases hlower : LowerIds options
  · have hok := parseRim2_eq_ok.mpr ⟨m, rfl, ⟨h.wellFormed, mt hmismatch.mp (not_not_intro hlower),
      h.certified, h.signed⟩, rfl⟩
    rw [hok]
    exact iff_of_false (fun herror => by cases herror) (not_not_intro hlower)
  · have hread : readRim2 m.encode = .ok m := readRim2_eq_ok.mpr ⟨rfl, h.wellFormed⟩
    unfold parseRim2
    rw [hread]
    change (if rim2Mismatch (hostExpected options) m then _ else _) = _ ↔ _
    rw [if_pos (hmismatch.mpr hlower)]
    exact iff_of_true rfl hlower

theorem emptyDigest_length (_ : Bytes) : emptyDigest.length = 32 := rfl

/-- Oracles that accept every signature. -/
def acceptingCrypto : Crypto where
  sha256 _ := emptyDigest
  sha256_length := emptyDigest_length
  ed25519Verify _ _ _ := .ok true

/-- The sample manifest, for the release of the options. -/
def manifestFor (options : ClientOptions) (app release : Uuid) : Rim2 where
  body := { sampleRim2.body with
    app := app.bytes
    release := release.bytes
    versionCode := (options.versionCode.map unsignedCode).getD 0
    arch := archByte options.arch
    version := options.version }
  trailer := { sampleRim2.trailer with rootKeyId := options.rootTrustKeyId }

theorem unsignedCode_lt (code : Int) : unsignedCode code < 256 ^ 8 := by
  unfold unsignedCode
  omega

theorem manifestFor_wellFormed {options : ClientOptions} {app release : Uuid}
    (h : Expressible options) (hversion : options.version ≠ [])
    (hkey : options.rootTrustKeyId ≠ []) : (manifestFor options app release).WellFormed := by
  have hsample := sampleRim2_wellFormed
  have harch := archByte_lt options.arch
  have hcode : (options.versionCode.map unsignedCode).getD 0 < 256 ^ 8 := by
    cases options.versionCode with
    | none => decide
    | some code => exact unsignedCode_lt code
  have hbody : (manifestFor options app release).body.WellFormed :=
    ⟨app.length, release.length, hcode, hsample.body.platform,
      Nat.lt_of_lt_of_le harch (by decide), ⟨hversion, h.version⟩, hsample.body.count,
      hsample.body.files, hsample.body.distinct⟩
  have htrailer : (manifestFor options app release).trailer.WellFormed :=
    ⟨⟨hkey, h.rootTrustKeyId⟩, hsample.trailer.signerKeyId, rfl, rfl, rfl⟩
  refine ⟨hbody, htrailer, ?_⟩
  have hfiles : (sampleRim2.body.files.flatMap Rim2File.encode).length = 49 := by decide
  have happ := app.length
  have hrelease := release.length
  have hv := h.version
  have hk := h.rootTrustKeyId
  have hlengths : rim2Magic.length = 8 ∧ sampleRim2.trailer.signerKeyId.length = 2 ∧
      sampleRim2.trailer.signerPublic.length = 32 ∧
      sampleRim2.trailer.rootSignature.length = 64 ∧
      sampleRim2.trailer.manifestSignature.length = 64 := by decide
  obtain ⟨hmagic, hsigner, hpublic, hroot, hmanifest⟩ := hlengths
  simp only [Rim2.encode, Rim2Body.encode, Rim2Trailer.encode, manifestFor, ByteCodec.frame,
    List.length_append, ByteCodec.bigEndian_length, hfiles, happ, hrelease, hmagic, hsigner,
    hpublic, hroot, hmanifest]
  omega

/-- There is a signed manifest of the release, as far as one can be written. -/
theorem releaseManifest_exists {options : ClientOptions} (h : Expressible options)
    (hversion : options.version ≠ []) (hkey : options.rootTrustKeyId ≠ [])
    (happ : validUuid options.appId = true) (hrelease : validUuid options.releaseId = true) :
    ∃ m, ReleaseManifest acceptingCrypto options m := by
  obtain ⟨app, happ⟩ := validUuid_text happ
  obtain ⟨release, hrelease⟩ := validUuid_text hrelease
  refine ⟨manifestFor options app release, manifestFor_wellFormed h hversion hkey, happ, hrelease,
    rfl, rfl, ?_, rfl, archText_ne_nil.mpr h.arch, rfl, rfl, rfl⟩
  intro code hcode
  change (options.versionCode.map unsignedCode).getD 0 = _
  rw [show options.versionCode = some code from hcode]
  rfl

/-- **When the effective options agree**: exactly when the options name an architecture, and
their UUIDs are in lower case as far as a manifest can be written for them. -/
theorem options_agree_iff (process : Arch) (options : ClientOptions) :
    (∀ client, Client.create process options = .ok client → OptionsAgree client) ↔
      ((∃ client, Client.create process options = .ok client) →
        options.arch ≠ [] ∧ (Expressible options → LowerIds options)) := by
  constructor
  · rintro h ⟨client, hclient⟩
    have hcreated := create_ok hclient
    have hagree := h client hclient
    have harch : options.arch ≠ [] :=
      (create_arch_iff hcreated).mp (reportsArch_iff.mp hagree.arch)
    have hown : client.options = options := by rw [hcreated.options, if_neg harch]
    refine ⟨harch, fun hexpressible => ?_⟩
    obtain ⟨m, hm⟩ := releaseManifest_exists hexpressible hcreated.version
      hcreated.rootTrustKeyId hcreated.appId hcreated.releaseId
    have hkept := hagree.manifest _ m (by rw [hown]; exact hm)
    rw [hcreated.pipelineOptions] at hkept
    exact not_not.mp fun hlower => hkept (hm.mismatch_iff.mpr hlower)
  · intro h client hclient
    have hcreated := create_ok hclient
    obtain ⟨harch, hlower⟩ := h ⟨client, hclient⟩
    have hown : client.options = options := by rw [hcreated.options, if_neg harch]
    refine ⟨reportsArch_iff.mpr ((create_arch_iff hcreated).mpr harch), ?_⟩
    intro crypto m hm
    rw [hown] at hm
    rw [hcreated.pipelineOptions]
    exact fun hmismatch => hm.mismatch_iff.mp hmismatch (hlower hm.expressible)

/-- Options of the sample release; the architecture is left to the client. -/
def sampleOptions : ClientOptions where
  baseUrl := ascii "https://h/"
  appId := ascii "01020304-0506-0708-090a-0b0c0d0e0f10"
  releaseId := ascii "11121314-1516-1718-191a-1b1c1d1e1f20"
  version := ascii "1.2.0"
  versionCode := some 7
  rootTrustKeyId := ascii "root"
  rootTrustPublicKey := sampleRootKey
  channel := ascii "stable"
  platform := ascii "windows"
  arch := []
  deviceId := []
  allowInsecureHttp := false
  hostIntegrity := ⟨true, [], ascii "release-integrity.v2", none⟩

/-- The signed sample manifest of an x64 release is taken for another release's by a client that
was left to find its architecture itself, although it reports x64. -/
theorem empty_arch_mismatch :
    ¬ ∀ (process : Arch) (options : ClientOptions) (client : Client),
      Client.create process options = .ok client → OptionsAgree client := by
  intro h
  have hclient : Client.create .x64 sampleOptions =
      .ok ⟨{ sampleOptions with arch := ascii "x64" }, sampleOptions⟩ := by
    unfold Client.create
    rw [if_neg (by decide), if_neg (by decide +kernel), if_neg (by decide), if_neg (by decide),
      if_neg (by decide +kernel), if_neg (by decide)]
    rfl
  have hsample : ReleaseManifest sampleRim2Crypto { sampleOptions with arch := ascii "x64" }
      sampleRim2 :=
    ⟨sampleRim2_wellFormed, by decide, by decide, rfl, rfl, by decide, by decide, by decide, rfl,
      by decide +kernel, by decide +kernel⟩
  refine (h .x64 sampleOptions _ hclient).manifest sampleRim2Crypto sampleRim2 hsample ?_
  decide +kernel

end Cpp
end SwmSdk
