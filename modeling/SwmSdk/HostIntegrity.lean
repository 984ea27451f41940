import SwmSdk.ClientOptions
import SwmSdk.JsonMember

/-! # Evidence of the integrity of the host

`HostIntegrityManager` of the C++ client: the evidence comes from a provider of the
application, or from the signed manifest of the release and the files it lists, or there is
none.  The manifest is read once and kept.

Evidence from a manifest says `failed`, or `verified` with the digest of the manifest
(`evidence_manifest`); a provider may say anything.
-/
namespace SwmSdk
open ByteText

/-- `IntegrityEvidence`. -/
structure IntegrityEvidence where
  state : Bytes
  failureCode : Bytes
  evidenceVersion : Option Int
  manifestSha256 : Bytes
  files : List (Bytes × Bytes)
  deriving DecidableEq, Repr

namespace IntegrityEvidence

/-- The evidence of a client whose host is not checked. -/
def empty : IntegrityEvidence := ⟨[], [], none, [], []⟩

/-- The evidence of a check that failed, with its code. -/
def failed (code : Bytes) : IntegrityEvidence := ⟨ascii "failed", code, none, [], []⟩

/-- The evidence says that the host was verified, against a manifest. -/
def Verified (evidence : IntegrityEvidence) : Prop :=
  evidence.state = ascii "verified" ∧ evidence.manifestSha256 ≠ []

/-- The evidence says one of the two things it can say. -/
def Decided (evidence : IntegrityEvidence) : Prop :=
  evidence.state = ascii "failed" ∨ evidence.Verified

end IntegrityEvidence

namespace Cpp
open Outcome

/-! ## The file system -/

/-- What the manager uses of the file system.  A path is its wide text. -/
structure HostSystem where
  /-- `std::filesystem::absolute`. -/
  absolute : List UInt16 → Except Failure (List UInt16)
  /-- `std::filesystem::current_path`. -/
  currentPath : Except Failure (List UInt16)
  /-- `path::string`. -/
  narrow : List UInt16 → Except Failure Bytes
  /-- The unit that `_wcsnicmp` takes for another. -/
  fold : UInt16 → UInt16
  /-- `std::filesystem::exists`, with an error code. -/
  existsFile : List UInt16 → Except Unit Bool
  /-- The bytes that can be read of a file, if it can be opened. -/
  content : List UInt16 → Option Bytes
  /-- The position of the end of a file. -/
  size : List UInt16 → Int

/-- `utf8_to_wide`. -/
def utf8ToWide (value : Bytes) : Except Failure (List UInt16) :=
  if validUtf8 value then .ok (CSharp.getString value)
  else .error (.swm { kind := .identity, statusCode := 0, serviceCode := []
                      message := ascii "UTF-8 to UTF-16 conversion failed" })

/-- `root / path`, for a path without a root. -/
def joinPath (root path : List UInt16) : List UInt16 :=
  if root = [] ∨ root.getLast? = some 0x5c ∨ root.getLast? = some 0x2f ∨
      root.getLast? = some 0x3a then root ++ path
  else root ++ 0x5c :: path

def unsafePath (message : String) : Failure := .swm (rim2Error "host_unsafe_path" message)

/-- `hash_file`. -/
def hashFile (crypto : Crypto) (system : HostSystem) (path : List UInt16) :
    Except Failure Bytes :=
  match system.content path with
  | none => .error (.swm (rim2Error "host_file_io_failed" "protected file read failed"))
  | some bytes => .ok (crypto.sha256 bytes)

/-- `resolve_operation_hashes`. -/
def resolveOperationHashes (crypto : Crypto) (system : HostSystem)
    (hostExecutablePath consumerModulePath : List UInt16) :
    Except Failure (Bytes × Bytes) :=
  if hostExecutablePath = [] ∨ consumerModulePath = [] then
    .error (.swm (configurationError "host and consumer paths are required"))
  else do
    let hostHash ← hashFile crypto system hostExecutablePath
    let moduleHash ← hashFile crypto system consumerModulePath
    .ok (hex hostHash, hex moduleHash)

section Manager
variable (crypto : Crypto) (options : ClientOptions) (system : HostSystem)

/-- `package_root`. -/
def packageRoot : Except Failure (List UInt16) :=
  if options.hostIntegrity.packageRoot ≠ [] then
    system.absolute options.hostIntegrity.packageRoot
  else system.currentPath

/-- `safe_join`. -/
def safeJoin (root : List UInt16) (relative : Bytes) : Except Failure (List UInt16) :=
  if relative = [] ∨ relative.head? = some 0x2f ∨ relative.head? = some 0x5c ∨
      relative.contains 0x3a ∨ ascii ".." <:+: relative then
    .error (unsafePath "integrity path is unsafe")
  else do
    let normalized := relative.map fun b => if b = 0x2f then 0x5c else b
    let wide ← utf8ToWide normalized
    let path ← system.absolute (joinPath root wide)
    let rootText ← system.absolute root
    if path.length ≤ rootText.length ∨
        (path.take rootText.length).map system.fold ≠ rootText.map system.fold then
      .error (unsafePath "integrity path escapes package root")
    else .ok path

/-- What `parse_rim2` is asked to compare with. -/
def hostExpected : Rim2Expected where
  appId := options.appId
  releaseId := options.releaseId
  version := options.version
  versionCode := options.versionCode
  arch := options.arch
  rootKeyId := options.rootTrustKeyId
  rootTrustPublicKey := options.rootTrustPublicKey

/-- The manifest that is kept; it was parsed for the options. -/
structure HostState where
  manifest : Option Rim2Manifest
  parsed : ∀ m ∈ manifest, ∃ raw, parseRim2 crypto (hostExpected options) raw = .ok m

/-- Nothing is kept before the first check. -/
def HostState.initial : HostState crypto options := ⟨none, by simp⟩

/-- The bytes of the manifest file. -/
def readManifest : Except Failure Bytes := do
  let root ← packageRoot options system
  let path ← safeJoin system root options.hostIntegrity.manifestPath
  match system.content path with
  | none => .error (.swm (rim2Error "host_manifest_missing" "RIM2 manifest is missing"))
  | some bytes =>
      if system.size path ≤ 0 ∨ system.size path > 64 * 1024 then
        .error (.swm (rim2Error "host_manifest_invalid" "RIM2 manifest size is invalid"))
      else if (bytes.length : Int) < system.size path then
        .error (.swm (rim2Error "host_file_io_failed" "RIM2 manifest read failed"))
      else .ok (bytes.take (system.size path).toNat)

variable {crypto options}

/-- `load_manifest`. -/
def loadManifest (host : HostState crypto options) :
    Except Failure Rim2Manifest × HostState crypto options :=
  match host.manifest with
  | some manifest => (.ok manifest, host)
  | none =>
      match readManifest options system with
      | .error e => (.error e, host)
      | .ok raw =>
          match h : parseRim2 crypto (hostExpected options) raw with
          | .error e => (.error (.swm e), host)
          | .ok manifest => (.ok manifest, ⟨some manifest, by
              intro m hm
              obtain rfl := Option.some.inj hm
              exact ⟨raw, h⟩⟩)

/-- `files[path] = digest`. -/
def insertFile (path digest : Bytes) : List (Bytes × Bytes) → List (Bytes × Bytes)
  | [] => [(path, digest)]
  | (p, d) :: rest =>
      if path = p then (path, digest) :: rest
      else if Json.keyLt path p then (path, digest) :: (p, d) :: rest
      else (p, d) :: insertFile path digest rest

variable (crypto options)

/-- The loop over the files of the manifest; none when a file cannot be looked up. -/
def collectFiles : List Rim2File → List (Bytes × Bytes) →
    Except Failure (Option (List (Bytes × Bytes)))
  | [], files => .ok (some files)
  | file :: rest, files => do
      let root ← packageRoot options system
      let path ← safeJoin system root file.path
      match system.existsFile path with
      | .error () => .ok none
      | .ok false => collectFiles rest files
      | .ok true => do
          let digest ← hashFile crypto system path
          collectFiles rest (insertFile file.path (hex digest) files)

/-! ## The evidence -/

/-- What the provider is told. -/
def providerContext : Except Failure Json := do
  let root ← packageRoot options system
  let rootText ← system.narrow root
  .ok (.object (Json.fromMembers [
    (ascii "app_id", .string options.appId),
    (ascii "release_id", .string options.releaseId),
    (ascii "version", .string options.version),
    (ascii "version_code", .integer (options.versionCode.getD 0)),
    (ascii "arch", .string options.arch),
    (ascii "package_root", .string rootText),
    (ascii "manifest_path", .string options.hostIntegrity.manifestPath)]))

/-- The files of an answer of the provider: the members that are texts. -/
def providerFiles (result : Json) : List (Bytes × Bytes) :=
  match result.find (ascii "integrity_files") with
  | some (.object members) => members.foldl (fun files member =>
      match member.2 with
      | .string digest => insertFile member.1 digest files
      | _ => files) []
  | _ => []

/-- What is read of an answer of the provider. -/
def readEvidence (result : Json) : Except Error IntegrityEvidence := do
  let state ← jsonGetString result (ascii "integrity_state") false
  let failureCode ← jsonGetString result (ascii "integrity_failure_code") false
  let version := match result.find (ascii "integrity_evidence_version") with
    | some (.unsigned n) => some ((n % 2 ^ 32 : Nat) : Int)
    | _ => none
  let manifestSha256 ← jsonGetString result (ascii "integrity_manifest_sha256") false
  .ok ⟨state, failureCode, version, manifestSha256, providerFiles result⟩

/-- The evidence of a provider; whatever is thrown makes it a failure. -/
def providerEvidence (provider : Json → Except Failure Json) : IntegrityEvidence :=
  let evidence : Except Failure IntegrityEvidence := do
    let context ← providerContext options system
    let result ← provider context
    lift (readEvidence result)
  match evidence with
  | .ok evidence => evidence
  | .error _ => .failed (ascii "host_integrity_internal_error")

variable {crypto options}

/-- The evidence of the manifest and the files it lists. -/
def manifestEvidence (host : HostState crypto options) :
    Except Failure IntegrityEvidence × HostState crypto options :=
  let loaded := loadManifest system host
  let evidence : Except Failure IntegrityEvidence := do
    let manifest ← loaded.1
    match ← collectFiles crypto options system manifest.files [] with
    | none => .ok (.failed (ascii "host_file_io_failed"))
    | some files => .ok ⟨ascii "verified", [], some 2, manifest.manifestSha256, files⟩
  match evidence with
  | .error (.swm e) =>
      (.ok (.failed (if e.serviceCode = [] then ascii "host_integrity_internal_error"
        else e.serviceCode)), loaded.2)
  | .error e => (.error e, loaded.2)
  | .ok evidence => (.ok evidence, loaded.2)

/-- `evidence`. -/
def evidence (host : HostState crypto options) :
    Except Failure (Option IntegrityEvidence) × HostState crypto options :=
  match options.hostIntegrity.evidenceProvider with
  | some provider => (.ok (some (providerEvidence options system provider)), host)
  | none =>
      if ¬ options.hostIntegrity.enabled then (.ok none, host)
      else
        let out := manifestEvidence system host
        (out.1.map some, out.2)

/-- The test of required evidence; none passes as empty evidence. -/
def requireEvidence (result : Option IntegrityEvidence) : Except Failure IntegrityEvidence :=
  match result with
  | none => .ok .empty
  | some evidence =>
      if evidence.state = ascii "failed" then
        .error (.swm { kind := .integrity, statusCode := 0, serviceCode := evidence.failureCode
                       message := ascii "host integrity validation failed" })
      else .ok evidence

/-! ## What the evidence can say -/

theorem loadManifest_parsed {host : HostState crypto options} {manifest : Rim2Manifest}
    (h : (loadManifest system host).1 = .ok manifest) :
    ∃ raw, parseRim2 crypto (hostExpected options) raw = .ok manifest := by
  unfold loadManifest at h
  split at h
  · rename_i kept hkept
    obtain rfl := Except.ok.inj h
    exact host.parsed _ hkept
  · split at h
    · cases h
    · split at h
      · cases h
      · rename_i raw _ parsed hparsed
        obtain rfl := Except.ok.inj h
        exact ⟨raw, hparsed⟩

theorem parseRim2_sha256 {expected : Rim2Expected} {raw : Bytes} {manifest : Rim2Manifest}
    (h : parseRim2 crypto expected raw = .ok manifest) : manifest.manifestSha256 ≠ [] := by
  obtain ⟨m, -, -, rfl⟩ := parseRim2_eq_ok.mp h
  exact crypto.sha256Hex_ne_nil raw

theorem manifestEvidence_decided {host : HostState crypto options} {e : IntegrityEvidence}
    (h : (manifestEvidence system host).1 = .ok e) : e.Decided := by
  unfold manifestEvidence at h
  dsimp only at h
  split at h
  · obtain rfl := Except.ok.inj h
    exact .inl rfl
  · cases h
  · rename_i evidence hevidence
    obtain rfl := Except.ok.inj h
    obtain ⟨manifest, hmanifest, hrest⟩ := bind_eq_ok.mp hevidence
    obtain ⟨files, -, hrest⟩ := bind_eq_ok.mp hrest
    cases files with
    | none =>
      obtain rfl := Except.ok.inj hrest
      exact .inl rfl
    | some files =>
      obtain rfl := Except.ok.inj hrest
      obtain ⟨raw, hraw⟩ := loadManifest_parsed system hmanifest
      exact .inr ⟨rfl, parseRim2_sha256 hraw⟩

/-- **Evidence of a manifest** says that the host failed or that it was verified. -/
theorem evidence_manifest {host : HostState crypto options} {result : Option IntegrityEvidence}
    (hprovider : options.hostIntegrity.evidenceProvider = none)
    (henabled : options.hostIntegrity.enabled = true)
    (h : (evidence system host).1 = .ok result) : ∃ e, result = some e ∧ e.Decided := by
  unfold evidence at h
  rw [hprovider] at h
  dsimp only at h
  rw [if_neg (not_not_intro henabled)] at h
  dsimp only at h
  cases hout : (manifestEvidence system host).1 with
  | error e =>
    rw [hout] at h
    cases h
  | ok e =>
    rw [hout] at h
    obtain rfl := Except.ok.inj h
    exact ⟨e, rfl, manifestEvidence_decided system hout⟩

end Manager
end Cpp
end SwmSdk
