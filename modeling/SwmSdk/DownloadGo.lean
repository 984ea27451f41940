import SwmSdk.Download
import SwmSdk.RetryAfter

/-! # Downloading an update in Go

`DownloadUpdate` of Go: up to three calls of `downloadRange`, which continue the partial file as
far as it is there, then the check of the file, and then the last two calls, which put it in place.
The network and the file system answer to each call on its own (`RangeWorld`, `DownloadWorld`).

Only the last two calls touch the destination (`downloadUpdate_kept_iff`).
-/
namespace SwmSdk
namespace Go
open ByteText Numeral

/-- A Go `error`: an error of the SDK or another one, and whether it comes from the end of the
context. -/
structure Fault where
  sdk : Option Error := none
  text : Bytes := []
  cancelled : Bool := false

/-- A fault that is an error of the SDK. -/
def Fault.ofError (error : Error) : Fault := { sdk := some error }

/-- `wrapError`, which keeps an error of the SDK. -/
def wrapError (kind : ErrorKind) (fault : Fault) : Fault :=
  .ofError (fault.sdk.getD
    { kind := kind, statusCode := 0, serviceCode := [], message := fault.text })

/-! ## One range -/

/-- An answer, as far as a download looks at it. -/
structure Answer where
  statusCode : Int
  /-- The location of a redirect, if there is one: whether its scheme is `https`. -/
  location : Option Bool := none
  contentRange : Bytes := []
  contentLength : Int := -1
  /-- What the reads of the body return before they fail or reach the end. -/
  reads : List Bytes := []
  readError : Option Fault := none

/-- What one call of `downloadRange` meets. -/
structure RangeWorld where
  stat : Bool
  removePartial : Bool
  /-- `sendDownloadRequest` and `sendStorageRequest`, from a byte of the file on. -/
  signed : Nat → Except Fault Answer
  storage : Nat → Except Fault Answer
  /-- `throwIfError`, of an answer that is no success. -/
  serviceError : Answer → Error
  openFile : Option Fault
  /-- The context is done before a read. -/
  done : Nat → Option Fault
  /-- A write ends after so many bytes. -/
  writeFails : Nat → Option (Nat × Fault)
  sync : Option Fault
  close : Option Fault

section Range
variable (allowInsecureHttp : Bool) (world : RangeWorld)

/-- The answer to a range, after a redirect to the storage. -/
def requestRange (existing : Nat) : Except Fault Answer :=
  match world.signed existing with
  | .error fault => .error fault
  | .ok initial =>
      if 300 ≤ initial.statusCode ∧ initial.statusCode < 400 then
        match initial.location with
        | none => .error (.ofError (newError .protocol "download_redirect_invalid"
            "artifact download redirect is missing a location"))
        | some https =>
            if ¬ https ∧ ¬ allowInsecureHttp then
              .error (.ofError (newError .network "storage_https_required"
                "storage redirect must use HTTPS"))
            else world.storage existing
      else .ok initial

/-- The value of `strconv.ParseInt`, also where it reports an error. -/
def parseIntValue (text : Bytes) : Int :=
  let negative := text.head? = some 45
  let digits := if negative ∨ text.head? = some 43 then text.tail else text
  if digits = [] then 0
  else
    match digitsValue asciiDigit 0 digits with
    | none => 0
    | some n => if negative then max (-2 ^ 63) (-n) else min (2 ^ 63 - 1) n

/-- The length that the headers promise. -/
def expectedTotal (answer : Answer) (existing : Nat) : Int :=
  let total :=
    if answer.contentRange ≠ [] ∧ 0x2f ∈ answer.contentRange then
      parseIntValue (trimSpace (answer.contentRange.rtakeWhile (· ≠ 0x2f)))
    else 0
  if total ≤ 0 ∧ answer.contentLength ≥ 0 then (existing + answer.contentLength).bmod (2 ^ 64)
  else total

/-- The loop over the body: how it ends, and what it has written. -/
def copyBody (readError : Option Fault) : Nat → List Bytes → Option Fault × Bytes
  | k, [] => (match world.done k with | some fault => some fault | none => readError, [])
  | k, chunk :: rest =>
      match world.done k with
      | some fault => (some fault, [])
      | none =>
          match if chunk = [] then none else world.writeFails k with
          | some (count, fault) => (some fault, chunk.take count)
          | none =>
              let more := copyBody readError (k + 1) rest
              (more.1, chunk ++ more.2)

/-- The fault of a download of the wrong length. -/
def lengthMismatch (written expected : Int) : Fault :=
  .ofError { newError .protocol "download_length_mismatch" "" with
    message := ascii "download length mismatch: " ++ decimal written ++ ascii " != " ++
      decimal expected }

/-- `downloadRange`: how it ends, and the partial file that it leaves. -/
def downloadRange (totalSize : Int) (partialFile : Option Bytes) : Option Fault × Option Bytes :=
  let found := if world.stat then (partialFile.map List.length).getD 0 else 0
  let tooLong := totalSize > 0 ∧ found > totalSize
  let existing := if tooLong then 0 else found
  let partialFile := if tooLong ∧ world.removePartial then none else partialFile
  match requestRange allowInsecureHttp world existing with
  | .error fault => (some fault, partialFile)
  | .ok answer =>
      if answer.statusCode ≥ 400 then
        (some (.ofError (world.serviceError answer)), partialFile)
      else
        let append := existing > 0 ∧ answer.statusCode = 206
        let existing := if append then existing else 0
        let expected := expectedTotal answer existing
        match world.openFile with
        | some fault => (some fault, partialFile)
        | none =>
            let base := if append then partialFile.getD [] else []
            let (ended, bytes) := copyBody world answer.readError 0 answer.reads
            let file := some (base ++ bytes)
            match ended with
            | some fault => (some fault, file)
            | none =>
                match world.sync with
                | some fault => (some fault, file)
                | none =>
                    match world.close with
                    | some fault => (some fault, file)
                    | none =>
                        let written := (existing : Int) + bytes.length
                        if expected > 0 ∧ written ≠ expected then
                          (some (lengthMismatch written expected), file)
                        else (none, file)

end Range

/-! ## The download -/

/-- What `os.Remove` of the destination says. -/
inductive Removal where
  | removed
  | notExist
  | fails (fault : Fault)

/-- What a call of `DownloadUpdate` meets. -/
structure DownloadWorld where
  checkOpen : Option Fault := none
  /-- `validateDownloadURL`. -/
  validateUrl : Option Fault := none
  absolute : Option Fault := none
  makeDirectory : Option Fault := none
  ranges : Nat → RangeWorld
  /-- `sleepContext` after an attempt. -/
  pauses : Nat → Option Fault
  openPartial : Option Fault := none
  readPartial : Option Fault := none
  removePartial : Bool := true
  removeDestination : Removal
  rename : Option Fault

/-- The files of a download. -/
structure DownloadFiles where
  partialFile : Option Bytes
  destination : Option Bytes

section Download
variable (crypto : Crypto) (casing : Casing) (allowInsecureHttp : Bool) (world : DownloadWorld)
  (update : UpdateInfo)

/-- The manifest of an update. -/
def manifestOf : ArtifactManifest where
  releaseId := update.releaseId
  version := update.version
  versionCode := update.versionCode
  platform := casing.toLower (trimSpace update.artifactPlatform)
  arch := casing.toLower (trimSpace update.artifactArch)
  size := update.size
  sha256 := casing.toLower (trimSpace update.checksumSha256)
  keyId := update.manifestKeyId

/-- `verifyDownloadArtifact`. -/
def verifyDownloadArtifact (actual : Bytes) : Option Fault :=
  if update.checksumSha256 = [] ∨ update.signature = [] ∨ update.manifestPublicKey = [] ∨
      update.manifestKeyId = [] ∨ update.releaseId = [] ∨ update.version = [] ∨
      update.artifactPlatform = [] ∨ update.artifactArch = [] then
    some (.ofError (newError .integrity "artifact_manifest_incomplete"
      "artifact verification material is missing"))
  else if ¬ equalFold update.checksumSha256 actual then
    some (.ofError (newError .integrity "artifact_checksum_mismatch"
      "downloaded artifact SHA-256 does not match the signed manifest"))
  else
    match crypto.ed25519Verify update.manifestPublicKey (manifestOf casing update).text
      update.signature with
    | .ok true => none
    | _ => some (.ofError (newError .integrity "artifact_manifest_signature_invalid"
        "artifact manifest signature is invalid"))

/-- The loop over the attempts. -/
def downloadRanges : Nat → Nat → Option Bytes → Option Fault × Option Bytes
  | 0, _, partialFile => (none, partialFile)
  | remaining + 1, attempt, partialFile =>
      match downloadRange allowInsecureHttp (world.ranges attempt) update.size partialFile with
      | (none, partialFile) => (none, partialFile)
      | (some fault, partialFile) =>
          if fault.cancelled then (some fault, partialFile)
          else if attempt ≥ (policyFor .download).retries then
            (some (wrapError .network fault), partialFile)
          else
            match world.pauses attempt with
            | some fault => (some fault, partialFile)
            | none => downloadRanges remaining (attempt + 1) partialFile

/-- `DownloadUpdate` up to the destination: the file that passed the check, and the partial file. -/
def fetchVerified (destination : Bytes) (partialFile : Option Bytes) :
    Except Fault Bytes × Option Bytes :=
  match world.checkOpen with
  | some fault => (.error fault, partialFile)
  | none =>
      if ¬ update.updateAvailable ∨ update.openInBrowser then
        (.error (.ofError (newError .validation "download_unavailable"
          "update does not contain a downloadable package")), partialFile)
      else if trimSpace destination = [] then
        (.error (.ofError (newError .validation "destination_required"
          "destination path is required")), partialFile)
      else
        match world.validateUrl, world.absolute, world.makeDirectory with
        | some fault, _, _ => (.error fault, partialFile)
        | none, some fault, _ => (.error (wrapError .validation fault), partialFile)
        | none, none, some fault => (.error (wrapError .validation fault), partialFile)
        | none, none, none =>
            match downloadRanges allowInsecureHttp world update
              ((policyFor .download).retries + 1) 0 partialFile with
            | (some fault, partialFile) => (.error fault, partialFile)
            | (none, partialFile) =>
                match world.openPartial, world.readPartial with
                | some fault, _ => (.error (wrapError .validation fault), partialFile)
                | none, some fault => (.error (wrapError .validation fault), partialFile)
                | none, none =>
                    let file := partialFile.getD []
                    match verifyDownloadArtifact crypto casing update (crypto.sha256Hex file) with
                    | some fault =>
                        (.error fault, if world.removePartial then none else partialFile)
                    | none => (.ok file, partialFile)

/-- The end of `DownloadUpdate`. -/
def replaceDestination (file : Bytes) (files : DownloadFiles) :
    Except Fault Unit × DownloadFiles :=
  let rename (files : DownloadFiles) : Except Fault Unit × DownloadFiles :=
    match world.rename with
    | some fault => (.error (wrapError .validation fault), files)
    | none => (.ok (), ⟨none, some file⟩)
  match world.removeDestination with
  | .fails fault => (.error (wrapError .validation fault), files)
  | .notExist => rename files
  | .removed => rename { files with destination := none }

/-- `DownloadUpdate`. -/
def downloadUpdate (destination : Bytes) (files : DownloadFiles) :
    Except Fault Unit × DownloadFiles :=
  match fetchVerified crypto casing allowInsecureHttp world update destination
    files.partialFile with
  | (.error fault, partialFile) => (.error fault, { files with partialFile })
  | (.ok file, partialFile) => replaceDestination world file { files with partialFile }

/-- The check passes a file, and the destination is removed but not replaced. -/
def LosesDestination (destination : Bytes) (files : DownloadFiles) : Prop :=
  (∃ file, (fetchVerified crypto casing allowInsecureHttp world update destination
      files.partialFile).1 = .ok file) ∧
    world.removeDestination = .removed ∧ world.rename.isSome

variable {crypto casing allowInsecureHttp world update}

/-- When a Go download that fails leaves the destination alone. -/
theorem downloadUpdate_kept_iff (destination : Bytes) (files : DownloadFiles) :
    ((∃ fault, (downloadUpdate crypto casing allowInsecureHttp world update destination
          files).1 = .error fault) →
        (downloadUpdate crypto casing allowInsecureHttp world update destination
          files).2.destination = files.destination) ↔
      (LosesDestination crypto casing allowInsecureHttp world update destination files →
        files.destination = none) := by
  unfold downloadUpdate LosesDestination
  obtain ⟨⟨result, partialFile⟩, hfetch⟩ : ∃ fetched, fetchVerified crypto casing
      allowInsecureHttp world update destination files.partialFile = fetched := ⟨_, rfl⟩
  rw [hfetch]
  cases result with
  | error fault => simp
  | ok file =>
    unfold replaceDestination
    cases world.removeDestination with
    | fails fault => simp
    | notExist => cases world.rename <;> simp
    | removed => cases world.rename <;> simp [eq_comm]

end Download
end Go
end SwmSdk
