import SwmSdk.Download

/-! # Downloading an update in Java

`downloadUpdate` of the Java client.  It checks the manifest before and after the
download with the same `verifyArtifactManifest` that `checkUpdate` uses, so what that
function leaves unchecked is never checked.

The parser of `java.net.URI` is a parameter.
-/
namespace SwmSdk
namespace Java
open ByteText Outcome

/-- What is asked of a `java.net.URI`; a part may be absent. -/
structure Uri where
  scheme : Option Bytes
  host : Option Bytes
  port : Int
  path : Option Bytes

/-- `java.net.URI`: `URI.create`, and `base.resolve(location).toString()`. -/
structure UriLibrary where
  create : Bytes → Option Uri
  resolve : Bytes → Bytes → Option Bytes

/-- Two parts of a URI that are present and equal up to case. -/
def samePart (part base : Option Bytes) : Bool :=
  match part, base with
  | some part, some base => equalsIgnoreCase part base
  | _, _ => false

/-- `path.matches("/api/client/artifacts/[^/]+/download")`. -/
def isArtifactPath (path : Bytes) : Bool :=
  match Cpp.splitSlashes path with
  | [root, api, client, artifacts, artifact, download] =>
      root = [] && api = ascii "api" && client = ascii "client" &&
      artifacts = ascii "artifacts" && artifact ≠ [] && download = ascii "download"
  | _ => false

/-- `validDownloadUrl`. -/
def validDownloadUrl (uris : UriLibrary) (base : Uri) (value : Bytes) : Bool :=
  match uris.create value with
  | none => false
  | some uri =>
      samePart uri.scheme base.scheme && samePart uri.host base.host && uri.port = base.port &&
      (uri.path.map isArtifactPath).getD false

/-- `resolveRedirect`. -/
def resolveRedirect (uris : UriLibrary) (current location : Bytes) : Except Thrown Bytes :=
  match uris.create current with
  | none => .error .illegalArgument
  | some base =>
      if ascii "//" <+: location then
        .ok (base.scheme.getD (ascii "null") ++ ascii ":" ++ location)
      else
        match uris.resolve current location with
        | none => .error .illegalArgument
        | some url => .ok url

/-- `Long.parseLong`. -/
def parseLong (text : Bytes) : Option Int :=
  let negative := text.head? = some 0x2d
  let digits := if negative ∨ text.head? = some 0x2b then text.tail else text
  if digits = [] ∨ ¬ digits.all Nlohmann.isDigit then none
  else
    let value : Int := Nlohmann.digitsValue digits
    if negative then (if value ≤ 2 ^ 63 then some (-value) else none)
    else if value < 2 ^ 63 then some value else none

/-- `parseTotal`: the number after the first slash. -/
def parseTotal (contentRange : Bytes) : Except Thrown Int :=
  let total := match Cpp.splitFirst (ascii "/") contentRange with
    | some (_, total) => total
    | none => contentRange
  match parseLong total with
  | none => .error (protocol (ascii "invalid Content-Range"))
  | some n => .ok n

/-- An answer of the server; what is thrown after the chunks of its body is an
`IOException`. -/
structure StreamResponse where
  statusCode : Int
  location : Option Bytes
  contentRange : Option Bytes
  chunks : List Bytes
  breaks : Bool

/-- The server, and the network to it: an answer to a request after some others. -/
def Server : Type :=
  List Cpp.DownloadRequest → Cpp.DownloadRequest → Except Thrown StreamResponse

/-- `catch (IOException exception)`. -/
def downloadFailed : Thrown :=
  .swm { kind := .network, statusCode := 0, serviceCode := [], message := ascii "download failed" }

/-- The loop over redirects, with the number of requests that are left. -/
def followRedirects (uris : UriLibrary) (server : Server) (existing : Nat) :
    (left : Nat) → (url : Bytes) → (authenticated : Bool) → List Cpp.DownloadRequest →
    Except Thrown StreamResponse × List Cpp.DownloadRequest
  | 0, _, _, requests =>
      (.error (protocol (ascii "download redirect limit exceeded")), requests)
  | left + 1, url, authenticated, requests =>
      let request : Cpp.DownloadRequest := ⟨url, existing, authenticated⟩
      match server requests request with
      | .error e => (.error e, requests ++ [request])
      | .ok stream =>
          if stream.statusCode < 300 ∨ stream.statusCode ≥ 400 then
            (.ok stream, requests ++ [request])
          else
            match stream.location.filter fun location => ¬ isBlank location with
            | none =>
                (.error (protocol (ascii "download redirect is missing Location")),
                  requests ++ [request])
            | some location =>
                match resolveRedirect uris url location with
                | .error e => (.error e, requests ++ [request])
                | .ok url => followRedirects uris server existing left url false
                    (requests ++ [request])

/-- The outcomes of the calls to the file system; a call that fails throws an
`IOException`. -/
structure Disk where
  /-- `createDirectories` and `size`. -/
  prepare : Bool
  openOutput : Bool
  /-- What the disk keeps of the bytes written to the file. -/
  keep : Bytes → Bytes
  deletePartial : Bool
  readPartial : Bool
  move : Bool

/-- The function that is told of the progress; it may throw. -/
def Progress : Type := Option (Nat → Int → Except Thrown Unit)

/-- The loop that reads the body: the number of bytes in the file, and the bytes that were
written. -/
def receive (progress : Progress) (expected : Int) (breaks : Bool) :
    (written : Nat) → List Bytes → Except Thrown Nat × Bytes
  | written, [] => (if breaks then .error downloadFailed else .ok written, [])
  | written, chunk :: chunks =>
      let told : Except Thrown Unit :=
        match progress with
        | none => .ok ()
        | some f => f (written + chunk.length) expected
      match told with
      | .error e => (.error e, chunk)
      | .ok () =>
          let more := receive progress expected breaks (written + chunk.length) chunks
          (more.1, chunk ++ more.2)

/-- Delete the partial file and throw. -/
def discard (disk : Disk) (state : Cpp.DownloadState) (thrown : Thrown) :
    Except Thrown Unit × Cpp.DownloadState :=
  if ¬ disk.deletePartial then (.error downloadFailed, state)
  else (.error thrown, { state with partialFile := none })

/-- The options of the client that are not those of the SDK's trust. -/
structure Client where
  closed : Bool
  baseUri : Uri
  uris : UriLibrary
  locale : RootLocale

/-- `verifyDownload`, which reads the file first. -/
def checkFile (client : Client) (crypto : Crypto) (options : TrustOptions) (disk : Disk)
    (update : UpdateInfo) (file : Bytes) : Except Thrown Unit :=
  if ¬ disk.readPartial then
    .error (.swm { kind := .network, statusCode := 0, serviceCode := []
                   message := ascii "cannot hash downloaded artifact" })
  else verifyDownload client.locale crypto options update file

/-- Write the file, check it and put it in place. -/
def store (client : Client) (crypto : Crypto) (options : TrustOptions) (disk : Disk)
    (progress : Progress) (update : UpdateInfo) (state : Cpp.DownloadState)
    (stream : StreamResponse) (append : Bool) (expected : Int) :
    Except Thrown Unit × Cpp.DownloadState :=
  if ¬ disk.openOutput then (.error downloadFailed, state)
  else
    let base := if append then state.partialFile.getD [] else []
    let received := receive progress expected stream.breaks base.length stream.chunks
    let file := disk.keep (base ++ received.2)
    let state := { state with partialFile := some file }
    match received.1 with
    | .error e => (.error e, state)
    | .ok written =>
        if expected > 0 ∧ (written : Int) ≠ expected then
          discard disk state (protocol (ascii "download length mismatch"))
        else
          match checkFile client crypto options disk update file with
          | .error e => discard disk state e
          | .ok () =>
              if ¬ disk.move then (.error downloadFailed, state)
              else (.ok (), { state with partialFile := none, destination := some file })

/-- What a download throws for an update without a download URL of the service. -/
def noDownloadUrl : Thrown :=
  .swm { kind := .configuration, statusCode := 0, serviceCode := []
         message := ascii "update does not contain a valid download URL" }

/-- The answer of the server that is written to the file. -/
def fetch (client : Client) (server : Server) (url : Bytes) (existing : Nat)
    (requests : List Cpp.DownloadRequest) :
    Except Thrown (StreamResponse × Bool × Int) × List Cpp.DownloadRequest :=
  match followRedirects client.uris server existing 4 url true requests with
  | (.error e, requests) => (.error e, requests)
  | (.ok stream, requests) =>
      if stream.statusCode ≥ 400 then
        if stream.breaks then (.error downloadFailed, requests)
        else
          (.error (.swm { kind := .api, statusCode := stream.statusCode, serviceCode := []
                          message := utf8String stream.chunks.flatten }), requests)
      else
        match (stream.contentRange.map parseTotal).getD (.ok 0) with
        | .error e => (.error e, requests)
        | .ok expected =>
            (.ok (stream, existing > 0 && stream.statusCode = 206, expected), requests)

/-- `downloadUpdate`. -/
def downloadUpdate (client : Client) (crypto : Crypto) (options : TrustOptions) (server : Server)
    (disk : Disk) (progress : Progress) (update : UpdateInfo) (state : Cpp.DownloadState) :
    Except Thrown Unit × Cpp.DownloadState :=
  if client.closed then (.error .illegalState, state)
  else if ¬ update.updateAvailable ∨ update.openInBrowser ∨
      ¬ validDownloadUrl client.uris client.baseUri update.downloadUrl then
    (.error noDownloadUrl, state)
  else
    match verifyArtifactManifest client.locale crypto options update with
    | .error e => (.error e, state)
    | .ok () =>
        if ¬ disk.prepare then (.error downloadFailed, state)
        else
          match fetch client server update.downloadUrl ((state.partialFile.map List.length).getD 0)
            state.requests with
          | (.error e, requests) => (.error e, { state with requests := requests })
          | (.ok (stream, append, expected), requests) =>
              store client crypto options disk progress update { state with requests := requests }
                stream append expected

/-! ## What a download that returns has done -/

theorem discard_ne_ok {disk : Disk} {state final : Cpp.DownloadState} {thrown : Thrown} :
    discard disk state thrown ≠ (.ok (), final) := by
  intro h
  unfold discard at h
  split at h <;> cases (Prod.mk.inj h).1

theorem store_ok {client : Client} {crypto : Crypto} {options : TrustOptions} {disk : Disk}
    {progress : Progress} {update : UpdateInfo} {state final : Cpp.DownloadState}
    {stream : StreamResponse} {append : Bool} {expected : Int}
    (h : store client crypto options disk progress update state stream append expected =
      (.ok (), final)) :
    ∃ file, final.destination = some file ∧
      verifyDownload client.locale crypto options update file = .ok () := by
  unfold store at h
  split at h
  · cases (Prod.mk.inj h).1
  · dsimp only at h
    split at h
    · cases (Prod.mk.inj h).1
    · split at h
      · exact absurd h discard_ne_ok
      · split at h
        · exact absurd h discard_ne_ok
        · rename_i hcheck
          split at h
          · cases (Prod.mk.inj h).1
          · refine ⟨_, by rw [← (Prod.mk.inj h).2], ?_⟩
            unfold checkFile at hcheck
            split at hcheck
            · cases hcheck
            · exact hcheck

/-- **A download that returns has installed a file that passes the check.** -/
theorem downloadUpdate_ok {client : Client} {crypto : Crypto} {options : TrustOptions}
    {server : Server} {disk : Disk} {progress : Progress} {update : UpdateInfo}
    {state final : Cpp.DownloadState}
    (h : downloadUpdate client crypto options server disk progress update state =
      (.ok (), final)) :
    client.closed = false ∧ update.updateAvailable = true ∧ update.openInBrowser = false ∧
      validDownloadUrl client.uris client.baseUri update.downloadUrl = true ∧
      ∃ file, final.destination = some file ∧
        verifyDownload client.locale crypto options update file = .ok () := by
  unfold downloadUpdate at h
  split at h
  · cases (Prod.mk.inj h).1
  rename_i hopen
  split at h
  · cases (Prod.mk.inj h).1
  rename_i hguard
  simp only [not_or, Bool.not_eq_true, Bool.not_eq_false] at hguard
  split at h
  · cases (Prod.mk.inj h).1
  split at h
  · cases (Prod.mk.inj h).1
  split at h
  · cases (Prod.mk.inj h).1
  · exact ⟨eq_false_of_ne_true hopen, hguard.1, hguard.2.1, hguard.2.2, store_ok h⟩

/-- A server that sends a file in one piece. -/
def sends (file : Bytes) : Server := fun _ _ => .ok ⟨200, none, none, [file], false⟩

/-- A disk on which every call succeeds. -/
def workingDisk : Disk := ⟨true, true, id, true, true, true⟩

/-- **A file that passes the check is installed**, from a server that sends it. -/
theorem downloadUpdate_sends {client : Client} {crypto : Crypto} {options : TrustOptions}
    {update : UpdateInfo} {file : Bytes} (hopen : client.closed = false)
    (havailable : update.updateAvailable = true) (hbrowser : update.openInBrowser = false)
    (hurl : validDownloadUrl client.uris client.baseUri update.downloadUrl = true)
    (hmanifest : verifyArtifactManifest client.locale crypto options update = .ok ())
    (hverify : verifyDownload client.locale crypto options update file = .ok ()) :
    ∃ final, downloadUpdate client crypto options (sends file) workingDisk none update
      ⟨none, none, []⟩ = (.ok (), final) ∧ final.destination = some file := by
  have hguard : ¬ (¬ update.updateAvailable = true ∨ update.openInBrowser = true ∨
      ¬ validDownloadUrl client.uris client.baseUri update.downloadUrl = true) := by
    simp [havailable, hbrowser, hurl]
  have hcheck : checkFile client crypto options workingDisk update file = .ok () := by
    rw [checkFile, if_neg (by decide), hverify]
  refine ⟨⟨none, some file, [⟨update.downloadUrl, 0, true⟩]⟩, ?_, rfl⟩
  unfold downloadUpdate
  rw [if_neg (by simp [hopen]), if_neg hguard, hmanifest]
  change store client crypto options workingDisk none update
    ⟨none, none, [⟨update.downloadUrl, 0, true⟩]⟩ ⟨200, none, none, [file], false⟩ false 0 = _
  have hreceive : receive none 0 false 0 [file] = (.ok file.length, file) := by
    simp [receive]
  unfold store
  rw [if_neg (by decide)]
  simp only [Bool.false_eq_true, if_false, List.length_nil, hreceive]
  change (match checkFile client crypto options workingDisk update file with
    | .error e => discard workingDisk _ e
    | .ok () => _) = _
  rw [hcheck]
  rfl

end Java
end SwmSdk
