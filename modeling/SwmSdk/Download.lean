import SwmSdk.Artifact

/-! # Downloading an update

`download_update` of the C++ client: the redirects it follows, the ranges it resumes,
the file it writes next to the destination, and the check of the digest before the
file is put in place.  The server is any function of the requests so far; every
call of the file system has an outcome of its own (`Disk`).

A download that returns has installed a file that passed `verify_download`
(`downloadUpdate_ok`).
-/
namespace SwmSdk
namespace Cpp
open ByteText Outcome

/-! ## URLs and headers -/

/-- The text before and after the first occurrence of a text. -/
def splitFirst (needle : Bytes) : Bytes → Option (Bytes × Bytes)
  | [] => if needle = [] then some ([], []) else none
  | b :: rest =>
      if needle <+: b :: rest then some ([], (b :: rest).drop needle.length)
      else (splitFirst needle rest).map fun (before, after) => (b :: before, after)

/-- The text is put together again. -/
theorem splitFirst_eq {needle text before after : Bytes}
    (h : splitFirst needle text = some (before, after)) : text = before ++ needle ++ after := by
  induction text generalizing before with
  | nil =>
    rw [splitFirst] at h
    split at h
    · rename_i hneedle
      cases h
      rw [hneedle]
      rfl
    · cases h
  | cons b rest ih =>
    rw [splitFirst] at h
    split at h
    · rename_i hstarts
      obtain ⟨more, hmore⟩ := hstarts
      cases h
      rw [← hmore, List.drop_left, List.nil_append]
    · obtain ⟨⟨before, after⟩, hrest, hpair⟩ := Option.map_eq_some_iff.mp h
      cases hpair
      rw [ih hrest]
      rfl

/-- A text is found where it stands. -/
theorem splitFirst_isSome_iff (needle text : Bytes) :
    (splitFirst needle text).isSome = true ↔ needle <:+: text := by
  induction text with
  | nil =>
    rw [splitFirst, List.infix_nil]
    split <;> simp_all
  | cons b rest ih =>
    rw [splitFirst, List.infix_cons_iff, ← ih]
    split
    · rename_i hstarts
      exact iff_of_true rfl (.inl hstarts)
    · rename_i hstarts
      rw [Option.isSome_map]
      exact ⟨.inr, fun h => h.resolve_left hstarts⟩

/-- The first occurrence comes after bytes that the text does not start with. -/
theorem splitFirst_head {c : UInt8} {needle before after : Bytes} (h : c ∉ before) :
    splitFirst (c :: needle) (before ++ c :: needle ++ after) = some (before, after) := by
  induction before with
  | nil =>
    change splitFirst (c :: needle) (c :: (needle ++ after)) = _
    rw [splitFirst, if_pos ⟨after, rfl⟩]
    simp
  | cons b before ih =>
    obtain ⟨hb, hbefore⟩ : c ≠ b ∧ c ∉ before := by simpa using h
    have hnot : ¬ c :: needle <+: b :: (before ++ c :: needle ++ after) := by
      rintro ⟨rest, hrest⟩
      exact hb (List.cons.inj hrest).1
    change splitFirst (c :: needle) (b :: (before ++ c :: needle ++ after)) = _
    rw [splitFirst, if_neg hnot, ih hbefore]
    rfl

/-- The parts of a text between slashes. -/
def splitSlashes : Bytes → List Bytes
  | [] => [[]]
  | b :: rest =>
      if b = 0x2f then [] :: splitSlashes rest
      else
        match splitSlashes rest with
        | [] => [[b]]
        | part :: parts => (b :: part) :: parts

/-- `valid_download_url`: the scheme and the host of the base, a ticket, and the path of an
artifact. -/
def validDownloadUrl (raw base : Bytes) : Bool :=
  match splitFirst (ascii "://") raw, splitFirst (ascii "://") base with
  | some (scheme, raw), some (baseScheme, base) =>
      match splitFirst (ascii "/") raw, splitFirst (ascii "/") base with
      | some (host, path), some (baseHost, _) =>
          scheme = baseScheme && host = baseHost &&
          (splitFirst (ascii "ticket=") (ascii "/" ++ path)).isSome &&
          match splitSlashes (path.takeWhile (· ≠ 0x3f)) with
          | [api, client, artifacts, _, download] =>
              api = ascii "api" && client = ascii "client" && artifacts = ascii "artifacts" &&
              download = ascii "download"
          | _ => false
      | _, _ => false
  | _, _ => false

def protocolFailure (message : String) : Failure := .swm (protocolError (ascii message))

/-- `resolve_redirect_url`. -/
def resolveRedirectUrl (current rawLocation : Bytes) : Except Failure Bytes :=
  let location := trimAscii rawLocation
  if location = [] then .error (protocolFailure "download redirect is missing Location")
  else if (splitFirst (ascii "://") location).isSome then .ok location
  else
    match splitFirst (ascii "://") current with
    | none => .error (protocolFailure "download URL is invalid")
    | some (scheme, rest) =>
        let origin := scheme ++ ascii "://" ++ rest.takeWhile (· ≠ 0x2f)
        let path := rest.dropWhile (· ≠ 0x2f)
        if ascii "//" <+: location then .ok (scheme ++ ascii ":" ++ location)
        else if ascii "/" <+: location then .ok (origin ++ location)
        else if path = [] then .ok (origin ++ ascii "/" ++ location)
        else
          -- the directory of the path, which starts with a slash
          let directory := (path.takeWhile fun b => b ≠ 0x3f && b ≠ 0x23).rdropWhile (· ≠ 0x2f)
          .ok (origin ++ directory ++ location)

/-- `std::stoull`: white space, a sign and digits; what follows them is ignored. -/
def stoull (text : Bytes) : Option Nat :=
  let text := text.dropWhile fun b => b = 0x20 || (0x09 ≤ b && b ≤ 0x0d)
  let negative := text.head? = some 0x2d
  let text := if negative ∨ text.head? = some 0x2b then text.tail else text
  match text.takeWhile Nlohmann.isDigit with
  | [] => none
  | digits =>
      let value := Nlohmann.digitsValue digits
      if value ≥ 2 ^ 64 then none
      else some (if negative then (2 ^ 64 - value) % 2 ^ 64 else value)

/-- The bytes that a `Content-Range` header names, from `start` to `stop`, and the length of the
whole. -/
structure ContentRange where
  start : Nat
  stop : Nat
  total : Nat
  deriving DecidableEq, Repr

/-- `parse_content_range`. -/
def parseContentRange (value : Bytes) : Option ContentRange := do
  let text := trimAscii value
  if ¬ ascii "bytes " <+: text then none
  else
    let (first, rest) ← splitFirst (ascii "-") (text.drop 6)
    let (last, total) ← splitFirst (ascii "/") rest
    let start ← stoull first
    let stop ← stoull last
    let total ← if total = ascii "*" then some 0 else stoull total
    if stop < start ∨ (total ≠ 0 ∧ stop ≥ total) then none else some ⟨start, stop, total⟩

/-! ## The server -/

/-- A request for the artifact. -/
structure DownloadRequest where
  url : Bytes
  rangeStart : Nat
  authenticated : Bool
  deriving DecidableEq, Repr

/-- An answer: its status, the headers that are looked at, what each read of the body
returns, and what is thrown after that. -/
structure ResponseStream where
  statusCode : Int
  location : Option Bytes
  contentRange : Option Bytes
  contentLength : Option Bytes
  chunks : List Bytes
  failure : Option Failure

/-- The server, and the network to it: an answer to a request after some others. -/
def Server : Type := List DownloadRequest → DownloadRequest → Except Failure ResponseStream

section Fetch
variable (server : Server)

/-- The loop over redirects, with the number of requests that are left. -/
def followRedirects (existing : Nat) : (left : Nat) → (url : Bytes) → (authenticated : Bool) →
    List DownloadRequest →
    Except Failure (ResponseStream × Bytes × Bool) × List DownloadRequest
  | 0, _, _, requests => (.error (protocolFailure "download redirect limit exceeded"), requests)
  | left + 1, url, authenticated, requests =>
      let request : DownloadRequest := ⟨url, existing, authenticated⟩
      match server requests request with
      | .error e => (.error e, requests ++ [request])
      | .ok stream =>
          if stream.statusCode < 300 ∨ stream.statusCode ≥ 400 then
            (.ok (stream, url, authenticated), requests ++ [request])
          else
            match stream.location with
            | none =>
                (.error (protocolFailure "download redirect is missing Location"),
                  requests ++ [request])
            | some location =>
                match resolveRedirectUrl url location with
                | .error e => (.error e, requests ++ [request])
                | .ok url => followRedirects existing left url false (requests ++ [request])

/-- What a download throws for a status that is not expected. -/
def downloadApiError (statusCode : Int) (message : Bytes) : Failure :=
  .swm { kind := .api, statusCode := statusCode, serviceCode := [], message := message }

/-- The first read of the body of an error, as far as the buffer reaches. -/
def firstRead (stream : ResponseStream) : Except Failure Bytes :=
  match stream.chunks with
  | chunk :: _ => .ok (chunk.take (64 * 1024))
  | [] =>
      match stream.failure with
      | some e => .error e
      | none => .ok []

/-- What is to be written: the stream, whether the file is appended to, how much of it is
there, and the length that is expected. -/
structure Plan where
  stream : ResponseStream
  append : Bool
  existing : Nat
  expected : Nat

/-- The length of the file, if the range does not tell it. -/
def withLength (plan : Plan) : Except Failure Plan :=
  if plan.expected ≠ 0 then .ok plan
  else
    match plan.stream.contentLength with
    | none => .ok { plan with expected := plan.existing % 2 ^ 64 }
    | some text =>
        match stoull text with
        | none => .error (protocolFailure "download Content-Length is invalid")
        | some length => .ok { plan with expected := (length + plan.existing) % 2 ^ 64 }

/-- The range of an answer against the file that is there: what to write, or that the
download starts again. -/
def matchRange (existing : Nat) (stream : ResponseStream) : Except Failure (Option Plan) :=
  if stream.statusCode = 206 then
    match stream.contentRange with
    | none => .error (protocolFailure "partial download is missing Content-Range")
    | some text =>
        match parseContentRange text with
        | none => .error (protocolFailure "partial download Content-Range is invalid")
        | some range =>
            if range.start ≠ existing then .ok none
            else .ok (some ⟨stream, existing > 0, existing, range.total⟩)
  else if stream.statusCode ≠ 200 then
    .error (downloadApiError stream.statusCode (ascii "download was rejected"))
  else .ok (some ⟨stream, false, 0, 0⟩)

/-- Everything up to the file: redirects, errors and the range, with one more request when
the range does not continue the file. -/
def fetch (url : Bytes) (existing : Nat) (requests : List DownloadRequest) :
    Except Failure Plan × List DownloadRequest :=
  match followRedirects server existing 4 url true requests with
  | (.error e, requests) => (.error e, requests)
  | (.ok (stream, url, authenticated), requests) =>
      if stream.statusCode ≥ 400 then
        match firstRead stream with
        | .error e => (.error e, requests)
        | .ok body => (.error (downloadApiError stream.statusCode body), requests)
      else
        match matchRange existing stream with
        | .error e => (.error e, requests)
        | .ok (some plan) => (withLength plan, requests)
        | .ok none =>
            let request : DownloadRequest := ⟨url, 0, authenticated⟩
            match server requests request with
            | .error e => (.error e, requests ++ [request])
            | .ok stream =>
                match matchRange 0 stream with
                | .error e => (.error e, requests ++ [request])
                | .ok (some plan) => (withLength plan, requests ++ [request])
                | .ok none =>
                    (.error (protocolFailure
                      "partial download range does not match the local file"),
                      requests ++ [request])

end Fetch

/-! ## The file -/

/-- The outcomes of the calls to the file system. -/
structure Disk where
  /-- `create_directories`, `exists` and `file_size`. -/
  prepare : Except Failure Unit
  /-- The output file can be opened. -/
  openOutput : Bool
  /-- What the disk keeps of the bytes written to the file. -/
  keep : Bytes → Bytes
  /-- The file can be read again. -/
  readPartial : Bool
  removePartial : Except Failure Unit
  /-- The destination is removed. -/
  removeDestination : Bool
  rename : Except Failure Unit

/-- The partial file, the destination, and the requests that were sent. -/
structure DownloadState where
  partialFile : Option Bytes
  destination : Option Bytes
  requests : List DownloadRequest

/-- The function that is told of the progress; it may throw. -/
def Progress : Type := Option (Nat → Nat → Except Failure Unit)

/-- The loop that reads the body: the number of bytes in the file, and the bytes that were
written. -/
def receive (progress : Progress) (expected : Nat) (failure : Option Failure) :
    (written : Nat) → List Bytes → Except Failure Nat × Bytes
  | written, [] =>
      match failure with
      | some e => (.error e, [])
      | none => (.ok written, [])
  | written, chunk :: chunks =>
      if chunk = [] then (.ok written, [])
      else
        let told : Except Failure Unit :=
          match progress with
          | none => .ok ()
          | some f => f (written + chunk.length) expected
        match told with
        | .error e => (.error e, chunk)
        | .ok () =>
            let more := receive progress expected failure (written + chunk.length) chunks
            (more.1, chunk ++ more.2)

/-- Remove the partial file and throw. -/
def discard (disk : Disk) (state : DownloadState) (failure : Failure) :
    Except Failure Unit × DownloadState :=
  match disk.removePartial with
  | .error e => (.error e, state)
  | .ok () => (.error failure, { state with partialFile := none })

/-- Put the partial file in the place of the destination. -/
def install (disk : Disk) (state : DownloadState) (file : Bytes) :
    Except Failure Unit × DownloadState :=
  let state := if disk.removeDestination then { state with destination := none } else state
  match disk.rename with
  | .error e => (.error e, state)
  | .ok () => (.ok (), { state with partialFile := none, destination := some file })

/-- The check of the file that was written. -/
def checkFile (crypto : Crypto) (disk : Disk) (update : UpdateInfo) (file : Bytes) :
    Except Failure Unit :=
  if ¬ disk.readPartial then .error (downloadApiError 0 (ascii "file read failed"))
  else lift (verifyDownload crypto update (crypto.sha256Hex file))

/-- Write the file, check it and put it in place. -/
def store (crypto : Crypto) (disk : Disk) (progress : Progress) (update : UpdateInfo)
    (state : DownloadState) (plan : Plan) : Except Failure Unit × DownloadState :=
  if ¬ disk.openOutput then
    (.error (downloadApiError 0 (ascii "cannot create download file")), state)
  else
    let base := if plan.append then state.partialFile.getD [] else []
    let received := receive progress plan.expected plan.stream.failure plan.existing
      plan.stream.chunks
    let file := disk.keep (base ++ received.2)
    let state := { state with partialFile := some file }
    match received.1 with
    | .error e => (.error e, state)
    | .ok written =>
        if plan.expected > 0 ∧ written ≠ plan.expected then
          discard disk state (downloadApiError 0 (ascii "download length mismatch"))
        else
          match checkFile crypto disk update file with
          | .error e => discard disk state e
          | .ok () => install disk state file

/-- What a download throws for an update without a download URL of the service. -/
def noDownloadUrl : Failure :=
  .swm { kind := .configuration, statusCode := 0, serviceCode := []
         message := ascii "update does not contain a valid download URL" }

/-- `download_update`. -/
def downloadUpdate (crypto : Crypto) (options : TrustOptions) (server : Server) (disk : Disk)
    (progress : Progress) (update : UpdateInfo) (state : DownloadState) :
    Except Failure Unit × DownloadState :=
  if ¬ update.updateAvailable ∨ update.openInBrowser ∨
      ¬ validDownloadUrl update.downloadUrl options.baseUrl then (.error noDownloadUrl, state)
  else
    match disk.prepare with
    | .error e => (.error e, state)
    | .ok () =>
        match fetch server update.downloadUrl ((state.partialFile.map List.length).getD 0)
          state.requests with
        | (.error e, requests) => (.error e, { state with requests := requests })
        | (.ok plan, requests) =>
            store crypto disk progress update { state with requests := requests } plan

/-! ## What a download that returns has done -/

theorem install_ok {disk : Disk} {state final : DownloadState} {file : Bytes}
    (h : install disk state file = (.ok (), final)) : final.destination = some file := by
  unfold install at h
  dsimp only at h
  split at h
  · cases (Prod.mk.inj h).1
  · rw [← (Prod.mk.inj h).2]

theorem discard_ne_ok {disk : Disk} {state final : DownloadState} {failure : Failure} :
    discard disk state failure ≠ (.ok (), final) := by
  intro h
  unfold discard at h
  split at h <;> cases (Prod.mk.inj h).1

theorem lift_eq_ok {α : Type} {result : Except Error α} {a : α} :
    lift result = .ok a ↔ result = .ok a := by
  cases result with
  | ok b => simp [lift]
  | error e => simp [lift]

theorem store_ok {crypto : Crypto} {disk : Disk} {progress : Progress} {update : UpdateInfo}
    {state final : DownloadState} {plan : Plan}
    (h : store crypto disk progress update state plan = (.ok (), final)) :
    ∃ file, final.destination = some file ∧
      verifyDownload crypto update (crypto.sha256Hex file) = .ok () := by
  unfold store at h
  split at h
  · cases (Prod.mk.inj h).1
  · dsimp only at h
    split at h
    · cases (Prod.mk.inj h).1
    · split at h
      · exact absurd h discard_ne_ok
      · split at h
        · exact absurd h discard_ne_ok
        · rename_i hcheck
          refine ⟨_, install_ok h, ?_⟩
          unfold checkFile at hcheck
          split at hcheck
          · cases hcheck
          · exact lift_eq_ok.mp hcheck

/-- **A download that returns has installed a file with the digest of the update**, under
the signature of the manifest key of the update. -/
theorem downloadUpdate_ok {crypto : Crypto} {options : TrustOptions} {server : Server}
    {disk : Disk} {progress : Progress} {update : UpdateInfo} {state final : DownloadState}
    (h : downloadUpdate crypto options server disk progress update state = (.ok (), final)) :
    update.updateAvailable = true ∧ update.openInBrowser = false ∧
      validDownloadUrl update.downloadUrl options.baseUrl = true ∧
      ∃ file, final.destination = some file ∧
        verifyDownload crypto update (crypto.sha256Hex file) = .ok () := by
  unfold downloadUpdate at h
  split at h
  · cases (Prod.mk.inj h).1
  · rename_i hguard
    split at h
    · cases (Prod.mk.inj h).1
    · split at h
      · cases (Prod.mk.inj h).1
      · simp only [not_or, Bool.not_eq_true, Bool.not_eq_false] at hguard
        exact ⟨hguard.1, hguard.2.1, hguard.2.2, store_ok h⟩

/-- A server that sends a file in one piece. -/
def sends (file : Bytes) : Server := fun _ _ => .ok ⟨200, none, none, none, [file], none⟩

/-- A disk on which every call succeeds. -/
def workingDisk : Disk := ⟨.ok (), true, id, true, .ok (), true, .ok ()⟩

/-- **A file that passes the check is installed**, from a server that sends it. -/
theorem downloadUpdate_sends {crypto : Crypto} {options : TrustOptions} {update : UpdateInfo}
    {file : Bytes} (havailable : update.updateAvailable = true)
    (hbrowser : update.openInBrowser = false)
    (hurl : validDownloadUrl update.downloadUrl options.baseUrl = true) (hfile : file ≠ [])
    (hverify : verifyDownload crypto update (crypto.sha256Hex file) = .ok ()) :
    ∃ final, downloadUpdate crypto options (sends file) workingDisk none update ⟨none, none, []⟩ =
      (.ok (), final) ∧ final.destination = some file := by
  have hguard : ¬ (¬ update.updateAvailable = true ∨ update.openInBrowser = true ∨
      ¬ validDownloadUrl update.downloadUrl options.baseUrl = true) := by
    simp [havailable, hbrowser, hurl]
  have hcheck : checkFile crypto workingDisk update file = .ok () := by
    rw [checkFile, if_neg (by decide), hverify]
    rfl
  refine ⟨⟨none, some file, [⟨update.downloadUrl, 0, true⟩]⟩, ?_, rfl⟩
  unfold downloadUpdate
  rw [if_neg hguard]
  change store crypto workingDisk none update ⟨none, none, [⟨update.downloadUrl, 0, true⟩]⟩
    ⟨⟨200, none, none, none, [file], none⟩, false, 0, 0⟩ = _
  have hreceive : receive none 0 none 0 [file] = (.ok file.length, file) := by
    rw [receive, if_neg hfile]
    simp [receive]
  unfold store
  rw [if_neg (by decide)]
  simp only [hreceive]
  change (match checkFile crypto workingDisk update file with
    | .error e => discard workingDisk _ e
    | .ok () => install workingDisk _ file) = _
  rw [hcheck]
  rfl

end Cpp
end SwmSdk
