import SwmSdk.Authz
import SwmSdk.DownloadResume
import SwmSdk.KeyRefresh
import SwmSdk.Schedule
import SwmSdk.SendLoop

/-! # How long a session is sent

A verified response may carry a session and the time at which it expires; both are signed.  The
C++ pipeline keeps them and puts the session into its requests.

`send_attempt`, the two downloads and the two stream openers ask `ensure_session` for the session
while they build a request.  `send_web` asks once, before its loop, and goes on sending the answer
after its pauses.  Every request of a run is built before the session that it carries expires,
exactly when no attempt of `send_web` is built after that (`session_lifetime_iff`).
-/
namespace SwmSdk
namespace Cpp
open ByteText Outcome Pipeline

/-! ## The requests -/

/-- What the platform contributes to a request of the web interface. -/
structure WebPlatform extends Platform where
  /-- `hex_lower(random_bytes(16))`. -/
  randomHex : Bytes
  /-- `hmac_sha256_hex`: secret, text. -/
  hmacSha256Hex : Bytes → Bytes → Bytes

section Requests
variable (crypto : Crypto) (pipeline : Pipeline) (platform : WebPlatform)

/-- `ensure_session`. -/
def ensureSession : Except Error Bytes :=
  pipeline.ensureSession "trusted server time is unavailable for session validation"

/-- `ensure_trusted_now`. -/
def ensureTrustedNow : Except Error Bytes :=
  if pipeline.now ≤ 0 then .error (clockError "trusted server time is unavailable")
  else .ok (decimal pipeline.now)

/-- The session and the proof for it. -/
def credentialHeaders (method url session body : Bytes) : Except Error (List (Bytes × Bytes)) := do
  let proof ← createDpop crypto pipeline platform.toPlatform method url session body
  .ok [(ascii "X-SWM-Session", session), (ascii "X-SWM-DPoP", proof)]

/-- The range of a download that is resumed. -/
def rangeHeader (rangeStart : Nat) : List (Bytes × Bytes) :=
  if rangeStart > 0 then [(ascii "range", ascii "bytes=" ++ decimalNat rangeStart ++ ascii "-")]
  else []

/-- `send_download`. -/
def sendDownload (url : Bytes) (rangeStart : Nat) : Except Error HttpRequest := do
  let session ← ensureSession pipeline
  let credentials ← credentialHeaders crypto pipeline platform (ascii "GET") url session []
  .ok ⟨ascii "GET", url, rangeHeader rangeStart ++ credentials, []⟩

/-- `open_download_stream`. -/
def openDownload (request : DownloadRequest) : Except Error HttpRequest :=
  if request.authenticated then do
    let session ← ensureSession pipeline
    let proof ← createDpop crypto pipeline platform.toPlatform (ascii "GET") request.url session []
    .ok (openDownloadStream session (fun _ => proof) request)
  else .ok (openDownloadStream [] (fun _ => []) request)

/-- `open_update_stream`. -/
def openUpdateStream (url : Bytes) : Except Error HttpRequest := do
  let session ← ensureSession pipeline
  let timestamp ← ensureTrustedNow pipeline
  let credentials ← credentialHeaders crypto pipeline platform (ascii "GET") url session []
  .ok ⟨ascii "GET", url, (ascii "accept", ascii "text/event-stream") ::
    (pipeline.identityHeaders timestamp platform.nonce ++ credentials), []⟩

/-- The signature of a debug client over a request, with its headers. -/
def debugHeaders (method path body timestamp nonce clientId secret : Bytes) :
    List (Bytes × Bytes) := [
  (ascii "x-client-id", clientId),
  (ascii "x-timestamp", timestamp),
  (ascii "x-nonce", nonce),
  (ascii "x-signature-version", ascii "1"),
  (ascii "x-signature", platform.hmacSha256Hex secret (method ++ ascii "\n" ++ path ++
    ascii "\n\n" ++ crypto.sha256Hex body ++ ascii "\n" ++ timestamp ++ ascii "\n" ++ nonce ++
    ascii "\n" ++ clientId))]

/-- A header that is left out when its value is empty. -/
def optionalHeader (name : String) (value : Bytes) : List (Bytes × Bytes) :=
  if value = [] then [] else [(ascii name, value)]

/-- `open_web_stream`. -/
def openWebStream (url path requestId : Bytes) (debugCredentials : Json) (watchToken : Bytes) :
    Except Error HttpRequest := do
  let session ← ensureSession pipeline
  let credentials ← credentialHeaders crypto pipeline platform (ascii "GET") url session []
  let clientId ← jsonGetString debugCredentials (ascii "client_id") true
  let secret ← jsonGetString debugCredentials (ascii "client_secret") true
  let timestamp ← ensureTrustedNow pipeline
  .ok ⟨ascii "GET", url, (ascii "accept", ascii "text/event-stream") :: (credentials ++
    (debugHeaders crypto platform (ascii "GET") path [] timestamp platform.randomHex clientId
      secret ++ ((ascii "x-debug-watch-token", watchToken) ::
        optionalHeader "x-debug-request-id" requestId))), []⟩

/-- The arguments of `send_web`, with its absolute URL. -/
structure WebRequest where
  method : Bytes
  path : Bytes
  url : Bytes
  body : Bytes
  operation : OperationClass
  includeDpop : Bool
  debugCredentials : Option Json
  watchToken : Bytes
  requestId : Bytes

/-- The session that `send_web` takes before its loop. -/
def webSession (request : WebRequest) : Except Error Bytes :=
  if request.includeDpop ∨ request.debugCredentials.isSome then ensureSession pipeline
  else .ok []

/-- The session of the call and a proof for it, when the call asks for them. -/
def webCredentials (request : WebRequest) (session : Bytes) :
    Except Error (List (Bytes × Bytes)) :=
  if request.includeDpop then
    credentialHeaders crypto pipeline platform request.method request.url session request.body
  else .ok []

/-- The signature with the debug credentials, when there are some. -/
def webDebug (request : WebRequest) : Except Error (List (Bytes × Bytes)) :=
  match request.debugCredentials with
  | none => .ok []
  | some credentials => do
      let timestamp ← ensureTrustedNow pipeline
      let clientId ← jsonGetString credentials (ascii "client_id") true
      let secret ← jsonGetString credentials (ascii "client_secret") true
      .ok (debugHeaders crypto platform request.method request.path request.body timestamp
        platform.randomHex clientId secret)

/-- The request of an attempt of `send_web`, with the session of the call. -/
def webAttempt (request : WebRequest) (session : Bytes) : Except Error HttpRequest := do
  let credentials ← webCredentials crypto pipeline platform request session
  let debug ← webDebug crypto pipeline platform request
  let contentType := if request.body = [] then []
    else [(ascii "content-type", ascii "application/json; charset=utf-8")]
  .ok ⟨request.method, request.url, (ascii "accept", ascii "application/json") ::
    (contentType ++ (credentials ++ (debug ++ (optionalHeader "x-debug-watch-token"
      request.watchToken ++ optionalHeader "x-debug-request-id" request.requestId)))),
    request.body⟩

end Requests

/-- The senders that ask for the session while they build a request. -/
inductive Sender where
  /-- An attempt of `send`. -/
  | attempt (request : ProtocolRequest)
  | download (url : Bytes) (rangeStart : Nat)
  | downloadStream (request : DownloadRequest)
  | webStream (url path requestId : Bytes) (debugCredentials : Json) (watchToken : Bytes)
  | updateStream (url : Bytes)

/-- The request that a sender builds. -/
def Sender.build (crypto : Crypto) (pipeline : Pipeline) (platform : WebPlatform) :
    Sender → Except Error HttpRequest
  | .attempt request => sendAttempt crypto pipeline platform.toPlatform request
  | .download url rangeStart => sendDownload crypto pipeline platform url rangeStart
  | .downloadStream request => openDownload crypto pipeline platform request
  | .webStream url path requestId debugCredentials watchToken =>
      openWebStream crypto pipeline platform url path requestId debugCredentials watchToken
  | .updateStream url => openUpdateStream crypto pipeline platform url

/-! ### The session that they carry -/

/-- None of the headers is the session. -/
def NoSession (headers : List (Bytes × Bytes)) : Prop :=
  headers.find? (fun entry => entry.1 = ascii "X-SWM-Session") = none

theorem NoSession.append {front back : List (Bytes × Bytes)} (hfront : NoSession front)
    (hback : NoSession back) : NoSession (front ++ back) := by
  unfold NoSession at hfront hback ⊢
  rw [List.find?_append, hfront, hback]
  rfl

theorem NoSession.header {http : HttpRequest} (h : NoSession http.headers) :
    http.header "X-SWM-Session" = none := by
  rw [HttpRequest.header, h]
  rfl

/-- The session is found behind headers with other names. -/
theorem header_of_noSession {http : HttpRequest} {session : Bytes}
    {front back : List (Bytes × Bytes)} (h : NoSession front)
    (hheaders : http.headers = front ++ (ascii "X-SWM-Session", session) :: back) :
    http.header "X-SWM-Session" = some session := by
  unfold NoSession at h
  rw [HttpRequest.header, hheaders, List.find?_append, h, Option.none_or, List.find?_cons_of_pos]
  · rfl
  · exact decide_eq_true rfl

theorem optionalHeader_noSession {name : String} {value : Bytes}
    (hname : ascii name ≠ ascii "X-SWM-Session") : NoSession (optionalHeader name value) := by
  unfold optionalHeader
  split
  · rfl
  · simp [NoSession, hname]

section Carried
variable {crypto : Crypto} {pipeline : Pipeline} {platform : WebPlatform}

theorem credentialHeaders_ok {method url session body : Bytes} {headers : List (Bytes × Bytes)}
    (h : credentialHeaders crypto pipeline platform method url session body = .ok headers) :
    ∃ proof, headers = [(ascii "X-SWM-Session", session), (ascii "X-SWM-DPoP", proof)] := by
  unfold credentialHeaders at h
  obtain ⟨proof, -, h⟩ := bind_eq_ok.mp h
  exact ⟨proof, (Except.ok.inj h).symm⟩

theorem rangeHeader_noSession (rangeStart : Nat) : NoSession (rangeHeader rangeStart) := by
  unfold rangeHeader
  split
  · rfl
  · rfl

/-- An attempt of `send` carries the session that `ensure_session` gives while it is built. -/
theorem sendAttempt_session {request : ProtocolRequest} {http : HttpRequest} {session : Bytes}
    (h : sendAttempt crypto pipeline platform.toPlatform request = .ok http)
    (hcarried : http.header "X-SWM-Session" = some session) :
    ensureSession pipeline = .ok session := by
  have hcontent : NoSession (contentTypeHeader request) := contentTypeHeader_session
  unfold sendAttempt at h
  obtain ⟨timestamp, -, h⟩ := bind_eq_ok.mp h
  dsimp only at h
  have hidentity : NoSession (pipeline.identityHeaders timestamp platform.nonce) :=
    identityHeaders_session _ _
  split at h
  · obtain ⟨key, -, h⟩ := bind_eq_ok.mp h
    obtain ⟨sessionBinding, hsession, h⟩ := bind_eq_ok.mp h
    obtain ⟨proof, -, h⟩ := bind_eq_ok.mp h
    have hfront : NoSession (pipeline.identityHeaders timestamp platform.nonce ++
        [(ascii "X-SWM-DPoP", proof)]) := hidentity.append rfl
    -- whatever follows, the session header is the one of `require_session`
    have hheaders : ∀ back, NoSession back →
        http.headers = pipeline.identityHeaders timestamp platform.nonce ++
          [(ascii "X-SWM-DPoP", proof)] ++ sessionHeader request.requireSession sessionBinding ++
          back → ensureSession pipeline = .ok session := by
      intro back hback heq
      cases hrequire : request.requireSession with
      | false =>
        rw [sessionHeader, hrequire, if_neg (by decide), List.append_nil] at heq
        have hnone : NoSession http.headers := heq ▸ hfront.append hback
        cases hcarried.symm.trans hnone.header
      | true =>
        rw [sessionHeader, hrequire, if_pos rfl, List.append_assoc, List.singleton_append] at heq
        have hfound := hcarried.symm.trans (header_of_noSession hfront heq)
        rw [sessionBindingOf, if_pos hrequire, ← Option.some.inj hfound] at hsession
        exact hsession
    split at h
    · obtain ⟨encrypted, -, h⟩ := bind_eq_ok.mp h
      obtain rfl := Except.ok.inj h
      refine hheaders (encryptionHeaders key ++ contentTypeHeader request) ?_ rfl
      exact NoSession.append rfl hcontent
    · obtain rfl := Except.ok.inj h
      exact hheaders (contentTypeHeader request) hcontent rfl
  · obtain rfl := Except.ok.inj h
    cases hcarried.symm.trans (NoSession.header (hidentity.append hcontent))

/-- **The direct senders** carry the session that `ensure_session` gives while they build. -/
theorem Sender.build_session {sender : Sender} {http : HttpRequest} {session : Bytes}
    (h : sender.build crypto pipeline platform = .ok http)
    (hcarried : http.header "X-SWM-Session" = some session) :
    ensureSession pipeline = .ok session := by
  cases sender with
  | attempt request => exact sendAttempt_session h hcarried
  | download url rangeStart =>
    unfold build sendDownload at h
    obtain ⟨taken, htaken, h⟩ := bind_eq_ok.mp h
    obtain ⟨credentials, hcredentials, h⟩ := bind_eq_ok.mp h
    obtain ⟨proof, rfl⟩ := credentialHeaders_ok hcredentials
    obtain rfl := Except.ok.inj h
    have hfound := hcarried.symm.trans (header_of_noSession (rangeHeader_noSession _) rfl)
    rw [htaken, Option.some.inj hfound]
  | downloadStream request =>
    have hopen : openDownload crypto pipeline platform request = .ok http := h
    unfold openDownload at hopen
    split at hopen
    · rename_i hauthenticated
      obtain ⟨taken, htaken, hopen⟩ := bind_eq_ok.mp hopen
      obtain ⟨proof, -, hopen⟩ := bind_eq_ok.mp hopen
      obtain rfl := Except.ok.inj hopen
      have hheaders : (openDownloadStream taken (fun _ => proof) request).headers =
          rangeHeader request.rangeStart ++
            [(ascii "X-SWM-Session", taken), (ascii "X-SWM-DPoP", proof)] := by
        unfold openDownloadStream
        rw [if_pos hauthenticated]
        rfl
      have hfound := hcarried.symm.trans
        (header_of_noSession (rangeHeader_noSession _) hheaders)
      rw [htaken, Option.some.inj hfound]
    · -- after a redirect to another host neither session nor proof is sent
      rename_i hplain
      obtain rfl := Except.ok.inj hopen
      have hnone : NoSession (openDownloadStream [] (fun _ => []) request).headers := by
        unfold openDownloadStream
        rw [if_neg hplain, List.append_nil]
        exact rangeHeader_noSession _
      cases hcarried.symm.trans hnone.header
  | webStream url path requestId debugCredentials watchToken =>
    unfold build openWebStream at h
    obtain ⟨taken, htaken, h⟩ := bind_eq_ok.mp h
    obtain ⟨credentials, hcredentials, h⟩ := bind_eq_ok.mp h
    obtain ⟨proof, rfl⟩ := credentialHeaders_ok hcredentials
    obtain ⟨clientId, -, h⟩ := bind_eq_ok.mp h
    obtain ⟨secret, -, h⟩ := bind_eq_ok.mp h
    obtain ⟨timestamp, -, h⟩ := bind_eq_ok.mp h
    obtain rfl := Except.ok.inj h
    have hfront : NoSession [(ascii "accept", ascii "text/event-stream")] := rfl
    have hfound := hcarried.symm.trans (header_of_noSession hfront rfl)
    rw [htaken, Option.some.inj hfound]
  | updateStream url =>
    unfold build openUpdateStream at h
    obtain ⟨taken, htaken, h⟩ := bind_eq_ok.mp h
    obtain ⟨timestamp, -, h⟩ := bind_eq_ok.mp h
    obtain ⟨credentials, hcredentials, h⟩ := bind_eq_ok.mp h
    obtain ⟨proof, rfl⟩ := credentialHeaders_ok hcredentials
    obtain rfl := Except.ok.inj h
    have hfront : NoSession ((ascii "accept", ascii "text/event-stream") ::
        pipeline.identityHeaders timestamp platform.nonce) := rfl
    have hfound := hcarried.symm.trans (header_of_noSession hfront rfl)
    rw [htaken, Option.some.inj hfound]

/-- **An attempt of `send_web`** carries the session of its call, if it carries one. -/
theorem webAttempt_session {request : WebRequest} {session : Bytes} {http : HttpRequest}
    (h : webAttempt crypto pipeline platform request session = .ok http) :
    http.header "X-SWM-Session" = if request.includeDpop then some session else none := by
  unfold webAttempt at h
  obtain ⟨credentials, hcredentials, h⟩ := bind_eq_ok.mp h
  obtain ⟨debug, hdebug, h⟩ := bind_eq_ok.mp h
  obtain rfl := Except.ok.inj h
  have hfront : NoSession ((ascii "accept", ascii "application/json") ::
      if request.body = [] then []
      else [(ascii "content-type", ascii "application/json; charset=utf-8")]) := by
    split
    · rfl
    · rfl
  unfold webCredentials at hcredentials
  split at hcredentials
  · rename_i hdpop
    obtain ⟨proof, rfl⟩ := credentialHeaders_ok hcredentials
    rw [if_pos hdpop]
    exact header_of_noSession hfront rfl
  · rename_i hplain
    obtain rfl := Except.ok.inj hcredentials
    rw [if_neg hplain]
    -- the headers that sign a debug request carry no session
    have hsigned : NoSession debug := by
      unfold webDebug at hdebug
      split at hdebug
      · obtain rfl := Except.ok.inj hdebug
        rfl
      · obtain ⟨timestamp, -, hdebug⟩ := bind_eq_ok.mp hdebug
        obtain ⟨clientId, -, hdebug⟩ := bind_eq_ok.mp hdebug
        obtain ⟨secret, -, hdebug⟩ := bind_eq_ok.mp hdebug
        obtain rfl := Except.ok.inj hdebug
        rfl
    have hback : NoSession (debug ++ (optionalHeader "x-debug-watch-token" request.watchToken ++
        optionalHeader "x-debug-request-id" request.requestId)) :=
      hsigned.append ((optionalHeader_noSession (by decide)).append
        (optionalHeader_noSession (by decide)))
    exact NoSession.header (hfront.append hback)

end Carried
/-! ## The pipeline over time -/

/-- Where a call of `send_web` stands: before its next attempt, which comes no earlier than a tick,
in it, or done. -/
inductive WebPhase where
  | ready (tick : Nat)
  | sent
  | over
  deriving DecidableEq, Repr

/-- A call of `send_web`: its arguments, the session that it took, the tick at which it started and
the number of its next attempt. -/
structure WebCall where
  request : WebRequest
  session : Bytes
  started : Nat
  attempt : Nat
  phase : WebPhase

/-- The policy that the operation of the call selects. -/
def WebCall.policy (call : WebCall) : RequestPolicy := resolveRequestPolicy call.request.operation

/-- The pipeline, with the sessions that were signed and the requests that were built, each with
the trusted time at which it was. -/
structure SessionState where
  tick : Nat
  clock : ClockState
  ring : KeyRing := KeyRing.empty
  session : Option Bytes := none
  sessionExpiresAt : Int := 0
  webCalls : List WebCall := []
  signed : List Session := []
  built : List (HttpRequest × Int) := []

/-- What happens to a pipeline.  The attempts of `send` and the openers come one by one, with the
time that passes between them. -/
inductive SessionEvent where
  | progress (milliseconds : Nat)
  /-- A server time is accepted or not; the request for it was sent at `started`. -/
  | timed (serverTimeMs : Int) (started : Nat)
  | installed (key : ProtocolKey)
  /-- `verify_authz` on a response to a request with this nonce. -/
  | answered (nonce : Bytes) (response : ProtocolResponse)
  /-- `clear_session`. -/
  | cleared
  | sends (sender : Sender) (platform : WebPlatform)
  /-- `send_web` takes the session, up to its loop. -/
  | webStarts (request : WebRequest)
  | webAttempts (call : Nat) (platform : WebPlatform)
  /-- The attempt of a call ends, with a transient status or a network error if `again`. -/
  | webAnswered (call : Nat) (again : Bool)

namespace SessionState
variable (crypto : Crypto) (what : Bytes → Bytes) (options : Pipeline)

/-- `now_unix_seconds`. -/
def now (s : SessionState) : Int := s.clock.nowUnixSeconds s.tick

/-- The pipeline with these options in a state. -/
def pipeline (s : SessionState) : Pipeline :=
  { options with
    clockInitialized := s.clock.initialized
    now := s.now
    ring := s.ring
    session := s.session
    sessionExpiresAt := s.sessionExpiresAt }

/-- What a response to a request with this nonce is checked against. -/
def context (s : SessionState) (nonce : Bytes) : AuthzContext where
  appId := options.appId
  releaseId := options.releaseId
  deviceId := options.deviceId
  requestNonce := nonce
  now := s.now
  ring := s.ring

/-- A request is built. -/
def send (s : SessionState) (http : HttpRequest) : SessionState :=
  { s with built := (http, s.now) :: s.built }

/-- The request of the next attempt of a call, unless its deadline has passed or it cannot be
built. -/
def webBuilds (s : SessionState) (call : WebCall) (platform : WebPlatform) : Option HttpRequest :=
  if call.policy.PastDeadline call.started s.tick then none
  else (webAttempt crypto (s.pipeline options) platform call.request call.session).toOption

/-- A call after an attempt has ended. -/
def webNext (s : SessionState) (call : WebCall) (again : Bool) : WebCall :=
  let delay := call.policy.retryDelay call.attempt
  if again ∧ call.policy.CanWait call.started s.tick delay call.attempt then
    { call with attempt := call.attempt + 1, phase := .ready (s.tick + delay) }
  else { call with phase := .over }

/-- What an event leaves; none where it cannot happen. -/
def step (s : SessionState) : SessionEvent → Option SessionState
  | .progress milliseconds => some { s with tick := s.tick + milliseconds }
  | .timed serverTimeMs started =>
      if started ≤ s.tick then
        some { s with clock := (s.clock.setTime serverTimeMs started s.tick).1 }
      else none
  | .installed key => some { s with ring := (installKey s.ring key).1 }
  | .answered nonce response =>
      match verifiedCarrier crypto what (s.context options nonce) response with
      | .error _ => some s
      | .ok (_, authz) =>
          if authz.session = [] then some s
          else some { s with
            session := some authz.session
            sessionExpiresAt := authz.expiresAt
            signed := ⟨authz.session, authz.expiresAt⟩ :: s.signed }
  | .cleared => some { s with session := none, sessionExpiresAt := 0 }
  | .sends sender platform =>
      match sender.build crypto (s.pipeline options) platform with
      | .error _ => some s
      | .ok http => some (s.send http)
  | .webStarts request =>
      match webSession (s.pipeline options) request with
      | .error _ => some s
      | .ok session =>
          some { s with webCalls := s.webCalls ++ [⟨request, session, s.tick, 0, .ready s.tick⟩] }
  | .webAttempts i platform =>
      match s.webCalls[i]? with
      | none => none
      | some call =>
          match call.phase with
          | .ready tick =>
              if s.tick < tick then none
              else
                match s.webBuilds crypto options call platform with
                | none => some { s with webCalls := s.webCalls.set i { call with phase := .over } }
                | some http => some { s.send http with
                    webCalls := s.webCalls.set i { call with phase := .sent } }
          | _ => none
  | .webAnswered i again =>
      match s.webCalls[i]? with
      | none => none
      | some call =>
          if call.phase = .sent then
            some { s with webCalls := s.webCalls.set i (s.webNext call again) }
          else none

/-- The pipeline of a new client, at a tick of a process with some clock. -/
def start (tick : Nat) (clock : ClockState) : SessionState := { tick, clock }

/-- Every request that carries a session was built before the time at which that session expires,
as it was signed with it. -/
def WithinLifetime (s : SessionState) : Prop :=
  ∀ http builtAt, (http, builtAt) ∈ s.built → ∀ session,
    http.header "X-SWM-Session" = some session →
    ∃ expiresAt, ⟨session, expiresAt⟩ ∈ s.signed ∧ builtAt < expiresAt

/-- The event builds an attempt of `send_web` with the session of its call, although every time at
which that session was signed to expire has come. -/
def BuildsLate (s : SessionState) (event : SessionEvent) : Prop :=
  ∃ i platform call http, event = .webAttempts i platform ∧ s.webCalls[i]? = some call ∧
    s.webBuilds crypto options call platform = some http ∧ call.request.includeDpop = true ∧
    ∀ expiresAt, ⟨call.session, expiresAt⟩ ∈ s.signed → expiresAt ≤ s.now

/-- The session of the pipeline is one that was signed. -/
def Signed (s : SessionState) : Prop :=
  ∀ session, s.session = some session → ⟨session, s.sessionExpiresAt⟩ ∈ s.signed

variable {crypto what options} {s s' : SessionState}

theorem ensureSession_ok {session : Bytes} (h : ensureSession (s.pipeline options) = .ok session) :
    s.session = some session ∧ s.now < s.sessionExpiresAt := by
  unfold ensureSession Pipeline.ensureSession at h
  obtain ⟨-, h⟩ := guard_eq_ok.mp h
  split at h
  · rename_i taken htaken
    obtain ⟨hlive, h⟩ := guard_eq_ok.mp h
    obtain rfl := Except.ok.inj h
    exact ⟨htaken, Int.not_le.mp hlive⟩
  · cases h

/-- One more request keeps the lifetimes, if it is built in time itself. -/
theorem WithinLifetime.send (h : s.WithinLifetime) {http : HttpRequest}
    (hnew : ∀ session, http.header "X-SWM-Session" = some session →
      ∃ expiresAt, ⟨session, expiresAt⟩ ∈ s.signed ∧ s.now < expiresAt) :
    (s.send http).WithinLifetime := by
  intro other builtAt hother session hcarried
  rcases List.mem_cons.mp hother with heq | hold
  · obtain ⟨rfl, rfl⟩ := Prod.mk.inj heq
    exact hnew session hcarried
  · exact h other builtAt hold session hcarried

/-- The request of an attempt of a call carries the session of the call. -/
theorem webBuilds_session {call : WebCall} {platform : WebPlatform} {http : HttpRequest}
    (h : s.webBuilds crypto options call platform = some http) :
    http.header "X-SWM-Session" =
      if call.request.includeDpop then some call.session else none := by
  unfold webBuilds at h
  split at h
  · cases h
  · cases hattempt : webAttempt crypto (s.pipeline options) platform call.request
        call.session with
    | error e =>
      rw [hattempt] at h
      cases h
    | ok built =>
      rw [hattempt] at h
      obtain rfl := Option.some.inj h
      exact webAttempt_session hattempt

/-- **A step that builds no late attempt keeps the lifetimes.** -/
theorem step_within {event : SessionEvent} (hsigned : s.Signed) (hwithin : s.WithinLifetime)
    (hstep : s.step crypto what options event = some s')
    (hlate : ¬ s.BuildsLate crypto options event) : s'.Signed ∧ s'.WithinLifetime := by
  cases event with
  | progress milliseconds =>
    obtain rfl := Option.some.inj hstep
    exact ⟨hsigned, hwithin⟩
  | timed serverTimeMs started =>
    unfold step at hstep
    dsimp only at hstep
    split at hstep
    · obtain rfl := Option.some.inj hstep
      exact ⟨hsigned, hwithin⟩
    · cases hstep
  | installed key =>
    obtain rfl := Option.some.inj hstep
    exact ⟨hsigned, hwithin⟩
  | answered nonce response =>
    unfold step at hstep
    dsimp only at hstep
    split at hstep
    · obtain rfl := Option.some.inj hstep
      exact ⟨hsigned, hwithin⟩
    · split at hstep
      · obtain rfl := Option.some.inj hstep
        exact ⟨hsigned, hwithin⟩
      · obtain rfl := Option.some.inj hstep
        constructor
        · intro session hsession
          obtain rfl := Option.some.inj hsession
          exact List.mem_cons_self ..
        · intro http builtAt hbuilt session hcarried
          obtain ⟨expiresAt, hmem, hlt⟩ := hwithin http builtAt hbuilt session hcarried
          exact ⟨expiresAt, List.mem_cons_of_mem _ hmem, hlt⟩
  | cleared =>
    obtain rfl := Option.some.inj hstep
    refine ⟨fun session hsession => ?_, hwithin⟩
    cases hsession
  | sends sender platform =>
    unfold step at hstep
    dsimp only at hstep
    split at hstep
    · obtain rfl := Option.some.inj hstep
      exact ⟨hsigned, hwithin⟩
    · rename_i http hbuild
      obtain rfl := Option.some.inj hstep
      refine ⟨hsigned, hwithin.send fun session hcarried => ?_⟩
      obtain ⟨hsession, hlive⟩ := ensureSession_ok (Sender.build_session hbuild hcarried)
      exact ⟨s.sessionExpiresAt, hsigned session hsession, hlive⟩
  | webStarts request =>
    unfold step at hstep
    dsimp only at hstep
    split at hstep
    · obtain rfl := Option.some.inj hstep
      exact ⟨hsigned, hwithin⟩
    · obtain rfl := Option.some.inj hstep
      exact ⟨hsigned, hwithin⟩
  | webAttempts i platform =>
    unfold step at hstep
    dsimp only at hstep
    split at hstep
    · cases hstep
    · rename_i call hcall
      split at hstep
      · split at hstep
        · cases hstep
        · split at hstep
          · obtain rfl := Option.some.inj hstep
            exact ⟨hsigned, hwithin⟩
          · rename_i http hbuilds
            obtain rfl := Option.some.inj hstep
            refine ⟨hsigned, hwithin.send fun session hcarried => ?_⟩
            rw [webBuilds_session hbuilds] at hcarried
            split at hcarried
            · rename_i hdpop
              obtain rfl := Option.some.inj hcarried
              -- the attempt is not late, so some signed time lies ahead
              by_contra hnone
              refine hlate ⟨i, platform, call, http, rfl, hcall, hbuilds, hdpop, ?_⟩
              intro expiresAt hmem
              exact Int.not_lt.mp fun hlt => hnone ⟨expiresAt, hmem, hlt⟩
            · cases hcarried
      · cases hstep
  | webAnswered i again =>
    unfold step at hstep
    dsimp only at hstep
    split at hstep
    · cases hstep
    · split at hstep
      · obtain rfl := Option.some.inj hstep
        exact ⟨hsigned, hwithin⟩
      · cases hstep

/-- A late attempt leaves a request that outlived its session. -/
theorem BuildsLate.not_within {event : SessionEvent} (h : s.BuildsLate crypto options event)
    (hstep : s.step crypto what options event = some s') : ¬ s'.WithinLifetime := by
  obtain ⟨i, platform, call, http, rfl, hcall, hbuilds, hdpop, hexpired⟩ := h
  intro hwithin
  unfold step at hstep
  simp only [hcall, hbuilds] at hstep
  split at hstep
  · split at hstep
    · cases hstep
    · obtain rfl := Option.some.inj hstep
      have hcarried : http.header "X-SWM-Session" = some call.session := by
        rw [webBuilds_session hbuilds, if_pos hdpop]
      obtain ⟨expiresAt, hmem, hlt⟩ := hwithin http s.now (List.mem_cons_self ..) _ hcarried
      exact absurd hlt (Int.not_lt.mpr (hexpired expiresAt hmem))
  · cases hstep

end SessionState

open SessionState

/-- **When no request outlives its session**: in every state of a run, exactly when no step of the
run builds an attempt of `send_web` with a session that has expired. -/
theorem session_lifetime_iff (crypto : Crypto) (what : Bytes → Bytes) (options : Pipeline)
    (tick : Nat) (clock : ClockState) (events : List SessionEvent) :
    (∀ before s, before <+: events →
      Schedule.run (step crypto what options) (start tick clock) before = some s →
      s.WithinLifetime) ↔
    ∀ before event after s, events = before ++ event :: after →
      Schedule.run (step crypto what options) (start tick clock) before = some s →
      (s.step crypto what options event).isSome → ¬ s.BuildsLate crypto options event := by
  constructor
  · intro h before event after s hevents hrun hstep hlate
    obtain ⟨s', hs'⟩ := Option.isSome_iff_exists.mp hstep
    exact hlate.not_within hs' (Schedule.always_step h hevents hrun hs')
  · rintro h before s ⟨later, rfl⟩ hrun
    have hinvariant : s.Signed ∧ s.WithinLifetime := by
      refine Schedule.run_induction_split (P := fun s => s.Signed ∧ s.WithinLifetime) ?_ ?_ hrun
      · refine ⟨fun session hsession => ?_, fun http builtAt hbuilt => ?_⟩
        · cases hsession
        · cases hbuilt
      · rintro first event after t t' rfl hreached ⟨hsigned, hwithin⟩ hstep
        refine step_within hsigned hwithin hstep ?_
        exact h first event (after ++ later) t (by simp) hreached (by rw [hstep]; rfl)
    exact hinvariant.2

/-! A session that lasts two seconds, and a call whose first attempt fails after 1.6 s. -/

def sessionText : Bytes :=
  ascii "authz_v3\napp_id:app\nrelease_id:release\ndevice_id:device\nnonce:nonce\ndecision:allow" ++
    ascii "\nreason:\ndata_sha256:" ++ hex oneDigest ++
    ascii "\nsession:s1\nissued_at:1700000000\nexpires_at:1700000002\nkey_id:k1"

def sessionSignature : Bytes :=
  ascii "XTNoL-Ugr7AM5b6BQMRHtiyWRHlBN6SKnSka2MkxUjEzWEpLerZAf8jGNJgMDMq2x4p-jyxhfmei_rhPuY57Cw"

def sessionCrypto : Crypto :=
  listedCrypto [(ascii "1", oneDigest)] [(signedKey.publicKey, sessionText, sessionSignature)]

/-- A response that opens a session of two seconds. -/
def sessionResponse : ProtocolResponse where
  statusCode := 200
  body := ascii "\x7b\"data\":1,\"authz\":\x7b\"version\":\"authz_v3\",\"decision\":\"allow\"," ++
    ascii "\"release_id\":\"release\",\"device_id\":\"device\",\"nonce\":\"nonce\"," ++
    ascii "\"data_sha256\":\"" ++ hex oneDigest ++ ascii "\",\"key_id\":\"k1\"," ++
    ascii "\"session\":\"s1\",\"issued_at\":1700000000,\"expires_at\":1700000002," ++
    ascii "\"signature\":\"" ++ sessionSignature ++ ascii "\"\x7d\x7d"

def sessionOptions : Pipeline where
  baseUrl := ascii "https://api.example.com"
  appId := ascii "app"
  releaseId := ascii "release"
  version := ascii "1.0.0"
  versionCode := none
  channel := ascii "stable"
  deviceId := ascii "device"
  installId := ascii "install"
  deviceKeyId := ascii "kid"
  clockInitialized := false
  now := 0
  ring := KeyRing.empty
  session := none
  sessionExpiresAt := 0

def sampleWebPlatform : WebPlatform where
  wallSeconds := 1700000000
  nonce := ascii "nonce"
  jti := List.replicate 16 0
  signSha256 _ := List.replicate 64 0
  writable _ := true
  encryptRequestBody _ _ _ _ := .ok []
  randomHex := ascii "00"
  hmacSha256Hex _ _ := []

/-- `resolve_firmware_identity`. -/
def sampleWebRequest : WebRequest where
  method := ascii "POST"
  path := ascii "/api/v1/device-models/resolve"
  url := ascii "https://api.example.com/api/v1/device-models/resolve"
  body := ascii "\x7b\x7d"
  operation := .firmwareIdentity
  includeDpop := true
  debugCredentials := none
  watchToken := []
  requestId := []

/-- A request whose second attempt comes after the session has expired. -/
def sampleSessionEvents : List SessionEvent :=
  [.timed 1700000000000 0, .installed signedKey, .answered (ascii "nonce") sessionResponse,
    .webStarts sampleWebRequest, .webAttempts 0 sampleWebPlatform, .progress 1600,
    .webAnswered 0 true, .progress 500, .webAttempts 0 sampleWebPlatform]

/-- The second attempt carries the session at the second at which it expires. -/
theorem retried_session_expired :
    ¬ ∀ (crypto : Crypto) (what : Bytes → Bytes) (options : Pipeline) (tick : Nat)
      (clock : ClockState) (events : List SessionEvent) (s : SessionState),
      Schedule.run (step crypto what options) (start tick clock) events = some s →
      s.WithinLifetime := by
  intro h
  have hrun : (Schedule.run (step sessionCrypto id sessionOptions) (start 0 {})
      sampleSessionEvents).map (fun s => (s.signed, (s.built.map fun request =>
        (request.1.header "X-SWM-Session", request.2)).head?)) =
      some ([⟨ascii "s1", 1700000002⟩], some (some (ascii "s1"), 1700000002)) := by
    decide +kernel
  obtain ⟨s, hs, hview⟩ := Option.map_eq_some_iff.mp hrun
  obtain ⟨hsigned, hbuilt⟩ := Prod.mk.inj hview
  obtain ⟨⟨http, builtAt⟩, hmem, hlast⟩ := List.mem_map.mp (List.mem_of_mem_head? hbuilt)
  obtain ⟨hcarried, rfl⟩ := Prod.mk.inj hlast
  obtain ⟨expiresAt, hexpires, hlt⟩ := h _ _ _ _ _ _ s hs http _ hmem _ hcarried
  rw [hsigned, List.mem_singleton] at hexpires
  obtain rfl := (Session.mk.inj hexpires).2
  exact absurd hlt (by decide)

end Cpp
end SwmSdk
