import Mathlib.Logic.Function.Basic
import SwmSdk.ClientOptions
import SwmSdk.DebugWatchJava
import SwmSdk.JsonDump
import SwmSdk.Schedule
import SwmSdk.UpdateStream

/-! # The debug requests of C++

`create_debug_request` draws a session id, enrolls with it and creates a request under it; the
credentials, with the session id, are kept under the id that the server gives the request.
`cancel_debug_request` and `watch_debug_request` look them up; a cancellation that the server takes,
and a final decision on a watch, remove them.

Any number of threads create, cancel and watch at once.  A call looks at what is kept, or changes
it, in one step, and between two such steps it may be overtaken by any other.  In every such run the
application is told only decisions that the server signed for the stream they came on, on the
session that a request of this client was created with (`run_debugSafe`); and it is told all of
those that its watches read (`debugWatch_tells_iff`).
-/
namespace SwmSdk
namespace Cpp
open ByteText Outcome

/-! ## Creating a request -/

/-- `DebugRequestTicket`. -/
structure DebugRequestTicket where
  requestId : Bytes
  watchToken : Bytes
  expiresAt : Int
  deriving DecidableEq, Repr

/-- A call of `send_web` for the debug protocol. -/
structure DebugPost where
  path : Bytes
  body : Bytes
  includeDpop : Bool
  debugCredentials : Option Json
  watchToken : Bytes

/-- What a call of `create_debug_request` finds. -/
structure CreateTurn where
  /-- The ticket of `request_enrollment_ticket` for the audience `debug`. -/
  enrollment : Except Failure Bytes
  /-- `random_bytes(32)`. -/
  random : Except Failure Bytes
  appId : Bytes
  releaseId : Bytes
  version : Bytes
  deviceId : Bytes
  sendWeb : DebugPost → Except Failure ProtocolResponse
  now : Except Failure Int

section Create
variable (what : Bytes → Bytes)

/-- `json_body` of an object of texts, its members in the order of their names. -/
def jsonBody (fields : List (Bytes × Bytes)) : Except Failure Bytes :=
  jsonText (fun _ => []) (.object (fields.map fun field => (field.1, .string field.2)))

/-- What `json_get_string` and the like throw. -/
def thrown {α : Type} (x : Except Error α) : Except Failure α := x.mapError .swm

/-- `throw_if_error` and `parse_body`. -/
def successBody (response : ProtocolResponse) (context : String) : Except Failure Json := do
  thrown (throwIfError what response)
  thrown (parseJson what response.body (ascii context))

/-- A time that is no later than now, or later than 305 seconds from now. -/
def badExpiry (now expiresAt : Int) : Bool := expiresAt ≤ now || now + 5 * 60 + 5 < expiresAt

/-- `credentials`. -/
def credentialsOf (clientId clientSecret sessionId : Bytes) : Json := .object [
  (ascii "client_id", .string clientId), (ascii "client_secret", .string clientSecret),
  (ascii "session_id", .string sessionId)]

/-- The fields of the request for the enrollment. -/
def CreateTurn.enroll (turn : CreateTurn) (ticket sessionId : Bytes) : List (Bytes × Bytes) := [
  (ascii "app_id", turn.appId), (ascii "app_version", turn.version),
  (ascii "pcid", turn.deviceId), (ascii "release_id", turn.releaseId),
  (ascii "session_id", sessionId), (ascii "ticket", ticket)]

/-- The fields of the request for the creation. -/
def CreateTurn.create (turn : CreateTurn) (note sessionId : Bytes) : List (Bytes × Bytes) := [
  (ascii "app_version", turn.version), (ascii "note", note), (ascii "pcid", turn.deviceId),
  (ascii "session_id", sessionId)]

/-- The enrollment: the credentials that the server gives for the session, and the time. -/
def debugEnroll (turn : CreateTurn) (ticket sessionId : Bytes) : Except Failure (Json × Int) := do
  let body ← jsonBody (turn.enroll ticket sessionId)
  let response ← turn.sendWeb ⟨ascii "/api/v1/client/debug-enroll", body, false, none, []⟩
  let credentials ← successBody what response "debug enrollment response"
  let clientId ← thrown (jsonGetString credentials (ascii "client_id") true)
  let clientSecret ← thrown (jsonGetString credentials (ascii "client_secret") true)
  let expires ← thrown (jsonGetInt64 credentials (ascii "expires_at") 0)
  let now ← turn.now
  if clientId = [] ∨ clientSecret = [] ∨ badExpiry now expires then
    .error (.swm (protocolError (ascii "debug enrollment response is invalid")))
  else .ok (credentialsOf clientId clientSecret sessionId, now)

/-- A request that was created. -/
structure Creation where
  ticket : DebugRequestTicket
  credentials : Json
  /-- The fields that were sent. -/
  fields : List (Bytes × Bytes)

/-- The ticket in the response to the creation. -/
def readTicket (now : Int) (created : Json) : Except Failure DebugRequestTicket := do
  let requestId ← thrown (jsonGetString created (ascii "request_id") true)
  let watchToken ← thrown (jsonGetString created (ascii "watch_token") true)
  let expiresAt ← thrown (jsonGetInt64 created (ascii "expires_at") 0)
  if requestId = [] ∨ watchToken = [] ∨ badExpiry now expiresAt then
    .error (.swm (protocolError (ascii "debug create response is invalid")))
  else .ok ⟨requestId, watchToken, expiresAt⟩

/-- `create_debug_request`, up to the entry that it makes. -/
def createDebugRequest (turn : CreateTurn) (note : Bytes) : Except Failure Creation :=
  if note.length < 2 ∨ 200 < note.length then
    .error (.swm (configurationError "debug note must contain 2 to 200 characters"))
  else do
    let enrollment ← turn.enrollment
    let random ← turn.random
    let sessionId := Base64Url.encode random
    let (credentials, now) ← debugEnroll what turn enrollment sessionId
    let body ← jsonBody (turn.create note sessionId)
    let response ← turn.sendWeb
      ⟨ascii "/api/v1/client/debug-requests", body, true, some credentials, []⟩
    let created ← successBody what response "debug create response"
    let ticket ← readTicket now created
    .ok ⟨ticket, credentials, turn.create note sessionId⟩

end Create

/-! ## Watching a request -/

/-- `DebugDecisionEvent`. -/
structure DebugDecisionEvent where
  state : Bytes
  reason : Bytes
  authorizationExpiresAt : Int
  deriving DecidableEq, Repr

/-- The events of a stream, and what ends it: `none` where it closes. -/
def readEvents : Nat → SseReader → List ParsedSseEvent × Option Failure
  | 0, _ => ([], none)
  | fuel + 1, reader =>
      match nextSse (reader.size + 1) ⟨[], [], []⟩ reader with
      | .error e => ([], some e)
      | .ok (none, _) => ([], none)
      | .ok (some event, reader) =>
          let more := readEvents fuel reader
          (event :: more.1, more.2)

/-- They are the events that the update stream reads. -/
theorem sseEvents_eq (fuel : Nat) (reader : SseReader) : sseEvents fuel reader =
    ((readEvents fuel reader).1, (readEvents fuel reader).2.getD streamClosed) := by
  induction fuel generalizing reader with
  | zero => rfl
  | succ fuel ih =>
    rw [sseEvents, readEvents]
    cases nextSse (reader.size + 1) ⟨[], [], []⟩ reader with
    | error e => rfl
    | ok next =>
      obtain ⟨event, reader'⟩ := next
      cases event with
      | none => rfl
      | some event => simp only [ih]

/-- The error of a stream that cannot be opened or read on. -/
def networkError (message : String) : Error where
  kind := .network
  statusCode := 0
  serviceCode := []
  message := ascii message

/-- What `next_sse` or the loop throws after the last event. -/
def Connection.debugEnd (connection : Connection) : Failure :=
  (readEvents (connection.reader.size + 1) connection.reader).2.getD
    (.swm (networkError "debug stream closed"))

/-- The error of a stream that the service no longer lets this ticket read. -/
def debugExpired : Error where
  kind := .session
  statusCode := 401
  serviceCode := ascii "authz_session_expired"
  message := ascii "debug stream authorization expired"

/-- The error of a stream that is answered with another status. -/
def debugRejected (statusCode : Int) : Error where
  kind := .api
  statusCode := statusCode
  serviceCode := []
  message := ascii "debug stream was rejected"

/-- The states after which a request does not change. -/
def finalStates : List Bytes := [ascii "approved", ascii "rejected", ascii "cancelled"]

/-- The states that a decision may name. -/
def allowedStates : List Bytes := ascii "pending" :: finalStates

/-- The names of the messages with a decision. -/
def IsState (name : Bytes) : Prop :=
  name = ascii "debug-request-state" ∨ name = ascii "debug_request_state"

instance (name : Bytes) : Decidable (IsState name) := inferInstanceAs (Decidable (_ ∨ _))

/-- The event that `on_decision` gets. -/
def decisionEvent (status reason : Bytes) (expires : Int) : DebugDecisionEvent :=
  ⟨status, reason, if status = ascii "approved" then expires else 0⟩

/-- How far a watch is. -/
inductive WatchPhase where
  /-- `open_web_stream` has not returned. -/
  | opening
  /-- Before a turn of the loop. -/
  | listening
  /-- A final decision was told, and the entry is still there. -/
  | deciding
  | ended
  deriving DecidableEq, Repr

/-- A decision that the application was told: the place of its message on the stream, and the
data. -/
structure ToldDecision where
  index : Nat
  data : Json
  event : DebugDecisionEvent

/-- A watch, with what it captured at its start and what it did so far. -/
structure Watch where
  ticket : DebugRequestTicket
  credentials : Json
  onDecision : Option (DebugDecisionEvent → Except Failure Unit)
  onError : Bool
  phase : WatchPhase := .opening
  connection : Option Connection := none
  expectedHash : Bytes := []
  /-- The messages that the loop has handled. -/
  handled : Nat := 0
  told : List ToldDecision := []
  errors : List Error := []

section Watching
variable (crypto : Crypto) (what : Bytes → Bytes)

/-- The decision in verified data. -/
def readDecision (requestId expectedHash : Bytes) (data : Json) :
    Except Error DebugDecisionEvent := do
  let version ← jsonGetString data (ascii "version") true
  let request ← jsonGetString data (ascii "request_id") true
  let sessionHash ← jsonGetString data (ascii "session_id_hash") true
  let state ← jsonGetString data (ascii "status") true
  let reason ← jsonGetString data (ascii "reason") false
  let expires ← jsonGetInt64 data (ascii "expires_at") 0
  if version ≠ ascii "debug_decision_v1" ∨ request ≠ requestId ∨
      lower sessionHash ≠ expectedHash ∨ ¬ allowedStates.contains state ∨ expires ≤ 0 then
    .error (protocolError (ascii "debug decision payload is invalid"))
  else .ok (decisionEvent state reason expires)

namespace Watch

/-- What a message is: nothing to the watch, or verified data and its decision. -/
def onMessage (watch : Watch) (connection : Connection) (session : Session)
    (message : ParsedSseEvent) : Except Error (Option (Json × DebugDecisionEvent)) × Session :=
  if message.name = ascii "authz_expired" ∨ message.name = ascii "authz-expired" then
    (.error debugExpired, session)
  else if ¬ IsState message.name then (.ok none, session)
  else
    match verifyMessage crypto what connection watch.handled session message.data with
    | (.error e, session) => (.error e, session)
    | (.ok data, session) =>
        ((readDecision watch.ticket.requestId watch.expectedHash data).map fun decision =>
          some (data, decision), session)

/-- An exception leaves the watch; only one of the SDK is reported. -/
def fail (watch : Watch) : Failure → Watch
  | .swm error =>
      { watch with
        phase := .ended, errors := if watch.onError then watch.errors ++ [error] else watch.errors }
  | .other _ => { watch with phase := .ended }

/-- The end of a turn that read a decision. -/
def tell (watch : Watch) (data : Json) (event : DebugDecisionEvent) : Watch :=
  let handled := { watch with
    handled := watch.handled + 1
    phase := if finalStates.contains event.state then .deciding else .listening }
  match watch.onDecision with
  | none => handled
  | some onDecision =>
      let told := { handled with told := watch.told ++ [⟨watch.handled, data, event⟩] }
      match onDecision event with
      | .error e => told.fail e
      | .ok () => told

/-- The stream was opened, or not. -/
def openWith (watch : Watch) (opened : Except Failure Connection) : Watch :=
  match opened with
  | .error e => watch.fail e
  | .ok connection =>
      if connection.statusCode < 200 ∨ 300 ≤ connection.statusCode then
        watch.fail (.swm (debugRejected connection.statusCode))
      else
        match jsonGetString watch.credentials (ascii "session_id") true with
        | .error e => watch.fail (.swm e)
        | .ok sessionId =>
            { watch with
              phase := .listening
              connection := some connection
              expectedHash := crypto.sha256Hex sessionId }

/-- A turn of the loop. -/
def read (watch : Watch) (session : Session) : Option (Watch × Session) := do
  guard (watch.phase = .listening)
  let connection ← watch.connection
  if connection.stops watch.handled then some ({ watch with phase := .ended }, session)
  else
    match connection.events.1[watch.handled]? with
    | none => some (watch.fail connection.debugEnd, session)
    | some message =>
        match watch.onMessage crypto what connection session message with
        | (.error e, session) =>
            some ({ watch with handled := watch.handled + 1 }.fail (.swm e), session)
        | (.ok none, session) => some ({ watch with handled := watch.handled + 1 }, session)
        | (.ok (some (data, event)), session) => some (watch.tell data event, session)

end Watch
end Watching

/-! ## All the threads -/

/-- A request that was created, and the call that created it. -/
structure CreatedRequest where
  turn : CreateTurn
  note : Bytes
  creation : Creation

/-- A call of `cancel_debug_request` that found the credentials. -/
structure Cancellation where
  ticket : DebugRequestTicket
  credentials : Json
  running : Bool := true

/-- The request that a cancellation sends. -/
def Cancellation.post (cancellation : Cancellation) : DebugPost where
  path := ascii "/api/v1/client/debug-requests/" ++ cancellation.ticket.requestId ++
    ascii "/cancel"
  body := []
  includeDpop := true
  debugCredentials := some cancellation.credentials
  watchToken := cancellation.ticket.watchToken

/-- What the threads share, `debug_credentials` and the session, and the calls so far. -/
structure DebugState where
  debugCredentials : Bytes → Option Json := fun _ => none
  session : Session := ⟨[], 0⟩
  created : List CreatedRequest := []
  cancellations : List Cancellation := []
  watches : List Watch := []

/-- One step of some thread. -/
inductive DebugEvent where
  /-- The end of `create_debug_request`. -/
  | created (turn : CreateTurn) (note : Bytes)
  /-- The first look of `cancel_debug_request`. -/
  | cancelling (ticket : DebugRequestTicket)
  /-- The end of `cancel_debug_request`. -/
  | cancelled (call : Nat) (sendWeb : DebugPost → Except Failure ProtocolResponse)
  /-- `watch_debug_request`, up to the start of its worker. -/
  | watching (ticket : DebugRequestTicket)
      (onDecision : Option (DebugDecisionEvent → Except Failure Unit)) (onError : Bool)
  /-- `open_web_stream` of a worker. -/
  | opened (watch : Nat) (opened : Except Failure Connection)
  /-- A turn of the loop of a worker. -/
  | read (watch : Nat)
  /-- A worker removes the entry after a final decision. -/
  | decided (watch : Nat)
  /-- Another call of the client takes over a session. -/
  | authorized (session : Session)

namespace DebugState
variable (crypto : Crypto) (what : Bytes → Bytes)

/-- The entry under an id is set or removed. -/
def keep (s : DebugState) (requestId : Bytes) (credentials : Option Json) : DebugState :=
  { s with debugCredentials := Function.update s.debugCredentials requestId credentials }

@[simp] theorem keep_self (s : DebugState) (requestId : Bytes) (credentials : Option Json) :
    (s.keep requestId credentials).debugCredentials requestId = credentials :=
  Function.update_self ..

theorem keep_other (s : DebugState) {requestId other : Bytes} (h : other ≠ requestId)
    (credentials : Option Json) :
    (s.keep requestId credentials).debugCredentials other = s.debugCredentials other :=
  Function.update_of_ne h ..

/-- The end of `create_debug_request`. -/
def create (s : DebugState) (turn : CreateTurn) (note : Bytes) (creation : Creation) :
    DebugState :=
  { s.keep creation.ticket.requestId (some creation.credentials) with
    created := ⟨turn, note, creation⟩ :: s.created }

/-- A cancellation that is over. -/
def endCancel (s : DebugState) (call : Nat) (cancellation : Cancellation) : DebugState :=
  { s with cancellations := s.cancellations.set call { cancellation with running := false } }

/-- The end of `cancel_debug_request`. -/
def cancel (s : DebugState) (call : Nat) (cancellation : Cancellation)
    (answer : Except Failure ProtocolResponse) : DebugState :=
  match answer.bind fun response => thrown (throwIfError what response) with
  | .error _ => s.endCancel call cancellation
  | .ok () => (s.endCancel call cancellation).keep cancellation.ticket.requestId none

/-- The worker of a watch has made a step. -/
def setWatch (s : DebugState) (index : Nat) (watch : Watch) : DebugState :=
  { s with watches := s.watches.set index watch }

/-- One step, where it is possible. -/
def step (s : DebugState) : DebugEvent → Option DebugState
  | .created turn note =>
      match createDebugRequest what turn note with
      | .error _ => some s
      | .ok creation => some (s.create turn note creation)
  | .cancelling ticket =>
      (s.debugCredentials ticket.requestId).map fun credentials =>
        { s with cancellations := s.cancellations ++ [⟨ticket, credentials, true⟩] }
  | .cancelled call sendWeb => do
      let cancellation ← s.cancellations[call]?
      guard cancellation.running
      some (s.cancel what call cancellation (sendWeb cancellation.post))
  | .watching ticket onDecision onError =>
      (s.debugCredentials ticket.requestId).map fun credentials =>
        { s with
          watches := s.watches ++ [⟨ticket, credentials, onDecision, onError, .opening, none, [], 0,
            [], []⟩] }
  | .opened index opened => do
      let watch ← s.watches[index]?
      guard (watch.phase = .opening)
      some (s.setWatch index (watch.openWith crypto opened))
  | .read index => do
      let watch ← s.watches[index]?
      let (watch, session) ← watch.read crypto what s.session
      some { s.setWatch index watch with session }
  | .decided index => do
      let watch ← s.watches[index]?
      guard (watch.phase = .deciding)
      some ((s.setWatch index { watch with phase := .ended }).keep watch.ticket.requestId none)
  | .authorized session => some { s with session }

end DebugState

/-! ## What a creation leaves -/

/-- The session id that was sent with the creation. -/
def CreatedRequest.sessionId (c : CreatedRequest) : Bytes :=
  (c.creation.fields.lookup (ascii "session_id")).getD []

section Create
variable {what : Bytes → Bytes}

theorem thrown_eq_ok {α : Type} {x : Except Error α} {a : α} : thrown x = .ok a ↔ x = .ok a := by
  cases x with
  | error e => exact ⟨fun h => (nomatch h), fun h => (nomatch h)⟩
  | ok b => exact ⟨fun h => congrArg _ (Except.ok.inj h), fun h => congrArg _ (Except.ok.inj h)⟩

theorem debugEnroll_ok {turn : CreateTurn} {ticket sessionId : Bytes} {credentials : Json}
    {now : Int} (h : debugEnroll what turn ticket sessionId = .ok (credentials, now)) :
    ∃ clientId clientSecret, credentials = credentialsOf clientId clientSecret sessionId := by
  unfold debugEnroll at h
  obtain ⟨body, -, h⟩ := bind_eq_ok.mp h
  obtain ⟨response, -, h⟩ := bind_eq_ok.mp h
  obtain ⟨answer, -, h⟩ := bind_eq_ok.mp h
  obtain ⟨clientId, -, h⟩ := bind_eq_ok.mp h
  obtain ⟨clientSecret, -, h⟩ := bind_eq_ok.mp h
  obtain ⟨expires, -, h⟩ := bind_eq_ok.mp h
  obtain ⟨now', -, h⟩ := bind_eq_ok.mp h
  obtain ⟨-, h⟩ := guard_eq_ok.mp h
  exact ⟨clientId, clientSecret, (Prod.mk.inj (Except.ok.inj h)).1.symm⟩

/-- **A creation keeps the session id that it sends.** -/
theorem createDebugRequest_ok {turn : CreateTurn} {note : Bytes} {creation : Creation}
    (h : createDebugRequest what turn note = .ok creation) :
    ∃ random clientId clientSecret, turn.random = .ok random ∧
      creation.fields = turn.create note (Base64Url.encode random) ∧
      creation.credentials = credentialsOf clientId clientSecret (Base64Url.encode random) := by
  unfold createDebugRequest at h
  obtain ⟨-, h⟩ := guard_eq_ok.mp h
  obtain ⟨enrollment, -, h⟩ := bind_eq_ok.mp h
  obtain ⟨random, hrandom, h⟩ := bind_eq_ok.mp h
  obtain ⟨⟨credentials, now⟩, henroll, h⟩ := bind_eq_ok.mp h
  obtain ⟨body, -, h⟩ := bind_eq_ok.mp h
  obtain ⟨response, -, h⟩ := bind_eq_ok.mp h
  obtain ⟨created, -, h⟩ := bind_eq_ok.mp h
  obtain ⟨ticket, -, h⟩ := bind_eq_ok.mp h
  obtain ⟨clientId, clientSecret, rfl⟩ := debugEnroll_ok henroll
  obtain rfl := Except.ok.inj h
  exact ⟨random, clientId, clientSecret, hrandom, rfl, rfl⟩

theorem CreatedRequest.credentials_sessionId {c : CreatedRequest}
    (h : createDebugRequest what c.turn c.note = .ok c.creation) :
    jsonGetString c.creation.credentials (ascii "session_id") true = .ok c.sessionId := by
  obtain ⟨random, clientId, clientSecret, -, hfields, hcredentials⟩ := createDebugRequest_ok h
  rw [CreatedRequest.sessionId, hfields, hcredentials]
  rfl

end Create

/-! ## What a turn of a watch can do -/

section Watching
variable {crypto : Crypto} {what : Bytes → Bytes}

/-- Verified data announces this status of a request, to the session with this id. -/
structure AnnouncesTo (crypto : Crypto) (requestId sessionId : Bytes) (data : Json)
    (status : Bytes) (expires : Int) : Prop where
  version : jsonGetString data (ascii "version") true = .ok (ascii "debug_decision_v1")
  request : jsonGetString data (ascii "request_id") true = .ok requestId
  session : ∃ hash, jsonGetString data (ascii "session_id_hash") true = .ok hash ∧
    lower hash = crypto.sha256Hex sessionId
  stated : jsonGetString data (ascii "status") true = .ok status
  allowed : allowedStates.contains status = true
  dated : jsonGetInt64 data (ascii "expires_at") 0 = .ok expires
  positive : 0 < expires

theorem readDecision_iff {requestId sessionId : Bytes} {data : Json} {event : DebugDecisionEvent} :
    readDecision requestId (crypto.sha256Hex sessionId) data = .ok event ↔
      ∃ status expires reason, AnnouncesTo crypto requestId sessionId data status expires ∧
        jsonGetString data (ascii "reason") false = .ok reason ∧
        event = decisionEvent status reason expires := by
  unfold readDecision
  constructor
  · intro h
    obtain ⟨version, hversion, h⟩ := bind_eq_ok.mp h
    obtain ⟨request, hrequest, h⟩ := bind_eq_ok.mp h
    obtain ⟨hash, hhash, h⟩ := bind_eq_ok.mp h
    obtain ⟨status, hstatus, h⟩ := bind_eq_ok.mp h
    obtain ⟨reason, hreason, h⟩ := bind_eq_ok.mp h
    obtain ⟨expires, hexpires, h⟩ := bind_eq_ok.mp h
    obtain ⟨hvalid, hevent⟩ := guard_eq_ok.mp h
    simp only [not_or, not_not, ne_eq, Int.not_le] at hvalid
    obtain ⟨rfl, rfl, hmatch, hallowed, hpositive⟩ := hvalid
    exact ⟨status, expires, reason, ⟨hversion, hrequest, ⟨hash, hhash, hmatch⟩, hstatus, hallowed,
      hexpires, hpositive⟩, hreason, (Except.ok.inj hevent).symm⟩
  · rintro ⟨status, expires, reason, h, hreason, rfl⟩
    obtain ⟨hash, hhash, hmatch⟩ := h.session
    refine bind_eq_ok.mpr ⟨_, h.version, bind_eq_ok.mpr ⟨_, h.request, bind_eq_ok.mpr ⟨_, hhash,
      bind_eq_ok.mpr ⟨_, h.stated, bind_eq_ok.mpr ⟨_, hreason, bind_eq_ok.mpr ⟨_, h.dated,
      guard_eq_ok.mpr ⟨?_, rfl⟩⟩⟩⟩⟩⟩⟩
    simp only [not_or, not_not, ne_eq, Int.not_le]
    exact ⟨trivial, trivial, hmatch, h.allowed, h.positive⟩

/-- The session has no part in what a payload is verified to. -/
theorem Verifies.unique {connection : Connection} {index : Nat} {message : ParsedSseEvent}
    {data data' : Json} (h : Verifies crypto what connection index message data)
    (h' : Verifies crypto what connection index message data') : data = data' :=
  Except.ok.inj ((h ⟨[], 0⟩).symm.trans (h' ⟨[], 0⟩))

/-- A message of a connection tells a decision to a watch. -/
def Decides (crypto : Crypto) (what : Bytes → Bytes) (requestId expectedHash : Bytes)
    (connection : Connection) (d : ToldDecision) : Prop :=
  ∃ message, connection.events.1[d.index]? = some message ∧ IsState message.name ∧
    Verifies crypto what connection d.index message d.data ∧
    readDecision requestId expectedHash d.data = .ok d.event

theorem Decides.unique {requestId expectedHash : Bytes} {connection : Connection}
    {d d' : ToldDecision} (h : Decides crypto what requestId expectedHash connection d)
    (h' : Decides crypto what requestId expectedHash connection d') (hindex : d.index = d'.index) :
    d = d' := by
  obtain ⟨index, data, event⟩ := d
  obtain ⟨index', data', event'⟩ := d'
  obtain rfl : index = index' := hindex
  obtain ⟨message, hmessage, -, hverifies, hread⟩ := h
  obtain ⟨message', hmessage', -, hverifies', hread'⟩ := h'
  obtain rfl := Option.some.inj (hmessage.symm.trans hmessage')
  obtain rfl := hverifies.unique hverifies'
  obtain rfl := Except.ok.inj (hread.symm.trans hread')
  rfl

/-- The loop goes on after the message at a place. -/
def Watch.GoesOn (crypto : Crypto) (what : Bytes → Bytes) (watch : Watch) (expectedHash : Bytes)
    (connection : Connection) (index : Nat) (message : ParsedSseEvent) : Prop :=
  (¬ IsState message.name ∧ message.name ≠ ascii "authz_expired" ∧
    message.name ≠ ascii "authz-expired") ∨
  ∃ d : ToldDecision, d.index = index ∧
    Decides crypto what watch.ticket.requestId expectedHash connection d ∧
    finalStates.contains d.event.state = false ∧
    ∀ onDecision ∈ watch.onDecision, onDecision d.event = .ok ()

namespace Watch
variable {watch w : Watch} {session t : Session} {connection : Connection}

/-- What a watch captured. -/
structure Same (watch w : Watch) : Prop where
  ticket : w.ticket = watch.ticket
  credentials : w.credentials = watch.credentials
  onDecision : w.onDecision = watch.onDecision

theorem Same.refl (watch : Watch) : watch.Same watch := ⟨rfl, rfl, rfl⟩

theorem fail_eq (watch : Watch) (e : Failure) : watch.Same (watch.fail e) ∧
    (watch.fail e).phase = .ended ∧ (watch.fail e).connection = watch.connection ∧
    (watch.fail e).expectedHash = watch.expectedHash ∧
    (watch.fail e).handled = watch.handled ∧ (watch.fail e).told = watch.told := by
  cases e <;> exact ⟨⟨rfl, rfl, rfl⟩, rfl, rfl, rfl, rfl, rfl⟩

/-- What `on_decision` is told by a turn that read a decision. -/
def toldWith (watch : Watch) (d : ToldDecision) : List ToldDecision :=
  if watch.onDecision.isSome then watch.told ++ [d] else watch.told

theorem tell_eq (watch : Watch) (data : Json) (event : DebugDecisionEvent) :
    watch.Same (watch.tell data event) ∧
    (watch.tell data event).connection = watch.connection ∧
    (watch.tell data event).expectedHash = watch.expectedHash ∧
    (watch.tell data event).handled = watch.handled + 1 ∧
    (watch.tell data event).told = watch.toldWith ⟨watch.handled, data, event⟩ ∧
    (watch.tell data event).phase ≠ .opening ∧
    ((watch.tell data event).phase = .listening ↔ finalStates.contains event.state = false ∧
      ∀ onDecision ∈ watch.onDecision, onDecision event = .ok ()) := by
  have hphase : ∀ b : Bool, (if b then WatchPhase.deciding else .listening) ≠ .opening ∧
      ((if b then WatchPhase.deciding else .listening) = .listening ↔ b = false) := by decide
  unfold tell
  dsimp only
  split
  · rename_i hnone
    rw [toldWith, hnone]
    refine ⟨⟨rfl, rfl, hnone.symm⟩, rfl, rfl, rfl, rfl, (hphase _).1, (hphase _).2.trans ?_⟩
    exact ⟨fun h => ⟨h, fun _ hf => (nomatch hf)⟩, And.left⟩
  · rename_i onDecision hsome
    rw [toldWith, hsome]
    split
    · rename_i e herror
      obtain ⟨hsame, hended, hconnection, hhash, hhandled, htold⟩ := fail_eq { watch with
        handled := watch.handled + 1
        phase := if finalStates.contains event.state then .deciding else .listening
        told := watch.told ++ [⟨watch.handled, data, event⟩] } e
      rw [hsome] at hsame hended hconnection hhash hhandled htold
      refine ⟨⟨hsame.ticket, hsame.credentials, hsame.onDecision.trans hsome.symm⟩, hconnection,
        hhash, hhandled, htold, ?_, ?_⟩ <;> rw [hended]
      · decide
      · refine ⟨fun h => (nomatch h), fun h => ?_⟩
        have hok := h.2 onDecision rfl
        rw [herror] at hok
        cases hok
    · rename_i hok
      refine ⟨⟨rfl, rfl, hsome.symm⟩, rfl, rfl, rfl, rfl, (hphase _).1, (hphase _).2.trans ?_⟩
      refine ⟨fun h => ⟨h, fun f hf => ?_⟩, And.left⟩
      obtain rfl := Option.some.inj hf
      exact hok

theorem onMessage_iff {message : ParsedSseEvent} {data : Json} {event : DebugDecisionEvent} :
    (watch.onMessage crypto what connection session message).1 = .ok (some (data, event)) ↔
      IsState message.name ∧ Verifies crypto what connection watch.handled message data ∧
      readDecision watch.ticket.requestId watch.expectedHash data = .ok event := by
  unfold onMessage
  split
  · rename_i hexpired
    refine ⟨fun h => (nomatch h), fun ⟨hstate, _⟩ => ?_⟩
    rcases hexpired with hname | hname <;> rw [hname] at hstate <;> exact absurd hstate (by decide)
  split
  · rename_i hstate
    exact ⟨fun h => (nomatch Except.ok.inj h), fun h => absurd h.1 hstate⟩
  rename_i hstate
  rw [not_not] at hstate
  constructor
  · intro h
    split at h
    · cases h
    · rename_i data' session' hverify
      obtain ⟨event', hread, hpair⟩ := map_eq_ok.mp h
      obtain ⟨rfl, rfl⟩ := Prod.mk.inj (Option.some.inj hpair)
      exact ⟨hstate, verifies_of_ok (by rw [hverify]), hread⟩
  · rintro ⟨-, hverifies, hread⟩
    have hone := hverifies session
    split
    · rename_i hverify
      rw [hverify] at hone
      cases hone
    · rename_i hverify
      rw [hverify] at hone
      obtain rfl := Except.ok.inj hone
      exact map_eq_ok.mpr ⟨event, hread, rfl⟩

theorem onMessage_none {message : ParsedSseEvent}
    (h : (watch.onMessage crypto what connection session message).1 = .ok none) :
    ¬ IsState message.name ∧ message.name ≠ ascii "authz_expired" ∧
      message.name ≠ ascii "authz-expired" := by
  unfold onMessage at h
  split at h
  · cases h
  rename_i hexpired
  split at h
  · rename_i hstate
    exact ⟨hstate, not_or.mp hexpired⟩
  · split at h
    · cases h
    · obtain ⟨event, -, hnone⟩ := map_eq_ok.mp h
      cases hnone

theorem onMessage_error {message : ParsedSseEvent} {e : Error}
    (h : (watch.onMessage crypto what connection session message).1 = .error e) :
    IsState message.name ∨ message.name = ascii "authz_expired" ∨
      message.name = ascii "authz-expired" := by
  unfold onMessage at h
  split at h
  · rename_i hexpired
    exact .inr hexpired
  split at h
  · cases h
  · rename_i hstate
    exact .inl (not_not.mp hstate)

/-- What a turn does to what was told: there was nothing to handle, or the message is handled, and
told if it tells a decision. -/
inductive Turned (crypto : Crypto) (what : Bytes → Bytes) (connection : Connection)
    (watch w : Watch) : Prop where
  | left (handled : w.handled = watch.handled) (told : w.told = watch.told)
      (phase : w.phase = .ended)
      (finished : connection.stops watch.handled = true ∨
        connection.events.1[watch.handled]? = none)
  | quiet (message : ParsedSseEvent)
      (reached : connection.stops watch.handled = false ∧
        connection.events.1[watch.handled]? = some message)
      (handled : w.handled = watch.handled + 1) (told : w.told = watch.told)
      (silent : ∀ d, d.index = watch.handled →
        ¬ Decides crypto what watch.ticket.requestId watch.expectedHash connection d)
  | tells (message : ParsedSseEvent)
      (reached : connection.stops watch.handled = false ∧
        connection.events.1[watch.handled]? = some message)
      (d : ToldDecision) (index : d.index = watch.handled)
      (handled : w.handled = watch.handled + 1) (told : w.told = watch.toldWith d)
      (tells : Decides crypto what watch.ticket.requestId watch.expectedHash connection d)
      (final : finalStates.contains d.event.state = true → w.phase ≠ .listening)

/-- Whether the loop goes on after a turn. -/
structure GoneOn (crypto : Crypto) (what : Bytes → Bytes) (connection : Connection)
    (watch w : Watch) : Prop where
  started : w.phase ≠ .opening
  goesOn : connection.stops watch.handled = false →
    ∀ message, connection.events.1[watch.handled]? = some message →
      (w.phase = .listening ↔
        watch.GoesOn crypto what watch.expectedHash connection watch.handled message)

/-- **What a turn can do.** -/
theorem read_cases (h : watch.read crypto what session = some (w, t)) :
    watch.phase = .listening ∧ watch.Same w ∧ w.connection = watch.connection ∧
      w.expectedHash = watch.expectedHash ∧
      ∃ connection, watch.connection = some connection ∧
        Turned crypto what connection watch w ∧ GoneOn crypto what connection watch w := by
  unfold read at h
  obtain ⟨⟨⟩, hphase, h⟩ := Option.bind_eq_some_iff.mp h
  have hlistening : watch.phase = .listening := by simpa [guard] using hphase
  obtain ⟨connection, hconnection, h⟩ := Option.bind_eq_some_iff.mp h
  split at h
  · rename_i hstop
    obtain ⟨rfl, rfl⟩ := Prod.mk.inj (Option.some.inj h)
    refine ⟨hlistening, ⟨rfl, rfl, rfl⟩, rfl, rfl, connection, hconnection,
      .left rfl rfl rfl (.inl hstop), fun h => (nomatch h), fun hgo => ?_⟩
    rw [hstop] at hgo
    cases hgo
  rename_i hstop
  have hstop : connection.stops watch.handled = false := by simpa using hstop
  split at h
  · rename_i hnone
    obtain ⟨rfl, rfl⟩ := Prod.mk.inj (Option.some.inj h)
    obtain ⟨hsame, hended, hconn, hhash, hhandled, htold⟩ := watch.fail_eq connection.debugEnd
    refine ⟨hlistening, hsame, hconn, hhash, connection, hconnection,
      .left hhandled htold hended (.inr hnone), by rw [hended]; decide,
      fun _ message hmessage => ?_⟩
    rw [hnone] at hmessage
    cases hmessage
  rename_i message hmessage
  -- a message that is not told tells nothing
  have hsilent : (∀ data event, (watch.onMessage crypto what connection session message).1 ≠
      .ok (some (data, event))) → ∀ d : ToldDecision, d.index = watch.handled →
        ¬ Decides crypto what watch.ticket.requestId watch.expectedHash connection d := by
    rintro hnone d hindex ⟨message', hmessage', hstate, hverifies, hread⟩
    rw [hindex] at hmessage' hverifies
    obtain rfl := Option.some.inj (hmessage.symm.trans hmessage')
    exact hnone _ _ (onMessage_iff.mpr ⟨hstate, hverifies, hread⟩)
  split at h
  · rename_i e session' hon
    obtain ⟨rfl, rfl⟩ := Prod.mk.inj (Option.some.inj h)
    obtain ⟨hsame, hended, hconn, hhash, hhandled, htold⟩ :=
      fail_eq { watch with handled := watch.handled + 1 } (.swm e)
    have hquiet := hsilent fun data event h => by rw [hon] at h; cases h
    refine ⟨hlistening, ⟨hsame.ticket, hsame.credentials, hsame.onDecision⟩, hconn, hhash,
      connection, hconnection, .quiet message ⟨hstop, hmessage⟩ hhandled htold hquiet,
      by rw [hended]; decide, fun _ message' hmessage' => ?_⟩
    obtain rfl := Option.some.inj (hmessage.symm.trans hmessage')
    rw [hended]
    refine ⟨fun h => (nomatch h), ?_⟩
    rintro (⟨hstate, hnames⟩ | ⟨d, hindex, htells, -⟩)
    · exact absurd (onMessage_error (congrArg Prod.fst hon))
        (not_or.mpr ⟨hstate, not_or.mpr hnames⟩)
    · exact absurd htells (hquiet d hindex)
  · rename_i session' hon
    obtain ⟨rfl, rfl⟩ := Prod.mk.inj (Option.some.inj h)
    have hquiet := hsilent fun data event h => by rw [hon] at h; cases Except.ok.inj h
    refine ⟨hlistening, ⟨rfl, rfl, rfl⟩, rfl, rfl, connection, hconnection,
      .quiet message ⟨hstop, hmessage⟩ rfl rfl hquiet, by rw [hlistening]; decide,
      fun _ message' hmessage' => ?_⟩
    obtain rfl := Option.some.inj (hmessage.symm.trans hmessage')
    exact ⟨fun _ => .inl (onMessage_none (congrArg Prod.fst hon)), fun _ => hlistening⟩
  · rename_i data event session' hon
    obtain ⟨rfl, rfl⟩ := Prod.mk.inj (Option.some.inj h)
    obtain ⟨hsame, hconn, hhash, hhandled, htold, hphase, hgoes⟩ := watch.tell_eq data event
    obtain ⟨hstate, hverifies, hread⟩ := onMessage_iff.mp (congrArg Prod.fst hon)
    have htells : Decides crypto what watch.ticket.requestId watch.expectedHash connection
        ⟨watch.handled, data, event⟩ := ⟨message, hmessage, hstate, hverifies, hread⟩
    refine ⟨hlistening, hsame, hconn, hhash, connection, hconnection,
      .tells message ⟨hstop, hmessage⟩ ⟨watch.handled, data, event⟩ rfl hhandled htold htells
        fun hfinal hon => ?_, hphase, fun _ message' hmessage' => ?_⟩
    · rw [(hgoes.mp hon).1] at hfinal
      cases hfinal
    · obtain rfl := Option.some.inj (hmessage.symm.trans hmessage')
      refine ⟨fun hon => .inr ⟨_, rfl, htells, hgoes.mp hon⟩, ?_⟩
      rintro (⟨hother, -⟩ | ⟨d, hindex, hother, hgo⟩)
      · exact absurd hstate hother
      · rw [hother.unique htells hindex] at hgo
        exact hgoes.mpr hgo

end Watch
end Watching

/-! ## What every run keeps -/

section Invariant
variable {crypto : Crypto} {what : Bytes → Bytes} {c : CreatedRequest}

namespace Watch
variable {watch w : Watch} {session t : Session}

/-- There is nothing more to handle, or the last message that was handled ended the loop. -/
def Over (crypto : Crypto) (what : Bytes → Bytes) (watch : Watch) (expectedHash : Bytes)
    (connection : Connection) : Prop :=
  (connection.stops watch.handled = true ∨ connection.events.1[watch.handled]? = none) ∨
  ∃ i message, i + 1 = watch.handled ∧ connection.events.1[i]? = some message ∧
    ¬ watch.GoesOn crypto what expectedHash connection i message

theorem Same.goesOn (h : watch.Same w) {expectedHash : Bytes} {connection : Connection} {i : Nat}
    {message : ParsedSseEvent} : w.GoesOn crypto what expectedHash connection i message ↔
      watch.GoesOn crypto what expectedHash connection i message := by
  unfold GoesOn
  rw [h.ticket, h.onDecision]

theorem Same.finished (h : watch.Same w) (hhandled : w.handled = watch.handled)
    {expectedHash : Bytes} {connection : Connection} : w.Over crypto what expectedHash connection ↔
      watch.Over crypto what expectedHash connection := by
  unfold Over
  simp only [hhandled, h.goesOn]

/-- The invariant of a watch on the request of a creation: what it was told are the decisions on the
messages that it has handled, in their order, and a final one is the last. -/
structure Sound (crypto : Crypto) (what : Bytes → Bytes) (c : CreatedRequest) (w : Watch) :
    Prop where
  request : c.creation.ticket.requestId = w.ticket.requestId
  credentials : c.creation.credentials = w.credentials
  fresh : w.phase = .opening → w.connection = none ∧ w.handled = 0 ∧ w.told = []
  hash : w.connection.isSome → w.expectedHash = crypto.sha256Hex c.sessionId
  told : ∀ d ∈ w.told, d.index < w.handled ∧ w.onDecision.isSome ∧
    ∃ connection, w.connection = some connection ∧
      Decides crypto what w.ticket.requestId (crypto.sha256Hex c.sessionId) connection d
  complete : w.onDecision.isSome → ∀ connection, w.connection = some connection →
    ∀ d : ToldDecision, d.index < w.handled →
      Decides crypto what w.ticket.requestId (crypto.sha256Hex c.sessionId) connection d → d ∈ w.told
  ordered : w.told.Pairwise fun d later => d.index < later.index
  final : ∀ d ∈ w.told, finalStates.contains d.event.state = true →
    d.index + 1 = w.handled ∧ w.phase ≠ .listening
  passed : ∀ connection, w.connection = some connection → ∀ i message,
    connection.events.1[i]? = some message →
      i + 1 < w.handled ∨ (i < w.handled ∧ w.phase = .listening) →
        w.GoesOn crypto what (crypto.sha256Hex c.sessionId) connection i message
  finished : ∀ connection, w.connection = some connection → w.phase ≠ .listening →
    w.Over crypto what (crypto.sha256Hex c.sessionId) connection

theorem sound_start {ticket : DebugRequestTicket} {credentials : Json}
    {onDecision : Option (DebugDecisionEvent → Except Failure Unit)} {onError : Bool}
    (hrequest : c.creation.ticket.requestId = ticket.requestId)
    (hcredentials : c.creation.credentials = credentials) :
    Sound crypto what c ⟨ticket, credentials, onDecision, onError, .opening, none, [], 0, [], []⟩
    where
  request := hrequest
  credentials := hcredentials
  fresh _ := ⟨rfl, rfl, rfl⟩
  hash h := by cases h
  told d h := absurd h List.not_mem_nil
  complete _ _ h := by cases h
  ordered := .nil
  final d h := absurd h List.not_mem_nil
  passed _ h := by cases h
  finished _ h := by cases h

/-- Nothing but the phase and the errors is changed, and the watch has started. -/
theorem Sound.halt (h : Sound crypto what c watch) (hsame : watch.Same w)
    (hconnection : w.connection = watch.connection) (hhash : w.expectedHash = watch.expectedHash)
    (hhandled : w.handled = watch.handled) (htold : w.told = watch.told)
    (hphase : w.phase = .ended)
    (hover : ∀ connection, watch.connection = some connection →
      watch.Over crypto what (crypto.sha256Hex c.sessionId) connection) :
    Sound crypto what c w where
  request := h.request.trans (congrArg DebugRequestTicket.requestId hsame.ticket.symm)
  credentials := h.credentials.trans hsame.credentials.symm
  fresh hopening := by rw [hphase] at hopening; cases hopening
  hash := by rw [hconnection, hhash]; exact h.hash
  told := by rw [htold, hhandled, hconnection, hsame.ticket, hsame.onDecision]; exact h.told
  complete := by
    rw [htold, hhandled, hconnection, hsame.ticket, hsame.onDecision]; exact h.complete
  ordered := by rw [htold]; exact h.ordered
  final d hd hfinal := by
    rw [htold] at hd
    rw [hhandled, hphase]
    exact ⟨(h.final d hd hfinal).1, by decide⟩
  passed connection hconn i message hmessage hbefore := by
    rw [hconnection] at hconn
    rw [hhandled, hphase] at hbefore
    refine hsame.goesOn.mpr (h.passed connection hconn i message hmessage (.inl ?_))
    exact hbefore.resolve_right fun hboth => (nomatch hboth.2)
  finished connection hconn _ := by
    rw [hconnection] at hconn
    exact (hsame.finished hhandled).mpr (hover connection hconn)

theorem sound_openWith (hc : jsonGetString c.creation.credentials (ascii "session_id") true =
      .ok c.sessionId) (h : Sound crypto what c watch) (hphase : watch.phase = .opening)
    (opened : Except Failure Connection) : Sound crypto what c (watch.openWith crypto opened) := by
  obtain ⟨hnone, hhandled, htold⟩ := h.fresh hphase
  have hfail : ∀ e, Sound crypto what c (watch.fail e) := by
    intro e
    obtain ⟨hsame, hended, hconnection, hhash, hhandled, htold⟩ := watch.fail_eq e
    exact h.halt hsame hconnection hhash hhandled htold hended
      fun connection hconn => by rw [hnone] at hconn; cases hconn
  rw [h.credentials] at hc
  unfold openWith
  split
  · exact hfail _
  split
  · exact hfail _
  rw [hc]
  exact {
    request := h.request
    credentials := h.credentials
    fresh := fun hopening => (nomatch hopening)
    hash := fun _ => rfl
    told := by rw [htold]; exact fun d hd => absurd hd List.not_mem_nil
    complete := by
      rw [hhandled]
      exact fun _ _ _ d hlt => absurd hlt (Nat.not_lt_zero _)
    ordered := by rw [htold]; exact .nil
    final := by rw [htold]; exact fun d hd => absurd hd List.not_mem_nil
    passed := by
      rw [hhandled]
      rintro _ _ i message _ (hlt | ⟨hlt, -⟩)
      · exact absurd hlt (Nat.not_lt_zero _)
      · exact absurd hlt (Nat.not_lt_zero _)
    finished := fun _ _ hphase => absurd rfl hphase }

/-- What a further message keeps. -/
theorem Sound.turned (h : Sound crypto what c watch) (hlistening : watch.phase = .listening)
    (hsame : watch.Same w) {connection : Connection} (hconn : watch.connection = some connection)
    (hconnection : w.connection = watch.connection) (hhash : w.expectedHash = watch.expectedHash)
    (hturned : Turned crypto what connection watch w)
    (hgone : GoneOn crypto what connection watch w) : Sound crypto what c w := by
  have hexpected := h.hash (hconn ▸ rfl)
  have hrequest := h.request.trans (congrArg DebugRequestTicket.requestId hsame.ticket.symm)
  have hcredentials := h.credentials.trans hsame.credentials.symm
  -- no decision so far was final, as the watch goes on
  have hopen : ∀ d ∈ watch.told, finalStates.contains d.event.state = true → False :=
    fun d hd hfinal => (h.final d hd hfinal).2 hlistening
  -- the message that is handled, and those before it
  have hpassed : w.handled = watch.handled + 1 → ∀ message,
      connection.stops watch.handled = false ∧
        connection.events.1[watch.handled]? = some message →
      (∀ other, w.connection = some other → ∀ i message, other.events.1[i]? = some message →
        i + 1 < w.handled ∨ (i < w.handled ∧ w.phase = .listening) →
          w.GoesOn crypto what (crypto.sha256Hex c.sessionId) other i message) ∧
      ∀ other, w.connection = some other → w.phase ≠ .listening →
        w.Over crypto what (crypto.sha256Hex c.sessionId) other := by
    intro hhandled message hreached
    have hlast := hgone.goesOn hreached.1 message hreached.2
    rw [hexpected] at hlast
    refine ⟨fun other hother i message' hmessage' hbefore => ?_, fun other hother hphase => ?_⟩
    · rw [hconnection, hconn] at hother
      obtain rfl := Option.some.inj hother
      rw [hhandled] at hbefore
      refine hsame.goesOn.mpr ?_
      rcases Nat.lt_or_ge i watch.handled with hlt | hge
      · exact h.passed _ hconn i message' hmessage' (.inr ⟨hlt, hlistening⟩)
      · have hi : i = watch.handled := by omega
        rw [hi] at hmessage' ⊢
        obtain rfl := Option.some.inj (hreached.2.symm.trans hmessage')
        exact hlast.mp (hbefore.resolve_left (by omega)).2
    · rw [hconnection, hconn] at hother
      obtain rfl := Option.some.inj hother
      refine .inr ⟨watch.handled, message, hhandled.symm, hreached.2, fun hgo => ?_⟩
      exact hphase (hlast.mpr (hsame.goesOn.mp hgo))
  cases hturned with
  | left hhandled htold hphase hover =>
    refine h.halt hsame hconnection hhash hhandled htold hphase fun other hother => .inl ?_
    obtain rfl := Option.some.inj (hconn.symm.trans hother)
    exact hover
  | quiet message hreached hhandled htold hsilent =>
    refine ⟨hrequest, hcredentials, fun hopening => absurd hopening hgone.started, ?_, ?_, ?_, ?_,
      ?_, ?_, ?_⟩
    · rw [hconnection, hhash]
      exact h.hash
    · rw [htold, hhandled, hconnection, hsame.ticket, hsame.onDecision]
      exact fun d hd => ⟨Nat.lt_succ_of_lt (h.told d hd).1, (h.told d hd).2⟩
    · rw [htold, hhandled, hconnection, hsame.ticket, hsame.onDecision]
      intro hsome other hother d hlt htells
      obtain rfl := Option.some.inj (hconn.symm.trans hother)
      rcases Nat.lt_succ_iff_lt_or_eq.mp hlt with hlt | hindex
      · exact h.complete hsome _ hconn d hlt htells
      · exact absurd htells (hexpected ▸ hsilent d hindex)
    · rw [htold]
      exact h.ordered
    · rw [htold]
      exact fun d hd hfinal => (hopen d hd hfinal).elim
    · exact (hpassed hhandled message hreached).1
    · exact (hpassed hhandled message hreached).2
  | tells message hreached d hindex hhandled htold htells hfinal =>
    have hmem : ∀ e ∈ w.told, e ∈ watch.told ∨ e = d ∧ watch.onDecision.isSome = true := by
      intro e he
      rw [htold, toldWith] at he
      split at he
      · rename_i hsome
        exact (List.mem_append.mp he).imp_right fun h => ⟨List.mem_singleton.mp h, hsome⟩
      · exact .inl he
    rw [hexpected] at htells
    refine ⟨hrequest, hcredentials, fun hopening => absurd hopening hgone.started, ?_, ?_, ?_, ?_,
      ?_, ?_, ?_⟩
    · rw [hconnection, hhash]
      exact h.hash
    · rw [hhandled, hconnection, hsame.ticket, hsame.onDecision]
      intro e he
      rcases hmem e he with he | ⟨rfl, hsome⟩
      · exact ⟨Nat.lt_succ_of_lt (h.told e he).1, (h.told e he).2⟩
      · exact ⟨Nat.lt_succ_of_le (Nat.le_of_eq hindex), hsome, connection, hconn, htells⟩
    · rw [htold, hhandled, hconnection, hsame.ticket, hsame.onDecision]
      intro hsome other hother e hlt he
      obtain rfl := Option.some.inj (hconn.symm.trans hother)
      rw [toldWith, if_pos hsome]
      rcases Nat.lt_succ_iff_lt_or_eq.mp hlt with hlt | heq
      · exact List.mem_append_left _ (h.complete hsome _ hconn e hlt he)
      · rw [he.unique htells (heq.trans hindex.symm)]
        exact List.mem_append_right _ (List.mem_singleton_self d)
    · rw [htold, toldWith]
      split
      · refine List.pairwise_append.mpr ⟨h.ordered, List.pairwise_singleton _ d, ?_⟩
        intro e he e' he'
        obtain rfl := List.mem_singleton.mp he'
        rw [hindex]
        exact (h.told e he).1
      · exact h.ordered
    · intro e he hlast
      rcases hmem e he with he | ⟨rfl, -⟩
      · exact (hopen e he hlast).elim
      · exact ⟨by rw [hindex, hhandled], hfinal hlast⟩
    · exact (hpassed hhandled message hreached).1
    · exact (hpassed hhandled message hreached).2

end Watch

namespace DebugState
variable {s t u : DebugState} {requestId : Bytes}

/-- The invariant of a run. -/
structure Sound (crypto : Crypto) (what : Bytes → Bytes) (s : DebugState) : Prop where
  created : ∀ c ∈ s.created, createDebugRequest what c.turn c.note = .ok c.creation
  kept : ∀ requestId credentials, s.debugCredentials requestId = some credentials →
    ∃ c ∈ s.created, c.creation.ticket.requestId = requestId ∧ c.creation.credentials = credentials
  cancellations : ∀ a ∈ s.cancellations, ∃ c ∈ s.created,
    c.creation.ticket.requestId = a.ticket.requestId ∧ c.creation.credentials = a.credentials
  watches : ∀ w ∈ s.watches, ∃ c ∈ s.created, w.Sound crypto what c

theorem sound_start (session : Session) :
    ({ session } : DebugState).Sound crypto what where
  created := by simp
  kept := by simp
  cancellations := by simp
  watches := by simp

theorem Sound.keep_none (h : s.Sound crypto what) (requestId : Bytes) :
    (s.keep requestId none).Sound crypto what where
  created := h.created
  kept other credentials hkept := by
    by_cases hother : other = requestId
    · rw [hother, keep_self] at hkept
      cases hkept
    · rw [keep_other s hother] at hkept
      exact h.kept other credentials hkept
  cancellations := h.cancellations
  watches := h.watches

theorem Sound.setWatch (h : s.Sound crypto what) {index : Nat} {watch w : Watch}
    (hwatch : s.watches[index]? = some watch)
    (hw : ∀ c ∈ s.created, watch.Sound crypto what c → w.Sound crypto what c) :
    (s.setWatch index w).Sound crypto what where
  created := h.created
  kept := h.kept
  cancellations := h.cancellations
  watches v hv := by
    rcases List.mem_or_eq_of_mem_set hv with hv | rfl
    · exact h.watches v hv
    · obtain ⟨c, hc, hsound⟩ := h.watches watch (List.mem_of_getElem? hwatch)
      exact ⟨c, hc, hw c hc hsound⟩

/-- **One step keeps the invariant.** -/
theorem Sound.step {e : DebugEvent} (h : s.Sound crypto what)
    (hstep : s.step crypto what e = some t) : t.Sound crypto what := by
  cases e with
  | created turn note =>
    rw [DebugState.step] at hstep
    split at hstep
    · obtain rfl := Option.some.inj hstep
      exact h
    · rename_i creation hcreation
      obtain rfl := Option.some.inj hstep
      refine ⟨?_, ?_, ?_, ?_⟩
      · intro c hc
        rcases List.mem_cons.mp hc with rfl | hc
        · exact hcreation
        · exact h.created c hc
      · intro requestId credentials hkept
        by_cases hnew : requestId = creation.ticket.requestId
        · have hself := s.keep_self creation.ticket.requestId (some creation.credentials)
          rw [hnew] at hkept
          exact ⟨_, List.mem_cons_self, hnew.symm, Option.some.inj (hself.symm.trans hkept)⟩
        · have hkept := (s.keep_other hnew (some creation.credentials)).symm.trans hkept
          obtain ⟨c, hc, hboth⟩ := h.kept requestId credentials hkept
          exact ⟨c, List.mem_cons_of_mem _ hc, hboth⟩
      · intro a ha
        obtain ⟨c, hc, hboth⟩ := h.cancellations a ha
        exact ⟨c, List.mem_cons_of_mem _ hc, hboth⟩
      · intro w hw
        obtain ⟨c, hc, hsound⟩ := h.watches w hw
        exact ⟨c, List.mem_cons_of_mem _ hc, hsound⟩
  | cancelling ticket =>
    obtain ⟨credentials, hkept, rfl⟩ := Option.map_eq_some_iff.mp hstep
    refine ⟨h.created, h.kept, fun a ha => ?_, h.watches⟩
    rcases List.mem_append.mp ha with ha | ha
    · exact h.cancellations a ha
    · obtain rfl := List.mem_singleton.mp ha
      exact h.kept _ _ hkept
  | cancelled call sendWeb =>
    obtain ⟨cancellation, hcall, hstep⟩ := Option.bind_eq_some_iff.mp hstep
    obtain ⟨⟨⟩, -, hstep⟩ := Option.bind_eq_some_iff.mp hstep
    obtain rfl := Option.some.inj hstep
    have hover : (s.endCancel call cancellation).Sound crypto what := by
      refine ⟨h.created, h.kept, fun a ha => ?_, h.watches⟩
      rcases List.mem_or_eq_of_mem_set ha with ha | rfl
      · exact h.cancellations a ha
      · exact h.cancellations cancellation (List.mem_of_getElem? hcall)
    unfold cancel
    split
    · exact hover
    · exact hover.keep_none _
  | watching ticket onDecision onError =>
    obtain ⟨credentials, hkept, rfl⟩ := Option.map_eq_some_iff.mp hstep
    refine ⟨h.created, h.kept, h.cancellations, fun w hw => ?_⟩
    rcases List.mem_append.mp hw with hw | hw
    · exact h.watches w hw
    · obtain rfl := List.mem_singleton.mp hw
      obtain ⟨c, hc, hrequest, hcredentials⟩ := h.kept _ _ hkept
      exact ⟨c, hc, Watch.sound_start hrequest hcredentials⟩
  | opened index opened =>
    obtain ⟨watch, hwatch, hstep⟩ := Option.bind_eq_some_iff.mp hstep
    obtain ⟨⟨⟩, hguard, hstep⟩ := Option.bind_eq_some_iff.mp hstep
    obtain rfl := Option.some.inj hstep
    refine h.setWatch hwatch fun c hc hsound => ?_
    exact Watch.sound_openWith (CreatedRequest.credentials_sessionId (h.created c hc)) hsound
      (by simpa [guard] using hguard) opened
  | read index =>
    obtain ⟨watch, hwatch, hstep⟩ := Option.bind_eq_some_iff.mp hstep
    obtain ⟨⟨w, session⟩, hread, hstep⟩ := Option.bind_eq_some_iff.mp hstep
    obtain rfl := Option.some.inj hstep
    obtain ⟨hlistening, hsame, hconnection, hhash, connection, hconn, hturned, hgone⟩ :=
      Watch.read_cases hread
    have hset := h.setWatch hwatch fun c _ hsound =>
      hsound.turned hlistening hsame hconn hconnection hhash hturned hgone
    exact ⟨hset.created, hset.kept, hset.cancellations, hset.watches⟩
  | decided index =>
    obtain ⟨watch, hwatch, hstep⟩ := Option.bind_eq_some_iff.mp hstep
    obtain ⟨⟨⟩, hguard, hstep⟩ := Option.bind_eq_some_iff.mp hstep
    obtain rfl := Option.some.inj hstep
    have hdeciding : watch.phase = .deciding := by simpa [guard] using hguard
    refine (h.setWatch hwatch fun c _ hsound => ?_).keep_none _
    exact hsound.halt ⟨rfl, rfl, rfl⟩ rfl rfl rfl rfl rfl fun connection hconn =>
      hsound.finished connection hconn (by rw [hdeciding]; decide)
  | authorized session =>
    obtain rfl := Option.some.inj hstep
    exact ⟨h.created, h.kept, h.cancellations, h.watches⟩

theorem sound_run {session : Session} {events : List DebugEvent}
    (hrun : Schedule.run (DebugState.step crypto what) { session } events = some s) :
    s.Sound crypto what :=
  Schedule.run_induction (P := fun _ t => t.Sound crypto what) (sound_start session)
    (fun h hstep => h.step hstep) hrun

/-! ## A request that is over -/

/-- The requests that were created under an id. -/
def creations (requestId : Bytes) (s : DebugState) : Nat :=
  s.created.countP fun c => c.creation.ticket.requestId = requestId

/-- The watches and the cancellations of a request. -/
def starts (requestId : Bytes) (s : DebugState) : Nat :=
  (s.watches.countP fun w => w.ticket.requestId = requestId) +
    s.cancellations.countP fun a => a.ticket.requestId = requestId

/-- A step that ends the request with this id: its cancellation was taken, or the worker of a watch
removed its entry on a final decision.  The worker comes to that only after `on_decision` has
returned. -/
def Ends (what : Bytes → Bytes) (requestId : Bytes) (s : DebugState) : DebugEvent → Prop
  | .cancelled call sendWeb => ∃ cancellation, s.cancellations[call]? = some cancellation ∧
      cancellation.ticket.requestId = requestId ∧
      ∃ response, sendWeb cancellation.post = .ok response ∧
        throwIfError what response = .ok ()
  | .decided index => ∃ watch, s.watches[index]? = some watch ∧
      watch.ticket.requestId = requestId
  | _ => False

/-- Putting another element of the same kind in a place changes no count. -/
theorem countP_set {α : Type} {p : α → Bool} {l : List α} {i : Nat} {a b : α}
    (hget : l[i]? = some a) (hsame : p b = p a) : (l.set i b).countP p = l.countP p := by
  obtain ⟨hlt, rfl⟩ := List.getElem?_eq_some_iff.mp hget
  rw [List.countP_set hlt, hsame]
  have hle : (if p l[i] = true then 1 else 0) ≤ l.countP p := by
    split
    · exact List.countP_pos_iff.mpr ⟨_, List.getElem_mem hlt, ‹_›⟩
    · exact Nat.zero_le _
  exact Nat.sub_add_cancel hle

theorem starts_setWatch {index : Nat} {watch w : Watch} (hwatch : s.watches[index]? = some watch)
    (hticket : w.ticket = watch.ticket) :
    (s.setWatch index w).starts requestId = s.starts requestId := by
  have hcount := @countP_set _ (fun w : Watch => decide (w.ticket.requestId = requestId)) s.watches
    index watch w hwatch (by rw [hticket])
  exact congrArg (· + _) hcount

theorem starts_endCancel {call : Nat} {a : Cancellation} (ha : s.cancellations[call]? = some a) :
    (s.endCancel call a).starts requestId = s.starts requestId := by
  have hcount := @countP_set _ (fun a : Cancellation => decide (a.ticket.requestId = requestId))
    s.cancellations call a { a with running := false } ha rfl
  exact congrArg (_ + ·) hcount

/-- What one step does to a request that is over, unless it creates one under its id. -/
structure Quiet (requestId : Bytes) (s t : DebugState) : Prop where
  creations : s.creations requestId ≤ t.creations requestId
  gone : t.creations requestId = s.creations requestId → s.debugCredentials requestId = none →
    t.debugCredentials requestId = none ∧ t.starts requestId = s.starts requestId

theorem Quiet.refl (requestId : Bytes) (s : DebugState) : Quiet requestId s s :=
  ⟨Nat.le_refl _, fun _ h => ⟨h, rfl⟩⟩

theorem Quiet.trans (h : Quiet requestId s t) (h' : Quiet requestId t u) : Quiet requestId s u where
  creations := Nat.le_trans h.creations h'.creations
  gone hsame hnone := by
    have hle := h.creations
    have hle' := h'.creations
    obtain ⟨hnone, hstarts⟩ := h.gone (by omega) hnone
    obtain ⟨hnone, hstarts'⟩ := h'.gone (by omega) hnone
    exact ⟨hnone, hstarts'.trans hstarts⟩

/-- An entry is removed, and nothing is started. -/
theorem quiet_keep (requestId other : Bytes) : Quiet requestId s (s.keep other none) where
  creations := Nat.le_refl _
  gone _ hnone := by
    refine ⟨?_, rfl⟩
    by_cases hsame : requestId = other
    · rw [hsame, keep_self]
    · rw [keep_other s hsame, hnone]

theorem quiet_setWatch {index : Nat} {watch w : Watch} (hwatch : s.watches[index]? = some watch)
    (hticket : w.ticket = watch.ticket) : Quiet requestId s (s.setWatch index w) :=
  ⟨Nat.le_refl _, fun _ hnone => ⟨hnone, starts_setWatch hwatch hticket⟩⟩

theorem openWith_ticket (watch : Watch) (opened : Except Failure Connection) :
    (watch.openWith crypto opened).ticket = watch.ticket := by
  unfold Watch.openWith
  split
  · exact (watch.fail_eq _).1.ticket
  split
  · exact (watch.fail_eq _).1.ticket
  split
  · exact (watch.fail_eq _).1.ticket
  · rfl

theorem quiet_step {e : DebugEvent} (hstep : s.step crypto what e = some t) :
    Quiet requestId s t := by
  cases e with
  | created turn note =>
    rw [DebugState.step] at hstep
    split at hstep
    · obtain rfl := Option.some.inj hstep
      exact .refl _ _
    · rename_i creation _
      obtain rfl := Option.some.inj hstep
      have hcount : (s.create turn note creation).creations requestId =
          s.creations requestId + if creation.ticket.requestId = requestId then 1 else 0 := by
        simp [create, creations, List.countP_cons]
      refine ⟨by rw [hcount]; exact Nat.le_add_right _ _, fun hsame hnone => ⟨?_, rfl⟩⟩
      have hother : requestId ≠ creation.ticket.requestId := by
        rintro rfl
        rw [hcount, if_pos rfl] at hsame
        omega
      exact (s.keep_other hother _).trans hnone
  | cancelling ticket =>
    obtain ⟨credentials, hkept, rfl⟩ := Option.map_eq_some_iff.mp hstep
    refine ⟨Nat.le_refl _, fun _ hnone => ⟨hnone, ?_⟩⟩
    have hother : ticket.requestId ≠ requestId := by
      rintro rfl
      rw [hnone] at hkept
      cases hkept
    simp [starts, hother]
  | cancelled call sendWeb =>
    obtain ⟨cancellation, hcall, hstep⟩ := Option.bind_eq_some_iff.mp hstep
    obtain ⟨⟨⟩, -, hstep⟩ := Option.bind_eq_some_iff.mp hstep
    obtain rfl := Option.some.inj hstep
    have hover : Quiet requestId s (s.endCancel call cancellation) :=
      ⟨Nat.le_refl _, fun _ hnone => ⟨hnone, starts_endCancel hcall⟩⟩
    unfold cancel
    split
    · exact hover
    · exact hover.trans (quiet_keep _ _)
  | watching ticket onDecision onError =>
    obtain ⟨credentials, hkept, rfl⟩ := Option.map_eq_some_iff.mp hstep
    refine ⟨Nat.le_refl _, fun _ hnone => ⟨hnone, ?_⟩⟩
    have hother : ticket.requestId ≠ requestId := by
      rintro rfl
      rw [hnone] at hkept
      cases hkept
    simp [starts, hother]
  | opened index opened =>
    obtain ⟨watch, hwatch, hstep⟩ := Option.bind_eq_some_iff.mp hstep
    obtain ⟨⟨⟩, -, hstep⟩ := Option.bind_eq_some_iff.mp hstep
    obtain rfl := Option.some.inj hstep
    exact quiet_setWatch hwatch (openWith_ticket watch opened)
  | read index =>
    obtain ⟨watch, hwatch, hstep⟩ := Option.bind_eq_some_iff.mp hstep
    obtain ⟨⟨w, session⟩, hread, hstep⟩ := Option.bind_eq_some_iff.mp hstep
    obtain rfl := Option.some.inj hstep
    obtain ⟨-, hsame, -⟩ := Watch.read_cases hread
    have hset := @quiet_setWatch s requestId index watch w hwatch hsame.ticket
    exact ⟨hset.creations, hset.gone⟩
  | decided index =>
    obtain ⟨watch, hwatch, hstep⟩ := Option.bind_eq_some_iff.mp hstep
    obtain ⟨⟨⟩, -, hstep⟩ := Option.bind_eq_some_iff.mp hstep
    obtain rfl := Option.some.inj hstep
    have hset := @quiet_setWatch s requestId index watch { watch with phase := .ended } hwatch rfl
    exact hset.trans (quiet_keep _ _)
  | authorized session =>
    obtain rfl := Option.some.inj hstep
    exact ⟨Nat.le_refl _, fun _ hnone => ⟨hnone, rfl⟩⟩

theorem quiet_run {events : List DebugEvent}
    (hrun : Schedule.run (DebugState.step crypto what) s events = some t) : Quiet requestId s t :=
  Schedule.run_induction (P := fun _ t => Quiet requestId s t) (.refl requestId s)
    (fun h hstep => h.trans (quiet_step hstep)) hrun

/-- A step that ends a request removes its entry, and starts and creates nothing. -/
theorem ends_step {e : DebugEvent} (hends : s.Ends what requestId e)
    (hstep : s.step crypto what e = some t) :
    t.debugCredentials requestId = none ∧ t.creations requestId = s.creations requestId ∧
      t.starts requestId = s.starts requestId := by
  cases e with
  | cancelled call sendWeb =>
    obtain ⟨cancellation, hcall, rfl, response, hresponse, hok⟩ := hends
    obtain ⟨found, hfound, hstep⟩ := Option.bind_eq_some_iff.mp hstep
    obtain ⟨⟨⟩, -, hstep⟩ := Option.bind_eq_some_iff.mp hstep
    obtain rfl := Option.some.inj (hcall.symm.trans hfound)
    obtain rfl := Option.some.inj hstep
    have hanswer : (sendWeb cancellation.post).bind
        (fun response => thrown (throwIfError what response)) = .ok () := by
      rw [hresponse]
      exact thrown_eq_ok.mpr hok
    rw [cancel, hanswer]
    exact ⟨keep_self _ _ _, rfl, starts_endCancel hcall⟩
  | decided index =>
    obtain ⟨watch, hwatch, rfl⟩ := hends
    obtain ⟨found, hfound, hstep⟩ := Option.bind_eq_some_iff.mp hstep
    obtain ⟨⟨⟩, -, hstep⟩ := Option.bind_eq_some_iff.mp hstep
    obtain rfl := Option.some.inj (hwatch.symm.trans hfound)
    obtain rfl := Option.some.inj hstep
    exact ⟨keep_self _ _ _, rfl, starts_setWatch hwatch rfl⟩
  | _ => exact hends.elim

end DebugState

/-! ## The decisions that are told -/

/-- A decision is on a message of the stream that was verified for it, and announces a status of the
request to the session that it was created with. -/
structure ToldDecision.Genuine (crypto : Crypto) (what : Bytes → Bytes) (c : CreatedRequest)
    (connection : Connection) (d : ToldDecision) : Prop where
  verified : ∃ message, connection.events.1[d.index]? = some message ∧ IsState message.name ∧
    Verifies crypto what connection d.index message d.data
  announced : ∃ status expires reason,
    AnnouncesTo crypto c.creation.ticket.requestId c.sessionId d.data status expires ∧
    jsonGetString d.data (ascii "reason") false = .ok reason ∧
    d.event = decisionEvent status reason expires

theorem ToldDecision.genuine_iff {connection : Connection} {d : ToldDecision} :
    d.Genuine crypto what c connection ↔
      Decides crypto what c.creation.ticket.requestId (crypto.sha256Hex c.sessionId) connection d := by
  constructor
  · rintro ⟨⟨message, hmessage, hstate, hverifies⟩, hannounced⟩
    exact ⟨message, hmessage, hstate, hverifies, readDecision_iff.mpr hannounced⟩
  · rintro ⟨message, hmessage, hstate, hverifies, hread⟩
    exact ⟨⟨message, hmessage, hstate, hverifies⟩, readDecision_iff.mp hread⟩

/-- **Debug requests are safe.**  In every run of the calls of a client, each watch is of a request
that the client created, and what it was told are genuine decisions on the messages of its stream,
in their order and each at most once, of which none comes after a final one; and after a step that
ends a request, no watch and no cancellation of it starts, unless a request is created under its
id. -/
theorem run_debugSafe (crypto : Crypto) (what : Bytes → Bytes) (session : Session)
    (events : List DebugEvent) (s : DebugState)
    (hrun : Schedule.run (DebugState.step crypto what) { session } events = some s) :
    (∀ w ∈ s.watches, ∃ c ∈ s.created,
      createDebugRequest what c.turn c.note = .ok c.creation ∧
      c.creation.ticket.requestId = w.ticket.requestId ∧
      (∀ d ∈ w.told, ∃ connection, w.connection = some connection ∧
        d.Genuine crypto what c connection) ∧
      w.told.Pairwise (fun d later => d.index < later.index) ∧
      ∀ d ∈ w.told, finalStates.contains d.event.state = true →
        ∀ other ∈ w.told, other.index ≤ d.index) ∧
    ∀ before e after t requestId, events = before ++ e :: after →
      Schedule.run (DebugState.step crypto what) { session } before = some t →
      t.Ends what requestId e → s.creations requestId = t.creations requestId →
        s.debugCredentials requestId = none ∧ s.starts requestId = t.starts requestId := by
  have h := DebugState.sound_run hrun
  constructor
  · intro w hw
    obtain ⟨c, hc, hsound⟩ := h.watches w hw
    refine ⟨c, hc, h.created c hc, hsound.request, fun d hd => ?_, hsound.ordered,
      fun d hd hfinal other hother => ?_⟩
    · obtain ⟨connection, hconnection, htells⟩ := (hsound.told d hd).2.2
      rw [← hsound.request] at htells
      exact ⟨connection, hconnection, ToldDecision.genuine_iff.mpr htells⟩
    · have hlast := (hsound.final d hd hfinal).1
      have hlt := (hsound.told other hother).1
      omega
  · rintro before e after t requestId rfl hbefore hends hsame
    rw [Schedule.run, List.foldlM_append] at hrun
    obtain ⟨t', ht', hrun⟩ := Option.bind_eq_some_iff.mp hrun
    obtain rfl := Option.some.inj (hbefore.symm.trans ht')
    rw [List.foldlM_cons] at hrun
    obtain ⟨u, hu, hrun⟩ := Option.bind_eq_some_iff.mp hrun
    obtain ⟨hnone, hcreations, hstarts⟩ := DebugState.ends_step hends hu
    obtain ⟨hgone, hstarts'⟩ := (DebugState.quiet_run hrun).gone (hsame.trans hcreations.symm) hnone
    exact ⟨hgone, hstarts'.trans hstarts⟩

/-- **Which decisions are told**, for a watch that is over and was not stopped: those that the
messages announce to its session, up to the first message that ends it. -/
theorem debugWatch_tells_iff (crypto : Crypto) (what : Bytes → Bytes) (session : Session)
    (events : List DebugEvent) (s : DebugState)
    (hrun : Schedule.run (DebugState.step crypto what) { session } events = some s)
    (w : Watch) (hw : w ∈ s.watches) (connection : Connection)
    (hconnection : w.connection = some connection) (hended : w.phase = .ended)
    (hstops : ∀ i, connection.stops i = false) :
    ∃ c ∈ s.created, c.creation.ticket.requestId = w.ticket.requestId ∧
      c.creation.credentials = w.credentials ∧
      ∀ d : ToldDecision, d ∈ w.told ↔ w.onDecision.isSome ∧ d.Genuine crypto what c connection ∧
        ∀ i < d.index, ∀ message, connection.events.1[i]? = some message →
          w.GoesOn crypto what (crypto.sha256Hex c.sessionId) connection i message := by
  have h := DebugState.sound_run hrun
  obtain ⟨c, hc, hsound⟩ := h.watches w hw
  refine ⟨c, hc, hsound.request, hsound.credentials, fun d => ⟨fun hd => ?_, ?_⟩⟩
  · obtain ⟨hlt, hsome, other, hother, htells⟩ := hsound.told d hd
    obtain rfl := Option.some.inj (hconnection.symm.trans hother)
    rw [← hsound.request] at htells
    refine ⟨hsome, ToldDecision.genuine_iff.mpr htells, fun i hi message hmessage => ?_⟩
    exact hsound.passed _ hconnection i message hmessage (.inl (by omega))
  · rintro ⟨hsome, hgenuine, hearlier⟩
    have htells := ToldDecision.genuine_iff.mp hgenuine
    rw [hsound.request] at htells
    refine hsound.complete hsome _ hconnection d ?_ htells
    -- what ended the watch is not before the message
    by_contra hlate
    have hle := Nat.le_of_not_lt hlate
    obtain ⟨message, hmessage, -⟩ := htells
    have hlength := (List.getElem?_eq_some_iff.mp hmessage).1
    rcases hsound.finished _ hconnection (by rw [hended]; decide) with (hstop | hnone) |
      ⟨i, other, hi, hother, hends⟩
    · rw [hstops] at hstop
      cases hstop
    · have hshort := List.getElem?_eq_none_iff.mp hnone
      omega
    · exact hends (hearlier i (by omega) other hother)

end Invariant

/-! A request that is created, watched and approved. -/

/-- The answers that the sample request is created with. -/
def sampleDebugTurn : CreateTurn where
  enrollment := .ok (ascii "ticket")
  random := .ok (List.replicate 32 0)
  appId := ascii "app"
  releaseId := ascii "release"
  version := ascii "1.0"
  deviceId := ascii "device"
  sendWeb post := .ok ⟨200, if post.includeDpop then Java.createBody else Java.enrollBody []⟩
  now := .ok 1000

/-- The ticket of the sample request. -/
def sampleDebugTicket : DebugRequestTicket :=
  ⟨ascii "00000000-0000-4000-8000-000000000000", ascii "w", 1300⟩

/-- The stream of the sample, with one signed approval. -/
def sampleDebugConnection : Connection where
  nonce := List.replicate 32 0x30
  statusCode := 200
  chunks := [ascii "event: debug-request-state\ndata: " ++ Java.approvalBody ++ ascii "\n\n"]
  failure := none
  contexts _ := Java.approvalContext
  notes _ := .ok ()
  stops _ := false

/-- The sample request is created, watched and approved. -/
def sampleDebugEvents : List DebugEvent :=
  [.created sampleDebugTurn (ascii "note"), .watching sampleDebugTicket (some fun _ => .ok ()) true,
    .opened 0 (.ok sampleDebugConnection), .read 0, .decided 0]

/-- What the watches were told, how far they are, and their streams' nonces. -/
def DebugState.summary (s : DebugState) : List (List DebugDecisionEvent × WatchPhase) :=
  s.watches.map fun w => (w.told.map ToldDecision.event, w.phase)

theorem sampleDebugEvents_run : (Schedule.run (DebugState.step Java.approvalCrypto id)
    { session := ⟨[], 0⟩ } sampleDebugEvents).map DebugState.summary =
      some [([⟨ascii "approved", [], 1200⟩], .ended)] := by
  decide +kernel

set_option maxRecDepth 100000 in
theorem sampleDebugEvents_connection : (Schedule.run (DebugState.step Java.approvalCrypto id)
    { session := ⟨[], 0⟩ } sampleDebugEvents).map (fun s => s.watches.map Watch.connection) =
      some [some sampleDebugConnection] := rfl

/-- The only watch of the sample. -/
theorem sampleDebugEvents_watch : ∃ s w, Schedule.run (DebugState.step Java.approvalCrypto id)
    { session := ⟨[], 0⟩ } sampleDebugEvents = some s ∧ s.watches = [w] ∧
      w.told.map ToldDecision.event = [⟨ascii "approved", [], 1200⟩] ∧ w.phase = .ended ∧
      w.connection = some sampleDebugConnection := by
  obtain ⟨s, hs, hsummary⟩ := Option.map_eq_some_iff.mp sampleDebugEvents_run
  have hconnection := sampleDebugEvents_connection
  rw [hs, Option.map_some, Option.some.injEq] at hconnection
  rw [DebugState.summary] at hsummary
  cases hwatches : s.watches with
  | nil =>
    rw [hwatches] at hconnection
    cases hconnection
  | cons w rest =>
    rw [hwatches, List.map_cons, List.cons.injEq, List.map_eq_nil_iff] at hconnection hsummary
    obtain ⟨htold, hphase⟩ := Prod.mk.inj hsummary.1
    exact ⟨s, w, hs, by rw [hwatches, hsummary.2], htold, hphase, hconnection.1⟩

/-- The approval is genuine. -/
theorem sampleDebug_safe : ∃ s w c d connection,
    Schedule.run (DebugState.step Java.approvalCrypto id) { session := ⟨[], 0⟩ }
      sampleDebugEvents = some s ∧ w ∈ s.watches ∧ d ∈ w.told ∧
    d.event.state = ascii "approved" ∧ c ∈ s.created ∧ w.connection = some connection ∧
    d.Genuine Java.approvalCrypto id c connection := by
  obtain ⟨s, w, hs, hwatches, htold, -⟩ := sampleDebugEvents_watch
  have hw : w ∈ s.watches := hwatches ▸ List.mem_singleton_self w
  obtain ⟨d, hd, hevent⟩ := List.mem_map.mp (htold ▸ List.mem_singleton_self _)
  obtain ⟨c, hc, -, -, hgenuine, -⟩ := (run_debugSafe _ _ _ _ s hs).1 w hw
  obtain ⟨connection, hconnection, hd'⟩ := hgenuine d hd
  exact ⟨s, w, c, d, connection, hs, hw, hd, by rw [hevent], hc, hconnection, hd'⟩

/-- It is told because nothing before it ends the watch. -/
theorem sampleDebug_told : ∃ s w c, Schedule.run (DebugState.step Java.approvalCrypto id)
    { session := ⟨[], 0⟩ } sampleDebugEvents = some s ∧ w ∈ s.watches ∧ c ∈ s.created ∧
    ∀ d : ToldDecision, d ∈ w.told ↔ w.onDecision.isSome ∧
      d.Genuine Java.approvalCrypto id c sampleDebugConnection ∧
      ∀ i < d.index, ∀ message, sampleDebugConnection.events.1[i]? = some message →
        w.GoesOn Java.approvalCrypto id (Java.approvalCrypto.sha256Hex c.sessionId)
          sampleDebugConnection i message := by
  obtain ⟨s, w, hs, hwatches, -, hended, hconnection⟩ := sampleDebugEvents_watch
  have hw : w ∈ s.watches := hwatches ▸ List.mem_singleton_self w
  obtain ⟨c, hc, -, -, htells⟩ := debugWatch_tells_iff _ _ _ _ s hs w hw _ hconnection hended
    (fun _ => rfl)
  exact ⟨s, w, c, hs, hw, hc, htells⟩

end Cpp
end SwmSdk
