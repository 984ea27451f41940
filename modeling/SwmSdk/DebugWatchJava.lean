import Mathlib.Logic.Function.Basic
import SwmSdk.Base64Url
import SwmSdk.ClientOptions
import SwmSdk.HostIntegrityJava
import SwmSdk.JsonWrite
import SwmSdk.UpdateStreamJava

/-! # The debug requests of Java

`createDebugRequest` draws a session id, enrolls with it and creates a request under it;
`watchDebugRequest` reads the decisions on the request, which name the session by the hash of its
id.  What the client keeps of the session until then is the response to the enrollment, under the
id of the request, and the id of the session is not in it unless the server puts it there.

A decision for the session is delivered exactly when the response that is kept has a `session_id`
with the hash of the one that was sent, its reason can be read, and there is a listener that takes
it (`debugWatch_delivers_iff`).
-/
namespace SwmSdk
namespace Java
open ByteText Outcome

/-! ## Creating a request -/

/-- `DebugRequestTicket`. -/
structure DebugRequestTicket where
  requestId : Bytes
  watchToken : Bytes
  expiresAt : Int

/-- A `POST` of the debug protocol. -/
structure DebugRequest (J : Jackson) where
  path : Bytes
  body : Bytes
  includeDpop : Bool
  debugCredentials : Option J.Node

/-- What a call of `createDebugRequest` finds. -/
structure CreateTurn (J : Jackson) where
  closed : Bool
  /-- The ticket that `requestEnrollmentTicket` returns for the audience `debug`. -/
  enrollment : Except Thrown Bytes
  /-- The 32 bytes that are drawn. -/
  randomBytes : Bytes
  appId : Bytes
  releaseId : Bytes
  version : Bytes
  deviceId : Except Thrown Bytes
  sendWeb : DebugRequest J → Except Thrown ProtocolResponse
  now : Int

/-- A request that was created: the ticket that is returned, the response to the enrollment, and
the fields of the request for the creation. -/
structure Creation (J : Jackson) where
  ticket : DebugRequestTicket
  credentials : J.Node
  create : List (Bytes × JsonWrite.Scalar)

section Create
variable (J : Jackson)

/-- `validUuid`: `UUID.fromString` reads the text, and writes it again but for the case. -/
def validUuid (value : Bytes) : Bool := Cpp.validUuid value

/-- `checkOpen`. -/
def checkOpen (closed : Bool) : Except Thrown Unit :=
  if closed then .error .illegalState else .ok ()

/-- The check of the note, whose length is counted in UTF-16 units. -/
def checkNote : Option Bytes → Except Thrown Bytes
  | none => .error (validation "debug note must contain 2 to 200 characters")
  | some note =>
      if length note < 2 ∨ 200 < length note then
        .error (validation "debug note must contain 2 to 200 characters")
      else .ok note

/-- A time that is no later than now, or later than 305 seconds from now. -/
def badExpiry (now expiresAt : Int) : Bool := expiresAt ≤ now || long (now + 305) < expiresAt

/-- The checks of the response to the enrollment. -/
def checkCredentials (now : Int) (credentials : J.Node) : Except Thrown Unit := do
  let clientId ← text J credentials (ascii "client_id") true
  let clientSecret ← text J credentials (ascii "client_secret") true
  let credentialsExpiresAt ← longValue J credentials (ascii "expires_at") 0
  if isBlank clientId ∨ isBlank clientSecret ∨ badExpiry now credentialsExpiresAt then
    .error (protocol (ascii "debug enrollment response is invalid"))
  else .ok ()

/-- The ticket in the response to the creation. -/
def readTicket (now : Int) (created : J.Node) : Except Thrown DebugRequestTicket := do
  let requestId ← text J created (ascii "request_id") true
  let watchToken ← text J created (ascii "watch_token") true
  let expiresAt ← longValue J created (ascii "expires_at") 0
  if ¬ validUuid requestId ∨ isBlank watchToken ∨ badExpiry now expiresAt then
    .error (protocol (ascii "debug create response is invalid"))
  else .ok ⟨requestId, watchToken, expiresAt⟩

/-- `sessionId`. -/
def CreateTurn.sessionId {J : Jackson} (turn : CreateTurn J) : Bytes :=
  Base64Url.encode turn.randomBytes

/-- The fields of the request for the enrollment. -/
def CreateTurn.enroll {J : Jackson} (turn : CreateTurn J) (ticket pcid : Bytes) :
    List (Bytes × JsonWrite.Scalar) := [
  (ascii "ticket", .text ticket), (ascii "app_id", .text turn.appId),
  (ascii "release_id", .text turn.releaseId), (ascii "session_id", .text turn.sessionId),
  (ascii "pcid", .text pcid), (ascii "app_version", .text turn.version)]

/-- The fields of the request for the creation. -/
def CreateTurn.create {J : Jackson} (turn : CreateTurn J) (pcid note : Bytes) :
    List (Bytes × JsonWrite.Scalar) := [
  (ascii "session_id", .text turn.sessionId), (ascii "pcid", .text pcid),
  (ascii "app_version", .text turn.version), (ascii "note", .text note)]

/-- `createDebugRequest`, up to the entry that it makes under the id of the request. -/
def createDebugRequest (turn : CreateTurn J) (note : Option Bytes) :
    Except Thrown (Creation J) := do
  checkOpen turn.closed
  let note ← checkNote note
  let enrollment ← turn.enrollment
  let pcid ← turn.deviceId
  let enrollResponse ← turn.sendWeb ⟨ascii "/api/v1/client/debug-enroll",
    JsonWrite.object true (turn.enroll enrollment pcid), false, none⟩
  throwIfError J enrollResponse
  let credentials ← parse J enrollResponse.body (ascii "debug enrollment")
  checkCredentials J turn.now credentials
  let pcid ← turn.deviceId
  let createResponse ← turn.sendWeb ⟨ascii "/api/v1/client/debug-requests",
    JsonWrite.object true (turn.create pcid note), true, some credentials⟩
  throwIfError J createResponse
  let created ← parse J createResponse.body (ascii "debug create")
  let ticket ← readTicket J turn.now created
  .ok ⟨ticket, credentials, turn.create pcid note⟩

/-- A call of `createDebugRequest` that returned. -/
structure Created where
  turn : CreateTurn J
  note : Option Bytes
  creation : Creation J
  returned : createDebugRequest J turn note = .ok creation

/-- The session id in the request for the creation. -/
def Created.sessionId {J : Jackson} (created : Created J) : Bytes :=
  match created.creation.create.lookup (ascii "session_id") with
  | some (.text value) => value
  | _ => []

end Create

/-! ## The responses that are kept -/

/-- A change of `debugCredentials`, which any thread may make. -/
inductive Change (J : Jackson) where
  | created (created : Created J)
  /-- A ticket that is cancelled, or a final decision on it. -/
  | removed (requestId : Bytes)

section Kept
variable {J : Jackson}

/-- `debugCredentials` after these changes, of which the first is the latest. -/
def debugCredentials : List (Change J) → Bytes → Option J.Node
  | [] => fun _ => none
  | .created created :: earlier =>
      Function.update (debugCredentials earlier) created.creation.ticket.requestId
        (some created.creation.credentials)
  | .removed requestId :: earlier => Function.update (debugCredentials earlier) requestId none

/-- The last request that was created under an id. -/
def lastCreated (requestId : Bytes) : List (Change J) → Option (Created J)
  | [] => none
  | .created created :: earlier =>
      if created.creation.ticket.requestId = requestId then some created
      else lastCreated requestId earlier
  | .removed _ :: earlier => lastCreated requestId earlier

end Kept

/-! ## The stream -/

/-- `DebugDecisionEvent`. -/
structure DebugDecisionEvent where
  state : Bytes
  reason : Bytes
  authorizationExpiresAt : Int

/-- A line that `readLine` returns: whether the handle was stopped before it, what `verifyAuthz`
does with a body, and what the listener does with a decision. -/
structure DebugRead (J : Jackson) where
  stopped : Bool
  line : Bytes
  verifyAuthz : Bytes → Except Thrown (Option J.Node)
  onDecision : DebugDecisionEvent → Except Thrown Unit

/-- The response to `openWebStream`. -/
structure DebugStream (J : Jackson) where
  statusCode : Int
  reads : List (DebugRead J)
  /-- The handle was stopped before the last test of the loop. -/
  stopped : Bool
  ending : StreamEnd

/-- What the application is told. -/
inductive Told where
  | decision (event : DebugDecisionEvent)
  | error (exception : Error)

/-- A watch of a ticket: which listeners are given, and the response that is kept. -/
structure DebugWatch (J : Jackson) where
  crypto : Crypto
  ticket : DebugRequestTicket
  credentials : J.Node
  onDecision : Bool
  onError : Bool

/-- `JsonUtil.text` of a required field of a node that may be `null`. -/
def requiredText (J : Jackson) (value : Option J.Node) (field : String) : Except Thrown Bytes :=
  match value with
  | none => .error (protocol (ascii "missing JSON field: " ++ ascii field))
  | some node => text J node (ascii field) true

/-- `JsonUtil.longValue` of a node that may be `null`. -/
def optionalLong (J : Jackson) (value : Option J.Node) (field : String) : Except Thrown Int :=
  match value with
  | none => .ok 0
  | some node => longValue J node (ascii field) 0

/-- What a line with a field does. -/
def SseEvent.addState (event : SseEvent) (line : Bytes) : SseEvent :=
  if ascii "event:" <+: line then { event with name := trim (line.drop 6) }
  else if ascii "data:" <+: line then
    { event with
      data := (if event.data = [] then [] else event.data ++ [newline]) ++ trim (line.drop 5) }
  else event

/-- An event that an empty line handles. -/
def SseEvent.IsState (event : SseEvent) : Prop :=
  event.data ≠ [] ∧ (event.name = ascii "debug-request-state" ∨
    event.name = ascii "debug_request_state")

instance (event : SseEvent) : Decidable event.IsState :=
  inferInstanceAs (Decidable (_ ∧ _))

/-- The states after which a request does not change. -/
def finalStates : List Bytes := [ascii "approved", ascii "rejected", ascii "cancelled"]

/-- The states that a decision may name. -/
def allowedStates : List Bytes := ascii "pending" :: finalStates

/-- The decision that the listener gets. -/
def decisionEvent (status reason : Bytes) (expires : Int) : DebugDecisionEvent :=
  ⟨status, reason, if status = ascii "approved" then expires else 0⟩

namespace DebugWatch
variable {J : Jackson} (watch : DebugWatch J)

/-- The decision in the data of an event. -/
def readDecision (data : Option J.Node) : Except Thrown DebugDecisionEvent := do
  let version ← requiredText J data "version"
  let requestId ← requiredText J data "request_id"
  let sessionHash ← requiredText J data "session_id_hash"
  let status ← requiredText J data "status"
  let reason ← optionalText J data "reason"
  let expires ← optionalLong J data "expires_at"
  let sessionId ← text J watch.credentials (ascii "session_id") true
  if version ≠ ascii "debug_decision_v1" ∨ watch.ticket.requestId ≠ requestId ∨
      ¬ equalsIgnoreCase sessionHash (watch.crypto.sha256Hex sessionId) ∨
      ¬ allowedStates.contains status ∨ expires ≤ 0 then
    .error (protocol (ascii "debug decision payload is invalid"))
  else .ok (decisionEvent status reason expires)

/-- What `onError` is told of an exception: nothing of one that is not of the SDK. -/
def reported : Thrown → List Told
  | .swm exception => if watch.onError then [.error exception] else []
  | _ => []

/-- What the application is told of a decision, and whether the loop goes on. -/
def tell (read : DebugRead J) (decision : DebugDecisionEvent) : List Told × Bool :=
  if watch.onDecision then
    match read.onDecision decision with
    | .error e => (.decision decision :: watch.reported e, false)
    | .ok () => ([.decision decision], !finalStates.contains decision.state)
  else ([], !finalStates.contains decision.state)

/-- What the application is told of an event, and whether the loop goes on. -/
def onState (read : DebugRead J) (event : SseEvent) : List Told × Bool :=
  match (read.verifyAuthz event.data).bind watch.readDecision with
  | .error e => (watch.reported e, false)
  | .ok decision => watch.tell read decision

/-- What the application is told at a line, and whether the loop goes on. -/
def onLine (read : DebugRead J) (event : SseEvent) : List Told × Bool :=
  if read.line = [] ∧ event.IsState then watch.onState read event else ([], true)

/-- The event after a line. -/
def afterLine (line : Bytes) (event : SseEvent) : SseEvent :=
  if line = [] then emptyEvent else event.addState line

/-- The exception of a stream that cannot be opened or read on. -/
def network (message : String) : Thrown :=
  .swm { kind := .network, statusCode := 0, serviceCode := [], message := ascii message }

/-- What the application is told at each line that is read, and at the end of the stream. -/
def loop (stream : DebugStream J) : List (DebugRead J) → SseEvent → List (List Told) × List Told
  | [], _ =>
      if stream.stopped then ([], [])
      else
        match stream.ending with
        | .null => ([], [])
        | .ioException => ([], watch.reported (network "debug stream failed"))
  | read :: reads, event =>
      if read.stopped then ([], [])
      else if (watch.onLine read event).2 then
        let rest := loop stream reads (afterLine read.line event)
        ((watch.onLine read event).1 :: rest.1, rest.2)
      else ([(watch.onLine read event).1], [])

end DebugWatch

/-- What a call of `watchDebugRequest` finds: its listeners, and the stream that is opened. -/
structure DebugTurn (J : Jackson) where
  closed : Bool
  onDecision : Bool
  onError : Bool
  openWebStream : (path requestId : Bytes) → J.Node → (watchToken : Bytes) →
    Except Thrown (DebugStream J)

/-- The path of the event stream of a request. -/
def eventsPath (ticket : DebugRequestTicket) : Bytes :=
  ascii "/api/v1/client/debug-requests/" ++ ticket.requestId ++ ascii "/events"

/-- The worker of `watchDebugRequest`. -/
def DebugWatch.work {J : Jackson} (watch : DebugWatch J)
    (opened : Except Thrown (DebugStream J)) : List (List Told) × List Told :=
  match opened with
  | .error e => ([], watch.reported e)
  | .ok stream =>
      if stream.statusCode < 200 ∨ 300 ≤ stream.statusCode then
        ([], watch.reported (DebugWatch.network "debug stream was rejected"))
      else watch.loop stream stream.reads emptyEvent

/-- `watchDebugRequest`: what the application is told at each line of the stream, and at its
end. -/
def watchDebugRequest {J : Jackson} (crypto : Crypto) (kept : Bytes → Option J.Node)
    (ticket : DebugRequestTicket) (turn : DebugTurn J) :
    Except Thrown (List (List Told) × List Told) := do
  checkOpen turn.closed
  match kept ticket.requestId with
  | none => .error (validation "debug request credentials are unavailable")
  | some credentials =>
      .ok ((DebugWatch.mk crypto ticket credentials turn.onDecision turn.onError).work
        (turn.openWebStream (eventsPath ticket) ticket.requestId credentials ticket.watchToken))

/-! ## What a call leaves -/

section Kept
variable {J : Jackson}

/-- The creation of a ticket sends its fields. -/
theorem createDebugRequest_ok {turn : CreateTurn J} {note : Option Bytes} {creation : Creation J}
    (h : createDebugRequest J turn note = .ok creation) :
    ∃ pcid note, creation.create = turn.create pcid note := by
  unfold createDebugRequest at h
  obtain ⟨⟨⟩, -, h⟩ := bind_eq_ok.mp h
  obtain ⟨note, -, h⟩ := bind_eq_ok.mp h
  obtain ⟨enrollment, -, h⟩ := bind_eq_ok.mp h
  obtain ⟨enrollPcid, -, h⟩ := bind_eq_ok.mp h
  obtain ⟨enrolled, -, h⟩ := bind_eq_ok.mp h
  obtain ⟨⟨⟩, -, h⟩ := bind_eq_ok.mp h
  obtain ⟨credentials, -, h⟩ := bind_eq_ok.mp h
  obtain ⟨⟨⟩, -, h⟩ := bind_eq_ok.mp h
  obtain ⟨pcid, -, h⟩ := bind_eq_ok.mp h
  obtain ⟨response, -, h⟩ := bind_eq_ok.mp h
  obtain ⟨⟨⟩, -, h⟩ := bind_eq_ok.mp h
  obtain ⟨node, -, h⟩ := bind_eq_ok.mp h
  obtain ⟨ticket, -, h⟩ := bind_eq_ok.mp h
  exact ⟨pcid, note, by rw [← Except.ok.inj h]⟩

/-- The session id that is sent is the one that was drawn. -/
theorem Created.sessionId_eq (created : Created J) :
    created.sessionId = created.turn.sessionId := by
  obtain ⟨pcid, note, hcreate⟩ := createDebugRequest_ok created.returned
  rw [Created.sessionId, hcreate]
  rfl

/-- **What is kept under an id** is the response to the enrollment of the last request that was
created under it. -/
theorem debugCredentials_eq_some {changes : List (Change J)} {requestId : Bytes}
    {credentials : J.Node} (h : debugCredentials changes requestId = some credentials) :
    ∃ created, lastCreated requestId changes = some created ∧
      created.creation.credentials = credentials := by
  induction changes with
  | nil => cases h
  | cons change earlier ih =>
    cases change with
    | created created =>
      rw [debugCredentials, Function.update_apply] at h
      rw [lastCreated]
      split at h
      · rename_i hid
        exact ⟨created, if_pos hid.symm, Option.some.inj h⟩
      · rename_i hid
        rw [if_neg fun heq => hid heq.symm]
        exact ih h
    | removed removed =>
      rw [debugCredentials, Function.update_apply] at h
      split at h
      · cases h
      · exact ih h

end Kept

/-! ## A decision -/

section Watch
variable {J : Jackson} {watch : DebugWatch J} {stream : DebugStream J}

/-- The event of the lines since the last empty one. -/
def gather (lines : List Bytes) : SseEvent :=
  lines.foldl (fun event line => DebugWatch.afterLine line event) emptyEvent

/-- The lines that the loop reads are handled with the events before them. -/
theorem loop_lines {reads : List (DebugRead J)} {event : SseEvent} {i : Nat} {read : DebugRead J}
    (hread : reads[i]? = some read) (hreached : i < (watch.loop stream reads event).1.length) :
    (watch.loop stream reads event).1[i]? = some (watch.onLine read
      (((reads.take i).map (·.line)).foldl
        (fun event line => DebugWatch.afterLine line event) event)).1 := by
  induction reads generalizing event i with
  | nil => cases hread
  | cons first reads ih =>
    rw [DebugWatch.loop] at hreached ⊢
    split at hreached
    · exact absurd hreached (Nat.not_lt_zero i)
    · rename_i hrunning
      rw [if_neg hrunning]
      split at hreached
      · rename_i hgoes
        rw [if_pos hgoes]
        cases i with
        | zero => rw [← Option.some.inj hread]; rfl
        | succ i => exact ih hread (Nat.lt_of_succ_lt_succ hreached)
      · rename_i hleft
        rw [if_neg hleft]
        obtain rfl : i = 0 := Nat.lt_one_iff.mp hreached
        rw [← Option.some.inj hread]
        rfl

/-- A line at which an event is handled that passes `verifyAuthz` and names the decision of the
ticket on a session. -/
structure Announces (crypto : Crypto) (ticket : DebugRequestTicket) (sessionId : Bytes)
    (read : DebugRead J) (event : SseEvent) (node : J.Node) (status : Bytes) (expires : Int) :
    Prop where
  blank : read.line = []
  state : event.IsState
  verified : read.verifyAuthz event.data = .ok (some node)
  version : text J node (ascii "version") true = .ok (ascii "debug_decision_v1")
  request : text J node (ascii "request_id") true = .ok ticket.requestId
  session : ∃ hash, text J node (ascii "session_id_hash") true = .ok hash ∧
    lower hash = crypto.sha256Hex sessionId
  stated : text J node (ascii "status") true = .ok status
  allowed : status ∈ allowedStates
  dated : longValue J node (ascii "expires_at") 0 = .ok expires
  positive : 0 < expires

/-- The response to the enrollment names a session with the hash of this one. -/
def KeepsSession (J : Jackson) (crypto : Crypto) (credentials : J.Node) (sessionId : Bytes) :
    Prop :=
  ∃ kept, text J credentials (ascii "session_id") true = .ok kept ∧
    crypto.sha256Hex kept = crypto.sha256Hex sessionId

theorem readDecision_iff {sessionId : Bytes} {read : DebugRead J} {event : SseEvent}
    {node : J.Node} {status : Bytes} {expires : Int} {decision : DebugDecisionEvent}
    (h : Announces watch.crypto watch.ticket sessionId read event node status expires) :
    watch.readDecision (some node) = .ok decision ↔
      KeepsSession J watch.crypto watch.credentials sessionId ∧
      ∃ reason, text J node (ascii "reason") false = .ok reason ∧
        decision = decisionEvent status reason expires := by
  obtain ⟨hash, hsession, hhash⟩ := h.session
  have hmatch : ∀ kept, equalsIgnoreCase hash (watch.crypto.sha256Hex kept) = true ↔
      watch.crypto.sha256Hex kept = watch.crypto.sha256Hex sessionId := by
    intro kept
    rw [Crypto.sha256Hex, equalsIgnoreCase_hex, hhash]
    exact eq_comm
  simp only [DebugWatch.readDecision, requiredText, optionalText, optionalLong, bind_eq_ok,
    h.version, h.request, hsession, h.stated, h.dated, Except.ok.injEq, exists_eq_left']
  constructor
  · rintro ⟨reason, hreason, kept, hkept, hchecks⟩
    obtain ⟨hchecks, hdecision⟩ := guard_eq_ok.mp hchecks
    have hsame : equalsIgnoreCase hash (watch.crypto.sha256Hex kept) = true := by
      by_contra hne
      exact hchecks (.inr (.inr (.inl hne)))
    exact ⟨⟨kept, hkept, (hmatch kept).mp hsame⟩, reason, hreason,
      (Except.ok.inj hdecision).symm⟩
  · rintro ⟨⟨kept, hkept, hsame⟩, reason, hreason, rfl⟩
    refine ⟨reason, hreason, kept, hkept, ?_⟩
    rw [if_neg]
    rintro (hne | hne | hne | hne | hne)
    · exact hne rfl
    · exact hne rfl
    · exact hne ((hmatch kept).mpr hsame)
    · exact hne (List.contains_iff_mem.mpr h.allowed)
    · exact absurd h.positive (by omega)

/-- There is a listener for decisions, and it throws nothing that is reported. -/
def TakesDecision (listens reports : Bool) (read : DebugRead J) (decision : DebugDecisionEvent) :
    Prop :=
  listens = true ∧ (reports = true → ∀ error, read.onDecision decision ≠ .error (.swm error))

/-- What is reported is no decision. -/
theorem decision_notMem_reported {e : Thrown} {decision : DebugDecisionEvent} :
    .decision decision ∉ watch.reported e := by
  cases e with
  | swm error =>
    rw [DebugWatch.reported]
    split <;> simp
  | _ => exact List.not_mem_nil

theorem reported_eq_nil {e : Thrown} :
    watch.reported e = [] ↔ (watch.onError = true → ∀ error, e ≠ .swm error) := by
  cases e with
  | swm error =>
    rw [DebugWatch.reported]
    split
    · rename_i hlistens
      exact ⟨fun h => (nomatch h), fun h => absurd rfl (h hlistens error)⟩
    · rename_i hlistens
      exact ⟨fun _ h => absurd h hlistens, fun _ => rfl⟩
  | _ => exact ⟨fun _ _ _ => Thrown.noConfusion, fun _ => rfl⟩

/-- A decision is told, and nothing else, exactly to a listener that takes it. -/
theorem tell_iff {read : DebugRead J} {decision other : DebugDecisionEvent} :
    (watch.tell read decision).1 = [.decision other] ↔
      other = decision ∧ TakesDecision watch.onDecision watch.onError read decision := by
  rw [DebugWatch.tell, TakesDecision]
  cases hlistens : watch.onDecision with
  | false => simp
  | true =>
    cases htaken : read.onDecision decision with
    | error e =>
      have hquiet : watch.reported e = [] ↔
          (watch.onError = true → ∀ error, Except.error e ≠ (.error (.swm error) :
            Except Thrown Unit)) := by
        rw [reported_eq_nil]
        simp only [ne_eq, Except.error.injEq]
      rw [if_pos rfl, ← hquiet]
      simp only [List.cons.injEq, Told.decision.injEq, true_and]
      rw [eq_comm (a := decision)]
    | ok done =>
      rw [if_pos rfl]
      constructor
      · intro h
        exact ⟨(Told.decision.inj (List.head_eq_of_cons_eq h)).symm, rfl,
          fun _ _ h => (nomatch h)⟩
      · rintro ⟨rfl, -⟩
        rfl

/-- **The line of an event** that announces a decision. -/
theorem onLine_delivers_iff {sessionId : Bytes} {read : DebugRead J} {event : SseEvent}
    {node : J.Node} {status : Bytes} {expires : Int}
    (h : Announces watch.crypto watch.ticket sessionId read event node status expires) :
    (∃ decision, (watch.onLine read event).1 = [.decision decision] ∧ decision.state = status) ↔
      KeepsSession J watch.crypto watch.credentials sessionId ∧
      ∃ reason, text J node (ascii "reason") false = .ok reason ∧
        TakesDecision watch.onDecision watch.onError read
          (decisionEvent status reason expires) := by
  have hbind : (read.verifyAuthz event.data).bind watch.readDecision =
      watch.readDecision (some node) := by rw [h.verified]; rfl
  rw [DebugWatch.onLine, if_pos ⟨h.blank, h.state⟩, DebugWatch.onState, hbind]
  cases hread : watch.readDecision (some node) with
  | error e =>
    constructor
    · rintro ⟨decision, htold, -⟩
      exact absurd (htold.symm ▸ List.mem_singleton_self _) decision_notMem_reported
    · rintro ⟨hkeeps, reason, hreason, -⟩
      cases hread.symm.trans ((readDecision_iff h).mpr ⟨hkeeps, reason, hreason, rfl⟩)
  | ok decision =>
    obtain ⟨hkeeps, reason, hreason, rfl⟩ := (readDecision_iff h).mp hread
    simp only [tell_iff, hreason, Except.ok.injEq, exists_eq_left', and_iff_right hkeeps]
    constructor
    · rintro ⟨_, ⟨rfl, htakes⟩, -⟩
      exact htakes
    · exact fun htakes => ⟨_, ⟨rfl, htakes⟩, rfl⟩

/-- **When the decisions are delivered**: after any changes of what is kept, for every ticket, every
stream that is opened for it and every line of it that is read, a decision on the session of the
ticket is told, and nothing else, exactly when the last enrollment under the id of the request
answered with the hash of that session, the reason can be read, and there is a listener that takes
the decision. -/
theorem debugWatch_delivers_iff {crypto : Crypto} {changes : List (Change J)} {created : Created J}
    {credentials : J.Node}
    (hkept : debugCredentials changes created.creation.ticket.requestId = some credentials)
    {turn : DebugTurn J} {stream : DebugStream J}
    (hopened : turn.openWebStream (eventsPath created.creation.ticket)
      created.creation.ticket.requestId credentials created.creation.ticket.watchToken =
        .ok stream)
    {watched : List (List Told) × List Told}
    (hwatch : watchDebugRequest crypto (debugCredentials changes) created.creation.ticket turn =
      .ok watched)
    {i : Nat} {read : DebugRead J} (hread : stream.reads[i]? = some read)
    (hreached : i < watched.1.length) {node : J.Node} {status : Bytes} {expires : Int}
    (h : Announces crypto created.creation.ticket created.sessionId read
      (gather ((stream.reads.take i).map (·.line))) node status expires) :
    (∃ decision, watched.1[i]? = some [.decision decision] ∧ decision.state = status) ↔
      (∃ last, lastCreated created.creation.ticket.requestId changes = some last ∧
        KeepsSession J crypto last.creation.credentials created.sessionId) ∧
      ∃ reason, text J node (ascii "reason") false = .ok reason ∧
        TakesDecision turn.onDecision turn.onError read (decisionEvent status reason expires) := by
  obtain ⟨last, hlast, rfl⟩ := debugCredentials_eq_some hkept
  unfold watchDebugRequest at hwatch
  obtain ⟨⟨⟩, -, hwatch⟩ := bind_eq_ok.mp hwatch
  rw [hkept] at hwatch
  obtain rfl := Except.ok.inj hwatch
  rw [hopened, DebugWatch.work] at hreached ⊢
  split at hreached
  · exact absurd hreached (Nat.not_lt_zero i)
  · rename_i haccepted
    rw [if_neg haccepted, loop_lines hread hreached]
    have hline := @onLine_delivers_iff J ⟨crypto, created.creation.ticket,
      last.creation.credentials, turn.onDecision, turn.onError⟩ _ _ _ _ _ _ h
    simp only [hlast, Option.some.injEq, exists_eq_left']
    exact hline

end Watch

/-! A request whose decision is read from one event. -/

/-- SHA-256 of the session id that 32 zero bytes give. -/
def zeroSessionDigest : Bytes :=
  [0x0f, 0x00, 0x73, 0x85, 0xb6, 0xf9, 0xd4, 0xb7, 0xee, 0xb2, 0x74, 0x86, 0x05, 0xaf, 0xe1, 0xa9,
   0x84, 0xa0, 0xa3, 0xbf, 0xa3, 0xf0, 0x14, 0xd0, 0x9e, 0x2a, 0x78, 0x4c, 0xe9, 0xe5, 0xcd, 0x1a]

/-- The answer to the enrollment, with these fields as well. -/
def enrollBody (fields : Bytes) : Bytes :=
  ascii "\x7b\"client_id\":\"c\",\"client_secret\":\"s\"," ++ fields ++
    ascii "\"expires_at\":1300\x7d"

/-- The answer to the creation. -/
def createBody : Bytes :=
  ascii "\x7b\"request_id\":\"00000000-0000-4000-8000-000000000000\"," ++
    ascii "\"watch_token\":\"w\",\"expires_at\":1300\x7d"

/-- The answers that the sample requests are created with, and further fields of the response. -/
def sampleCreate (fields : Bytes) : CreateTurn strictJackson where
  closed := false
  enrollment := .ok (ascii "ticket")
  randomBytes := List.replicate 32 0
  appId := ascii "app"
  releaseId := ascii "release"
  version := ascii "1.0"
  deviceId := .ok (ascii "device")
  sendWeb request := .ok ⟨200, if request.includeDpop then createBody else enrollBody fields⟩
  now := 1000

def sampleTicket : DebugRequestTicket :=
  ⟨ascii "00000000-0000-4000-8000-000000000000", ascii "w", 1300⟩

/-- The response that creates the sample request. -/
def createNode : Json := .object [
  (ascii "expires_at", .unsigned 1300),
  (ascii "request_id", .string (ascii "00000000-0000-4000-8000-000000000000")),
  (ascii "watch_token", .string (ascii "w"))]

theorem readTree_createBody : strictJackson.readTree createBody = .ok createNode := rfl

/-- The request is created under any enrollment whose credentials pass the checks. -/
theorem sampleCreate_returns {fields : Bytes} {credentials : Json}
    (hparse : strictJackson.readTree (enrollBody fields) = .ok credentials)
    (hchecks : checkCredentials strictJackson 1000 credentials = .ok ()) :
    createDebugRequest strictJackson (sampleCreate fields) (some (ascii "note")) =
      .ok ⟨sampleTicket, credentials,
        (sampleCreate fields).create (ascii "device") (ascii "note")⟩ := by
  have henrolled : parse strictJackson (enrollBody fields) (ascii "debug enrollment") =
      .ok credentials := by rw [parse, hparse]
  have hcreated : parse strictJackson createBody (ascii "debug create") = .ok createNode := by
    rw [parse, readTree_createBody]
  have hticket : readTicket strictJackson 1000 createNode = .ok sampleTicket := rfl
  exact bind_eq_ok.mpr ⟨(), rfl, bind_eq_ok.mpr ⟨_, rfl, bind_eq_ok.mpr ⟨_, rfl,
    bind_eq_ok.mpr ⟨_, rfl, bind_eq_ok.mpr ⟨⟨200, enrollBody fields⟩, rfl,
    bind_eq_ok.mpr ⟨(), rfl, bind_eq_ok.mpr ⟨_, henrolled, bind_eq_ok.mpr ⟨(), hchecks,
    bind_eq_ok.mpr ⟨_, rfl, bind_eq_ok.mpr ⟨⟨200, createBody⟩, rfl, bind_eq_ok.mpr ⟨(), rfl,
    bind_eq_ok.mpr ⟨_, hcreated, bind_eq_ok.mpr ⟨_, hticket, rfl⟩⟩⟩⟩⟩⟩⟩⟩⟩⟩⟩⟩⟩

/-- The server keeps the session id to itself. -/
def silentCredentials : Json := .object [
  (ascii "client_id", .string (ascii "c")), (ascii "client_secret", .string (ascii "s")),
  (ascii "expires_at", .unsigned 1300)]

/-- A request whose credentials came without a session id. -/
def silentCreated : Created strictJackson :=
  ⟨sampleCreate [], some (ascii "note"), ⟨sampleTicket, silentCredentials, _⟩,
    sampleCreate_returns rfl rfl⟩

/-- The server sends the session id back. -/
def echoField : Bytes :=
  ascii "\"session_id\":\"AAAAAAAAAAAAAAAAAAAAAAAAAAAAAAAAAAAAAAAAAAA\","

def echoCredentials : Json := .object [
  (ascii "client_id", .string (ascii "c")), (ascii "client_secret", .string (ascii "s")),
  (ascii "expires_at", .unsigned 1300),
  (ascii "session_id", .string (ascii "AAAAAAAAAAAAAAAAAAAAAAAAAAAAAAAAAAAAAAAAAAA"))]

/-- A request whose credentials repeat the session id. -/
def echoCreated : Created strictJackson :=
  ⟨sampleCreate echoField, some (ascii "note"), ⟨sampleTicket, echoCredentials, _⟩,
    sampleCreate_returns rfl rfl⟩

/-- The decision that the sample stream carries. -/
def approvalText : Bytes :=
  ascii "\x7b\"version\":\"debug_decision_v1\"," ++
    ascii "\"request_id\":\"00000000-0000-4000-8000-000000000000\"," ++
    ascii "\"session_id_hash\":\"" ++ hex zeroSessionDigest ++
    ascii "\",\"status\":\"approved\",\"expires_at\":1200\x7d"

/-- SHA-256 of this decision. -/
def approvalDigest : Bytes :=
  [0xab, 0x40, 0x85, 0xf3, 0x49, 0xc8, 0xc6, 0x24, 0xa9, 0x39, 0x28, 0xed, 0x3d, 0xa1, 0x4e, 0xdd,
   0x18, 0x35, 0x16, 0xef, 0xe9, 0x12, 0x0a, 0x90, 0x44, 0xb0, 0xcf, 0x1b, 0xe0, 0x7f, 0x81, 0x67]

def approvalSignature : Bytes :=
  ascii "Ma2w9acNkGIC22xTcV5XCQ8TPri4Yz6q7tvew3S7DJp6m-39fcFYLR3-QzT7g250ZNLUR1nQH76i37vOcbUfBw"

def approvalEnvelope : AuthzEnvelope where
  version := ascii "authz_v3"
  decision := ascii "allow"
  releaseId := ascii "release"
  deviceId := ascii "device"
  nonce := List.replicate 32 0x30
  dataSha256 := hex approvalDigest
  keyId := ascii "k1"
  reason := []
  session := []
  signature := approvalSignature
  issuedAt := 990
  expiresAt := 1200

def approvalContext : AuthzContext :=
  { signedContext with requestNonce := List.replicate 32 0x30 }

/-- SHA-256 and Ed25519 on the texts of the sample. -/
def approvalCrypto : Crypto :=
  listedCrypto [(Base64Url.encode (List.replicate 32 0), zeroSessionDigest),
    (approvalText, approvalDigest)]
    [(signedKey.publicKey, Cpp.canonical approvalContext approvalEnvelope, approvalSignature)]

/-- The decision with its signed envelope, as one line of the stream. -/
def approvalBody : Bytes :=
  ascii "\x7b\"data\":" ++ approvalText ++
    ascii ",\"authz\":\x7b\"version\":\"authz_v3\",\"decision\":\"allow\"," ++
    ascii "\"release_id\":\"release\",\"device_id\":\"device\",\"nonce\":\"" ++
    List.replicate 32 0x30 ++ ascii "\",\"data_sha256\":\"" ++ hex approvalDigest ++
    ascii "\",\"key_id\":\"k1\",\"issued_at\":990,\"expires_at\":1200,\"signature\":\"" ++
    approvalSignature ++ ascii "\"\x7d\x7d"

/-- The data of the decision. -/
def approvalNode : Json := .object [
  (ascii "expires_at", .unsigned 1200),
  (ascii "request_id", .string (ascii "00000000-0000-4000-8000-000000000000")),
  (ascii "session_id_hash", .string (hex zeroSessionDigest)),
  (ascii "status", .string (ascii "approved")),
  (ascii "version", .string (ascii "debug_decision_v1"))]

set_option maxRecDepth 100000 in
theorem verifyAuthz_approval :
    (verifyAuthz strictJackson approvalCrypto (.ok ()) approvalContext ⟨[], 0⟩
      ⟨200, approvalBody⟩).1 = .ok (some approvalNode) := rfl

/-- A line of the stream, with the key ring and the clock of the sample. -/
def approvalRead (line : Bytes) : DebugRead strictJackson where
  stopped := false
  line := line
  verifyAuthz data := (verifyAuthz strictJackson approvalCrypto (.ok ()) approvalContext ⟨[], 0⟩
    ⟨200, data⟩).1
  onDecision _ := .ok ()

theorem approvalRead_verifyAuthz (line data : Bytes) : (approvalRead line).verifyAuthz data =
    (verifyAuthz strictJackson approvalCrypto (.ok ()) approvalContext ⟨[], 0⟩ ⟨200, data⟩).1 := rfl

/-- A stream of that line alone. -/
def approvalStream : DebugStream strictJackson where
  statusCode := 200
  reads := [approvalRead (ascii "event: debug-request-state"),
    approvalRead (ascii "data: " ++ approvalBody), approvalRead []]
  stopped := false
  ending := .null

/-- A stream with one decision. -/
def approvalTurn : DebugTurn strictJackson where
  closed := false
  onDecision := true
  onError := true
  openWebStream _ _ _ _ := .ok approvalStream

set_option maxRecDepth 100000 in
theorem gather_approval : gather ((approvalStream.reads.take 2).map (·.line)) =
    ⟨ascii "debug-request-state", [], approvalBody⟩ := rfl

theorem approval_announced {created : Created strictJackson}
    (hticket : created.creation.ticket = sampleTicket)
    (hsession : created.sessionId = Base64Url.encode (List.replicate 32 0)) :
    Announces approvalCrypto created.creation.ticket created.sessionId (approvalRead [])
      (gather ((approvalStream.reads.take 2).map (·.line))) approvalNode (ascii "approved")
      1200 := by
  rw [gather_approval, hticket, hsession]
  exact {
    blank := rfl
    state := ⟨(List.cons_ne_nil _ _), .inl rfl⟩
    verified := by rw [approvalRead_verifyAuthz, verifyAuthz_approval]
    version := rfl
    request := rfl
    session := ⟨hex zeroSessionDigest, rfl, rfl⟩
    stated := rfl
    allowed := by decide
    dated := rfl
    positive := by decide }

/-- The third line is read. -/
theorem approval_reached (watch : DebugWatch strictJackson) :
    2 < (watch.loop approvalStream approvalStream.reads emptyEvent).1.length := by
  have hfield : ∀ line, line ≠ [] → ∀ event, watch.onLine (approvalRead line) event = ([], true) :=
    fun line hline event => if_neg fun h => hline h.1
  have hstopped : ∀ line, (approvalRead line).stopped = false := fun _ => rfl
  rw [approvalStream]
  simp only [DebugWatch.loop, hstopped, hfield (ascii "event: debug-request-state") (by decide),
    hfield (ascii "data: " ++ approvalBody) (List.cons_ne_nil _ _), Bool.false_eq_true, if_false,
    if_true]
  split <;> exact Nat.lt_succ_self 2

/-- The approval is delivered when the server sends the session id back. -/
theorem approval_delivered : ∃ watched,
    watchDebugRequest approvalCrypto (debugCredentials [.created echoCreated])
      echoCreated.creation.ticket approvalTurn = .ok watched ∧
    ∃ decision, watched.1[2]? = some [.decision decision] ∧
      decision.state = ascii "approved" := by
  refine ⟨_, rfl, ?_⟩
  have hannounced := @approval_announced echoCreated rfl echoCreated.sessionId_eq
  have hdelivers := @debugWatch_delivers_iff strictJackson approvalCrypto [.created echoCreated]
    echoCreated echoCredentials rfl approvalTurn approvalStream rfl _ rfl 2 (approvalRead []) rfl
    (approval_reached _) _ _ _ hannounced
  exact hdelivers.mpr ⟨⟨echoCreated, if_pos rfl, _, rfl, rfl⟩, [], rfl, rfl,
    fun _ _ h => (nomatch h)⟩

/-- **The approval is not delivered** when the server does not: what is reported is that the
response to the enrollment has no session id. -/
theorem approval_lost : ∃ watched,
    watchDebugRequest approvalCrypto (debugCredentials [.created silentCreated])
      silentCreated.creation.ticket approvalTurn = .ok watched ∧
    Announces approvalCrypto silentCreated.creation.ticket silentCreated.sessionId
      (approvalRead []) (gather ((approvalStream.reads.take 2).map (·.line))) approvalNode
      (ascii "approved") 1200 ∧
    ∃ error, .swm error = protocol (ascii "missing JSON field: session_id") ∧
      watched.1[2]? = some [.error error] := by
  have hannounced := @approval_announced silentCreated rfl silentCreated.sessionId_eq
  refine ⟨_, rfl, hannounced, _, rfl, ?_⟩
  have hline := @loop_lines strictJackson ⟨approvalCrypto, sampleTicket, silentCredentials, true,
    true⟩ approvalStream approvalStream.reads emptyEvent 2 (approvalRead []) rfl
    (approval_reached _)
  refine hline.trans (congrArg some ?_)
  rw [DebugWatch.onLine, if_pos ⟨rfl, hannounced.state⟩, DebugWatch.onState]
  have hverified := hannounced.verified
  rw [gather] at hverified
  rw [hverified]
  rfl

end Java
end SwmSdk
