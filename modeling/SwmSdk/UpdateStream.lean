import SwmSdk.Authz

/-! # The update stream

`watch_updates` keeps a connection open on which the server pushes events, and
opens a new one when it breaks.  Nothing is reported before an `authz` event was
verified on the same connection, and each payload that is reported was verified
against the nonce of its connection.

The bytes of a connection are read in pieces of any size (`readLine`), cut into events
(`nextSse`) and handled one by one (`handle`); `watchUpdates` is the whole run, over any
list of attempts to connect, and gives the calls it makes in their order.

The type of an event is a field of the signed data, or else the name of the event
in the stream, which nothing signs.
-/
namespace SwmSdk
namespace Cpp
open ByteText Outcome

/-! ## Server-sent events -/

/-- The stream of a connection: the bytes read but not used, what each further read
returns, and what is thrown after that; an empty read is the end of the stream. -/
structure SseReader where
  pending : Bytes
  chunks : List Bytes
  failure : Option Failure

namespace SseReader

/-- What is left to read, with one more for every chunk. -/
def size (reader : SseReader) : Nat :=
  reader.pending.length + (reader.chunks.map List.length).sum + reader.chunks.length

end SseReader

/-- The bytes up to the first line feed, and those after it. -/
def cutLine (s : Bytes) : Option (Bytes × Bytes) :=
  if newline ∈ s then
    some (s.takeWhile (· ≠ newline), (s.dropWhile (· ≠ newline)).tail)
  else none

/-- A line without the carriage return at its end. -/
def dropReturn (line : Bytes) : Bytes :=
  if line.getLast? = some 0x0d then line.dropLast else line

/-- What `next_sse` throws for an event beyond the limit. -/
def eventTooLarge : Failure :=
  .swm (protocolError (ascii "SSE event exceeds size limit"))

/-- `SseReader::read_line`. -/
def readLine (failure : Option Failure) (pending : Bytes) :
    List Bytes → Except Failure (Option Bytes × SseReader)
  | [] =>
      match cutLine pending with
      | some (line, rest) => .ok (some (dropReturn line), ⟨rest, [], failure⟩)
      | none =>
          match failure with
          | some e => .error e
          | none => .ok (if pending = [] then none else some pending, ⟨[], [], none⟩)
  | chunk :: chunks =>
      match cutLine pending with
      | some (line, rest) => .ok (some (dropReturn line), ⟨rest, chunk :: chunks, failure⟩)
      | none =>
          if chunk = [] then
            .ok (if pending = [] then none else some pending, ⟨[], chunks, failure⟩)
          else if (pending ++ chunk).length > 256 * 1024 then .error eventTooLarge
          else readLine failure (pending ++ chunk) chunks

/-- `ParsedSseEvent`. -/
structure ParsedSseEvent where
  name : Bytes
  id : Bytes
  data : Bytes
  deriving DecidableEq, Repr

/-- `next_sse`, with the fields that were read of the event so far.  A line takes at least
one byte or one read. -/
def nextSse : Nat → ParsedSseEvent → SseReader → Except Failure (Option ParsedSseEvent × SseReader)
  | 0, _, reader => .ok (none, reader)
  | fuel + 1, event, reader =>
      match readLine reader.failure reader.pending reader.chunks with
      | .error e => .error e
      | .ok (none, reader) => .ok (if event.data = [] then none else some event, reader)
      | .ok (some line, reader) =>
          if line = [] then
            if event.data ≠ [] then .ok (some event, reader)
            else nextSse fuel ⟨[], [], []⟩ reader
          else if ascii ":" <+: line then nextSse fuel event reader
          else if ascii "event:" <+: line then
            nextSse fuel { event with name := trimAscii (line.drop 6) } reader
          else if ascii "id:" <+: line then
            nextSse fuel { event with id := trimAscii (line.drop 3) } reader
          else if ascii "data:" <+: line then
            let data := if event.data = [] then [] else event.data ++ [newline]
            nextSse fuel { event with data := data ++ trimAscii (line.drop 5) } reader
          else nextSse fuel event reader

/-- What the loop reports for a stream that ended. -/
def streamClosed : Failure :=
  .swm { kind := .network, statusCode := 0, serviceCode := [],
         message := ascii "update stream closed" }

/-- The events that successive calls of `next_sse` return, and what the last call throws or
makes the loop throw. -/
def sseEvents : Nat → SseReader → List ParsedSseEvent × Failure
  | 0, _ => ([], streamClosed)
  | fuel + 1, reader =>
      match nextSse (reader.size + 1) ⟨[], [], []⟩ reader with
      | .error e => ([], e)
      | .ok (none, _) => ([], streamClosed)
      | .ok (some event, reader) =>
          let more := sseEvents fuel reader
          (event :: more.1, more.2)

/-! ## Events -/

/-- `UpdateEvent`. -/
structure UpdateEvent where
  id : Bytes
  eventType : Bytes
  orgId : Bytes
  appId : Bytes
  deviceId : Bytes
  channelCode : Bytes
  platform : Bytes
  arch : Bytes
  releaseId : Bytes
  publishedAt : Bytes
  reason : Bytes
  message : Bytes
  maintenanceStartAt : Bytes
  deriving DecidableEq, Repr

/-- `event_from_json`. -/
def eventFromJson (value : Json) : Except Error UpdateEvent := do
  let id ← jsonGetString value (ascii "id") false
  let eventType ← jsonGetString value (ascii "event_type") false
  let orgId ← jsonGetString value (ascii "org_id") false
  let appId ← jsonGetString value (ascii "app_id") false
  let deviceId ← jsonGetString value (ascii "device_id") false
  let channelCode ← jsonGetString value (ascii "channel_code") false
  let platform ← jsonGetString value (ascii "platform") false
  let arch ← jsonGetString value (ascii "arch") false
  let releaseId ← jsonGetString value (ascii "release_id") false
  let publishedAt ← jsonGetString value (ascii "published_at") false
  let reason ← jsonGetString value (ascii "reason") false
  let message ← jsonGetString value (ascii "message") false
  let maintenanceStartAt ← jsonGetString value (ascii "maintenance_start_at") false
  .ok {
    id := id, eventType := eventType, orgId := orgId, appId := appId, deviceId := deviceId
    channelCode := channelCode, platform := platform, arch := arch, releaseId := releaseId
    publishedAt := publishedAt, reason := reason, message := message
    maintenanceStartAt := maintenanceStartAt }

/-- The event that is reported: its type and id are those of the stream when the data
has none. -/
def fillEvent (message : ParsedSseEvent) (event : UpdateEvent) : UpdateEvent :=
  { event with
    eventType := if event.eventType = [] then message.name else event.eventType
    id := if event.id = [] then message.id else event.id }

/-- The types that are reported to `on_control`. -/
def isControl (eventType : Bytes) : Prop :=
  eventType = ascii "device_shutdown" ∨ eventType = ascii "maintenance_scheduled" ∨
    eventType = ascii "maintenance_cancelled"

instance (eventType : Bytes) : Decidable (isControl eventType) := by
  unfold isControl
  infer_instance

/-! ## A connection -/

/-- One connection: its nonce, the status of the response and its bytes, and what the
client has while it handles each message: its options, device, time and keys, the
outcome of `note_verified_interaction`, and whether a stop was requested. -/
structure Connection where
  nonce : Bytes
  statusCode : Int
  chunks : List Bytes
  failure : Option Failure
  contexts : Nat → AuthzContext
  notes : Nat → Except Error Unit
  stops : Nat → Bool

namespace Connection

/-- The reader of a connection, before its first line. -/
def reader (connection : Connection) : SseReader := ⟨[], connection.chunks, connection.failure⟩

/-- The events of the connection, and how it ends. -/
def events (connection : Connection) : List ParsedSseEvent × Failure :=
  sseEvents (connection.reader.size + 1) connection.reader

end Connection

/-- The functions the application passes; each may be absent and may throw. -/
structure Callbacks where
  onEvent : Option (UpdateEvent → Except Failure Unit)
  onControl : Option (UpdateEvent → Except Failure Unit)
  onError : Option (Error → Except Failure Unit)

/-- What a run does, with the number of the connection and of the message for which it
reports an event. -/
inductive Action where
  | onControl (connection message : Nat) (event : UpdateEvent)
  | onEvent (connection message : Nat) (event : UpdateEvent)
  | onError (error : Error)
  | sleep (milliseconds : Int)
  deriving DecidableEq

/-- The state of the loop over the messages of a connection. -/
structure StreamState where
  verified : Bool
  session : Session

section Handle
variable (crypto : Crypto) (what : Bytes → Bytes) (callbacks : Callbacks)

/-- `verify_authz` on the payload of a message, against the nonce of the connection. -/
def verifyMessage (connection : Connection) (index : Nat) (session : Session) (payload : Bytes) :
    Except Error Json × Session :=
  verifyAuthz crypto what (connection.notes index)
    { connection.contexts index with requestNonce := connection.nonce } session ⟨200, payload⟩

/-- What the loop reports for status 401. -/
def sessionExpired : Error where
  kind := .session
  statusCode := 401
  serviceCode := ascii "authz_session_expired"
  message := ascii "update stream authorization expired"

/-- Call a callback if there is one. -/
def call (callback : Option (UpdateEvent → Except Failure Unit)) (action : Action)
    (event : UpdateEvent) : List Action × Except Failure Unit :=
  match callback with
  | none => ([], .ok ())
  | some f => ([action], f event)

/-- Report an event: first to `on_control` if it is one of its types, then to `on_event`. -/
def report (number index : Nat) (event : UpdateEvent) : List Action × Except Failure Unit :=
  let control :=
    if isControl event.eventType then
      call callbacks.onControl (.onControl number index event) event
    else ([], .ok ())
  match control.2 with
  | .error e => (control.1, .error e)
  | .ok () =>
      let reported := call callbacks.onEvent (.onEvent number index event) event
      (control.1 ++ reported.1, reported.2)

/-- The body of the loop over the messages. -/
def handle (number : Nat) (connection : Connection) (index : Nat) (state : StreamState)
    (message : ParsedSseEvent) : List Action × Except Failure Unit × StreamState :=
  if message.name = [] ∨ message.data = [] then ([], .ok (), state)
  else if message.name = ascii "authz" then
    match verifyMessage crypto what connection index state.session message.data with
    | (.error e, session) => ([], .error (.swm e), { state with session := session })
    | (.ok _, session) => ([], .ok (), ⟨true, session⟩)
  else if message.name = ascii "authz_expired" then ([], .error (.swm sessionExpired), state)
  else if state.verified = false ∨ message.name = ascii "connected" then ([], .ok (), state)
  else
    match verifyMessage crypto what connection index state.session message.data with
    | (.error e, session) => ([], .error (.swm e), { state with session := session })
    | (.ok data, session) =>
        match eventFromJson data with
        | .error e => ([], .error (.swm e), { state with session := session })
        | .ok event =>
            let reported := report callbacks number index (fillEvent message event)
            (reported.1, reported.2, { state with session := session })

/-- How a connection is left: a stop was requested, or something was thrown. -/
inductive Exit where
  | stopped
  | thrown (failure : Failure)

/-- The loop over the messages of a connection. -/
def listen (number : Nat) (connection : Connection) :
    (index : Nat) → StreamState → List ParsedSseEvent → List Action × Exit × Session
  | index, state, [] =>
      if connection.stops index then ([], .stopped, state.session)
      else ([], .thrown connection.events.2, state.session)
  | index, state, message :: messages =>
      if connection.stops index then ([], .stopped, state.session)
      else
        match handle crypto what callbacks number connection index state message with
        | (actions, .error e, state) => (actions, .thrown e, state.session)
        | (actions, .ok (), state) =>
            let more := listen number connection (index + 1) state messages
            (actions ++ more.1, more.2)

/-! ## The run -/

/-- `UpdateStreamOptions`, as far as the loop reads them; times in milliseconds. -/
structure UpdateStreamOptions where
  reconnect : Bool := true
  reconnectBackoff : Int := 1500
  reconnectMaxBackoff : Int := 20000
  jitter : Bool := true

/-- One turn of the loop: whether a stop was requested before it, what
`open_update_stream` gives, and what the platform contributes to a failure: whether a
stop was requested, the random bytes, and whether a stop is requested in the pause. -/
structure Attempt where
  stopped : Bool
  opened : Except Failure Connection
  stopAtFailure : Bool
  random : Nat
  stopInBackoff : Bool

/-- What the loop reports for another status that is not 200. -/
def streamRejected (statusCode : Int) : Error where
  kind := .api
  statusCode := statusCode
  serviceCode := []
  message := ascii "update stream was rejected"

/-- Errors after which no new connection is opened. -/
def isFatal (kind : ErrorKind) : Bool :=
  kind = .session || kind = .unauthorized || kind = .deviceBlocked || kind = .integrity

/-- The pause before the next connection. -/
def backoff (options : UpdateStreamOptions) (attempt random : Nat) : Int :=
  let delay := min options.reconnectMaxBackoff (options.reconnectBackoff * 2 ^ min attempt 4)
  if options.jitter then
    delay + ((random % ((max 1 (delay.tdiv 2)).toNat % 2 ^ 32) : Nat) : Int)
  else delay

/-- Open a connection and listen to it; the counter of attempts starts again when the
stream was accepted. -/
def connect (number attempt : Nat) (session : Session) (opened : Except Failure Connection) :
    List Action × Exit × Session × Nat :=
  match opened with
  | .error e => ([], .thrown e, session, attempt)
  | .ok connection =>
      if connection.statusCode < 200 ∨ connection.statusCode ≥ 300 then
        ([], .thrown (.swm (streamRejected connection.statusCode)), session, attempt)
      else
        let done := listen crypto what callbacks number connection 0 ⟨false, session⟩
          connection.events.1
        (done.1, done.2.1, done.2.2, 0)

/-- Report an error; whether the run goes on. -/
def reportError (error : Error) : List Action × Bool :=
  match callbacks.onError with
  | none => ([], true)
  | some f =>
      ([.onError error], match f error with
        | .ok _ => true
        | .error _ => false)

/-- `watch_updates`: what the runner does, over the attempts to connect. -/
def watchUpdates (options : UpdateStreamOptions) :
    (number attempt : Nat) → Session → List Attempt → List Action
  | _, _, _, [] => []
  | number, attempt, session, turn :: turns =>
      if turn.stopped then []
      else
        match connect crypto what callbacks number attempt session turn.opened with
        | (actions, .stopped, _, _) => actions
        | (actions, .thrown (.other text), _, _) =>
            actions ++ (reportError callbacks
              (protocolError (ascii "update stream failed: " ++ text))).1
        | (actions, .thrown (.swm error), session, attempt) =>
            let reported := reportError callbacks error
            if reported.2 = false ∨ options.reconnect = false ∨ turn.stopAtFailure = true ∨
                isFatal error.kind = true then
              actions ++ reported.1
            else
              actions ++ (reported.1 ++ (.sleep (backoff options attempt turn.random) ::
                if turn.stopInBackoff then []
                else watchUpdates options (number + 1) (attempt + 1) session turns))

end Handle

/-! ## Nothing is reported before it is verified -/

section Gate
variable {crypto : Crypto} {what : Bytes → Bytes} {callbacks : Callbacks}

/-- The payload of a message passes `verify_authz` with this data; the session of the
client has no part in it. -/
def Verifies (crypto : Crypto) (what : Bytes → Bytes) (connection : Connection) (index : Nat)
    (message : ParsedSseEvent) (data : Json) : Prop :=
  ∀ session, (verifyMessage crypto what connection index session message.data).1 = .ok data

theorem verifies_of_ok {connection : Connection} {index : Nat} {message : ParsedSseEvent}
    {data : Json} {session : Session}
    (h : (verifyMessage crypto what connection index session message.data).1 = .ok data) :
    Verifies crypto what connection index message data := by
  intro other
  rw [← h]
  unfold verifyMessage verifyAuthz
  split
  · rfl
  · dsimp only
    cases connection.notes index with
    | error e => rfl
    | ok u => rfl

/-- An `authz` message before this index was verified. -/
def Admitted (crypto : Crypto) (what : Bytes → Bytes) (connection : Connection)
    (index : Nat) : Prop :=
  ∃ earlier message data, earlier < index ∧ connection.events.1[earlier]? = some message ∧
    message.name = ascii "authz" ∧ Verifies crypto what connection earlier message data

/-- The event is the one of a verified message of the connection. -/
def Reported (crypto : Crypto) (what : Bytes → Bytes) (connection : Connection) (index : Nat)
    (message : ParsedSseEvent) (signed event : UpdateEvent) : Prop :=
  connection.events.1[index]? = some message ∧ event = fillEvent message signed ∧
    ∃ data, Verifies crypto what connection index message data ∧ eventFromJson data = .ok signed

theorem mem_call {callback : Option (UpdateEvent → Except Failure Unit)} {action a : Action}
    {event : UpdateEvent} (h : a ∈ (call callback action event).1) : a = action := by
  unfold call at h
  cases callback with
  | none => exact absurd h List.not_mem_nil
  | some f => exact List.mem_singleton.mp h

theorem mem_report {number index : Nat} {event : UpdateEvent} {a : Action}
    (h : a ∈ (report callbacks number index event).1) :
    (a = .onControl number index event ∧ isControl event.eventType) ∨
      a = .onEvent number index event := by
  have control : ∀ {a}, a ∈ (if isControl event.eventType then
      call callbacks.onControl (.onControl number index event) event
      else ([], .ok ())).1 → a = .onControl number index event ∧ isControl event.eventType := by
    intro a ha
    split at ha
    · rename_i hc
      exact ⟨mem_call ha, hc⟩
    · exact absurd ha List.not_mem_nil
  unfold report at h
  dsimp only at h
  split at h
  · exact .inl (control h)
  · rcases List.mem_append.mp h with h | h
    · exact .inl (control h)
    · exact .inr (mem_call h)

/-- **What one message can do.**  It reports only on an admitted connection and only the
event of its own verified payload; and it admits the connection only if it is an
`authz` message that was verified. -/
theorem handle_cases (number : Nat) (connection : Connection) (index : Nat) (state : StreamState)
    (message : ParsedSseEvent) :
    (∀ a ∈ (handle crypto what callbacks number connection index state message).1,
      state.verified = true ∧ ∃ data signed, Verifies crypto what connection index message data ∧
        eventFromJson data = .ok signed ∧
        ((a = .onControl number index (fillEvent message signed) ∧
            isControl (fillEvent message signed).eventType) ∨
          a = .onEvent number index (fillEvent message signed))) ∧
    ((handle crypto what callbacks number connection index state message).2.2.verified = true →
      state.verified = true ∨
        (message.name = ascii "authz" ∧
          ∃ data, Verifies crypto what connection index message data)) := by
  unfold handle
  split
  · exact ⟨fun a ha => absurd ha List.not_mem_nil, .inl⟩
  split
  · rename_i hname
    split
    · exact ⟨fun a ha => absurd ha List.not_mem_nil, .inl⟩
    · rename_i data session hverify
      refine ⟨fun a ha => absurd ha List.not_mem_nil, fun _ => .inr ⟨hname, data, ?_⟩⟩
      exact verifies_of_ok (by rw [hverify])
  split
  · exact ⟨fun a ha => absurd ha List.not_mem_nil, .inl⟩
  split
  · exact ⟨fun a ha => absurd ha List.not_mem_nil, .inl⟩
  -- any other message is dropped as long as the connection is not admitted
  rename_i hverified
  have hstate : state.verified = true := by
    by_contra hv
    exact hverified (.inl (by simpa using hv))
  split
  · exact ⟨fun a ha => absurd ha List.not_mem_nil, .inl⟩
  · rename_i data session hverify
    split
    · exact ⟨fun a ha => absurd ha List.not_mem_nil, .inl⟩
    · rename_i signed hsigned
      refine ⟨fun a ha => ⟨hstate, data, signed, verifies_of_ok (by rw [hverify]), hsigned, ?_⟩, .inl⟩
      exact mem_report ha

/-- What may be said of every action on a connection. -/
def Gated (crypto : Crypto) (what : Bytes → Bytes) (number : Nat) (connection : Connection)
    (action : Action) : Prop :=
  ∃ index message signed event, Admitted crypto what connection index ∧
    Reported crypto what connection index message signed event ∧
    ((action = .onControl number index event ∧ isControl event.eventType) ∨
      action = .onEvent number index event)

/-- **Every message of a connection**, from the state that the messages before it led to. -/
theorem listen_gated {number : Nat} {connection : Connection} (messages : List ParsedSseEvent) :
    ∀ (index : Nat) (state : StreamState), connection.events.1.drop index = messages →
      (state.verified = true → Admitted crypto what connection index) →
      ∀ a ∈ (listen crypto what callbacks number connection index state messages).1,
        Gated crypto what number connection a := by
  induction messages with
  | nil =>
    intro index state _ _ a ha
    rw [listen] at ha
    split at ha
    · exact absurd ha List.not_mem_nil
    · exact absurd ha List.not_mem_nil
  | cons message messages ih =>
    intro index state hdrop hadmitted a ha
    have hget : connection.events.1[index]? = some message := by
      have := congrArg List.head? hdrop
      rwa [List.head?_drop, List.head?_cons] at this
    have hnext : connection.events.1.drop (index + 1) = messages := by
      rw [← List.tail_drop, hdrop, List.tail_cons]
    obtain ⟨hactions, hstate⟩ := @handle_cases crypto what callbacks number connection index
      state message
    -- what the message reports itself, and what it admits for those behind it
    have hhead : ∀ a ∈ (handle crypto what callbacks number connection index state message).1,
        Gated crypto what number connection a := by
      intro a ha
      obtain ⟨hverified, data, signed, hpass, hsigned, hcall⟩ := hactions a ha
      exact ⟨index, message, signed, _, hadmitted hverified,
        ⟨hget, rfl, data, hpass, hsigned⟩, hcall⟩
    have hlater : (handle crypto what callbacks number connection index state message).2.2.verified =
        true → Admitted crypto what connection (index + 1) := by
      intro hv
      rcases hstate hv with hv | ⟨hname, data, hpass⟩
      · obtain ⟨earlier, m, data, hlt, hrest⟩ := hadmitted hv
        exact ⟨earlier, m, data, Nat.lt_succ_of_lt hlt, hrest⟩
      · exact ⟨index, message, data, Nat.lt_succ_self _, hget, hname, hpass⟩
    rw [listen] at ha
    split at ha
    · exact absurd ha List.not_mem_nil
    · split at ha
      · rename_i actions e state' hh
        rw [hh] at hhead
        exact hhead a ha
      · rename_i actions state' hh
        rw [hh] at hhead hlater
        rcases List.mem_append.mp ha with ha | ha
        · exact hhead a ha
        · exact ih (index + 1) state' hnext hlater a ha

/-- What may be said of every action of a run: an event is reported on a connection that
was admitted, and is that of a verified message of this connection. -/
def RunGated (crypto : Crypto) (what : Bytes → Bytes) (turns : List Attempt)
    (first : Nat) (action : Action) : Prop :=
  (∃ error, action = .onError error) ∨ (∃ pause, action = .sleep pause) ∨
  ∃ offset turn connection, turns[offset]? = some turn ∧ turn.opened = .ok connection ∧
    Gated crypto what (first + offset) connection action

theorem connect_gated {number attempt : Nat} {session : Session}
    {opened : Except Failure Connection} {a : Action}
    (h : a ∈ (connect crypto what callbacks number attempt session opened).1) :
    ∃ connection, opened = .ok connection ∧ Gated crypto what number connection a := by
  unfold connect at h
  split at h
  · exact absurd h List.not_mem_nil
  · rename_i connection
    split at h
    · exact absurd h List.not_mem_nil
    · refine ⟨connection, rfl, listen_gated _ 0 _ rfl (fun hv => ?_) a h⟩
      cases hv

theorem mem_reportError {error : Error} {a : Action} (h : a ∈ (reportError callbacks error).1) :
    a = .onError error := by
  unfold reportError at h
  split at h
  · exact absurd h List.not_mem_nil
  · exact List.mem_singleton.mp h

/-- **Every action of every run is gated.** -/
theorem watchUpdates_runGated {options : UpdateStreamOptions} (turns : List Attempt) :
    ∀ (number attempt : Nat) (session : Session),
      ∀ a ∈ watchUpdates crypto what callbacks options number attempt session turns,
        RunGated crypto what turns number a := by
  induction turns with
  | nil => exact fun _ _ _ a ha => absurd ha List.not_mem_nil
  | cons turn turns ih =>
    intro number attempt session a ha
    have hhere : ∀ a ∈ (connect crypto what callbacks number attempt session turn.opened).1,
        RunGated crypto what (turn :: turns) number a := by
      intro a ha
      obtain ⟨connection, hopened, hgated⟩ := connect_gated ha
      exact .inr (.inr ⟨0, turn, connection, rfl, hopened, hgated⟩)
    have herror : ∀ error, ∀ a ∈ (reportError callbacks error).1,
        RunGated crypto what (turn :: turns) number a :=
      fun error a ha => .inl ⟨error, mem_reportError ha⟩
    rw [watchUpdates] at ha
    split at ha
    · exact absurd ha List.not_mem_nil
    · split at ha
      · rename_i actions _ _ hconnect
        rw [hconnect] at hhere
        exact hhere a ha
      · rename_i actions text _ _ hconnect
        rw [hconnect] at hhere
        rcases List.mem_append.mp ha with ha | ha
        · exact hhere a ha
        · exact herror _ a ha
      · rename_i actions error session' attempt' hconnect
        rw [hconnect] at hhere
        dsimp only at ha
        split at ha
        · rcases List.mem_append.mp ha with ha | ha
          · exact hhere a ha
          · exact herror _ a ha
        · rcases List.mem_append.mp ha with ha | ha
          · exact hhere a ha
          rcases List.mem_append.mp ha with ha | ha
          · exact herror _ a ha
          rcases List.mem_cons.mp ha with rfl | ha
          · exact .inr (.inl ⟨_, rfl⟩)
          · split at ha
            · exact absurd ha List.not_mem_nil
            -- the connections of the later turns are counted from the next number
            · rcases ih _ _ _ a ha with h | h | ⟨offset, turn', connection, hturn, hopened, hgated⟩
              · exact .inl h
              · exact .inr (.inl h)
              · refine .inr (.inr ⟨offset + 1, turn', connection, hturn, hopened, ?_⟩)
                rw [Nat.add_right_comm] at hgated
                exact hgated

/-- **Update-stream gating.**  In every run, an event is reported only on a connection on
which an `authz` message was verified before; it is the event of a message of that
connection whose payload passes `verify_authz` against the nonce of the
connection; and it is reported to `on_control` only when the event type of the data,
or else the name of the message, is one of the control types. -/
theorem watchUpdates_gated (crypto : Crypto) (what : Bytes → Bytes) (callbacks : Callbacks)
    (options : UpdateStreamOptions) (session : Session) (turns : List Attempt)
    (number index : Nat) (event : UpdateEvent) (action : Action)
    (hmem : action ∈ watchUpdates crypto what callbacks options 0 0 session turns)
    (haction : action = .onEvent number index event ∨ action = .onControl number index event) :
    ∃ turn connection message signed, turns[number]? = some turn ∧
      turn.opened = .ok connection ∧ Admitted crypto what connection index ∧
      Reported crypto what connection index message signed event ∧
      (action = .onControl number index event →
        isControl (if signed.eventType = [] then message.name else signed.eventType)) := by
  rcases watchUpdates_runGated turns 0 0 session action hmem with ⟨e, rfl⟩ | ⟨p, rfl⟩ | h
  · rcases haction with h | h <;> cases h
  · rcases haction with h | h <;> cases h
  obtain ⟨offset, turn, connection, hturn, hopened, i, message, signed, event', hadmitted,
    hreported, hcase⟩ := h
  rw [Nat.zero_add] at hcase
  rcases hcase with ⟨rfl, hcontrol⟩ | rfl
  · rcases haction with h | h
    · cases h
    · obtain ⟨rfl, rfl, rfl⟩ := Action.onControl.inj h
      refine ⟨turn, connection, message, signed, hturn, hopened, hadmitted, hreported, fun _ => ?_⟩
      rw [hreported.2.1] at hcontrol
      exact hcontrol
  · rcases haction with h | h
    · obtain ⟨rfl, rfl, rfl⟩ := Action.onEvent.inj h
      refine ⟨turn, connection, message, signed, hturn, hopened, hadmitted, hreported, ?_⟩
      intro he
      cases he
    · cases h

end Gate

/-! A stream that sends the signed response twice, the second time under a name that
nobody signed. -/

/-- A stream with the envelope of the session, and a signed shutdown. -/
def sampleStream : Bytes :=
  ascii "event: authz\ndata: " ++ (signedResponse (ascii "\"data\":1")).body ++
    ascii "\n\nevent: device_shutdown\ndata: " ++ (signedResponse (ascii "\"data\":1")).body ++
    ascii "\n\n"

def sampleConnection : Connection where
  nonce := ascii "nonce"
  statusCode := 200
  chunks := [sampleStream]
  failure := none
  contexts _ := signedContext
  notes _ := .ok ()
  stops _ := false

def sampleAttempt : Attempt := ⟨false, .ok sampleConnection, false, 0, true⟩

/-- Callbacks that do nothing. -/
def sampleCallbacks : Callbacks where
  onEvent := some fun _ => .ok ()
  onControl := some fun _ => .ok ()
  onError := none

def sampleEvent : UpdateEvent :=
  ⟨[], ascii "device_shutdown", [], [], [], [], [], [], [], [], [], [], []⟩

/-- What is known of the report of the second message. -/
theorem watchUpdates_gated_sample :
    ∃ turn connection message signed, [sampleAttempt][0]? = some turn ∧
      turn.opened = .ok connection ∧ Admitted signedCrypto id connection 1 ∧
      Reported signedCrypto id connection 1 message signed sampleEvent ∧
      (Action.onControl 0 1 sampleEvent = .onControl 0 1 sampleEvent →
        isControl (if signed.eventType = [] then message.name else signed.eventType)) :=
  watchUpdates_gated signedCrypto id sampleCallbacks {} ⟨[], 0⟩ [sampleAttempt] 0 1 sampleEvent
    (.onControl 0 1 sampleEvent) (by decide +kernel) (.inr rfl)

/-- Data that is a number has no event type. -/
theorem eventFromJson_unsigned {n : Nat} {event : UpdateEvent}
    (h : eventFromJson (.unsigned n) = .ok event) : event.eventType = [] := by
  obtain rfl := Except.ok.inj h
  rfl

/-- A control event is reported whose type is in the name of the message only. -/
theorem control_type_unsigned :
    ¬ ∀ (crypto : Crypto) (what : Bytes → Bytes) (callbacks : Callbacks)
      (options : UpdateStreamOptions) (session : Session) (turns : List Attempt)
      (number index : Nat) (event : UpdateEvent),
      .onControl number index event ∈
        watchUpdates crypto what callbacks options 0 0 session turns →
      ∃ turn connection message signed, turns[number]? = some turn ∧
        turn.opened = .ok connection ∧ Reported crypto what connection index message signed event ∧
        isControl signed.eventType := by
  intro h
  obtain ⟨turn, connection, message, signed, hturn, hopened, ⟨hmessage, -, data, hdata, hsigned⟩,
    hcontrol⟩ := h signedCrypto id sampleCallbacks {} ⟨[], 0⟩ [sampleAttempt] 0 1 sampleEvent
      (by decide +kernel)
  obtain rfl : sampleAttempt = turn := Option.some.inj hturn
  obtain rfl : sampleConnection = connection := Except.ok.inj hopened
  have hevent : sampleConnection.events.1[1]? =
      some ⟨ascii "device_shutdown", [], (signedResponse (ascii "\"data\":1")).body⟩ := by
    decide +kernel
  obtain rfl := Option.some.inj (hevent.symm.trans hmessage)
  have hone := of_returns (show returns (ascii "\"data\":1") 1 = true by decide +kernel)
  obtain rfl : data = .unsigned 1 := Except.ok.inj ((hdata ⟨[], 0⟩).symm.trans hone)
  rw [eventFromJson_unsigned hsigned] at hcontrol
  exact absurd hcontrol (by decide)

end Cpp
end SwmSdk
