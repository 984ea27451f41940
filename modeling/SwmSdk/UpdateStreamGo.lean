import SwmSdk.RetryAfter

/-! # The update iterator of Go

`WatchUpdates` hands events to the consumer through `yield`, which asks for an end by answering
false, and opens the stream again when it breaks.  Its documentation promises that a terminal
error is yielded once before the sequence ends (`Protocol`).

The connections, the answers of the consumer and the end of the context are inputs.  A pass over
one stream yields events only and stops at the first answer that is false (`readStream_yields`);
the loop keeps the promise exactly when the context breaks off none of its pauses
(`watchUpdates_iff`).
-/
namespace SwmSdk
namespace Go
open ByteText

/-! ## One stream -/

/-- `UpdateEvent`, as far as the iterator fills it in. -/
structure UpdateEvent where
  id : Bytes
  eventType : Bytes
  deriving DecidableEq, Repr

/-- An error, as far as the iterator looks at it. -/
inductive StreamError
  | sdk (error : Error)
  | canceled
  | deadlineExceeded
  | other (message : Bytes)
  deriving DecidableEq, Repr

/-- What is handed to the consumer. -/
inductive Yield
  | event (event : UpdateEvent)
  | error (error : StreamError)
  deriving DecidableEq, Repr

/-- The response to the request for a stream: `rejection` is what `throwIfError` makes of it
if its status is no success, `verify` is `verifyAuthz` with so many lines to come. -/
structure StreamResponse where
  status : Int
  rejection : Error
  body : Bytes
  readError : StreamError
  verify : Nat → Bytes → Except StreamError Bytes
  unmarshal : Bytes → Except StreamError UpdateEvent

/-- The fields of a message that were read so far. -/
structure SseFields where
  name : Bytes
  id : Bytes
  dataLines : List Bytes

/-- An error of the SDK that the stream yields. -/
def updateError (kind : ErrorKind) (code message : String) : StreamError :=
  .sdk (newError kind code message)

/-- What the stream yields for status 401. -/
def authzExpired : StreamError :=
  updateError .session "authz_session_expired" "update stream authorization expired"

/-- `parseSSEMessage`: the event, if there is one, and whether something was verified. -/
def parseSSEMessage (verify : Bytes → Except StreamError Bytes)
    (unmarshal : Bytes → Except StreamError UpdateEvent) (fields : SseFields)
    (authzVerified : Bool) : Except StreamError (Option UpdateEvent × Bool) :=
  if fields.dataLines = [] ∨ equalFold fields.name (ascii "connected") then .ok (none, false)
  else
    let data := [newline].intercalate fields.dataLines
    if equalFold fields.name (ascii "authz_expired") ∨
        equalFold fields.name (ascii "authz-expired") then .error authzExpired
    else if equalFold fields.name (ascii "authz") then
      match verify data with
      | .error e => .error e
      | .ok _ => .ok (none, true)
    else if ¬ authzVerified then .ok (none, false)
    else do
      let verified ← verify data
      let event ← unmarshal verified
      .ok (some {
        id := if event.id = [] then fields.id else event.id
        eventType := if event.eventType = [] then fields.name else event.eventType }, true)

/-- `strings.TrimSuffix` of a carriage return. -/
def trimReturn (line : Bytes) : Bytes :=
  if line.getLast? = some 0x0d then line.dropLast else line

/-- What the switch over the fields does with a line. -/
def SseFields.add (fields : SseFields) (line : Bytes) : SseFields :=
  if ascii "event:" <+: line then { fields with name := trimSpace (line.drop 6) }
  else if ascii "id:" <+: line then { fields with id := trimSpace (line.drop 3) }
  else if ascii "data:" <+: line then
    { fields with dataLines := fields.dataLines ++ [trimSpace (line.drop 5)] }
  else fields

/-- How a pass over a stream ends: the consumer stopped it, or it failed. -/
inductive ReadEnd
  | stopped
  | failed (error : StreamError)
  deriving DecidableEq, Repr

/-- The loop over the lines of a stream.  `consumer` is the answer to each call of `yield`,
counted over the whole iteration, whose calls so far are given. -/
def readLines (consumer : Nat → Bool) (response : StreamResponse) :
    List Bytes → SseFields → Bool → List Yield → List Yield × ReadEnd
  | [], _, authzVerified, yields =>
      if response.readError = .canceled ∨ response.readError = .deadlineExceeded then
        (yields, .failed response.readError)
      else if ¬ authzVerified then
        (yields, .failed (updateError .unauthorized "authz_invalid"
          "update stream closed before authorization"))
      else
        (yields, .failed (updateError .network "stream_closed" "update stream closed by server"))
  | line :: lines, fields, authzVerified, yields =>
      let line := trimReturn line
      if ascii ":" <+: line then readLines consumer response lines fields authzVerified yields
      else if line = [] then
        match parseSSEMessage (response.verify lines.length) response.unmarshal fields
            authzVerified with
        | .error e => (yields, .failed e)
        | .ok (none, verified) =>
            readLines consumer response lines ⟨[], [], []⟩ (authzVerified || verified) yields
        | .ok (some event, verified) =>
            if ¬ consumer yields.length then (yields ++ [.event event], .stopped)
            else
              readLines consumer response lines ⟨[], [], []⟩ (authzVerified || verified)
                (yields ++ [.event event])
      else readLines consumer response lines (fields.add line) authzVerified yields

/-- What successive calls of `ReadString` return without their line feeds. -/
def readStrings (body : Bytes) : List Bytes :=
  let parts := body.splitOn newline
  if parts.getLast? = some [] then parts.dropLast else parts

/-- `readUpdateStreamOnce`, from the outcome of the request on. -/
def readUpdateStreamOnce (consumer : Nat → Bool) (opened : Except StreamError StreamResponse)
    (yields : List Yield) : List Yield × ReadEnd :=
  match opened with
  | .error e => (yields, .failed e)
  | .ok response =>
      if response.status < 200 ∨ response.status ≥ 300 then
        (yields, .failed (.sdk response.rejection))
      else readLines consumer response (readStrings response.body) ⟨[], [], []⟩ false yields

/-! ## The loop -/

/-- `shouldReconnectUpdate`. -/
def shouldReconnectUpdate : StreamError → Bool
  | .sdk error =>
      match error.kind with
      | .deviceBlocked | .unsupportedVersion | .updateRegionBlocked | .unauthorized
      | .integrity => false
      | _ => true
  | _ => true

/-- `UpdateStreamOptions`, with durations in nanoseconds. -/
structure UpdateStreamOptions where
  reconnect : Bool
  reconnectBackoff : Int
  reconnectMaxBackoff : Int
  jitter : Bool

/-- The defaults that `WatchUpdates` fills in. -/
def UpdateStreamOptions.filled (options : UpdateStreamOptions) : UpdateStreamOptions :=
  { options with
    reconnectBackoff :=
      if options.reconnectBackoff ≤ 0 then 1500000000 else options.reconnectBackoff
    reconnectMaxBackoff :=
      if options.reconnectMaxBackoff ≤ 0 then 20000000000 else options.reconnectMaxBackoff }

/-- `cycleRetryDelay`. -/
def cycleRetryDelay : Nat → Int
  | 0 => 1500000000
  | 1 => 3000000000
  | 2 => 6000000000
  | _ => 20000000000

/-- The pause after an attempt; `drawn` is the number that `rand.Int63n` reduces. -/
def updateDelay (options : UpdateStreamOptions) (attempt drawn : Nat) : Int :=
  let baseDelay := if attempt > 0 then cycleRetryDelay attempt else options.reconnectBackoff
  let delay := if baseDelay > options.reconnectMaxBackoff then options.reconnectMaxBackoff
    else baseDelay
  let half := delay.tdiv 2
  if options.jitter ∧ half > 0 then duration (delay + drawn % half) else delay

/-- `sleepContext`: the pause is broken off if the context is done before the timer. -/
def sleepBroken (delay : Int) (contextDone : Bool) : Bool := ¬ delay ≤ 0 ∧ contextDone

/-- What is outside the client in one turn of the loop. -/
structure WatchTurn where
  opened : Except StreamError StreamResponse
  drawn : Nat
  contextDone : Bool

/-- The calls of `yield` so far, and whether the sequence has ended. -/
structure Iteration where
  yields : List Yield
  ended : Bool
  deriving DecidableEq, Repr

section Watch
variable (options : UpdateStreamOptions) (consumer : Nat → Bool) (turns : Nat → WatchTurn)

/-- So many turns of the loop, from an attempt on. -/
def watchLoop : Nat → Nat → List Yield → Iteration
  | 0, _, yields => ⟨yields, false⟩
  | n + 1, attempt, yields =>
      match readUpdateStreamOnce consumer (turns attempt).opened yields with
      | (yields, .stopped) => ⟨yields, true⟩
      | (yields, .failed e) =>
          if ¬ options.reconnect ∨ ¬ shouldReconnectUpdate e then ⟨yields ++ [.error e], true⟩
          else if sleepBroken (updateDelay options attempt (turns attempt).drawn)
              (turns attempt).contextDone then ⟨yields, true⟩
          else watchLoop n (attempt + 1) yields

/-- `WatchUpdates`, for so many turns; `checked` is the outcome of `checkOpen`. -/
def watchUpdates (checked : Except StreamError Unit) (n : Nat) : Iteration :=
  match checked with
  | .error e => ⟨[.error e], true⟩
  | .ok () => watchLoop options.filled consumer turns n 0 []

end Watch

/-! ## What a pass yields -/

/-- The calls of `yield` from one number up to another were answered true. -/
def Accepted (consumer : Nat → Bool) (low high : Nat) : Prop :=
  ∀ k, low ≤ k → k < high → consumer k = true

/-- What a pass does to the calls so far: it adds events, and the only answer that may be false
is that to the last one, which then stops it. -/
structure PassYields (consumer : Nat → Bool) (before after : List Yield) (ending : ReadEnd) :
    Prop where
  events : ∃ events : List UpdateEvent, after = before ++ events.map .event
  failed : ∀ e, ending = .failed e → Accepted consumer before.length after.length
  stopped : ending = .stopped → before.length < after.length ∧
    Accepted consumer before.length (after.length - 1) ∧ consumer (after.length - 1) = false

theorem PassYields.unchanged (consumer : Nat → Bool) (yields : List Yield) (e : StreamError) :
    PassYields consumer yields yields (.failed e) where
  events := ⟨[], (List.append_nil _).symm⟩
  failed _ _ k hlow hhigh := absurd hhigh (Nat.not_lt.mpr hlow)
  stopped h := by cases h

/-- An event that the consumer accepts before the rest of a pass. -/
theorem PassYields.cons {consumer : Nat → Bool} {before after : List Yield} {ending : ReadEnd}
    {event : UpdateEvent} (hevent : consumer before.length = true)
    (h : PassYields consumer (before ++ [.event event]) after ending) :
    PassYields consumer before after ending := by
  obtain ⟨events, hevents⟩ := h.events
  have hlength : (before ++ [Yield.event event]).length = before.length + 1 := List.length_append ..
  have hfirst : ∀ high, Accepted consumer (before.length + 1) high →
      Accepted consumer before.length high := by
    intro high haccepted k hlow hhigh
    rcases Nat.eq_or_lt_of_le hlow with rfl | hlt
    · exact hevent
    · exact haccepted k hlt hhigh
  refine ⟨⟨event :: events, ?_⟩, fun e he => ?_, fun he => ?_⟩
  · rw [hevents, List.append_assoc]
    rfl
  · have haccepted := h.failed e he
    rw [hlength] at haccepted
    exact hfirst _ haccepted
  · obtain ⟨hless, haccepted, hlast⟩ := h.stopped he
    rw [hlength] at hless haccepted
    exact ⟨by omega, hfirst _ haccepted, hlast⟩

theorem readLines_yields (consumer : Nat → Bool) (response : StreamResponse) (lines : List Bytes)
    (fields : SseFields) (authzVerified : Bool) (yields : List Yield) :
    PassYields consumer yields
      (readLines consumer response lines fields authzVerified yields).1
      (readLines consumer response lines fields authzVerified yields).2 := by
  induction lines generalizing fields authzVerified yields with
  | nil =>
    rw [readLines]
    split
    · exact .unchanged ..
    · split
      · exact .unchanged ..
      · exact .unchanged ..
  | cons line lines ih =>
    rw [readLines]
    by_cases hcomment : ascii ":" <+: trimReturn line
    · rw [if_pos hcomment]
      exact ih ..
    · rw [if_neg hcomment]
      by_cases hempty : trimReturn line = []
      · rw [if_pos hempty]
        cases hparsed : parseSSEMessage (response.verify lines.length) response.unmarshal fields
            authzVerified with
        | error e => exact .unchanged ..
        | ok parsed =>
          obtain ⟨event, verified⟩ := parsed
          cases event with
          | none => exact ih ..
          | some event =>
            dsimp only
            by_cases haccepted : consumer yields.length = true
            · rw [if_neg (not_not_intro haccepted)]
              exact .cons haccepted (ih ..)
            · rw [if_pos haccepted]
              refine ⟨⟨[event], rfl⟩, (fun e he => by cases he), fun _ => ?_⟩
              rw [List.length_append, List.length_singleton, Nat.add_sub_cancel]
              exact ⟨Nat.lt_succ_self _, fun k hlow hhigh => absurd hhigh (Nat.not_lt.mpr hlow),
                eq_false_of_ne_true haccepted⟩
      · rw [if_neg hempty]
        exact ih ..

/-- **A pass over one stream** adds events until it fails or an answer is false. -/
theorem readStream_yields (consumer : Nat → Bool) (opened : Except StreamError StreamResponse)
    (yields : List Yield) :
    PassYields consumer yields (readUpdateStreamOnce consumer opened yields).1
      (readUpdateStreamOnce consumer opened yields).2 := by
  cases opened with
  | error e => exact .unchanged ..
  | ok response =>
    rw [readUpdateStreamOnce]
    by_cases hstatus : response.status < 200 ∨ response.status ≥ 300
    · rw [if_pos hstatus]
      exact .unchanged ..
    · rw [if_neg hstatus]
      exact readLines_yields ..

/-! ## What a run yields -/

/-- The protocol of the iterator: no call of `yield` after one that was answered false, and if
the sequence has ended and no answer was false, one error was yielded, after all events. -/
structure Protocol (consumer : Nat → Bool) (iteration : Iteration) : Prop where
  last : ∀ k < iteration.yields.length, consumer k = false → k + 1 = iteration.yields.length
  terminal : iteration.ended = true → Accepted consumer 0 iteration.yields.length →
    ∃ (events : List UpdateEvent) (error : StreamError),
      iteration.yields = events.map .event ++ [.error error]

section Run
variable (options : UpdateStreamOptions) (consumer : Nat → Bool) (turns : Nat → WatchTurn)

/-- The calls of `yield` before a pass, if none of the passes before it ends the sequence. -/
def yieldsBefore : Nat → List Yield
  | 0 => []
  | attempt + 1 =>
      (readUpdateStreamOnce consumer (turns attempt).opened (yieldsBefore attempt)).1

/-- How a pass ends, if none of the passes before it ends the sequence. -/
def passEnd (attempt : Nat) : ReadEnd :=
  (readUpdateStreamOnce consumer (turns attempt).opened (yieldsBefore consumer turns attempt)).2

/-- A pass fails with an error after which the stream is opened again. -/
def Reconnects (attempt : Nat) : Prop :=
  ∃ e, passEnd consumer turns attempt = .failed e ∧ options.reconnect = true ∧
    shouldReconnectUpdate e = true

/-- The run comes to the pause after an attempt, and the context is done before its end. -/
def PauseBroken (attempt : Nat) : Prop :=
  (∀ j ≤ attempt, Reconnects options consumer turns j) ∧
    0 < updateDelay options.filled attempt (turns attempt).drawn ∧
    (turns attempt).contextDone = true

variable {options consumer turns}

theorem protocol_of_error {events : List UpdateEvent} (e : StreamError)
    (h : Accepted consumer 0 events.length) :
    Protocol consumer ⟨events.map .event ++ [.error e], true⟩ where
  last k hk hfalse := by
    rw [List.length_append, List.length_map, List.length_singleton] at hk ⊢
    by_contra hlast
    rw [h k (Nat.zero_le _) (by omega)] at hfalse
    cases hfalse
  terminal _ _ := ⟨events, e, rfl⟩

/-- Events that were accepted, and those of a pass that failed. -/
theorem PassYields.accepted {events : List UpdateEvent} {after : List Yield} {e : StreamError}
    (h : PassYields consumer (events.map .event) after (.failed e))
    (haccepted : Accepted consumer 0 events.length) :
    ∃ all : List UpdateEvent, after = all.map .event ∧ Accepted consumer 0 all.length := by
  obtain ⟨more, hmore⟩ := h.events
  have hnew := h.failed e rfl
  rw [hmore, List.length_append, List.length_map, List.length_map] at hnew
  refine ⟨events ++ more, by rw [hmore, List.map_append], fun k hlow hhigh => ?_⟩
  rw [List.length_append] at hhigh
  rcases Nat.lt_or_ge k events.length with hold | hlater
  · exact haccepted k hlow hold
  · exact hnew k hlater hhigh

/-- Before a pass there were only events, which the consumer accepted. -/
theorem yieldsBefore_events {attempt : Nat}
    (h : ∀ j < attempt, Reconnects options consumer turns j) :
    ∃ events : List UpdateEvent, yieldsBefore consumer turns attempt = events.map .event ∧
      Accepted consumer 0 events.length := by
  induction attempt with
  | zero => exact ⟨[], rfl, fun k _ hk => absurd hk (Nat.not_lt_zero k)⟩
  | succ attempt ih =>
    obtain ⟨events, hbefore, haccepted⟩ := ih fun j hj => h j (Nat.lt_succ_of_lt hj)
    have hpass := readStream_yields consumer (turns attempt).opened
      (yieldsBefore consumer turns attempt)
    obtain ⟨e, hfailed, -, -⟩ := h attempt (Nat.lt_succ_self attempt)
    rw [passEnd] at hfailed
    rw [hfailed, hbefore] at hpass
    rw [yieldsBefore, hbefore]
    exact hpass.accepted haccepted

/-- A run whose last answer was false ends there. -/
theorem protocol_of_stopped {yields : List Yield} {start : Nat}
    (hstart : Accepted consumer 0 start) (hrest : Accepted consumer start (yields.length - 1))
    (hlast : consumer (yields.length - 1) = false) (hne : start < yields.length) :
    Protocol consumer ⟨yields, true⟩ where
  last k hk hfalse := by
    dsimp only at hk ⊢
    by_contra hother
    have htrue : consumer k = true := by
      rcases Nat.lt_or_ge k start with hold | hnew
      · exact hstart k (Nat.zero_le _) hold
      · exact hrest k hnew (by omega)
    rw [htrue] at hfalse
    cases hfalse
  terminal _ hall := by
    dsimp only at hall
    rw [hall (yields.length - 1) (Nat.zero_le _) (by omega)] at hlast
    cases hlast

/-- A run that ends with events only breaks the protocol. -/
theorem not_protocol_of_events {events : List UpdateEvent}
    (h : Accepted consumer 0 events.length) :
    ¬ Protocol consumer ⟨events.map .event, true⟩ := by
  intro hprotocol
  have haccepted : Accepted consumer 0 (events.map Yield.event).length := by
    rw [List.length_map]
    exact h
  obtain ⟨others, e, heq⟩ := hprotocol.terminal rfl haccepted
  have hmem : Yield.error e ∈ events.map Yield.event := by
    dsimp only at heq
    rw [heq]
    exact List.mem_append_right _ (List.mem_singleton_self _)
  obtain ⟨event, -, hcontra⟩ := List.mem_map.mp hmem
  cases hcontra

/-- The loop from a pass on, if the run comes to it. -/
theorem watchLoop_iff {n attempt : Nat} (h : ∀ j < attempt, Reconnects options consumer turns j) :
    Protocol consumer
        (watchLoop options.filled consumer turns n attempt (yieldsBefore consumer turns attempt)) ↔
      ∀ k, attempt ≤ k → k < attempt + n → ¬ PauseBroken options consumer turns k := by
  induction n generalizing attempt with
  | zero =>
    obtain ⟨events, hbefore, haccepted⟩ := yieldsBefore_events h
    refine iff_of_true ⟨fun k hk hfalse => ?_, fun hended => by cases hended⟩ fun k hlow hhigh =>
      absurd hhigh (Nat.not_lt.mpr hlow)
    rw [watchLoop, hbefore, List.length_map] at hk
    rw [haccepted k (Nat.zero_le _) hk] at hfalse
    cases hfalse
  | succ n ih =>
    obtain ⟨events, hbefore, haccepted⟩ := yieldsBefore_events h
    have hpass := readStream_yields consumer (turns attempt).opened
      (yieldsBefore consumer turns attempt)
    -- a pass that ends the sequence has no pause after it
    have hnone : ¬ Reconnects options consumer turns attempt →
        ∀ k, attempt ≤ k → k < attempt + (n + 1) → ¬ PauseBroken options consumer turns k :=
      fun hends k hlow _ hbroken => hends (hbroken.1 attempt hlow)
    rw [watchLoop]
    cases hresult : readUpdateStreamOnce consumer (turns attempt).opened
        (yieldsBefore consumer turns attempt) with
    | mk after ending =>
      have hend : passEnd consumer turns attempt = ending := congrArg Prod.snd hresult
      have hafter : yieldsBefore consumer turns (attempt + 1) = after := congrArg Prod.fst hresult
      rw [hresult] at hpass
      cases ending with
      | stopped =>
        obtain ⟨hless, hrest, hlast⟩ := hpass.stopped rfl
        rw [hbefore, List.length_map] at hless hrest
        refine iff_of_true (protocol_of_stopped haccepted hrest hlast hless) (hnone ?_)
        rintro ⟨e, he, -⟩
        rw [hend] at he
        cases he
      | failed e =>
        dsimp only
        rw [hbefore] at hpass
        obtain ⟨all, rfl, hall⟩ := hpass.accepted haccepted
        by_cases hstop : ¬ options.filled.reconnect = true ∨ ¬ shouldReconnectUpdate e = true
        · rw [if_pos hstop]
          refine iff_of_true (protocol_of_error e hall) (hnone ?_)
          rintro ⟨e', he', hreconnect, hshould⟩
          rw [hend] at he'
          cases he'
          exact hstop.elim (fun h => h hreconnect) fun h => h hshould
        · obtain ⟨hreconnect, hshould⟩ := not_or.mp hstop
          have hgoes : ∀ j ≤ attempt, Reconnects options consumer turns j := fun j hj =>
            (Nat.lt_or_eq_of_le hj).elim (h j) fun heq =>
              heq ▸ ⟨e, hend, not_not.mp hreconnect, not_not.mp hshould⟩
          rw [if_neg hstop]
          by_cases hbroken : sleepBroken (updateDelay options.filled attempt (turns attempt).drawn)
              (turns attempt).contextDone = true
          · rw [if_pos hbroken]
            obtain ⟨hpositive, hdone⟩ := of_decide_eq_true hbroken
            exact iff_of_false (not_protocol_of_events hall) fun hnever =>
              hnever attempt (Nat.le_refl _) (by omega)
                ⟨hgoes, Int.not_le.mp hpositive, hdone⟩
          · have hcalm : ¬ PauseBroken options consumer turns attempt := fun hpause =>
              hbroken (decide_eq_true ⟨Int.not_le.mpr hpause.2.1, hpause.2.2⟩)
            rw [if_neg hbroken, ← hafter, ih fun j hj => hgoes j (Nat.le_of_lt_succ hj)]
            constructor
            · intro hlater k hlow hhigh
              rcases Nat.eq_or_lt_of_le hlow with rfl | hlt
              · exact hcalm
              · exact hlater k hlt (by omega)
            · exact fun hall k hlow hhigh => hall k (by omega) (by omega)

end Run

/-- **When the iterator keeps its protocol**: for every client, consumer, connections and
context, after any number of turns, exactly when the context breaks off no pause of the run. -/
theorem watchUpdates_iff (options : UpdateStreamOptions) (consumer : Nat → Bool)
    (turns : Nat → WatchTurn) (checked : Except StreamError Unit) :
    (∀ n, Protocol consumer (watchUpdates options consumer turns checked n)) ↔
      (checked = .ok () → ∀ attempt, ¬ PauseBroken options consumer turns attempt) := by
  cases checked with
  | error e =>
    refine iff_of_true (fun n => ?_) fun h => by cases h
    exact @protocol_of_error consumer [] e fun k _ hk => absurd hk (Nat.not_lt_zero k)
  | ok _ =>
    have hloop : ∀ n, Protocol consumer (watchUpdates options consumer turns (.ok ()) n) ↔
        ∀ k, 0 ≤ k → k < 0 + n → ¬ PauseBroken options consumer turns k := fun n =>
      @watchLoop_iff _ _ _ n 0 fun j hj => absurd hj (Nat.not_lt_zero j)
    constructor
    · intro h _ attempt
      exact (hloop (attempt + 1)).mp (h (attempt + 1)) attempt (Nat.zero_le _) (by omega)
    · intro h n
      exact (hloop n).mpr fun k _ _ => h rfl k

/-! A context that is done in the first pause. -/

/-- The defaults of the options. -/
def defaultOptions : UpdateStreamOptions := ⟨true, 1500000000, 20000000000, true⟩

/-- A connection that cannot be made, and a context that is done before the pause ends. -/
def canceledTurn : WatchTurn :=
  { opened := .error (updateError .network "" "update stream"), drawn := 0, contextDone := true }

/-- **A sequence that ends with no error.** -/
theorem watchUpdates_silent :
    watchUpdates defaultOptions (fun _ => true) (fun _ => canceledTurn) (.ok ()) 1 = ⟨[], true⟩ ∧
      ¬ Protocol (fun _ => true)
        (watchUpdates defaultOptions (fun _ => true) (fun _ => canceledTurn) (.ok ()) 1) := by
  have hrun : watchUpdates defaultOptions (fun _ => true) (fun _ => canceledTurn) (.ok ()) 1 =
      ⟨[], true⟩ := by decide
  rw [hrun]
  exact ⟨rfl, @not_protocol_of_events _ [] fun k _ hk => absurd hk (Nat.not_lt_zero k)⟩

end Go
end SwmSdk
