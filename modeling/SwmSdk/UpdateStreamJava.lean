import SwmSdk.AuthzBinding
import SwmSdk.UpdateStream

/-! # The update stream of Java

`watchUpdates` opens a stream, reads events from it and opens it again after an exception of the
SDK, with a pause that grows with the failures in a row.  A stream that ends cleanly is no
exception: the loop then opens the next one at once, whether or not it is to reconnect.

The behaviour of the server, the listeners and the threads is the input of a turn
(`WatchTurn`); `watchTurn` says what a turn does.  Between two connections of a run there is a
pause of the length that the options ask for exactly when a turn between them fails and its pause
is long enough (`watchUpdates_backs_off_iff`).
-/
namespace SwmSdk
namespace Java
open ByteText

/-! ## The events of a stream -/

/-- `SseEvent`. -/
structure SseEvent where
  name : Bytes
  id : Bytes
  data : Bytes

/-- An event before its first line. -/
def emptyEvent : SseEvent := ⟨[], [], []⟩

section Stream
variable (J : Jackson)

/-- `JsonUtil.text` of an optional field of a node that may be `null`. -/
def optionalText (value : Option J.Node) (field : String) : Except Thrown Bytes :=
  match value with
  | none => .ok []
  | some node => text J node (ascii field) false

/-- `eventFromJson`. -/
def updateEventFromJson (value : Option J.Node) (event : SseEvent) :
    Except Thrown Cpp.UpdateEvent := do
  let id ← optionalText J value "id"
  let eventType ← optionalText J value "event_type"
  let orgId ← optionalText J value "org_id"
  let appId ← optionalText J value "app_id"
  let deviceId ← optionalText J value "device_id"
  let channelCode ← optionalText J value "channel_code"
  let platform ← optionalText J value "platform"
  let arch ← optionalText J value "arch"
  let releaseId ← optionalText J value "release_id"
  let publishedAt ← optionalText J value "published_at"
  let reason ← optionalText J value "reason"
  let message ← optionalText J value "message"
  let maintenanceStartAt ← optionalText J value "maintenance_start_at"
  .ok {
    id := if isBlank id then event.id else id
    eventType := if isBlank eventType then event.name else eventType
    orgId := orgId, appId := appId, deviceId := deviceId, channelCode := channelCode
    platform := platform, arch := arch, releaseId := releaseId, publishedAt := publishedAt
    reason := reason, message := message, maintenanceStartAt := maintenanceStartAt }

/-- A line that `readLine` returns: whether `stop` was called before the test of the loop, and
what `verifyAuthz` and the listeners do if the line leads to them. -/
structure LineRead where
  stopped : Bool
  line : Bytes
  verifyAuthz : Bytes → Except Thrown (Option J.Node)
  onControl : Cpp.UpdateEvent → Except Thrown Unit
  onEvent : Cpp.UpdateEvent → Except Thrown Unit

/-- What `readLine` does after the lines. -/
inductive StreamEnd
  | null
  | ioException
  deriving DecidableEq

/-- The response to `openUpdateStream`. -/
structure UpdateResponse where
  statusCode : Int
  reads : List (LineRead J)
  /-- `stop` was called before the last test of the loop. -/
  stopped : Bool
  ending : StreamEnd

/-- What the stream throws for status 401. -/
def sessionExpired : Thrown :=
  .swm { kind := .session, statusCode := 401, serviceCode := ascii "authz_session_expired",
         message := ascii "update stream authorization expired" }

/-- What an empty line does with an event: whether the stream is verified from then on. -/
def dispatch (read : LineRead J) (event : SseEvent) (verified : Bool) : Except Thrown Bool :=
  if event.data ≠ [] ∧ ¬ isBlank event.name then
    if event.name = ascii "authz" then do
      let _ ← read.verifyAuthz event.data
      .ok true
    else if event.name = ascii "authz_expired" then .error sessionExpired
    else if verified ∧ event.name ≠ ascii "connected" then do
      let data ← read.verifyAuthz event.data
      let update ← updateEventFromJson J data event
      if Cpp.isControl update.eventType then read.onControl update else .ok ()
      read.onEvent update
      .ok verified
    else .ok verified
  else .ok verified

/-- What a line with a field does. -/
def SseEvent.add (event : SseEvent) (line : Bytes) : SseEvent :=
  if ascii "event:" <+: line then { event with name := trim (line.drop 6) }
  else if ascii "id:" <+: line then { event with id := trim (line.drop 3) }
  else if ascii "data:" <+: line then
    { event with
      data := (if event.data = [] then [] else event.data ++ [newline]) ++ trim (line.drop 5) }
  else event

/-- How the loop over the lines ends. -/
inductive LoopEnd
  /-- The flag of the handle is down. -/
  | stopped
  /-- `readLine` returned `null`. -/
  | clean
  | ioException
  | thrown (exception : Thrown)

/-- The loop over the lines, which tests the flag of the handle before each. -/
def readLoop (response : UpdateResponse J) :
    List (LineRead J) → SseEvent → Bool → LoopEnd
  | [], _, _ =>
      if response.stopped then .stopped
      else
        match response.ending with
        | .null => .clean
        | .ioException => .ioException
  | read :: reads, event, verified =>
      if read.stopped then .stopped
      else if ascii ":" <+: read.line then readLoop response reads event verified
      else if read.line = [] then
        match dispatch J read event verified with
        | .error e => .thrown e
        | .ok verified => readLoop response reads emptyEvent verified
      else readLoop response reads (event.add read.line) verified

end Stream

/-! ## Pauses -/

/-- `UpdateStreamOptions`, with durations in nanoseconds. -/
structure UpdateStreamOptions where
  reconnect : Bool
  reconnectBackoff : Int
  reconnectMaxBackoff : Int
  jitter : Bool

/-- `UpdateStreamOptions.defaults`. -/
def UpdateStreamOptions.defaults : UpdateStreamOptions := ⟨true, 1500000000, 20000000000, true⟩

/-- A `long`. -/
def long (n : Int) : Int := n.bmod (2 ^ 64)

/-- `Duration.toMillis`, with its `ArithmeticException`. -/
def toMillis (nanoseconds : Int) : Option Int :=
  let millis := nanoseconds.tdiv 1000000
  if -2 ^ 63 ≤ millis ∧ millis < 2 ^ 63 then some millis else none

/-- `1L << n`, which takes the low six bits of the number. -/
def shiftOne (n : Int) : Int := long (2 ^ (n % 64).toNat)

/-- `backoff`; `drawn` is the number that `nextLong` reduces. -/
def backoff (options : UpdateStreamOptions) (attempt : Int) (drawn : Nat) : Option Int := do
  let longest ← toMillis options.reconnectMaxBackoff
  let first ← toMillis options.reconnectBackoff
  let base := min longest (long (first * shiftOne (min attempt 4)))
  if options.jitter then some (long (base + drawn % max 1 (base.tdiv 2))) else some base

/-! ## A turn of the loop -/

/-- What is outside `watchUpdates` in one turn of its loop. -/
structure WatchTurn (J : Jackson) where
  /-- `stop` was called before the test of the loop. -/
  stopped : Bool
  /-- `deviceId` and the rest of the URL. -/
  url : Except Thrown Unit
  opened : Except Thrown (UpdateResponse J)
  onError : Error → Except Thrown Unit
  /-- `stop` was called before the test of the handler. -/
  stoppedLater : Bool
  drawn : Nat
  interrupted : Bool

/-- What a turn did: whether it called `openUpdateStream`, the milliseconds of its pause, and the
failures in a row if the loop goes on. -/
structure TurnResult where
  opens : Bool
  slept : Option Int
  attempt : Option Int
  deriving DecidableEq

/-- The kinds after which the stream is not opened again. -/
def isTerminal (kind : ErrorKind) : Bool :=
  kind = .session ∨ kind = .unauthorized ∨ kind = .integrity ∨ kind = .deviceBlocked

/-- The handler of an exception that ends a turn. -/
def handle {J : Jackson} (options : UpdateStreamOptions) (turn : WatchTurn J) (opens : Bool)
    (attempt : Int) : Thrown → TurnResult
  | .swm e =>
      match turn.onError e with
      | .error _ => ⟨opens, none, none⟩
      | .ok () =>
          if ¬ options.reconnect ∨ turn.stoppedLater ∨ isTerminal e.kind then ⟨opens, none, none⟩
          else
            match backoff options attempt turn.drawn with
            | none => ⟨opens, none, none⟩
            | some delay =>
                -- `Thread.sleep` refuses a negative time, and an interrupt ends the worker
                if delay < 0 ∨ turn.interrupted then ⟨opens, none, none⟩
                else ⟨opens, some delay, some ((attempt + 1).bmod (2 ^ 32))⟩
  | _ => ⟨opens, none, none⟩

/-- What the stream throws for another status. -/
def streamRejected : Thrown :=
  .swm { kind := .network, statusCode := 0, serviceCode := [],
         message := ascii "update stream was rejected" }

/-- A turn of the loop, after so many failures in a row. -/
def watchTurn {J : Jackson} (options : UpdateStreamOptions) (turn : WatchTurn J) (attempt : Int) :
    TurnResult :=
  if turn.stopped then ⟨false, none, none⟩
  else
    match turn.url with
    | .error e => handle options turn false attempt e
    | .ok () =>
        match turn.opened with
        | .error e => handle options turn true attempt e
        | .ok response =>
            if response.statusCode < 200 ∨ response.statusCode ≥ 300 then
              handle options turn true attempt streamRejected
            else
              match readLoop J response response.reads emptyEvent false with
              | .stopped => ⟨true, none, none⟩
              | .clean => ⟨true, none, some 0⟩
              | .ioException => ⟨true, none, none⟩
              | .thrown e => handle options turn true 0 e

/-! ## A run -/

section Run
variable {J : Jackson} (options : UpdateStreamOptions) (turns : Nat → WatchTurn J)

/-- The failures in a row before a turn, if the run comes to it. -/
def attemptBefore : Nat → Option Int
  | 0 => some 0
  | i + 1 => (attemptBefore i).bind fun attempt => (watchTurn options (turns i) attempt).attempt

/-- What a turn of the run does, if the run comes to it. -/
def turnResult (i : Nat) : Option TurnResult :=
  (attemptBefore options turns i).map (watchTurn options (turns i))

/-- A turn of the run calls `openUpdateStream`. -/
def Opens (i : Nat) : Prop := ∃ result ∈ turnResult options turns i, result.opens = true

/-- Two connections of a run with none between them. -/
structure Consecutive (i j : Nat) : Prop where
  lt : i < j
  first : Opens options turns i
  second : Opens options turns j
  none_between : ∀ k, i < k → k < j → ¬ Opens options turns k

/-- What the options ask for: a pause of the shorter of the two durations between any two
connections, and one connection at most when the loop is not to reconnect. -/
structure BacksOff : Prop where
  paused : options.reconnect = true → ∀ i j, Consecutive options turns i j →
    ∃ k, i ≤ k ∧ k < j ∧ ∃ result ∈ turnResult options turns k, ∃ millis,
      result.slept = some millis ∧
        min options.reconnectBackoff options.reconnectMaxBackoff ≤ millis * 1000000
  once : options.reconnect = false → ∀ i j, Opens options turns i → Opens options turns j → i = j

end Run

/-! ## What a turn needs to go on -/

/-- The server accepts the request for the stream. -/
def Accepted {J : Jackson} (turn : WatchTurn J) : Prop :=
  turn.url = .ok () ∧ ∃ response, turn.opened = .ok response ∧
    200 ≤ response.statusCode ∧ response.statusCode < 300

/-- The stream of a turn is read to its end. -/
def EndsCleanly {J : Jackson} (turn : WatchTurn J) : Prop :=
  turn.stopped = false ∧ turn.url = .ok () ∧ ∃ response, turn.opened = .ok response ∧
    200 ≤ response.statusCode ∧ response.statusCode < 300 ∧
    readLoop J response response.reads emptyEvent false = .clean

open Classical in
/-- The failures in a row that a turn adds to. -/
noncomputable def failuresIn {J : Jackson} (turn : WatchTurn J) (before : Nat) : Nat :=
  if Accepted turn then 0 else before

open Classical in
/-- The failures in a row before a turn: an accepted stream starts the count afresh. -/
noncomputable def failuresBefore {J : Jackson} (turns : Nat → WatchTurn J) : Nat → Nat
  | 0 => 0
  | i + 1 =>
      if EndsCleanly (turns i) then 0 else failuresIn (turns i) (failuresBefore turns i) + 1

/-- The milliseconds that the options give without the jitter, after so many failures: the
`int` that counts them and the `long` of the product wrap around. -/
def baseMillis (options : UpdateStreamOptions) (failures : Nat) : Int :=
  min (options.reconnectMaxBackoff.tdiv 1000000)
    (long (options.reconnectBackoff.tdiv 1000000 *
      shiftOne (min ((failures : Int).bmod (2 ^ 32)) 4)))

/-- The milliseconds of the jitter. -/
def jitterMillis (options : UpdateStreamOptions) (base : Int) (drawn : Nat) : Int :=
  if options.jitter then drawn % max 1 (base.tdiv 2) else 0

/-- The pause that the options give is as long as they ask for. -/
def PauseEnough (options : UpdateStreamOptions) (failures drawn : Nat) : Prop :=
  min options.reconnectBackoff options.reconnectMaxBackoff ≤
    (baseMillis options failures + jitterMillis options (baseMillis options failures) drawn) *
      1000000

/-- A number that fits is kept, and one above the range comes out negative. -/
theorem long_of_nonneg {n : Int} (hlow : -2 ^ 63 ≤ n) (hhigh : n < 2 ^ 64) (h : 0 ≤ long n) :
    long n = n := by
  by_cases hfits : n < 2 ^ 63
  · exact Int.bmod_eq_of_le_mul_two (by omega) (by omega)
  · have hwraps : long n = n - 2 ^ 64 := by
      rw [long, Int.bmod_eq_iff (by decide)]
      omega
    omega

theorem long_range (n : Int) : -2 ^ 63 ≤ long n ∧ long n < 2 ^ 63 := by
  have hlow : -(((2 ^ 64 : Nat) : Int) / 2) ≤ n.bmod (2 ^ 64) := Int.le_bmod (by decide)
  have hhigh : n.bmod (2 ^ 64) < (((2 ^ 64 : Nat) : Int) + 1) / 2 := Int.bmod_lt (by decide)
  rw [long]
  omega

/-- A pause that is not negative did not wrap around. -/
theorem backoff_eq {options : UpdateStreamOptions} {failures drawn : Nat} {millis : Int}
    (h : backoff options ((failures : Int).bmod (2 ^ 32)) drawn = some millis)
    (hnonneg : 0 ≤ millis) :
    millis = baseMillis options failures +
      jitterMillis options (baseMillis options failures) drawn := by
  have hmillis : ∀ {n m : Int}, toMillis n = some m →
      m = n.tdiv 1000000 ∧ m < 2 ^ 63 ∧ -2 ^ 63 ≤ m := by
    intro n m hm
    obtain ⟨hrange, hm⟩ := Option.ite_none_right_eq_some.mp hm
    rw [← Option.some.inj hm]
    exact ⟨rfl, hrange.2, hrange.1⟩
  obtain ⟨longest, hlongest, h⟩ := Option.bind_eq_some_iff.mp h
  obtain ⟨first, hfirst, h⟩ := Option.bind_eq_some_iff.mp h
  obtain ⟨rfl, hhigh, hlow⟩ := hmillis hlongest
  obtain ⟨rfl, -, -⟩ := hmillis hfirst
  dsimp only at h
  rw [← baseMillis] at h
  have hbase : -2 ^ 63 ≤ baseMillis options failures ∧ baseMillis options failures < 2 ^ 63 := by
    have hrange := long_range (options.reconnectBackoff.tdiv 1000000 *
      shiftOne (min ((failures : Int).bmod (2 ^ 32)) 4))
    rw [baseMillis]
    omega
  generalize baseMillis options failures = base at h hbase
  rw [jitterMillis]
  by_cases hjitter : options.jitter = true
  · rw [if_pos hjitter] at h ⊢
    have hmillis := Option.some.inj h
    -- the jitter is less than half of a base that is not negative, and nothing otherwise
    have hdrawn : 0 ≤ (drawn : Int) % max 1 (base.tdiv 2) ∧
        (drawn : Int) % max 1 (base.tdiv 2) < max 1 (base.tdiv 2) :=
      ⟨Int.emod_nonneg _ (by omega), Int.emod_lt_of_pos _ (by omega)⟩
    have hhalf : base.tdiv 2 < 2 ^ 63 := by
      have hle : base.tdiv 2 * 2 + base.tmod 2 = base := Int.tdiv_mul_add_tmod base 2
      have hsign : base.tmod 2 = base % 2 ∨ base.tmod 2 = base % 2 - 2 := by
        rw [Int.tmod_eq_emod]
        split
        · exact .inl (by omega)
        · exact .inr rfl
      omega
    rw [← hmillis] at hnonneg ⊢
    exact long_of_nonneg (by omega) (by omega) hnonneg
  · rw [if_neg hjitter] at h ⊢
    rw [add_zero]
    exact (Option.some.inj h).symm

/-- A pause after a failure that the loop goes on from. -/
theorem handle_goesOn {J : Jackson} {options : UpdateStreamOptions} {turn : WatchTurn J}
    {opens : Bool} {attempt next : Int} {e : Thrown}
    (h : (handle options turn opens attempt e).attempt = some next) :
    options.reconnect = true ∧ next = (attempt + 1).bmod (2 ^ 32) ∧
      (handle options turn opens attempt e).opens = opens ∧
      ∃ millis, (handle options turn opens attempt e).slept = some millis ∧ 0 ≤ millis ∧
        backoff options attempt turn.drawn = some millis := by
  cases e with
  | swm e =>
    rw [handle] at h ⊢
    cases herror : turn.onError e with
    | error t =>
      rw [herror] at h
      cases h
    | ok u =>
      rw [herror] at h
      dsimp only at h ⊢
      by_cases hstop : ¬ options.reconnect = true ∨ turn.stoppedLater = true ∨
          isTerminal e.kind = true
      · rw [if_pos hstop] at h
        cases h
      · rw [if_neg hstop] at h ⊢
        cases hdelay : backoff options attempt turn.drawn with
        | none =>
          rw [hdelay] at h
          cases h
        | some delay =>
          rw [hdelay] at h
          dsimp only at h ⊢
          by_cases hrefused : delay < 0 ∨ turn.interrupted = true
          · rw [if_pos hrefused] at h
            cases h
          · rw [if_neg hrefused] at h ⊢
            obtain ⟨hreconnect, -⟩ := not_or.mp hstop
            obtain ⟨hnonneg, -⟩ := not_or.mp hrefused
            exact ⟨not_not.mp hreconnect, (Option.some.inj h).symm, rfl, delay, rfl,
              Int.not_lt.mp hnonneg, rfl⟩
  | _ => cases h

/-- **A turn that the loop goes on from** read a stream to its end and did not pause, or failed and
paused. -/
theorem watchTurn_goesOn {J : Jackson} {options : UpdateStreamOptions} {turn : WatchTurn J}
    {failures : Nat} {next : Int}
    (h : (watchTurn options turn ((failures : Int).bmod (2 ^ 32))).attempt = some next) :
    (EndsCleanly turn ∧ next = 0 ∧
        (watchTurn options turn ((failures : Int).bmod (2 ^ 32))).slept = none) ∨
      (¬ EndsCleanly turn ∧ options.reconnect = true ∧
        next = ((failuresIn turn failures + 1 : Nat) : Int).bmod (2 ^ 32) ∧
        ∃ millis, (watchTurn options turn ((failures : Int).bmod (2 ^ 32))).slept = some millis ∧
          0 ≤ millis ∧
          backoff options ((failuresIn turn failures : Int).bmod (2 ^ 32)) turn.drawn =
            some millis) := by
  -- a failure of the turn, whose handler pauses
  have hfails : ∀ (opens : Bool) (e : Thrown) {counted : Nat},
      watchTurn options turn ((failures : Int).bmod (2 ^ 32)) =
        handle options turn opens ((counted : Int).bmod (2 ^ 32)) e →
      failuresIn turn failures = counted → ¬ EndsCleanly turn →
      ¬ EndsCleanly turn ∧ options.reconnect = true ∧
        next = ((failuresIn turn failures + 1 : Nat) : Int).bmod (2 ^ 32) ∧
        ∃ millis, (watchTurn options turn ((failures : Int).bmod (2 ^ 32))).slept = some millis ∧
          0 ≤ millis ∧
          backoff options ((failuresIn turn failures : Int).bmod (2 ^ 32)) turn.drawn =
            some millis := by
    intro opens e counted hturn hcounted hclean
    rw [hturn] at h ⊢
    obtain ⟨hreconnect, hnext, -, hpause⟩ := handle_goesOn h
    rw [hcounted]
    refine ⟨hclean, hreconnect, ?_, hpause⟩
    rw [hnext, Int.bmod_add_bmod]
    rfl
  by_cases hstopped : turn.stopped = true
  · rw [watchTurn, if_pos hstopped] at h
    cases h
  · cases hurl : turn.url with
    | error e =>
      have hrejected : ¬ Accepted turn := fun haccepted => by
        rw [haccepted.1] at hurl
        cases hurl
      refine .inr (hfails false e ?_ (if_neg hrejected) fun hclean => ?_)
      · rw [watchTurn, if_neg hstopped, hurl]
      · rw [hclean.2.1] at hurl
        cases hurl
    | ok u =>
      cases hopened : turn.opened with
      | error e =>
        have hnone : ∀ response, turn.opened ≠ .ok response := fun response hsome => by
          rw [hsome] at hopened
          cases hopened
        refine .inr (hfails true e ?_ (if_neg ?_) ?_)
        · rw [watchTurn, if_neg hstopped, hurl, hopened]
        · rintro ⟨-, response, hsome, -⟩
          exact hnone response hsome
        · rintro ⟨-, -, response, hsome, -⟩
          exact hnone response hsome
      | ok response =>
        have hsame : ∀ {other}, turn.opened = .ok other → other = response := fun hother =>
          Except.ok.inj (hother.symm.trans hopened)
        by_cases hstatus : response.statusCode < 200 ∨ response.statusCode ≥ 300
        · refine .inr (hfails true streamRejected ?_ (if_neg ?_) ?_)
          · rw [watchTurn, if_neg hstopped, hurl, hopened]
            exact if_pos hstatus
          · rintro ⟨-, other, hother, hlow, hhigh⟩
            rw [hsame hother] at hlow hhigh
            omega
          · rintro ⟨-, -, other, hother, hlow, hhigh, -⟩
            rw [hsame hother] at hlow hhigh
            omega
        · have hturn : watchTurn options turn ((failures : Int).bmod (2 ^ 32)) =
              match readLoop J response response.reads emptyEvent false with
              | .stopped => ⟨true, none, none⟩
              | .clean => ⟨true, none, some 0⟩
              | .ioException => ⟨true, none, none⟩
              | .thrown e => handle options turn true 0 e := by
            rw [watchTurn, if_neg hstopped, hurl, hopened]
            exact if_neg hstatus
          have haccepted : Accepted turn :=
            ⟨by rw [hurl], response, hopened, by omega, by omega⟩
          cases hloop : readLoop J response response.reads emptyEvent false with
          | stopped =>
            rw [hturn, hloop] at h
            cases h
          | ioException =>
            rw [hturn, hloop] at h
            cases h
          | clean =>
            rw [hloop] at hturn
            rw [hturn] at h ⊢
            exact .inl ⟨⟨eq_false_of_ne_true hstopped, by rw [hurl], response, hopened, by omega,
              by omega, hloop⟩, (Option.some.inj h).symm, rfl⟩
          | thrown e =>
            rw [hloop] at hturn
            refine .inr (@hfails true e 0 hturn (if_pos haccepted) ?_)
            rintro ⟨-, -, other, hother, -, -, hclean⟩
            rw [hsame hother, hloop] at hclean
            cases hclean

section Run
variable {J : Jackson} {options : UpdateStreamOptions} {turns : Nat → WatchTurn J}

theorem counter_zero : ((0 : Nat) : Int).bmod (2 ^ 32) = 0 := by decide

/-- The counter of the run is that of the failures. -/
theorem attemptBefore_eq {i : Nat} {attempt : Int}
    (h : attemptBefore options turns i = some attempt) :
    attempt = (failuresBefore turns i : Int).bmod (2 ^ 32) := by
  induction i generalizing attempt with
  | zero =>
    have hzero : (0 : Int) = attempt := Option.some.inj h
    rw [← hzero, failuresBefore, counter_zero]
  | succ i ih =>
    obtain ⟨before, hbefore, hnext⟩ := Option.bind_eq_some_iff.mp h
    rw [ih hbefore] at hnext
    rw [failuresBefore]
    rcases watchTurn_goesOn hnext with ⟨hclean, hzero, -⟩ | ⟨hclean, -, hcounted, -⟩
    · rw [if_pos hclean, hzero, counter_zero]
    · rw [if_neg hclean, hcounted]

/-- The loop goes on from every turn before one that the run comes to. -/
theorem goesOn_of_reached {k j : Nat} (hlt : k < j) {attempt : Int}
    (h : attemptBefore options turns j = some attempt) :
    turnResult options turns k =
        some (watchTurn options (turns k) ((failuresBefore turns k : Int).bmod (2 ^ 32))) ∧
      ∃ next,
        (watchTurn options (turns k) ((failuresBefore turns k : Int).bmod (2 ^ 32))).attempt =
          some next := by
  induction j generalizing attempt with
  | zero => exact absurd hlt (Nat.not_lt_zero k)
  | succ j ih =>
    obtain ⟨before, hbefore, hnext⟩ := Option.bind_eq_some_iff.mp h
    rcases Nat.lt_succ_iff_lt_or_eq.mp hlt with hless | rfl
    · exact ih hless hbefore
    · rw [attemptBefore_eq hbefore] at hnext
      exact ⟨by rw [turnResult, hbefore, Option.map_some, attemptBefore_eq hbefore], attempt, hnext⟩

theorem reached_of_opens {i : Nat} (h : Opens options turns i) :
    ∃ attempt, attemptBefore options turns i = some attempt := by
  obtain ⟨result, hresult, -⟩ := h
  obtain ⟨attempt, hattempt, -⟩ := Option.map_eq_some_iff.mp hresult
  exact ⟨attempt, hattempt⟩

/-- Between two connections the loop is to reconnect, and some turn fails and its pause is long
enough. -/
def PausedBetween (options : UpdateStreamOptions) (turns : Nat → WatchTurn J) : Prop :=
  ∀ i j, Consecutive options turns i j → options.reconnect = true ∧
    ∃ k, i ≤ k ∧ k < j ∧ ¬ EndsCleanly (turns k) ∧
      PauseEnough options (failuresIn (turns k) (failuresBefore turns k)) (turns k).drawn

/-- The pause of a turn that is followed by another one. -/
theorem slept_iff {k j : Nat} (hlt : k < j) {attempt : Int}
    (h : attemptBefore options turns j = some attempt) :
    (∃ result ∈ turnResult options turns k, ∃ millis, result.slept = some millis ∧
        min options.reconnectBackoff options.reconnectMaxBackoff ≤ millis * 1000000) ↔
      ¬ EndsCleanly (turns k) ∧
        PauseEnough options (failuresIn (turns k) (failuresBefore turns k)) (turns k).drawn := by
  obtain ⟨hresult, next, hnext⟩ := goesOn_of_reached hlt h
  rw [hresult]
  rcases watchTurn_goesOn hnext with
    ⟨hclean, -, hslept⟩ | ⟨hclean, -, -, millis, hslept, hnonneg, hdelay⟩
  · refine iff_of_false ?_ fun h => h.1 hclean
    rintro ⟨result, hmem, millis, hmillis, -⟩
    rw [← Option.mem_some.mp hmem, hslept] at hmillis
    cases hmillis
  · rw [and_iff_right hclean, PauseEnough, ← backoff_eq hdelay hnonneg]
    constructor
    · rintro ⟨result, hmem, other, hother, henough⟩
      rw [← Option.mem_some.mp hmem, hslept] at hother
      obtain rfl := Option.some.inj hother
      exact henough
    · exact fun henough => ⟨_, Option.mem_some.mpr rfl, millis, hslept, henough⟩

/-- Of two connections, the later one has one just before it. -/
theorem exists_consecutive {i j : Nat} (hlt : i < j) (hi : Opens options turns i)
    (hj : Opens options turns j) : ∃ k, Consecutive options turns k j := by
  -- by induction on the turns between them: an open one among them takes the place of the first
  induction hgap : j - i using Nat.strong_induction_on generalizing i with
  | _ gap ih =>
    by_cases hbetween : ∃ k, i < k ∧ k < j ∧ Opens options turns k
    · obtain ⟨k, hik, hkj, hk⟩ := hbetween
      exact ih (j - k) (by omega) hkj hk rfl
    · exact ⟨i, hlt, hi, hj, fun k hik hkj hk => hbetween ⟨k, hik, hkj, hk⟩⟩

end Run

/-! ## Pauses that are long enough -/

/-- Durations of whole milliseconds, of less than eighteen million years, give a pause that is long
enough for two thousand million failures. -/
theorem pauseEnough_of_whole {options : UpdateStreamOptions} {backoff longest : Int}
    (hbackoff : options.reconnectBackoff = backoff * 1000000)
    (hlongest : options.reconnectMaxBackoff = longest * 1000000) (hpositive : 0 ≤ backoff)
    (hfits : backoff < 2 ^ 59) {failures : Nat} (hfailures : failures < 2 ^ 31) (drawn : Nat) :
    PauseEnough options failures drawn := by
  have hcounter : (failures : Int).bmod (2 ^ 32) = failures :=
    Int.bmod_eq_of_le_mul_two (by omega) (by omega)
  have hshift : ∀ s : Fin 5, shiftOne (s : Nat) = 2 ^ (s : Nat) := by decide
  have hgrowth : shiftOne (min ((failures : Int).bmod (2 ^ 32)) 4) = 2 ^ min failures 4 := by
    have hmin : min (failures : Int) 4 = (min failures 4 : Nat) := by omega
    rw [hcounter, hmin]
    exact hshift ⟨min failures 4, by omega⟩
  have hpow : (1 : Int) ≤ 2 ^ min failures 4 ∧ (2 : Int) ^ min failures 4 ≤ 16 := by
    have hall : ∀ s : Fin 5, (1 : Int) ≤ 2 ^ (s : Nat) ∧ (2 : Int) ^ (s : Nat) ≤ 16 := by decide
    exact hall ⟨min failures 4, by omega⟩
  have htdiv : ∀ n : Int, (n * 1000000).tdiv 1000000 = n := fun n =>
    Int.mul_tdiv_cancel n (by decide)
  have hproduct : backoff ≤ backoff * 2 ^ min failures 4 ∧
      backoff * 2 ^ min failures 4 < 2 ^ 63 := by
    have hlow := Int.mul_le_mul_of_nonneg_left hpow.1 hpositive
    have hhigh := Int.mul_le_mul_of_nonneg_left hpow.2 hpositive
    omega
  have hlong : long (backoff * 2 ^ min failures 4) = backoff * 2 ^ min failures 4 :=
    Int.bmod_eq_of_le_mul_two (by omega) (by omega)
  have hbase : baseMillis options failures = min longest (backoff * 2 ^ min failures 4) := by
    rw [baseMillis, hgrowth, hbackoff, hlongest, htdiv, htdiv, hlong]
  have hjitter : 0 ≤ jitterMillis options (baseMillis options failures) drawn := by
    rw [jitterMillis]
    split
    · exact Int.emod_nonneg _ (by omega)
    · exact Int.le_refl 0
  rw [PauseEnough]
  generalize jitterMillis options (baseMillis options failures) drawn = jitter at hjitter ⊢
  rw [hbase, hbackoff, hlongest]
  omega

section Run
variable {J : Jackson} {options : UpdateStreamOptions} {turns : Nat → WatchTurn J}

/-- **When the loop backs off**: for every behaviour of the server, the listeners and the threads,
exactly when between any two connections it is to reconnect, and some turn fails and the pause
after it is long enough. -/
theorem watchUpdates_backs_off_iff : BacksOff options turns ↔ PausedBetween options turns := by
  constructor
  · intro h i j hconsecutive
    have hreconnect : options.reconnect = true := by
      by_contra hoff
      have hsame := h.once (eq_false_of_ne_true hoff) i j hconsecutive.first hconsecutive.second
      exact absurd hconsecutive.lt (by omega)
    obtain ⟨attempt, hreached⟩ := reached_of_opens hconsecutive.second
    obtain ⟨k, hlow, hhigh, hpause⟩ := h.paused hreconnect i j hconsecutive
    exact ⟨hreconnect, k, hlow, hhigh, (slept_iff hhigh hreached).mp hpause⟩
  · intro h
    refine ⟨fun _ i j hconsecutive => ?_, fun hoff i j hi hj => ?_⟩
    · obtain ⟨-, k, hlow, hhigh, hpause⟩ := h i j hconsecutive
      obtain ⟨attempt, hreached⟩ := reached_of_opens hconsecutive.second
      exact ⟨k, hlow, hhigh, (slept_iff hhigh hreached).mpr hpause⟩
    · have hnone : ∀ {i j}, i < j → Opens options turns i → ¬ Opens options turns j := by
        intro i j hlt hi hj
        obtain ⟨k, hconsecutive⟩ := exists_consecutive hlt hi hj
        rw [(h k j hconsecutive).1] at hoff
        cases hoff
      rcases Nat.lt_trichotomy i j with hlt | heq | hlt
      · exact absurd hj (hnone hlt hi)
      · exact heq
      · exact absurd hi (hnone hlt hj)

end Run

/-! Streams that the server closes at once. -/

/-- A turn whose stream is accepted and ends with no line. -/
def cleanTurn : WatchTurn strictJackson where
  stopped := false
  url := .ok ()
  opened := .ok { statusCode := 200, reads := [], stopped := false, ending := .null }
  onError _ := .ok ()
  stoppedLater := false
  drawn := 0
  interrupted := false

/-- **A stream that ends cleanly is opened again at once**, even if the loop is not to reconnect. -/
theorem clean_end_reopened :
    ¬ BacksOff .defaults (fun _ => cleanTurn) ∧
      ¬ BacksOff { UpdateStreamOptions.defaults with reconnect := false } (fun _ => cleanTurn) := by
  have hturn : ∀ options, turnResult options (fun _ => cleanTurn) 0 = some ⟨true, none, some 0⟩ ∧
      turnResult options (fun _ => cleanTurn) 1 = some ⟨true, none, some 0⟩ := fun _ => ⟨rfl, rfl⟩
  have hopens : ∀ options, Opens options (fun _ => cleanTurn) 0 ∧
      Opens options (fun _ => cleanTurn) 1 := fun options =>
    ⟨⟨_, (hturn options).1, rfl⟩, ⟨_, (hturn options).2, rfl⟩⟩
  constructor
  · intro h
    obtain ⟨hfirst, hsecond⟩ := hopens .defaults
    obtain ⟨k, -, hk, result, hresult, millis, hslept, -⟩ := h.paused rfl 0 1
      ⟨Nat.zero_lt_one, hfirst, hsecond, fun k hlow hhigh => absurd hhigh (by omega)⟩
    obtain rfl : k = 0 := by omega
    rw [(hturn _).1] at hresult
    obtain rfl := Option.mem_some.mp hresult
    cases hslept
  · intro h
    obtain ⟨hfirst, hsecond⟩ := hopens { UpdateStreamOptions.defaults with reconnect := false }
    have hsame := h.once rfl 0 1 hfirst hsecond
    cases hsame

end Java
end SwmSdk
