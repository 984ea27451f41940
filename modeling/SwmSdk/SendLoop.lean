import SwmSdk.TrustedClock

/-! # Requests that are tried again

`send` tries a request up to `retries + 1` times, with pauses between the attempts, until its
deadline leaves no room for another one.  The time request goes through it like any other, while
the clock accepts an answer only within five seconds (`setAuthoritativeTime`), counted from before
the first attempt.

The answer to an attempt that took at most five seconds sets the clock exactly when the whole
call, with the failed attempts and the pauses before it, took no longer (`timeSync_iff`); after
one attempt of more than four seconds it never does (`timeSync_slow`).
-/
namespace SwmSdk
open ByteText Outcome

/-- `RequestPolicy`, in the unit of time of the SDK. -/
structure RequestPolicy where
  timeout : Nat
  retries : Nat
  backoff : Nat
  backoffMax : Nat
  deadline : Nat
  deriving DecidableEq, Repr

namespace RequestPolicy

/-- `retry_delay_ms`, `backoff`. -/
def retryDelay (policy : RequestPolicy) (attempt : Nat) : Nat :=
  if policy.backoff = 0 then 0
  else min (policy.backoff <<< min attempt 16) (max policy.backoffMax policy.backoff)

/-- `can_wait`, `canWait`, at the time `now`. -/
def CanWait (policy : RequestPolicy) (started now delay attempt : Nat) : Prop :=
  attempt < policy.retries ∧
    (policy.deadline = 0 ∨ now - started + delay + policy.timeout ≤ policy.deadline)

/-- There is no time left for another attempt. -/
def PastDeadline (policy : RequestPolicy) (started now : Nat) : Prop :=
  policy.deadline > 0 ∧ now - started + policy.timeout > policy.deadline

instance (policy : RequestPolicy) (started now delay attempt : Nat) :
    Decidable (policy.CanWait started now delay attempt) :=
  inferInstanceAs (Decidable (_ ∧ _))

instance (policy : RequestPolicy) (started now : Nat) :
    Decidable (policy.PastDeadline started now) :=
  inferInstanceAs (Decidable (_ ∧ _))

end RequestPolicy

/-- `transient_status`, `isTransientStatus`. -/
def TransientStatus (status : Int) : Prop :=
  status = 408 ∨ status = 429 ∨ status = 500 ∨ status = 502 ∨ status = 503 ∨ status = 504

instance (status : Int) : Decidable (TransientStatus status) := by
  unfold TransientStatus
  infer_instance

/-- What an attempt meets, and the ticks at which the loop and the transport look at the clock. -/
structure SendAttempt where
  /-- The call was cancelled before the attempt. -/
  stopped : Bool := false
  /-- The look at the deadline. -/
  checked : Nat
  /-- The nonce of the attempt, and the tick at which it is sent. -/
  nonce : Bytes
  sent : Nat
  outcome : Except Error ProtocolResponse
  received : Nat
  /-- The `Retry-After` of the answer, for the SDK that reads it. -/
  retryAfter : Nat := 0
  /-- The call was cancelled during the attempt, or during the pause. -/
  stoppedMeanwhile : Bool := false
  stoppedPausing : Bool := false
  /-- The look at the deadline before the pause. -/
  waited : Nat

/-! ## The loops -/

namespace Cpp

/-- `resolve_request_policy`, in milliseconds. -/
def resolveRequestPolicy : OperationClass → RequestPolicy
  | .trustedTimeSync => ⟨10000, 2, 1000, 4000, 40000⟩
  | .onlineKeyManifest => ⟨10000, 2, 1000, 4000, 40000⟩
  | .updateCheck => ⟨15000, 2, 1500, 6000, 60000⟩
  | .heartbeat => ⟨8000, 2, 1000, 4000, 30000⟩
  | .operationAuthorization => ⟨10000, 2, 1000, 4000, 36000⟩
  | .operationGrantConsume => ⟨10000, 1, 1000, 2000, 24000⟩
  | .events => ⟨8000, 1, 1000, 2000, 20000⟩
  | .feedback => ⟨10000, 1, 1000, 2000, 24000⟩
  | .enrollmentTicket => ⟨10000, 1, 1000, 2000, 24000⟩
  | .deviceKeyRotation => ⟨10000, 1, 1000, 2000, 24000⟩
  | .download => ⟨30000, 2, 2000, 8000, 0⟩
  | .updateStream => ⟨30000, 0, 0, 0, 0⟩
  | .firmwareIdentity => ⟨8000, 1, 500, 1000, 20000⟩
  | .debugProtocol => ⟨8000, 1, 500, 1000, 20000⟩
  | .debugStream => ⟨8000, 1, 500, 1000, 20000⟩

/-- The error of a call that ran out of time or was cancelled. -/
def timeoutError (code message : String) : Error where
  kind := .timeout
  statusCode := 0
  serviceCode := ascii code
  message := ascii message

/-- What `throw_if_stopped` throws. -/
def cancelled : Error := timeoutError "cancelled" "operation cancelled"

def deadlineExceeded : Error := timeoutError "" "request deadline exceeded"

/-- The loop of `send` from an attempt on, with the last error before it: the answer, and the
attempt that it is the answer to. -/
def sendFrom (policy : RequestPolicy) (started : Nat) (attempts : Nat → SendAttempt) :
    Nat → Nat → Option Error → Except Error (ProtocolResponse × Nat)
  | 0, _, lastError => .error (lastError.getD deadlineExceeded)
  | remaining + 1, attempt, lastError =>
      let a := attempts attempt
      if a.stopped then .error cancelled
      else if policy.PastDeadline started a.checked then .error (lastError.getD deadlineExceeded)
      else
        match a.outcome with
        | .ok response =>
            if TransientStatus response.statusCode ∧ attempt < policy.retries then
              if ¬ policy.CanWait started a.waited (policy.retryDelay attempt) attempt then
                .ok (response, attempt)
              else sendFrom policy started attempts remaining (attempt + 1) lastError
            else .ok (response, attempt)
        | .error e =>
            if e.kind ≠ .network ∧ e.kind ≠ .timeout then .error e
            else if attempt ≥ policy.retries then .error e
            else if ¬ policy.CanWait started a.waited (policy.retryDelay attempt) attempt then
              .error e
            else sendFrom policy started attempts remaining (attempt + 1) (some e)

/-- `send`, for a request that needs neither the time nor a key nor a session. -/
def send (operation : OperationClass) (started : Nat) (attempts : Nat → SendAttempt) :
    Except Error (ProtocolResponse × Nat) :=
  sendFrom (resolveRequestPolicy operation) started attempts
    ((resolveRequestPolicy operation).retries + 1) 0 none

end Cpp

namespace Go

/-- `policyFor(opTrustedTime)`, in nanoseconds. -/
def trustedTimePolicy : RequestPolicy :=
  ⟨10000000000, 2, 1000000000, 4000000000, 40000000000⟩

/-- The error of a call that ran out of time or was cancelled. -/
def timeoutError (message : String) : Error where
  kind := .timeout
  statusCode := 0
  serviceCode := []
  message := ascii message

def contextDone : Error := timeoutError "context canceled"

def deadlineExceeded : Error := timeoutError "request deadline exceeded"

/-- The pause after an answer: what it asks for, or else the backoff. -/
def pause (policy : RequestPolicy) (attempt : Nat) (a : SendAttempt) : Nat :=
  if a.retryAfter = 0 then policy.retryDelay attempt else a.retryAfter

/-- The loop of `send`: here every error is followed by another attempt. -/
def sendFrom (policy : RequestPolicy) (started : Nat) (attempts : Nat → SendAttempt) :
    Nat → Nat → Option Error → Except Error (ProtocolResponse × Nat)
  | 0, _, lastTransport => .error (lastTransport.getD deadlineExceeded)
  | remaining + 1, attempt, lastTransport =>
      let a := attempts attempt
      if a.stopped then .error contextDone
      else if policy.PastDeadline started a.checked then
        .error (lastTransport.getD deadlineExceeded)
      else
        match a.outcome with
        | .ok response =>
            if TransientStatus response.statusCode ∧ attempt < policy.retries then
              if ¬ policy.CanWait started a.waited (pause policy attempt a) attempt then
                .ok (response, attempt)
              else if a.stoppedPausing then .error contextDone
              else sendFrom policy started attempts remaining (attempt + 1) lastTransport
            else .ok (response, attempt)
        | .error e =>
            if a.stoppedMeanwhile then .error contextDone
            else if attempt ≥ policy.retries then .error e
            else if ¬ policy.CanWait started a.waited (policy.retryDelay attempt) attempt then
              .error e
            else if a.stoppedPausing then .error contextDone
            else sendFrom policy started attempts remaining (attempt + 1) (some e)

/-- `send`, for the time request. -/
def send (started : Nat) (attempts : Nat → SendAttempt) :
    Except Error (ProtocolResponse × Nat) :=
  sendFrom trustedTimePolicy started attempts (trustedTimePolicy.retries + 1) 0 none

end Go

/-! ## The time request -/

/-- A run of `refresh_trusted_time` with a `send`: the clock does not run back, and the pause
before the next attempt is at least `delay`. -/
structure TimeSync (send : Nat → (Nat → SendAttempt) → Except Error (ProtocolResponse × Nat))
    (delay : SendAttempt → Nat → Nat) where
  /-- `started` of `refresh_trusted_time`, and that of `send`. -/
  started : Nat
  sendStarted : Nat
  attempts : Nat → SendAttempt
  /-- `received` of `refresh_trusted_time`. -/
  received : Nat
  begins : started ≤ sendStarted ∧ sendStarted ≤ (attempts 0).checked
  within : ∀ i, (attempts i).checked ≤ (attempts i).sent ∧
    (attempts i).sent ≤ (attempts i).received ∧ (attempts i).received ≤ (attempts i).waited
  pauses : ∀ i, (attempts i).waited + delay (attempts i) i ≤ (attempts (i + 1)).checked
  ends : ∀ response i, send sendStarted attempts = .ok (response, i) →
    (attempts i).received ≤ received

namespace TimeSync
variable {send : Nat → (Nat → SendAttempt) → Except Error (ProtocolResponse × Nat)}
  {delay : SendAttempt → Nat → Nat} (run : TimeSync send delay)

/-- The answer that `send` returns, and its attempt. -/
def result : Except Error (ProtocolResponse × Nat) := send run.sendStarted run.attempts

/-- How long an attempt took, from its own sending to its own receipt. -/
def duration (i : Nat) : Nat := (run.attempts i).received - (run.attempts i).sent

theorem started_le (i : Nat) : run.started ≤ (run.attempts i).checked := by
  induction i with
  | zero =>
    have hbegins := run.begins
    omega
  | succ i ih =>
    have hwithin := run.within i
    have hpause := run.pauses i
    omega

/-- An attempt and the pause after it lie before every later attempt. -/
theorem checked_of_lt {j i : Nat} (h : j < i) :
    (run.attempts j).waited + delay (run.attempts j) j ≤ (run.attempts i).checked := by
  induction i with
  | zero => cases h
  | succ i ih =>
    have hpause := run.pauses i
    rcases Nat.lt_succ_iff_lt_or_eq.mp h with hlt | rfl
    · have hbefore := ih hlt
      have hwithin := run.within i
      omega
    · exact hpause

/-- The call contains the attempt that was answered. -/
theorem started_le_received {response : ProtocolResponse} {i : Nat}
    (h : run.result = .ok (response, i)) : run.started + run.duration i ≤ run.received := by
  have hstarted := run.started_le i
  have hwithin := run.within i
  have hends := run.ends response i h
  unfold duration
  omega

/-- **A call contains its failed attempts and their pauses.** -/
theorem elapsed_of_retry {response : ProtocolResponse} {i j : Nat}
    (h : run.result = .ok (response, i)) (hj : j < i) :
    run.duration j + delay (run.attempts j) j + run.duration i ≤ run.received - run.started := by
  have hstarted := run.started_le j
  have hearlier := run.within j
  have hbetween := run.checked_of_lt hj
  have hlater := run.within i
  have hends := run.ends response i h
  unfold duration
  omega

end TimeSync

/-- The server times that the clocks accept. -/
def InClockRange (serverTimeMs : Int) : Prop :=
  1577836800000 ≤ serverTimeMs ∧ serverTimeMs ≤ 4102444800000

namespace Cpp

/-- A C++ run. -/
abbrev TimeSyncRun : Type :=
  TimeSync (send .trustedTimeSync) fun _ i => (resolveRequestPolicy .trustedTimeSync).retryDelay i

/-- `refresh_trusted_time`, of a run. -/
def TimeSyncRun.refresh (crypto : Crypto) (what : Bytes → Bytes) (options : TimeOptions)
    (run : TimeSyncRun) : Except Error (ServerTime × ClockState) := do
  let (response, i) ← run.result
  refreshTrustedTime crypto what options (run.attempts i).nonce run.started (.ok response)
    run.received

/-- The attempt that was answered took at most 5000 ms, and its answer passes the checks. -/
def TimeSyncRun.Answered (crypto : Crypto) (what : Bytes → Bytes) (options : TimeOptions)
    (run : TimeSyncRun) (m : ServerTime) : Prop :=
  ∃ response i, run.result = .ok (response, i) ∧ run.duration i ≤ 5000 ∧
    verifyServerTime crypto what options (run.attempts i).nonce response = .ok m

theorem setAuthoritativeTime_iff {serverTimeMs : Int} {started received : Nat}
    (horder : started ≤ received) :
    (∃ clock, ClockState.setAuthoritativeTime serverTimeMs started received = .ok clock) ↔
      received - started ≤ 5000 ∧ InClockRange serverTimeMs := by
  unfold ClockState.setAuthoritativeTime InClockRange
  constructor
  · rintro ⟨clock, h⟩
    obtain ⟨hrange, h⟩ := guard_eq_ok.mp h
    obtain ⟨htrip, -⟩ := guard_eq_ok.mp h
    omega
  · rintro ⟨htrip, hrange⟩
    rw [if_neg (by omega), if_neg (by omega)]
    exact ⟨_, rfl⟩

/-- **When an answer sets the C++ clock.** -/
theorem TimeSyncRun.refresh_iff {crypto : Crypto} {what : Bytes → Bytes} {options : TimeOptions}
    {run : TimeSyncRun} {m : ServerTime} (h : run.Answered crypto what options m) :
    (∃ clock, run.refresh crypto what options = .ok (m, clock)) ↔
      run.received - run.started ≤ 5000 ∧ InClockRange m.serverTimeMs := by
  obtain ⟨response, i, hresult, -, hverify⟩ := h
  have horder : run.started ≤ run.received := by
    have hlast := run.started_le_received hresult
    omega
  rw [← setAuthoritativeTime_iff horder]
  constructor
  · rintro ⟨clock, hrefresh⟩
    obtain ⟨answer, hanswer, hrefresh⟩ := bind_eq_ok.mp hrefresh
    obtain rfl := Except.ok.inj (hresult.symm.trans hanswer)
    obtain ⟨received, hreceived, hrefresh⟩ := bind_eq_ok.mp hrefresh
    obtain rfl := Except.ok.inj hreceived
    obtain ⟨verified, hverified, hrefresh⟩ := bind_eq_ok.mp hrefresh
    obtain rfl := Except.ok.inj (hverify.symm.trans hverified)
    obtain ⟨clock, hset, -⟩ := bind_eq_ok.mp hrefresh
    exact ⟨clock, hset⟩
  · rintro ⟨clock, hset⟩
    refine ⟨clock, bind_eq_ok.mpr ⟨(response, i), hresult, bind_eq_ok.mpr ⟨response, rfl, ?_⟩⟩⟩
    exact bind_eq_ok.mpr ⟨m, hverify, bind_eq_ok.mpr ⟨clock, hset, rfl⟩⟩

end Cpp

namespace Go

/-- `trustedClock`, in nanoseconds of the monotonic clock. -/
structure TrustedClock where
  initialized : Bool := false
  anchorUnixMillis : Int := 0
  anchorMonotonic : Nat := 0
  deriving DecidableEq, Repr

/-- The errors of the clock. -/
def clockError (code message : String) : Error where
  kind := .clock
  statusCode := 0
  serviceCode := ascii code
  message := ascii message

/-- `setAuthoritativeTime`: the clock that it leaves. -/
def setAuthoritativeTime (serverTimeMs : Int) (started received : Nat) :
    Except Error TrustedClock :=
  if serverTimeMs < 1577836800000 ∨ serverTimeMs > 4102444800000 ∨ received < started then
    .error (clockError "clock_invalid" "signed server time is outside the accepted range")
  else if received - started > 5000000000 then
    .error (clockError "clock_round_trip" "signed server time round trip is too slow")
  else .ok {
    initialized := true
    anchorUnixMillis := serverTimeMs + ((received - started) / 1000000 / 2 : Nat)
    anchorMonotonic := received }

section Refresh
open Cpp (ServerTime TimeOptions)
/- `json.Unmarshal` into a manifest, and the error of `throwIfError` for an answer. -/
variable (crypto : Crypto) (unmarshal : Bytes → Except Error ServerTime)
  (serviceError : ProtocolResponse → Error) (options : TimeOptions)

/-- The checks of `refreshTrustedTime` on the answer to its request. -/
def verifyServerTime (nonce : Bytes) (response : ProtocolResponse) : Except Error ServerTime :=
  if ¬ (200 ≤ response.statusCode ∧ response.statusCode < 300) then .error (serviceError response)
  else do
    let m ← unmarshal response.body
    if m.Mismatch options nonce ∨ m.signature = [] then
      .error (clockError "server_time_invalid"
        "signed server time identity or lifetime is invalid")
    else
      match crypto.ed25519Verify options.rootTrustPublicKey m.canonical m.signature with
      | .ok true => .ok m
      | _ => .error (clockError "server_time_signature_invalid"
          "signed server time signature is invalid")

/-- The pause after an attempt: only an answer can ask for one. -/
def delay (a : SendAttempt) (i : Nat) : Nat :=
  match a.outcome with
  | .ok _ => pause trustedTimePolicy i a
  | .error _ => trustedTimePolicy.retryDelay i

/-- A Go run. -/
abbrev TimeSyncRun : Type := TimeSync send delay

/-- `refreshTrustedTime`, of a run. -/
def TimeSyncRun.refresh (run : TimeSyncRun) : Except Error (ServerTime × TrustedClock) := do
  let (response, i) ← run.result
  let m ← verifyServerTime crypto unmarshal serviceError options (run.attempts i).nonce response
  let clock ← setAuthoritativeTime m.serverTimeMs run.started run.received
  .ok (m, clock)

/-- The attempt that was answered took at most 5 s, and its answer passes the checks. -/
def TimeSyncRun.Answered (run : TimeSyncRun) (m : ServerTime) : Prop :=
  ∃ response i, run.result = .ok (response, i) ∧ run.duration i ≤ 5000000000 ∧
    verifyServerTime crypto unmarshal serviceError options (run.attempts i).nonce response = .ok m

variable {crypto unmarshal serviceError options}

theorem setAuthoritativeTime_iff {serverTimeMs : Int} {started received : Nat}
    (horder : started ≤ received) :
    (∃ clock, setAuthoritativeTime serverTimeMs started received = .ok clock) ↔
      received - started ≤ 5000000000 ∧ InClockRange serverTimeMs := by
  unfold setAuthoritativeTime InClockRange
  constructor
  · rintro ⟨clock, h⟩
    obtain ⟨hrange, h⟩ := guard_eq_ok.mp h
    obtain ⟨htrip, -⟩ := guard_eq_ok.mp h
    omega
  · rintro ⟨htrip, hrange⟩
    rw [if_neg (by omega), if_neg (by omega)]
    exact ⟨_, rfl⟩

/-- **When an answer sets the Go clock.** -/
theorem TimeSyncRun.refresh_iff {run : TimeSyncRun} {m : ServerTime}
    (h : run.Answered crypto unmarshal serviceError options m) :
    (∃ clock, run.refresh crypto unmarshal serviceError options = .ok (m, clock)) ↔
      run.received - run.started ≤ 5000000000 ∧ InClockRange m.serverTimeMs := by
  obtain ⟨response, i, hresult, -, hverify⟩ := h
  have horder : run.started ≤ run.received := by
    have hlast := run.started_le_received hresult
    omega
  rw [← setAuthoritativeTime_iff horder]
  constructor
  · rintro ⟨clock, hrefresh⟩
    obtain ⟨answer, hanswer, hrefresh⟩ := bind_eq_ok.mp hrefresh
    obtain rfl := Except.ok.inj (hresult.symm.trans hanswer)
    obtain ⟨verified, hverified, hrefresh⟩ := bind_eq_ok.mp hrefresh
    obtain rfl := Except.ok.inj (hverify.symm.trans hverified)
    obtain ⟨clock, hset, -⟩ := bind_eq_ok.mp hrefresh
    exact ⟨clock, hset⟩
  · rintro ⟨clock, hset⟩
    refine ⟨clock, bind_eq_ok.mpr ⟨(response, i), hresult, ?_⟩⟩
    exact bind_eq_ok.mpr ⟨m, hverify, bind_eq_ok.mpr ⟨clock, hset, rfl⟩⟩

end Refresh
end Go

/-- **After a slow attempt no retry sets the clock**: one attempt of more than four seconds, with
the pause after it, uses up what the clock allows. -/
theorem timeSync_slow {crypto : Crypto} {what : Bytes → Bytes} {options : Cpp.TimeOptions}
    {run : Cpp.TimeSyncRun} {response : ProtocolResponse} {i j : Nat}
    (hresult : run.result = .ok (response, i)) (hj : j < i) (hslow : 4000 < run.duration j)
    (m : Cpp.ServerTime) (clock : Cpp.ClockState) :
    run.refresh crypto what options ≠ .ok (m, clock) := by
  intro h
  have helapsed := run.elapsed_of_retry hresult hj
  have hpause : 1000 ≤ (Cpp.resolveRequestPolicy .trustedTimeSync).retryDelay j := by
    have hshift : (1000 : Nat) ≤ 1000 <<< min j 16 := Nat.le_shiftLeft
    show 1000 ≤ min (1000 <<< min j 16) (max 4000 1000)
    omega
  unfold Cpp.TimeSyncRun.refresh at h
  rw [hresult] at h
  obtain ⟨_, -, h⟩ := bind_eq_ok.mp h
  obtain ⟨_, -, h⟩ := bind_eq_ok.mp h
  obtain ⟨m', -, h⟩ := bind_eq_ok.mp h
  obtain ⟨clock', hset, -⟩ := bind_eq_ok.mp h
  have hlast := run.started_le_received hresult
  have htrip := ((Cpp.setAuthoritativeTime_iff (by omega)).mp ⟨clock', hset⟩).1
  omega

/-- **When the retries of a time request are of use**: a verified answer to an attempt of at most
five seconds sets the clock exactly when the whole call took no longer and the server time is one
that the clock accepts, in C++ and in Go. -/
theorem timeSync_iff (crypto : Crypto) (options : Cpp.TimeOptions) (what : Bytes → Bytes)
    (unmarshal : Bytes → Except Error Cpp.ServerTime) (serviceError : ProtocolResponse → Error)
    (cpp : Cpp.TimeSyncRun) (go : Go.TimeSyncRun) :
    ((∀ m, cpp.Answered crypto what options m →
        ∃ clock, cpp.refresh crypto what options = .ok (m, clock)) ↔
      ∀ m, cpp.Answered crypto what options m →
        cpp.received - cpp.started ≤ 5000 ∧ InClockRange m.serverTimeMs) ∧
    ((∀ m, go.Answered crypto unmarshal serviceError options m →
        ∃ clock, go.refresh crypto unmarshal serviceError options = .ok (m, clock)) ↔
      ∀ m, go.Answered crypto unmarshal serviceError options m →
        go.received - go.started ≤ 5000000000 ∧ InClockRange m.serverTimeMs) :=
  ⟨forall_congr' fun _ => forall_congr' fun h => Cpp.TimeSyncRun.refresh_iff h,
    forall_congr' fun _ => forall_congr' fun h => Go.TimeSyncRun.refresh_iff h⟩

/-! The first attempt times out, and the second is answered within 50 ms. -/

def sampleAttempt (i : Nat) : SendAttempt where
  checked := 11000 * i
  nonce := ascii "nonce"
  sent := 11000 * i
  outcome :=
    if i = 0 then .error (Cpp.timeoutError "" "WinHttpReceiveResponse failed")
    else .ok ⟨200, Cpp.sampleTimeBody⟩
  received := if i = 0 then 10000 else 11000 * i + 50
  waited := if i = 0 then 10000 else 11000 * i + 50

theorem sampleAttempt_within (i : Nat) :
    (sampleAttempt i).checked ≤ (sampleAttempt i).sent ∧
      (sampleAttempt i).sent ≤ (sampleAttempt i).received ∧
      (sampleAttempt i).received ≤ (sampleAttempt i).waited := by
  unfold sampleAttempt
  dsimp only
  split
  · omega
  · omega

theorem sampleAttempt_pauses (i : Nat) :
    (sampleAttempt i).waited + (Cpp.resolveRequestPolicy .trustedTimeSync).retryDelay i ≤
      (sampleAttempt (i + 1)).checked := by
  cases i with
  | zero => decide
  | succ i =>
    have hpause : (Cpp.resolveRequestPolicy .trustedTimeSync).retryDelay (i + 1) ≤ 4000 := by
      show min (1000 <<< min (i + 1) 16) (max 4000 1000) ≤ 4000
      omega
    unfold sampleAttempt
    dsimp only
    rw [if_neg (by omega)]
    omega

theorem sampleAttempt_result :
    Cpp.send .trustedTimeSync 0 sampleAttempt = .ok (⟨200, Cpp.sampleTimeBody⟩, 1) := rfl

/-- The time request of the sample. -/
def sampleTimeSync : Cpp.TimeSyncRun where
  started := 0
  sendStarted := 0
  attempts := sampleAttempt
  received := 11050
  begins := ⟨Nat.le_refl _, Nat.le_refl _⟩
  within := sampleAttempt_within
  pauses := sampleAttempt_pauses
  ends response i h := by
    rw [sampleAttempt_result] at h
    obtain ⟨-, rfl⟩ := Prod.mk.inj (Except.ok.inj h)
    decide

/-- The clock rejects an answer that came 50 ms after its request. -/
theorem retried_time_rejected :
    ¬ ∀ (crypto : Crypto) (what : Bytes → Bytes) (options : Cpp.TimeOptions) (run : Cpp.TimeSyncRun)
      (m : Cpp.ServerTime), run.Answered crypto what options m →
      ∃ clock, run.refresh crypto what options = .ok (m, clock) := by
  intro h
  have hverify : Cpp.verifyServerTime Cpp.sampleTimeCrypto id Cpp.sampleTimeOptions
      (ascii "nonce") ⟨200, Cpp.sampleTimeBody⟩ = .ok Cpp.sampleTime := by
    decide +kernel
  have hanswered : sampleTimeSync.Answered Cpp.sampleTimeCrypto id Cpp.sampleTimeOptions
      Cpp.sampleTime :=
    ⟨⟨200, Cpp.sampleTimeBody⟩, 1, sampleAttempt_result, by decide, hverify⟩
  have hset := (Cpp.TimeSyncRun.refresh_iff hanswered).mp (h _ _ _ _ _ hanswered)
  exact absurd hset.1 (by decide)

end SwmSdk
