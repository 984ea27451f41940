import SwmSdk.RetrySchedule
import SwmSdk.Rim2Ports

/-! # The pause that a server asks for

`send` of Go pauses for as long as a `Retry-After` header says.  Its times are `time.Duration`, 64
bits of nanoseconds, and the seconds of the header are multiplied and added in them: a header
of 292 years or more asks for a pause that is too short.

A header of `n` seconds is kept exactly when the sum of the times fits 64 bits, and the product
does too or its remainder is still too long to wait (`retryAfter_kept_iff`).  On times that fit, the
loop of a time request is `sendFrom` (`sendLoop_result`).
-/
namespace SwmSdk
open ByteText RetryLoop Numeral

namespace Go

/-- The operations that `policyFor` knows. -/
inductive OperationClass where
  | trustedTime | onlineKeyManifest | updateCheck | heartbeat | events | feedback
  | enrollmentTicket | deviceKeyRotation | operationAuthorization | operationGrantConsume
  | download | updateStream | firmwareIdentity | debugProtocol | debugStream
  deriving DecidableEq, Repr

/-- `policyFor`, in nanoseconds. -/
def policyFor : OperationClass → RequestPolicy
  | .trustedTime => ⟨10000000000, 2, 1000000000, 4000000000, 40000000000⟩
  | .onlineKeyManifest => ⟨10000000000, 2, 1000000000, 4000000000, 40000000000⟩
  | .updateCheck => ⟨15000000000, 2, 1500000000, 6000000000, 60000000000⟩
  | .heartbeat => ⟨8000000000, 2, 1000000000, 4000000000, 30000000000⟩
  | .operationAuthorization => ⟨10000000000, 2, 1000000000, 4000000000, 36000000000⟩
  | .operationGrantConsume => ⟨10000000000, 1, 1000000000, 2000000000, 24000000000⟩
  | .events => ⟨8000000000, 1, 1000000000, 2000000000, 20000000000⟩
  | .feedback => ⟨10000000000, 1, 1000000000, 2000000000, 24000000000⟩
  | .enrollmentTicket | .deviceKeyRotation =>
      ⟨10000000000, 1, 1000000000, 2000000000, 24000000000⟩
  | .download => ⟨30000000000, 2, 2000000000, 8000000000, 0⟩
  | .updateStream => ⟨30000000000, 0, 0, 0, 0⟩
  | .firmwareIdentity | .debugProtocol => ⟨8000000000, 1, 500000000, 1000000000, 20000000000⟩
  | .debugStream => ⟨8000000000, 1, 500000000, 1000000000, 20000000000⟩

/-- A `time.Duration`: 64 bits, with a sign. -/
def duration (nanoseconds : Int) : Int := nanoseconds.bmod (2 ^ 64)

/-- `time.Since`, which stays at the largest duration. -/
def since (started now : Nat) : Int := min ((now - started : Nat) : Int) (2 ^ 63 - 1)

/-- The `Retry-After` header of an answer, empty without one, and `time.Until` of the HTTP date
of a text. -/
structure RetryAfter where
  header : Bytes := []
  dateIn : Bytes → Option Int := fun _ => none

/-- `parseRetryAfter`. -/
def parseRetryAfter (answer : RetryAfter) : Int :=
  let value := trimSpace answer.header
  if value = [] then 0
  else
    match parseInt64 value with
    | some seconds => if seconds < 0 then 0 else duration (seconds * 1000000000)
    | none =>
        match answer.dateIn value with
        | some delay => if delay < 0 then 0 else delay
        | none => 0

/-- `backoff`. -/
def backoff (policy : RequestPolicy) (attempt : Nat) : Int :=
  if policy.backoff = 0 then 0
  else
    let delay := duration (policy.backoff <<< min attempt 16 : Nat)
    let maximum := if policy.backoffMax < policy.backoff then policy.backoff else policy.backoffMax
    if delay > maximum then maximum else delay

/-- `canWait`. -/
def canWait (policy : RequestPolicy) (elapsed delay : Int) (attempt : Nat) : Bool :=
  if attempt ≥ policy.retries then false
  else if policy.deadline = 0 then true
  else duration (duration (elapsed + delay) + policy.timeout) ≤ policy.deadline

/-- The test of `send` before an attempt. -/
def pastDeadline (policy : RequestPolicy) (elapsed : Int) : Bool :=
  policy.deadline > 0 ∧ duration (elapsed + policy.timeout) > policy.deadline

/-- The pause of `send` after a transient answer. -/
def answerDelay (policy : RequestPolicy) (answer : RetryAfter) (attempt : Nat) : Int :=
  let delay := parseRetryAfter answer
  if delay ≤ 0 then backoff policy attempt else delay

/-- A turn of the loop of `send`. -/
def sendTurn (policy : RequestPolicy) (started : Nat) (attempts : Nat → SendAttempt)
    (headers : Nat → RetryAfter) (attempt : Nat) : Turn ProtocolResponse Error :=
  let a := attempts attempt
  -- `sleepContext`, which does not look at the context when there is nothing to wait for
  let sleepContext (delay : Int) (error : Option Error) : Turn ProtocolResponse Error :=
    if delay > 0 ∧ a.stoppedPausing then .broken delay.toNat contextDone
    else .pause delay.toNat error
  if a.stopped then .stop contextDone
  else if pastDeadline policy (since started a.checked) then .late
  else
    match a.outcome with
    | .ok response =>
        if TransientStatus response.statusCode ∧ attempt < policy.retries then
          let delay := answerDelay policy (headers attempt) attempt
          if ¬ canWait policy (since started a.waited) delay attempt then .done (.ok response)
          else sleepContext delay none
        else .done (.ok response)
    | .error e =>
        if a.stoppedMeanwhile then .done (.error contextDone)
        else if attempt ≥ policy.retries then .done (.error e)
        else
          let delay := backoff policy attempt
          if ¬ canWait policy (since started a.waited) delay attempt then .done (.error e)
          else sleepContext delay (some e)

/-- The loop of `send`. -/
def sendLoop (policy : RequestPolicy) (started : Nat) (attempts : Nat → SendAttempt)
    (headers : Nat → RetryAfter) : Run ProtocolResponse Error :=
  run (sendTurn policy started attempts headers) (·.getD deadlineExceeded) (policy.retries + 1)

/-! ## The times of a policy -/

theorem policyFor_bounds (operation : OperationClass) :
    (policyFor operation).timeout ≤ 30000000000 ∧ (policyFor operation).backoff ≤ 2000000000 ∧
      (policyFor operation).backoffMax ≤ 8000000000 ∧
      (0 < (policyFor operation).deadline →
        (policyFor operation).timeout ≤ (policyFor operation).deadline ∧
          (policyFor operation).deadline ≤ 60000000000) := by
  cases operation <;> decide

/-- A duration that fits 64 bits is exact. -/
theorem duration_of_fits {n : Int} (hlow : 0 ≤ n) (hfits : n < 2 ^ 63) : duration n = n :=
  Int.bmod_eq_of_le_mul_two (by omega) (by omega)

/-- One that does not comes out negative, or as what is left above 2^64. -/
theorem duration_of_wraps {n : Int} (hlow : 2 ^ 63 ≤ n) (hhigh : n < 2 ^ 64 + 2 ^ 63) :
    duration n = n - 2 ^ 64 := by
  rw [duration, Int.bmod_eq_iff (by decide)]
  omega

theorem retryDelay_le (operation : OperationClass) (k : Nat) :
    (policyFor operation).retryDelay k ≤ 8000000000 := by
  obtain ⟨-, hbackoff, hmax, -⟩ := policyFor_bounds operation
  have hle := (policyFor operation).retryDelay_le k
  omega

/-- No backoff of a policy wraps around. -/
theorem backoff_eq (operation : OperationClass) (k : Nat) :
    backoff (policyFor operation) k = (policyFor operation).retryDelay k := by
  obtain ⟨-, hbackoff, hmax, -⟩ := policyFor_bounds operation
  have hpow : (2 : Nat) ^ min k 16 ≤ 2 ^ 16 := Nat.pow_le_pow_right (by decide) (by omega)
  have hshift := Nat.mul_le_mul hbackoff hpow
  rw [← Nat.shiftLeft_eq] at hshift
  unfold backoff RequestPolicy.retryDelay
  generalize (policyFor operation).backoff <<< min k 16 = shifted at hshift
  have hexact : duration (shifted : Nat) = shifted := duration_of_fits (by omega) (by omega)
  by_cases hzero : (policyFor operation).backoff = 0
  · simp [hzero]
  · rw [if_neg hzero, if_neg hzero]
    dsimp only
    rw [hexact]
    split <;> split <;> omega

section Header
variable {operation : OperationClass} {k : Nat} {n : Int}

/-- The pause that `n` seconds lead to: the seconds in 64 bits, or the backoff. -/
def delayFor (policy : RequestPolicy) (attempt : Nat) (n : Int) : Int :=
  if 0 < duration (n * 1000000000) then duration (n * 1000000000)
  else policy.retryDelay attempt

theorem answerDelay_eq {answer : RetryAfter}
    (hseconds : parseInt64 (trimSpace answer.header) = some n) (hn : 0 ≤ n) :
    answerDelay (policyFor operation) answer k = delayFor (policyFor operation) k n := by
  have hparsed : parseRetryAfter answer = duration (n * 1000000000) := by
    unfold parseRetryAfter
    rw [if_neg, hseconds]
    · exact if_neg (Int.not_lt.mpr hn)
    · intro hempty
      rw [hempty] at hseconds
      cases hseconds
  unfold answerDelay delayFor
  dsimp only
  rw [hparsed, backoff_eq]
  split <;> split <;> omega

theorem delayFor_nonneg : 0 ≤ delayFor (policyFor operation) k n := by
  unfold delayFor
  split <;> omega

theorem delayFor_lt : delayFor (policyFor operation) k n < 2 ^ 63 := by
  have hdelay := retryDelay_le operation k
  have hbound : duration (n * 1000000000) < (((2 ^ 64 : Nat) : Int) + 1) / 2 :=
    Int.bmod_lt (by decide)
  unfold delayFor
  split
  · omega
  · omega

/-- Seconds whose nanoseconds fit 64 bits. -/
theorem delayFor_of_fits (hn : 0 < n) (hfits : n * 1000000000 < 2 ^ 63) :
    delayFor (policyFor operation) k n = n * 1000000000 := by
  have hexact := duration_of_fits (by omega) hfits
  unfold delayFor
  rw [hexact, if_pos (by omega)]

theorem delayFor_zero : delayFor (policyFor operation) k 0 = (policyFor operation).retryDelay k :=
  if_neg (by decide)

theorem since_bounds (started now : Nat) : 0 ≤ since started now ∧ since started now < 2 ^ 63 := by
  unfold since
  omega

/-- What `canWait` says of a policy with a deadline: it also waits when the sum wraps around. -/
theorem canWait_iff (hdeadline : 0 < (policyFor operation).deadline) {elapsed delay : Int}
    (helapsed : 0 ≤ elapsed ∧ elapsed < 2 ^ 63) (hdelay : 0 ≤ delay ∧ delay < 2 ^ 63) :
    canWait (policyFor operation) elapsed delay k = true ↔ k < (policyFor operation).retries ∧
      (elapsed + delay + (policyFor operation).timeout ≤ (policyFor operation).deadline ∨
        2 ^ 63 ≤ elapsed + delay + (policyFor operation).timeout) := by
  obtain ⟨-, -, -, hpolicy⟩ := policyFor_bounds operation
  obtain ⟨htimeout, hshort⟩ := hpolicy hdeadline
  unfold canWait
  by_cases hk : k ≥ (policyFor operation).retries
  · simp [hk, Nat.not_lt.mpr hk]
  · rw [if_neg hk, if_neg (Nat.ne_of_gt hdeadline), decide_eq_true_eq]
    have hsum : duration (duration (elapsed + delay) + (policyFor operation).timeout) =
        duration (elapsed + delay + (policyFor operation).timeout) := Int.bmod_add_bmod
    rw [hsum]
    by_cases hfits : elapsed + delay + (policyFor operation).timeout < 2 ^ 63
    · rw [duration_of_fits (by omega) hfits]
      omega
    · rw [duration_of_wraps (by omega) (by omega)]
      omega

end Header

/-- The header of an answer is kept to: a pause that another attempt follows is as long as it says,
and the call waits only when the pause and the attempt end before the deadline. -/
def RetryAfterKept (policy : RequestPolicy) (started : Nat) (attempts : Nat → SendAttempt)
    (headers : Nat → RetryAfter) (k : Nat) (n : Int) : Prop :=
  (∀ delay, (sendLoop policy started attempts headers).tries[k]? = some (some delay) →
    k + 1 < (sendLoop policy started attempts headers).tries.length →
    0 < n → n * 1000000000 ≤ delay) ∧
  (canWait policy (since started (attempts k).waited) (answerDelay policy (headers k) k) k = true →
    since started (attempts k).waited + n * 1000000000 + policy.timeout ≤ policy.deadline)

/-- The pause after a transient answer. -/
theorem sendLoop_pause {policy : RequestPolicy} {started : Nat} {attempts : Nat → SendAttempt}
    {headers : Nat → RetryAfter} {k delay : Nat} {response : ProtocolResponse}
    (h : (sendLoop policy started attempts headers).tries[k]? = some (some delay))
    (houtcome : (attempts k).outcome = .ok response) :
    canWait policy (since started (attempts k).waited) (answerDelay policy (headers k) k) k = true ∧
      (answerDelay policy (headers k) k).toNat = delay := by
  obtain ⟨-, -, hattempt⟩ := tries_getElem?.mp h
  unfold sendTurn at hattempt
  dsimp only at hattempt
  rw [houtcome] at hattempt
  by_cases hstopped : (attempts k).stopped = true
  · rw [if_pos hstopped] at hattempt
    cases hattempt
  rw [if_neg hstopped] at hattempt
  by_cases hlate : pastDeadline policy (since started (attempts k).checked) = true
  · rw [if_pos hlate] at hattempt
    cases hattempt
  rw [if_neg hlate] at hattempt
  by_cases hretry : TransientStatus response.statusCode ∧ k < policy.retries
  · simp only [if_pos hretry] at hattempt
    -- an answer that may be retried is kept when there is no time to wait
    by_cases hwait : canWait policy (since started (attempts k).waited)
        (answerDelay policy (headers k) k) k = true
    · refine ⟨hwait, ?_⟩
      rw [if_neg (not_not.mpr hwait)] at hattempt
      split at hattempt
      · exact Option.some.inj (Option.some.inj hattempt)
      · exact Option.some.inj (Option.some.inj hattempt)
    · rw [if_pos hwait] at hattempt
      cases hattempt
  · simp only [if_neg hretry] at hattempt
    cases hattempt

/-! ## The loop of the time request -/

section TimeRequest
variable {started : Nat} {attempts : Nat → SendAttempt} {headers : Nat → RetryAfter} {k : Nat}

theorem pastDeadline_iff {policy : RequestPolicy} {now : Nat}
    (hfits : now - started + policy.timeout < 2 ^ 63) :
    pastDeadline policy (since started now) = true ↔ policy.PastDeadline started now := by
  have hsince : since started now = (now - started : Nat) := by
    unfold since
    omega
  rw [pastDeadline, decide_eq_true_eq, hsince, duration_of_fits (by omega) (by omega)]
  unfold RequestPolicy.PastDeadline
  omega

theorem canWait_of_fits {policy : RequestPolicy} {now delay : Nat}
    (hfits : now - started + delay + policy.timeout < 2 ^ 63) :
    canWait policy (since started now) delay k = true ↔ policy.CanWait started now delay k := by
  have hsince : since started now = (now - started : Nat) := by
    unfold since
    omega
  unfold canWait RequestPolicy.CanWait
  by_cases hk : k ≥ policy.retries
  · simp [hk, Nat.not_lt.mpr hk]
  · by_cases hdeadline : policy.deadline = 0
    · simp [hk, hdeadline, Nat.lt_of_not_le hk]
    · have hinner : duration ((now - started : Nat) + delay) = (now - started : Nat) + delay :=
        duration_of_fits (by omega) (by omega)
      rw [if_neg hk, if_neg hdeadline, decide_eq_true_eq, hsince, hinner,
        duration_of_fits (by omega) (by omega)]
      omega

theorem trustedTime_retryDelay_pos (k : Nat) : 0 < trustedTimePolicy.retryDelay k := by
  have hshift : (1000000000 : Nat) ≤ 1000000000 <<< min k 16 := Nat.le_shiftLeft
  show 0 < min (1000000000 <<< min k 16) (max 4000000000 1000000000)
  omega

theorem pause_pos (attempt : SendAttempt) : 0 < pause trustedTimePolicy k attempt := by
  have hpositive := trustedTime_retryDelay_pos k
  unfold pause
  split <;> omega

/-- The delay after an answer, when the header is read as the attempt says. -/
theorem answerDelay_pause {header : RetryAfter} {attempt : SendAttempt}
    (hheader : parseRetryAfter header = attempt.retryAfter) :
    answerDelay trustedTimePolicy header k = pause trustedTimePolicy k attempt := by
  have hbackoff : backoff trustedTimePolicy k = trustedTimePolicy.retryDelay k :=
    backoff_eq .trustedTime k
  unfold answerDelay pause
  dsimp only
  rw [hheader, hbackoff]
  split <;> split <;> omega

/-- The loop on times that fit 64 bits returns what `sendFrom` does. -/
theorem runFrom_sendFrom
    (hheader : ∀ k, parseRetryAfter (headers k) = (attempts k).retryAfter)
    (hfits : ∀ k, (attempts k).checked ≤ (attempts k).waited ∧
      (attempts k).waited - started + pause trustedTimePolicy k (attempts k) +
        trustedTimePolicy.retryDelay k + trustedTimePolicy.timeout < 2 ^ 63)
    (n i : Nat) (last : Option Error) :
    (runFrom (sendTurn trustedTimePolicy started attempts headers) (·.getD deadlineExceeded)
      n i last).result = (sendFrom trustedTimePolicy started attempts n i last).map Prod.fst := by
  induction n generalizing i last with
  | zero => rfl
  | succ n ih =>
    obtain ⟨hwithin, hfit⟩ := hfits i
    have hbackoff : backoff trustedTimePolicy i = trustedTimePolicy.retryDelay i :=
      backoff_eq .trustedTime i
    have hlate : pastDeadline trustedTimePolicy (since started (attempts i).checked) = true ↔
        trustedTimePolicy.PastDeadline started (attempts i).checked :=
      pastDeadline_iff (by omega)
    have hwaitAnswer : canWait trustedTimePolicy (since started (attempts i).waited)
        (pause trustedTimePolicy i (attempts i) : Nat) i = true ↔
        trustedTimePolicy.CanWait started (attempts i).waited
          (pause trustedTimePolicy i (attempts i)) i := canWait_of_fits (by omega)
    have hwaitError : canWait trustedTimePolicy (since started (attempts i).waited)
        (trustedTimePolicy.retryDelay i : Nat) i = true ↔
        trustedTimePolicy.CanWait started (attempts i).waited
          (trustedTimePolicy.retryDelay i) i := canWait_of_fits (by omega)
    rw [runFrom, sendFrom, sendTurn]
    dsimp only
    rw [answerDelay_pause (hheader i), hbackoff]
    simp only [hlate, hwaitAnswer, hwaitError]
    by_cases hstopped : (attempts i).stopped = true
    · simp only [if_pos hstopped]
      rfl
    by_cases hpast : trustedTimePolicy.PastDeadline started (attempts i).checked
    · simp only [if_neg hstopped, if_pos hpast]
      rfl
    simp only [if_neg hstopped, if_neg hpast]
    obtain ⟨outcome, houtcome⟩ : ∃ outcome, (attempts i).outcome = outcome := ⟨_, rfl⟩
    rw [houtcome]
    -- an answer waits for its header, an error for the backoff; a pause of some length looks at
    -- the context, so a stop in it ends both loops
    cases outcome with
    | ok response =>
      by_cases hretry : TransientStatus response.statusCode ∧ i < trustedTimePolicy.retries
      · by_cases hcan : trustedTimePolicy.CanWait started (attempts i).waited
            (pause trustedTimePolicy i (attempts i)) i
        · by_cases hpausing : (attempts i).stoppedPausing = true
          · simp only [if_pos hretry, if_neg (not_not.mpr hcan), hpausing, and_true,
              if_pos (Int.natCast_pos.mpr (pause_pos _))]
            rfl
          · simp only [if_pos hretry, if_neg (not_not.mpr hcan), hpausing, Bool.false_eq_true,
              and_false, if_false]
            exact ih (i + 1) last
        · simp only [if_pos hretry, if_pos hcan]
          rfl
      · simp only [if_neg hretry]
        rfl
    | error e =>
      by_cases hmeanwhile : (attempts i).stoppedMeanwhile = true
      · simp only [if_pos hmeanwhile]
        rfl
      by_cases hi : i ≥ trustedTimePolicy.retries
      · simp only [if_neg hmeanwhile, if_pos hi]
        rfl
      by_cases hcan : trustedTimePolicy.CanWait started (attempts i).waited
          (trustedTimePolicy.retryDelay i) i
      · by_cases hpausing : (attempts i).stoppedPausing = true
        · simp only [if_neg hmeanwhile, if_neg hi, if_neg (not_not.mpr hcan), hpausing, and_true,
            if_pos (Int.natCast_pos.mpr (trustedTime_retryDelay_pos i))]
          rfl
        · simp only [if_neg hmeanwhile, if_neg hi, if_neg (not_not.mpr hcan), hpausing,
            Bool.false_eq_true, and_false, if_false]
          exact ih (i + 1) (some e)
      · simp only [if_neg hmeanwhile, if_neg hi, if_pos hcan]
        rfl

theorem sendLoop_result
    (hheader : ∀ k, parseRetryAfter (headers k) = (attempts k).retryAfter)
    (hfits : ∀ k, (attempts k).checked ≤ (attempts k).waited ∧
      (attempts k).waited - started + pause trustedTimePolicy k (attempts k) +
        trustedTimePolicy.retryDelay k + trustedTimePolicy.timeout < 2 ^ 63) :
    (sendLoop trustedTimePolicy started attempts headers).result =
      (send started attempts).map Prod.fst :=
  runFrom_sendFrom hheader hfits _ 0 none

end TimeRequest
end Go

open Go in
/-- **When Go keeps to a header of `n` seconds.** -/
theorem retryAfter_kept_iff (operation : Go.OperationClass)
    (hdeadline : 0 < (policyFor operation).deadline) (started : Nat)
    (attempts : Nat → SendAttempt) (headers : Nat → Go.RetryAfter) (k : Nat) (n : Int)
    (response : ProtocolResponse) (houtcome : (attempts k).outcome = .ok response)
    (hseconds : parseInt64 (trimSpace (headers k).header) = some n) (hn : 0 ≤ n) :
    RetryAfterKept (policyFor operation) started attempts headers k n ↔
      k < (policyFor operation).retries →
        since started (attempts k).waited + delayFor (policyFor operation) k n +
          (policyFor operation).timeout < 2 ^ 63 ∧
        (n * 1000000000 < 2 ^ 63 ∨ (policyFor operation).deadline <
          since started (attempts k).waited + delayFor (policyFor operation) k n +
            (policyFor operation).timeout) := by
  obtain ⟨-, -, -, hpolicy⟩ := policyFor_bounds operation
  obtain ⟨htimeout, hshort⟩ := hpolicy hdeadline
  have helapsed := since_bounds started (attempts k).waited
  have hbounds : 0 ≤ delayFor (policyFor operation) k n ∧
      delayFor (policyFor operation) k n < 2 ^ 63 := ⟨delayFor_nonneg, delayFor_lt⟩
  have hbackoff := retryDelay_le operation k
  have hwait := canWait_iff (k := k) hdeadline helapsed hbounds
  have hdelay : answerDelay (policyFor operation) (headers k) k =
      delayFor (policyFor operation) k n := answerDelay_eq hseconds hn
  -- the pause is the seconds, the backoff for none, or what 64 bits leave of them
  have hcases : n * 1000000000 < 2 ^ 63 →
      delayFor (policyFor operation) k n = n * 1000000000 ∨
        n = 0 ∧ delayFor (policyFor operation) k n = (policyFor operation).retryDelay k := by
    intro hfits
    rcases Int.lt_or_eq_of_le hn with hpos | rfl
    · exact .inl (delayFor_of_fits hpos hfits)
    · exact .inr ⟨rfl, delayFor_zero⟩
  have hexact : RetryAfterKept (policyFor operation) started attempts headers k n ↔
      (k < (policyFor operation).retries ∧
        (since started (attempts k).waited + delayFor (policyFor operation) k n +
            (policyFor operation).timeout ≤ (policyFor operation).deadline ∨
          2 ^ 63 ≤ since started (attempts k).waited + delayFor (policyFor operation) k n +
            (policyFor operation).timeout) →
        since started (attempts k).waited + n * 1000000000 + (policyFor operation).timeout ≤
          (policyFor operation).deadline) := by
    unfold RetryAfterKept
    rw [hdelay, hwait]
    constructor
    · exact And.right
    · intro hsum
      refine ⟨?_, hsum⟩
      intro delay htry _ hpos
      obtain ⟨hcan, rfl⟩ := sendLoop_pause htry houtcome
      rw [hdelay] at hcan ⊢
      have hle := hsum (hwait.mp hcan)
      have hsame : delayFor (policyFor operation) k n = n * 1000000000 :=
        delayFor_of_fits hpos (by omega)
      omega
  rw [hexact]
  constructor
  · intro hsum hk
    by_cases hfits : n * 1000000000 < 2 ^ 63
    · have hpause := hcases hfits
      omega
    · omega
  · rintro hcondition ⟨hk, hsum⟩
    obtain ⟨hsmall, hproduct⟩ := hcondition hk
    by_cases hfits : n * 1000000000 < 2 ^ 63
    · have hpause := hcases hfits
      omega
    · omega

/-! A header of 585 years, to a call of at most a minute. -/

/-- A `Retry-After` whose nanoseconds do not fit into 64 bits. -/
def busyHeader (_ : Nat) : Go.RetryAfter where
  header := ascii "18446744074"

/-- Go waits for 290 ms. -/
theorem retryAfter_wraps :
    ¬ ∀ (operation : Go.OperationClass), 0 < (Go.policyFor operation).deadline →
      ∀ (started : Nat) (attempts : Nat → SendAttempt) (headers : Nat → Go.RetryAfter) (k : Nat)
        (n : Int) (response : ProtocolResponse), (attempts k).outcome = .ok response →
        parseInt64 (Go.trimSpace (headers k).header) = some n → 0 ≤ n →
        Go.RetryAfterKept (Go.policyFor operation) started attempts headers k n := by
  intro h
  have hkept := h .updateCheck (by decide) 0 busyAttempt busyHeader 0 18446744074 ⟨503, []⟩ rfl
    (by decide +kernel) (by decide)
  exact absurd (hkept.2 (by decide)) (by decide)

theorem retryAfter_kept_five :
    Go.RetryAfterKept (Go.policyFor .updateCheck) 0 busyAttempt
      (fun _ => { header := ascii "5" }) 0 5 := by
  refine (retryAfter_kept_iff .updateCheck (by decide) 0 busyAttempt _ 0 5 ⟨503, []⟩ rfl
    (by decide +kernel) (by decide)).mpr ?_
  exact fun _ => ⟨by decide, .inl (by decide)⟩

end SwmSdk
