import SwmSdk.Dpop
import SwmSdk.Numeral
import SwmSdk.RetryLoop
import SwmSdk.SendLoop

/-! # The schedule of the attempts

`send` of C++, Rust and Java as loops of `RetryLoop`: what a turn of each does, in the order of its
tests.  C++ pauses only when the pause and a further attempt end before the deadline, in the 64
bits of its ticks (`cpp_schedule`).  Rust and Java look at the deadline only before an attempt, and
Rust also tries again after an error that is not one of the transport: they keep to the schedule
exactly on the runs that do not come to that (`rust_java_schedule_iff`).
-/
namespace SwmSdk
open ByteText RetryLoop

/-- An error that another attempt may mend. -/
def Transport (e : Error) : Prop := e.kind = .network ∨ e.kind = .timeout

instance (e : Error) : Decidable (Transport e) := inferInstanceAs (Decidable (_ ∨ _))

/-- What another attempt may mend. -/
def Retried : Except Error ProtocolResponse → Prop
  | .ok response => TransientStatus response.statusCode
  | .error e => Transport e

instance (outcome : Except Error ProtocolResponse) : Decidable (Retried outcome) := by
  unfold Retried
  split
  · infer_instance
  · infer_instance

/-- A pause at a time leaves room for another attempt. -/
def RequestPolicy.Room (policy : RequestPolicy) (started now delay : Nat) : Prop :=
  policy.deadline = 0 ∨ now - started + delay + policy.timeout ≤ policy.deadline

/-- The readings of the clock in a run do not decrease. -/
structure Ticks (started : Nat) (attempts : Nat → SendAttempt) : Prop where
  begins : started ≤ (attempts 0).checked
  within : ∀ i, (attempts i).checked ≤ (attempts i).waited
  between : ∀ i, (attempts i).waited ≤ (attempts (i + 1)).checked

theorem Ticks.started_le {started : Nat} {attempts : Nat → SendAttempt}
    (h : Ticks started attempts) (i : Nat) : started ≤ (attempts i).checked := by
  induction i with
  | zero => exact h.begins
  | succ i ih => exact Nat.le_trans ih (Nat.le_trans (h.within i) (h.between i))

theorem RequestPolicy.retryDelay_mono (policy : RequestPolicy) (i : Nat) :
    policy.retryDelay i ≤ policy.retryDelay (i + 1) := by
  unfold retryDelay
  by_cases hb : policy.backoff = 0
  · rw [if_pos hb, if_pos hb]
  · rw [if_neg hb, if_neg hb]
    have hpow : (2 : Nat) ^ min i 16 ≤ 2 ^ min (i + 1) 16 :=
      Nat.pow_le_pow_right (by decide) (by omega)
    have hshift := Nat.mul_le_mul_left policy.backoff hpow
    rw [← Nat.shiftLeft_eq, ← Nat.shiftLeft_eq] at hshift
    omega

theorem RequestPolicy.retryDelay_le (policy : RequestPolicy) (i : Nat) :
    policy.retryDelay i ≤ max policy.backoff policy.backoffMax := by
  unfold retryDelay
  split
  · exact Nat.zero_le _
  · omega

/-! ## C++ -/

namespace Cpp

/-- `tick_ms() - started`, in 64 bits. -/
def elapsed (started now : Nat) : Nat := (now + 2 ^ 64 - started) % 2 ^ 64

/-- The test of `send` before an attempt. -/
def pastDeadline (policy : RequestPolicy) (started now : Nat) : Bool :=
  policy.deadline > 0 ∧ (elapsed started now + policy.timeout) % 2 ^ 64 > policy.deadline

/-- `can_wait`. -/
def canWait (policy : RequestPolicy) (started now delay attempt : Nat) : Bool :=
  if attempt ≥ policy.retries then false
  else if policy.deadline = 0 then true
  else (elapsed started now + delay + policy.timeout) % 2 ^ 64 ≤ policy.deadline

/-- A turn of the loop of `send`. -/
def sendTurn (policy : RequestPolicy) (started : Nat) (attempts : Nat → SendAttempt)
    (attempt : Nat) : Turn ProtocolResponse Error :=
  let a := attempts attempt
  if a.stopped then .stop cancelled
  else if pastDeadline policy started a.checked then .late
  else
    match a.outcome with
    | .ok response =>
        if TransientStatus response.statusCode ∧ attempt < policy.retries then
          let delay := policy.retryDelay attempt
          if ¬ canWait policy started a.waited delay attempt then .done (.ok response)
          else .pause delay none
        else .done (.ok response)
    | .error e =>
        if e.kind ≠ .network ∧ e.kind ≠ .timeout then .done (.error e)
        else if attempt ≥ policy.retries then .done (.error e)
        else
          let delay := policy.retryDelay attempt
          if ¬ canWait policy started a.waited delay attempt then .done (.error e)
          else .pause delay (some e)

/-- The loop of `send`. -/
def sendLoop (policy : RequestPolicy) (started : Nat) (attempts : Nat → SendAttempt) :
    Run ProtocolResponse Error :=
  run (sendTurn policy started attempts) (·.getD deadlineExceeded) (policy.retries + 1)

/-- The loop goes on after an attempt. -/
def GoesOn (policy : RequestPolicy) (started : Nat) (attempts : Nat → SendAttempt) (k : Nat) :
    Prop :=
  Retried (attempts k).outcome ∧
    canWait policy started (attempts k).waited (policy.retryDelay k) k = true

instance (policy : RequestPolicy) (started : Nat) (attempts : Nat → SendAttempt) (k : Nat) :
    Decidable (GoesOn policy started attempts k) :=
  inferInstanceAs (Decidable (_ ∧ _))

section Turns
variable {policy : RequestPolicy} {started : Nat} {attempts : Nat → SendAttempt} {k : Nat}

theorem lt_of_canWait {now delay : Nat} (h : canWait policy started now delay k = true) :
    k < policy.retries := by
  by_contra hk
  rw [canWait, if_pos (Nat.le_of_not_lt hk)] at h
  cases h

theorem sendTurn_eq : sendTurn policy started attempts k =
    if (attempts k).stopped then .stop cancelled
    else .choose (pastDeadline policy started (attempts k).checked = true)
      (GoesOn policy started attempts k) (policy.retryDelay k) (attempts k).outcome := by
  obtain ⟨outcome, houtcome⟩ : ∃ outcome, (attempts k).outcome = outcome := ⟨_, rfl⟩
  unfold sendTurn Turn.choose GoesOn
  cases outcome with
  | ok response =>
    by_cases hwait : canWait policy started (attempts k).waited (policy.retryDelay k) k = true
    · have hk := lt_of_canWait hwait
      simp [houtcome, hwait, hk, Retried, Turn.failure]
    · simp [houtcome, hwait, Retried]
  | error e =>
    by_cases hwait : canWait policy started (attempts k).waited (policy.retryDelay k) k = true
    · have hk := lt_of_canWait hwait
      by_cases htransport : Transport e
      · have hnot : ¬ (e.kind ≠ .network ∧ e.kind ≠ .timeout) := by
          unfold Transport at htransport
          tauto
        simp [houtcome, hwait, Nat.not_le.mpr hk, Retried, Turn.failure, htransport, hnot]
      · have hother : e.kind ≠ .network ∧ e.kind ≠ .timeout := by
          unfold Transport at htransport
          tauto
        simp [houtcome, Retried, htransport, hother]
    · simp [houtcome, hwait, Retried]

/-! On ticks that do not decrease, the tests are those of the sums. -/

theorem pastDeadline_iff {now : Nat} (hle : started ≤ now)
    (hfits : now - started + policy.timeout < 2 ^ 64) :
    pastDeadline policy started now = true ↔ policy.PastDeadline started now := by
  have hsum : now + 2 ^ 64 - started = now - started + 2 ^ 64 := by omega
  rw [pastDeadline, decide_eq_true_eq, elapsed, hsum, Nat.add_mod_right, Nat.mod_add_mod,
    Nat.mod_eq_of_lt hfits]
  rfl

theorem canWait_iff {now delay : Nat} (hle : started ≤ now)
    (hfits : now - started + delay + policy.timeout < 2 ^ 64) :
    canWait policy started now delay k = true ↔ policy.CanWait started now delay k := by
  have hsum : now + 2 ^ 64 - started = now - started + 2 ^ 64 := by omega
  unfold canWait RequestPolicy.CanWait
  by_cases hk : k ≥ policy.retries
  · simp [hk, Nat.not_lt.mpr hk]
  · by_cases hdeadline : policy.deadline = 0
    · simp [hk, hdeadline, Nat.lt_of_not_le hk]
    · rw [if_neg hk, if_neg hdeadline, decide_eq_true_eq, elapsed, hsum, Nat.add_mod_right,
        Nat.add_assoc, Nat.mod_add_mod, ← Nat.add_assoc, Nat.mod_eq_of_lt hfits]
      simp [hdeadline, Nat.lt_of_not_le hk]

theorem le_of_not_pastDeadline {now : Nat} (hle : started ≤ now)
    (hlate : ¬ pastDeadline policy started now = true) (hdeadline : 0 < policy.deadline)
    (hfits : now - started + policy.timeout < 2 ^ 64) :
    now - started + policy.timeout ≤ policy.deadline := by
  rw [pastDeadline_iff hle hfits] at hlate
  unfold RequestPolicy.PastDeadline at hlate
  omega

theorem le_of_canWait {now delay : Nat} (hle : started ≤ now)
    (hwait : canWait policy started now delay k = true) (hdeadline : 0 < policy.deadline)
    (hfits : now - started + delay + policy.timeout < 2 ^ 64) :
    now - started + delay + policy.timeout ≤ policy.deadline := by
  rw [canWait_iff hle hfits] at hwait
  exact hwait.2.resolve_left (Nat.ne_of_gt hdeadline)

theorem sendTurn_pauses : (sendTurn policy started attempts k).Pauses ↔
    (attempts k).stopped = false ∧ ¬ pastDeadline policy started (attempts k).checked = true ∧
      GoesOn policy started attempts k := by
  rw [sendTurn_eq]
  by_cases hstopped : (attempts k).stopped = true
  · rw [if_pos hstopped]
    simp [hstopped, Turn.Pauses]
  · rw [if_neg hstopped, Turn.choose_pauses]
    simp [hstopped]

/-- The attempts of a call, and the pauses after them. -/
theorem sendLoop_tries {p : Option Nat} : (sendLoop policy started attempts).tries[k]? = some p ↔
    k < policy.retries + 1 ∧ (∀ j < k, (sendTurn policy started attempts j).Pauses) ∧
      (attempts k).stopped = false ∧ ¬ pastDeadline policy started (attempts k).checked = true ∧
      p = if GoesOn policy started attempts k then some (policy.retryDelay k) else none := by
  rw [sendLoop, tries_getElem?, sendTurn_eq]
  by_cases hstopped : (attempts k).stopped = true
  · rw [if_pos hstopped]
    simp [hstopped, Turn.attempt]
  · rw [if_neg hstopped, Turn.choose_attempt]
    simp [hstopped]

theorem sendLoop_pause {delay : Nat}
    (h : (sendLoop policy started attempts).tries[k]? = some (some delay)) :
    GoesOn policy started attempts k ∧ policy.retryDelay k = delay := by
  obtain ⟨-, -, -, -, hp⟩ := sendLoop_tries.mp h
  simpa using hp.symm

/-- An attempt after which the loop does not go on gives the result. -/
theorem sendLoop_ends {p : Option Nat} (h : (sendLoop policy started attempts).tries[k]? = some p)
    (hends : ¬ GoesOn policy started attempts k) :
    (sendLoop policy started attempts).tries.length = k + 1 ∧ p = none ∧
      (sendLoop policy started attempts).result = (attempts k).outcome := by
  obtain ⟨-, -, hstopped, hlate, hp⟩ := sendLoop_tries.mp h
  rw [if_neg hends] at hp
  refine ⟨length_of_not_pauses h ?_, hp, result_of_done h ?_⟩
  · rw [sendTurn_pauses]
    exact fun hpauses => hends hpauses.2.2
  · rw [sendTurn_eq, if_neg (by simp [hstopped]), Turn.choose_eq_done]
    exact ⟨hlate, hends, rfl⟩

/-- A loop whose sums stay below 2^64 returns what `sendFrom` does. -/
theorem runFrom_sendFrom (hticks : Ticks started attempts)
    (hfits : ∀ k, (attempts k).waited - started + policy.retryDelay k + policy.timeout < 2 ^ 64)
    (n i : Nat) (last : Option Error) :
    (runFrom (sendTurn policy started attempts) (·.getD deadlineExceeded) n i last).result =
      (sendFrom policy started attempts n i last).map Prod.fst := by
  induction n generalizing i last with
  | zero => rfl
  | succ n ih =>
    have hchecked := hticks.started_le i
    have hwithin := hticks.within i
    have hfit := hfits i
    have hlate : pastDeadline policy started (attempts i).checked = true ↔
        policy.PastDeadline started (attempts i).checked :=
      pastDeadline_iff hchecked (by omega)
    have hwait : canWait policy started (attempts i).waited (policy.retryDelay i) i = true ↔
        policy.CanWait started (attempts i).waited (policy.retryDelay i) i :=
      canWait_iff (Nat.le_trans hchecked hwithin) hfit
    rw [runFrom, sendFrom, sendTurn]
    dsimp only
    simp only [hlate, hwait]
    by_cases hstopped : (attempts i).stopped = true
    · simp only [if_pos hstopped]
      rfl
    by_cases hpast : policy.PastDeadline started (attempts i).checked
    · simp only [if_neg hstopped, if_pos hpast]
      rfl
    simp only [if_neg hstopped, if_neg hpast]
    obtain ⟨outcome, houtcome⟩ : ∃ outcome, (attempts i).outcome = outcome := ⟨_, rfl⟩
    rw [houtcome]
    -- where there is no time to wait, both loops end with the outcome whatever it is
    by_cases hcan : policy.CanWait started (attempts i).waited (policy.retryDelay i) i
    · have hi : ¬ i ≥ policy.retries := Nat.not_le.mpr hcan.1
      cases outcome with
      | ok response =>
        by_cases htransient : TransientStatus response.statusCode
        · simp only [if_pos (And.intro htransient hcan.1), if_neg (not_not.mpr hcan)]
          exact ih (i + 1) last
        · simp only [if_neg (fun h : _ ∧ i < policy.retries => htransient h.1)]
          rfl
      | error e =>
        by_cases hother : e.kind ≠ .network ∧ e.kind ≠ .timeout
        · simp only [if_pos hother]
          rfl
        · simp only [if_neg hother, if_neg hi, if_neg (not_not.mpr hcan)]
          exact ih (i + 1) (some e)
    · simp only [if_pos hcan, ite_self]
      cases outcome <;> rfl

theorem sendLoop_result {operation : OperationClass} (hticks : Ticks started attempts)
    (hfits : ∀ k, (attempts k).waited - started +
      (resolveRequestPolicy operation).retryDelay k + (resolveRequestPolicy operation).timeout <
        2 ^ 64) :
    (sendLoop (resolveRequestPolicy operation) started attempts).result =
      (send operation started attempts).map Prod.fst :=
  runFrom_sendFrom hticks hfits _ 0 none

end Turns

/-- The schedule of a call: when its attempts and pauses start, and how it ends.  `Exact` says
which sums of times are read as they are. -/
structure Schedule (Exact : Nat → Prop) (policy : RequestPolicy) (started : Nat)
    (attempts : Nat → SendAttempt) (run : Run ProtocolResponse Error) : Prop where
  count : run.tries.length ≤ policy.retries + 1
  starts : ∀ k p, run.tries[k]? = some p → 0 < policy.deadline →
    Exact ((attempts k).checked - started + policy.timeout) →
    (attempts k).checked - started + policy.timeout ≤ policy.deadline
  further : ∀ k p, run.tries[k + 1]? = some p → Retried (attempts k).outcome
  sleeps : ∀ k (delay : Nat), run.tries[k]? = some (some delay) → 0 < policy.deadline →
    Exact ((attempts k).waited - started + delay + policy.timeout) →
    (attempts k).waited - started + delay + policy.timeout ≤ policy.deadline
  bounded : ∀ (k delay : Nat), run.tries[k]? = some (some delay) →
    delay ≤ max policy.backoff policy.backoffMax
  grows : ∀ (k delay next : Nat), run.tries[k]? = some (some delay) →
    run.tries[k + 1]? = some (some next) → delay ≤ next
  rethrown : ∀ k p e, run.tries[k]? = some p → (attempts k).outcome = .error e → ¬ Transport e →
    run.tries.length = k + 1 ∧ p = none ∧ run.result = .error e
  unchanged : ∀ k p response, run.tries[k]? = some p → (attempts k).outcome = .ok response →
    ¬ TransientStatus response.statusCode →
    run.tries.length = k + 1 ∧ p = none ∧ run.result = .ok response

end Cpp

/-- **The schedule of the C++ `send`**, where a sum of times stays below 2^64. -/
theorem cpp_schedule (policy : RequestPolicy) (started : Nat) (attempts : Nat → SendAttempt)
    (hticks : Ticks started attempts) :
    Cpp.Schedule (· < 2 ^ 64) policy started attempts (Cpp.sendLoop policy started attempts) where
  count := tries_length_le _ _ _
  starts k p h hdeadline hexact := by
    obtain ⟨-, -, -, hlate, -⟩ := Cpp.sendLoop_tries.mp h
    exact Cpp.le_of_not_pastDeadline (hticks.started_le k) hlate hdeadline hexact
  further k p h := by
    obtain ⟨-, hbefore, -⟩ := Cpp.sendLoop_tries.mp h
    exact (Cpp.sendTurn_pauses.mp (hbefore k (Nat.lt_succ_self k))).2.2.1
  sleeps k delay h hdeadline hexact := by
    obtain ⟨hgoesOn, rfl⟩ := Cpp.sendLoop_pause h
    exact Cpp.le_of_canWait (Nat.le_trans (hticks.started_le k) (hticks.within k)) hgoesOn.2
      hdeadline hexact
  bounded k delay h := by
    obtain ⟨-, rfl⟩ := Cpp.sendLoop_pause h
    exact policy.retryDelay_le k
  grows k delay next h hnext := by
    obtain ⟨-, rfl⟩ := Cpp.sendLoop_pause h
    obtain ⟨-, rfl⟩ := Cpp.sendLoop_pause hnext
    exact policy.retryDelay_mono k
  rethrown k p e h houtcome htransport := by
    rw [← houtcome]
    apply Cpp.sendLoop_ends h
    intro hgoesOn
    have hretried := hgoesOn.1
    rw [houtcome] at hretried
    exact htransport hretried
  unchanged k p response h houtcome hstatus := by
    rw [← houtcome]
    apply Cpp.sendLoop_ends h
    intro hgoesOn
    have hretried := hgoesOn.1
    rw [houtcome] at hretried
    exact hstatus hretried

/-! A call whose first test comes 15 s before the ticks wrap around. -/

/-- An attempt shortly before the tick counter wraps. -/
def wrappedAttempt (_ : Nat) : SendAttempt where
  checked := 2 ^ 64 - 15000
  nonce := ascii "nonce"
  sent := 2 ^ 64 - 15000
  outcome := .ok ⟨200, []⟩
  received := 2 ^ 64 - 15000
  waited := 2 ^ 64 - 15000

theorem wrappedAttempt_ticks : Ticks 0 wrappedAttempt :=
  ⟨by decide, fun _ => Nat.le_refl _, fun _ => Nat.le_refl _⟩

theorem wrappedAttempt_schedule :
    Cpp.Schedule (· < 2 ^ 64) (Cpp.resolveRequestPolicy .updateCheck) 0 wrappedAttempt
      (Cpp.sendLoop (Cpp.resolveRequestPolicy .updateCheck) 0 wrappedAttempt) :=
  cpp_schedule _ _ _ wrappedAttempt_ticks

/-- Its sum of 2^64 ms is read as zero, and the attempt starts. -/
theorem schedule_wraps :
    ¬ ∀ (policy : RequestPolicy) (started : Nat) (attempts : Nat → SendAttempt),
      Ticks started attempts → (∀ k, (attempts k).waited < 2 ^ 64) →
      Cpp.Schedule (fun _ => True) policy started attempts
        (Cpp.sendLoop policy started attempts) := by
  intro h
  have hschedule := h (Cpp.resolveRequestPolicy .updateCheck) 0 wrappedAttempt
    wrappedAttempt_ticks fun _ => (by decide : 2 ^ 64 - 15000 < 2 ^ 64)
  exact absurd (hschedule.starts 0 none rfl (by decide) trivial) (by decide)

/-! ## Rust and Java -/

/-- The schedule of C++, for a call of another SDK: a pause ends in time for another attempt,
an attempt without a pause gives the result, and an error that is not one of the transport is
returned at once. -/
structure ObeysSchedule (policy : RequestPolicy) (started : Nat) (attempts : Nat → SendAttempt)
    (run : Run ProtocolResponse Error) : Prop where
  sleeps : ∀ (k delay : Nat), run.tries[k]? = some (some delay) →
    policy.Room started (attempts k).waited delay
  returned : ∀ k : Nat, run.tries[k]? = some none →
    run.tries.length = k + 1 ∧ run.result = (attempts k).outcome
  others : ∀ (k : Nat) p e, run.tries[k]? = some p → (attempts k).outcome = .error e →
    ¬ Transport e → run.tries.length = k + 1 ∧ p = none ∧ run.result = .error e

/-- A loop that returns what its last attempt gave keeps to the schedule if every pause that it
reaches does. -/
theorem obeysSchedule_iff {policy : RequestPolicy} {started : Nat} {attempts : Nat → SendAttempt}
    {turn : Nat → Turn ProtocolResponse Error} {late : Option Error → Error} {n : Nat}
    (hdone : ∀ k result, turn k = .done result → result = (attempts k).outcome) :
    ObeysSchedule policy started attempts (run turn late n) ↔
      ∀ k < n, (∀ j < k, (turn j).Pauses) → ∀ delay, (turn k).attempt = some (some delay) →
        policy.Room started (attempts k).waited delay ∧
          ∀ e, (attempts k).outcome = .error e → Transport e := by
  constructor
  · intro h k hk hbefore delay hattempt
    have htry : (run turn late n).tries[k]? = some (some delay) :=
      tries_getElem?.mpr ⟨hk, hbefore, hattempt⟩
    refine ⟨h.sleeps k delay htry, ?_⟩
    intro e houtcome
    by_contra htransport
    obtain ⟨-, hnone, -⟩ := h.others k (some delay) e htry houtcome htransport
    cases hnone
  · intro h
    -- an attempt without a pause is the last one, and the loop returns what it gave
    have hlast : ∀ k : Nat, (run turn late n).tries[k]? = some none →
        (run turn late n).tries.length = k + 1 ∧
          (run turn late n).result = (attempts k).outcome := by
      intro k htry
      obtain ⟨result, hturn⟩ := Turn.attempt_eq_none.mp (tries_getElem?.mp htry).2.2
      refine ⟨length_of_not_pauses htry ?_, ?_⟩
      · rw [hturn]
        exact id
      · rw [result_of_done htry hturn, hdone k result hturn]
    refine ⟨?_, hlast, ?_⟩
    · intro k delay htry
      obtain ⟨hk, hbefore, hattempt⟩ := tries_getElem?.mp htry
      exact (h k hk hbefore delay hattempt).1
    · intro k p e htry houtcome htransport
      cases p with
      | none =>
        have hend := hlast k htry
        exact ⟨hend.1, rfl, hend.2.trans houtcome⟩
      | some delay =>
        obtain ⟨hk, hbefore, hattempt⟩ := tries_getElem?.mp htry
        exact absurd ((h k hk hbefore delay hattempt).2 e houtcome) htransport

/-- The loop comes to an attempt and makes it. -/
def Reaches (policy : RequestPolicy) (started : Nat) (attempts : Nat → SendAttempt)
    (GoesOn : Nat → Prop) (k : Nat) : Prop :=
  (∀ j ≤ k, ¬ policy.PastDeadline started (attempts j).checked) ∧ ∀ j < k, GoesOn j

theorem reaches_iff {policy : RequestPolicy} {started : Nat} {attempts : Nat → SendAttempt}
    {GoesOn : Nat → Prop} {k : Nat} : Reaches policy started attempts GoesOn k ↔
      (∀ j < k, ¬ policy.PastDeadline started (attempts j).checked ∧ GoesOn j) ∧
        ¬ policy.PastDeadline started (attempts k).checked := by
  unfold Reaches
  constructor
  · rintro ⟨hlate, hgoesOn⟩
    exact ⟨fun j hj => ⟨hlate j (Nat.le_of_lt hj), hgoesOn j hj⟩, hlate k (Nat.le_refl k)⟩
  · rintro ⟨hbefore, hlate⟩
    refine ⟨?_, fun j hj => (hbefore j hj).2⟩
    intro j hj
    rcases Nat.lt_or_eq_of_le hj with hj | rfl
    · exact (hbefore j hj).1
    · exact hlate

namespace Rust
open Numeral

/-- `OperationClass` of the Rust pipeline, which picks the policy of a request. -/
inductive OperationClass where
  | trustedTime | onlineKey | updateCheck | heartbeat | events | feedback | enrollment | rotation
  | operationAuthorization | operationConsume | firmware | debug
  deriving DecidableEq, Repr

/-- `policy`, in nanoseconds. -/
def policy : OperationClass → RequestPolicy
  | .trustedTime | .onlineKey => ⟨10000000000, 2, 1000000000, 4000000000, 40000000000⟩
  | .updateCheck => ⟨15000000000, 2, 1500000000, 6000000000, 60000000000⟩
  | .heartbeat => ⟨8000000000, 2, 1000000000, 4000000000, 30000000000⟩
  | .operationAuthorization => ⟨10000000000, 2, 1000000000, 4000000000, 36000000000⟩
  | .operationConsume => ⟨10000000000, 1, 1000000000, 2000000000, 24000000000⟩
  | _ => ⟨10000000000, 1, 500000000, 1000000000, 24000000000⟩

/-- The `Retry-After` header of an answer, and how far from now the HTTP date of a text is. -/
structure RetryAfter where
  header : Option Bytes := none
  dateIn : Bytes → Option Int := fun _ => none

/-- `str::parse::<u64>`. -/
def parseU64 (text : Bytes) : Option Nat :=
  let digits := if text.head? = some 43 then text.tail else text
  if digits = [] then none
  else (digitsValue asciiDigit 0 digits).filter (· < 2 ^ 64)

/-- What `HeaderValue::to_str` accepts. -/
def visible (b : UInt8) : Bool := (32 ≤ b ∧ b < 127) ∨ b = 9

/-- `parse_retry_after`. -/
def parseRetryAfter (answer : RetryAfter) : Option Nat := do
  let value ← answer.header
  if ¬ value.all visible then none
  else
    match parseU64 value with
    | some seconds => some (seconds * 1000000000)
    | none =>
        let delay ← answer.dateIn value
        some delay.toNat

/-- The error of a call that ran out of time. -/
def deadlineExceeded : Error where
  kind := .timeout
  statusCode := 0
  serviceCode := []
  message := ascii "request deadline exceeded"

/-- A turn of the loop of `send`. -/
def sendTurn (policy : RequestPolicy) (started : Nat) (attempts : Nat → SendAttempt)
    (headers : Nat → RetryAfter) (attempt : Nat) : Turn ProtocolResponse Error :=
  let a := attempts attempt
  if policy.PastDeadline started a.checked then .late
  else
    match a.outcome with
    | .ok response =>
        if TransientStatus response.statusCode ∧ attempt < policy.retries then
          .pause ((parseRetryAfter (headers attempt)).getD (policy.retryDelay attempt)) none
        else .done (.ok response)
    | .error e =>
        if attempt ≥ policy.retries then .done (.error e)
        else .pause (policy.retryDelay attempt) (some e)

/-- The loop of `send`. -/
def sendLoop (policy : RequestPolicy) (started : Nat) (attempts : Nat → SendAttempt)
    (headers : Nat → RetryAfter) : Run ProtocolResponse Error :=
  run (sendTurn policy started attempts headers) (·.getD deadlineExceeded) (policy.retries + 1)

/-- The loop goes on after an attempt: after every error. -/
def GoesOn (policy : RequestPolicy) (attempts : Nat → SendAttempt) (k : Nat) : Prop :=
  k < policy.retries ∧
    match (attempts k).outcome with
    | .ok response => TransientStatus response.statusCode
    | .error _ => True

instance (policy : RequestPolicy) (attempts : Nat → SendAttempt) (k : Nat) :
    Decidable (GoesOn policy attempts k) := by
  unfold GoesOn
  split
  · infer_instance
  · infer_instance

/-- The pause after an attempt. -/
def pauseAfter (policy : RequestPolicy) (attempts : Nat → SendAttempt)
    (headers : Nat → RetryAfter) (k : Nat) : Nat :=
  match (attempts k).outcome with
  | .ok _ => (parseRetryAfter (headers k)).getD (policy.retryDelay k)
  | .error _ => policy.retryDelay k

theorem sendTurn_eq (policy : RequestPolicy) (started : Nat) (attempts : Nat → SendAttempt)
    (headers : Nat → RetryAfter) (k : Nat) : sendTurn policy started attempts headers k =
      .choose (policy.PastDeadline started (attempts k).checked) (GoesOn policy attempts k)
        (pauseAfter policy attempts headers k) (attempts k).outcome := by
  obtain ⟨outcome, houtcome⟩ : ∃ outcome, (attempts k).outcome = outcome := ⟨_, rfl⟩
  unfold sendTurn Turn.choose GoesOn pauseAfter
  cases outcome with
  | ok response =>
    simp only [houtcome]
    by_cases hretry : TransientStatus response.statusCode ∧ k < policy.retries
    · simp only [if_pos hretry, if_pos hretry.symm]
      rfl
    · simp only [if_neg hretry, if_neg fun h : _ ∧ _ => hretry h.symm]
  | error e =>
    simp only [houtcome]
    by_cases hk : k < policy.retries
    · simp only [if_neg (Nat.not_le.mpr hk), if_pos (And.intro hk trivial)]
      rfl
    · simp only [if_pos (Nat.le_of_not_lt hk), if_neg fun h : _ ∧ _ => hk h.1]

end Rust

namespace Java

/-- `policy`, in milliseconds. -/
def policy : Operation → RequestPolicy
  | .time | .keyManifest => ⟨10000, 2, 1000, 4000, 40000⟩
  | .updateCheck => ⟨15000, 2, 1500, 6000, 60000⟩
  | .heartbeat | .event => ⟨8000, 2, 1000, 4000, 30000⟩
  | .download | .updateStream => ⟨30000, 0, 0, 0, 0⟩
  | .firmware | .debug => ⟨8000, 1, 500, 1000, 20000⟩
  | _ => ⟨10000, 1, 1000, 2000, 24000⟩

/-- The exception of a call that ran out of time. -/
def timeoutError (message : String) : Error where
  kind := .timeout
  statusCode := 0
  serviceCode := []
  message := ascii message

/-- A turn of the loop of `send`; its backoff does not grow. -/
def sendTurn (policy : RequestPolicy) (started : Nat) (attempts : Nat → SendAttempt)
    (attempt : Nat) : Turn ProtocolResponse Error :=
  let a := attempts attempt
  -- `sleep`; an interrupt during the one after an answer is caught as a timeout, and the sleep that
  -- the handler begins ends at once with the same exception, since the thread is still interrupted
  let sleep (error : Option Error) : Turn ProtocolResponse Error :=
    if a.stoppedPausing then .broken policy.backoff (timeoutError "request interrupted")
    else .pause policy.backoff error
  if policy.PastDeadline started a.checked then .late
  else
    match a.outcome with
    | .ok response =>
        if TransientStatus response.statusCode ∧ attempt < policy.retries then sleep none
        else .done (.ok response)
    | .error e =>
        if e.kind ≠ .network ∧ e.kind ≠ .timeout then .done (.error e)
        else if attempt < policy.retries then sleep (some e)
        else .done (.error e)

/-- The loop of `send`. -/
def sendLoop (policy : RequestPolicy) (started : Nat) (attempts : Nat → SendAttempt) :
    Run ProtocolResponse Error :=
  run (sendTurn policy started attempts) (·.getD (timeoutError "request deadline exceeded"))
    (policy.retries + 1)

/-- The loop pauses after an attempt. -/
def GoesOn (policy : RequestPolicy) (attempts : Nat → SendAttempt) (k : Nat) : Prop :=
  k < policy.retries ∧ Retried (attempts k).outcome

instance (policy : RequestPolicy) (attempts : Nat → SendAttempt) (k : Nat) :
    Decidable (GoesOn policy attempts k) :=
  inferInstanceAs (Decidable (_ ∧ _))

theorem sendTurn_eq (policy : RequestPolicy) (started : Nat) (attempts : Nat → SendAttempt)
    (k : Nat) : sendTurn policy started attempts k =
      if (attempts k).stoppedPausing = true ∧ GoesOn policy attempts k ∧
          ¬ policy.PastDeadline started (attempts k).checked then
        .broken policy.backoff (timeoutError "request interrupted")
      else .choose (policy.PastDeadline started (attempts k).checked) (GoesOn policy attempts k)
        policy.backoff (attempts k).outcome := by
  obtain ⟨outcome, houtcome⟩ : ∃ outcome, (attempts k).outcome = outcome := ⟨_, rfl⟩
  unfold sendTurn Turn.choose GoesOn
  by_cases hlate : policy.PastDeadline started (attempts k).checked
  · simp [hlate]
  cases outcome with
  | ok response =>
    by_cases hretry : TransientStatus response.statusCode ∧ k < policy.retries
    · simp [houtcome, hlate, hretry.1, hretry.2, Retried, Turn.failure]
    · have hnot : ¬ (k < policy.retries ∧ TransientStatus response.statusCode) :=
        fun h => hretry h.symm
      simp only [houtcome, Retried, if_neg hlate, if_neg hretry, hnot, false_and, and_false,
        if_false]
  | error e =>
    by_cases htransport : Transport e
    · have hnot : ¬ (e.kind ≠ .network ∧ e.kind ≠ .timeout) := by
        unfold Transport at htransport
        tauto
      by_cases hk : k < policy.retries
      · simp [houtcome, hlate, hk, Retried, htransport, hnot, Turn.failure]
      · simp [houtcome, hlate, hk, Retried, hnot]
    · have hother : e.kind ≠ .network ∧ e.kind ≠ .timeout := by
        unfold Transport at htransport
        tauto
      simp [houtcome, hlate, Retried, htransport, hother]

/-- A pause that is not interrupted is followed by another turn. -/
theorem sendTurn_pauses {policy : RequestPolicy} {started : Nat} {attempts : Nat → SendAttempt}
    {k : Nat} : (sendTurn policy started attempts k).Pauses ↔
      ¬ policy.PastDeadline started (attempts k).checked ∧ GoesOn policy attempts k ∧
        (attempts k).stoppedPausing = false := by
  rw [sendTurn_eq]
  split
  case isTrue h => simp [Turn.Pauses, h.1]
  case isFalse h =>
    rw [Turn.choose_pauses]
    constructor
    · rintro ⟨hlate, hgoesOn⟩
      refine ⟨hlate, hgoesOn, Bool.eq_false_iff.mpr ?_⟩
      exact fun hstopped => h ⟨hstopped, hgoesOn, hlate⟩
    · rintro ⟨hlate, hgoesOn, -⟩
      exact ⟨hlate, hgoesOn⟩

theorem sendTurn_attempt {policy : RequestPolicy} {started : Nat} {attempts : Nat → SendAttempt}
    {k delay : Nat} : (sendTurn policy started attempts k).attempt = some (some delay) ↔
      ¬ policy.PastDeadline started (attempts k).checked ∧ GoesOn policy attempts k ∧
        policy.backoff = delay := by
  rw [sendTurn_eq]
  split
  case isTrue h => simp [Turn.attempt, h.2.1, h.2.2]
  case isFalse h =>
    rw [Turn.choose_attempt]
    simp [eq_comm]

end Java

/-- **When Rust and Java keep to the schedule of C++**: when every pause that they come to leaves
room for another attempt, and in Rust no error but one of the transport is followed by one. -/
theorem rust_java_schedule_iff {policy : RequestPolicy} {started : Nat}
    {attempts : Nat → SendAttempt} {headers : Nat → Rust.RetryAfter} :
    (ObeysSchedule policy started attempts (Rust.sendLoop policy started attempts headers) ↔
      ∀ k, Reaches policy started attempts (Rust.GoesOn policy attempts) k →
        Rust.GoesOn policy attempts k →
        policy.Room started (attempts k).waited (Rust.pauseAfter policy attempts headers k) ∧
          ∀ e, (attempts k).outcome = .error e → Transport e) ∧
    (ObeysSchedule policy started attempts (Java.sendLoop policy started attempts) ↔
      ∀ k, Reaches policy started attempts
          (fun j => Java.GoesOn policy attempts j ∧ (attempts j).stoppedPausing = false) k →
        Java.GoesOn policy attempts k →
        policy.Room started (attempts k).waited policy.backoff) := by
  constructor
  · rw [Rust.sendLoop, obeysSchedule_iff]
    · simp only [Rust.sendTurn_eq, Turn.choose_pauses, Turn.choose_attempt, reaches_iff]
      constructor
      · rintro h k ⟨hbefore, hlate⟩ hgoesOn
        apply h k (Nat.lt_succ_of_lt hgoesOn.1) hbefore
        exact ⟨hlate, by rw [if_pos hgoesOn]⟩
      · rintro h k - hbefore delay ⟨hlate, hdelay⟩
        obtain ⟨hgoesOn, rfl⟩ : Rust.GoesOn policy attempts k ∧
            Rust.pauseAfter policy attempts headers k = delay := by
          simpa using hdelay.symm
        exact h k ⟨hbefore, hlate⟩ hgoesOn
    · intro k result hdone
      rw [Rust.sendTurn_eq, Turn.choose_eq_done] at hdone
      exact hdone.2.2.symm
  · rw [Java.sendLoop, obeysSchedule_iff]
    · simp only [Java.sendTurn_pauses, Java.sendTurn_attempt, reaches_iff]
      constructor
      · rintro h k ⟨hbefore, hlate⟩ hgoesOn
        exact (h k (Nat.lt_succ_of_lt hgoesOn.1) hbefore _ ⟨hlate, hgoesOn, rfl⟩).1
      · rintro h k - hbefore delay ⟨hlate, hgoesOn, rfl⟩
        refine ⟨h k ⟨hbefore, hlate⟩ hgoesOn, ?_⟩
        intro e houtcome
        have hretried := hgoesOn.2
        rw [houtcome] at hretried
        exact hretried
    · intro k result hdone
      rw [Java.sendTurn_eq] at hdone
      split at hdone
      · cases hdone
      · exact (Turn.choose_eq_done.mp hdone).2.2.symm

/-! An answer that asks for an hour, in a call of at most a minute. -/

/-- An attempt that is answered with 503 at once. -/
def busyAttempt (_ : Nat) : SendAttempt where
  checked := 0
  nonce := ascii "nonce"
  sent := 0
  outcome := .ok ⟨503, []⟩
  received := 0
  waited := 0

/-- A `Retry-After` of one hour. -/
def inAnHour (_ : Nat) : Rust.RetryAfter where
  header := some (ascii "3600")

/-- The pause of an hour ends after the deadline. -/
theorem retryAfter_past_deadline :
    ¬ ∀ (policy : RequestPolicy) (started : Nat) (attempts : Nat → SendAttempt)
      (headers : Nat → Rust.RetryAfter), Ticks started attempts →
      ObeysSchedule policy started attempts (Rust.sendLoop policy started attempts headers) ∧
        ObeysSchedule policy started attempts (Java.sendLoop policy started attempts) := by
  intro h
  have hticks : Ticks 0 busyAttempt :=
    ⟨Nat.le_refl _, fun _ => Nat.le_refl _, fun _ => Nat.le_refl _⟩
  have hrust := (h (Rust.policy .updateCheck) 0 busyAttempt inAnHour hticks).1
  have hpause := hrust.sleeps 0 3600000000000 (by rfl)
  unfold RequestPolicy.Room at hpause
  exact absurd hpause (by decide)

/-- A Java call of 40 s pauses after its second attempt, 35 s after its beginning. -/
example : (Java.sendLoop (Java.policy .time) 0 fun k =>
    { busyAttempt k with checked := 25000 * k, waited := 25000 * k + 10000 }).tries =
      [some 1000, some 1000] := by
  decide

end SwmSdk
