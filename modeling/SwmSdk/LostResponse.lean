import SwmSdk.RetryAfter

/-! # Answers that a retry loses

After a transient answer `send` pauses and then looks at the deadline again.  C++ and Go let a call
pause only when the pause and a further attempt end in time, Rust and Java do not ask; but when the
look after the pause finds no time left, all four end with the error of an earlier attempt,
or with "request deadline exceeded", and the answer is gone.

A call that nobody cancels returns the answer to its last attempt exactly when this does not come
to pass (`noResponseLost_iff`).
-/
namespace SwmSdk
open ByteText RetryLoop

/-- Nobody cancels the call, or interrupts its pauses. -/
def Uncancelled (attempts : Nat → SendAttempt) : Prop :=
  ∀ k, (attempts k).stopped = false ∧ (attempts k).stoppedMeanwhile = false ∧
    (attempts k).stoppedPausing = false

/-- A call returns the answer to its last attempt. -/
abbrev NoResponseLost (attempts : Nat → SendAttempt) (run : Run ProtocolResponse Error) : Prop :=
  NoneLost (fun k => (attempts k).outcome) run

namespace Go

/-- The loop goes on after an attempt, when nobody cancels it. -/
def GoesOn (policy : RequestPolicy) (started : Nat) (attempts : Nat → SendAttempt)
    (headers : Nat → RetryAfter) (k : Nat) : Prop :=
  match (attempts k).outcome with
  | .ok response =>
      TransientStatus response.statusCode ∧
        canWait policy (since started (attempts k).waited) (answerDelay policy (headers k) k) k =
          true
  | .error _ => canWait policy (since started (attempts k).waited) (backoff policy k) k = true

instance (policy : RequestPolicy) (started : Nat) (attempts : Nat → SendAttempt)
    (headers : Nat → RetryAfter) (k : Nat) :
    Decidable (GoesOn policy started attempts headers k) := by
  unfold GoesOn
  exact match (attempts k).outcome with
    | .ok _ => instDecidableAnd
    | .error _ => instDecidableEqBool _ _

/-- The pause after an attempt. -/
def pauseAfter (policy : RequestPolicy) (attempts : Nat → SendAttempt)
    (headers : Nat → RetryAfter) (k : Nat) : Nat :=
  match (attempts k).outcome with
  | .ok _ => (answerDelay policy (headers k) k).toNat
  | .error _ => (backoff policy k).toNat

section Turns
variable {policy : RequestPolicy} {started : Nat} {attempts : Nat → SendAttempt}
  {headers : Nat → RetryAfter} {k : Nat}

theorem lt_of_canWait {elapsed delay : Int} (h : canWait policy elapsed delay k = true) :
    k < policy.retries := by
  by_contra hk
  rw [canWait, if_pos (Nat.le_of_not_lt hk)] at h
  cases h

theorem lt_of_goesOn (h : GoesOn policy started attempts headers k) : k < policy.retries := by
  unfold GoesOn at h
  split at h
  · exact lt_of_canWait h.2
  · exact lt_of_canWait h

theorem sendTurn_eq (hcalm : Uncancelled attempts) : sendTurn policy started attempts headers k =
    .choose (pastDeadline policy (since started (attempts k).checked) = true)
      (GoesOn policy started attempts headers k) (pauseAfter policy attempts headers k)
      (attempts k).outcome := by
  obtain ⟨hstopped, hmeanwhile, hpausing⟩ := hcalm k
  obtain ⟨outcome, houtcome⟩ : ∃ outcome, (attempts k).outcome = outcome := ⟨_, rfl⟩
  unfold sendTurn Turn.choose GoesOn pauseAfter
  cases outcome with
  | ok response =>
    by_cases hwait : canWait policy (since started (attempts k).waited)
        (answerDelay policy (headers k) k) k = true
    · simp [houtcome, hstopped, hpausing, hwait, lt_of_canWait hwait, Turn.failure]
    · simp [houtcome, hstopped, hwait]
  | error e =>
    by_cases hwait : canWait policy (since started (attempts k).waited) (backoff policy k) k = true
    · have hk := Nat.not_le.mpr (lt_of_canWait hwait)
      simp [houtcome, hstopped, hmeanwhile, hpausing, hwait, hk, Turn.failure]
    · simp [houtcome, hstopped, hmeanwhile, hwait]

end Turns
end Go

/-- **When no answer is lost**: in each SDK, exactly when no pause after a transient answer leaves
its call without time for the next attempt. -/
theorem noResponseLost_iff (policy : RequestPolicy) (started : Nat)
    (attempts : Nat → SendAttempt) (hcalm : Uncancelled attempts) :
    (NoResponseLost attempts (Cpp.sendLoop policy started attempts) ↔
      ∀ k response, (∀ j ≤ k, ¬ Cpp.pastDeadline policy started (attempts j).checked = true ∧
          Cpp.GoesOn policy started attempts j) →
        (attempts k).outcome = .ok response →
        ¬ Cpp.pastDeadline policy started (attempts (k + 1)).checked = true) ∧
    (∀ headers, NoResponseLost attempts (Go.sendLoop policy started attempts headers) ↔
      ∀ k response,
        (∀ j ≤ k, ¬ Go.pastDeadline policy (Go.since started (attempts j).checked) = true ∧
          Go.GoesOn policy started attempts headers j) →
        (attempts k).outcome = .ok response →
        ¬ Go.pastDeadline policy (Go.since started (attempts (k + 1)).checked) = true) ∧
    (∀ headers, NoResponseLost attempts (Rust.sendLoop policy started attempts headers) ↔
      ∀ k response, (∀ j ≤ k, ¬ policy.PastDeadline started (attempts j).checked ∧
          Rust.GoesOn policy attempts j) →
        (attempts k).outcome = .ok response →
        ¬ policy.PastDeadline started (attempts (k + 1)).checked) ∧
    (NoResponseLost attempts (Java.sendLoop policy started attempts) ↔
      ∀ k response, (∀ j ≤ k, ¬ policy.PastDeadline started (attempts j).checked ∧
          Java.GoesOn policy attempts j) →
        (attempts k).outcome = .ok response →
        ¬ policy.PastDeadline started (attempts (k + 1)).checked) := by
  refine ⟨?_, ?_, ?_, ?_⟩
  · apply @noneLost_choose_iff _ _ _ _ _ _ _ _ _ _ policy.retryDelay
    · intro k
      rw [Cpp.sendTurn_eq, if_neg (by simp [(hcalm k).1])]
    · intro k hgoesOn
      exact Nat.succ_lt_succ (Cpp.lt_of_canWait hgoesOn.2)
  · intro headers
    apply noneLost_choose_iff
    · intro k
      exact Go.sendTurn_eq hcalm
    · intro k hgoesOn
      exact Nat.succ_lt_succ (Go.lt_of_goesOn hgoesOn)
  · intro headers
    apply noneLost_choose_iff
    · intro k
      exact Rust.sendTurn_eq policy started attempts headers k
    · intro k hgoesOn
      exact Nat.succ_lt_succ hgoesOn.1
  · apply noneLost_choose_iff
    · intro k
      rw [Java.sendTurn_eq, if_neg (by simp [(hcalm k).2.2])]
    · intro k hgoesOn
      exact Nat.succ_lt_succ hgoesOn.1

/-! A pause of a second and a half that takes 35 s, in a call of a minute. -/

/-- An attempt after which the thread sleeps past the deadline. -/
def oversleptAttempt (k : Nat) : SendAttempt where
  checked := 50000 * k
  nonce := ascii "nonce"
  sent := 50000 * k
  outcome := .ok ⟨503, []⟩
  received := 50000 * k + 15000
  waited := 50000 * k + 15000

theorem oversleptAttempt_ticks : Ticks 0 oversleptAttempt where
  begins := Nat.le_refl 0
  within k := Nat.le_add_right (50000 * k) 15000
  between k := by
    show 50000 * k + 15000 ≤ 50000 * (k + 1)
    omega

theorem oversleptAttempt_calm : Uncancelled oversleptAttempt := fun _ => ⟨rfl, rfl, rfl⟩

/-- The answer of 503 is replaced by "request deadline exceeded". -/
theorem response_lost :
    ¬ ∀ (policy : RequestPolicy) (started : Nat) (attempts : Nat → SendAttempt)
      (goHeaders : Nat → Go.RetryAfter) (rustHeaders : Nat → Rust.RetryAfter),
      Ticks started attempts → Uncancelled attempts →
      NoResponseLost attempts (Cpp.sendLoop policy started attempts) ∧
        NoResponseLost attempts (Go.sendLoop policy started attempts goHeaders) ∧
        NoResponseLost attempts (Rust.sendLoop policy started attempts rustHeaders) ∧
        NoResponseLost attempts (Java.sendLoop policy started attempts) := by
  intro h
  have hkept := (h (Cpp.resolveRequestPolicy .updateCheck) 0 oversleptAttempt (fun _ => {})
    (fun _ => {}) oversleptAttempt_ticks oversleptAttempt_calm).1
  have hresult := hkept 0 ⟨503, []⟩ rfl rfl
  have hlost : (Cpp.sendLoop (Cpp.resolveRequestPolicy .updateCheck) 0 oversleptAttempt).result =
      .error Cpp.deadlineExceeded := rfl
  rw [hlost] at hresult
  cases hresult

/-- In a call that loses nothing, the answer comes to the third attempt. -/
theorem noResponseLost_sample :
    NoResponseLost (fun k => { oversleptAttempt 0 with
        checked := 17000 * k, waited := 17000 * k + 100 })
      (Cpp.sendLoop (Cpp.resolveRequestPolicy .updateCheck) 0 fun k =>
        { oversleptAttempt 0 with checked := 17000 * k, waited := 17000 * k + 100 }) := by
  refine (noResponseLost_iff _ 0 _ fun _ => ⟨rfl, rfl, rfl⟩).1.mpr ?_
  intro k response hbefore _
  have hk := Cpp.lt_of_canWait (hbefore k (Nat.le_refl k)).2.2
  have hlate : ∀ k < 2, Cpp.pastDeadline (Cpp.resolveRequestPolicy .updateCheck) 0
      (17000 * (k + 1)) = false := by decide
  exact Bool.eq_false_iff.mp (hlate k hk)

/-- Rust and Java lose an answer without oversleeping: the pause takes the time of the next
attempt. -/
example : (Java.sendLoop (Java.policy .heartbeat) 0 fun k =>
    { oversleptAttempt 0 with checked := 22500 * k, waited := 22500 * k + 21500 }).tries =
      [some 1000] := by
  decide

end SwmSdk
