import SwmSdk.ByteText
import SwmSdk.Schedule

/-! # The callbacks of an asynchronous task

`make_async` runs a callable in a thread of its own.  That thread publishes what the callable
did, then takes the callbacks registered so far and invokes one of them; `on_completed` and
`on_error` store their callback, or invoke it at once when the result is there.  Each section
under the mutex is one step, and a schedule interleaves the steps of the threads.

When every callback runs as it should is `callbacks_exact_iff`: a task that failed invokes
`on_completed` when no `on_error` was registered in time (`completed_after_throw`).
-/
namespace SwmSdk.Cpp.AsyncTask
open ByteText Schedule

/-- `AsyncState`, without its threads.  An empty `std::function` and a null `exception_ptr` are
`none`. -/
structure AsyncState (α ε κ φ : Type) where
  value : Option α := none
  exception : Option ε := none
  completed : Option κ := none
  failed : Option φ := none
  done : Bool := false
  deriving DecidableEq, Repr

/-- Where the worker is, with its local variables. -/
inductive Worker (α ε κ φ : Type) where
  /-- In the callable. -/
  | running
  /-- The callable returned; its value is not stored yet. -/
  | returned (value : α)
  /-- In `catch (...)`. -/
  | caught (exception : ε)
  /-- `done` is set. -/
  | published
  /-- It took the callbacks. -/
  | taken (completed : Option κ) (failed : Option φ) (exception : Option ε)
  | ended
  deriving DecidableEq, Repr

/-- Where the call of `on_completed` or `on_error` is, with its callback. -/
inductive Registration (κ : Type) where
  /-- It was not called. -/
  | idle
  /-- It stored the callback and returned. -/
  | stored (callback : Option κ)
  /-- `invoke_now` is set. -/
  | invoking (callback : Option κ)
  /-- It invoked the callback itself and returned. -/
  | returned (callback : Option κ)
  deriving DecidableEq, Repr

/-- The task and its threads, with the calls made to either callback. -/
structure TaskThreads (α ε κ φ : Type) where
  state : AsyncState α ε κ φ := {}
  worker : Worker α ε κ φ := .running
  onCompleted : Registration κ := .idle
  onError : Registration φ := .idle
  completedCalls : List κ := []
  failedCalls : List (φ × Option ε) := []
  deriving DecidableEq, Repr

/-- The steps: those of the worker, and the two of each registration. -/
inductive TaskAction (κ φ : Type) where
  | finish | publishValue | publishException | take | invoke
  | onCompleted (callback : Option κ) | invokeCompleted
  | onError (callback : Option φ) | invokeError
  deriving DecidableEq, Repr

/-! ## The steps -/

section Steps
variable {α ε κ φ : Type} (emplace : α → Except ε α) (callable : Except ε α)
  (t : TaskThreads α ε κ φ)

/-- The callable returns or throws. -/
def finish : Option (TaskThreads α ε κ φ) :=
  match t.worker with
  | .running => some { t with worker := match callable with
      | .ok value => .returned value
      | .error exception => .caught exception }
  | _ => none

/-- The value is moved into the state, which may throw: `emplace` stands in the same `try` as
the callable. -/
def publishValue : Option (TaskThreads α ε κ φ) :=
  match t.worker with
  | .returned value =>
      match emplace value with
      | .ok moved => some { t with
          state := { t.state with value := some moved, done := true }
          worker := .published }
      | .error exception => some { t with worker := .caught exception }
  | _ => none

/-- The handler of the worker stores the exception it caught and marks the task as done, under the
lock. -/
def publishException : Option (TaskThreads α ε κ φ) :=
  match t.worker with
  | .caught exception => some { t with
      state := { t.state with exception := some exception, done := true }
      worker := .published }
  | _ => none

/-- The callbacks are moved out of the state. -/
def take : Option (TaskThreads α ε κ φ) :=
  match t.worker with
  | .published => some { t with
      state := { t.state with completed := none, failed := none }
      worker := .taken t.state.completed t.state.failed t.state.exception }
  | _ => none

/-- The worker calls the callback it took, now without the lock. -/
def invoke : Option (TaskThreads α ε κ φ) :=
  match t.worker with
  | .taken completed failed exception =>
      match exception, failed with
      | some e, some callback => some { t with
          worker := .ended, failedCalls := t.failedCalls ++ [(callback, some e)] }
      -- the second test of the source is `else if (completed)`
      | _, _ => some { t with
          worker := .ended, completedCalls := t.completedCalls ++ completed.toList }
  | _ => none

/-- `on_completed`, up to the end of its lock. -/
def onCompleted (callback : Option κ) : Option (TaskThreads α ε κ φ) :=
  match t.onCompleted with
  | .idle =>
      if t.state.done = true ∧ t.state.exception.isNone then
        some { t with onCompleted := .invoking callback }
      else some { t with
        state := { t.state with completed := callback }
        onCompleted := .stored callback }
  | _ => none

/-- The rest of `on_completed`. -/
def invokeCompleted : Option (TaskThreads α ε κ φ) :=
  match t.onCompleted with
  | .invoking callback => some { t with
      onCompleted := .returned callback
      completedCalls := t.completedCalls ++ callback.toList }
  | _ => none

/-- `on_error`, up to the end of its lock. -/
def onError (callback : Option φ) : Option (TaskThreads α ε κ φ) :=
  match t.onError with
  | .idle =>
      if t.state.done = true ∧ t.state.exception.isSome then
        some { t with onError := .invoking callback }
      else some { t with
        state := { t.state with failed := callback }
        onError := .stored callback }
  | _ => none

/-- The rest of `on_error`; it reads the exception without the lock. -/
def invokeError : Option (TaskThreads α ε κ φ) :=
  match t.onError with
  | .invoking callback => some { t with
      onError := .returned callback
      failedCalls := t.failedCalls ++ callback.toList.map (·, t.state.exception) }
  | _ => none

/-- One step of one thread. -/
def taskStep : TaskAction κ φ → Option (TaskThreads α ε κ φ)
  | .finish => finish callable t
  | .publishValue => publishValue emplace t
  | .publishException => publishException t
  | .take => take t
  | .invoke => invoke t
  | .onCompleted callback => onCompleted t callback
  | .invokeCompleted => invokeCompleted t
  | .onError callback => onError t callback
  | .invokeError => invokeError t

end Steps

/-- What `wait` throws. -/
inductive WaitFailure (ε : Type) where
  | logicError (what : Bytes)
  | rethrown (exception : ε)
  deriving DecidableEq, Repr

/-- `wait` on a task that may have no state; `none` while it waits. -/
def wait {α ε κ φ : Type} : Option (AsyncState α ε κ φ) → Option (Except (WaitFailure ε) α)
  | none => some (.error (.logicError (ascii "AsyncTask is not valid")))
  | some state =>
      if state.done then
        match state.exception, state.value with
        | some e, _ => some (.error (.rethrown e))
        | none, some value => some (.ok value)
        | none, none =>
            some (.error (.logicError (ascii "AsyncTask completed without a value")))
      else none

/-! ## What a step does -/

section Runs
variable {α ε κ φ : Type} {emplace : α → Except ε α} {callable : Except ε α}
  {t t' : TaskThreads α ε κ φ} {action : TaskAction κ φ}

/-- The steps that are possible, each with what it changes. -/
inductive Steps (emplace : α → Except ε α) (callable : Except ε α) (t : TaskThreads α ε κ φ) :
    TaskAction κ φ → TaskThreads α ε κ φ → Prop where
  | returns {value : α} (at_worker : t.worker = .running) (hcallable : callable = .ok value) :
      Steps emplace callable t .finish { t with worker := .returned value }
  | throws {e : ε} (at_worker : t.worker = .running) (hcallable : callable = .error e) :
      Steps emplace callable t .finish { t with worker := .caught e }
  | publishValue {value moved : α} (at_worker : t.worker = .returned value)
      (hmoved : emplace value = .ok moved) :
      Steps emplace callable t .publishValue
        { t with state := { t.state with value := some moved, done := true }, worker := .published }
  | moveThrows {value : α} {e : ε} (at_worker : t.worker = .returned value)
      (hmoved : emplace value = .error e) :
      Steps emplace callable t .publishValue { t with worker := .caught e }
  | publishException {e : ε} (at_worker : t.worker = .caught e) :
      Steps emplace callable t .publishException
        { t with state := { t.state with exception := some e, done := true }, worker := .published }
  | take (at_worker : t.worker = .published) :
      Steps emplace callable t .take
        { t with
          state := { t.state with completed := none, failed := none }
          worker := .taken t.state.completed t.state.failed t.state.exception }
  | invokeFailed {completed : Option κ} {callback : φ} {e : ε}
      (at_worker : t.worker = .taken completed (some callback) (some e)) :
      Steps emplace callable t .invoke
        { t with worker := .ended, failedCalls := t.failedCalls ++ [(callback, some e)] }
  | invokeCompleted {completed : Option κ} {failed : Option φ} {exception : Option ε}
      (at_worker : t.worker = .taken completed failed exception)
      (hskip : exception = none ∨ failed = none) :
      Steps emplace callable t .invoke
        { t with worker := .ended, completedCalls := t.completedCalls ++ completed.toList }
  | completedNow {callback : Option κ} (at_call : t.onCompleted = .idle)
      (hdone : t.state.done = true) (hexception : t.state.exception = none) :
      Steps emplace callable t (.onCompleted callback) { t with onCompleted := .invoking callback }
  | completedStored {callback : Option κ} (at_call : t.onCompleted = .idle)
      (hlater : t.state.done = true → t.state.exception ≠ none) :
      Steps emplace callable t (.onCompleted callback)
        { t with state := { t.state with completed := callback }, onCompleted := .stored callback }
  | completedInvoked {callback : Option κ} (at_call : t.onCompleted = .invoking callback) :
      Steps emplace callable t .invokeCompleted
        { t with
          onCompleted := .returned callback
          completedCalls := t.completedCalls ++ callback.toList }
  | errorNow {callback : Option φ} {e : ε} (at_call : t.onError = .idle)
      (hdone : t.state.done = true) (hexception : t.state.exception = some e) :
      Steps emplace callable t (.onError callback) { t with onError := .invoking callback }
  | errorStored {callback : Option φ} (at_call : t.onError = .idle)
      (hlater : t.state.done = true → t.state.exception = none) :
      Steps emplace callable t (.onError callback)
        { t with state := { t.state with failed := callback }, onError := .stored callback }
  | errorInvoked {callback : Option φ} (at_call : t.onError = .invoking callback) :
      Steps emplace callable t .invokeError
        { t with
          onError := .returned callback
          failedCalls := t.failedCalls ++ callback.toList.map (·, t.state.exception) }

/-- **Every step of the code is one of these.** -/
theorem steps_of_taskStep (h : taskStep emplace callable t action = some t') :
    Steps emplace callable t action t' := by
  cases action with
  | finish =>
    dsimp only [taskStep, finish] at h
    split at h
    · rename_i hworker
      cases h
      cases hcallable : callable with
      | ok value => exact .returns hworker rfl
      | error e => exact .throws hworker rfl
    · cases h
  -- moving the value into the state may throw; what it throws is published instead
  | publishValue =>
    dsimp only [taskStep, publishValue] at h
    split at h
    · rename_i value hworker
      split at h
      · rename_i moved hmoved
        cases h
        exact .publishValue hworker hmoved
      · rename_i e hmoved
        cases h
        exact .moveThrows hworker hmoved
    · cases h
  | publishException =>
    dsimp only [taskStep, publishException] at h
    split at h
    · rename_i e hworker
      cases h
      exact .publishException hworker
    · cases h
  | take =>
    dsimp only [taskStep, take] at h
    split at h
    · rename_i hworker
      cases h
      exact .take hworker
    · cases h
  | invoke =>
    dsimp only [taskStep, invoke] at h
    split at h
    · rename_i completed failed exception hworker
      split at h
      · rename_i e callback
        cases h
        exact .invokeFailed hworker
      · rename_i hnot
        cases h
        refine .invokeCompleted hworker ?_
        cases exception with
        | none => exact .inl rfl
        | some e =>
          cases failed with
          | none => exact .inr rfl
          | some callback => exact absurd rfl (hnot e callback rfl)
    · cases h
  | onCompleted callback =>
    dsimp only [taskStep, onCompleted] at h
    split at h
    · rename_i hcall
      split at h
      · rename_i hnow
        cases h
        exact .completedNow hcall hnow.1 (Option.isNone_iff_eq_none.mp hnow.2)
      · rename_i hlater
        cases h
        exact .completedStored hcall fun hdone hnone =>
          hlater ⟨hdone, Option.isNone_iff_eq_none.mpr hnone⟩
    · cases h
  | invokeCompleted =>
    dsimp only [taskStep, invokeCompleted] at h
    split at h
    · rename_i callback hcall
      cases h
      exact .completedInvoked hcall
    · cases h
  | onError callback =>
    dsimp only [taskStep, onError] at h
    split at h
    · rename_i hcall
      split at h
      · rename_i hnow
        cases h
        obtain ⟨e, he⟩ := Option.isSome_iff_exists.mp hnow.2
        exact .errorNow hcall hnow.1 he
      · rename_i hlater
        cases h
        exact .errorStored hcall fun hdone =>
          Option.not_isSome_iff_eq_none.mp fun hsome => hlater ⟨hdone, hsome⟩
    · cases h
  | invokeError =>
    dsimp only [taskStep, invokeError] at h
    split at h
    · rename_i callback hcall
      cases h
      exact .errorInvoked hcall
    · cases h

/-! ## What is published -/

/-- What the task records: the result of the callable, or the exception of moving it. -/
def recorded (emplace : α → Except ε α) (callable : Except ε α) : Except ε α :=
  callable >>= emplace

/-- The exception of a result. -/
def thrown : Except ε α → Option ε
  | .ok _ => none
  | .error e => some e

/-- Nothing is published. -/
structure AsyncState.Unpublished (s : AsyncState α ε κ φ) : Prop where
  not_done : s.done = false
  no_exception : s.exception = none
  no_value : s.value = none

/-- A result is published. -/
structure AsyncState.Published (result : Except ε α) (s : AsyncState α ε κ φ) : Prop where
  is_done : s.done = true
  exception_eq : s.exception = thrown result
  value_eq : s.value = result.toOption

/-- The state agrees with where the worker is. -/
def Agrees (emplace : α → Except ε α) (callable : Except ε α) (t : TaskThreads α ε κ φ) : Prop :=
  match t.worker with
  | .running => t.state.Unpublished
  | .returned value => t.state.Unpublished ∧ callable = .ok value
  | .caught e => t.state.Unpublished ∧ recorded emplace callable = .error e
  | .published => t.state.Published (recorded emplace callable)
  | .taken _ _ exception =>
      t.state.Published (recorded emplace callable) ∧ exception = t.state.exception
  | .ended => t.state.Published (recorded emplace callable)

/-- It does not depend on the callbacks. -/
theorem Agrees.withCallbacks (h : Agrees emplace callable t) (hworker : t'.worker = t.worker)
    (hdone : t'.state.done = t.state.done) (hexception : t'.state.exception = t.state.exception)
    (hvalue : t'.state.value = t.state.value) : Agrees emplace callable t' := by
  have hopen : t.state.Unpublished → t'.state.Unpublished := fun ⟨h₁, h₂, h₃⟩ =>
    ⟨hdone.trans h₁, hexception.trans h₂, hvalue.trans h₃⟩
  have hpublished : t.state.Published (recorded emplace callable) →
      t'.state.Published (recorded emplace callable) := fun ⟨h₁, h₂, h₃⟩ =>
    ⟨hdone.trans h₁, hexception.trans h₂, hvalue.trans h₃⟩
  unfold Agrees at h ⊢
  rw [hworker]
  cases hw : t.worker with
  | running =>
    rw [hw] at h
    exact hopen h
  | returned value =>
    rw [hw] at h
    exact ⟨hopen h.1, h.2⟩
  | caught e =>
    rw [hw] at h
    exact ⟨hopen h.1, h.2⟩
  | published =>
    rw [hw] at h
    exact hpublished h
  | taken completed failed exception =>
    rw [hw] at h
    exact ⟨hpublished h.1, h.2.trans hexception.symm⟩
  | ended =>
    rw [hw] at h
    exact hpublished h

theorem Agrees.step (h : Agrees emplace callable t) (hstep : Steps emplace callable t action t') :
    Agrees emplace callable t' := by
  have hnow := h
  unfold Agrees at h
  cases hstep with
  | returns hworker hcallable =>
    rw [hworker] at h
    exact ⟨h, hcallable⟩
  | throws hworker hcallable =>
    rw [hworker] at h
    subst hcallable
    exact ⟨h, rfl⟩
  | publishValue hworker hmoved =>
    rw [hworker] at h
    obtain ⟨hopen, rfl⟩ := h
    have hrecorded : recorded emplace (.ok _) = _ := hmoved
    show AsyncState.Published _ _
    rw [hrecorded]
    exact ⟨rfl, hopen.no_exception, rfl⟩
  | moveThrows hworker hmoved =>
    rw [hworker] at h
    obtain ⟨hopen, rfl⟩ := h
    exact ⟨hopen, hmoved⟩
  | publishException hworker =>
    rw [hworker] at h
    obtain ⟨hopen, hrecorded⟩ := h
    show AsyncState.Published _ _
    rw [hrecorded]
    exact ⟨rfl, rfl, hopen.no_value⟩
  | take hworker =>
    rw [hworker] at h
    exact ⟨⟨h.is_done, h.exception_eq, h.value_eq⟩, rfl⟩
  | invokeFailed hworker =>
    rw [hworker] at h
    exact h.1
  | invokeCompleted hworker hskip =>
    rw [hworker] at h
    exact h.1
  -- a registration changes neither the worker nor what is published
  | completedNow => exact hnow.withCallbacks rfl rfl rfl rfl
  | completedStored => exact hnow.withCallbacks rfl rfl rfl rfl
  | completedInvoked => exact hnow.withCallbacks rfl rfl rfl rfl
  | errorNow => exact hnow.withCallbacks rfl rfl rfl rfl
  | errorStored => exact hnow.withCallbacks rfl rfl rfl rfl
  | errorInvoked => exact hnow.withCallbacks rfl rfl rfl rfl

/-- What the code tells from `done` and `exception`. -/
theorem Agrees.unpublished_or (h : Agrees emplace callable t) :
    t.state.Unpublished ∨ t.state.Published (recorded emplace callable) := by
  unfold Agrees at h
  cases hw : t.worker with
  | running =>
    rw [hw] at h
    exact .inl h
  | returned value =>
    rw [hw] at h
    exact .inl h.1
  | caught e =>
    rw [hw] at h
    exact .inl h.1
  | published =>
    rw [hw] at h
    exact .inr h
  | taken completed failed exception =>
    rw [hw] at h
    exact .inr h.1
  | ended =>
    rw [hw] at h
    exact .inr h

/-- **A run of the task**: the schedule and the state it leads to. -/
structure TaskRun (κ φ : Type) (emplace : α → Except ε α) (callable : Except ε α) where
  actions : List (TaskAction κ φ)
  last : TaskThreads α ε κ φ
  reached : run (taskStep emplace callable) {} actions = some last

/-- Induction along a run of the task. -/
theorem TaskRun.induction {P : List (TaskAction κ φ) → TaskThreads α ε κ φ → Prop}
    (hinit : P [] {})
    (hstep : ∀ {actions t action t'}, P actions t → Steps emplace callable t action t' →
      P (actions ++ [action]) t')
    (r : TaskRun κ φ emplace callable) : P r.actions r.last := by
  refine run_induction hinit ?_ r.reached
  intro actions t action t' h ht
  exact hstep h (steps_of_taskStep ht)

theorem TaskRun.agrees (r : TaskRun κ φ emplace callable) : Agrees emplace callable r.last := by
  refine r.induction (P := fun _ t => Agrees emplace callable t) ?_ ?_
  · exact ⟨rfl, rfl, rfl⟩
  · intro actions t action t' h hstep
    exact h.step hstep

/-- **A wait that returns gives what the task recorded.** -/
theorem wait_eq (r : TaskRun κ φ emplace callable) :
    wait (some r.last.state) = if r.last.state.done then
      some ((recorded emplace callable).mapError .rethrown) else none := by
  rcases r.agrees.unpublished_or with h | h
  · simp [wait, h.not_done]
  · cases hrecorded : recorded emplace callable with
    | ok value =>
      rw [hrecorded] at h
      simp [wait, h.is_done, h.exception_eq, h.value_eq, thrown, Except.toOption, Except.mapError]
    | error e =>
      rw [hrecorded] at h
      simp [wait, h.is_done, h.exception_eq, thrown, Except.mapError]

end Runs

/-! ## One callback

Of the two callbacks the result selects one.  `Handed` says of that one that it is at each
time in exactly one place: in the state, with the worker, or with the thread that registered
it. -/

namespace Registration
variable {κ : Type} {r : Registration κ}

/-- The callback that was registered. -/
def callback : Registration κ → Option (Option κ)
  | .idle => none
  | .stored callback | .invoking callback | .returned callback => some callback

/-- What was left to the worker. -/
def pending : Registration κ → Option κ
  | .stored callback => callback
  | _ => none

/-- What the call ran itself. -/
def direct : Registration κ → Option κ
  | .returned callback => callback
  | _ => none

/-- It did not find the result it waits for. -/
def Waiting : Registration κ → Prop
  | .idle | .stored _ => True
  | _ => False

/-- The call is not in the middle of its work. -/
def Settled : Registration κ → Prop
  | .invoking _ => False
  | _ => True

theorem Waiting.pending_iff (h : r.Waiting) {c : κ} :
    r.pending = some c ↔ r.callback = some (some c) := by
  cases r with
  | idle => simp [pending, callback]
  | stored callback => simp [pending, Registration.callback]
  | invoking callback => cases h
  | returned callback => cases h

theorem direct_append_pending (r : Registration κ) :
    r.direct.toList ++ r.pending.toList = r.pending.toList ++ r.direct.toList := by
  cases r with
  | idle => rfl
  | stored callback => simp [direct]
  | invoking callback => rfl
  | returned callback => simp [pending]

end Registration

/-- Where a callback is, as the worker sees it. -/
inductive Phase (κ : Type) where
  | unpublished | published | taken (callback : Option κ) | ended
  deriving DecidableEq, Repr

/-- Where the completed callback is, as far as the worker tells. -/
def Worker.completedPhase {α ε κ φ : Type} : Worker α ε κ φ → Phase κ
  | .running | .returned _ | .caught _ => .unpublished
  | .published => .published
  | .taken completed _ _ => .taken completed
  | .ended => .ended

/-- Where the error callback is, as far as the worker tells. -/
def Worker.failedPhase {α ε κ φ : Type} : Worker α ε κ φ → Phase φ
  | .running | .returned _ | .caught _ => .unpublished
  | .published => .published
  | .taken _ failed _ => .taken failed
  | .ended => .ended

section Handed
variable {κ β : Type} {call : κ → β} {phase : Phase κ} {r : Registration κ} {slot c : Option κ}
  {calls : List β}

/-- **The callback that the result selects**, its calls being what `call` makes of it. -/
def Handed (call : κ → β) (phase : Phase κ) (r : Registration κ) (slot : Option κ)
    (calls : List β) : Prop :=
  match phase with
  | .unpublished => r.Waiting ∧ slot = r.pending ∧ calls = []
  | .published => slot = r.pending ∧ calls = r.direct.toList.map call
  | .taken callback => callback = r.pending ∧ calls = r.direct.toList.map call
  | .ended => calls = (r.pending.toList ++ r.direct.toList).map call

theorem Handed.store (h : Handed call .unpublished .idle slot calls) (callback : Option κ) :
    Handed call .unpublished (.stored callback) callback calls :=
  ⟨trivial, rfl, h.2.2⟩

theorem Handed.publish (h : Handed call .unpublished r slot calls) :
    Handed call .published r slot calls := by
  obtain ⟨hwaiting, hslot, rfl⟩ := h
  refine ⟨hslot, ?_⟩
  cases r with
  | idle => rfl
  | stored callback => rfl
  | invoking callback => cases hwaiting
  | returned callback => cases hwaiting

theorem Handed.take (h : Handed call .published r slot calls) :
    Handed call (.taken slot) r none calls := h

theorem Handed.invoke (h : Handed call (.taken c) r slot calls) :
    Handed call .ended r slot (calls ++ c.toList.map call) := by
  obtain ⟨rfl, rfl⟩ := h
  show _ = List.map call _
  rw [← List.map_append, r.direct_append_pending]

/-- A registration that finds the result keeps its callback. -/
theorem Handed.findResult (h : Handed call phase .idle slot calls) (hphase : phase ≠ .unpublished)
    (callback : Option κ) : Handed call phase (.invoking callback) slot calls := by
  cases phase with
  | unpublished => exact absurd rfl hphase
  | published => exact h
  | taken c => exact h
  | ended => exact h

theorem Handed.invokeNow {callback : Option κ}
    (h : Handed call phase (.invoking callback) slot calls) :
    Handed call phase (.returned callback) slot (calls ++ callback.toList.map call) := by
  cases phase with
  | unpublished => exact h.1.elim
  | published =>
    obtain ⟨hslot, rfl⟩ := h
    exact ⟨hslot, rfl⟩
  | taken c =>
    obtain ⟨hc, rfl⟩ := h
    exact ⟨hc, rfl⟩
  | ended =>
    have hnil : calls = [] := h
    rw [hnil]
    rfl

/-- **It runs exactly once.** -/
theorem Handed.exact (h : Handed call .ended r slot calls) (hsettled : r.Settled) {k : κ}
    (hk : r.callback = some (some k)) : calls = [call k] := by
  cases r with
  | idle => cases hk
  | stored callback =>
    cases hk
    exact h
  | invoking callback => exact hsettled.elim
  | returned callback =>
    cases hk
    exact h

end Handed

/-! ## What holds along a run -/

section Invariants
variable {α ε κ φ : Type} {emplace : α → Except ε α} {callable : Except ε α}
  {t t' : TaskThreads α ε κ φ} {action : TaskAction κ φ} {actions : List (TaskAction κ φ)}

/-- `done` tells whether a callback is left to the worker. -/
theorem Agrees.done_iff (h : Agrees emplace callable t) :
    (t.state.done = true ↔ t.worker.completedPhase ≠ .unpublished) ∧
      (t.state.done = true ↔ t.worker.failedPhase ≠ .unpublished) := by
  unfold Agrees at h
  cases hw : t.worker with
  | running =>
    rw [hw] at h
    simp [h.not_done, Worker.completedPhase, Worker.failedPhase]
  | returned value =>
    rw [hw] at h
    simp [h.1.not_done, Worker.completedPhase, Worker.failedPhase]
  | caught e =>
    rw [hw] at h
    simp [h.1.not_done, Worker.completedPhase, Worker.failedPhase]
  | published =>
    rw [hw] at h
    simp [h.is_done, Worker.completedPhase, Worker.failedPhase]
  | taken completed failed exception =>
    rw [hw] at h
    simp [h.1.is_done, Worker.completedPhase, Worker.failedPhase]
  | ended =>
    rw [hw] at h
    simp [h.is_done, Worker.completedPhase, Worker.failedPhase]

/-- Once `done` is set, the exception is that of the result. -/
theorem Agrees.exception_eq (h : Agrees emplace callable t) (hdone : t.state.done = true) :
    t.state.exception = thrown (recorded emplace callable) := by
  rcases h.unpublished_or with hopen | hpublished
  · rw [hopen.not_done] at hdone
    cases hdone
  · exact hpublished.exception_eq

/-- The schedule says what was registered. -/
structure Registered (actions : List (TaskAction κ φ)) (t : TaskThreads α ε κ φ) : Prop where
  completed : ∀ callback, .onCompleted callback ∈ actions ↔ t.onCompleted.callback = some callback
  error : ∀ callback, .onError callback ∈ actions ↔ t.onError.callback = some callback

theorem Registered.step (h : Registered actions t) (hstep : Steps emplace callable t action t') :
    Registered (actions ++ [action]) t' := by
  have hcompleted := h.completed
  have herror := h.error
  constructor
  · intro callback
    rw [List.mem_append, List.mem_singleton, hcompleted]
    cases hstep with
    | completedNow hcall =>
      simp [hcall, Registration.callback, eq_comm]
    | completedStored hcall =>
      simp [hcall, Registration.callback, eq_comm]
    | completedInvoked hcall =>
      simp [hcall, Registration.callback]
    | _ => simp
  · intro callback
    rw [List.mem_append, List.mem_singleton, herror]
    cases hstep with
    | errorNow hcall =>
      simp [hcall, Registration.callback, eq_comm]
    | errorStored hcall =>
      simp [hcall, Registration.callback, eq_comm]
    | errorInvoked hcall =>
      simp [hcall, Registration.callback]
    | _ => simp

/-- **The callbacks of a task whose value is recorded.** -/
structure AfterReturn (t : TaskThreads α ε κ φ) : Prop where
  completed : Handed id t.worker.completedPhase t.onCompleted t.state.completed t.completedCalls
  waiting : t.onError.Waiting
  failed : t.failedCalls = []

theorem AfterReturn.step {value : α} (h : AfterReturn t) (hagrees : Agrees emplace callable t)
    (hrecorded : recorded emplace callable = .ok value)
    (hstep : Steps emplace callable t action t') : AfterReturn t' := by
  obtain ⟨hcompleted, hwaiting, hfailed⟩ := h
  have hnone : t.state.done = true → t.state.exception = none := by
    intro hdone
    rw [hagrees.exception_eq hdone, hrecorded]
    rfl
  cases hstep with
  | returns hworker hcallable =>
    rw [hworker] at hcompleted
    exact ⟨hcompleted, hwaiting, hfailed⟩
  | throws hworker hcallable =>
    rw [hworker] at hcompleted
    exact ⟨hcompleted, hwaiting, hfailed⟩
  | publishValue hworker hmoved =>
    rw [hworker] at hcompleted
    exact ⟨hcompleted.publish, hwaiting, hfailed⟩
  | moveThrows hworker hmoved =>
    rw [hworker] at hcompleted
    exact ⟨hcompleted, hwaiting, hfailed⟩
  | publishException hworker =>
    rw [hworker] at hcompleted
    exact ⟨hcompleted.publish, hwaiting, hfailed⟩
  | take hworker =>
    rw [hworker] at hcompleted
    exact ⟨hcompleted.take, hwaiting, hfailed⟩
  -- a recorded value leaves no exception for the worker to hand on
  | invokeFailed hworker =>
    unfold Agrees at hagrees
    rw [hworker] at hagrees
    rw [hnone hagrees.1.is_done] at hagrees
    cases hagrees.2
  | invokeCompleted hworker hskip =>
    rw [hworker] at hcompleted
    have hinvoked := hcompleted.invoke
    rw [List.map_id] at hinvoked
    exact ⟨hinvoked, hwaiting, hfailed⟩
  | completedNow hcall hdone hexception =>
    rw [hcall] at hcompleted
    exact ⟨hcompleted.findResult (hagrees.done_iff.1.mp hdone) _, hwaiting, hfailed⟩
  -- a callback is stored only while nothing is published, as there is no exception
  | completedStored hcall hlater =>
    have hphase : t.worker.completedPhase = .unpublished := by
      by_contra hphase
      have hdone := hagrees.done_iff.1.mpr hphase
      exact hlater hdone (hnone hdone)
    rw [hphase, hcall] at hcompleted
    refine ⟨?_, hwaiting, hfailed⟩
    show Handed id t.worker.completedPhase _ _ _
    rw [hphase]
    exact hcompleted.store _
  | completedInvoked hcall =>
    rw [hcall] at hcompleted
    have hinvoked := hcompleted.invokeNow
    rw [List.map_id] at hinvoked
    exact ⟨hinvoked, hwaiting, hfailed⟩
  | errorNow hcall hdone hexception =>
    rw [hnone hdone] at hexception
    cases hexception
  | errorStored hcall hlater => exact ⟨hcompleted, trivial, hfailed⟩
  | errorInvoked hcall =>
    rw [hcall] at hwaiting
    exact hwaiting.elim

/-- The error callback of a task whose exception is recorded; the other one waits. -/
structure AfterThrow (e : ε) (t : TaskThreads α ε κ φ) : Prop where
  error : Handed (·, some e) t.worker.failedPhase t.onError t.state.failed t.failedCalls
  waiting : t.onCompleted.Waiting

/-- Without a result an error callback is stored, with one it is not. -/
theorem Agrees.errorStored_phase {e : ε} (hagrees : Agrees emplace callable t)
    (hrecorded : recorded emplace callable = .error e)
    (hlater : t.state.done = true → t.state.exception = none) :
    t.worker.failedPhase = .unpublished := by
  by_contra hphase
  have hdone := hagrees.done_iff.2.mpr hphase
  have hnone := hlater hdone
  rw [hagrees.exception_eq hdone, hrecorded] at hnone
  cases hnone

/-- No value is published when an exception is recorded. -/
theorem Agrees.no_value {e : ε} {value moved : α} (hagrees : Agrees emplace callable t)
    (hrecorded : recorded emplace callable = .error e) (hworker : t.worker = .returned value)
    (hmoved : emplace value = .ok moved) : False := by
  unfold Agrees at hagrees
  rw [hworker] at hagrees
  obtain ⟨-, rfl⟩ := hagrees
  cases hmoved.symm.trans hrecorded

theorem AfterThrow.step {e : ε} (h : AfterThrow e t) (hagrees : Agrees emplace callable t)
    (hrecorded : recorded emplace callable = .error e)
    (hstep : Steps emplace callable t action t') : AfterThrow e t' := by
  obtain ⟨herror, hwaiting⟩ := h
  have hsome : t.state.done = true → t.state.exception = some e := by
    intro hdone
    rw [hagrees.exception_eq hdone, hrecorded]
    rfl
  cases hstep with
  | returns hworker hcallable =>
    rw [hworker] at herror
    exact ⟨herror, hwaiting⟩
  | throws hworker hcallable =>
    rw [hworker] at herror
    exact ⟨herror, hwaiting⟩
  | publishValue hworker hmoved => exact (hagrees.no_value hrecorded hworker hmoved).elim
  | moveThrows hworker hmoved =>
    rw [hworker] at herror
    exact ⟨herror, hwaiting⟩
  | publishException hworker =>
    rw [hworker] at herror
    exact ⟨herror.publish, hwaiting⟩
  | take hworker =>
    rw [hworker] at herror
    exact ⟨herror.take, hwaiting⟩
  | invokeFailed hworker =>
    rw [hworker] at herror
    unfold Agrees at hagrees
    rw [hworker] at hagrees
    rw [hsome hagrees.1.is_done] at hagrees
    cases hagrees.2
    exact ⟨herror.invoke, hwaiting⟩
  | invokeCompleted hworker hskip =>
    rw [hworker] at herror
    unfold Agrees at hagrees
    rw [hworker] at hagrees
    rw [hsome hagrees.1.is_done] at hagrees
    -- the exception is there, so it is the callback that is missing
    obtain rfl := hskip.resolve_left (by rw [hagrees.2]; exact Option.some_ne_none e)
    have hinvoked := herror.invoke
    rw [Option.toList_none, List.map_nil, List.append_nil] at hinvoked
    exact ⟨hinvoked, hwaiting⟩
  | completedNow hcall hdone hexception =>
    rw [hsome hdone] at hexception
    cases hexception
  | completedStored hcall hlater => exact ⟨herror, trivial⟩
  | completedInvoked hcall =>
    rw [hcall] at hwaiting
    exact hwaiting.elim
  | errorNow hcall hdone hexception =>
    rw [hcall] at herror
    exact ⟨herror.findResult (hagrees.done_iff.2.mp hdone) _, hwaiting⟩
  | errorStored hcall hlater =>
    have hphase := hagrees.errorStored_phase hrecorded hlater
    rw [hphase, hcall] at herror
    refine ⟨?_, hwaiting⟩
    show Handed _ t.worker.failedPhase _ _ _
    rw [hphase]
    exact herror.store _
  | errorInvoked hcall =>
    rw [hcall] at herror
    have hphase : t.worker.failedPhase ≠ .unpublished := by
      intro hphase
      rw [hphase] at herror
      exact herror.1
    rw [hsome (hagrees.done_iff.2.mpr hphase)]
    exact ⟨herror.invokeNow, hwaiting⟩

/-- The worker finds the error callback exactly when it was registered before the exception was
published. -/
structure Early (actions : List (TaskAction κ φ)) (t : TaskThreads α ε κ φ) : Prop where
  unpublished : t.worker.failedPhase = .unpublished → .publishException ∉ actions
  pending_iff : t.worker.failedPhase ≠ .unpublished → ∀ callback,
    t.onError.pending = some callback ↔
      Before (.onError (some callback)) .publishException actions

/-- A step that publishes no exception and stores no error callback. -/
theorem Early.keep (h : Early actions t) (haction : .publishException ≠ action)
    (hphase : t'.worker.failedPhase = .unpublished ↔ t.worker.failedPhase = .unpublished)
    (hpending : t'.onError.pending = t.onError.pending) : Early (actions ++ [action]) t' := by
  constructor
  · intro hopen
    rw [List.mem_append, List.mem_singleton, not_or]
    exact ⟨h.unpublished (hphase.mp hopen), haction⟩
  · intro hdone callback
    rw [before_concat_of_ne haction, hpending]
    exact h.pending_iff (fun hopen => hdone (hphase.mpr hopen)) callback

theorem Early.step {e : ε} (h : Early actions t) (hagrees : Agrees emplace callable t)
    (hrecorded : recorded emplace callable = .error e) (hthrow : AfterThrow e t)
    (hregistered : Registered actions t) (hstep : Steps emplace callable t action t') :
    Early (actions ++ [action]) t' := by
  cases hstep with
  | returns hworker hcallable =>
    exact h.keep nofun (by simp [hworker, Worker.failedPhase]) rfl
  | throws hworker hcallable =>
    exact h.keep nofun (by simp [hworker, Worker.failedPhase]) rfl
  | publishValue hworker hmoved => exact (hagrees.no_value hrecorded hworker hmoved).elim
  | moveThrows hworker hmoved =>
    exact h.keep nofun (by simp [hworker, Worker.failedPhase]) rfl
  -- the step that decides who was early: what is registered now is what is called
  | publishException hworker =>
    have hphase : t.worker.failedPhase = .unpublished := by rw [hworker]; rfl
    have herror := hthrow.error
    rw [hphase] at herror
    refine ⟨nofun, fun _ callback => ?_⟩
    rw [before_concat_self (h.unpublished hphase), hregistered.error]
    exact herror.1.pending_iff
  | take hworker => exact h.keep nofun (by simp [hworker, Worker.failedPhase]) rfl
  | invokeFailed hworker => exact h.keep nofun (by simp [hworker, Worker.failedPhase]) rfl
  | invokeCompleted hworker hskip =>
    exact h.keep nofun (by simp [hworker, Worker.failedPhase]) rfl
  | completedNow => exact h.keep nofun Iff.rfl rfl
  | completedStored => exact h.keep nofun Iff.rfl rfl
  | completedInvoked => exact h.keep nofun Iff.rfl rfl
  | errorNow hcall =>
    refine h.keep nofun Iff.rfl ?_
    rw [hcall]
    rfl
  | errorStored hcall hlater =>
    have hphase := hagrees.errorStored_phase hrecorded hlater
    refine ⟨fun _ => ?_, fun hdone => absurd hphase hdone⟩
    rw [List.mem_append, List.mem_singleton, not_or]
    exact ⟨h.unpublished hphase, nofun⟩
  | errorInvoked hcall =>
    refine h.keep nofun Iff.rfl ?_
    rw [hcall]
    rfl

/-- What the worker took as `completed`. -/
def Took (actions : List (TaskAction κ φ)) (completed : Option κ) : Prop :=
  ∀ callback, completed = some callback ↔ Before (.onCompleted (some callback)) .take actions

theorem Took.keep {completed : Option κ} (h : Took actions completed) (haction : .take ≠ action) :
    Took (actions ++ [action]) completed := by
  intro callback
  rw [before_concat_of_ne haction]
  exact h callback

/-- Where the callback of `on_completed` is in a task that failed: the worker runs it when it
took no error callback. -/
def Misled (actions : List (TaskAction κ φ)) (t : TaskThreads α ε κ φ) : Prop :=
  match t.worker with
  | .taken completed _ _ => Took actions completed ∧ t.completedCalls = []
  | .ended => ∃ completed, Took actions completed ∧
      t.completedCalls = if t.onError.pending.isSome then [] else completed.toList
  | _ => t.state.completed = t.onCompleted.pending ∧ .take ∉ actions ∧ t.completedCalls = []

/-- The worker did not take the callbacks yet. -/
def Worker.BeforeTake : Worker α ε κ φ → Prop
  | .taken .. | .ended => False
  | _ => True

theorem misled_iff (hworker : t.worker.BeforeTake) :
    Misled actions t ↔ t.state.completed = t.onCompleted.pending ∧ .take ∉ actions ∧
      t.completedCalls = [] := by
  unfold Misled
  cases hw : t.worker with
  | taken completed failed exception =>
    rw [hw] at hworker
    exact hworker.elim
  | ended =>
    rw [hw] at hworker
    exact hworker.elim
  | _ => exact Iff.rfl

/-- A step before the callbacks are taken. -/
theorem Misled.keepBefore (h : Misled actions t) (hworker : t.worker.BeforeTake)
    (hworker' : t'.worker.BeforeTake) (haction : .take ≠ action)
    (hcalls : t'.completedCalls = t.completedCalls)
    (hslot : t.state.completed = t.onCompleted.pending →
      t'.state.completed = t'.onCompleted.pending) : Misled (actions ++ [action]) t' := by
  obtain ⟨hsame, htake, hnil⟩ := (misled_iff hworker).mp h
  refine (misled_iff hworker').mpr ⟨hslot hsame, ?_, hcalls.trans hnil⟩
  rw [List.mem_append, List.mem_singleton, not_or]
  exact ⟨htake, haction⟩

/-- A step of a registration that stores no error callback. -/
theorem Misled.keep (h : Misled actions t) (haction : .take ≠ action)
    (hworker : t'.worker = t.worker) (hpending : t'.onError.pending = t.onError.pending)
    (hcalls : t'.completedCalls = t.completedCalls)
    (hslot : t.state.completed = t.onCompleted.pending →
      t'.state.completed = t'.onCompleted.pending) : Misled (actions ++ [action]) t' := by
  by_cases hbefore : t.worker.BeforeTake
  · exact h.keepBefore hbefore (hworker ▸ hbefore) haction hcalls hslot
  · unfold Misled at h ⊢
    rw [hworker]
    cases hw : t.worker with
    | taken completed failed exception =>
      rw [hw] at h
      exact ⟨h.1.keep haction, hcalls.trans h.2⟩
    | ended =>
      rw [hw] at h
      obtain ⟨completed, htook, heq⟩ := h
      refine ⟨completed, htook.keep haction, ?_⟩
      rw [hcalls, hpending]
      exact heq
    | _ =>
      rw [hw] at hbefore
      exact absurd trivial hbefore

theorem Misled.step {e : ε} (h : Misled actions t) (hagrees : Agrees emplace callable t)
    (hrecorded : recorded emplace callable = .error e) (hthrow : AfterThrow e t)
    (hregistered : Registered actions t) (hstep : Steps emplace callable t action t') :
    Misled (actions ++ [action]) t' := by
  have hbefore : ∀ {w : Worker α ε κ φ}, t.worker = w → w.BeforeTake → t.worker.BeforeTake := by
    intro w hw hbefore
    rw [hw]
    exact hbefore
  cases hstep with
  | returns hworker hcallable =>
    exact h.keepBefore (hbefore hworker trivial) trivial nofun rfl id
  | throws hworker hcallable =>
    exact h.keepBefore (hbefore hworker trivial) trivial nofun rfl id
  | publishValue hworker hmoved => exact (hagrees.no_value hrecorded hworker hmoved).elim
  | moveThrows hworker hmoved =>
    exact h.keepBefore (hbefore hworker trivial) trivial nofun rfl id
  | publishException hworker =>
    exact h.keepBefore (hbefore hworker trivial) trivial nofun rfl id
  | take hworker =>
    obtain ⟨hslot, htake, hnil⟩ := (misled_iff (hbefore hworker trivial)).mp h
    refine ⟨fun callback => ?_, hnil⟩
    rw [before_concat_self htake, hregistered.completed, hslot]
    exact hthrow.waiting.pending_iff
  | invokeFailed hworker =>
    unfold Misled at h
    rw [hworker] at h
    have herror := hthrow.error
    rw [hworker] at herror
    refine ⟨_, h.1.keep nofun, ?_⟩
    show t.completedCalls = if t.onError.pending.isSome then _ else _
    rw [← herror.1, h.2]
    rfl
  | invokeCompleted hworker hskip =>
    unfold Misled at h
    rw [hworker] at h
    have herror := hthrow.error
    rw [hworker] at herror
    -- the exception is recorded, so no error callback was taken
    unfold Agrees at hagrees
    rw [hworker] at hagrees
    obtain ⟨hpublished, rfl⟩ := hagrees
    have hnone : t.onError.pending = none := by
      rw [← herror.1]
      refine hskip.resolve_left ?_
      rw [hpublished.exception_eq, hrecorded]
      exact Option.some_ne_none e
    refine ⟨_, h.1.keep nofun, ?_⟩
    show t.completedCalls ++ _ = if t.onError.pending.isSome then _ else _
    rw [h.2, hnone]
    rfl
  | completedNow hcall hdone hexception =>
    rw [hagrees.exception_eq hdone, hrecorded] at hexception
    cases hexception
  | completedStored hcall hlater => exact h.keep nofun rfl rfl rfl fun _ => rfl
  | completedInvoked hcall =>
    have hwaiting := hthrow.waiting
    rw [hcall] at hwaiting
    exact hwaiting.elim
  | errorNow hcall hdone hexception =>
    refine h.keep nofun rfl ?_ rfl id
    rw [hcall]
    rfl
  | errorStored hcall hlater =>
    have hphase := hagrees.errorStored_phase hrecorded hlater
    have hworker : t.worker.BeforeTake := by
      cases hw : t.worker with
      | taken completed failed exception =>
        rw [hw] at hphase
        cases hphase
      | ended =>
        rw [hw] at hphase
        cases hphase
      | _ => trivial
    exact h.keepBefore hworker hworker nofun rfl id
  | errorInvoked hcall =>
    refine h.keep nofun rfl ?_ rfl id
    rw [hcall]
    rfl

/-! ## Whole runs -/

theorem TaskRun.registered (r : TaskRun κ φ emplace callable) : Registered r.actions r.last := by
  refine r.induction (P := Registered) ?_ Registered.step
  constructor <;> intro callback <;> simp [Registration.callback]

theorem TaskRun.afterReturn {value : α} (r : TaskRun κ φ emplace callable)
    (hrecorded : recorded emplace callable = .ok value) : AfterReturn r.last := by
  refine (r.induction (P := fun _ t => Agrees emplace callable t ∧ AfterReturn t) ?_ ?_).2
  · exact ⟨⟨rfl, rfl, rfl⟩, ⟨⟨trivial, rfl, rfl⟩, trivial, rfl⟩⟩
  · rintro actions t action t' ⟨hagrees, h⟩ hstep
    exact ⟨hagrees.step hstep, h.step hagrees hrecorded hstep⟩

/-- What holds along a run of a task whose exception is recorded. -/
structure Failing (emplace : α → Except ε α) (callable : Except ε α) (e : ε)
    (actions : List (TaskAction κ φ)) (t : TaskThreads α ε κ φ) : Prop where
  agrees : Agrees emplace callable t
  registered : Registered actions t
  afterThrow : AfterThrow e t
  early : Early actions t
  misled : Misled actions t

theorem TaskRun.failing {e : ε} (r : TaskRun κ φ emplace callable)
    (hrecorded : recorded emplace callable = .error e) :
    Failing emplace callable e r.actions r.last := by
  refine r.induction (P := Failing emplace callable e) ?_ ?_
  · refine ⟨⟨rfl, rfl, rfl⟩, ?_, ⟨⟨trivial, rfl, rfl⟩, trivial⟩, ?_, ⟨rfl, List.not_mem_nil, rfl⟩⟩
    · constructor <;> intro callback <;> simp [Registration.callback]
    · exact ⟨fun _ => List.not_mem_nil, fun hphase => absurd rfl hphase⟩
  · intro actions t action t' h hstep
    exact {
      agrees := h.agrees.step hstep
      registered := h.registered.step hstep
      afterThrow := h.afterThrow.step h.agrees hrecorded hstep
      early := h.early.step h.agrees hrecorded h.afterThrow h.registered hstep
      misled := h.misled.step h.agrees hrecorded h.afterThrow h.registered hstep }

/-! ## Every run comes to an end -/

/-- No thread is in the middle of its work. -/
structure TaskThreads.Settled (t : TaskThreads α ε κ φ) : Prop where
  worker : t.worker = .ended
  completed : t.onCompleted.Settled
  error : t.onError.Settled

/-- The steps a worker has left, at most. -/
def Worker.remaining : Worker α ε κ φ → Nat
  | .running => 5
  | .returned _ => 4
  | .caught _ => 3
  | .published => 2
  | .taken .. => 1
  | .ended => 0

/-- The steps a registration has left, at most. -/
def Registration.remaining {ι : Type} : Registration ι → Nat
  | .idle => 2
  | .invoking _ => 1
  | .stored _ | .returned _ => 0

/-- How many steps the three threads can still take. -/
def TaskThreads.remaining (t : TaskThreads α ε κ φ) : Nat :=
  t.worker.remaining + t.onCompleted.remaining + t.onError.remaining

theorem Steps.remaining_lt (h : Steps emplace callable t action t') :
    t'.remaining < t.remaining := by
  unfold TaskThreads.remaining
  cases h with
  | returns hworker => simp [hworker, Worker.remaining]
  | throws hworker => simp [hworker, Worker.remaining]
  | publishValue hworker => simp [hworker, Worker.remaining]
  | moveThrows hworker => simp [hworker, Worker.remaining]
  | publishException hworker => simp [hworker, Worker.remaining]
  | take hworker => simp [hworker, Worker.remaining]
  | invokeFailed hworker => simp [hworker, Worker.remaining]
  | invokeCompleted hworker => simp [hworker, Worker.remaining]
  | completedNow hcall => simp [hcall, Registration.remaining]
  | completedStored hcall => simp [hcall, Registration.remaining]
  | completedInvoked hcall => simp [hcall, Registration.remaining]
  | errorNow hcall => simp [hcall, Registration.remaining]
  | errorStored hcall => simp [hcall, Registration.remaining]
  | errorInvoked hcall => simp [hcall, Registration.remaining]

theorem TaskRun.length_le (r : TaskRun κ φ emplace callable) : r.actions.length ≤ 9 := by
  have hle : r.actions.length + r.last.remaining ≤ 9 :=
    length_add_le TaskThreads.remaining (fun h => (steps_of_taskStep h).remaining_lt) r.reached
  omega

/-- The step starts a registration. -/
def TaskAction.Registers : TaskAction κ φ → Prop
  | .onCompleted _ | .onError _ => True
  | _ => False

/-- **Where no registration starts, only a settled task stops.** -/
theorem settled_or_step (emplace : α → Except ε α) (callable : Except ε α)
    (t : TaskThreads α ε κ φ) :
    t.Settled ∨ ∃ action, ¬ action.Registers ∧ (taskStep emplace callable t action).isSome := by
  by_cases hcompleted : t.onCompleted.Settled
  · by_cases herror : t.onError.Settled
    · cases hw : t.worker with
      | running => exact .inr ⟨.finish, id, by simp [taskStep, finish, hw]⟩
      | returned value =>
        refine .inr ⟨.publishValue, id, ?_⟩
        cases hmoved : emplace value <;> simp [taskStep, publishValue, hw, hmoved]
      | caught e => exact .inr ⟨.publishException, id, by simp [taskStep, publishException, hw]⟩
      | published => exact .inr ⟨.take, id, by simp [taskStep, take, hw]⟩
      | taken completed failed exception =>
        refine .inr ⟨.invoke, id, ?_⟩
        cases exception <;> cases failed <;> simp [taskStep, invoke, hw]
      | ended => exact .inl ⟨hw, hcompleted, herror⟩
    · cases hcall : t.onError with
      | invoking callback => exact .inr ⟨.invokeError, id, by simp [taskStep, invokeError, hcall]⟩
      | _ =>
        rw [hcall] at herror
        exact absurd trivial herror
  · cases hcall : t.onCompleted with
    | invoking callback =>
      exact .inr ⟨.invokeCompleted, id, by simp [taskStep, invokeCompleted, hcall]⟩
    | _ =>
      rw [hcall] at hcompleted
      exact absurd trivial hcompleted

/-! ## When the callbacks run as they should -/

/-- **The contract**: a callback that was registered runs exactly once if the callable did what
it waits for, and never otherwise. -/
def CallbacksExact (callable : Except ε α) (actions : List (TaskAction κ φ))
    (t : TaskThreads α ε κ φ) : Prop :=
  match callable with
  | .ok _ => (∀ callback, .onCompleted (some callback) ∈ actions → t.completedCalls = [callback]) ∧
      ∀ callback, .onError (some callback) ∈ actions → t.failedCalls = []
  | .error e => (∀ callback, .onCompleted (some callback) ∈ actions → t.completedCalls = []) ∧
      ∀ callback, .onError (some callback) ∈ actions → t.failedCalls = [(callback, some e)]

/-- The schedules that keep it.  If the callable throws, a callback of `on_completed` that the
worker takes needs one of `on_error` that was registered before the exception was published.  If
it returns a value that cannot be moved into the task, no callback of `on_error` is registered,
and one of `on_completed` is registered before the worker takes it. -/
def CallbacksOrdered (emplace : α → Except ε α) (callable : Except ε α)
    (actions : List (TaskAction κ φ)) : Prop :=
  match callable with
  | .ok value =>
      match emplace value with
      | .ok _ => True
      | .error _ => (∀ callback, .onError (some callback) ∉ actions) ∧
          ∀ callback, .onCompleted (some callback) ∈ actions →
            Before (.onCompleted (some callback)) .take actions
  | .error _ => ∀ callback, Before (.onCompleted (some callback)) .take actions →
      ∃ callback', Before (.onError (some callback')) .publishException actions

/-- A run whose threads have done their work. -/
structure SettledRun (κ φ : Type) (emplace : α → Except ε α) (callable : Except ε α) extends
    TaskRun κ φ emplace callable where
  settled : last.Settled

/-- What a settled run of a task that failed has called. -/
theorem SettledRun.failing {e : ε} (r : SettledRun κ φ emplace callable)
    (hrecorded : recorded emplace callable = .error e) :
    (∀ callback, .onError (some callback) ∈ r.actions → r.last.failedCalls = [(callback, some e)]) ∧
      ∃ completed failed, Took r.actions completed ∧
        (∀ callback, failed = some callback ↔
          Before (.onError (some callback)) .publishException r.actions) ∧
        r.last.completedCalls = if failed.isSome then [] else completed.toList := by
  have h := r.toTaskRun.failing hrecorded
  have hended := r.settled.worker
  constructor
  · intro callback hmem
    have herror := h.afterThrow.error
    rw [hended] at herror
    exact herror.exact r.settled.error ((h.registered.error _).mp hmem)
  · have hmisled := h.misled
    unfold Misled at hmisled
    rw [hended] at hmisled
    obtain ⟨completed, htook, hcalls⟩ := hmisled
    refine ⟨completed, r.last.onError.pending, htook, h.early.pending_iff ?_, hcalls⟩
    rw [hended]
    exact nofun

theorem SettledRun.exact_of_value {value moved : α} (r : SettledRun κ φ emplace (.ok value))
    (hmoved : emplace value = .ok moved) : CallbacksExact (.ok value) r.actions r.last := by
  have h := r.afterReturn (show recorded emplace (.ok value) = .ok moved from hmoved)
  have hcompleted := h.completed
  rw [r.settled.worker] at hcompleted
  constructor
  · intro callback hmem
    exact hcompleted.exact r.settled.completed ((r.registered.completed _).mp hmem)
  · intro callback hmem
    exact h.failed

theorem SettledRun.exact_iff_of_move {value : α} {e : ε} (r : SettledRun κ φ emplace (.ok value))
    (hmoved : emplace value = .error e) : CallbacksExact (.ok value) r.actions r.last ↔
      (∀ callback, .onError (some callback) ∉ r.actions) ∧
        ∀ callback, .onCompleted (some callback) ∈ r.actions →
          Before (.onCompleted (some callback)) .take r.actions := by
  obtain ⟨hfailed, completed, failed, htook, hearly, hcalls⟩ :=
    r.failing (show recorded emplace (.ok value) = .error e from hmoved)
  have hmissing : (∀ callback, .onError (some callback) ∉ r.actions) → failed = none := by
    intro hnone
    refine Option.eq_none_iff_forall_ne_some.mpr fun callback hsome => ?_
    exact hnone callback ((hearly callback).mp hsome).mem.1
  constructor
  · rintro ⟨hexact, hnever⟩
    have hnone : ∀ callback, .onError (some callback) ∉ r.actions := by
      intro callback hmem
      cases (hfailed callback hmem).symm.trans (hnever callback hmem)
    refine ⟨hnone, fun callback hmem => (htook callback).mp ?_⟩
    have hone := hexact callback hmem
    rw [hcalls, hmissing hnone] at hone
    exact Option.toList_eq_singleton_iff.mp hone
  · rintro ⟨hnone, hbefore⟩
    constructor
    · intro callback hmem
      rw [hcalls, hmissing hnone, (htook callback).mpr (hbefore callback hmem)]
      rfl
    · intro callback hmem
      exact absurd hmem (hnone callback)

theorem SettledRun.exact_iff_of_throw {e : ε} (r : SettledRun κ φ emplace (.error e)) :
    CallbacksExact (.error e) r.actions r.last ↔
      ∀ callback, Before (.onCompleted (some callback)) .take r.actions →
        ∃ callback', Before (.onError (some callback')) .publishException r.actions := by
  obtain ⟨hfailed, completed, failed, htook, hearly, hcalls⟩ := r.failing rfl
  constructor
  · rintro ⟨hnever, -⟩ callback hbefore
    cases failed with
    | some callback' => exact ⟨callback', (hearly callback').mp rfl⟩
    | none =>
      have hnil := hnever callback hbefore.mem.1
      rw [hcalls, (htook callback).mpr hbefore] at hnil
      cases hnil
  · intro hordered
    refine ⟨fun callback hmem => ?_, hfailed⟩
    rw [hcalls]
    cases completed with
    | none => exact ite_self _
    | some callback' =>
      obtain ⟨callback'', hearlier⟩ := hordered callback' ((htook callback').mp rfl)
      rw [(hearly callback'').mpr hearlier]
      rfl

/-- **When the callbacks run as they should.**  Every run ends after at most nine steps, and only
where all threads have done their work; and then the callbacks have run as they should exactly
when the schedule keeps the order that they need. -/
theorem callbacks_exact_iff (emplace : α → Except ε α) (callable : Except ε α) :
    (∀ r : TaskRun κ φ emplace callable, r.actions.length ≤ 9 ∧ (r.last.Settled ∨
      ∃ action, ¬ action.Registers ∧ (taskStep emplace callable r.last action).isSome)) ∧
    ∀ r : SettledRun κ φ emplace callable, CallbacksExact callable r.actions r.last ↔
      CallbacksOrdered emplace callable r.actions := by
  refine ⟨fun r => ⟨r.length_le, settled_or_step emplace callable r.last⟩, fun r => ?_⟩
  cases callable with
  | ok value =>
    unfold CallbacksOrdered
    dsimp only
    cases hmoved : emplace value with
    | ok moved => exact iff_of_true (r.exact_of_value hmoved) trivial
    | error e => exact r.exact_iff_of_move hmoved
  | error e => exact r.exact_iff_of_throw

/-- A callable that throws, and only a callback for its completion: the callback runs. -/
theorem completed_after_throw :
    ¬ ∀ (emplace : Unit → Except Unit Unit) (callable : Except Unit Unit)
      (r : SettledRun Unit Unit emplace callable), CallbacksExact callable r.actions r.last := by
  intro h
  let last : TaskThreads Unit Unit Unit Unit :=
    { state := { exception := some (), done := true }
      worker := .ended
      onCompleted := .stored (some ())
      completedCalls := [()] }
  have hexact := h .ok (.error ())
    { actions := [.onCompleted (some ()), .finish, .publishException, .take, .invoke]
      last := last
      reached := rfl
      settled := ⟨rfl, trivial, trivial⟩ }
  cases hexact.1 () List.mem_cons_self

end Invariants
end SwmSdk.Cpp.AsyncTask
