import SwmSdk.Mutex
import SwmSdk.OfflineRust
import SwmSdk.Schedule
import SwmSdk.Types

/-! # The identity lock of the Rust client

The clones of a Rust client share the identity and the offline budget under one asynchronous
mutex.  `identity` and `expected_device_id` wait for it, and so does the commit of a rotation;
`is_offline_locked`, `note_verified_interaction` and `create_dpop` only try it, and do without
when another task has it.  `create_dpop` signs after it has released it, and a rotation closes the
key that it replaced after it has released it.  The identity is loaded and the client stays open:
`close` is not among the calls.

A call that did without the lock is harmless when it would have been answered alike and would have
recorded nothing: an exceeded budget is locked either way.  So every call, the refused ones
included, is answered as in some sequential order when no refused call misses anything
(`LockCall.Misses`), no proof is signed with a key that a rotation has closed, and no rotation
comes between a refused call and the first use of the budget; and the first two conditions cannot
be done without (`contention_harmless`).
-/
namespace SwmSdk.Rust
open ByteText Schedule

/-! ## The calls -/

/-- `DeviceIdentity`, as these calls read it. -/
structure DeviceIdentity where
  /-- `install_id` and `key_thumbprint`. -/
  record : StateIdentity
  deviceId : Bytes
  keyId : Bytes

/-- What the lock guards. -/
structure LoadedClient where
  identity : DeviceIdentity
  /-- The handle of its key, numbered by the rotations. -/
  handle : Nat := 0
  /-- The slot of the budget, empty until a call uses it. -/
  offline : Option OfflineBudget := none
  /-- The file that holds its record. -/
  file : Option Bytes

namespace LoadedClient

/-- `offline_budget`: the budget in the slot, or a new one for the identity of that moment. -/
def budget (c : LoadedClient) : OfflineBudget := c.offline.getD (.new c.identity.record)

/-- The state of the budget when it is used. -/
def budgetState (c : LoadedClient) : OfflineBudgetState :=
  (c.budget.withFile c.file).ensureLoaded c.budget.format

/-- The client when its budget is loaded. -/
def loaded (c : LoadedClient) : LoadedClient :=
  { c with offline := some { c.budget with state := c.budgetState } }

end LoadedClient

/-- An error of these calls. -/
structure LockError where
  kind : ErrorKind
  message : Bytes
  deriving DecidableEq, Repr

def identityLockPoisoned : LockError := ⟨.identity, ascii "identity lock poisoned"⟩

def trustedTimeUnavailable : LockError := ⟨.clock, ascii "trusted time is unavailable"⟩

/-- `NCryptSignHash` on a handle that was freed. -/
def signFailed : LockError :=
  ⟨.identity, ascii "NCryptSignHash failed with NTSTATUS 0x80090026"⟩

/-- The calls that use the lock, each with the clock it reads, whether its write succeeds, or the
proof that an identity signs in it. -/
inductive LockCall where
  | identity
  | expectedDeviceId
  | isOfflineLocked (now : Int64)
  | noteVerifiedInteraction (time : Int64) (written : Bool)
  | createDpop (now : Int64) (proof : DeviceIdentity → Bytes)
  /-- The commit of `rotate_device_key`. -/
  | replaceIdentity (pending : DeviceIdentity)

/-- What a call of the client answers. -/
inductive LockAnswer where
  | identity (identity : DeviceIdentity)
  | deviceId (value : Bytes)
  | locked (value : Bool)
  | noted
  | dpop (result : Except LockError Bytes)
  | replaced

/-- What `authorize_operation` fails with on the answer of `is_offline_locked`. -/
def offlineBudgetError (locked : Bool) : Option LockError :=
  if locked then some ⟨.offlineBudget, ascii "offline budget exceeded"⟩ else none

/-- The end of `create_dpop`, for a key of which it is known whether it is closed. -/
def signDpop (now : Int64) (proof : DeviceIdentity → Bytes) (identity : DeviceIdentity)
    (closed : Bool) : LockAnswer :=
  .dpop (if now.toInt ≤ 0 then .error trustedTimeUnavailable
    else if closed then .error signFailed
    else .ok (proof identity))

namespace LockCall

/-- The call on a client whose lock is free, without another call at the same time. -/
def perform : LockCall → LoadedClient → LockAnswer × LoadedClient
  | .identity, c => (.identity c.identity, c)
  | .expectedDeviceId, c => (.deviceId c.identity.deviceId, c)
  | .isOfflineLocked now, c =>
      let (locked, budget) := c.budget.isLocked c.file now
      (.locked locked, { c with offline := some budget })
  | .noteVerifiedInteraction time written, c =>
      let noted := c.budget.noteVerified c.file time written
      (.noted, { c with offline := some noted, file := noted.state.file })
  | .createDpop now proof, c => (signDpop now proof c.identity false, c)
  | .replaceIdentity pending, c =>
      (.replaced, { c with identity := pending, handle := c.handle + 1 })

/-- What a call answers when `try_lock` fails; the others wait. -/
def refusal : LockCall → Option LockAnswer
  | .isOfflineLocked _ => some (.locked true)
  | .noteVerifiedInteraction _ _ => some .noted
  | .createDpop _ _ => some (.dpop (.error identityLockPoisoned))
  | _ => none

/-- What a call misses that is refused on this client: a query finds an open budget, an interaction
is not recorded yet, or a write of the record is due; a proof is missed in any case. -/
def Misses : LockCall → LoadedClient → Prop
  | .isOfflineLocked now, c =>
      c.budgetState.latched = false ∧ c.budgetState.hasRecord = true ∧ 0 < now.toInt ∧
        c.budgetState.lastVerified ≤ now.toInt ∧
        now.toInt - c.budgetState.lastVerified ≤ maximumOffline
  | .noteVerifiedInteraction time written, c =>
      0 < time.toInt ∧ (c.budgetState.hadVerifiedInteraction = false ∨
        c.budgetState.hasRecord = false ∨ c.budgetState.lastVerified < time.toInt ∨
        (c.budgetState.persistDue time.toInt ∧ written = true))
  | .createDpop _ _, _ => True
  | _, _ => False

end LockCall

/-! ## The tasks -/

/-- Where a task is, with what it holds. -/
inductive LockPhase where
  | idle
  /-- It has the lock, and saw this client. -/
  | holding (call : LockCall) (seen : LoadedClient)
  /-- `create_dpop`, with its clone of the identity. -/
  | signing (now : Int64) (proof : DeviceIdentity → Bytes) (identity : DeviceIdentity)
      (handle : Nat)
  /-- A rotation, before `previous.close()`. -/
  | closing (pending : DeviceIdentity) (handle : Nat)
  | returned (call : LockCall) (answer : LockAnswer)
  /-- It did not get the lock, at a moment when the client was this. -/
  | refused (call : LockCall) (answer : LockAnswer) (seen : LoadedClient)

/-- The client and the tasks that call its clones. -/
structure LockState (Task : Type) where
  client : LoadedClient
  closed : List Nat := []
  holder : Option Task := none
  phase : Task → LockPhase := fun _ => .idle

/-- What a task does next. -/
inductive LockAction (Task : Type) where
  | acquire (task : Task) (call : LockCall)
  | release (task : Task)
  /-- What is left to do without the lock. -/
  | finish (task : Task)

/-- Where a call is when it has released the lock. -/
def LockCall.released (call : LockCall) (seen : LoadedClient) : LockPhase :=
  match call with
  | .createDpop now proof => .signing now proof seen.identity seen.handle
  | .replaceIdentity pending => .closing pending seen.handle
  | _ => .returned call (call.perform seen).1

/-- The call that a task has made. -/
def LockPhase.call : LockPhase → Option LockCall
  | .idle => none
  | .holding call _ | .returned call _ | .refused call _ _ => some call
  | .signing now proof _ _ => some (.createDpop now proof)
  | .closing pending _ => some (.replaceIdentity pending)

section Steps
variable {Task : Type} [DecidableEq Task]

/-- One step of one task. -/
def lockStep (s : LockState Task) : LockAction Task → Option (LockState Task)
  | .acquire task call =>
      match s.phase task, s.holder with
      | .idle, none => some { s with
          holder := some task
          phase := Function.update s.phase task (.holding call s.client) }
      | .idle, some _ => call.refusal.map fun answer =>
          { s with phase := Function.update s.phase task (.refused call answer s.client) }
      | _, _ => none
  | .release task =>
      match s.phase task with
      | .holding call seen => some { s with
          client := (call.perform seen).2
          holder := none
          phase := Function.update s.phase task (call.released seen) }
      | _ => none
  | .finish task =>
      match s.phase task with
      | .signing now proof identity handle => some { s with
          phase := Function.update s.phase task
            (.returned (.createDpop now proof)
              (signDpop now proof identity (decide (handle ∈ s.closed)))) }
      | .closing pending handle => some { s with
          closed := handle :: s.closed
          phase := Function.update s.phase task (.returned (.replaceIdentity pending) .replaced) }
      | _ => none

/-! ## Harm -/

namespace LockState
variable (s : LockState Task)

/-- The calls answered so far, with the lock or without, are answered as in some sequential order
of calls that were made, and the client is what that order leaves, once its budget is loaded. -/
def Sequential (initial : LoadedClient) : Prop :=
  ∃ (history : List (Mutex.Served Task LockCall LockAnswer)) (last : LoadedClient),
    Mutex.Serial LockCall.perform initial history last ∧
    last.loaded = s.client.loaded ∧
    (history.map Mutex.Served.task).Nodup ∧
    (∀ entry ∈ history, (s.phase entry.task).call = some entry.call) ∧
    (∀ task call answer, s.phase task = .returned call answer → ⟨task, call, answer⟩ ∈ history) ∧
    ∀ task call answer seen, s.phase task = .refused call answer seen →
      ⟨task, call, answer⟩ ∈ history

/-- A call that found the lock taken was answered as it would have been if the lock had been free
at that moment, and would have recorded nothing then. -/
def Indifferent (call : LockCall) (answer : LockAnswer) (seen : LoadedClient) : Prop :=
  (call.perform seen).1 = answer ∧ (call.perform seen).2.loaded = seen.loaded

/-- No call failed or went unrecorded merely because another task had the lock at that moment, and
all are answered as in some sequential order. -/
def Harmless (initial : LoadedClient) : Prop :=
  (∀ task call answer seen, s.phase task = .refused call answer seen →
    Indifferent call answer seen) ∧ s.Sequential initial

/-- A task tries the lock while another has it, and misses something. -/
def Contended (action : LockAction Task) : Prop :=
  ∃ task call, action = .acquire task call ∧ s.phase task = .idle ∧ s.holder.isSome ∧
    call.Misses s.client

/-- A rotation commits before the first use of the budget, after a call was refused. -/
def Unsettled (action : LockAction Task) : Prop :=
  ∃ task pending seen, action = .release task ∧
    s.phase task = .holding (.replaceIdentity pending) seen ∧ s.client.offline = none ∧
    ∃ other call answer before, s.phase other = .refused call answer before

/-- A task signs with a key that was closed since it cloned the identity. -/
def SignsClosed (action : LockAction Task) : Prop :=
  ∃ task now proof identity handle, action = .finish task ∧
    s.phase task = .signing now proof identity handle ∧ 0 < now.toInt ∧ handle ∈ s.closed

end LockState

/-! ## The budget in use -/

theorem ensureLoaded_file (format : RecordFormat) (s : OfflineBudgetState) :
    (s.ensureLoaded format).file = s.file := by
  unfold OfflineBudgetState.ensureLoaded
  split
  · rfl
  · split
    · rfl
    · rfl

namespace LoadedClient
variable (c : LoadedClient)

theorem budgetState_file : c.budgetState.file = c.file := ensureLoaded_file _ _

theorem budgetState_loaded : c.budgetState.loaded = true :=
  OfflineBudgetState.loaded_ensureLoaded _ _

variable {c}

/-- A client is loaded when the budget in its slot is, over the file that it has. -/
theorem loaded_eq_self {budget : OfflineBudget} (hslot : c.offline = some budget)
    (hloaded : budget.state.loaded = true) (hfile : budget.state.file = c.file) :
    c.loaded = c := by
  obtain ⟨identity, handle, offline, file⟩ := c
  obtain rfl : offline = some budget := hslot
  obtain rfl : budget.state.file = file := hfile
  have hstate : budgetState ⟨identity, handle, some budget, budget.state.file⟩ = budget.state :=
    OfflineBudgetState.ensureLoaded_of_loaded _ hloaded
  rw [loaded, hstate]
  rfl

variable (c)

theorem loaded_loaded : c.loaded.loaded = c.loaded :=
  loaded_eq_self rfl c.budgetState_loaded c.budgetState_file

/-- The serial client follows the one that the lock guards: they are the same once their budgets
are loaded, and a budget that is in use there is in use here. -/
def Follows (last c : LoadedClient) : Prop :=
  last.loaded = c.loaded ∧ (c.offline.isSome → last.offline.isSome)

theorem Follows.refl : c.Follows c := ⟨rfl, id⟩

/-- What two clients with the same loaded budget share. -/
structure Shares (last c : LoadedClient) : Prop where
  identity : last.identity = c.identity
  handle : last.handle = c.handle
  file : last.file = c.file
  budget : last.budget.identity = c.budget.identity
  state : last.budgetState = c.budgetState

variable {c} {last : LoadedClient}

theorem loaded_eq_iff : last.loaded = c.loaded ↔ last.Shares c := by
  constructor
  · intro h
    simp only [loaded, LoadedClient.mk.injEq, Option.some.injEq, OfflineBudget.mk.injEq] at h
    obtain ⟨hidentity, hhandle, ⟨hbudget, hstate⟩, hfile⟩ := h
    exact ⟨hidentity, hhandle, hfile, hbudget, hstate⟩
  · rintro ⟨hidentity, hhandle, hfile, hbudget, hstate⟩
    simp only [loaded, hidentity, hhandle, hfile, hbudget, hstate]

end LoadedClient

namespace LockCall
variable {c last : LoadedClient}

/-- A query loads the budget, and nothing else. -/
theorem perform_query (now : Int64) (c : LoadedClient) : (isOfflineLocked now).perform c =
    (.locked (c.budgetState.latched || !c.budgetState.hasRecord || decide (now.toInt ≤ 0) ||
      decide (now.toInt < c.budgetState.lastVerified) ||
      decide (now.toInt - c.budgetState.lastVerified > maximumOffline)), c.loaded) := rfl

/-- The state that an interaction at a positive time leaves. -/
def noteState (format : RecordFormat) (time : Int64) (written : Bool) (s : OfflineBudgetState) :
    OfflineBudgetState :=
  if (s.noted time.toInt).persistDue time.toInt then (s.noted time.toInt).persist format written
  else s.noted time.toInt

theorem noteState_loaded (format : RecordFormat) (time : Int64) (written : Bool)
    {s : OfflineBudgetState} (h : s.loaded = true) :
    (noteState format time written s).loaded = true := by
  unfold noteState OfflineBudgetState.persist
  split
  · split
    · exact h
    · exact h
  · exact h

theorem perform_note {time : Int64} (h : 0 < time.toInt) (written : Bool) (c : LoadedClient) :
    (noteVerifiedInteraction time written).perform c = (.noted, { c with
      offline := some { c.budget with
        state := noteState c.budget.format time written c.budgetState }
      file := (noteState c.budget.format time written c.budgetState).file }) := by
  have hnote : (c.budget.noteVerified c.file time written).state =
      noteState c.budget.format time written c.budgetState := by
    unfold OfflineBudget.noteVerified OfflineBudgetState.noteVerifiedInteraction noteState
      LoadedClient.budgetState
    dsimp only
    rw [if_neg (Int.not_le.mpr h)]
    split
    · rfl
    · rfl
  show (LockAnswer.noted, { c with
    offline := some { c.budget with state := (c.budget.noteVerified c.file time written).state }
    file := (c.budget.noteVerified c.file time written).state.file }) = _
  rw [hnote]

/-- An interaction without a time only puts a budget into the slot. -/
theorem perform_note_untimed {time : Int64} (h : time.toInt ≤ 0) (written : Bool)
    (c : LoadedClient) :
    ((noteVerifiedInteraction time written).perform c).2.loaded = c.loaded := by
  have hnote : c.budget.noteVerified c.file time written =
      { c.budget with state := c.budget.withFile c.file } := by
    unfold OfflineBudget.noteVerified OfflineBudgetState.noteVerifiedInteraction
    rw [if_pos h]
  show (LoadedClient.loaded { c with
    offline := some (c.budget.noteVerified c.file time written)
    file := (c.budget.noteVerified c.file time written).state.file }) = _
  rw [hnote]
  rfl

/-- A recorded interaction leaves a client with a loaded budget. -/
theorem perform_note_loaded {time : Int64} (h : 0 < time.toInt) (written : Bool)
    (c : LoadedClient) : ((noteVerifiedInteraction time written).perform c).2.loaded =
      ((noteVerifiedInteraction time written).perform c).2 := by
  rw [perform_note h]
  exact LoadedClient.loaded_eq_self rfl (noteState_loaded _ _ _ c.budgetState_loaded) rfl

/-- **A call is performed alike on a client that follows another**, unless it is a rotation before
the first use of the budget. -/
theorem alike (call : LockCall) (hslot : ∀ pending, call = .replaceIdentity pending →
    c.offline.isSome) : Mutex.Alike perform LoadedClient.Follows call c := by
  rintro last ⟨hloaded, hused⟩
  have hshares := LoadedClient.loaded_eq_iff.mp hloaded
  cases call with
  | identity => exact ⟨congrArg LockAnswer.identity hshares.identity, hloaded, hused⟩
  | expectedDeviceId =>
    exact ⟨congrArg (fun i : DeviceIdentity => LockAnswer.deviceId i.deviceId)
      hshares.identity, hloaded, hused⟩
  | isOfflineLocked now =>
    rw [perform_query, perform_query, hshares.state, hloaded]
    exact ⟨rfl, rfl, id⟩
  | noteVerifiedInteraction time written =>
    by_cases htime : 0 < time.toInt
    · refine ⟨rfl, ?_⟩
      have hsame : ((noteVerifiedInteraction time written).perform last).2 =
          ((noteVerifiedInteraction time written).perform c).2 := by
        have hformat : last.budget.format = c.budget.format :=
          congrArg recordFormat hshares.budget
        rw [perform_note htime, perform_note htime]
        simp only [hshares.identity, hshares.handle, hshares.budget, hshares.state, hformat]
      rw [hsame]
      exact LoadedClient.Follows.refl _
    · refine ⟨rfl, ?_, fun _ => rfl⟩
      rw [perform_note_untimed (Int.not_lt.mp htime), perform_note_untimed (Int.not_lt.mp htime),
        hloaded]
  | createDpop now proof =>
    exact ⟨congrArg (fun i => signDpop now proof i false) hshares.identity, hloaded, hused⟩
  | replaceIdentity pending =>
    have hused' := hused (hslot pending rfl)
    refine ⟨rfl, ?_, fun _ => hused'⟩
    -- both have the budget in the slot, which the new identity does not touch
    obtain ⟨first, hfirst⟩ := Option.isSome_iff_exists.mp (hslot pending rfl)
    obtain ⟨second, hsecond⟩ := Option.isSome_iff_exists.mp hused'
    have hbudget : c.budget = first := by rw [LoadedClient.budget, hfirst]; rfl
    have hbudget' : last.budget = second := by rw [LoadedClient.budget, hsecond]; rfl
    rw [LoadedClient.loaded_eq_iff]
    have hreplaced : ∀ {d : LoadedClient} {budget : OfflineBudget}, d.offline = some budget →
        (LoadedClient.budget { d with identity := pending, handle := d.handle + 1 }) = d.budget := by
      intro d budget hd
      rw [LoadedClient.budget, LoadedClient.budget, hd]
      rfl
    have hstate : ∀ {d : LoadedClient} {budget : OfflineBudget}, d.offline = some budget →
        (LoadedClient.budgetState { d with identity := pending, handle := d.handle + 1 }) =
          d.budgetState := by
      intro d budget hd
      rw [LoadedClient.budgetState, hreplaced hd]
      rfl
    exact ⟨rfl, congrArg (· + 1) hshares.handle, hshares.file,
      (congrArg _ (hreplaced hsecond)).trans (hshares.budget.trans
        (congrArg _ (hreplaced hfirst)).symm),
      (hstate hsecond).trans (hshares.state.trans (hstate hfirst).symm)⟩

/-- An interaction that is recorded already changes nothing. -/
theorem noted_eq_self {time : Int} {s : OfflineBudgetState} (hhad : s.hadVerifiedInteraction = true)
    (hrecord : s.hasRecord = true) (hbefore : time ≤ s.lastVerified) : s.noted time = s := by
  have hlate : ¬ time - s.lastVerified > maximumOffline := by
    unfold maximumOffline
    omega
  obtain ⟨loaded, hasRecord, latched, had, last, persisted, file⟩ := s
  dsimp only at hhad hrecord hbefore hlate
  subst hhad hrecord
  simp only [OfflineBudgetState.noted, decide_eq_false hlate, if_neg (Int.not_lt.mpr hbefore),
    Bool.and_false, Bool.or_false]

/-- A write changes the file, and the time of the last one. -/
theorem noteState_noted (format : RecordFormat) (time : Int64) (written : Bool)
    (s : OfflineBudgetState) : ∃ file lastPersisted,
      noteState format time written s = { s.noted time.toInt with file, lastPersisted } := by
  unfold noteState OfflineBudgetState.persist
  split
  · split
    · exact ⟨_, _, rfl⟩
    · exact ⟨_, _, rfl⟩
  · exact ⟨_, _, rfl⟩

/-- An interaction changes nothing when it is recorded already, and no write is due. -/
theorem noteState_eq_self_iff (format : RecordFormat) {time : Int64} (htime : 0 < time.toInt)
    (written : Bool) (s : OfflineBudgetState) : noteState format time written s = s ↔
      s.hadVerifiedInteraction = true ∧ s.hasRecord = true ∧ time.toInt ≤ s.lastVerified ∧
        ¬ (s.persistDue time.toInt ∧ written = true) := by
  constructor
  · intro h
    obtain ⟨file, lastPersisted, hstate⟩ := noteState_noted format time written s
    rw [h] at hstate
    have hhad : s.hadVerifiedInteraction = true :=
      congrArg OfflineBudgetState.hadVerifiedInteraction hstate
    have hrecord : s.hasRecord = true := congrArg OfflineBudgetState.hasRecord hstate
    have hlast : s.lastVerified = (s.noted time.toInt).lastVerified :=
      (congrArg OfflineBudgetState.lastVerified hstate :)
    have hbefore : time.toInt ≤ s.lastVerified := by
      by_contra hlater
      rw [OfflineBudgetState.noted] at hlast
      dsimp only at hlast
      rw [if_pos (Int.not_le.mp hlater)] at hlast
      omega
    refine ⟨hhad, hrecord, hbefore, ?_⟩
    rintro ⟨hdue, rfl⟩
    -- the write would move the last persisted time to the last verified one
    have hpersisted : s.lastVerified = s.lastPersisted := by
      conv_rhs => rw [← h, noteState, noted_eq_self hhad hrecord hbefore, if_pos hdue]
      rfl
    rw [OfflineBudgetState.persistDue, ← hpersisted, persistInterval] at hdue
    omega
  · rintro ⟨hhad, hrecord, hbefore, hdue⟩
    rw [noteState, noted_eq_self hhad hrecord hbefore]
    split
    · rename_i hnow
      exact if_neg fun hwritten => hdue ⟨hnow, hwritten⟩
    · rfl

end LockCall

/-! ## What a refused call misses -/

/-- With an open key only the clock can fail. -/
theorem signDpop_open_ne (now : Int64) (proof : DeviceIdentity → Bytes) (identity : DeviceIdentity)
    {error : LockError} (h : error ≠ trustedTimeUnavailable) :
    signDpop now proof identity false ≠ .dpop (.error error) := by
  intro hsigned
  have hresult := LockAnswer.dpop.inj hsigned
  rw [if_neg Bool.false_ne_true] at hresult
  split at hresult
  · exact h (Except.error.inj hresult).symm
  · cases hresult

theorem LockCall.refusal_of_misses {call : LockCall} {seen : LoadedClient}
    (h : call.Misses seen) : ∃ answer, call.refusal = some answer := by
  cases call with
  | identity | expectedDeviceId | replaceIdentity => cases h
  | isOfflineLocked | noteVerifiedInteraction | createDpop => exact ⟨_, rfl⟩

/-- **A refused call is answered as if it had not been refused**, and would have recorded nothing,
exactly when it misses nothing. -/
theorem indifferent_iff {call : LockCall} {answer : LockAnswer} (h : call.refusal = some answer)
    (seen : LoadedClient) : LockState.Indifferent call answer seen ↔ ¬ call.Misses seen := by
  cases call with
  | identity | expectedDeviceId | replaceIdentity => cases h
  | isOfflineLocked now =>
    cases h
    rw [LockState.Indifferent, LockCall.perform_query, LoadedClient.loaded_loaded]
    simp only [LockCall.Misses, LockAnswer.locked.injEq, Bool.or_eq_true, Bool.not_eq_true',
      decide_eq_true_iff, and_true]
    grind
  | noteVerifiedInteraction time written =>
    cases h
    rw [LockState.Indifferent, LockCall.Misses]
    by_cases htime : 0 < time.toInt
    · have hstate : (LockCall.perform (.noteVerifiedInteraction time written) seen).2.loaded =
          seen.loaded ↔
          LockCall.noteState seen.budget.format time written seen.budgetState =
            seen.budgetState := by
        rw [LockCall.perform_note_loaded htime, LockCall.perform_note htime]
        constructor
        · intro hsame
          simp only [LoadedClient.loaded, LoadedClient.mk.injEq, Option.some.injEq,
            OfflineBudget.mk.injEq] at hsame
          exact hsame.2.2.1.2
        · intro hsame
          rw [hsame, seen.budgetState_file]
          rfl
      rw [hstate, LockCall.noteState_eq_self_iff _ htime]
      simp only [LockCall.perform_note htime]
      grind
    · rw [LockCall.perform_note_untimed (Int.not_lt.mp htime)]
      exact iff_of_true ⟨rfl, rfl⟩ fun hmisses => htime hmisses.1
  | createDpop now proof =>
    cases h
    exact iff_of_false (fun h => signDpop_open_ne now proof seen.identity (by decide) h.1)
      (not_not_intro trivial)

/-- A call that uses the budget leaves it in the slot. -/
theorem LockCall.offline_perform (call : LockCall) {c : LoadedClient} (h : c.offline.isSome) :
    (call.perform c).2.offline.isSome := by
  cases call with
  | identity | expectedDeviceId | createDpop | replaceIdentity => exact h
  | isOfflineLocked | noteVerifiedInteraction => rfl

/-- What a refused call would have done on the client that follows is not seen either. -/
theorem LockCall.unseen {call : LockCall} {answer : LockAnswer} (h : call.refusal = some answer)
    {c : LoadedClient} (hmisses : ¬ call.Misses c) {last : LoadedClient} (hlast : last.Follows c) :
    (call.perform last).1 = (call.perform c).1 ∧ (call.perform last).2.Follows c := by
  have hslot : ∀ pending, call = .replaceIdentity pending → c.offline.isSome := by
    rintro pending rfl
    cases h
  obtain ⟨hanswer, hloaded, hused⟩ := call.alike hslot last hlast
  obtain ⟨-, hrecorded⟩ := (indifferent_iff h c).mpr hmisses
  exact ⟨hanswer, hloaded.trans hrecorded, fun hslot => hused (call.offline_perform hslot)⟩

/-! ## The calls under a mutex -/

/-- What the lock leaves of a phase: a call is served when it has released the lock. -/
def LockPhase.served : LockPhase → Mutex.Phase LoadedClient LockCall LockAnswer
  | .idle => .idle
  | .holding call seen => .holding call seen
  | .signing now proof identity _ =>
      .served (.createDpop now proof) (signDpop now proof identity false)
  | .closing pending _ => .served (.replaceIdentity pending) .replaced
  | .returned call answer => .served call answer
  | .refused call answer _ => .refused call answer

/-- What the lock leaves of a state. -/
def LockState.served (s : LockState Task) : Mutex.Config Task LoadedClient LockCall LockAnswer where
  shared := s.client
  holder := s.holder
  phase task := (s.phase task).served

theorem LockCall.served_released (call : LockCall) (seen : LoadedClient) :
    (call.released seen).served = .served call (call.perform seen).1 := by
  cases call <;> rfl

/-- The phase of one task changes. -/
theorem served_update (client : LoadedClient) (closed : List Nat) (holder : Option Task)
    (phase : Task → LockPhase) (task : Task) (next : LockPhase) :
    LockState.served ⟨client, closed, holder, Function.update phase task next⟩ =
      ⟨client, holder, Function.update (fun t => (phase t).served) task next.served⟩ := by
  refine congrArg (Mutex.Config.mk client holder) ?_
  funext other
  show (Function.update phase task next other).served = _
  by_cases heq : other = task
  · rw [heq, Function.update_self, Function.update_self]
  · rw [Function.update_of_ne heq, Function.update_of_ne heq]

/-- What is done without the lock is not seen. -/
theorem served_finish (s : LockState Task) (closed : List Nat) {task : Task} {next : LockPhase}
    (h : next.served = (s.phase task).served) :
    LockState.served ⟨s.client, closed, s.holder, Function.update s.phase task next⟩ =
      s.served := by
  rw [served_update, h, Function.update_eq_self]
  rfl

theorem LockPhase.call_of_outcome {phase : LockPhase} {call : LockCall} {answer : LockAnswer}
    (h : phase.served.outcome = some (call, answer)) : phase.call = some call := by
  cases phase with
  | idle | holding => cases h
  | signing | closing | returned | refused =>
    cases h
    rfl

theorem LockPhase.holding_of_served {phase : LockPhase} {call : LockCall} {seen : LoadedClient}
    (h : phase.served = .holding call seen) : phase = .holding call seen := by
  cases phase with
  | holding =>
    cases h
    rfl
  | idle | signing | closing | returned | refused => cases h

theorem LockPhase.refused_of_served {phase : LockPhase} {call : LockCall} {answer : LockAnswer}
    (h : phase.served = .refused call answer) : ∃ seen, phase = .refused call answer seen := by
  cases phase with
  | refused call answer seen =>
    cases h
    exact ⟨seen, rfl⟩
  | idle | holding | signing | closing | returned => cases h

variable {s t : LockState Task} {action : LockAction Task}

omit [DecidableEq Task] in
/-- A rotation that commits after a refused call finds the budget in use. -/
theorem respects_release {task : Task} (hsettled : ¬ s.Unsettled (.release task)) :
    Mutex.Respects LockCall.perform LoadedClient.Follows s.served (.release task) := by
  intro call seen hphase
  have hholding := LockPhase.holding_of_served hphase
  by_cases hused : s.client.offline.isSome
  · exact .inr (call.alike fun _ _ => hused)
  · cases call with
    | identity | expectedDeviceId | isOfflineLocked | noteVerifiedInteraction | createDpop =>
      exact .inr (LockCall.alike _ nofun)
    | replaceIdentity pending =>
      refine .inl fun other call' answer hrefused => hsettled ?_
      obtain ⟨before, hbefore⟩ := LockPhase.refused_of_served hrefused
      exact ⟨task, pending, seen, rfl, hholding, Option.not_isSome_iff_eq_none.mp hused,
        other, call', answer, before, hbefore⟩

/-- **A step that harms nothing** is one of the mutex, or changes nothing that the lock guards. -/
theorem served_step (hstep : lockStep s action = some t) (hfree : ¬ s.Contended action)
    (hopen : ¬ s.SignsClosed action) (hsettled : ¬ s.Unsettled action) :
    t.served = s.served ∨ ∃ action',
      Mutex.Respects LockCall.perform LoadedClient.Follows s.served action' ∧
      Mutex.step LockCall.perform s.served action' = some t.served := by
  cases action with
  | acquire task call =>
    dsimp only [lockStep] at hstep
    split at hstep
    · rename_i hidle hnone
      cases hstep
      refine .inr ⟨.acquire task call, trivial, ?_⟩
      have hidle' : s.served.phase task = .idle := congrArg LockPhase.served hidle
      have hnone' : s.served.holder = none := hnone
      rw [Mutex.step, hidle', hnone', served_update]
      rfl
    · -- the call is refused, and misses nothing
      rename_i other hidle hheld
      obtain ⟨answer, hanswer, rfl⟩ := Option.map_eq_some_iff.mp hstep
      have hmisses : ¬ call.Misses s.client := fun hmisses =>
        hfree ⟨task, call, rfl, hidle, hheld ▸ rfl, hmisses⟩
      refine .inr ⟨.refuse task call, fun last hlast => LockCall.unseen hanswer hmisses hlast, ?_⟩
      have hidle' : s.served.phase task = .idle := congrArg LockPhase.served hidle
      have hheld' : s.served.holder = some other := hheld
      obtain ⟨hindifferent, -⟩ := (indifferent_iff hanswer s.client).mpr hmisses
      rw [Mutex.step, hidle', hheld', served_update, ← hindifferent]
      rfl
    · cases hstep
  | release task =>
    dsimp only [lockStep] at hstep
    split at hstep
    · rename_i call seen hphase
      cases hstep
      refine .inr ⟨.release task, respects_release hsettled, ?_⟩
      have hphase' : s.served.phase task = .holding call seen := congrArg LockPhase.served hphase
      rw [Mutex.step, hphase', served_update, LockCall.served_released]
      rfl
    · cases hstep
  | finish task =>
    dsimp only [lockStep] at hstep
    split at hstep
    · rename_i now proof identity handle hphase
      cases hstep
      refine .inl (served_finish s s.closed ?_)
      -- the key is open, or the clock is not had
      have hsigned : signDpop now proof identity (decide (handle ∈ s.closed)) =
          signDpop now proof identity false := by
        by_cases hclock : now.toInt ≤ 0
        · rw [signDpop, signDpop, if_pos hclock, if_pos hclock]
        · have hnot : handle ∉ s.closed := fun hclosed =>
            hopen ⟨task, now, proof, identity, handle, rfl, hphase, Int.not_le.mp hclock, hclosed⟩
          rw [decide_eq_false hnot]
      rw [hsigned, hphase]
      rfl
    · rename_i pending handle hphase
      cases hstep
      refine .inl (served_finish s (handle :: s.closed) ?_)
      rw [hphase]
      rfl
    · cases hstep

/-- No step so far has missed anything at the lock, or signed with a closed key. -/
def Quiet (initial : LoadedClient) (actions : List (LockAction Task)) : Prop :=
  ∀ before action after s, actions = before ++ action :: after →
    run lockStep { client := initial } before = some s →
    ¬ s.Contended action ∧ ¬ s.SignsClosed action

/-- No rotation so far has come between a refused call and the first use of the budget. -/
def Settled (initial : LoadedClient) (actions : List (LockAction Task)) : Prop :=
  ∀ before action after s, actions = before ++ action :: after →
    run lockStep { client := initial } before = some s → ¬ s.Unsettled action

/-- **Induction along a quiet run.** -/
theorem quiet_induction {P : LockState Task → Prop} {initial : LoadedClient}
    {actions : List (LockAction Task)} (hinit : P { client := initial })
    (hnext : ∀ {s action t}, P s → lockStep s action = some t → ¬ s.Contended action →
      ¬ s.SignsClosed action → ¬ s.Unsettled action → P t)
    (hquiet : Quiet initial actions) (hsettled : Settled initial actions)
    (hrun : run lockStep { client := initial } actions = some s) : P s := by
  refine run_induction_split hinit ?_ hrun
  intro before action after t t' hsplit hbefore ht hstep
  obtain ⟨hfree, hopen⟩ := hquiet before action after t hsplit hbefore
  exact hnext ht hstep hfree hopen (hsettled before action after t hsplit hbefore)

/-- **A quiet run is one of the mutex.** -/
theorem served_run {initial : LoadedClient} {actions : List (LockAction Task)}
    (hquiet : Quiet initial actions) (hsettled : Settled initial actions)
    (hrun : run lockStep { client := initial } actions = some s) :
    Mutex.Reaches LockCall.perform LoadedClient.Follows initial s.served := by
  have hstart : LockState.served ({ client := initial } : LockState Task) =
      { shared := initial } := rfl
  refine quiet_induction (P := fun s => Mutex.Reaches LockCall.perform LoadedClient.Follows initial
    s.served) ?_ ?_ hquiet hsettled hrun
  · rw [hstart]
    exact .start
  intro s action t hserved hstep hfree hopen hsettled
  rcases served_step hstep hfree hopen hsettled with hsame | ⟨action', hrespects, hnext⟩
  · exact hsame ▸ hserved
  · exact hserved.next hrespects hnext

/-- One task moves, and it is refused only at the lock. -/
theorem lockStep_phase (hstep : lockStep s action = some t) :
    ∃ mover next, t.phase = Function.update s.phase mover next ∧
      ∀ call answer seen, next = .refused call answer seen →
        call.refusal = some answer ∧ (call.Misses seen → s.Contended action) := by
  cases action with
  | acquire task call =>
    dsimp only [lockStep] at hstep
    split at hstep
    · cases hstep
      refine ⟨task, _, rfl, fun _ _ _ hrefused => ?_⟩
      cases hrefused
    · -- the lock is held, and only a call that tries it moves on
      rename_i other hidle hheld
      obtain ⟨answer, hanswer, rfl⟩ := Option.map_eq_some_iff.mp hstep
      refine ⟨task, _, rfl, fun _ _ _ hrefused => ?_⟩
      cases hrefused
      exact ⟨hanswer, fun hmisses => ⟨task, call, rfl, hidle, hheld ▸ rfl, hmisses⟩⟩
    · cases hstep
  | release task =>
    dsimp only [lockStep] at hstep
    split at hstep
    · rename_i call seen _
      cases hstep
      refine ⟨task, _, rfl, fun _ _ _ hrefused => ?_⟩
      cases call <;> cases hrefused
    · cases hstep
  | finish task =>
    dsimp only [lockStep] at hstep
    split at hstep
    · cases hstep
      refine ⟨task, _, rfl, fun _ _ _ hrefused => ?_⟩
      cases hrefused
    · cases hstep
      refine ⟨task, _, rfl, fun _ _ _ hrefused => ?_⟩
      cases hrefused
    · cases hstep

theorem indifferent_of_quiet {initial : LoadedClient} {actions : List (LockAction Task)}
    (hquiet : Quiet initial actions) (hsettled : Settled initial actions)
    (hrun : run lockStep { client := initial } actions = some s) :
    ∀ task call answer seen, s.phase task = .refused call answer seen →
      LockState.Indifferent call answer seen := by
  refine quiet_induction (P := fun s => ∀ task call answer seen,
    s.phase task = .refused call answer seen → LockState.Indifferent call answer seen)
    (fun _ _ _ _ => nofun) ?_ hquiet hsettled hrun
  intro s action t hbefore hstep hfree _ _ task call answer seen hrefused
  obtain ⟨mover, next, hphase, hcontended⟩ := lockStep_phase hstep
  rw [hphase] at hrefused
  rcases eq_or_ne task mover with rfl | hne
  · rw [Function.update_self] at hrefused
    obtain ⟨hanswer, hmisses⟩ := hcontended call answer seen hrefused
    exact (indifferent_iff hanswer seen).mpr fun h => hfree (hmisses h)
  · rw [Function.update_of_ne hne] at hrefused
    exact hbefore task call answer seen hrefused

/-- **A quiet run harms nothing.** -/
theorem harmless_of_quiet {initial : LoadedClient} {actions : List (LockAction Task)}
    (hquiet : Quiet initial actions) (hsettled : Settled initial actions)
    (hrun : run lockStep { client := initial } actions = some s) : s.Harmless initial := by
  obtain ⟨history, last, hrecorded⟩ :=
    Mutex.serial_of_reaches LoadedClient.Follows.refl (served_run hquiet hsettled hrun)
  refine ⟨indifferent_of_quiet hquiet hsettled hrun, history, last, hrecorded.serial,
    hrecorded.follows.1, hrecorded.nodup, ?_, ?_, ?_⟩
  · intro entry hmem
    exact LockPhase.call_of_outcome ((hrecorded.mem_iff entry).mp hmem)
  · intro task call answer hreturned
    refine (hrecorded.mem_iff ⟨task, call, answer⟩).mpr ?_
    show (s.phase task).served.outcome = _
    rw [hreturned]
    rfl
  · intro task call answer seen hrefused
    refine (hrecorded.mem_iff ⟨task, call, answer⟩).mpr ?_
    show (s.phase task).served.outcome = _
    rw [hrefused]
    rfl

/-! ## The harm of a step -/

/-- A task that misses something at the lock is refused. -/
theorem not_harmless_of_contended (initial : LoadedClient) (h : s.Contended action) :
    ∃ t, lockStep s action = some t ∧ ¬ t.Harmless initial := by
  obtain ⟨task, call, rfl, hidle, hheld, hmisses⟩ := h
  obtain ⟨answer, hanswer⟩ := LockCall.refusal_of_misses hmisses
  obtain ⟨other, hother⟩ := Option.isSome_iff_exists.mp hheld
  refine ⟨{ s with phase := Function.update s.phase task (.refused call answer s.client) }, ?_, ?_⟩
  · rw [lockStep, hidle, hother]
    dsimp only
    rw [hanswer]
    rfl
  · intro hharmless
    have hindifferent := hharmless.1 task call answer s.client (Function.update_self _ _ _)
    exact (indifferent_iff hanswer s.client).mp hindifferent hmisses

omit [DecidableEq Task] in
/-- **In no sequential order a proof fails with an identity error.** -/
theorem signFailed_not_sequential {initial : LoadedClient} {task : Task} {now : Int64}
    {proof : DeviceIdentity → Bytes}
    (h : s.phase task = .returned (.createDpop now proof) (.dpop (.error signFailed))) :
    ¬ s.Sequential initial := by
  rintro ⟨history, last, hserial, -, -, -, hreturned, -⟩
  obtain ⟨before, hanswer⟩ := hserial.answer_eq (hreturned task _ _ h)
  exact signDpop_open_ne now proof before.identity (by decide) hanswer.symm

theorem not_harmless_of_signsClosed (initial : LoadedClient) (h : s.SignsClosed action) :
    ∃ t, lockStep s action = some t ∧ ¬ t.Harmless initial := by
  obtain ⟨task, now, proof, identity, handle, rfl, hphase, hclock, hclosed⟩ := h
  refine ⟨{ s with phase := Function.update s.phase task (.returned (.createDpop now proof)
    (signDpop now proof identity (decide (handle ∈ s.closed)))) }, ?_, ?_⟩
  · rw [lockStep, hphase]
  · intro hharmless
    have hfailed : Function.update s.phase task (.returned (.createDpop now proof)
        (signDpop now proof identity (decide (handle ∈ s.closed)))) task =
          .returned (.createDpop now proof) (.dpop (.error signFailed)) := by
      rw [Function.update_self, signDpop, if_neg (Int.not_le.mpr hclock),
        if_pos (decide_eq_true hclosed)]
    exact signFailed_not_sequential hfailed hharmless.2

/-- **When contention is harmless**: in every state of a run each refused call was answered as it
would have been with the lock and missed no record, and all calls are answered as in some
sequential order, when no task of the run misses anything at the lock, none signs a proof with a
key that a rotation has closed, and no rotation comes between a refused call and the first use of
the budget.  The first two conditions are also necessary. -/
theorem contention_harmless (initial : LoadedClient) (actions : List (LockAction Task)) :
    (Quiet initial actions ∧ Settled initial actions →
      ∀ before s, before <+: actions → run lockStep { client := initial } before = some s →
        s.Harmless initial) ∧
    ((∀ before s, before <+: actions → run lockStep { client := initial } before = some s →
      s.Harmless initial) → Quiet initial actions) := by
  constructor
  · rintro ⟨hquiet, hsettled⟩ before s ⟨after, rfl⟩ hrun
    refine harmless_of_quiet ?_ ?_ hrun
    · rintro first action rest t rfl hfirst
      exact hquiet first action (rest ++ after) t (by simp) hfirst
    · rintro first action rest t rfl hfirst
      exact hsettled first action (rest ++ after) t (by simp) hfirst
  · rintro h before action after s rfl hrun
    have hnext : ∀ t, lockStep s action = some t → t.Harmless initial :=
      fun t hstep => always_step (P := fun s => s.Harmless initial) h rfl hrun hstep
    constructor
    · intro hcontended
      obtain ⟨t, hstep, hharm⟩ := not_harmless_of_contended initial hcontended
      exact hharm (hnext t hstep)
    · intro hsigns
      obtain ⟨t, hstep, hharm⟩ := not_harmless_of_signsClosed initial hsigns
      exact hharm (hnext t hstep)

end Steps

/-! One task in `identity()`, and one in each of the three calls that try the lock. -/

/-- A client whose record was noted a second after the epoch. -/
def sampleClient : LoadedClient where
  identity := ⟨sampleIdentity "install" (by decide), ascii "device", ascii "key"⟩
  file := some (offlineText (sampleIdentity "install" (by decide)) 1000)

/-- The budget of this client is not exceeded. -/
example : offlineBudgetError
    (match (LockCall.isOfflineLocked 2000).perform sampleClient with
      | (.locked locked, _) => locked
      | _ => true) = none := by decide

/-- Three calls while `identity` is under way. -/
def contendedActions : List (LockAction (Fin 4)) :=
  [.acquire 0 .identity, .acquire 1 (.isOfflineLocked 2000),
    .acquire 2 (.noteVerifiedInteraction 2000 true), .acquire 3 (.createDpop 2 fun _ => []),
    .release 0]

/-- All three are refused, and the first would have been answered otherwise. -/
theorem refused_while_identity : ¬ ∀ (Task : Type) (_ : DecidableEq Task) (initial : LoadedClient)
    (actions : List (LockAction Task)) (s : LockState Task),
    run lockStep { client := initial } actions = some s → s.Harmless initial := by
  intro h
  have hrun : ∃ s, run lockStep { client := sampleClient } contendedActions = some s ∧
      s.phase 1 = .refused (.isOfflineLocked 2000) (.locked true) sampleClient := ⟨_, rfl, rfl⟩
  obtain ⟨s, hrun, hrefused⟩ := hrun
  have hindifferent := ((h _ _ _ _ s hrun).1 _ _ _ _ hrefused).1
  exact absurd (LockAnswer.locked.inj hindifferent) (by decide)

end SwmSdk.Rust
