import Mathlib.Data.List.Nodup
import Mathlib.Logic.Function.Basic

/-! # Calls under one mutex, some of which only try it

Tasks call operations on a shared state, one call each.  A call takes the mutex and reads the
state; when it releases the mutex it has its answer and writes the state that it computed from
what it read.  A call that only tries the mutex, and does not get it, is answered at once, as it
would be on the shared state of that moment, and writes nothing.

A served call thus acts at its release, and a refused one at its trial, but without its effect.  So
the answers are those of the calls made one after the other as long as that effect is not seen: the
serial state then follows the shared one along a relation `R`, which every step has to respect
(`serial_of_reaches`).
-/
namespace Mutex

variable {Task σ κ α : Type} [DecidableEq Task]

/-- A call with its answer. -/
structure Served (Task κ α : Type) where
  task : Task
  call : κ
  answer : α

/-- Where a task is. -/
inductive Phase (σ κ α : Type) where
  | idle
  /-- It has the mutex, and saw this state. -/
  | holding (call : κ) (seen : σ)
  | served (call : κ) (answer : α)
  /-- It was answered without the mutex. -/
  | refused (call : κ) (answer : α)

/-- The call that a task has the answer of, with the answer. -/
def Phase.outcome : Phase σ κ α → Option (κ × α)
  | .idle | .holding _ _ => none
  | .served call answer | .refused call answer => some (call, answer)

/-- The shared state, the mutex and the tasks. -/
structure Config (Task σ κ α : Type) where
  shared : σ
  holder : Option Task := none
  phase : Task → Phase σ κ α := fun _ => .idle

/-- What a task can do: take the mutex, give it back, or do without it. -/
inductive Action (Task κ : Type) where
  | acquire (task : Task) (call : κ)
  | release (task : Task)
  | refuse (task : Task) (call : κ)

section Steps
variable (perform : κ → σ → α × σ) (c : Config Task σ κ α)

/-- A task has taken the mutex. -/
def acquired (task : Task) (call : κ) : Config Task σ κ α :=
  { c with
    holder := some task
    phase := Function.update c.phase task (.holding call c.shared) }

/-- A task has given the mutex back. -/
def released (task : Task) (call : κ) (seen : σ) : Config Task σ κ α where
  shared := (perform call seen).2
  holder := none
  phase := Function.update c.phase task (.served call (perform call seen).1)

/-- A task was answered while another had the mutex. -/
def refused (task : Task) (call : κ) : Config Task σ κ α :=
  { c with phase := Function.update c.phase task (.refused call (perform call c.shared).1) }

/-- One step of one task. -/
def step : Action Task κ → Option (Config Task σ κ α)
  | .acquire task call =>
      match c.phase task, c.holder with
      | .idle, none => some (acquired c task call)
      | _, _ => none
  | .release task =>
      match c.phase task with
      | .holding call seen => some (released perform c task call seen)
      | _ => none
  | .refuse task call =>
      match c.phase task, c.holder with
      | .idle, some _ => some (refused perform c task call)
      | _, _ => none

variable {perform c}

theorem acquired_phase_self (task : Task) (call : κ) :
    (acquired c task call).phase task = .holding call c.shared :=
  Function.update_self _ _ _

theorem acquired_phase_of_ne {task other : Task} (hne : other ≠ task) (call : κ) :
    (acquired c task call).phase other = c.phase other :=
  Function.update_of_ne hne _ _

theorem released_phase_self (task : Task) (call : κ) (seen : σ) :
    (released perform c task call seen).phase task = .served call (perform call seen).1 :=
  Function.update_self _ _ _

theorem released_phase_of_ne {task other : Task} (hne : other ≠ task) (call : κ) (seen : σ) :
    (released perform c task call seen).phase other = c.phase other :=
  Function.update_of_ne hne _ _

theorem refused_phase_self (task : Task) (call : κ) :
    (refused perform c task call).phase task = .refused call (perform call c.shared).1 :=
  Function.update_self _ _ _

theorem refused_phase_of_ne {task other : Task} (hne : other ≠ task) (call : κ) :
    (refused perform c task call).phase other = c.phase other :=
  Function.update_of_ne hne _ _

/-- **Every step is one of three.** -/
theorem step_cases {action : Action Task κ} {d : Config Task σ κ α}
    (h : step perform c action = some d) :
    (∃ task call, action = .acquire task call ∧ c.phase task = .idle ∧ c.holder = none ∧
      d = acquired c task call) ∨
    (∃ task call seen, action = .release task ∧ c.phase task = .holding call seen ∧
      d = released perform c task call seen) ∨
    ∃ task call, action = .refuse task call ∧ c.phase task = .idle ∧
      d = refused perform c task call := by
  cases action with
  | acquire task call =>
    dsimp only [step] at h
    split at h
    · rename_i hidle hfree
      exact .inl ⟨task, call, rfl, hidle, hfree, (Option.some.inj h).symm⟩
    · cases h
  | release task =>
    dsimp only [step] at h
    split at h
    · rename_i call seen hphase
      exact .inr (.inl ⟨task, call, seen, rfl, hphase, (Option.some.inj h).symm⟩)
    · cases h
  | refuse task call =>
    dsimp only [step] at h
    split at h
    · rename_i hidle _
      exact .inr (.inr ⟨task, call, rfl, hidle, (Option.some.inj h).symm⟩)
    · cases h

end Steps

/-- **The calls one after the other**, from a first state to a last. -/
inductive Serial (perform : κ → σ → α × σ) (initial : σ) : List (Served Task κ α) → σ → Prop where
  | nil : Serial perform initial [] initial
  | concat {history : List (Served Task κ α)} {s : σ} (h : Serial perform initial history s)
      (task : Task) (call : κ) :
      Serial perform initial (history ++ [⟨task, call, (perform call s).1⟩]) (perform call s).2

variable {perform : κ → σ → α × σ} {initial : σ}

omit [DecidableEq Task] in
/-- Every answer is one that its call gives on some state. -/
theorem Serial.answer_eq {history : List (Served Task κ α)} {s : σ}
    (h : Serial perform initial history s) {entry : Served Task κ α} (hmem : entry ∈ history) :
    ∃ before, entry.answer = (perform entry.call before).1 := by
  induction h with
  | nil => cases hmem
  | @concat history s _ task call ih =>
    rcases List.mem_append.mp hmem with hold | hnew
    · exact ih hold
    · rw [List.mem_singleton.mp hnew]
      exact ⟨s, rfl⟩

/-! ## The serial state and the shared one -/

/-- No call so far was answered without the mutex. -/
def Unrefused (c : Config Task σ κ α) : Prop :=
  ∀ task call answer, c.phase task ≠ .refused call answer

/-- A call answers alike on two related states, and leaves related states. -/
def Alike (perform : κ → σ → α × σ) (R : σ → σ → Prop) (call : κ) (s : σ) : Prop :=
  ∀ last, R last s → (perform call last).1 = (perform call s).1 ∧
    R (perform call last).2 (perform call s).2

/-- The effect of a step is not seen: a refused call answers alike and would leave a related state;
a served one answers alike, unless the serial state is the shared one itself. -/
def Respects (perform : κ → σ → α × σ) (R : σ → σ → Prop) (c : Config Task σ κ α) :
    Action Task κ → Prop
  | .acquire _ _ => True
  | .release task => ∀ call seen, c.phase task = .holding call seen →
      Unrefused c ∨ Alike perform R call c.shared
  | .refuse _ call => ∀ last, R last c.shared →
      (perform call last).1 = (perform call c.shared).1 ∧ R (perform call last).2 c.shared

/-- The states that steps lead to which respect the relation. -/
inductive Reaches (perform : κ → σ → α × σ) (R : σ → σ → Prop) (initial : σ) :
    Config Task σ κ α → Prop where
  | start : Reaches perform R initial { shared := initial }
  | next {c d : Config Task σ κ α} {action : Action Task κ} (h : Reaches perform R initial c)
      (hrespects : Respects perform R c action) (hstep : step perform c action = some d) :
      Reaches perform R initial d

/-- Who holds the mutex saw the state that is there. -/
structure Exclusive (c : Config Task σ κ α) : Prop where
  holds : ∀ {task call seen}, c.phase task = .holding call seen →
    c.holder = some task ∧ seen = c.shared

/-- The history has exactly the calls that were answered, and leads to a state that follows the
shared one, and is it as long as no call was refused. -/
structure Recorded (perform : κ → σ → α × σ) (R : σ → σ → Prop) (initial : σ)
    (c : Config Task σ κ α) (history : List (Served Task κ α)) (last : σ) : Prop where
  serial : Serial perform initial history last
  nodup : (history.map Served.task).Nodup
  mem_iff : ∀ entry, entry ∈ history ↔
    (c.phase entry.task).outcome = some (entry.call, entry.answer)
  follows : R last c.shared
  exact : Unrefused c → last = c.shared

variable {R : σ → σ → Prop} {c d : Config Task σ κ α} {action : Action Task κ}

theorem Exclusive.step (h : Exclusive c) (hstep : step perform c action = some d) :
    Exclusive d := by
  refine ⟨fun {other call' seen'} hother => ?_⟩
  rcases step_cases hstep with ⟨task, call, -, -, hfree, rfl⟩ | ⟨task, call, seen, -, hphase, rfl⟩ |
    ⟨task, call, -, -, rfl⟩
  · by_cases heq : other = task
    · subst heq
      rw [acquired_phase_self] at hother
      cases hother
      exact ⟨rfl, rfl⟩
    · -- nobody else can hold a mutex that was free
      rw [acquired_phase_of_ne heq] at hother
      have hheld := (h.holds hother).1
      rw [hfree] at hheld
      cases hheld
  · by_cases heq : other = task
    · subst heq
      rw [released_phase_self] at hother
      cases hother
    · rw [released_phase_of_ne heq] at hother
      have hheld := (h.holds hother).1
      rw [(h.holds hphase).1] at hheld
      exact absurd (Option.some.inj hheld).symm heq
  · by_cases heq : other = task
    · subst heq
      rw [refused_phase_self] at hother
      cases hother
    · rw [refused_phase_of_ne heq] at hother
      exact h.holds hother

/-- A call that is answered now is the last of the history. -/
theorem mem_concat_iff {history : List (Served Task κ α)} {phase : Task → Phase σ κ α}
    (hmem : ∀ entry, entry ∈ history ↔
      (phase entry.task).outcome = some (entry.call, entry.answer))
    {task : Task} {next : Phase σ κ α} {call : κ} {answer : α} (hnone : (phase task).outcome = none)
    (hnext : next.outcome = some (call, answer)) (entry : Served Task κ α) :
    entry ∈ history ++ [⟨task, call, answer⟩] ↔
      (Function.update phase task next entry.task).outcome = some (entry.call, entry.answer) := by
  rw [List.mem_append, List.mem_singleton]
  obtain ⟨task', call', answer'⟩ := entry
  by_cases heq : task' = task
  · subst heq
    rw [Function.update_self, hnext]
    have hfresh : (⟨task', call', answer'⟩ : Served Task κ α) ∉ history := by
      intro hold
      rw [hmem, hnone] at hold
      cases hold
    rw [or_iff_right hfresh]
    constructor
    · intro hnew
      cases hnew
      rfl
    · intro hsome
      cases hsome
      rfl
  · rw [Function.update_of_ne heq, ← hmem ⟨task', call', answer'⟩]
    refine or_iff_left fun hnew => heq ?_
    exact congrArg Served.task hnew

omit [DecidableEq Task] in
/-- A task that has no answer yet is not in the history. -/
theorem Recorded.fresh {history : List (Served Task κ α)} {last : σ}
    (h : Recorded perform R initial c history last) {task : Task}
    (hnone : (c.phase task).outcome = none) (call : κ) (answer : α) :
    ((history ++ [(⟨task, call, answer⟩ : Served Task κ α)]).map Served.task).Nodup := by
  rw [List.map_append, List.nodup_append]
  refine ⟨h.nodup, List.nodup_singleton _, ?_⟩
  intro other hother mine hmine heq
  obtain ⟨entry, hmem, rfl⟩ := List.mem_map.mp hother
  have hmine' : mine = task := List.mem_singleton.mp hmine
  have houtcome := (h.mem_iff entry).mp hmem
  rw [heq, hmine', hnone] at houtcome
  cases houtcome

theorem Recorded.acquired {history : List (Served Task κ α)} {last : σ}
    (h : Recorded perform R initial c history last) {task : Task} (hidle : c.phase task = .idle)
    (call : κ) : Recorded perform R initial (acquired c task call) history last := by
  refine ⟨h.serial, h.nodup, fun entry => ?_, h.follows, fun hnone => h.exact ?_⟩
  · rw [h.mem_iff]
    by_cases heq : entry.task = task
    · rw [heq, hidle, acquired_phase_self]
      rfl
    · rw [acquired_phase_of_ne heq]
  · intro other call' answer hother
    have hne : other ≠ task := by
      rintro rfl
      rw [hidle] at hother
      cases hother
    exact hnone other call' answer ((acquired_phase_of_ne hne call).trans hother)

theorem Recorded.released {history : List (Served Task κ α)} {last : σ}
    (h : Recorded perform R initial c history last) (hrefl : ∀ s, R s s) {task : Task} {call : κ}
    (hphase : c.phase task = .holding call c.shared)
    (halike : Unrefused c ∨ Alike perform R call c.shared) :
    Recorded perform R initial (released perform c task call c.shared)
      (history ++ [⟨task, call, (perform call last).1⟩]) (perform call last).2 := by
  have hnone : (c.phase task).outcome = none := by
    rw [hphase]
    rfl
  -- the call does on the serial state what it did on the shared one
  obtain ⟨hanswer, hfollows⟩ : (perform call last).1 = (perform call c.shared).1 ∧
      R (perform call last).2 (perform call c.shared).2 := by
    rcases halike with hunrefused | halike
    · rw [h.exact hunrefused]
      exact ⟨rfl, hrefl _⟩
    · exact halike last h.follows
  refine ⟨h.serial.concat task call, h.fresh hnone call _, ?_, hfollows, fun hlater => ?_⟩
  · rw [hanswer]
    exact mem_concat_iff h.mem_iff hnone rfl
  · refine congrArg (fun s => (perform call s).2) (h.exact fun other call' answer hother => ?_)
    have hne : other ≠ task := by
      rintro rfl
      rw [hphase] at hother
      cases hother
    exact hlater other call' answer ((released_phase_of_ne hne call _).trans hother)

theorem Recorded.refused {history : List (Served Task κ α)} {last : σ}
    (h : Recorded perform R initial c history last) {task : Task} (hidle : c.phase task = .idle)
    {call : κ} (hunseen : ∀ last, R last c.shared →
      (perform call last).1 = (perform call c.shared).1 ∧ R (perform call last).2 c.shared) :
    Recorded perform R initial (refused perform c task call)
      (history ++ [⟨task, call, (perform call last).1⟩]) (perform call last).2 := by
  have hnone : (c.phase task).outcome = none := by
    rw [hidle]
    rfl
  obtain ⟨hanswer, hfollows⟩ := hunseen last h.follows
  refine ⟨h.serial.concat task call, h.fresh hnone call _, ?_, hfollows, fun hlater => ?_⟩
  · rw [hanswer]
    exact mem_concat_iff h.mem_iff hnone rfl
  · exact absurd (refused_phase_self task call) (hlater task call _)

omit [DecidableEq Task] in
theorem exclusive_initial : Exclusive ({ shared := initial } : Config Task σ κ α) where
  holds h := by cases h

omit [DecidableEq Task] in
theorem recorded_initial (hrefl : ∀ s, R s s) :
    Recorded perform R initial ({ shared := initial } : Config Task σ κ α) [] initial where
  serial := .nil
  nodup := List.nodup_nil
  mem_iff _ := by constructor <;> nofun
  follows := hrefl initial
  exact _ := rfl

/-- **Calls under a mutex are answered as one after the other**, the refused ones too, as long as
the effects that they do not have are not seen. -/
theorem serial_of_reaches (hrefl : ∀ s, R s s) (h : Reaches perform R initial c) :
    ∃ history last, Recorded perform R initial c history last := by
  have hkept : Exclusive c ∧ ∃ history last, Recorded perform R initial c history last := by
    induction h with
    | start => exact ⟨exclusive_initial, [], initial, recorded_initial hrefl⟩
    | next _ hrespects hstep ih =>
      obtain ⟨hexclusive, history, last, hrecorded⟩ := ih
      refine ⟨hexclusive.step hstep, ?_⟩
      rcases step_cases hstep with ⟨task, call, -, hidle, -, rfl⟩ |
        ⟨task, call, seen, rfl, hphase, rfl⟩ | ⟨task, call, rfl, hidle, rfl⟩
      · exact ⟨history, last, hrecorded.acquired hidle call⟩
      · have halike := hrespects call seen hphase
        obtain rfl := (hexclusive.holds hphase).2
        exact ⟨_, _, hrecorded.released hrefl hphase halike⟩
      · exact ⟨_, _, hrecorded.refused hidle hrespects⟩
  exact hkept.2

end Mutex
