import Mathlib.Tactic.Common

/-! # Loops that try again

A loop makes attempts, with pauses between them, until one of them ends it.  What it does in a turn
is a function of the turn's number (`Turn`), and it keeps the last error for the case that it ends
before an attempt.  A run lists the attempts that were made, each with the pause after it.

The first turn without a pause decides a run: `tries_getElem?` says which attempts it made and
`result_of_done` what it returns.  A run whose last attempt was answered returns the answer
unless the pause after it leaves no time for the next attempt (`noneLost_iff`).
-/
namespace RetryLoop
variable {α ε : Type}

/-- What a turn of a loop does. -/
inductive Turn (α ε : Type)
  /-- It ends the loop before the attempt. -/
  | stop (error : ε)
  /-- There is no time left for the attempt. -/
  | late
  /-- It ends the loop with the attempt. -/
  | done (result : Except ε α)
  /-- It pauses after the attempt; an error of the attempt is kept. -/
  | pause (delay : Nat) (error : Option ε)
  /-- The pause after the attempt is broken off. -/
  | broken (delay : Nat) (error : ε)

/-- The attempts of a run, each with the pause after it, and what the loop returns. -/
structure Run (α ε : Type) where
  tries : List (Option Nat)
  result : Except ε α

namespace Turn

/-- The attempt of a turn, with the pause after it. -/
def attempt : Turn α ε → Option (Option Nat)
  | stop _ | late => none
  | done _ => some none
  | pause delay _ | broken delay _ => some (some delay)

/-- The loop goes on with the next turn. -/
def Pauses : Turn α ε → Prop
  | pause _ _ => True
  | _ => False

theorem pauses_iff {t : Turn α ε} : t.Pauses ↔ ∃ delay error, t = pause delay error := by
  cases t with
  | pause delay error => exact ⟨fun _ => ⟨delay, error, rfl⟩, fun _ => trivial⟩
  | _ =>
    constructor
    · exact False.elim
    · rintro ⟨_, _, h⟩
      cases h

/-- An attempt without a pause ends the loop. -/
theorem attempt_eq_none {t : Turn α ε} : t.attempt = some none ↔ ∃ result, t = done result := by
  cases t with
  | done result => exact ⟨fun _ => ⟨result, rfl⟩, fun _ => rfl⟩
  | _ =>
    constructor
    · intro h
      cases h
    · rintro ⟨_, h⟩
      cases h

/-- The error of an attempt. -/
def failure : Except ε α → Option ε
  | .ok _ => none
  | .error error => some error

/-- A turn that makes its attempt unless it is late, and then goes on or returns what the
attempt gave. -/
def choose (late goesOn : Prop) [Decidable late] [Decidable goesOn] (delay : Nat)
    (outcome : Except ε α) : Turn α ε :=
  if late then .late else if goesOn then .pause delay (failure outcome) else .done outcome

section Choose
variable {late goesOn : Prop} [Decidable late] [Decidable goesOn] {delay : Nat}
  {outcome : Except ε α}

theorem choose_eq_late : choose late goesOn delay outcome = .late ↔ late := by
  unfold choose
  by_cases hlate : late <;> by_cases hgoesOn : goesOn <;> simp [hlate, hgoesOn]

theorem choose_eq_done {result : Except ε α} :
    choose late goesOn delay outcome = .done result ↔ ¬ late ∧ ¬ goesOn ∧ outcome = result := by
  unfold choose
  by_cases hlate : late <;> by_cases hgoesOn : goesOn <;> simp [hlate, hgoesOn]

theorem choose_pauses : (choose late goesOn delay outcome).Pauses ↔ ¬ late ∧ goesOn := by
  unfold choose
  by_cases hlate : late <;> by_cases hgoesOn : goesOn <;> simp [hlate, hgoesOn, Pauses]

theorem choose_attempt {p : Option Nat} :
    (choose late goesOn delay outcome).attempt = some p ↔
      ¬ late ∧ p = if goesOn then some delay else none := by
  unfold choose
  by_cases hlate : late <;> by_cases hgoesOn : goesOn <;>
    simp [hlate, hgoesOn, attempt, eq_comm]

theorem choose_calm : (∀ e, choose late goesOn delay outcome ≠ .stop e) ∧
    ∀ d e, choose late goesOn delay outcome ≠ .broken d e := by
  unfold choose
  by_cases hlate : late <;> by_cases hgoesOn : goesOn <;> simp [hlate, hgoesOn]

end Choose
end Turn

/-- The loop, with at most so many turns from an attempt on, after the last error before it. -/
def runFrom (turn : Nat → Turn α ε) (late : Option ε → ε) : Nat → Nat → Option ε → Run α ε
  | 0, _, last => ⟨[], .error (late last)⟩
  | remaining + 1, attempt, last =>
      match turn attempt with
      | .stop error => ⟨[], .error error⟩
      | .late => ⟨[], .error (late last)⟩
      | .done result => ⟨[none], result⟩
      | .pause delay error =>
          let rest := runFrom turn late remaining (attempt + 1) (error.or last)
          ⟨some delay :: rest.tries, rest.result⟩
      | .broken delay error => ⟨[some delay], .error error⟩

/-- The loop, from its first turn on. -/
def run (turn : Nat → Turn α ε) (late : Option ε → ε) (turns : Nat) : Run α ε :=
  runFrom turn late turns 0 none

variable {turn : Nat → Turn α ε} {late : Option ε → ε}

theorem runFrom_pause {n i delay : Nat} {last error : Option ε} (h : turn i = .pause delay error) :
    runFrom turn late (n + 1) i last =
      ⟨some delay :: (runFrom turn late n (i + 1) (error.or last)).tries,
        (runFrom turn late n (i + 1) (error.or last)).result⟩ := by
  rw [runFrom, h]

theorem tries_of_not_pauses {n i : Nat} {last : Option ε} (h : ¬ (turn i).Pauses) :
    (runFrom turn late (n + 1) i last).tries = (turn i).attempt.toList := by
  rw [runFrom]
  cases hturn : turn i with
  | pause delay error => exact absurd (by rw [hturn]; trivial) h
  | _ => rfl

/-! ## The attempts of a run -/

theorem tries_length_le (n i : Nat) (last : Option ε) :
    (runFrom turn late n i last).tries.length ≤ n := by
  induction n generalizing i last with
  | zero => exact Nat.le_refl _
  | succ n ih =>
    by_cases hpauses : (turn i).Pauses
    · obtain ⟨delay, error, hturn⟩ := Turn.pauses_iff.mp hpauses
      rw [runFrom_pause hturn, List.length_cons]
      have hrest := ih (i + 1) (error.or last)
      omega
    · rw [tries_of_not_pauses hpauses]
      have hone : (turn i).attempt.toList.length ≤ 1 := by
        cases (turn i).attempt <;> simp
      omega

/-- The attempts of a loop from a later turn on. -/
theorem runFrom_getElem? (n i k : Nat) (last : Option ε) (p : Option Nat) :
    (runFrom turn late n i last).tries[k]? = some p ↔
      k < n ∧ (∀ j < k, (turn (i + j)).Pauses) ∧ (turn (i + k)).attempt = some p := by
  induction n generalizing i k last with
  | zero => simp [runFrom]
  | succ n ih =>
    by_cases hpauses : (turn i).Pauses
    · obtain ⟨delay, error, hturn⟩ := Turn.pauses_iff.mp hpauses
      rw [runFrom_pause hturn]
      cases k with
      | zero => simp [hturn, Turn.attempt]
      | succ k =>
        rw [List.getElem?_cons_succ, ih, Nat.forall_lt_succ_left]
        simp only [Nat.add_zero, hpauses, true_and, Nat.add_lt_add_iff_right]
        simp only [Nat.add_assoc, Nat.add_comm 1]
    · rw [tries_of_not_pauses hpauses]
      cases k with
      | zero => cases (turn i).attempt <;> simp
      | succ k =>
        have hnone : (turn i).attempt.toList[k + 1]? = none := by
          cases (turn i).attempt <;> simp
        rw [hnone]
        constructor
        · intro h
          cases h
        · rintro ⟨-, hbefore, -⟩
          exact absurd (hbefore 0 (Nat.succ_pos k)) hpauses

/-- **The attempts of a run**: every turn before them pauses. -/
theorem tries_getElem? {n k : Nat} {p : Option Nat} :
    (run turn late n).tries[k]? = some p ↔
      k < n ∧ (∀ j < k, (turn j).Pauses) ∧ (turn k).attempt = some p := by
  rw [run, runFrom_getElem?]
  simp only [Nat.zero_add]

/-- A turn without a pause is the last one. -/
theorem length_of_not_pauses {n k : Nat} {p : Option Nat}
    (h : (run turn late n).tries[k]? = some p) (hk : ¬ (turn k).Pauses) :
    (run turn late n).tries.length = k + 1 := by
  obtain ⟨hlt, -⟩ := List.getElem?_eq_some_iff.mp h
  by_contra hlength
  have hnext : (run turn late n).tries[k + 1]? = some ((run turn late n).tries[k + 1]) :=
    List.getElem?_eq_getElem (by omega)
  exact hk ((tries_getElem?.mp hnext).2.1 k (Nat.lt_succ_self k))

/-! ## What a run returns -/

/-- What the loop returns from a turn on, with the last error before it. -/
def ends (late : Option ε → ε) (last : Option ε) : Turn α ε → Option (Except ε α)
  | .stop error | .broken _ error => some (.error error)
  | .late => some (.error (late last))
  | .done result => some result
  | .pause _ _ => none

/-- The last error before a turn. -/
def kept (turn : Nat → Turn α ε) (i : Nat) (last : Option ε) : Nat → Option ε
  | 0 => last
  | k + 1 =>
      match turn i with
      | .pause _ error => kept turn (i + 1) (error.or last) k
      | _ => last

theorem runFrom_result {n i k : Nat} {last : Option ε} {result : Except ε α} (hk : k < n)
    (hbefore : ∀ j < k, (turn (i + j)).Pauses)
    (hend : ends late (kept turn i last k) (turn (i + k)) = some result) :
    (runFrom turn late n i last).result = result := by
  induction k generalizing n i last with
  | zero =>
    cases n with
    | zero => cases hk
    | succ n =>
      rw [runFrom]
      rw [Nat.add_zero] at hend
      cases hturn : turn i with
      | pause delay error =>
        rw [hturn] at hend
        cases hend
      | _ =>
        rw [hturn] at hend
        exact Option.some.inj hend
  | succ k ih =>
    cases n with
    | zero => cases hk
    | succ n =>
      obtain ⟨delay, error, hturn⟩ := Turn.pauses_iff.mp (hbefore 0 (Nat.succ_pos k))
      rw [Nat.add_zero] at hturn
      rw [runFrom_pause hturn]
      have hshift : ∀ j, i + 1 + j = i + (j + 1) := by omega
      apply ih (Nat.lt_of_succ_lt_succ hk)
      · intro j hj
        rw [hshift]
        exact hbefore (j + 1) (Nat.succ_lt_succ hj)
      · rw [hshift]
        rw [kept, hturn] at hend
        exact hend

/-- **What a run returns** when a turn ends it. -/
theorem result_of_ends {n k : Nat} {result : Except ε α} (hk : k < n)
    (hbefore : ∀ j < k, (turn j).Pauses)
    (hend : ends late (kept turn 0 none k) (turn k) = some result) :
    (run turn late n).result = result := by
  apply runFrom_result hk
  · intro j hj
    rw [Nat.zero_add]
    exact hbefore j hj
  · rw [Nat.zero_add]
    exact hend

theorem result_of_done {n k : Nat} {p : Option Nat} {result : Except ε α}
    (h : (run turn late n).tries[k]? = some p) (hdone : turn k = .done result) :
    (run turn late n).result = result := by
  obtain ⟨hk, hbefore, -⟩ := tries_getElem?.mp h
  apply result_of_ends hk hbefore
  rw [hdone]
  rfl

/-! ## The last answer -/

/-- A run returns the answer of its last attempt. -/
def NoneLost (outcome : Nat → Except ε α) (run : Run α ε) : Prop :=
  ∀ k answer, run.tries.length = k + 1 → outcome k = .ok answer → run.result = .ok answer

/-- **When no answer is lost**: no pause after one leaves the next attempt without time. -/
theorem noneLost_iff {outcome : Nat → Except ε α} {n : Nat}
    (hdone : ∀ k result, turn k = .done result → result = outcome k)
    (hpause : ∀ k, (turn k).Pauses → k + 1 < n)
    (hcalm : ∀ k, (∀ e, turn k ≠ .stop e) ∧ ∀ d e, turn k ≠ .broken d e) :
    NoneLost outcome (run turn late n) ↔
      ∀ k answer, (∀ j ≤ k, (turn j).Pauses) → outcome k = .ok answer →
        turn (k + 1) ≠ .late := by
  constructor
  · intro h k answer hbefore hanswer hlate
    have hbelow : ∀ j < k + 1, (turn j).Pauses := fun j hj => hbefore j (Nat.le_of_lt_succ hj)
    have hk := hpause k (hbefore k (Nat.le_refl k))
    obtain ⟨delay, error, hturn⟩ := Turn.pauses_iff.mp (hbefore k (Nat.le_refl k))
    have htry : (run turn late n).tries[k]? = some (some delay) :=
      tries_getElem?.mpr ⟨Nat.lt_of_succ_lt hk, fun j hj => hbefore j (Nat.le_of_lt hj),
        by rw [hturn]; rfl⟩
    have hnext : (run turn late n).tries[k + 1]? = none := by
      cases hget : (run turn late n).tries[k + 1]? with
      | none => rfl
      | some p =>
        have hattempt := (tries_getElem?.mp hget).2.2
        rw [hlate] at hattempt
        cases hattempt
    have hlength : (run turn late n).tries.length = k + 1 := by
      obtain ⟨hlt, -⟩ := List.getElem?_eq_some_iff.mp htry
      have hge := List.getElem?_eq_none_iff.mp hnext
      omega
    have hresult : (run turn late n).result = .error (late (kept turn 0 none (k + 1))) := by
      apply result_of_ends hk hbelow
      rw [hlate]
      rfl
    have hok := h k answer hlength hanswer
    rw [hresult] at hok
    cases hok
  · intro h k answer hlength hanswer
    have hget : (run turn late n).tries[k]? = some ((run turn late n).tries[k]) :=
      List.getElem?_eq_getElem (by omega)
    obtain ⟨hk, hbefore, hattempt⟩ := tries_getElem?.mp hget
    cases hturn : turn k with
    | done result =>
      rw [result_of_done hget hturn, hdone k result hturn, hanswer]
    | pause delay error =>
      -- the next turn makes no attempt, so it is late
      have hpauses : (turn k).Pauses := by rw [hturn]; trivial
      have hupto : ∀ j ≤ k, (turn j).Pauses := by
        intro j hj
        rcases Nat.lt_or_eq_of_le hj with hj | rfl
        · exact hbefore j hj
        · exact hpauses
      have hnone : (turn (k + 1)).attempt = none := by
        cases hnext : (turn (k + 1)).attempt with
        | none => rfl
        | some p =>
          have hlater : (run turn late n).tries[k + 1]? = some p :=
            tries_getElem?.mpr ⟨hpause k hpauses,
              fun j hj => hupto j (Nat.le_of_lt_succ hj), hnext⟩
          obtain ⟨hlt, -⟩ := List.getElem?_eq_some_iff.mp hlater
          omega
      have hnot := h k answer hupto hanswer
      cases hnext : turn (k + 1) with
      | late => exact absurd hnext hnot
      | stop e => exact absurd hnext ((hcalm (k + 1)).1 e)
      | _ =>
        rw [hnext] at hnone
        cases hnone
    | stop e => exact absurd hturn ((hcalm k).1 e)
    | broken d e => exact absurd hturn ((hcalm k).2 d e)
    | late =>
      rw [hturn] at hattempt
      cases hattempt

/-- When no answer is lost, for turns that nothing cuts short. -/
theorem noneLost_choose_iff {outcome : Nat → Except ε α} {n : Nat} {isLate goesOn : Nat → Prop}
    [∀ k, Decidable (isLate k)] [∀ k, Decidable (goesOn k)] {delay : Nat → Nat}
    (hturn : ∀ k, turn k = .choose (isLate k) (goesOn k) (delay k) (outcome k))
    (hlast : ∀ k, goesOn k → k + 1 < n) :
    NoneLost outcome (run turn late n) ↔
      ∀ k answer, (∀ j ≤ k, ¬ isLate j ∧ goesOn j) → outcome k = .ok answer → ¬ isLate (k + 1) := by
  rw [noneLost_iff]
  · simp only [hturn, Turn.choose_pauses, ne_eq, Turn.choose_eq_late]
  · intro k result hdone
    rw [hturn, Turn.choose_eq_done] at hdone
    exact hdone.2.2.symm
  · intro k hpauses
    rw [hturn, Turn.choose_pauses] at hpauses
    exact hlast k hpauses.2
  · intro k
    rw [hturn]
    exact Turn.choose_calm

end RetryLoop
