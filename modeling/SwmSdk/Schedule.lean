import Mathlib.Data.List.Induction
import Mathlib.Tactic.Common

/-! # Schedules

Several threads share a state; a schedule lists, in the order they happen, the steps they take.
A step that is not possible where the schedule asks for it stops the run.

What every run keeps is proved step by step with `run_induction`, which also knows the schedule
so far; `split_concat` finds a step in a run and a further step, and `Before` compares the places
of two steps in a schedule.
-/
namespace Schedule
variable {σ α : Type} {step : σ → α → Option σ} {s t : σ} {actions : List α}

/-- The state that a schedule leads to. -/
def run (step : σ → α → Option σ) (s : σ) (actions : List α) : Option σ :=
  actions.foldlM step s

theorem run_concat (step : σ → α → Option σ) (s : σ) (actions : List α) (a : α) :
    run step s (actions ++ [a]) = (run step s actions).bind (step · a) := by
  rw [run, List.foldlM_append]
  simp [run]

/-- **Induction along a run**, on its last step. -/
theorem run_induction {P : List α → σ → Prop} (hinit : P [] s)
    (hstep : ∀ {actions t a t'}, P actions t → step t a = some t' → P (actions ++ [a]) t')
    (hrun : run step s actions = some t) : P actions t := by
  induction actions using List.reverseRecOn generalizing t with
  | nil =>
    cases hrun
    exact hinit
  | append_singleton actions a ih =>
    rw [run_concat, Option.bind_eq_some_iff] at hrun
    obtain ⟨u, hu, ha⟩ := hrun
    exact hstep (ih hu) ha

/-- **Induction along a run of known steps**: each one is a step of the schedule, in the state that
the steps before it lead to. -/
theorem run_induction_split {P : σ → Prop} (hinit : P s)
    (hstep : ∀ {before a after t t'}, actions = before ++ a :: after →
      run step s before = some t → P t → step t a = some t' → P t')
    (hrun : run step s actions = some t) : P t := by
  induction actions using List.reverseRecOn generalizing t with
  | nil =>
    cases hrun
    exact hinit
  | append_singleton actions a ih =>
    rw [run_concat, Option.bind_eq_some_iff] at hrun
    obtain ⟨u, hu, ha⟩ := hrun
    refine hstep rfl hu (ih ?_ hu) ha
    rintro before b after v v' rfl hv hP hb
    have hsplit : before ++ b :: after ++ [a] = before ++ b :: (after ++ [a]) := by simp
    exact hstep hsplit hv hP hb

/-- What every state of a run has, the state after each of its steps has. -/
theorem always_step {P : σ → Prop} {before after : List α} {a : α} {t' : σ}
    (h : ∀ before t, before <+: actions → run step s before = some t → P t)
    (hsplit : actions = before ++ a :: after) (hrun : run step s before = some t)
    (hstep : step t a = some t') : P t' := by
  refine h (before ++ [a]) t' ⟨after, ?_⟩ ?_
  · rw [hsplit, List.append_assoc, List.singleton_append]
  · rw [run_concat, hrun]
    exact hstep

/-- A measure that every step lowers bounds the length of a run. -/
theorem length_add_le (measure : σ → Nat)
    (hstep : ∀ {t a t'}, step t a = some t' → measure t' < measure t)
    (hrun : run step s actions = some t) : actions.length + measure t ≤ measure s := by
  refine run_induction (P := fun actions t => actions.length + measure t ≤ measure s) ?_ ?_ hrun
  · simp
  · intro actions t a t' hle ha
    have hlt := hstep ha
    rw [List.length_append, List.length_singleton]
    omega

/-- A step of a longer run is its last, or a step of the run before. -/
theorem split_concat {before after : List α} {a x : α}
    (h : actions ++ [x] = before ++ a :: after) :
    (actions = before ∧ x = a) ∨ ∃ rest, after = rest ++ [x] ∧ actions = before ++ a :: rest := by
  rcases List.eq_nil_or_concat after with rfl | ⟨rest, last, rfl⟩
  · obtain ⟨hbefore, hlast⟩ := List.append_inj' h rfl
    exact .inl ⟨hbefore, (List.cons.inj hlast).1⟩
  · rw [List.concat_eq_append, ← List.cons_append, ← List.append_assoc] at h
    obtain ⟨hbefore, hlast⟩ := List.append_inj' h rfl
    refine .inr ⟨rest, ?_, hbefore⟩
    rw [List.concat_eq_append, (List.cons.inj hlast).1]

/-- What holds of every step of a run and of a further one holds of every step of both. -/
theorem forall_split_concat {P : List α → α → Prop} {x : α} :
    (∀ before a after, actions ++ [x] = before ++ a :: after → P before a) ↔
      (∀ before a after, actions = before ++ a :: after → P before a) ∧ P actions x := by
  constructor
  · intro h
    refine ⟨fun before a after hsplit => ?_, h actions x [] rfl⟩
    exact h before a (after ++ [x]) (by rw [hsplit]; simp)
  · rintro ⟨hall, hlast⟩ before a after hsplit
    rcases split_concat hsplit with ⟨rfl, rfl⟩ | ⟨rest, -, rfl⟩
    · exact hlast
    · exact hall before a rest rfl

/-- The step `a` comes before a step `b`. -/
def Before (a b : α) (actions : List α) : Prop := [a, b].Sublist actions

instance [DecidableEq α] (a b : α) (actions : List α) : Decidable (Before a b actions) :=
  inferInstanceAs (Decidable ([a, b].Sublist actions))

theorem Before.mem {a b : α} (h : Before a b actions) : a ∈ actions ∧ b ∈ actions :=
  ⟨h.subset (by simp), h.subset (by simp)⟩

theorem before_concat {a b x : α} :
    Before a b (actions ++ [x]) ↔ Before a b actions ∨ a ∈ actions ∧ b = x := by
  unfold Before
  rw [← List.reverse_sublist, List.reverse_append]
  show [b, a].Sublist (x :: actions.reverse) ↔ _
  rw [List.sublist_cons_iff]
  constructor
  · rintro (h | ⟨r, heq, hr⟩)
    · exact .inl (List.reverse_sublist.mp h)
    · obtain ⟨rfl, rfl⟩ := List.cons.inj heq
      exact .inr ⟨List.mem_reverse.mp (List.singleton_sublist.mp hr), rfl⟩
  · rintro (h | ⟨ha, rfl⟩)
    · exact .inl (List.reverse_sublist.mpr h)
    · exact .inr ⟨[a], rfl, List.singleton_sublist.mpr (List.mem_reverse.mpr ha)⟩

/-- Another step does not change what came before `b`. -/
theorem before_concat_of_ne {a b x : α} (hne : b ≠ x) :
    Before a b (actions ++ [x]) ↔ Before a b actions := by
  rw [before_concat, or_iff_left fun h => hne h.2]

/-- The first `b` comes after everything so far. -/
theorem before_concat_self {a b : α} (hfirst : b ∉ actions) :
    Before a b (actions ++ [b]) ↔ a ∈ actions := by
  rw [before_concat, or_iff_right fun h => hfirst h.mem.2, and_iff_left rfl]

end Schedule
