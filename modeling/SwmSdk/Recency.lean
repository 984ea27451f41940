import Mathlib.Data.List.Induction
import Mathlib.Data.List.Nodup
import Mathlib.Tactic.Common

/-! # Bounded recency lists

A recency list holds the records of a history with the most recent one first and
one record for each key.  `promote` is its only operation: the new record goes to
the front and the record it supersedes is dropped.

A store that keeps only the first `n + 1` records of a recency list can be
maintained from what it keeps (`take_promote_take`): a promotion drops at most
one of the kept records, so what it needs behind them never has to be known.
-/
namespace Recency
variable {α κ : Type} [DecidableEq κ] (key : α → κ)

/-- `a` becomes the most recent record, superseding the record of its key. -/
def promote (a : α) (l : List α) : List α := a :: l.filter (fun b => key b ≠ key a)

/-- The recency list of a history, which is given oldest record first. -/
def recency (h : List α) : List α := h.foldl (fun l a => promote key a l) []

@[simp] theorem recency_nil : recency key ([] : List α) = [] := rfl

theorem recency_concat (h : List α) (a : α) :
    recency key (h ++ [a]) = promote key a (recency key h) := by
  simp [recency]

theorem promote_nodup {l : List α} (hl : (l.map key).Nodup) (a : α) :
    ((promote key a l).map key).Nodup := by
  rw [promote, List.map_cons, List.nodup_cons]
  refine ⟨?_, hl.sublist (List.filter_sublist.map key)⟩
  intro hmem
  obtain ⟨b, hb, he⟩ := List.mem_map.mp hmem
  simp [he] at hb

theorem recency_nodup (h : List α) : ((recency key h).map key).Nodup := by
  induction h using List.reverseRecOn with
  | nil => simp
  | append_singleton h a ih =>
    rw [recency_concat]
    exact promote_nodup key ih a

/-- The record of `k` after a promotion is the promoted one or the old one. -/
theorem find_promote (a : α) (l : List α) (k : κ) :
    (promote key a l).find? (fun b => key b = k) =
      if key a = k then some a else l.find? (fun b => key b = k) := by
  by_cases hk : key a = k
  · simp [promote, hk]
  · rw [promote, List.find?_cons_of_neg (by simpa using hk), if_neg hk, List.find?_filter]
    congr 1
    funext b
    by_cases hb : key b = k
    · simp [hb, Ne.symm hk]
    · simp [hb]

/-- **The record a recency list holds for `k` is the last one of the history.** -/
theorem find_recency (h : List α) (k : κ) :
    (recency key h).find? (fun b => key b = k) = h.reverse.find? (fun b => key b = k) := by
  induction h using List.reverseRecOn with
  | nil => rfl
  | append_singleton h a ih =>
    rw [recency_concat, find_promote, ih, List.reverse_append, List.reverse_singleton,
      List.singleton_append]
    by_cases hk : key a = k
    · simp [hk]
    · rw [if_neg hk, List.find?_cons_of_neg (by simpa using hk)]

omit [DecidableEq κ] in
/-- Dropping repetitions and filtering commute. -/
theorem eraseDups_filter [BEq κ] [LawfulBEq κ] (p : κ → Bool) : ∀ l : List κ,
    (l.filter p).eraseDups = l.eraseDups.filter p
  | [] => rfl
  | k :: l => by
      have hlen : (l.filter (fun b => !b == k)).length < (k :: l).length :=
        Nat.lt_succ_of_le (List.length_filter_le _ _)
      have ih := eraseDups_filter p (l.filter (fun b => !b == k))
      by_cases hk : p k = true
      · rw [List.filter_cons_of_pos hk, List.eraseDups_cons, List.eraseDups_cons,
          List.filter_cons_of_pos hk, ← ih, List.filter_comm]
      · rw [List.filter_cons_of_neg hk, List.eraseDups_cons, List.filter_cons_of_neg hk, ← ih]
        refine congrArg List.eraseDups ?_
        rw [List.filter_filter]
        refine List.filter_congr fun b _ => ?_
        cases hb : b == k with
        | true => simp [eq_of_beq hb, hk]
        | false => simp
  termination_by l => l.length
  decreasing_by exact hlen

/-- **The keys of a recency list are the history's keys, latest first, each
once.** -/
theorem map_recency [BEq κ] [LawfulBEq κ] (h : List α) :
    (recency key h).map key = ((h.map key).reverse).eraseDups := by
  induction h using List.reverseRecOn with
  | nil => rfl
  | append_singleton h a ih =>
    rw [recency_concat, promote, List.map_cons, List.map_append, List.reverse_append,
      List.map_singleton, List.reverse_singleton, List.singleton_append, List.eraseDups_cons,
      eraseDups_filter, ← ih, List.filter_map]
    refine congrArg (key a :: List.map key ·) (List.filter_congr fun b _ => ?_)
    by_cases hb : key b = key a
    · simp [hb]
    · simp [hb]

/-- A promotion drops at most one of the first `n + 1` records, so the first `n`
that survive it are among them. -/
theorem take_filter_take {l : List α} (hl : (l.map key).Nodup) (k : κ) (n : Nat) :
    ((l.take (n + 1)).filter (fun b => key b ≠ k)).take n =
      (l.filter (fun b => key b ≠ k)).take n := by
  induction l generalizing n with
  | nil => simp
  | cons b l ih =>
    rw [List.map_cons, List.nodup_cons] at hl
    by_cases hb : key b = k
    · -- `b` is the record that goes, and no other record has its key
      have stay : ∀ c ∈ l, key c ≠ k := fun c hc he =>
        hl.1 (List.mem_map.mpr ⟨c, hc, he.trans hb.symm⟩)
      rw [List.take_succ_cons, List.filter_cons_of_neg (by simpa using hb),
        List.filter_cons_of_neg (by simpa using hb),
        List.filter_eq_self.mpr (fun c hc => by simpa using stay c (List.mem_of_mem_take hc)),
        List.filter_eq_self.mpr (fun c hc => by simpa using stay c hc),
        List.take_take, Nat.min_self]
    · rw [List.take_succ_cons, List.filter_cons_of_pos (by simpa using hb),
        List.filter_cons_of_pos (by simpa using hb)]
      cases n with
      | zero => rfl
      | succ n => rw [List.take_succ_cons, List.take_succ_cons, ih hl.2 n]

/-- **A bounded recency list is maintained from what it keeps.** -/
theorem take_promote_take {l : List α} (hl : (l.map key).Nodup) (a : α) (n : Nat) :
    (promote key a (l.take (n + 1))).take (n + 1) = (promote key a l).take (n + 1) := by
  rw [promote, promote, List.take_succ_cons, List.take_succ_cons,
    take_filter_take key hl (key a) n]

/-- A record found among the kept ones is the record of the whole list. -/
theorem find_take {l : List α} {k : κ} {n : Nat} {a : α}
    (h : (l.take n).find? (fun b => key b = k) = some a) :
    l.find? (fun b => key b = k) = some a := by
  rw [← List.take_append_drop n l, List.find?_append, h]
  rfl

end Recency
