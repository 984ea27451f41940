import Mathlib.Data.List.Infix
import Mathlib.Tactic.Common

/-! # Reading a text apart at a separator

A text is written as `front ++ separator ++ back`.  When is the split unique?
For a separator whose first element does not come back in it, two splits of one
text are the same split, or one lies strictly after the other, in which case a
front and a back hold the separator themselves (`split_cases`).  So the split is
determined by fronts that do not hold the separator (`split_first`) and just as
well by backs that do not (`split_last`).
-/
namespace FieldLines
variable {α : Type*}

/-- A separator that does not overlap itself: its first element comes once. -/
structure Separator (α : Type*) where
  head : α
  rest : List α
  once : head ∉ rest

namespace Separator

/-- The separator as a text. -/
def text (s : Separator α) : List α := s.head :: s.rest

/-- A text without the separator's first element does not hold the separator. -/
theorem not_infix_of_head (s : Separator α) {t : List α} (h : s.head ∉ t) : ¬ s.text <:+: t :=
  fun hin => h (hin.subset (List.mem_cons_self ..))

/-- What follows a nonempty overlap of the separator with itself. -/
theorem no_overlap (s : Separator α) {c b b' : List α} (hc : c ≠ [])
    (h : s.text ++ b = c ++ (s.text ++ b')) :
    ∃ d, c = s.text ++ d ∧ b = d ++ (s.text ++ b') := by
  rcases List.append_eq_append_iff.mp h with ⟨d, hd, hb⟩ | ⟨d, hd, hb⟩
  · exact ⟨d, hd, hb⟩
  · -- the separator would start again inside itself
    cases c with
    | nil => exact absurd rfl hc
    | cons x c =>
      cases d with
      | nil =>
        rw [List.append_nil] at hd
        exact ⟨[], by rw [List.append_nil, hd], by rw [List.nil_append] at hb ⊢; exact hb.symm⟩
      | cons y d =>
        have hy : y = s.head := (List.cons.inj hb).1.symm
        have hrest : s.rest = c ++ y :: d := (List.cons.inj hd).2
        exact absurd (hrest ▸ hy ▸ List.mem_append_right c (List.mem_cons_self ..)) s.once

/-- **Two splits of one text** coincide, or one of them lies beyond the other. -/
theorem split_cases (s : Separator α) {a a' b b' : List α}
    (h : a ++ (s.text ++ b) = a' ++ (s.text ++ b')) :
    (a = a' ∧ b = b') ∨
    (∃ d, a' = a ++ (s.text ++ d) ∧ b = d ++ (s.text ++ b')) ∨
    (∃ d, a = a' ++ (s.text ++ d) ∧ b' = d ++ (s.text ++ b)) := by
  rcases List.append_eq_append_iff.mp h with ⟨c, ha, hb⟩ | ⟨c, ha, hb⟩
  · by_cases hc : c = []
    · subst hc
      rw [List.append_nil] at ha
      rw [List.nil_append] at hb
      exact .inl ⟨ha.symm, List.append_cancel_left hb⟩
    · obtain ⟨d, rfl, hd⟩ := s.no_overlap hc hb
      exact .inr (.inl ⟨d, ha, hd⟩)
  · by_cases hc : c = []
    · subst hc
      rw [List.append_nil] at ha
      rw [List.nil_append] at hb
      exact .inl ⟨ha, (List.append_cancel_left hb).symm⟩
    · obtain ⟨d, rfl, hd⟩ := s.no_overlap hc hb
      exact .inr (.inr ⟨d, ha, hd⟩)

/-- **Fronts without the separator determine the split.** -/
theorem split_first (s : Separator α) {a a' b b' : List α} (ha : ¬ s.text <:+: a)
    (ha' : ¬ s.text <:+: a') (h : a ++ (s.text ++ b) = a' ++ (s.text ++ b')) :
    a = a' ∧ b = b' := by
  rcases s.split_cases h with h | ⟨d, hd, -⟩ | ⟨d, hd, -⟩
  · exact h
  · exact absurd ⟨a, d, by rw [hd, List.append_assoc]⟩ ha'
  · exact absurd ⟨a', d, by rw [hd, List.append_assoc]⟩ ha

/-- **Backs without the separator determine the split.** -/
theorem split_last (s : Separator α) {a a' b b' : List α} (hb : ¬ s.text <:+: b)
    (hb' : ¬ s.text <:+: b') (h : a ++ (s.text ++ b) = a' ++ (s.text ++ b')) :
    a = a' ∧ b = b' := by
  rcases s.split_cases h with h | ⟨d, -, hd⟩ | ⟨d, -, hd⟩
  · exact h
  · exact absurd ⟨d, b', by rw [hd, List.append_assoc]⟩ hb
  · exact absurd ⟨d, b, by rw [hd, List.append_assoc]⟩ hb'

end Separator
end FieldLines
