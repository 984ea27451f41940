import Mathlib.Data.List.Forall2
import SwmSdk.CSharpText

/-! # UTF-8 read as UTF-16

The units of a text that is valid UTF-8, character by character (`Decoded`): an ASCII
character is one byte and the unit of the same number, and any other has neither an ASCII
byte nor an ASCII unit.  So what is ASCII stands at the same places of both, and a text is
split at an ASCII character as its bytes are.
-/
namespace SwmSdk
namespace CSharp
open ByteText

/-- The bytes are UTF-8, and the units are their characters. -/
inductive Decoded : Bytes → Text → Prop
  | nil : Decoded [] []
  | ascii {b : UInt8} {rest : Bytes} {text : Text} : b < 0x80 → Decoded rest text →
      Decoded (b :: rest) (b.toUInt16 :: text)
  | other {char rest : Bytes} {units text : Text} : char ≠ [] → units ≠ [] →
      (∀ c ∈ char, 0x80 ≤ c) → (∀ u ∈ units, 0x80 ≤ u) → Decoded rest text →
      Decoded (char ++ rest) (units ++ text)

/-! ## Decoding -/

theorem takeInRanges_nil (bytes : Bytes) : takeInRanges [] bytes = [] := by
  cases bytes <;> rfl

theorem takeInRanges_starts (ranges : List (UInt8 × UInt8)) (bytes : Bytes) :
    takeInRanges ranges bytes <+: bytes := by
  induction ranges generalizing bytes with
  | nil =>
    rw [takeInRanges_nil]
    exact List.nil_prefix
  | cons range ranges ih =>
    obtain ⟨low, high⟩ := range
    cases bytes with
    | nil => exact List.prefix_rfl
    | cons b rest =>
      rw [takeInRanges]
      split
      · exact List.cons_prefix_cons.mpr ⟨rfl, ih rest⟩
      · exact List.nil_prefix

/-- As many bytes as there are ranges were taken: each lies in its range. -/
theorem takeInRanges_forall {ranges : List (UInt8 × UInt8)} {bytes : Bytes}
    (h : (takeInRanges ranges bytes).length = ranges.length) :
    List.Forall₂ (fun r b => r.1 ≤ b ∧ b ≤ r.2) ranges (takeInRanges ranges bytes) := by
  induction ranges generalizing bytes with
  | nil =>
    rw [takeInRanges_nil]
    exact .nil
  | cons range ranges ih =>
    obtain ⟨low, high⟩ := range
    cases bytes with
    | nil => cases h
    | cons b rest =>
      rw [takeInRanges] at h ⊢
      split at h
      · rename_i hb
        rw [if_pos hb]
        exact .cons hb (ih (by simpa using h))
      · cases h

/-- A character of several bytes is a code point beyond ASCII. -/
theorem codePoint_range {b : UInt8} {ranges : List (UInt8 × UInt8)} {taken : Bytes}
    (h : continuation b = some ranges)
    (htaken : List.Forall₂ (fun r c => r.1 ≤ c ∧ c ≤ r.2) ranges taken) :
    0x80 ≤ codePoint b taken ∧ codePoint b taken < 0x110000 := by
  unfold continuation at h
  split_ifs at h with h₁ h₂ h₃ h₄ h₅ h₆ h₇ <;>
    (obtain rfl := Option.some.inj h
     simp only [List.forall₂_cons_left_iff, List.forall₂_nil_left_iff] at htaken)
  · obtain ⟨c, -, hc, rfl, rfl⟩ := htaken
    simp [codePoint, UInt8.le_iff_toNat_le] at h₁ hc ⊢
    omega
  · obtain ⟨c, -, hc, ⟨d, -, hd, rfl, rfl⟩, rfl⟩ := htaken
    simp [codePoint, UInt8.le_iff_toNat_le, h₂] at hc hd ⊢
    omega
  · obtain ⟨c, -, hc, ⟨d, -, hd, rfl, rfl⟩, rfl⟩ := htaken
    simp [codePoint, UInt8.le_iff_toNat_le, h₃] at hc hd ⊢
    omega
  · obtain ⟨c, -, hc, ⟨d, -, hd, rfl, rfl⟩, rfl⟩ := htaken
    simp [codePoint, UInt8.le_iff_toNat_le] at h₄ hc hd ⊢
    omega
  · obtain ⟨c, -, hc, ⟨d, -, hd, ⟨e, -, he, rfl, rfl⟩, rfl⟩, rfl⟩ := htaken
    simp [codePoint, UInt8.le_iff_toNat_le, h₅] at hc hd he ⊢
    omega
  · obtain ⟨c, -, hc, ⟨d, -, hd, ⟨e, -, he, rfl, rfl⟩, rfl⟩, rfl⟩ := htaken
    simp [codePoint, UInt8.le_iff_toNat_le] at h₆ hc hd he ⊢
    omega
  · obtain ⟨c, -, hc, ⟨d, -, hd, ⟨e, -, he, rfl, rfl⟩, rfl⟩, rfl⟩ := htaken
    simp [codePoint, UInt8.le_iff_toNat_le, h₇] at hc hd he ⊢
    omega

theorem unitsOf_high {code : Nat} (hlow : 0x80 ≤ code) (hhigh : code < 0x110000) :
    unitsOf code ≠ [] ∧ ∀ u ∈ unitsOf code, 0x80 ≤ u := by
  unfold unitsOf
  split
  · refine ⟨List.cons_ne_nil _ _, fun u hu => ?_⟩
    rw [List.mem_singleton] at hu
    rw [hu, UInt16.le_iff_toNat_le, UInt16.toNat_ofNat', Nat.mod_eq_of_lt (by omega)]
    exact hlow
  · refine ⟨List.cons_ne_nil _ _, fun u hu => ?_⟩
    have hunit : ∃ n, 0x80 ≤ n ∧ n < 2 ^ 16 ∧ u = UInt16.ofNat n := by
      rcases List.mem_cons.mp hu with hu | hu
      · exact ⟨_, by omega, by omega, hu⟩
      · exact ⟨_, by omega, by omega, List.mem_singleton.mp hu⟩
    obtain ⟨n, hn, hlt, rfl⟩ := hunit
    rw [UInt16.le_iff_toNat_le, UInt16.toNat_ofNat', Nat.mod_eq_of_lt hlt]
    exact hn

theorem taken_high {b : UInt8} {ranges : List (UInt8 × UInt8)} {taken : Bytes}
    (h : continuation b = some ranges)
    (htaken : List.Forall₂ (fun r c => r.1 ≤ c ∧ c ≤ r.2) ranges taken) :
    ∀ c ∈ taken, 0x80 ≤ c := by
  have hlow := continuation_low h
  clear h
  induction htaken with
  | nil => simp
  | cons hc _ ih =>
    intro d hd
    rcases List.mem_cons.mp hd with rfl | hd
    · exact UInt8.le_trans (hlow _ (List.mem_cons_self ..)) hc.1
    · exact ih (fun r hr => hlow r (List.mem_cons_of_mem _ hr)) d hd

theorem ascii_not_mem {b : UInt8} (hb : b < 0x80) {units : Text} (h : ∀ u ∈ units, 0x80 ≤ u) :
    b.toUInt16 ∉ units := by
  intro hm
  have hhigh := h _ hm
  rw [UInt16.le_iff_toNat_le, UInt8.toNat_toUInt16] at hhigh
  rw [UInt8.lt_iff_toNat_lt] at hb
  exact absurd (Nat.lt_of_lt_of_le hb hhigh) (Nat.lt_irrefl _)

theorem decode_decoded {fuel : Nat} {bytes : Bytes} (h : isUtf8 fuel bytes = true) :
    Decoded bytes (decode fuel bytes) := by
  induction fuel generalizing bytes with
  | zero =>
    cases bytes with
    | nil => exact .nil
    | cons b rest => simp [isUtf8] at h
  | succ fuel ih =>
    cases bytes with
    | nil => exact .nil
    | cons b rest =>
      rw [isUtf8] at h
      rw [decode]
      split at h
      · rename_i hb
        rw [if_pos hb]
        exact .ascii hb (ih h)
      · rename_i hb
        rw [if_neg hb]
        cases hranges : continuation b with
        | none => simp [hranges] at h
        | some ranges =>
          simp only [hranges, Bool.and_eq_true, decide_eq_true_eq] at h
          obtain ⟨hlength, hrest⟩ := h
          have htaken := takeInRanges_forall hlength
          obtain ⟨hlow, hhigh⟩ := codePoint_range hranges htaken
          obtain ⟨hne, hunits⟩ := unitsOf_high hlow hhigh
          have hchar : ∀ c ∈ b :: takeInRanges ranges rest, 0x80 ≤ c := by
            intro c hc
            rcases List.mem_cons.mp hc with rfl | hc
            · exact UInt8.not_lt.mp hb
            · exact taken_high hranges htaken c hc
          have hsplit : b :: rest = b :: takeInRanges ranges rest ++
              rest.drop (takeInRanges ranges rest).length := by
            rw [List.cons_append,
              List.prefix_iff_eq_append.mp (takeInRanges_starts ranges rest)]
          dsimp only
          rw [if_pos hlength, hsplit]
          exact .other (List.cons_ne_nil _ _) hne hchar hunits (ih hrest)

/-- Valid UTF-8 is decoded without a loss. -/
theorem getString_decoded {bytes : Bytes} (h : validUtf8 bytes = true) :
    Decoded bytes (getString bytes) :=
  decode_decoded h

/-! ## Lists -/

section Lists
variable {α β : Type*}

theorem forall₂_modifyHead {R : α → β → Prop} {f : α → α} {g : β → β}
    (h : ∀ x y, R x y → R (f x) (g y)) {xs : List α} {ys : List β} (hxs : List.Forall₂ R xs ys) :
    List.Forall₂ R (xs.modifyHead f) (ys.modifyHead g) := by
  cases hxs with
  | nil => exact .nil
  | cons hxy hrest => exact .cons (h _ _ hxy) hrest

theorem forall₂_mem_right {R : α → β → Prop} {xs : List α} {ys : List β}
    (h : List.Forall₂ R xs ys) {y : β} (hy : y ∈ ys) : ∃ x ∈ xs, R x y := by
  induction h with
  | nil => cases hy
  | cons hxy _ ih =>
    rcases List.mem_cons.mp hy with rfl | hy
    · exact ⟨_, List.mem_cons_self .., hxy⟩
    · obtain ⟨x, hx, hxy⟩ := ih hy
      exact ⟨x, List.mem_cons_of_mem _ hx, hxy⟩

/-- What stands before the first separator belongs to the first part. -/
theorem splitOn_append_of_not_mem [BEq α] [LawfulBEq α] {a : α} {front : List α}
    (h : a ∉ front) (rest : List α) :
    (front ++ rest).splitOn a = (rest.splitOn a).modifyHead (front ++ ·) := by
  induction front with
  | nil => cases hsplit : rest.splitOn a <;> simp [hsplit]
  | cons b front ih =>
    have hb : b ≠ a := fun he => h (by rw [he]; exact List.mem_cons_self ..)
    rw [List.cons_append, List.splitOn_cons_eq_if_modifyHead, if_neg (by simpa using hb),
      ih fun hm => h (List.mem_cons_of_mem _ hm), List.modifyHead_modifyHead]
    rfl

/-- An occurrence does not start where its first letter does not stand. -/
theorem infix_of_append_of_not_mem {a : α} {needle front rest : List α} (h : a ∉ front)
    (hinside : a :: needle <:+: front ++ rest) : a :: needle <:+: rest := by
  induction front with
  | nil => exact hinside
  | cons b front ih =>
    rcases List.infix_cons_iff.mp hinside with hstart | hinside
    · exact absurd (by rw [(List.cons_prefix_cons.mp hstart).1]; exact List.mem_cons_self ..) h
    · exact ih (fun hm => h (List.mem_cons_of_mem _ hm)) hinside

end Lists

/-! ## What is ASCII -/

theorem Decoded.mem {bytes : Bytes} {text : Text} (h : Decoded bytes text) {b : UInt8}
    (hb : b < 0x80) : b.toUInt16 ∈ text ↔ b ∈ bytes := by
  induction h with
  | nil => simp
  | ascii hc _ ih => rw [List.mem_cons, List.mem_cons, ih, toUInt16_inj]
  | other _ _ hchar hunits _ ih =>
    rw [List.mem_append, List.mem_append, ih, or_iff_right (ascii_not_mem hb hunits),
      or_iff_right fun hm => UInt8.not_lt.mpr (hchar b hm) hb]

/-- What holds of the bytes, if only ASCII can have it, holds of the units. -/
theorem Decoded.forall_iff {bytes : Bytes} {text : Text} (h : Decoded bytes text)
    {p : UInt8 → Prop} (hp : ∀ b, p b → b < 0x80) :
    (∀ u ∈ text, ∃ b, p b ∧ u = b.toUInt16) ↔ ∀ b ∈ bytes, p b := by
  induction h with
  | nil => simp
  | @ascii b rest text _ _ ih =>
    have hb : (∃ c, p c ∧ b.toUInt16 = c.toUInt16) ↔ p b := by
      simp only [toUInt16_inj, exists_eq_right']
    rw [List.forall_mem_cons, List.forall_mem_cons, ih, hb]
  | @other char rest us text hne hus hchar hunits _ _ =>
    obtain ⟨c, hc⟩ := List.exists_mem_of_ne_nil char hne
    obtain ⟨u, hu⟩ := List.exists_mem_of_ne_nil us hus
    refine iff_of_false (fun hall => ?_) fun hall => ?_
    · obtain ⟨b, hb, rfl⟩ := hall u (List.mem_append_left _ hu)
      exact ascii_not_mem (hp b hb) hunits hu
    · exact UInt8.not_lt.mpr (hchar c hc) (hp c (hall c (List.mem_append_left _ hc)))

/-- A text with ASCII units only has the bytes of the same numbers. -/
theorem Decoded.eq_of_units {bytes front : Bytes} (h : Decoded bytes (units front))
    (hfront : ∀ b ∈ front, b < 0x80) : bytes = front := by
  generalize htext : units front = text at h
  induction h generalizing front with
  | nil => exact (@units_injective _ [] htext).symm
  | ascii hb _ ih =>
    cases front with
    | nil => cases htext
    | cons c front =>
      obtain ⟨hc, htext⟩ := List.cons.inj htext
      rw [toUInt16_inj] at hc
      rw [hc, ih (fun d hd => hfront d (List.mem_cons_of_mem _ hd)) htext]
  | @other char rest us text hne hus _ hunits _ _ =>
    cases front with
    | nil => exact absurd (List.append_eq_nil_iff.mp htext.symm).1 hus
    | cons c front =>
      cases us with
      | nil => exact absurd rfl hus
      | cons u us =>
        obtain ⟨rfl, -⟩ := List.cons.inj htext
        exact absurd (List.mem_cons_self ..) (ascii_not_mem (hfront c (by simp)) hunits)

/-- An ASCII text at the start of the units is at the start of the bytes. -/
theorem Decoded.starts {bytes front : Bytes} {text : Text} (h : Decoded bytes text)
    (hfront : ∀ b ∈ front, b < 0x80) (hstart : units front <+: text) : front <+: bytes := by
  induction h generalizing front with
  | nil =>
    obtain rfl : front = [] := @units_injective _ [] (List.prefix_nil.mp hstart)
    exact List.prefix_rfl
  | ascii _ _ ih =>
    cases front with
    | nil => exact List.nil_prefix
    | cons c front =>
      obtain ⟨hc, hstart⟩ := List.cons_prefix_cons.mp hstart
      exact List.cons_prefix_cons.mpr ⟨toUInt16_inj.mp hc,
        ih (fun d hd => hfront d (List.mem_cons_of_mem _ hd)) hstart⟩
  | @other char rest us text _ hus _ hunits _ _ =>
    cases front with
    | nil => exact List.nil_prefix
    | cons c front =>
      cases us with
      | nil => exact absurd rfl hus
      | cons u us =>
        obtain ⟨rfl, -⟩ := List.cons_prefix_cons.mp hstart
        exact absurd (List.mem_cons_self ..) (ascii_not_mem (hfront c (by simp)) hunits)

/-- An ASCII text that occurs in the units occurs in the bytes. -/
theorem Decoded.occurs {bytes front : Bytes} {text : Text} (h : Decoded bytes text)
    (hfront : ∀ b ∈ front, b < 0x80) (hinside : units front <:+: text) : front <:+: bytes := by
  induction h with
  | nil =>
    obtain rfl : front = [] := @units_injective _ [] (List.infix_nil.mp hinside)
    exact List.infix_rfl
  | ascii hb hrest ih =>
    rcases List.infix_cons_iff.mp hinside with hstart | hinside
    · exact (Decoded.starts (.ascii hb hrest) hfront hstart).isInfix
    · exact (ih hinside).trans (List.suffix_cons _ _).isInfix
  | @other char rest us text _ _ _ hunits _ ih =>
    cases front with
    | nil => exact List.nil_infix
    | cons c front =>
      have hspare : c.toUInt16 ∉ us := ascii_not_mem (hfront c (List.mem_cons_self ..)) hunits
      exact (ih (infix_of_append_of_not_mem hspare hinside)).trans (List.suffix_append _ _).isInfix

/-- A text is split at an ASCII character where its bytes are. -/
theorem Decoded.splitOn {bytes : Bytes} {text : Text} (h : Decoded bytes text) {b : UInt8}
    (hb : b < 0x80) :
    List.Forall₂ Decoded (bytes.splitOn b) (text.splitOn b.toUInt16) := by
  induction h with
  | nil => exact .cons .nil .nil
  | @ascii c rest text hc _ ih =>
    have hsame : (c.toUInt16 == b.toUInt16) = (c == b) := by
      rw [Bool.eq_iff_iff, beq_iff_eq, beq_iff_eq, toUInt16_inj]
    rw [List.splitOn_cons_eq_if_modifyHead, List.splitOn_cons_eq_if_modifyHead, hsame]
    split
    · exact .cons .nil ih
    · exact forall₂_modifyHead (fun _ _ hpart => .ascii hc hpart) ih
  | @other char rest us text hne hus hchar hunits _ ih =>
    have hspare : b ∉ char := fun hm => UInt8.not_lt.mpr (hchar b hm) hb
    rw [splitOn_append_of_not_mem hspare,
      splitOn_append_of_not_mem (ascii_not_mem hb hunits)]
    exact forall₂_modifyHead (fun _ _ hpart => .other hne hus hchar hunits hpart) ih

end CSharp
end SwmSdk
