import SwmSdk.JsonGrammar
import SwmSdk.JsonMember

/-! # The text of a member

The parser decodes a name as the grammar does (`scanString_decodes`), and so the walk finds, on the
text of any object, the first member of a name and the text of its value
(`extractJsonMemberRaw_objectText`).
-/
namespace SwmSdk
open ByteText JsonText JsonGrammar

namespace Nlohmann

/-! ## Names -/

theorem hexDigitValue_eq (b : UInt8) : hexDigitValue b = hexValue b := by
  unfold hexDigitValue hexValue
  by_cases hupper : 0x41 ≤ b ∧ b ≤ 0x46
  · have hlower : ¬ (97 ≤ b ∧ b ≤ 102) := by
      rintro ⟨hlow, -⟩
      exact absurd (UInt8.le_trans hlow hupper.2) (by decide)
    rw [if_pos hupper, if_neg hlower, if_pos hupper]
  · rw [if_neg hupper, if_neg hupper]

theorem getCodepoint_codeUnit {a b c d : UInt8} {n : Nat} (h : codeUnit a b c d = some n)
    (t : Bytes) : getCodepoint (a :: b :: c :: d :: t) = some (n, t) := by
  simp only [codeUnit, Option.bind_eq_bind, Option.bind_eq_some_iff, Option.some.injEq] at h
  obtain ⟨va, ha, vb, hb, vc, hc, vd, hd, rfl⟩ := h
  simp only [getCodepoint, hexDigitValue_eq, ha, hb, hc, hd, Option.bind_eq_bind, Option.bind_some]
  congr 2
  omega

/-- The parser writes a code point as UTF-8. -/
theorem utf8_char (c : Char) : utf8 c.toNat = String.utf8EncodeChar c := by
  unfold utf8
  rcases utf8EncodeChar_cases c with ⟨hv, he⟩ | ⟨hv, he⟩ | ⟨hv, he⟩ | ⟨hv, he⟩
  · rw [he, if_pos hv]
  · rw [he, if_neg (by omega), if_pos (by omega)]
  · rw [he, if_neg (by omega), if_neg (by omega), if_pos (by omega)]
  · rw [he, if_neg (by omega), if_neg (by omega), if_neg (by omega)]

/-- Bytes in the ranges are taken. -/
theorem takeRanges_of_forall {ranges : List (UInt8 × UInt8)} {taken : Bytes}
    (h : List.Forall₂ (fun r b => r.1 ≤ b ∧ b ≤ r.2) ranges taken) (t : Bytes) :
    takeRanges ranges (taken ++ t) = some (taken, t) := by
  induction h with
  | nil => rfl
  | cons hb _ ih =>
    rw [List.cons_append, takeRanges, if_pos hb, ih]
    rfl

theorem continuation_ofNat : ∀ n < 256, continuation (UInt8.ofNat n) =
    if 0xc2 ≤ n ∧ n ≤ 0xdf then some [(0x80, 0xbf)]
    else if n = 0xe0 then some [(0xa0, 0xbf), (0x80, 0xbf)]
    else if n = 0xed then some [(0x80, 0x9f), (0x80, 0xbf)]
    else if 0xe1 ≤ n ∧ n ≤ 0xef then some [(0x80, 0xbf), (0x80, 0xbf)]
    else if n = 0xf0 then some [(0x90, 0xbf), (0x80, 0xbf), (0x80, 0xbf)]
    else if 0xf1 ≤ n ∧ n ≤ 0xf3 then some [(0x80, 0xbf), (0x80, 0xbf), (0x80, 0xbf)]
    else if n = 0xf4 then some [(0x80, 0x8f), (0x80, 0xbf), (0x80, 0xbf)]
    else none := by
  decide +kernel

/-- The first byte of a longer character, with the bytes it asks for. -/
theorem scanChar_ranges {n : Nat} {ranges : List (UInt8 × UInt8)} {taken : Bytes}
    (hn : 0x80 ≤ n ∧ n < 256) (hranges : continuation (UInt8.ofNat n) = some ranges)
    (htaken : List.Forall₂ (fun r b => r.1 ≤ b ∧ b ≤ r.2) ranges taken) (t : Bytes) :
    scanChar (UInt8.ofNat n :: (taken ++ t)) = some (UInt8.ofNat n :: taken, t) := by
  have hb : 0x80 ≤ UInt8.ofNat n := ofNat_le hn.1 hn.2
  have hback : UInt8.ofNat n ≠ 0x5c := by
    intro h
    rw [h] at hb
    exact absurd hb (by decide)
  have hcontrol : ¬ UInt8.ofNat n < 0x20 :=
    fun h => absurd (UInt8.lt_of_le_of_lt hb h) (by decide)
  rw [scanChar.eq_2 _ _ hback, if_neg hcontrol, if_neg (UInt8.not_lt.mpr hb), hranges,
    Option.bind_some, takeRanges_of_forall htaken]
  rfl

theorem between {low n high : Nat} (hlow : low ≤ n) (hhigh : n ≤ high) (h : high < 256) :
    UInt8.ofNat low ≤ UInt8.ofNat n ∧ UInt8.ofNat n ≤ UInt8.ofNat high :=
  ⟨ofNat_le hlow (by omega), ofNat_le hhigh h⟩

theorem scanChar_ascii {n : Nat} (hlow : 0x20 ≤ n) (hhigh : n < 0x80) (hslash : n ≠ 0x5c)
    (t : Bytes) : scanChar (UInt8.ofNat n :: t) = some ([UInt8.ofNat n], t) := by
  have hb : (0x20 : UInt8) ≤ UInt8.ofNat n ∧ UInt8.ofNat n ≤ (0x7f : UInt8) :=
    between hlow (Nat.le_of_lt_succ hhigh) (by decide)
  have hback : UInt8.ofNat n ≠ 0x5c := by
    intro h
    have hnat := congrArg UInt8.toNat h
    rw [UInt8.toNat_ofNat', Nat.mod_eq_of_lt (by omega)] at hnat
    exact hslash hnat
  rw [scanChar.eq_2 _ _ hback, if_neg (UInt8.not_lt.mpr hb.1),
    if_pos (UInt8.lt_of_le_of_lt hb.2 (by decide))]

/-- A character that is not escaped is read as it is. -/
theorem scanChar_unescaped {c : Char} (hc : Unescaped c) (t : Bytes) :
    scanChar (String.utf8EncodeChar c ++ t) = some (String.utf8EncodeChar c, t) := by
  have hlt := char_toNat_lt c
  obtain ⟨hcontrol, -, hslash⟩ := hc
  have tail : ∀ n, UInt8.ofNat 0x80 ≤ UInt8.ofNat (0x80 + n % 64) ∧
      UInt8.ofNat (0x80 + n % 64) ≤ UInt8.ofNat 0xbf := fun n =>
    between (by omega) (by omega) (by decide)
  rcases utf8EncodeChar_cases c with ⟨hv, he⟩ | ⟨hv, he⟩ | ⟨hv, he⟩ | ⟨hv, he⟩
  · rw [he]
    exact scanChar_ascii hcontrol hv hslash t
  · have hranges := continuation_ofNat (0xc0 + c.toNat / 64) (by omega)
    rw [if_pos (by omega)] at hranges
    rw [he]
    exact scanChar_ranges (by omega) hranges (.cons (tail _) .nil) t
  · have hranges := continuation_ofNat (0xe0 + c.toNat / 4096) (by omega)
    rw [if_neg (by omega)] at hranges
    rw [he]
    -- a first byte of 0xe0 asks for a later second byte, and 0xed for an earlier one
    by_cases h₁ : c.toNat < 0x1000
    · rw [if_pos (by omega)] at hranges
      exact scanChar_ranges (by omega) hranges
        (.cons (@between 0xa0 _ 0xbf (by omega) (by omega) (by decide)) (.cons (tail _) .nil)) t
    rw [if_neg (by omega)] at hranges
    by_cases h₂ : 0xd000 ≤ c.toNat ∧ c.toNat < 0xe000
    · rw [if_pos (by omega)] at hranges
      exact scanChar_ranges (by omega) hranges
        (.cons (@between 0x80 _ 0x9f (by omega) (by omega) (by decide)) (.cons (tail _) .nil)) t
    · rw [if_neg (by omega), if_pos (by omega)] at hranges
      exact scanChar_ranges (by omega) hranges (.cons (tail _) (.cons (tail _) .nil)) t
  · have hranges := continuation_ofNat (0xf0 + c.toNat / 262144) (by omega)
    rw [if_neg (by omega), if_neg (by omega), if_neg (by omega), if_neg (by omega)] at hranges
    rw [he]
    by_cases h₁ : c.toNat < 0x40000
    · rw [if_pos (by omega)] at hranges
      exact scanChar_ranges (by omega) hranges
        (.cons (@between 0x90 _ 0xbf (by omega) (by omega) (by decide))
          (.cons (tail _) (.cons (tail _) .nil))) t
    rw [if_neg (by omega)] at hranges
    by_cases h₂ : c.toNat < 0x100000
    · rw [if_pos (by omega)] at hranges
      exact scanChar_ranges (by omega) hranges
        (.cons (tail _) (.cons (tail _) (.cons (tail _) .nil))) t
    · rw [if_neg (by omega), if_pos (by omega)] at hranges
      exact scanChar_ranges (by omega) hranges
        (.cons (@between 0x80 _ 0x8f (by omega) (by omega) (by decide))
          (.cons (tail _) (.cons (tail _) .nil))) t

theorem scanChar_escape {b : UInt8} {c : Char} (h : escaped b = some c) (t : Bytes) :
    scanChar (0x5c :: b :: t) = some (String.utf8EncodeChar c, t) := by
  rw [scanChar]
  unfold escaped at h
  split at h
  · cases h
    rcases ‹_ ∨ _› with rfl | rfl | rfl
    · rfl
    · rfl
    · rfl
  · split at h
    · cases h
      subst b
      rfl
    split at h
    · cases h
      subst b
      rfl
    split at h
    · cases h
      subst b
      rfl
    split at h
    · cases h
      subst b
      rfl
    split at h
    · cases h
      subst b
      rfl
    · cases h

theorem scanChar_unicode {a b c d : UInt8} {char : Char} (h : codeUnit a b c d = some char.toNat)
    (t : Bytes) :
    scanChar (0x5c :: 0x75 :: a :: b :: c :: d :: t) = some (String.utf8EncodeChar char, t) := by
  have hlt := char_toNat_lt char
  simp only [scanChar, scanEscape, scanUnicode, getCodepoint_codeUnit h, Option.bind_eq_bind,
    Option.bind_some]
  rw [if_neg (by omega), if_neg (by omega), utf8_char]

theorem scanChar_pair {a b c d e f g h : UInt8} {high low : Nat} {char : Char}
    (hhigh : codeUnit a b c d = some high) (hlow : codeUnit e f g h = some low)
    (hrange : 0xd800 ≤ high ∧ high ≤ 0xdbff ∧ 0xdc00 ≤ low ∧ low ≤ 0xdfff)
    (hchar : char.toNat = 0x10000 + (high - 0xd800) * 0x400 + (low - 0xdc00)) (t : Bytes) :
    scanChar (0x5c :: 0x75 :: a :: b :: c :: d :: 0x5c :: 0x75 :: e :: f :: g :: h :: t) =
      some (String.utf8EncodeChar char, t) := by
  simp only [scanChar, scanEscape, scanUnicode, getCodepoint_codeUnit hhigh,
    getCodepoint_codeUnit hlow, Option.bind_eq_bind, Option.bind_some]
  have hcode : high * 1024 + low - 0x35fdc00 = char.toNat := by omega
  rw [if_pos ⟨hrange.1, hrange.2.1⟩, if_pos hrange.2.2, hcode, utf8_char]

/-- **The parser decodes a name as the grammar does.** -/
theorem scanString_decodes {text name : Bytes} (h : Decodes text name) :
    ∀ fuel t, text.length < fuel → scanString fuel (text ++ 0x22 :: t) = some (name, t) := by
  have step : ∀ {char taken more name : Bytes}, taken ≠ [] →
      (∀ t, (taken ++ t).head? ≠ some 0x22 ∧ scanChar (taken ++ t) = some (char, t)) →
      (∀ fuel t, more.length < fuel → scanString fuel (more ++ 0x22 :: t) = some (name, t)) →
      ∀ fuel t, (taken ++ more).length < fuel →
        scanString fuel (taken ++ more ++ 0x22 :: t) = some (char ++ name, t) := by
    intro char taken more name hne hchar ih fuel t hfuel
    obtain ⟨fuel, rfl⟩ := Nat.exists_eq_succ_of_ne_zero (Nat.ne_of_gt (Nat.zero_lt_of_lt hfuel))
    have hpos := List.length_pos_iff.mpr hne
    rw [List.length_append] at hfuel
    rw [List.append_assoc, Nat.succ_eq_add_one, scanString_step (hchar _).1, (hchar _).2]
    simp only [Option.bind_some, ih fuel t (by omega)]
  induction h with
  | nil =>
    intro fuel t hfuel
    obtain ⟨fuel, rfl⟩ := Nat.exists_eq_succ_of_ne_zero (Nat.ne_of_gt hfuel)
    rfl
  | @plain c t name hc _ ih =>
    obtain ⟨b, more, he, -, -⟩ := utf8EncodeChar_head c
    have hb := (unescaped_plain hc b (by rw [he]; exact List.mem_cons_self)).1
    refine step (by simp [he]) (fun t => ⟨?_, scanChar_unescaped hc t⟩) ih
    simpa [he] using hb
  | @escape b c t name hb _ ih =>
    exact @step _ [0x5c, b] t name (List.cons_ne_nil _ _)
      (fun t => ⟨by simp, scanChar_escape hb t⟩) ih
  | @unicode a b c d char t name hu _ ih =>
    exact @step _ [0x5c, 0x75, a, b, c, d] t name (List.cons_ne_nil _ _)
      (fun t => ⟨by simp, scanChar_unicode hu t⟩) ih
  | @pair a b c d e f g h high low char t name hhigh hlow hrange hchar _ ih =>
    exact @step _ [0x5c, 0x75, a, b, c, d, 0x5c, 0x75, e, f, g, h] t name (List.cons_ne_nil _ _)
      (fun t => ⟨by simp, scanChar_pair hhigh hlow hrange hchar t⟩) ih

theorem readsKey_decodes {text name : Bytes} (h : Decodes text name) :
    ReadsKey (quoted text) name where
  shape := h.stringText.quoted
  again comments w t hw := by
    have hstring := scanString_decodes h ((text ++ 0x22 :: t).length + 1) t (by
      rw [List.length_append, List.length_cons]
      omega)
    have hscan : scanToken (0x22 :: (text ++ 0x22 :: t)) = some (.string name, t) := by
      rw [scanToken]
      simp only [hstring]
      rfl
    rw [quoted, List.cons_append, List.append_assoc, List.singleton_append, scan,
      skipGap_text _ _ hw rfl (by decide), Option.bind_some, hscan]

end Nlohmann

namespace Cpp

/-! ## Members of valid documents -/

/-- Related lists, through a list in between. -/
theorem forall₂_trans {α β γ : Type} {R : α → β → Prop} {S : β → γ → Prop} {T : α → γ → Prop}
    {as : List α} {bs : List β} {cs : List γ} (h₁ : List.Forall₂ R as bs)
    (h₂ : List.Forall₂ S bs cs) (h : ∀ a b c, R a b → S b c → T a c) : List.Forall₂ T as cs := by
  induction h₁ generalizing cs with
  | nil =>
    cases h₂
    exact .nil
  | cons hr _ ih =>
    cases h₂ with
    | cons hs hrest => exact .cons (h _ _ _ hr hs) (ih hrest)

theorem lookup_cons_eq (member : Bytes) (m : Bytes × Bytes) (ms : List (Bytes × Bytes)) :
    (m :: ms).lookup member = if m.1 = member then some m.2 else ms.lookup member := by
  by_cases hm : m.1 = member
  · rw [if_pos hm, List.lookup_cons, hm, beq_self_eq_true]
  · have hne : (member == m.1) = false := beq_false_of_ne (Ne.symm hm)
    rw [if_neg hm, List.lookup_cons, hne]

/-- The walk over members with these names and values. -/
theorem memberRaw_pieces {p : Piece} {ps : List Piece} {ms : List (Bytes × Bytes)}
    (h : List.Forall₂ (fun p m => p.WellFormed ∧ keyOf p.key = some m.1 ∧ m.2 = p.value)
      (p :: ps) ms) (member rest : Bytes) :
    ∀ fuel, ps.length < fuel →
      memberRaw member fuel (p.text ++ renderRest ps rest) = ms.lookup member := by
  induction ps generalizing p ms with
  | nil =>
    intro fuel hfuel
    obtain ⟨fuel, rfl⟩ := Nat.exists_eq_succ_of_ne_zero (Nat.ne_of_gt hfuel)
    obtain ⟨m, ms, ⟨hwell, hname, hvalue⟩, htail, rfl⟩ := List.forall₂_cons_left_iff.mp h
    obtain rfl := List.forall₂_nil_left_iff.mp htail
    rw [Nat.succ_eq_add_one, memberRaw_step hwell hname, lookup_cons_eq, ← hvalue]
    rfl
  | cons q ps ih =>
    intro fuel hfuel
    obtain ⟨fuel, rfl⟩ := Nat.exists_eq_succ_of_ne_zero (Nat.ne_of_gt (Nat.zero_lt_of_lt hfuel))
    obtain ⟨m, ms, ⟨hwell, hname, hvalue⟩, htail, rfl⟩ := List.forall₂_cons_left_iff.mp h
    rw [Nat.succ_eq_add_one, memberRaw_step hwell hname, lookup_cons_eq, ← hvalue]
    exact if_congr Iff.rfl rfl (ih htail fuel (Nat.lt_of_succ_lt_succ hfuel))

/-- **The text of the member of the name is cut out of every valid document.** -/
theorem extractJsonMemberRaw_objectText {document : Bytes} {ms : List (Bytes × Bytes)}
    (h : ObjectText document ms) (member : Bytes) :
    extractJsonMemberRaw document member = ms.lookup member := by
  cases h with
  | @empty w i w' hw hi hw' =>
    rw [extractJsonMemberRaw, skip_spaces hw rfl]
    change memberRaw member _ (i ++ 0x7d :: w') = none
    rw [memberRaw, skip_spaces hi rfl]
    rfl
  | @members w i w' raw ms hw hi hw' hnames =>
    obtain ⟨p, ps, hrender, hall⟩ := hi.shaped
    have hfuel : ps.length < (w ++ 0x7b :: (i ++ 0x7d :: w')).length + 1 := by
      have := length_le_renderRest ps w'
      have := congrArg List.length (hrender w')
      simp only [List.length_append, List.length_cons] at *
      omega
    have hpieces : List.Forall₂
        (fun p m => p.WellFormed ∧ keyOf p.key = some m.1 ∧ m.2 = p.value) (p :: ps) ms := by
      refine forall₂_trans hall hnames fun p r m hp hr => ?_
      obtain ⟨hwell, -, hkey, hvalue⟩ := hp
      refine ⟨hwell, ?_, hr.2.trans hvalue.symm⟩
      rw [hkey]
      exact keyOf_reads (Nlohmann.readsKey_decodes hr.1)
    rw [extractJsonMemberRaw, skip_spaces hw rfl]
    change memberRaw member _ (i ++ 0x7d :: w') = _
    rw [hrender] at hfuel ⊢
    exact memberRaw_pieces hpieces member w' _ hfuel

end Cpp
end SwmSdk
