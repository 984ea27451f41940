import SwmSdk.DownloadResume

/-! # The header of a part

`parse_content_range` leaves its three numbers to `std::stoull`, which skips white space, takes a
sign and stops at the first byte that is no digit (`stoull_eq_some`).  What it accepts beyond the
grammar of the header is told by the text (`OffGrammar`): a number with something else beside its
digits, or the length zero, which is the mark of an unknown length.
-/
namespace SwmSdk
namespace Cpp
open ByteText

/-! ## Numbers -/

/-- `isspace`. -/
def isSpaceByte (b : UInt8) : Bool := b = 0x20 || (0x09 ≤ b && b ≤ 0x0d)

/-- Decimal digits of a number below `2 ^ 64`. -/
structure Number (text : Bytes) (n : Nat) : Prop where
  nonempty : text ≠ []
  digits : ∀ b ∈ text, Nlohmann.isDigit b
  value : Nlohmann.digitsValue text = n
  bound : n < 2 ^ 64

/-- A sign, digits, and what no digit begins.  After a minus sign the number is subtracted from
`2 ^ 64`. -/
def SignedNumber (text : Bytes) (n : Nat) : Prop :=
  ∃ (sign digits rest : Bytes) (value : Nat), text = sign ++ (digits ++ rest) ∧
    (sign = [] ∨ sign = ascii "+" ∨ sign = ascii "-") ∧ Number digits value ∧
    (∀ b ∈ rest.head?, ¬ Nlohmann.isDigit b) ∧
    n = if sign = ascii "-" then (2 ^ 64 - value) % 2 ^ 64 else value

/-- A number as `std::stoull` takes it: white space may stand before the sign. -/
def LooseNumber (text : Bytes) (n : Nat) : Prop :=
  ∃ blanks signed : Bytes, text = blanks ++ signed ∧ (∀ b ∈ blanks, isSpaceByte b) ∧
    SignedNumber signed n

theorem takeWhile_dropWhile_of_head {p : UInt8 → Bool} {front rest : Bytes}
    (hfront : ∀ b ∈ front, p b) (hrest : ∀ b ∈ rest.head?, ¬ p b) :
    (front ++ rest).takeWhile p = front ∧ (front ++ rest).dropWhile p = rest := by
  rw [List.takeWhile_append_of_pos hfront, List.dropWhile_append_of_pos hfront]
  cases rest with
  | nil => exact ⟨List.append_nil _, rfl⟩
  | cons b rest =>
    have hb := hrest b rfl
    rw [List.takeWhile_cons_of_neg hb, List.dropWhile_cons_of_neg hb]
    exact ⟨List.append_nil _, rfl⟩

theorem not_head_dropWhile (p : UInt8 → Bool) (text : Bytes) :
    ∀ b ∈ (text.dropWhile p).head?, ¬ p b := by
  intro b hb
  have hhead := List.head?_dropWhile_not p text
  rw [Option.mem_def.mp hb] at hhead
  simpa using hhead

/-- A digit is no white space and no sign. -/
theorem digit_plain {b : UInt8} (h : Nlohmann.isDigit b) :
    ¬ isSpaceByte b ∧ b ≠ 0x2b ∧ b ≠ 0x2d ∧ b ≠ 0x2f ∧ b ≠ 0x2a := by
  have hall : ∀ k < 58, 48 ≤ k → ¬ isSpaceByte (UInt8.ofNat k) ∧ UInt8.ofNat k ≠ 0x2b ∧
      UInt8.ofNat k ≠ 0x2d ∧ UInt8.ofNat k ≠ 0x2f ∧ UInt8.ofNat k ≠ 0x2a := by decide
  simp only [Nlohmann.isDigit, Bool.and_eq_true, decide_eq_true_eq, UInt8.le_iff_toNat_le] at h
  obtain ⟨hlow, hhigh⟩ := h
  simp at hlow hhigh
  have hb := hall b.toNat (by omega) hlow
  rwa [UInt8.ofNat_toNat] at hb

theorem Number.head {digits : Bytes} {n : Nat} (h : Number digits n) (rest : Bytes) :
    ∃ d, (digits ++ rest).head? = some d ∧ Nlohmann.isDigit d := by
  obtain ⟨d, more, rfl⟩ := List.exists_cons_of_ne_nil h.nonempty
  exact ⟨d, rfl, h.digits d (List.mem_cons_self ..)⟩

/-- The digits that begin a text, as `std::stoull` reads them after the sign. -/
def leadingNumber (negative : Prop) [Decidable negative] (text : Bytes) : Option Nat :=
  match text.takeWhile Nlohmann.isDigit with
  | [] => none
  | digits =>
      let value := Nlohmann.digitsValue digits
      if value ≥ 2 ^ 64 then none
      else some (if negative then (2 ^ 64 - value) % 2 ^ 64 else value)

theorem leadingNumber_eq_some {negative : Prop} [Decidable negative] {text : Bytes} {n : Nat} :
    leadingNumber negative text = some n ↔
      ∃ digits rest value, text = digits ++ rest ∧ Number digits value ∧
        (∀ b ∈ rest.head?, ¬ Nlohmann.isDigit b) ∧
        n = if negative then (2 ^ 64 - value) % 2 ^ 64 else value := by
  have hspan : text.takeWhile Nlohmann.isDigit ++ text.dropWhile Nlohmann.isDigit = text :=
    List.takeWhile_append_dropWhile
  unfold leadingNumber
  constructor
  · intro h
    split at h
    · cases h
    · rename_i hne
      obtain ⟨hbound, h⟩ := Option.ite_none_left_eq_some.mp h
      exact ⟨_, _, _, hspan.symm,
        ⟨hne, fun b hb => List.mem_takeWhile_imp hb, rfl, Nat.not_le.mp hbound⟩,
        not_head_dropWhile _ _, (Option.some.inj h).symm⟩
  · rintro ⟨digits, rest, value, rfl, hdigits, hrest, rfl⟩
    rw [(takeWhile_dropWhile_of_head hdigits.digits hrest).1]
    split
    · exact absurd rfl hdigits.nonempty
    · dsimp only
      rw [hdigits.value, if_neg (Nat.not_le.mpr hdigits.bound)]

/-- The sign decides how the digits behind it are read. -/
theorem stoull_eq_leadingNumber {blanks text : Bytes} (hblanks : ∀ b ∈ blanks, isSpaceByte b)
    (htext : ∀ b ∈ text.head?, ¬ isSpaceByte b) :
    stoull (blanks ++ text) =
      leadingNumber (text.head? = some 0x2d)
        (if text.head? = some 0x2d ∨ text.head? = some 0x2b then text.tail else text) := by
  have hskip : (blanks ++ text).dropWhile (fun b => b = 0x20 || (0x09 ≤ b && b ≤ 0x0d)) = text :=
    (takeWhile_dropWhile_of_head hblanks htext).2
  unfold stoull
  rw [hskip]
  rfl

theorem leadingNumber_sign {text : Bytes} {n : Nat} :
    leadingNumber (text.head? = some 0x2d)
        (if text.head? = some 0x2d ∨ text.head? = some 0x2b then text.tail else text) = some n ↔
      SignedNumber text n := by
  rw [leadingNumber_eq_some]
  constructor
  · rintro ⟨digits, rest, value, htext, hnumber, hrest, hn⟩
    by_cases hminus : text.head? = some 0x2d
    · rw [if_pos (.inl hminus)] at htext
      rw [if_pos hminus] at hn
      refine ⟨ascii "-", digits, rest, value, ?_, .inr (.inr rfl), hnumber, hrest, ?_⟩
      · rw [← htext]
        exact (List.cons_head?_tail hminus).symm
      · rw [if_pos rfl, hn]
    · rw [if_neg hminus] at hn
      by_cases hplus : text.head? = some 0x2b
      · rw [if_pos (.inr hplus)] at htext
        refine ⟨ascii "+", digits, rest, value, ?_, .inr (.inl rfl), hnumber, hrest, ?_⟩
        · rw [← htext]
          exact (List.cons_head?_tail hplus).symm
        · rw [if_neg (by decide), hn]
      · rw [if_neg (not_or.mpr ⟨hminus, hplus⟩)] at htext
        exact ⟨[], digits, rest, value, htext, .inl rfl, hnumber, hrest, by
          rw [if_neg (by decide), hn]⟩
  · rintro ⟨sign, digits, rest, value, rfl, hsign, hnumber, hrest, rfl⟩
    refine ⟨digits, rest, value, ?_, hnumber, hrest, ?_⟩
    · rcases hsign with rfl | rfl | rfl
      · obtain ⟨d, hhead, hdigit⟩ := hnumber.head rest
        obtain ⟨-, hplus, hminus, -⟩ := digit_plain hdigit
        rw [List.nil_append, hhead, if_neg]
        simp [hplus, hminus]
      · rfl
      · rfl
    · rcases hsign with rfl | rfl | rfl
      · obtain ⟨d, hhead, hdigit⟩ := hnumber.head rest
        obtain ⟨-, -, hminus, -⟩ := digit_plain hdigit
        rw [List.nil_append, hhead, if_neg (by decide), if_neg (by simp [hminus])]
      · rfl
      · rfl

/-- Neither a sign nor a digit is skipped. -/
theorem SignedNumber.head_not_space {text : Bytes} {n : Nat} (h : SignedNumber text n) :
    ∀ b ∈ text.head?, ¬ isSpaceByte b := by
  obtain ⟨sign, digits, rest, value, rfl, hsign, hnumber, -, -⟩ := h
  intro b hb
  rcases hsign with rfl | rfl | rfl
  · obtain ⟨d, hhead, hdigit⟩ := hnumber.head rest
    rw [List.nil_append, hhead] at hb
    obtain rfl := Option.some.inj hb
    exact (digit_plain hdigit).1
  · obtain rfl := Option.some.inj hb
    decide
  · obtain rfl := Option.some.inj hb
    decide

/-- **What `std::stoull` reads.** -/
theorem stoull_eq_some {text : Bytes} {n : Nat} : stoull text = some n ↔ LooseNumber text n := by
  constructor
  · intro h
    have hspan : text.takeWhile isSpaceByte ++ text.dropWhile isSpaceByte = text :=
      List.takeWhile_append_dropWhile
    have hblanks : ∀ b ∈ text.takeWhile isSpaceByte, isSpaceByte b := fun b hb =>
      List.mem_takeWhile_imp hb
    have hread := stoull_eq_leadingNumber hblanks (not_head_dropWhile isSpaceByte text)
    rw [hspan, h] at hread
    exact ⟨_, _, hspan.symm, hblanks, leadingNumber_sign.mp hread.symm⟩
  · rintro ⟨blanks, signed, rfl, hblanks, hsigned⟩
    rw [stoull_eq_leadingNumber hblanks hsigned.head_not_space]
    exact leadingNumber_sign.mpr hsigned

/-! ## The header -/

theorem splitFirst_single_iff {c : UInt8} {text before after : Bytes} :
    splitFirst [c] text = some (before, after) ↔ text = before ++ c :: after ∧ c ∉ before := by
  constructor
  · intro h
    have htext := splitFirst_eq h
    rw [List.append_assoc] at htext
    refine ⟨htext, ?_⟩
    intro hmem
    -- an earlier one would have been found
    obtain ⟨front, back, hbefore, hfront⟩ := List.eq_append_cons_of_mem hmem
    have hearlier : splitFirst [c] text = some (front, back ++ ([c] ++ after)) := by
      rw [htext, hbefore, List.append_assoc]
      exact splitFirst_single hfront
    rw [h] at hearlier
    have hsame : before = front := congrArg Prod.fst (Option.some.inj hearlier)
    rw [hsame] at hmem
    exact hfront hmem
  · rintro ⟨rfl, h⟩
    exact splitFirst_single h

/-- The text of a range: "bytes ", a number, a dash, a number, a slash, and a number or a star,
which stands for no length. -/
def InGrammar (text : Bytes) (range : ContentRange) : Prop :=
  ∃ first last total,
    text = ascii "bytes " ++ (first ++ 0x2d :: (last ++ 0x2f :: total)) ∧
    Number first range.start ∧ Number last range.stop ∧ range.start ≤ range.stop ∧
    (total = ascii "*" ∧ range.total = 0 ∨ Number total range.total ∧ range.stop < range.total)

/-- What `parse_content_range` makes a range of: the dash and the slash are the first ones, and the
numbers are as `std::stoull` takes them. -/
structure LooseRange (text first last total : Bytes) (range : ContentRange) : Prop where
  text : text = ascii "bytes " ++ (first ++ 0x2d :: (last ++ 0x2f :: total))
  firstDash : 0x2d ∉ first
  firstSlash : 0x2f ∉ last
  start : LooseNumber first range.start
  stop : LooseNumber last range.stop
  total : total = ascii "*" ∧ range.total = 0 ∨ total ≠ ascii "*" ∧ LooseNumber total range.total
  order : range.start ≤ range.stop
  inside : range.total = 0 ∨ range.stop < range.total

/-- The length, which a star leaves at zero. -/
theorem total_eq_some {total : Bytes} {next : Nat → Option ContentRange} {range : ContentRange} :
    (if total = ascii "*" then (some 0).bind next else (stoull total).bind next) = some range ↔
      ∃ length, (total = ascii "*" ∧ length = 0 ∨ total ≠ ascii "*" ∧ LooseNumber total length) ∧
        next length = some range := by
  by_cases hstar : total = ascii "*"
  · simp [hstar]
  · simp [hstar, stoull_eq_some, Option.bind_eq_some_iff]

/-- **What `parse_content_range` accepts.** -/
theorem parseContentRange_eq_some {value : Bytes} {range : ContentRange} :
    parseContentRange value = some range ↔
      ∃ first last total, LooseRange (trimAscii value) first last total range := by
  unfold parseContentRange
  constructor
  · intro h
    obtain ⟨hbegins, h⟩ := Option.ite_none_left_eq_some.mp h
    obtain ⟨⟨first, rest⟩, hdash, h⟩ := Option.bind_eq_some_iff.mp h
    obtain ⟨⟨last, total⟩, hslash, h⟩ := Option.bind_eq_some_iff.mp h
    obtain ⟨start, hstart, h⟩ := Option.bind_eq_some_iff.mp h
    obtain ⟨stop, hstop, h⟩ := Option.bind_eq_some_iff.mp h
    obtain ⟨length, hlength, h⟩ := total_eq_some.mp h
    obtain ⟨horder, h⟩ := Option.ite_none_left_eq_some.mp h
    obtain rfl := Option.some.inj h
    obtain ⟨hdrop, hfirst⟩ := splitFirst_single_iff.mp hdash
    obtain ⟨rfl, hlast⟩ := splitFirst_single_iff.mp hslash
    obtain ⟨tail, htail⟩ := not_not.mp hbegins
    rw [← htail] at hdrop
    have htext : tail = first ++ 0x2d :: (last ++ 0x2f :: total) := hdrop
    rw [not_or, Nat.not_lt, not_and, Nat.not_le] at horder
    refine ⟨first, last, total, ?_, hfirst, hlast, stoull_eq_some.mp hstart,
      stoull_eq_some.mp hstop, hlength, horder.1, ?_⟩
    · rw [← htail, htext]
    · exact or_iff_not_imp_left.mpr horder.2
  · rintro ⟨first, last, total, h⟩
    have hbegins : ascii "bytes " <+: trimAscii value := ⟨_, h.text.symm⟩
    have hdrop : (trimAscii value).drop 6 = first ++ 0x2d :: (last ++ 0x2f :: total) := by
      rw [h.text]
      rfl
    refine Option.ite_none_left_eq_some.mpr ⟨not_not_intro hbegins, ?_⟩
    refine Option.bind_eq_some_iff.mpr
      ⟨(first, last ++ 0x2f :: total), splitFirst_single_iff.mpr ⟨hdrop, h.firstDash⟩, ?_⟩
    refine Option.bind_eq_some_iff.mpr
      ⟨(last, total), splitFirst_single_iff.mpr ⟨rfl, h.firstSlash⟩, ?_⟩
    refine Option.bind_eq_some_iff.mpr ⟨range.start, stoull_eq_some.mpr h.start, ?_⟩
    refine Option.bind_eq_some_iff.mpr ⟨range.stop, stoull_eq_some.mpr h.stop, ?_⟩
    refine total_eq_some.mpr ⟨range.total, h.total, ?_⟩
    refine Option.ite_none_left_eq_some.mpr ⟨?_, rfl⟩
    rw [not_or, Nat.not_lt, not_and, Nat.not_le]
    exact ⟨h.order, or_iff_not_imp_left.mp h.inside⟩

/-! ## Where the header is not the grammar's -/

/-- The dash and the slash tell the three numbers apart in one way. -/
theorem LooseRange.fields_eq {text first last total first' last' total' : Bytes}
    {range range' : ContentRange} (h : LooseRange text first last total range)
    (h' : LooseRange text first' last' total' range') :
    first = first' ∧ last = last' ∧ total = total' := by
  have htext := h.text.symm.trans h'.text
  have hfields := List.append_cancel_left htext
  have hdash : splitFirst [0x2d] (first ++ 0x2d :: (last ++ 0x2f :: total)) =
      some (first, last ++ 0x2f :: total) := splitFirst_single h.firstDash
  rw [hfields, splitFirst_single h'.firstDash] at hdash
  obtain ⟨rfl, hrest⟩ := Prod.mk.inj (Option.some.inj hdash)
  have hslash : splitFirst [0x2f] (last ++ 0x2f :: total) = some (last, total) :=
    splitFirst_single h.firstSlash
  rw [← hrest, splitFirst_single h'.firstSlash] at hslash
  obtain ⟨rfl, rfl⟩ := Prod.mk.inj (Option.some.inj hslash)
  exact ⟨rfl, rfl, rfl⟩

/-- A byte that is no digit. -/
def Unclean (text : Bytes) : Prop := ∃ b ∈ text, ¬ Nlohmann.isDigit b

/-- The text reads as a range, but one of its numbers has something else beside its digits, or its
length is written as a number and is zero. -/
def OffGrammar (text : Bytes) : Prop :=
  ∃ first last total range, LooseRange text first last total range ∧
    (Unclean first ∨ Unclean last ∨ total ≠ ascii "*" ∧ (Unclean total ∨ range.total = 0))

theorem Number.clean {text : Bytes} {n : Nat} (h : Number text n) : ¬ Unclean text := by
  rintro ⟨b, hb, hdigit⟩
  exact hdigit (h.digits b hb)

theorem Number.loose {text : Bytes} {n : Nat} (h : Number text n) : LooseNumber text n := by
  refine ⟨[], text, rfl, by simp, [], text, [], n, ?_, .inl rfl, h, by simp, ?_⟩
  · rw [List.nil_append, List.append_nil]
  · rw [if_neg (by decide)]

/-- Among digits there is nothing to skip, and nothing to leave. -/
theorem LooseNumber.number {text : Bytes} {n : Nat} (h : LooseNumber text n)
    (hclean : ¬ Unclean text) : Number text n := by
  obtain ⟨blanks, signed, rfl, hblanks, sign, digits, rest, value, rfl, hsign, hnumber, hrest,
    rfl⟩ := h
  have hdigits : ∀ b ∈ blanks ++ (sign ++ (digits ++ rest)), Nlohmann.isDigit b := by
    intro b hb
    by_contra hdigit
    exact hclean ⟨b, hb, hdigit⟩
  have hblank : blanks = [] := by
    refine List.eq_nil_iff_forall_not_mem.mpr fun b hb => ?_
    exact (digit_plain (hdigits b (List.mem_append_left _ hb))).1 (hblanks b hb)
  have hplain : sign = [] := by
    rcases hsign with rfl | rfl | rfl
    · rfl
    · have hplus := hdigits 0x2b (List.mem_append_right _ (List.mem_cons_self ..))
      exact absurd rfl (digit_plain hplus).2.1
    · have hminus := hdigits 0x2d (List.mem_append_right _ (List.mem_cons_self ..))
      exact absurd rfl (digit_plain hminus).2.2.1
  have hend : rest = [] := by
    cases rest with
    | nil => rfl
    | cons b rest => exact absurd (hdigits b (by simp)) (hrest b rfl)
  subst hblank hplain hend
  rw [List.nil_append, List.nil_append, List.append_nil, if_neg (by decide)]
  exact hnumber

/-- The grammar has one dash and one slash. -/
theorem InGrammar.loose {text : Bytes} {range : ContentRange} (h : InGrammar text range) :
    ∃ first last total, LooseRange text first last total range ∧ ¬ Unclean first ∧
      ¬ Unclean last ∧ (total ≠ ascii "*" → ¬ Unclean total ∧ range.total ≠ 0) := by
  obtain ⟨first, last, total, htext, hfirst, hlast, horder, htotal⟩ := h
  refine ⟨first, last, total, ⟨htext, ?_, ?_, hfirst.loose, hlast.loose, ?_, horder, ?_⟩,
    hfirst.clean, hlast.clean, ?_⟩
  · exact fun hdash => (digit_plain (hfirst.digits _ hdash)).2.2.1 rfl
  · exact fun hslash => (digit_plain (hlast.digits _ hslash)).2.2.2.1 rfl
  · rcases htotal with ⟨hstar, hzero⟩ | ⟨hnumber, -⟩
    · exact .inl ⟨hstar, hzero⟩
    · refine .inr ⟨?_, hnumber.loose⟩
      rintro rfl
      exact hnumber.clean ⟨0x2a, List.mem_cons_self .., by decide⟩
  · exact htotal.imp And.right And.right
  · intro hstar
    obtain ⟨hnumber, hlast⟩ := htotal.resolve_left fun h => hstar h.1
    exact ⟨hnumber.clean, by omega⟩

theorem InGrammar.mem {text : Bytes} {range : ContentRange} (h : InGrammar text range) {b : UInt8}
    (hb : b ∈ text.drop 6) : Nlohmann.isDigit b ∨ b = 0x2d ∨ b = 0x2f ∨ b = 0x2a := by
  obtain ⟨first, last, total, rfl, hfirst, hlast, -, htotal⟩ := h
  have hfields : b ∈ first ++ 0x2d :: (last ++ 0x2f :: total) := hb
  simp only [List.mem_append, List.mem_cons] at hfields
  rcases hfields with hmem | rfl | hmem | rfl | hmem
  · exact .inl (hfirst.digits b hmem)
  · exact .inr (.inl rfl)
  · exact .inl (hlast.digits b hmem)
  · exact .inr (.inr (.inl rfl))
  · rcases htotal with ⟨rfl, -⟩ | ⟨hnumber, -⟩
    · exact .inr (.inr (.inr (List.mem_singleton.mp hmem)))
    · exact .inl (hnumber.digits b hmem)

/-- **A header is read as the grammar says exactly if it is not off it**: what keeps to the grammar
is always read. -/
theorem parseContentRange_iff (value : Bytes) :
    (∀ range, parseContentRange value = some range ↔ InGrammar (trimAscii value) range) ↔
      ¬ OffGrammar (trimAscii value) := by
  constructor
  · rintro hclaim ⟨first, last, total, range, hloose, hoff⟩
    have hread := parseContentRange_eq_some.mpr ⟨first, last, total, hloose⟩
    obtain ⟨first', last', total', hstrict, hfirst, hlast, htotal⟩ :=
      ((hclaim range).mp hread).loose
    obtain ⟨rfl, rfl, rfl⟩ := hloose.fields_eq hstrict
    rcases hoff with hoff | hoff | ⟨hstar, hoff | hoff⟩
    · exact hfirst hoff
    · exact hlast hoff
    · exact (htotal hstar).1 hoff
    · exact (htotal hstar).2 hoff
  · intro hon range
    rw [parseContentRange_eq_some]
    constructor
    · rintro ⟨first, last, total, h⟩
      by_contra hnot
      refine hon ⟨first, last, total, range, h, ?_⟩
      by_contra hclean
      obtain ⟨hfirst, hlast, htotal⟩ := by simpa only [not_or, not_and] using hclean
      refine hnot ⟨first, last, total, h.text, h.start.number hfirst, h.stop.number hlast,
        h.order, ?_⟩
      rcases h.total with hstar | ⟨hstar, hnumber⟩
      · exact .inl hstar
      · obtain ⟨hdigits, hzero⟩ := htotal hstar
        exact .inr ⟨hnumber.number hdigits, h.inside.resolve_left hzero⟩
    · intro h
      obtain ⟨first, last, total, hloose, -⟩ := h.loose
      exact ⟨first, last, total, hloose⟩

/-- "bytes 0-5/6abc" is read like "bytes 0-5/6". -/
theorem trailing_text_ignored :
    ¬ ∀ value range, parseContentRange value = some range ↔
      InGrammar (trimAscii value) range := by
  intro hclaim
  have hread : parseContentRange (ascii "bytes 0-5/6abc") = some ⟨0, 5, 6⟩ := by decide
  have hgrammar := (hclaim _ _).mp hread
  have ha : (0x61 : UInt8) ∈ (trimAscii (ascii "bytes 0-5/6abc")).drop 6 := by decide
  exact absurd (hgrammar.mem ha) (by decide)

end Cpp
end SwmSdk
