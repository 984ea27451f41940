import SwmSdk.ByteCodec
import SwmSdk.DownloadResume
import SwmSdk.JsonMember
import SwmSdk.JsonSpan
import SwmSdk.JsonWrite
import SwmSdk.StoredNumbers
import SwmSdk.Utf16

/-! # The vendored JSON writer

`dump` of `third_party/nlohmann/json.hpp`, without indentation and with its strict error handler.
What it writes the parser reads back to the same value, except that an integer which is not negative
comes back as an unsigned one (`reads_dump`).
-/
namespace SwmSdk
namespace Nlohmann
open ByteText JsonText Outcome

/-! ## Writer -/

/-- `hex_bytes`. -/
def hexBytes (b : UInt8) : Bytes := [digit (b.toNat / 16), digit (b.toNat % 16)]
where
  digit (n : Nat) : UInt8 := UInt8.ofNat (if n < 10 then 48 + n else 55 + n)

/-- `exception::what` of the library's `type_error`. -/
def typeError (what : Bytes) : Bytes := ascii "[json.exception.type_error.316] " ++ what

/-- Where `dump_escaped` finds that a text is not UTF-8; `i` bytes were read before. -/
def utf8Fault : Nat → Nat → Bytes → Option Bytes
  | _, _, [] => none
  | 0, _, _ :: _ => none
  | fuel + 1, i, b :: rest =>
      if b < 0x80 then utf8Fault fuel (i + 1) rest
      else
        match continuation b with
        | none => some (invalidByte i b)
        | some ranges =>
            let taken := takeInRanges ranges rest
            if taken.length = ranges.length then
              utf8Fault fuel (i + 1 + taken.length) (rest.drop taken.length)
            else
              match rest.drop taken.length with
              | c :: _ => some (invalidByte (i + 1 + taken.length) c)
              | [] => some (ascii "incomplete UTF-8 string; last byte: 0x" ++
                  hexBytes ((b :: rest).getLast (List.cons_ne_nil b rest)))
where
  invalidByte (i : Nat) (b : UInt8) : Bytes :=
    ascii "invalid UTF-8 byte at index " ++ decimalNat i ++ ascii ": 0x" ++ hexBytes b

/-- A text between quotes, where `dump_escaped` throws unless it is UTF-8. -/
def dumpText (text : Bytes) : Except Bytes Bytes :=
  match utf8Fault text.length 0 text with
  | none => .ok (JsonWrite.quoted false text)
  | some what => .error (typeError what)

section Dump
variable (toChars : Binary64 → Bytes)

mutual

/-- `dump`, where `toChars` writes doubles; an error has the text of what it throws. -/
def dump : Json → Except Bytes Bytes
  | .null => .ok (ascii "null")
  | .boolean true => .ok (ascii "true")
  | .boolean false => .ok (ascii "false")
  | .unsigned n => .ok (decimalNat n)
  | .integer n => .ok (decimal n)
  | .float x => .ok (toChars x)
  | .string text => dumpText text
  | .array [] => .ok [0x5b, 0x5d]
  | .array (item :: items) => do
      let first ← dump item
      let rest ← dumpItems items
      .ok (0x5b :: (first ++ rest))
  | .object [] => .ok [0x7b, 0x7d]
  | .object ((key, v) :: members) => do
      let name ← dumpText key
      let text ← dump v
      let rest ← dumpMembers members
      .ok (0x7b :: (name ++ 0x3a :: (text ++ rest)))

/-- The rest of an array after an element. -/
def dumpItems : List Json → Except Bytes Bytes
  | [] => .ok [0x5d]
  | item :: items => do
      let text ← dump item
      let rest ← dumpItems items
      .ok (0x2c :: (text ++ rest))

/-- The rest of an object after a member. -/
def dumpMembers : List (Bytes × Json) → Except Bytes Bytes
  | [] => .ok [0x7d]
  | (key, v) :: members => do
      let name ← dumpText key
      let text ← dump v
      let rest ← dumpMembers members
      .ok (0x2c :: (name ++ 0x3a :: (text ++ rest)))

end

end Dump

/-- The writer finds a fault in a text exactly when it is not UTF-8. -/
theorem utf8Fault_eq_none {n i : Nat} {text : Bytes} (hlength : text.length ≤ n) :
    utf8Fault n i text = none ↔ isUtf8 n text = true := by
  induction n generalizing i text with
  | zero =>
    cases text with
    | nil => exact iff_of_true rfl rfl
    | cons b rest => cases hlength
  | succ n ih =>
    cases text with
    | nil => exact iff_of_true rfl rfl
    | cons b rest =>
      rw [List.length_cons] at hlength
      rw [utf8Fault, isUtf8]
      by_cases hb : b < 0x80
      · rw [if_pos hb, if_pos hb, ih (by omega)]
      · rw [if_neg hb, if_neg hb]
        cases continuation b with
        | none => exact iff_of_false (Option.some_ne_none _) Bool.false_ne_true
        | some ranges =>
          dsimp only
          rw [Bool.and_eq_true, decide_eq_true_iff]
          by_cases htaken : (takeInRanges ranges rest).length = ranges.length
          · rw [if_pos htaken, ih (by rw [List.length_drop]; omega)]
            exact (and_iff_right htaken).symm
          · rw [if_neg htaken]
            refine iff_of_false ?_ fun h => htaken h.1
            split
            · exact Option.some_ne_none _
            · exact Option.some_ne_none _

theorem dumpText_eq_ok {text written : Bytes} : dumpText text = .ok written ↔
    validUtf8 text = true ∧ JsonWrite.quoted false text = written := by
  unfold dumpText validUtf8
  rw [← utf8Fault_eq_none (i := 0) (Nat.le_refl _)]
  cases utf8Fault text.length 0 text with
  | none => simp
  | some what => simp

/-! ## What comes back -/

mutual

/-- The value as the parser stores it. -/
def reread : Json → Json
  | .null => .null
  | .boolean b => .boolean b
  | .unsigned n => .unsigned n
  | .integer n => if 0 ≤ n then .unsigned n.toNat else .integer n
  | .float x => .float x
  | .string text => .string text
  | .array items => .array (rereadItems items)
  | .object members => .object (rereadMembers members)

/-- The items as they are read back. -/
def rereadItems : List Json → List Json
  | [] => []
  | item :: items => reread item :: rereadItems items

/-- The members as they are read back. -/
def rereadMembers : List (Bytes × Json) → List (Bytes × Json)
  | [] => []
  | (key, v) :: members => (key, reread v) :: rereadMembers members

end

/-- The names of an object, which are in order and differ. -/
def Sorted (members : List (Bytes × Json)) : Prop :=
  members.Pairwise fun first second => Json.keyLt first.1 second.1 = true

section Stored
variable (toChars : Binary64 → Bytes)

mutual

/-- A value that the library can hold, with doubles whose texts are read back. -/
def Stored : Json → Prop
  | .unsigned n => n < 2 ^ 64
  | .integer n => -2 ^ 63 ≤ n ∧ n < 2 ^ 63
  | .float x => Reads (toChars x) (.float x)
  | .array items => StoredItems items
  | .object members => Sorted members ∧ StoredMembers members
  | .null => True
  | .boolean _ => True
  | .string _ => True

/-- Every item is one that the library stores. -/
def StoredItems : List Json → Prop
  | [] => True
  | item :: items => Stored item ∧ StoredItems items

/-- Every member is one that the library stores. -/
def StoredMembers : List (Bytes × Json) → Prop
  | [] => True
  | (_, v) :: members => Stored v ∧ StoredMembers members

end
end Stored

mutual

/-- All texts and names are UTF-8. -/
def Utf8 : Json → Prop
  | .string text => validUtf8 text = true
  | .array items => Utf8Items items
  | .object members => Utf8Members members
  | .null => True
  | .boolean _ => True
  | .unsigned _ => True
  | .integer _ => True
  | .float _ => True

/-- Every text of the items is UTF-8. -/
def Utf8Items : List Json → Prop
  | [] => True
  | item :: items => Utf8 item ∧ Utf8Items items

/-- Every name and every text of the members is UTF-8. -/
def Utf8Members : List (Bytes × Json) → Prop
  | [] => True
  | (key, v) :: members => validUtf8 key = true ∧ Utf8 v ∧ Utf8Members members

end

/-! ## Texts -/

theorem scanChar_written {b : UInt8} (hb : b < 0x80) (t : Bytes) :
    scanChar (JsonWrite.escape false b ++ t) = some ([b], t) := by
  have hdigit : ∀ n < 16, hexDigitValue (JsonWrite.controlDigit false n) = some n := by decide
  have hnat := UInt8.lt_iff_toNat_lt.mp hb
  unfold JsonWrite.escape
  split
  next h => rw [h]; rfl
  next _ =>
  split
  next h => rw [h]; rfl
  next hback =>
  split
  next h => rw [h]; rfl
  next _ =>
  split
  next h => rw [h]; rfl
  next _ =>
  split
  next h => rw [h]; rfl
  next _ =>
  split
  next h => rw [h]; rfl
  next _ =>
  split
  next h => rw [h]; rfl
  next _ =>
  split
  next hcontrol =>
    have hsmall : b.toNat < 0x20 := UInt8.lt_iff_toNat_lt.mp hcontrol
    have hwhole : 0 * 4096 + 0 * 256 + b.toNat / 16 * 16 + b.toNat % 16 = b.toNat := by omega
    have hzero : hexDigitValue 0x30 = some 0 := by decide
    simp only [List.cons_append, List.nil_append, scanChar, scanEscape, scanUnicode, getCodepoint,
      hzero, hdigit _ (show b.toNat / 16 < 16 by omega),
      hdigit _ (show b.toNat % 16 < 16 by omega), Option.bind_eq_bind, Option.bind_some, hwhole]
    rw [if_neg (by omega), if_neg (by omega), utf8, if_pos (by omega), UInt8.ofNat_toNat]
  next hcontrol =>
    rw [List.singleton_append, scanChar.eq_2 _ _ hback, if_neg hcontrol, if_pos hb]

/-- A byte of a longer character stands for itself. -/
theorem escape_high {b : UInt8} (hb : 0x80 ≤ b) : JsonWrite.escape false b = [b] := by
  have hne : ∀ c : UInt8, c < 0x80 → b ≠ c := by
    rintro c hc rfl
    exact absurd hc (UInt8.not_lt.mpr hb)
  have hcontrol : ¬ b < 0x20 := fun hlt =>
    absurd (UInt8.lt_of_le_of_lt hb hlt) (by decide)
  unfold JsonWrite.escape
  rw [if_neg (hne _ (by decide)), if_neg (hne _ (by decide)), if_neg (hne _ (by decide)),
    if_neg (hne _ (by decide)), if_neg (hne _ (by decide)), if_neg (hne _ (by decide)),
    if_neg (hne _ (by decide)), if_neg hcontrol]

theorem flatMap_escape_high {taken : Bytes} (h : ∀ b ∈ taken, 0x80 ≤ b) :
    taken.flatMap (JsonWrite.escape false) = taken := by
  induction taken with
  | nil => rfl
  | cons b taken ih =>
    rw [List.flatMap_cons, escape_high (h b (List.mem_cons_self ..)),
      ih fun c hc => h c (List.mem_cons_of_mem _ hc)]
    rfl

theorem escape_head_ne_quote (b : UInt8) (t : Bytes) :
    (JsonWrite.escape false b ++ t).head? ≠ some 0x22 := by
  intro h
  cases hs : JsonWrite.escape false b ++ t with
  | nil =>
    rw [hs] at h
    cases h
  | cons c rest =>
    rw [hs] at h
    obtain rfl := Option.some.inj h
    exact JsonWrite.escape_ne_quote b t rest hs

/-- **A text that is UTF-8 is read back** from its escapes, character by character. -/
theorem scanString_escaped {n fuel : Nat} {text : Bytes} (h : isUtf8 n text = true) (t : Bytes)
    (hfuel : (text.flatMap (JsonWrite.escape false)).length < fuel) :
    scanString fuel (text.flatMap (JsonWrite.escape false) ++ 0x22 :: t) = some (text, t) := by
  induction n generalizing text fuel with
  | zero =>
    cases text with
    | nil =>
      obtain ⟨fuel, rfl⟩ := Nat.exists_eq_succ_of_ne_zero (Nat.ne_of_gt hfuel)
      rfl
    | cons b rest => cases h
  | succ n ih =>
    obtain ⟨fuel, rfl⟩ := Nat.exists_eq_succ_of_ne_zero (Nat.ne_of_gt (Nat.zero_lt_of_lt hfuel))
    cases text with
    | nil => rfl
    | cons b rest =>
      rw [isUtf8] at h
      rw [List.flatMap_cons, List.length_append] at hfuel
      rw [List.flatMap_cons, List.append_assoc, Nat.succ_eq_add_one,
        scanString_step (escape_head_ne_quote b _)]
      by_cases hb : b < 0x80
      · rw [if_pos hb] at h
        have hpos : 0 < (JsonWrite.escape false b).length := by
          unfold JsonWrite.escape
          split_ifs <;> exact Nat.succ_pos _
        rw [scanChar_written hb, Option.bind_some]
        dsimp only
        rw [ih h (by omega)]
        rfl
      · rw [if_neg hb] at h
        have hhigh : 0x80 ≤ b := UInt8.not_lt.mp hb
        cases hranges : continuation b with
        | none =>
          rw [hranges] at h
          cases h
        | some ranges =>
          rw [hranges] at h
          dsimp only at h
          rw [Bool.and_eq_true, decide_eq_true_iff] at h
          obtain ⟨hlength, hrest⟩ := h
          have htaken := CSharp.takeInRanges_forall hlength
          obtain ⟨more, hmore⟩ := CSharp.takeInRanges_starts ranges rest
          generalize takeInRanges ranges rest = taken at hrest htaken hmore
          subst hmore
          rw [List.drop_left] at hrest
          -- the bytes after the first one are written as they are, and taken together
          have hbytes : ∀ c ∈ taken, 0x80 ≤ c :=
            (takeRanges_local (continuation_low hranges) (takeRanges_of_forall htaken t)).2.1
          have hback : b ≠ 0x5c := by
            rintro rfl
            exact absurd hhigh (by decide)
          have hcontrol : ¬ b < 0x20 := fun hlt =>
            absurd (UInt8.lt_of_le_of_lt hhigh hlt) (by decide)
          rw [List.flatMap_append, flatMap_escape_high hbytes, List.length_append,
            escape_high hhigh, List.length_singleton] at hfuel
          rw [List.flatMap_append, flatMap_escape_high hbytes, escape_high hhigh,
            List.singleton_append, List.append_assoc, scanChar.eq_2 _ _ hback, if_neg hcontrol,
            if_neg hb, hranges, Option.bind_some, takeRanges_of_forall htaken, Option.map_some,
            Option.bind_some]
          dsimp only
          rw [ih hrest (by omega)]
          rfl

/-- A token that starts the text. -/
theorem scan_of_token {comments : Bool} {b : UInt8} {s rest : Bytes} {token : Token}
    (hspace : isSpace b = false) (hslash : b ≠ 0x2f)
    (h : scanToken (b :: s) = some (token, rest)) :
    scan comments (b :: s) = some (token, rest) := by
  have hgap := skipGap_text comments (b :: s).length (s := s) Spaces.nil hspace hslash
  rw [List.nil_append] at hgap
  rw [scan, hgap, Option.bind_some, h]

theorem readsKey_quoted {text : Bytes} (h : validUtf8 text = true) :
    ReadsKey (JsonWrite.quoted false text) text := by
  have hscan : scan false (JsonWrite.quoted false text) = some (.string text, []) := by
    refine scan_of_token rfl (by decide) ?_
    have hagain : ∀ n, scanString ((text.flatMap (JsonWrite.escape false)).length + 1 + n)
        (text.flatMap (JsonWrite.escape false) ++ [0x22]) = some (text, []) :=
      fun n => scanString_escaped h [] (by omega)
    rw [scanToken]
    simp only [List.length_append, List.length_singleton]
    rw [hagain 1]
    rfl
  obtain ⟨w, read, hsplit, hw, hread⟩ := scan_key hscan
  cases w with
  | nil =>
    rw [List.nil_append, List.append_nil] at hsplit
    rw [hsplit]
    exact hread
  | cons b w =>
    have hb := hw b (List.mem_cons_self ..)
    obtain rfl := (List.cons.inj hsplit).1
    cases hb

theorem readsKey_dumpText {text written : Bytes} (h : dumpText text = .ok written) :
    ReadsKey written text := by
  obtain ⟨hutf8, rfl⟩ := dumpText_eq_ok.mp h
  exact readsKey_quoted hutf8

/-! ## Values -/

/-- A text that is read as a value, to its end and from its start. -/
theorem Reads.of_value {fuel : Nat} {b : UInt8} {s : Bytes} {v : Json} (hb : isSpace b = false)
    (h : value false fuel (b :: s) = some (v, [])) : Reads (b :: s) v := by
  obtain ⟨w, text, hsplit, hw, hread⟩ := (sound fuel).value h
  cases w with
  | nil =>
    rw [List.nil_append, List.append_nil] at hsplit
    rw [hsplit]
    exact hread
  | cons c w =>
    have hc := hw c (List.mem_cons_self ..)
    obtain rfl := (List.cons.inj hsplit).1
    rw [hb] at hc
    cases hc

theorem reads_string {text written : Bytes} (h : dumpText text = .ok written) :
    Reads written (.string text) := by
  have hkey := readsKey_dumpText h
  obtain ⟨body, -, rfl⟩ := hkey.shape
  refine @Reads.of_value 1 _ _ _ rfl ?_
  have hscan := hkey.again false [] [] Spaces.nil
  rw [List.nil_append, List.append_nil] at hscan
  rw [value, hscan]

/-- A number starts with its sign or a digit. -/
theorem scanToken_number {b : UInt8} {s : Bytes} (hb : b = 0x2d ∨ isDigit b = true) :
    scanToken (b :: s) =
      (scanNumber (b :: s)).map fun (value, rest) => (.scalar value, rest) := by
  have hne : ∀ c : UInt8, ¬ (c = 0x2d ∨ isDigit c = true) → b ≠ c := by
    rintro c hc rfl
    exact hc hb
  rw [scanToken, if_neg (hne _ (by decide)), if_neg (hne _ (by decide)),
    if_neg (hne _ (by decide)), if_neg (hne _ (by decide)), if_neg (hne _ (by decide)),
    if_neg (hne _ (by decide)), if_neg (hne _ (by decide)), if_neg (hne _ (by decide)),
    if_neg (hne _ (by decide)), if_neg (hne _ (by decide)), if_pos hb]

/-- A numeral without a sign starts with no zero, unless it is zero. -/
theorem decimalNat_head {n : Nat} (hn : 0 < n) :
    ∃ b rest, decimalNat n = b :: rest ∧ b ≠ 0x30 := by
  have hsmall : ∀ k < 10, 0 < k → UInt8.ofNat (48 + k) ≠ 0x30 := by decide
  induction n using Nat.strongRecOn with
  | ind n ih =>
    by_cases hlt : n < 10
    · exact ⟨_, [], Numeral.decimalNat_of_lt hlt, hsmall n hlt hn⟩
    · obtain ⟨b, rest, hcons, hb⟩ := ih (n / 10) (by omega) (by omega)
      refine ⟨b, rest ++ [UInt8.ofNat (48 + n % 10)], ?_, hb⟩
      rw [Numeral.decimalNat_of_ge (Nat.not_lt.mp hlt), hcons, List.cons_append]

theorem isDigit_decimalNat {n : Nat} {b : UInt8} (h : b ∈ decimalNat n) : isDigit b = true := by
  obtain ⟨hlow, hhigh⟩ := digit_of_mem_decimalNat h
  simp only [isDigit, Bool.and_eq_true, decide_eq_true_eq, UInt8.le_iff_toNat_le]
  exact ⟨hlow, hhigh⟩

theorem scanInteger_decimalNat (n : Nat) :
    scanInteger (decimalNat n) = some (decimalNat n, []) := by
  rcases Nat.eq_zero_or_pos n with rfl | hn
  · rfl
  · obtain ⟨b, rest, hcons, hb⟩ := decimalNat_head hn
    have hdigits : ∀ c ∈ b :: rest, isDigit c = true := fun c hc =>
      isDigit_decimalNat (hcons ▸ hc)
    have hspan := @span_digits rest [] (fun c hc =>
      hdigits c (List.mem_cons_of_mem _ hc)) (Starts.nil _)
    rw [List.append_nil] at hspan
    rw [hcons, scanInteger.eq_2 _ _ hb, if_pos (hdigits b (List.mem_cons_self ..)), hspan.1,
      hspan.2]

/-- An integer that its numeral stands for. -/
theorem reads_numeral {negative : Bool} {n : Nat} {v : Json}
    (hvalue : numberValue negative (decimalNat n) none none = some v) :
    Reads (if negative then 0x2d :: decimalNat n else decimalNat n) v := by
  obtain ⟨b, rest, hcons, hlow, hhigh⟩ := Numeral.decimalNat_cons n
  have hdigit : isDigit b = true := isDigit_decimalNat (hcons ▸ List.mem_cons_self ..)
  have hnumber : scanNumber (if negative then 0x2d :: decimalNat n else decimalNat n) =
      some (v, []) := by
    have hminus : scanMinus (if negative then 0x2d :: decimalNat n else decimalNat n) =
        (negative, decimalNat n) := by
      cases negative with
      | true => rfl
      | false =>
        rw [if_neg Bool.false_ne_true, hcons, scanMinus]
        rintro tail htail
        obtain rfl := (List.cons.inj htail).1
        cases hdigit
    rw [scanNumber, hminus, scanInteger_decimalNat]
    simp only [Option.bind_eq_bind, Option.bind_some, scanFraction, scanExponent, hvalue]
  have hread : ∀ (c : UInt8) (s : Bytes), isSpace c = false → c ≠ 0x2f →
      (c = 0x2d ∨ isDigit c = true) → scanNumber (c :: s) = some (v, []) → Reads (c :: s) v := by
    intro c s hspace hslash hc hs
    refine @Reads.of_value 1 _ _ _ hspace ?_
    have htoken : scanToken (c :: s) = some (.scalar v, []) := by
      rw [scanToken_number hc, hs]
      rfl
    rw [value, scan_of_token hspace hslash htoken]
  cases negative with
  | true => exact hread _ _ rfl (by decide) (.inl rfl) hnumber
  | false =>
    rw [if_neg Bool.false_ne_true] at hnumber ⊢
    rw [hcons] at hnumber ⊢
    refine hread b rest ?_ ?_ (.inr hdigit) hnumber
    · have hatom := isAtom_digit hdigit
      simp only [isAtom, Bool.and_eq_true, Bool.not_eq_true'] at hatom
      exact hatom.1.1.2
    · rintro rfl
      cases hdigit

theorem reads_unsigned {n : Nat} (h : n < 2 ^ 64) : Reads (decimalNat n) (.unsigned n) := by
  refine @reads_numeral false _ _ ?_
  unfold numberValue
  dsimp only
  rw [if_pos ⟨rfl, rfl⟩, if_neg Bool.false_ne_true, Cpp.digitsValue_decimalNat, if_pos h]

theorem reads_negative {n : Nat} (h : n + 1 ≤ 2 ^ 63) :
    Reads (decimal (Int.negSucc n)) (.integer (Int.negSucc n)) := by
  refine @reads_numeral true _ _ ?_
  unfold numberValue
  dsimp only
  rw [if_pos ⟨rfl, rfl⟩, if_pos rfl, Cpp.digitsValue_decimalNat, if_pos h]
  rfl

theorem reads_literal {b : UInt8} {s : Bytes} {v : Json} (hb : isSpace b = false)
    (hslash : b ≠ 0x2f) (h : scanToken (b :: s) = some (.scalar v, [])) : Reads (b :: s) v := by
  refine @Reads.of_value 1 _ _ _ hb ?_
  rw [value, scan_of_token hb hslash h]

/-! ## Arrays and objects -/

/-- The names of an object stay in order. -/
theorem map_fst_reread (members : List (Bytes × Json)) :
    (rereadMembers members).map Prod.fst = members.map Prod.fst := by
  induction members with
  | nil => rfl
  | cons member members ih =>
    obtain ⟨key, v⟩ := member
    rw [rereadMembers, List.map_cons, List.map_cons, ih]

theorem keyLt_asymm {first second : Bytes} (h : Json.keyLt first second = true) :
    first ≠ second ∧ Json.keyLt second first = false := by
  induction first generalizing second with
  | nil =>
    cases second with
    | nil => cases h
    | cons b bs => exact ⟨List.cons_ne_nil b bs ∘ Eq.symm, rfl⟩
  | cons a as ih =>
    cases second with
    | nil => cases h
    | cons b bs =>
      rw [Json.keyLt] at h
      by_cases hab : a = b
      · subst hab
        rw [if_pos rfl] at h
        obtain ⟨hne, hback⟩ := ih h
        refine ⟨fun heq => hne (List.cons.inj heq).2, ?_⟩
        rw [Json.keyLt, if_pos rfl, hback]
      · rw [if_neg hab, decide_eq_true_iff] at h
        refine ⟨fun heq => hab (List.cons.inj heq).1, ?_⟩
        rw [Json.keyLt, if_neg (Ne.symm hab), decide_eq_false_iff_not]
        exact UInt8.not_lt.mpr (UInt8.le_of_lt h)

theorem keyLt_trans {first second third : Bytes} (h : Json.keyLt first second = true)
    (hnext : Json.keyLt second third = true) : Json.keyLt first third = true := by
  induction first generalizing second third with
  | nil =>
    cases third with
    | nil =>
      cases second with
      | nil => cases h
      | cons b bs => cases hnext
    | cons c cs => rfl
  | cons a as ih =>
    cases second with
    | nil => cases h
    | cons b bs =>
      cases third with
      | nil => cases hnext
      | cons c cs =>
        rw [Json.keyLt] at h hnext ⊢
        by_cases hab : a = b
        · subst hab
          rw [if_pos rfl] at h
          by_cases hac : a = c
          · rw [if_pos hac] at hnext ⊢
            exact ih h hnext
          · rw [if_neg hac] at hnext ⊢
            exact hnext
        · rw [if_neg hab, decide_eq_true_iff] at h
          by_cases hbc : b = c
          · subst hbc
            rwa [if_neg hab, decide_eq_true_iff]
          · rw [if_neg hbc, decide_eq_true_iff] at hnext
            have hlt := UInt8.lt_trans h hnext
            rw [if_neg (UInt8.ne_of_lt hlt), decide_eq_true_iff]
            exact hlt

theorem keyLt_total {first second : Bytes} (hne : first ≠ second)
    (h : ¬ Json.keyLt first second = true) : Json.keyLt second first = true := by
  induction first generalizing second with
  | nil =>
    cases second with
    | nil => exact absurd rfl hne
    | cons b bs => exact absurd rfl h
  | cons a as ih =>
    cases second with
    | nil => rfl
    | cons b bs =>
      rw [Json.keyLt] at h ⊢
      by_cases hab : a = b
      · subst hab
        rw [if_pos rfl] at h ⊢
        exact ih (fun heq => hne (heq ▸ rfl)) h
      · rw [if_neg hab, decide_eq_true_iff] at h
        rw [if_neg (Ne.symm hab), decide_eq_true_iff]
        exact UInt8.lt_of_le_of_ne (UInt8.not_lt.mp h) (Ne.symm hab)

theorem sorted_insert {key : Bytes} {v : Json} {object : List (Bytes × Json)}
    (h : Sorted object) : Sorted (Json.insert key v object) := by
  induction object with
  | nil => exact List.pairwise_singleton ..
  | cons member object ih =>
    obtain ⟨k, u⟩ := member
    obtain ⟨hfirst, hrest⟩ := List.pairwise_cons.mp h
    rw [Json.insert]
    split
    · rename_i hkey
      exact List.pairwise_cons.mpr ⟨fun other hmem => hkey ▸ hfirst other hmem, hrest⟩
    · rename_i hkey
      split
      · rename_i hlt
        refine List.pairwise_cons.mpr ⟨fun other hmem => ?_, h⟩
        rcases List.mem_cons.mp hmem with rfl | hmem
        · exact hlt
        · exact keyLt_trans hlt (hfirst other hmem)
      · rename_i hlt
        refine List.pairwise_cons.mpr ⟨fun other hmem => ?_, ih hrest⟩
        rcases Json.mem_insert hmem with rfl | hmem
        · exact keyLt_total hkey hlt
        · exact hfirst other hmem

/-- **The members of an object are in order**, however it was built. -/
theorem sorted_fromMembers (members : List (Bytes × Json)) : Sorted (Json.fromMembers members) := by
  have fold : ∀ (more object : List (Bytes × Json)), Sorted object →
      Sorted (more.foldl (fun object member => Json.insert member.1 member.2 object) object) := by
    intro more
    induction more with
    | nil => exact fun object h => h
    | cons member more ih => exact fun object h => ih _ (sorted_insert h)
  exact fold members [] List.Pairwise.nil

/-- A name after all others goes to the end. -/
theorem insert_last {key : Bytes} {v : Json} {object : List (Bytes × Json)}
    (h : ∀ member ∈ object, Json.keyLt member.1 key = true) :
    Json.insert key v object = object ++ [(key, v)] := by
  induction object with
  | nil => rfl
  | cons member object ih =>
    obtain ⟨k, u⟩ := member
    obtain ⟨hne, hback⟩ := keyLt_asymm (h (k, u) (List.mem_cons_self ..))
    rw [Json.insert, if_neg (Ne.symm hne), hback, if_neg Bool.false_ne_true,
      ih fun member hmem => h member (List.mem_cons_of_mem _ hmem), List.cons_append]

/-- **Members in order are the object that they make.** -/
theorem fromMembers_sorted {members : List (Bytes × Json)} (h : Sorted members) :
    Json.fromMembers members = members := by
  have fold : ∀ (more object : List (Bytes × Json)), Sorted (object ++ more) →
      more.foldl (fun object member => Json.insert member.1 member.2 object) object =
        object ++ more := by
    intro more
    induction more with
    | nil =>
      intro object _
      rw [List.append_nil]
      rfl
    | cons member more ih =>
      intro object hsorted
      have hlast : ∀ other ∈ object, Json.keyLt other.1 member.1 = true := fun other hmem =>
        (List.pairwise_append.mp hsorted).2.2 other hmem member (List.mem_cons_self ..)
      rw [List.foldl_cons, insert_last hlast, ih _ (by rwa [List.append_assoc]),
        List.append_assoc]
      rfl
  exact fold members [] h

theorem storedMembers_iff {toChars : Binary64 → Bytes} {members : List (Bytes × Json)} :
    StoredMembers toChars members ↔ ∀ member ∈ members, Stored toChars member.2 := by
  induction members with
  | nil => exact iff_of_true trivial (List.forall_mem_nil _)
  | cons member members ih =>
    obtain ⟨key, v⟩ := member
    rw [StoredMembers, ih, List.forall_mem_cons]

theorem Stored.fromMembers {toChars : Binary64 → Bytes} {members : List (Bytes × Json)}
    (h : ∀ member ∈ members, Stored toChars member.2) :
    Stored toChars (.object (Json.fromMembers members)) :=
  ⟨sorted_fromMembers members,
    storedMembers_iff.mpr fun member hmem => h member (Json.mem_fromMembers hmem)⟩

/-- A member comes back under its name. -/
theorem find_reread (v : Json) (key : Bytes) : (reread v).find key = (v.find key).map reread := by
  have hlookup : ∀ members : List (Bytes × Json),
      Json.lookup key (rereadMembers members) = (Json.lookup key members).map reread := by
    intro members
    induction members with
    | nil => rfl
    | cons member members ih =>
      obtain ⟨k, u⟩ := member
      unfold Json.lookup at ih ⊢
      rw [rereadMembers]
      by_cases hk : k = key
      · rw [List.find?_cons_of_pos (by simpa using hk), List.find?_cons_of_pos (by simpa using hk)]
        rfl
      · rw [List.find?_cons_of_neg (by simpa using hk), List.find?_cons_of_neg (by simpa using hk),
          ih]
  cases v with
  | object members => exact hlookup members
  | integer n =>
    rw [reread]
    split <;> rfl
  | _ => rfl

theorem sorted_reread {members : List (Bytes × Json)} (h : Sorted members) :
    Sorted (rereadMembers members) := by
  have hkeys : ∀ list : List (Bytes × Json), Sorted list ↔
      (list.map Prod.fst).Pairwise fun first second => Json.keyLt first second = true := by
    intro list
    rw [List.pairwise_map, Sorted]
  rw [hkeys, map_fst_reread, ← hkeys]
  exact h

theorem follow_dumpItems {toChars : Binary64 → Bytes} {items : List Json} {text : Bytes}
    (h : dumpItems toChars items = .ok text) (t : Bytes) : Follow (text ++ t) := by
  cases items with
  | nil =>
    obtain rfl := Except.ok.inj h
    exact follow_bracket t
  | cons item items =>
    rw [dumpItems] at h
    obtain ⟨first, -, h⟩ := bind_eq_ok.mp h
    obtain ⟨more, -, h⟩ := bind_eq_ok.mp h
    obtain rfl := Except.ok.inj h
    exact follow_comma _

theorem follow_dumpMembers {toChars : Binary64 → Bytes} {members : List (Bytes × Json)}
    {text : Bytes} (h : dumpMembers toChars members = .ok text) (t : Bytes) :
    Follow (text ++ t) := by
  cases members with
  | nil =>
    obtain rfl := Except.ok.inj h
    exact follow_brace t
  | cons member members =>
    obtain ⟨key, v⟩ := member
    rw [dumpMembers] at h
    obtain ⟨name, -, h⟩ := bind_eq_ok.mp h
    obtain ⟨first, -, h⟩ := bind_eq_ok.mp h
    obtain ⟨more, -, h⟩ := bind_eq_ok.mp h
    obtain rfl := Except.ok.inj h
    exact follow_comma _

/-- A mark that is a token. -/
theorem scan_plain_mark {b : UInt8} {token : Token} (hspace : isSpace b = false)
    (hslash : b ≠ 0x2f) (h : ∀ s, scanToken (b :: s) = some (token, s)) (s : Bytes) :
    scan false (b :: s) = some (token, s) := scan_of_token hspace hslash (h s)

section ReadBack
variable {toChars : Binary64 → Bytes}

/-- The elements of an array after its bracket. -/
def ItemsRead (toChars : Binary64 → Bytes) (items : List Json) : Prop :=
  ∀ text, dumpItems toChars items = .ok text → ∀ (item : Json) (first : Bytes),
    Reads first item → ∀ (fuel : Nat) (t : Bytes), (first ++ text).length < fuel →
      elements false fuel (first ++ (text ++ t)) = some (item :: rereadItems items, t)

/-- The members of an object after the name of the first one. -/
def MembersRead (toChars : Binary64 → Bytes) (list : List (Bytes × Json)) : Prop :=
  ∀ text, dumpMembers toChars list = .ok text → ∀ (key : Bytes) (v : Json) (first : Bytes),
    Reads first v → ∀ (fuel : Nat) (t : Bytes), (0x3a :: (first ++ text)).length < fuel →
      members false fuel key (0x3a :: (first ++ (text ++ t))) =
        some ((key, v) :: rereadMembers list, t)

theorem itemsRead_nil : ItemsRead toChars [] := by
  intro text htext item first hfirst fuel t hfuel
  obtain rfl := Except.ok.inj htext
  obtain ⟨fuel, rfl⟩ := Nat.exists_eq_succ_of_ne_zero (Nat.ne_of_gt (Nat.zero_lt_of_lt hfuel))
  rw [List.length_append, List.length_singleton] at hfuel
  have hvalue := hfirst.again false fuel [] ([0x5d] ++ t) Spaces.nil (follow_bracket t) (by omega)
  rw [List.nil_append] at hvalue
  rw [Nat.succ_eq_add_one, elements, hvalue, Option.bind_some]
  dsimp only
  rw [List.singleton_append, scan_plain_mark rfl (by decide) (fun _ => rfl)]
  rfl

theorem itemsRead_cons {item : Json} {items : List Json}
    (hitem : ∀ text, dump toChars item = .ok text → Reads text (reread item))
    (hitems : ItemsRead toChars items) : ItemsRead toChars (item :: items) := by
  intro text htext v first hfirst fuel t hfuel
  have hfollow := follow_dumpItems htext t
  rw [dumpItems] at htext
  obtain ⟨next, hnext, htext⟩ := bind_eq_ok.mp htext
  obtain ⟨more, hmore, htext⟩ := bind_eq_ok.mp htext
  obtain rfl := Except.ok.inj htext
  obtain ⟨fuel, rfl⟩ := Nat.exists_eq_succ_of_ne_zero (Nat.ne_of_gt (Nat.zero_lt_of_lt hfuel))
  rw [List.length_append, List.length_cons] at hfuel
  have hvalue := hfirst.again false fuel [] _ Spaces.nil hfollow (by omega)
  rw [List.nil_append] at hvalue
  rw [Nat.succ_eq_add_one, elements, hvalue, Option.bind_some]
  dsimp only
  rw [List.cons_append, scan_plain_mark rfl (by decide) (fun _ => rfl)]
  dsimp only
  rw [List.append_assoc, hitems more hmore _ next (hitem next hnext) fuel t (by omega)]
  rfl

theorem membersRead_nil : MembersRead toChars [] := by
  intro text htext key v first hfirst fuel t hfuel
  obtain rfl := Except.ok.inj htext
  obtain ⟨fuel, rfl⟩ := Nat.exists_eq_succ_of_ne_zero (Nat.ne_of_gt (Nat.zero_lt_of_lt hfuel))
  rw [List.length_cons, List.length_append, List.length_singleton] at hfuel
  have hvalue := hfirst.again false fuel [] ([0x7d] ++ t) Spaces.nil (follow_brace t) (by omega)
  rw [List.nil_append] at hvalue
  rw [Nat.succ_eq_add_one, members, scan_plain_mark rfl (by decide) (fun _ => rfl)]
  dsimp only
  rw [hvalue, Option.bind_some]
  dsimp only
  rw [List.singleton_append, scan_plain_mark rfl (by decide) (fun _ => rfl)]
  rfl

theorem membersRead_cons {key : Bytes} {v : Json} {list : List (Bytes × Json)}
    (hv : ∀ text, dump toChars v = .ok text → Reads text (reread v))
    (hlist : MembersRead toChars list) : MembersRead toChars ((key, v) :: list) := by
  intro text htext before u first hfirst fuel t hfuel
  have hfollow := follow_dumpMembers htext t
  rw [dumpMembers] at htext
  obtain ⟨name, hname, htext⟩ := bind_eq_ok.mp htext
  obtain ⟨next, hnext, htext⟩ := bind_eq_ok.mp htext
  obtain ⟨more, hmore, htext⟩ := bind_eq_ok.mp htext
  obtain rfl := Except.ok.inj htext
  obtain ⟨fuel, rfl⟩ := Nat.exists_eq_succ_of_ne_zero (Nat.ne_of_gt (Nat.zero_lt_of_lt hfuel))
  simp only [List.length_cons, List.length_append] at hfuel
  have hvalue := hfirst.again false fuel [] _ Spaces.nil hfollow (by omega)
  rw [List.nil_append] at hvalue
  rw [Nat.succ_eq_add_one, members, scan_plain_mark rfl (by decide) (fun _ => rfl)]
  dsimp only
  rw [hvalue, Option.bind_some]
  dsimp only
  rw [List.cons_append, scan_plain_mark rfl (by decide) (fun _ => rfl)]
  dsimp only
  have hkey := (readsKey_dumpText hname).again false [] (0x3a :: (next ++ (more ++ t))) Spaces.nil
  rw [List.nil_append] at hkey
  rw [List.append_assoc, List.cons_append, List.append_assoc, hkey]
  dsimp only
  rw [hlist more hmore key _ next (hv next hnext) fuel t (by
    simp only [List.length_cons, List.length_append]
    omega)]
  rfl

theorem reads_array {item : Json} {items : List Json}
    (hitem : ∀ text, dump toChars item = .ok text → Reads text (reread item))
    (hitems : ItemsRead toChars items) {text : Bytes}
    (h : dump toChars (.array (item :: items)) = .ok text) :
    Reads text (.array (reread item :: rereadItems items)) := by
  rw [dump] at h
  obtain ⟨first, hfirst, h⟩ := bind_eq_ok.mp h
  obtain ⟨more, hmore, h⟩ := bind_eq_ok.mp h
  obtain rfl := Except.ok.inj h
  have hread := hitem first hfirst
  have hall := hitems more hmore _ first hread ((first ++ more).length + 1) [] (Nat.lt_succ_self _)
  rw [List.append_nil] at hall
  refine @Reads.of_value ((first ++ more).length + 2) _ _ _ rfl ?_
  rw [value, scan_plain_mark rfl (by decide) (fun _ => rfl)]
  dsimp only
  split
  · rename_i hscan
    exact absurd hscan (scan_begins (w := []) Spaces.nil hread.begins)
  · rw [hall]
    rfl

theorem reads_object {key : Bytes} {v : Json} {list : List (Bytes × Json)}
    (hsorted : Sorted ((key, v) :: list))
    (hv : ∀ text, dump toChars v = .ok text → Reads text (reread v))
    (hlist : MembersRead toChars list) {text : Bytes}
    (h : dump toChars (.object ((key, v) :: list)) = .ok text) :
    Reads text (.object ((key, reread v) :: rereadMembers list)) := by
  rw [dump] at h
  obtain ⟨name, hname, h⟩ := bind_eq_ok.mp h
  obtain ⟨first, hfirst, h⟩ := bind_eq_ok.mp h
  obtain ⟨more, hmore, h⟩ := bind_eq_ok.mp h
  obtain rfl := Except.ok.inj h
  have hall := hlist more hmore key _ first (hv first hfirst) ((0x3a :: (first ++ more)).length + 1)
    [] (Nat.lt_succ_self _)
  rw [List.append_nil] at hall
  have hkey := (readsKey_dumpText hname).again false [] (0x3a :: (first ++ more)) Spaces.nil
  rw [List.nil_append] at hkey
  have hobject : Json.fromMembers ((key, reread v) :: rereadMembers list) =
      (key, reread v) :: rereadMembers list := fromMembers_sorted (sorted_reread hsorted)
  refine @Reads.of_value ((0x3a :: (first ++ more)).length + 2) _ _ _ rfl ?_
  rw [value, scan_plain_mark rfl (by decide) (fun _ => rfl)]
  dsimp only
  rw [hkey]
  dsimp only
  rw [hall, Option.map_some, hobject]

mutual

/-- **What is written is read back.** -/
theorem reads_dump : ∀ v : Json, Stored toChars v → ∀ text, dump toChars v = .ok text →
    Reads text (reread v)
  | .null, _, text, h => by
      obtain rfl := Except.ok.inj h
      exact reads_literal rfl (by decide) rfl
  | .boolean true, _, text, h => by
      obtain rfl := Except.ok.inj h
      exact reads_literal rfl (by decide) rfl
  | .boolean false, _, text, h => by
      obtain rfl := Except.ok.inj h
      exact reads_literal rfl (by decide) rfl
  | .unsigned n, hstored, text, h => by
      obtain rfl := Except.ok.inj h
      exact reads_unsigned hstored
  | .integer (.ofNat n), hstored, text, h => by
      obtain rfl := Except.ok.inj h
      have hbound : n < 2 ^ 64 := by
        have hlt : (n : Int) < 2 ^ 63 := hstored.2
        omega
      exact reads_unsigned hbound
  | .integer (.negSucc n), hstored, text, h => by
      obtain rfl := Except.ok.inj h
      have hbound : n + 1 ≤ 2 ^ 63 := by
        have hle : -2 ^ 63 ≤ Int.negSucc n := hstored.1
        omega
      exact reads_negative hbound
  | .float x, hstored, text, h => by
      obtain rfl := Except.ok.inj h
      exact hstored
  | .string s, _, text, h => reads_string h
  | .array [], _, text, h => by
      obtain rfl := Except.ok.inj h
      exact @Reads.of_value 1 _ _ _ rfl rfl
  | .array (item :: items), hstored, text, h =>
      reads_array (reads_dump item hstored.1) (items_dump items hstored.2) h
  | .object [], _, text, h => by
      obtain rfl := Except.ok.inj h
      exact @Reads.of_value 1 _ _ _ rfl rfl
  | .object ((key, v) :: list), hstored, text, h =>
      reads_object hstored.1 (reads_dump v hstored.2.1) (members_dump list hstored.2.2) h

theorem items_dump : ∀ items : List Json, StoredItems toChars items → ItemsRead toChars items
  | [], _ => itemsRead_nil
  | item :: items, hstored =>
      itemsRead_cons (reads_dump item hstored.1) (items_dump items hstored.2)

theorem members_dump : ∀ list : List (Bytes × Json), StoredMembers toChars list →
    MembersRead toChars list
  | [], _ => membersRead_nil
  | (_, v) :: list, hstored =>
      membersRead_cons (reads_dump v hstored.1) (members_dump list hstored.2)

end

end ReadBack

/-! ## What can be written -/

section Writable
variable (toChars : Binary64 → Bytes)

/-- The writer does not throw. -/
def Written (x : Except Bytes Bytes) : Prop := ∃ text, x = .ok text

theorem written_dumpText {text : Bytes} : Written (dumpText text) ↔ validUtf8 text = true :=
  ⟨fun ⟨_, h⟩ => (dumpText_eq_ok.mp h).1, fun h => ⟨_, dumpText_eq_ok.mpr ⟨h, rfl⟩⟩⟩

theorem written_bind {x : Except Bytes Bytes} {f : Bytes → Except Bytes Bytes} {p : Prop}
    (h : ∀ text, Written (f text) ↔ p) : Written (x >>= f) ↔ Written x ∧ p := by
  constructor
  · rintro ⟨text, htext⟩
    obtain ⟨first, hfirst, hrest⟩ := bind_eq_ok.mp htext
    exact ⟨⟨first, hfirst⟩, (h first).mp ⟨text, hrest⟩⟩
  · rintro ⟨⟨first, hfirst⟩, hp⟩
    obtain ⟨text, hrest⟩ := (h first).mpr hp
    exact ⟨text, bind_eq_ok.mpr ⟨first, hfirst, hrest⟩⟩

theorem written_map {x : Except Bytes Bytes} {f : Bytes → Bytes} :
    Written (x >>= fun text => .ok (f text)) ↔ Written x :=
  (written_bind fun text => iff_of_true ⟨f text, rfl⟩ trivial).trans (iff_of_eq (and_true _))

theorem written_ok {text : Bytes} : Written (.ok text) := ⟨text, rfl⟩

mutual

theorem written_dump : ∀ v : Json, Written (dump toChars v) ↔ Utf8 v
  | .null => iff_of_true written_ok trivial
  | .boolean true => iff_of_true written_ok trivial
  | .boolean false => iff_of_true written_ok trivial
  | .unsigned _ => iff_of_true written_ok trivial
  | .integer _ => iff_of_true written_ok trivial
  | .float _ => iff_of_true written_ok trivial
  | .string _ => written_dumpText
  | .array [] => iff_of_true written_ok trivial
  | .array (item :: items) => (written_bind fun _ => written_map).trans
      (and_congr (written_dump item) (written_dumpItems items))
  | .object [] => iff_of_true written_ok trivial
  | .object ((_, v) :: members) => (written_bind fun _ => written_bind fun _ => written_map).trans
      (and_congr written_dumpText (and_congr (written_dump v) (written_dumpMembers members)))

theorem written_dumpItems : ∀ items : List Json,
    Written (dumpItems toChars items) ↔ Utf8Items items
  | [] => iff_of_true written_ok trivial
  | item :: items => (written_bind fun _ => written_map).trans
      (and_congr (written_dump item) (written_dumpItems items))

theorem written_dumpMembers : ∀ members : List (Bytes × Json),
    Written (dumpMembers toChars members) ↔ Utf8Members members
  | [] => iff_of_true written_ok trivial
  | (_, v) :: members => (written_bind fun _ => written_bind fun _ => written_map).trans
      (and_congr written_dumpText (and_congr (written_dump v) (written_dumpMembers members)))

end

end Writable

end Nlohmann

namespace Cpp
open ByteText Nlohmann

/-- `json_body`; `dump` throws an exception of the library. -/
def jsonText (toChars : Binary64 → Bytes) (value : Json) : Except Failure Bytes :=
  match dump toChars value with
  | .ok text => .ok text
  | .error what => .error (.other what)

/-- **What `json_body` writes, `parse_json` reads**: it fails for texts that are not UTF-8 and for
no others, and an integer that is not negative comes back as an unsigned one. -/
theorem parseJson_jsonText {toChars : Binary64 → Bytes} {value : Json}
    (hstored : Stored toChars value) (what : Bytes → Bytes) (context : Bytes) :
    ((∃ text, jsonText toChars value = .ok text) ↔ Utf8 value) ∧
      ∀ text, jsonText toChars value = .ok text →
        parseJson what text context = .ok (reread value) := by
  have hok : ∀ text, jsonText toChars value = .ok text ↔ dump toChars value = .ok text := by
    intro text
    unfold jsonText
    cases dump toChars value with
    | error what => simp
    | ok written => simp
  simp only [hok]
  exact ⟨written_dump toChars value,
    fun text htext => parseJson_eq_ok.mpr ((reads_dump value hstored text htext).parse true)⟩

/-- A value with a name and a text that need escapes, and with integers of both signs. -/
def sampleJson : Json :=
  .object [(ascii "a\"b", .string [0x0a, 0xc3, 0xa9]),
    (ascii "c", .array [.integer 5, .integer (-5)])]

theorem parseJson_jsonText_sample :
    ((∃ text, jsonText (fun _ => []) sampleJson = .ok text) ↔ Utf8 sampleJson) ∧
      ∀ text, jsonText (fun _ => []) sampleJson = .ok text →
        parseJson id text [] = .ok (reread sampleJson) := by
  have hsorted : Sorted [(ascii "a\"b", .string [0x0a, 0xc3, 0xa9]),
      (ascii "c", .array [.integer 5, .integer (-5)])] :=
    List.pairwise_pair.mpr (by decide)
  have hstored : Stored (fun _ => []) sampleJson :=
    ⟨hsorted, trivial, ⟨⟨by decide, by decide⟩, ⟨by decide, by decide⟩, trivial⟩, trivial⟩
  exact parseJson_jsonText hstored id []

end Cpp
end SwmSdk
