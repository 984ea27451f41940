import SwmSdk.JsonSpan

/-! # The walk over offsets

`extract_json_member_raw` as the source has it, on offsets into the document: a read behind the
end of the input is a fault, and so is a loop that has not ended after so many turns.  With
more turns than the document has bytes no fault is met, and the result is that of the walk
over what is left of the document (`extractJsonMemberRaw_eq`).
-/
namespace SwmSdk
open ByteText JsonText JsonGrammar

namespace Cpp
namespace Offsets

/-- What must not happen: a read outside the input, and a loop without an end. -/
inductive Fault where
  | outOfRange
  | unfinished
  deriving DecidableEq, Repr

/-- `value[offset]`. -/
def byteAt (value : Bytes) (offset : Nat) : Except Fault UInt8 :=
  match value[offset]? with
  | some b => .ok b
  | none => .error .outOfRange

/-- The bytes from one offset to another. -/
def slice (value : Bytes) (first last : Nat) : Except Fault Bytes :=
  if first ≤ last ∧ last ≤ value.length then .ok ((value.drop first).take (last - first))
  else .error .outOfRange

section Walk
variable (value : Bytes)

/-- `skip_json_whitespace`. -/
def skipJsonWhitespace : Nat → Nat → Except Fault Nat
  | 0, _ => .error .unfinished
  | fuel + 1, offset =>
      if offset < value.length then do
        let b ← byteAt value offset
        if isSpace b then skipJsonWhitespace fuel (offset + 1) else .ok offset
      else .ok offset

/-- The loop of `scan_json_string`; `npos` is `none`. -/
def scanStringLoop : Nat → (escaped : Bool) → Nat → Except Fault (Option Nat)
  | 0, _, _ => .error .unfinished
  | fuel + 1, escaped, offset =>
      if offset < value.length then do
        let character ← byteAt value offset
        if escaped then scanStringLoop fuel false (offset + 1)
        else if character = 0x5c then scanStringLoop fuel true (offset + 1)
        else if character = 0x22 then .ok (some (offset + 1))
        else scanStringLoop fuel false (offset + 1)
      else .ok none

/-- `scan_json_string`. -/
def scanJsonString (fuel offset : Nat) : Except Fault (Option Nat) :=
  if value.length ≤ offset then .ok none
  else do
    let b ← byteAt value offset
    if b ≠ 0x22 then .ok none else scanStringLoop value fuel false (offset + 1)

/-- The first loop of `scan_json_value` over a scalar: up to a comma or a brace. -/
def scanScalar : Nat → Nat → Except Fault Nat
  | 0, _ => .error .unfinished
  | fuel + 1, offset =>
      if offset < value.length then do
        let b ← byteAt value offset
        if b ≠ 0x2c ∧ b ≠ 0x7d then scanScalar fuel (offset + 1) else .ok offset
      else .ok offset

/-- The second loop: back over white space. -/
def trimBack : Nat → Except Fault Nat
  | 0 => .ok 0
  | offset + 1 => do
      let b ← byteAt value offset
      if isSpace b then trimBack offset else .ok (offset + 1)

/-- The loop of `scan_json_value` over an object or an array. -/
def scanNested : Nat → (closing : List UInt8) → Nat → Except Fault (Option Nat)
  | 0, _, _ => .error .unfinished
  | fuel + 1, closing, offset =>
      if offset < value.length then do
        let character ← byteAt value offset
        if character = 0x22 then
          match ← scanJsonString value fuel offset with
          | none => .ok none
          | some last => scanNested fuel closing last
        else if character = 0x7b ∨ character = 0x5b then
          scanNested fuel ((if character = 0x7b then 0x7d else 0x5d) :: closing) (offset + 1)
        else if character = 0x7d ∨ character = 0x5d then
          match closing with
          | [] => .ok none
          | top :: closing =>
              if top ≠ character then .ok none
              else if closing = [] then .ok (some (offset + 1))
              else scanNested fuel closing (offset + 1)
        else scanNested fuel closing (offset + 1)
      else .ok none

/-- `scan_json_value`. -/
def scanJsonValue (fuel offset : Nat) : Except Fault (Option Nat) :=
  if value.length ≤ offset then .ok none
  else do
    let b ← byteAt value offset
    if b = 0x22 then scanJsonString value fuel offset
    else if b ≠ 0x7b ∧ b ≠ 0x5b then do
      let last ← scanScalar value fuel offset
      let last ← trimBack value last
      .ok (some last)
    else scanNested value fuel [] offset

end Walk

/-- The loop of `extract_json_member_raw`. -/
def memberRaw (document member : Bytes) : Nat → Nat → Except Fault (Option Bytes)
  | 0, _ => .error .unfinished
  | fuel + 1, offset => do
      let keyBegin ← skipJsonWhitespace document fuel offset
      if document.length ≤ keyBegin then .ok none
      else do
        let b ← byteAt document keyBegin
        if b = 0x7d then .ok none
        else do
          match ← scanJsonString document fuel keyBegin with
          | none => .ok none
          | some keyEnd => do
              let keyText ← slice document keyBegin keyEnd
              match keyOf keyText with
              | none => .ok none
              | some key => do
                  let colon ← skipJsonWhitespace document fuel keyEnd
                  if document.length ≤ colon then .ok none
                  else do
                    let b ← byteAt document colon
                    if b ≠ 0x3a then .ok none
                    else do
                      let valueBegin ← skipJsonWhitespace document fuel (colon + 1)
                      match ← scanJsonValue document fuel valueBegin with
                      | none => .ok none
                      | some valueEnd =>
                          if valueEnd < valueBegin then .ok none
                          else if key = member then
                            (slice document valueBegin valueEnd).map some
                          else do
                            let next ← skipJsonWhitespace document fuel valueEnd
                            if document.length ≤ next then .ok none
                            else do
                              let b ← byteAt document next
                              if b = 0x2c then memberRaw document member fuel (next + 1)
                              else .ok none

/-- `extract_json_member_raw`, with so many turns for each loop. -/
def extractJsonMemberRaw (fuel : Nat) (document member : Bytes) : Except Fault (Option Bytes) := do
  let offset ← skipJsonWhitespace document fuel 0
  if document.length ≤ offset then .ok none
  else do
    let b ← byteAt document offset
    if b ≠ 0x7b then .ok none else memberRaw document member fuel (offset + 1)

/-! ## What is left of the document at an offset -/

/-- These bytes are left at the offset. -/
structure At (value : Bytes) (offset : Nat) (rest : Bytes) : Prop where
  le : offset ≤ value.length
  drop : value.drop offset = rest

section At
variable {value : Bytes} {offset : Nat} {rest : Bytes}

theorem At.start (value : Bytes) : At value 0 value := ⟨Nat.zero_le _, rfl⟩

theorem At.length (h : At value offset rest) : offset + rest.length = value.length := by
  have hlength := congrArg List.length h.drop
  rw [List.length_drop] at hlength
  have := h.le
  omega

theorem At.nil (h : At value offset []) : offset = value.length := h.length

theorem At.lt {b : UInt8} (h : At value offset (b :: rest)) : offset < value.length := by
  have := h.length
  rw [List.length_cons] at this
  omega

theorem At.byteAt {b : UInt8} (h : At value offset (b :: rest)) : byteAt value offset = .ok b := by
  have hget : value[offset]? = some b := by
    rw [← List.head?_drop, h.drop]
    rfl
  rw [Offsets.byteAt, hget]

theorem At.append {text : Bytes} (h : At value offset (text ++ rest)) :
    At value (offset + text.length) rest := by
  have hlength := h.length
  rw [List.length_append] at hlength
  refine ⟨by omega, ?_⟩
  rw [← List.drop_drop, h.drop, List.drop_left]

theorem At.next {b : UInt8} (h : At value offset (b :: rest)) : At value (offset + 1) rest :=
  @At.append value offset rest [b] h

theorem At.slice {text : Bytes} (h : At value offset (text ++ rest)) :
    slice value offset (offset + text.length) = .ok text := by
  have hlength := h.length
  rw [List.length_append] at hlength
  rw [Offsets.slice, if_pos ⟨Nat.le_add_right _ _, by omega⟩, h.drop, Nat.add_sub_cancel_left,
    List.take_left]

end At

/-! ## The loops -/

section Loops
variable {value : Bytes}

theorem skipJsonWhitespace_eq {fuel offset : Nat} {rest : Bytes} (h : At value offset rest)
    (hfuel : rest.length < fuel) :
    skipJsonWhitespace value fuel offset = .ok (offset + (rest.takeWhile isSpace).length) := by
  induction rest generalizing fuel offset with
  | nil =>
    obtain ⟨fuel, rfl⟩ := Nat.exists_eq_succ_of_ne_zero (Nat.ne_of_gt hfuel)
    rw [Nat.succ_eq_add_one, skipJsonWhitespace, if_neg (by rw [h.nil]; exact Nat.lt_irrefl _)]
    rfl
  | cons b rest ih =>
    obtain ⟨fuel, rfl⟩ := Nat.exists_eq_succ_of_ne_zero (Nat.ne_of_gt (Nat.zero_lt_of_lt hfuel))
    rw [List.length_cons] at hfuel
    rw [Nat.succ_eq_add_one, skipJsonWhitespace, if_pos h.lt, h.byteAt]
    change (if isSpace b then _ else _) = _
    by_cases hb : isSpace b = true
    · rw [if_pos hb, ih h.next (by omega), List.takeWhile_cons_of_pos hb, List.length_cons,
        Nat.add_right_comm, Nat.add_assoc]
    · rw [if_neg hb, List.takeWhile_cons_of_neg hb]
      rfl

/-- Where the white space ends. -/
theorem At.skip {offset : Nat} {rest : Bytes} (h : At value offset rest) :
    At value (offset + (rest.takeWhile isSpace).length) (Cpp.skipJsonWhitespace rest) := by
  have hsplit : rest.takeWhile isSpace ++ Cpp.skipJsonWhitespace rest = rest :=
    List.takeWhile_append_dropWhile
  rw [← hsplit] at h
  exact h.append

/-- Where a result ends that follows a text. -/
theorem passed_map (offset : Nat) (text : Bytes) (result : Option (Bytes × Bytes)) :
    (result.map fun found => offset + text.length + found.1.length) =
      (passed text result).map fun found => offset + found.1.length := by
  cases result with
  | none => rfl
  | some found => simp [passed, Nat.add_assoc]

theorem scanStringLoop_eq {fuel offset : Nat} {rest : Bytes} {escaped : Bool}
    (h : At value offset rest) (hfuel : rest.length < fuel) :
    scanStringLoop value fuel escaped offset =
      .ok ((Cpp.scanStringLoop escaped rest).map fun found => offset + found.1.length) := by
  induction rest generalizing fuel offset escaped with
  | nil =>
    obtain ⟨fuel, rfl⟩ := Nat.exists_eq_succ_of_ne_zero (Nat.ne_of_gt hfuel)
    rw [Nat.succ_eq_add_one, scanStringLoop, if_neg (by rw [h.nil]; exact Nat.lt_irrefl _)]
    cases escaped <;> rfl
  | cons b rest ih =>
    obtain ⟨fuel, rfl⟩ := Nat.exists_eq_succ_of_ne_zero (Nat.ne_of_gt (Nat.zero_lt_of_lt hfuel))
    rw [List.length_cons] at hfuel
    rw [Nat.succ_eq_add_one, scanStringLoop, if_pos h.lt, h.byteAt]
    change (if escaped = true then _ else _) = _
    cases escaped with
    | true =>
      rw [if_pos rfl, ih h.next (by omega), Cpp.scanStringLoop, ← passed_map]
      rfl
    | false =>
      rw [if_neg Bool.false_ne_true, Cpp.scanStringLoop]
      split
      · rw [ih h.next (by omega), ← passed_map]
        rfl
      · split
        · rfl
        · rw [ih h.next (by omega), ← passed_map]
          rfl

theorem scanJsonString_eq {fuel offset : Nat} {rest : Bytes} (h : At value offset rest)
    (hfuel : rest.length ≤ fuel) :
    scanJsonString value fuel offset =
      .ok ((Cpp.scanJsonString rest).map fun found => offset + found.1.length) := by
  cases rest with
  | nil =>
    rw [scanJsonString, if_pos (Nat.le_of_eq h.nil.symm)]
    rfl
  | cons b rest =>
    rw [List.length_cons] at hfuel
    rw [scanJsonString, if_neg (Nat.not_le.mpr h.lt), h.byteAt]
    change (if b ≠ 0x22 then _ else _) = _
    by_cases hb : b = 0x22
    · subst hb
      rw [if_neg (not_not_intro rfl), scanStringLoop_eq h.next (by omega), Cpp.scanJsonString,
        ← passed_map]
      rfl
    · rw [if_pos hb, Cpp.scanJsonString.eq_2]
      · rfl
      · rintro tail he
        exact hb (List.cons.inj he).1

/-- A string has an opening quote. -/
theorem scanJsonString_cons {s text rest : Bytes} (h : Cpp.scanJsonString s = some (text, rest)) :
    ∃ more, text = 0x22 :: more := by
  unfold Cpp.scanJsonString at h
  split at h
  · obtain ⟨⟨more, out⟩, -, he⟩ := Option.map_eq_some_iff.mp h
    exact ⟨more, (Prod.mk.inj he).1.symm⟩
  · cases h

theorem scanNested_eq {fuel turns offset : Nat} {rest : Bytes} {closing : List UInt8}
    (h : At value offset rest) (hfuel : rest.length < fuel) (hturns : rest.length < turns) :
    scanNested value fuel closing offset =
      .ok ((Cpp.scanNested turns closing rest).map fun found => offset + found.1.length) := by
  induction fuel generalizing turns offset rest closing with
  | zero => exact absurd hfuel (Nat.not_lt_zero _)
  | succ fuel ih =>
    obtain ⟨turns, rfl⟩ := Nat.exists_eq_succ_of_ne_zero (Nat.ne_of_gt (Nat.zero_lt_of_lt hturns))
    cases rest with
    | nil =>
      rw [scanNested, if_neg (by rw [h.nil]; exact Nat.lt_irrefl _)]
      rfl
    | cons b rest =>
      rw [List.length_cons] at hfuel hturns
      have step : ∀ closing, scanNested value fuel closing (offset + 1) =
          .ok ((passed [b] (Cpp.scanNested turns closing rest)).map
            fun found => offset + found.1.length) := by
        intro closing
        have hrest : rest.length < turns := by omega
        rw [ih h.next (by omega) hrest, ← passed_map]
        rfl
      rw [scanNested, if_pos h.lt, h.byteAt, Nat.succ_eq_add_one, Cpp.scanNested.eq_def]
      change (if b = 0x22 then _ else _) = _
      dsimp only
      by_cases hquote : b = 0x22
      · have hstring := scanJsonString_eq h (Nat.le_of_lt_succ hfuel)
        rw [if_pos hquote, if_pos hquote, hstring]
        cases hfound : Cpp.scanJsonString (b :: rest) with
        | none => rfl
        | some found =>
          obtain ⟨text, out⟩ := found
          obtain ⟨more, htext⟩ := scanJsonString_cons hfound
          have hsplit := scanJsonString_split hfound
          have hlength := congrArg List.length hsplit
          rw [htext, List.length_cons, List.length_append, List.length_cons] at hlength
          rw [hsplit] at h
          change scanNested value fuel closing (offset + text.length) = .ok (Option.map _
            (passed text (Cpp.scanNested turns closing out)))
          have hout : out.length < turns := by omega
          rw [ih h.append (by omega) hout, ← passed_map]
      rw [if_neg hquote, if_neg hquote]
      by_cases hopen : b = 0x7b ∨ b = 0x5b
      · rw [if_pos hopen, if_pos hopen]
        exact step _
      rw [if_neg hopen, if_neg hopen]
      by_cases hclose : b = 0x7d ∨ b = 0x5d
      · rw [if_pos hclose, if_pos hclose]
        cases closing with
        | nil => rfl
        | cons top closing =>
          dsimp only
          split
          · rfl
          · split
            · rfl
            · exact step _
      · rw [if_neg hclose, if_neg hclose]
        exact step _

theorem scanScalar_eq {fuel offset : Nat} {rest : Bytes} (h : At value offset rest)
    (hfuel : rest.length < fuel) :
    scanScalar value fuel offset =
      .ok (offset + (rest.takeWhile fun c => c ≠ 0x2c && c ≠ 0x7d).length) := by
  induction rest generalizing fuel offset with
  | nil =>
    obtain ⟨fuel, rfl⟩ := Nat.exists_eq_succ_of_ne_zero (Nat.ne_of_gt hfuel)
    rw [Nat.succ_eq_add_one, scanScalar, if_neg (by rw [h.nil]; exact Nat.lt_irrefl _)]
    rfl
  | cons b rest ih =>
    obtain ⟨fuel, rfl⟩ := Nat.exists_eq_succ_of_ne_zero (Nat.ne_of_gt (Nat.zero_lt_of_lt hfuel))
    rw [List.length_cons] at hfuel
    rw [Nat.succ_eq_add_one, scanScalar, if_pos h.lt, h.byteAt]
    change (if b ≠ 0x2c ∧ b ≠ 0x7d then _ else _) = _
    by_cases hb : b ≠ 0x2c ∧ b ≠ 0x7d
    · rw [if_pos hb, ih h.next (by omega), List.takeWhile_cons_of_pos (by simpa using hb),
        List.length_cons, Nat.add_right_comm, Nat.add_assoc]
    · rw [if_neg hb, List.takeWhile_cons_of_neg (by simpa using hb)]
      rfl

/-- Going back over white space never leaves the input. -/
theorem trimBack_eq {offset : Nat} (h : offset ≤ value.length) :
    trimBack value offset = .ok ((value.take offset).rdropWhile isSpace).length := by
  induction offset with
  | zero => rfl
  | succ offset ih =>
    obtain ⟨b, hb⟩ : ∃ b, value[offset]? = some b := ⟨value[offset], List.getElem?_eq_getElem h⟩
    have htake : value.take (offset + 1) = value.take offset ++ [b] := by
      rw [List.take_add_one, hb]
      rfl
    rw [trimBack, byteAt, hb]
    change (if isSpace b then _ else _) = _
    rw [htake]
    by_cases hspace : isSpace b = true
    · rw [if_pos hspace, ih (by omega), List.rdropWhile_concat_pos _ _ _ hspace]
    · rw [if_neg hspace, List.rdropWhile_concat_neg _ _ _ hspace]
      simp
      omega

/-- White space is taken from a text only if all of the text behind it is white space. -/
theorem rdropWhile_append {front text : Bytes} {b : UInt8} (hb : b ∈ text)
    (hspace : isSpace b = false) :
    (front ++ text).rdropWhile isSpace = front ++ text.rdropWhile isSpace := by
  have hne : ¬ (text.reverse.dropWhile isSpace).isEmpty = true := by
    rw [List.isEmpty_iff, List.dropWhile_eq_nil_iff]
    intro hall
    exact absurd (hall b (List.mem_reverse.mpr hb)) (by simp [hspace])
  rw [List.rdropWhile, List.reverse_append, List.dropWhile_append, if_neg hne, List.reverse_append,
    List.reverse_reverse, List.rdropWhile]

theorem At.take {offset : Nat} {text rest : Bytes} (h : At value offset (text ++ rest)) :
    value.take (offset + text.length) = value.take offset ++ text := by
  rw [List.take_add, h.drop, List.take_left]

/-- The value ends where the walk over what is left ends it; an end before its start stands for
no end. -/
theorem scanJsonValue_eq {fuel offset : Nat} {rest front : Bytes} {before : UInt8}
    (h : At value offset rest) (hfuel : rest.length < fuel)
    (hstart : ∀ b ∈ rest.head?, isSpace b = false)
    (hfront : value.take offset = front ++ [before]) :
    ∃ found, scanJsonValue value fuel offset = .ok found ∧
      found.filter (offset ≤ ·) =
        (Cpp.scanJsonValue (isSpace before) rest).map fun found => offset + found.1.length := by
  have keep : ∀ result : Option (Bytes × Bytes),
      (result.map fun found => offset + found.1.length).filter (offset ≤ ·) =
        result.map fun found => offset + found.1.length := by
    intro result
    cases result with
    | none => rfl
    | some found => simp
  cases rest with
  | nil =>
    refine ⟨none, ?_, rfl⟩
    rw [scanJsonValue, if_pos (Nat.le_of_eq h.nil.symm)]
  | cons b rest =>
    have hb : isSpace b = false := hstart b rfl
    rw [scanJsonValue, if_neg (Nat.not_le.mpr h.lt), h.byteAt, Cpp.scanJsonValue]
    by_cases hquote : b = 0x22
    · refine ⟨_, ?_, keep _⟩
      change (if b = 0x22 then _ else _) = _
      rw [if_pos hquote, if_pos hquote]
      exact scanJsonString_eq h hfuel.le
    rw [if_neg hquote]
    by_cases hscalar : b ≠ 0x7b ∧ b ≠ 0x5b
    · rw [if_pos hscalar]
      have hscan := scanScalar_eq h hfuel
      have hsplit := List.takeWhile_append_dropWhile
        (p := fun c => c ≠ (0x2c : UInt8) && c ≠ 0x7d) (l := b :: rest)
      generalize htaken : (b :: rest).takeWhile (fun c => c ≠ 0x2c && c ≠ 0x7d) = taken at *
      rw [← hsplit] at h
      have hlength := h.append.le
      refine ⟨some ((value.take (offset + taken.length)).rdropWhile isSpace).length, ?_, ?_⟩
      · change (if b = 0x22 then _ else _) = _
        rw [if_neg hquote, if_pos hscalar, hscan]
        change (trimBack value (offset + taken.length)).bind _ = _
        rw [trimBack_eq hlength]
        rfl
      · have hoffset := congrArg List.length hfront
        rw [List.length_take, Nat.min_eq_left h.le, List.length_append,
          List.length_singleton] at hoffset
        rw [h.take]
        cases htext : taken with
        | nil =>
          dsimp only
          rw [List.append_nil, hfront]
          by_cases hspace : isSpace before = true
          · -- the end is moved back over the white space before the value
            have hle := (List.rdropWhile_prefix isSpace front).length_le
            rw [List.rdropWhile_concat_pos _ _ _ hspace, if_pos ⟨rfl, hspace⟩]
            simp
            omega
          · rw [List.rdropWhile_concat_neg _ _ _ hspace, if_neg (fun hnot => hspace hnot.2)]
            simp [trimEnd, hoffset]
        | cons c more =>
          obtain rfl : c = b := by
            rw [htext, List.cons_append] at hsplit
            exact (List.cons.inj hsplit).1
          dsimp only
          rw [if_neg (fun hnil => List.cons_ne_nil _ _ hnil.1),
            rdropWhile_append List.mem_cons_self hb]
          simp [trimEnd, Nat.min_eq_left h.le]
    · rw [if_neg hscalar]
      refine ⟨_, ?_, keep _⟩
      change (if b = 0x22 then _ else _) = _
      rw [if_neg hquote, if_neg hscalar]
      exact scanNested_eq h hfuel (by simp)

end Loops

/-! ## The whole walk -/

/-- White space is not followed by white space. -/
theorem head_skip (rest : Bytes) :
    ∀ b ∈ (Cpp.skipJsonWhitespace rest).head?, isSpace b = false := by
  intro b hb
  have hnot := List.head?_dropWhile_not isSpace rest
  rw [Cpp.skipJsonWhitespace] at hb
  rw [Option.mem_def.mp hb] at hnot
  exact hnot

/-- The byte before a value is a colon, or white space that was passed over. -/
theorem At.before {document : Bytes} {colon : Nat} {rest : Bytes}
    (h : At document colon (0x3a :: rest)) :
    ∃ front before,
      document.take (colon + 1 + (rest.takeWhile isSpace).length) = front ++ [before] ∧
        isSpace before = decide ((Cpp.skipJsonWhitespace rest).length < rest.length) := by
  have hrest : rest.takeWhile isSpace ++ Cpp.skipJsonWhitespace rest = rest :=
    List.takeWhile_append_dropWhile
  have hlength := congrArg List.length hrest
  rw [List.length_append] at hlength
  have hcolon : document.take (colon + 1) = document.take colon ++ [0x3a] :=
    @At.take document colon [0x3a] rest h
  rcases List.eq_nil_or_concat (rest.takeWhile isSpace) with hnil | ⟨front, last, hlast⟩
  · rw [hnil] at hlength ⊢
    refine ⟨document.take colon, 0x3a, hcolon, ?_⟩
    rw [← hlength]
    simp
    decide
  · have hspace : isSpace last = true :=
      spaces_takeWhile rest last (by rw [hlast]; simp)
    have hvalue := h.next
    rw [← hrest] at hvalue
    refine ⟨document.take (colon + 1) ++ front, last, ?_, ?_⟩
    · rw [hvalue.take, hlast, List.concat_eq_append, List.append_assoc]
    · rw [hspace, eq_comm, decide_eq_true_eq]
      rw [hlast, List.concat_eq_append, List.length_append, List.length_singleton] at hlength
      omega

theorem memberRaw_eq {document member : Bytes} {fuel turns offset : Nat} {rest : Bytes}
    (h : At document offset rest) (hfuel : rest.length + 1 < fuel)
    (hturns : rest.length < turns) :
    memberRaw document member fuel offset = .ok (Cpp.memberRaw member turns rest) := by
  induction fuel generalizing turns offset rest with
  | zero => exact absurd hfuel (Nat.not_lt_zero _)
  | succ fuel ih =>
    obtain ⟨turns, rfl⟩ := Nat.exists_eq_succ_of_ne_zero (Nat.ne_of_gt (Nat.zero_lt_of_lt hturns))
    have hskip := skipJsonWhitespace_eq h (Nat.lt_of_succ_lt_succ hfuel)
    rw [memberRaw, hskip, Nat.succ_eq_add_one, Cpp.memberRaw]
    have hkey := h.skip
    generalize offset + (rest.takeWhile isSpace).length = keyBegin at hkey
    change (if document.length ≤ keyBegin then _ else _) = _
    cases hrest : Cpp.skipJsonWhitespace rest with
    | nil =>
      rw [hrest] at hkey
      rw [if_pos (Nat.le_of_eq hkey.nil.symm)]
    | cons b more =>
      rw [hrest] at hkey
      have hmore : (b :: more).length ≤ rest.length := by
        rw [← hrest]
        exact (skip_suffix rest).length_le
      rw [if_neg (Nat.not_le.mpr hkey.lt), hkey.byteAt]
      change (if b = 0x7d then _ else _) = _
      dsimp only
      by_cases hend : b = 0x7d
      · rw [if_pos hend, if_pos hend]
      rw [if_neg hend, if_neg hend, scanJsonString_eq hkey (by omega)]
      cases hstring : Cpp.scanJsonString (b :: more) with
      | none => rfl
      | some found =>
        obtain ⟨keyText, afterKey⟩ := found
        have hsplit := scanJsonString_split hstring
        rw [hsplit] at hkey hmore
        rw [List.length_append] at hmore
        change ((slice document keyBegin (keyBegin + keyText.length)).bind fun keyText => _) = _
        rw [hkey.slice]
        rw [Option.bind_some]
        change (match keyOf keyText with | none => _ | some key => _) = _
        cases hname : keyOf keyText with
        | none => rfl
        | some key =>
          dsimp only
          rw [Option.bind_some]
          have hcolon := hkey.append.skip
          have hafter := (skip_suffix afterKey).length_le
          rw [skipJsonWhitespace_eq hkey.append (by omega)]
          generalize keyBegin + keyText.length + (afterKey.takeWhile isSpace).length = colon
            at hcolon
          change (if document.length ≤ colon then _ else _) = _
          cases hskipped : Cpp.skipJsonWhitespace afterKey with
          | nil =>
            rw [hskipped] at hcolon
            rw [if_pos (Nat.le_of_eq hcolon.nil.symm)]
          | cons c more =>
            rw [hskipped] at hcolon hafter
            rw [if_neg (Nat.not_le.mpr hcolon.lt), hcolon.byteAt]
            change (if c ≠ 0x3a then _ else _) = _
            by_cases hc : c = 0x3a
            · subst hc
              rw [List.length_cons] at hafter
              have hmiddle := (skip_suffix more).length_le
              obtain ⟨front, before, hfront, hspaced⟩ := hcolon.before
              have hvalue := hcolon.next.skip
              rw [if_neg (not_not_intro rfl), skipJsonWhitespace_eq hcolon.next (by omega)]
              generalize colon + 1 + (more.takeWhile isSpace).length = valueBegin at hfront hvalue
              have hturns' : (Cpp.skipJsonWhitespace more).length < fuel := by omega
              obtain ⟨found, hfound, hkeep⟩ :=
                scanJsonValue_eq hvalue hturns' (head_skip more) hfront
              change ((scanJsonValue document fuel valueBegin).bind fun found => _) =
                .ok ((Cpp.scanJsonValue
                  (decide ((Cpp.skipJsonWhitespace more).length < more.length))
                  (Cpp.skipJsonWhitespace more)).bind fun result => _)
              rw [hfound, ← hspaced]
              cases hlist : Cpp.scanJsonValue (isSpace before) (Cpp.skipJsonWhitespace more) with
              | none =>
                rw [hlist] at hkeep
                cases found with
                | none => rfl
                | some last =>
                  change (if last < valueBegin then _ else _) = _
                  have hlt : last < valueBegin := by simpa using hkeep
                  rw [if_pos hlt]
                  rfl
              | some result =>
                obtain ⟨text, out⟩ := result
                rw [hlist] at hkeep
                obtain ⟨rfl, -⟩ := Option.filter_eq_some_iff.mp hkeep
                have hout := scanJsonValue_split hlist
                rw [hout] at hvalue hmiddle
                rw [List.length_append] at hmiddle
                change (if valueBegin + text.length < valueBegin then _ else _) = _
                rw [if_neg (Nat.not_lt.mpr (Nat.le_add_right _ _)), Option.bind_some]
                dsimp only
                by_cases hmember : key = member
                · rw [if_pos hmember, if_pos hmember, hvalue.slice]
                  rfl
                rw [if_neg hmember, if_neg hmember,
                  skipJsonWhitespace_eq hvalue.append (by omega)]
                have hnext := hvalue.append.skip
                have hlast := (skip_suffix out).length_le
                generalize valueBegin + text.length + (out.takeWhile isSpace).length = next at hnext
                change (if document.length ≤ next then _ else _) = _
                cases hseparator : Cpp.skipJsonWhitespace out with
                | nil =>
                  rw [hseparator] at hnext
                  rw [if_pos (Nat.le_of_eq hnext.nil.symm)]
                | cons d tail =>
                  rw [hseparator] at hnext hlast
                  rw [List.length_cons] at hlast
                  rw [if_neg (Nat.not_le.mpr hnext.lt), hnext.byteAt]
                  change (if d = 0x2c then _ else _) = _
                  by_cases hd : d = 0x2c
                  · subst hd
                    have hturns' : tail.length < turns := by omega
                    rw [if_pos rfl]
                    exact ih hnext.next (by omega) hturns'
                  · rw [if_neg hd]
                    split
                    · rename_i he
                      exact absurd (List.cons.inj he).1 hd
                    · rfl
            · rw [if_pos hc]
              split
              · rename_i he
                exact absurd (List.cons.inj he).1 hc
              · rfl

/-- **No read leaves the document, every loop ends, and the result is that of the walk over
what is left.** -/
theorem extractJsonMemberRaw_eq {fuel : Nat} {document : Bytes} (hfuel : document.length + 1 < fuel)
    (member : Bytes) :
    extractJsonMemberRaw fuel document member =
      .ok (Cpp.extractJsonMemberRaw document member) := by
  have hskip := skipJsonWhitespace_eq (At.start document) (Nat.lt_of_succ_lt hfuel)
  have hopen := (At.start document).skip
  have hlength := (skip_suffix document).length_le
  rw [extractJsonMemberRaw, hskip, Cpp.extractJsonMemberRaw]
  generalize 0 + (document.takeWhile isSpace).length = offset at hopen
  change (if document.length ≤ offset then _ else _) = _
  cases hrest : Cpp.skipJsonWhitespace document with
  | nil =>
    rw [hrest] at hopen
    rw [if_pos (Nat.le_of_eq hopen.nil.symm)]
  | cons b rest =>
    rw [hrest] at hopen hlength
    rw [List.length_cons] at hlength
    rw [if_neg (Nat.not_le.mpr hopen.lt), hopen.byteAt]
    change (if b ≠ 0x7b then _ else _) = _
    by_cases hb : b = 0x7b
    · subst hb
      rw [if_neg (not_not_intro rfl)]
      exact memberRaw_eq hopen.next (by omega) (by omega)
    · rw [if_pos hb]
      split
      · rename_i he
        exact absurd (List.cons.inj he).1 hb
      · rfl

/-- The value of a name that occurs once. -/
theorem lookup_of_nodup {ms : List (Bytes × Bytes)} {member text : Bytes}
    (hnames : (ms.map Prod.fst).Nodup) (h : (member, text) ∈ ms) :
    ms.lookup member = some text := by
  obtain ⟨before, after, rfl⟩ := List.append_of_mem h
  refine List.lookup_eq_some_iff.mpr ⟨before, after, rfl, fun m hm => ?_⟩
  rw [List.map_append, List.map_cons] at hnames
  obtain ⟨-, -, hnot⟩ := List.nodup_append.mp hnames
  rw [bne_iff_ne]
  exact (hnot m.1 (List.mem_map_of_mem hm) member List.mem_cons_self).symm

/-- **The member is cut out exactly.**  On every input the walk ends and reads only inside it; on
the text of an object whose decoded names are distinct, it returns the text of the value
of the name, and nothing if the object has no such member. -/
theorem extractJsonMemberRaw_exact {fuel : Nat} {document : Bytes}
    (hfuel : document.length + 1 < fuel) (member : Bytes) :
    (∃ result, extractJsonMemberRaw fuel document member = .ok result ∧
      ∀ text ∈ result, text <:+: document) ∧
    ∀ ms, ObjectText document ms → (ms.map Prod.fst).Nodup →
      (∀ text, (member, text) ∈ ms →
        extractJsonMemberRaw fuel document member = .ok (some text)) ∧
      ((∀ text, (member, text) ∉ ms) →
        extractJsonMemberRaw fuel document member = .ok none) := by
  rw [extractJsonMemberRaw_eq hfuel]
  refine ⟨⟨_, rfl, fun text htext => extractJsonMemberRaw_isInfix htext⟩, fun ms hms hnames => ?_⟩
  rw [extractJsonMemberRaw_objectText hms]
  refine ⟨fun text htext => ?_, fun hnone => ?_⟩
  · rw [lookup_of_nodup hnames htext]
  · rw [List.lookup_eq_none_iff.mpr fun m hm => ?_]
    rw [bne_iff_ne]
    rintro rfl
    exact hnone m.2 hm

/-! The first name of the document is an escaped `a`, and the value of the other one a brace. -/

/-- A member whose name is written with an escape. -/
def escapedName : Piece where
  lead := []
  key := quoted (ascii "\\u0061")
  afterKey := ascii " "
  beforeValue := ascii " "
  value := ascii "1"
  trail := ascii " "

/-- A member whose text has a brace in it. -/
def bracedValue : Piece where
  lead := ascii " "
  key := quoted (ascii "b")
  afterKey := []
  beforeValue := []
  value := quoted (ascii "\x7d")
  trail := []

/-- An object of both. -/
def escapedDocument : Bytes :=
  ascii " " ++ 0x7b :: ((escapedName.text ++ 0x2c :: bracedValue.text) ++ 0x7d :: [])

theorem escapedDocument_text :
    ObjectText escapedDocument [(ascii "a", ascii "1"), (ascii "b", quoted (ascii "\x7d"))] := by
  have hspace : Spaces (ascii " ") := List.forall_mem_singleton.mpr rfl
  have hescape : Decodes (ascii "\\u0061") (ascii "a") :=
    @Decodes.unicode 0x30 0x30 0x36 0x31 (Char.ofNat 0x61) [] [] (by decide) .nil
  have hletter : Decodes (ascii "b") (ascii "b") :=
    @Decodes.plain (Char.ofNat 0x62) [] [] (by unfold Unescaped; decide) .nil
  have hbrace : StringText (ascii "\x7d") :=
    @StringText.plain (Char.ofNat 0x7d) [] (by unfold Unescaped; decide) .nil
  have hone : NumberText (ascii "1") :=
    ⟨[], ascii "1", [], [], rfl, .inl rfl,
      .inr ⟨0x31, [], rfl, by unfold DigitFrom; decide, by simp⟩, .inl rfl, .inl rfl⟩
  have hmembers : Derives
      (.members [(ascii "\\u0061", ascii "1"), (ascii "b", quoted (ascii "\x7d"))])
      (escapedName.text ++ 0x2c :: bracedValue.text) :=
    @Derives.moreMembers escapedName _ _ _ .nil rfl hescape.stringText hspace hspace
      (.number hone) hspace
      (@Derives.member bracedValue _ hspace rfl hletter.stringText .nil .nil (.string hbrace) .nil)
  exact .members hspace hmembers .nil (.cons ⟨hescape, rfl⟩ (.cons ⟨hletter, rfl⟩ .nil))

/-- The value of the escaped name is found, and that of the other name with its brace; a name
that no member has is not found. -/
theorem escapedDocument_exact :
    extractJsonMemberRaw 30 escapedDocument (ascii "a") = .ok (some (ascii "1")) ∧
      extractJsonMemberRaw 30 escapedDocument (ascii "b") = .ok (some (quoted (ascii "\x7d"))) ∧
      extractJsonMemberRaw 30 escapedDocument (ascii "c") = .ok none := by
  have hfuel : escapedDocument.length + 1 < 30 := by decide
  have hnames : ([(ascii "a", ascii "1"), (ascii "b", quoted (ascii "\x7d"))].map
      Prod.fst).Nodup := by decide
  refine ⟨?_, ?_, ?_⟩
  · exact ((extractJsonMemberRaw_exact hfuel _).2 _ escapedDocument_text hnames).1 _ (by decide)
  · exact ((extractJsonMemberRaw_exact hfuel _).2 _ escapedDocument_text hnames).1 _ (by decide)
  · refine ((extractJsonMemberRaw_exact hfuel _).2 _ escapedDocument_text hnames).2 fun text h => ?_
    have hname : ascii "c" ∈ [ascii "a", ascii "b"] := List.mem_map_of_mem (f := Prod.fst) h
    exact absurd hname (by decide)

end Offsets
end Cpp
end SwmSdk
