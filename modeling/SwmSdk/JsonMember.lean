import SwmSdk.Nlohmann
import SwmSdk.Types

/-! # A response, as it was sent and as it is read

A response is signed over the bytes of its `data` member, so the C++ SDK looks the
member up twice: `Json::parse` builds the value, and `extract_json_member_raw`
walks over the text and cuts out the bytes.  The walk knows quotes and brackets,
but not comments, and stops at the first member of the name.

`extractJsonMemberRaw_layout`: on an object without comments the walk finds the text
of the first member of the name.

`parse_json` ignores comments; the accessors of the value take an absent or null field as its
default and refuse a field of another type.  The text with which the JSON library describes what
it rejects is a parameter, `what`.
-/
namespace SwmSdk
open ByteText JsonText

namespace Cpp

/-! ## The walk -/

/-- `skip_json_whitespace`. -/
def skipJsonWhitespace (s : Bytes) : Bytes := s.dropWhile isSpace

/-- Put bytes that were passed over in front of a result. -/
def passed (text : Bytes) (result : Option (Bytes × Bytes)) : Option (Bytes × Bytes) :=
  result.map fun (more, rest) => (text ++ more, rest)

/-- The loop of `scan_json_string`: the text up to the closing quote, and the rest. -/
def scanStringLoop : (escaped : Bool) → Bytes → Option (Bytes × Bytes)
  | _, [] => none
  | true, b :: rest => passed [b] (scanStringLoop false rest)
  | false, b :: rest =>
      if b = 0x5c then passed [b] (scanStringLoop true rest)
      else if b = 0x22 then some ([b], rest)
      else passed [b] (scanStringLoop false rest)

/-- `scan_json_string`. -/
def scanJsonString : Bytes → Option (Bytes × Bytes)
  | 0x22 :: rest => passed [0x22] (scanStringLoop false rest)
  | _ => none

/-- The loop of `scan_json_value` over an object or an array, with the stack of the
brackets that are still to be closed. -/
def scanNested : Nat → (closing : List UInt8) → Bytes → Option (Bytes × Bytes)
  | 0, _, _ => none
  | _ + 1, _, [] => none
  | fuel + 1, closing, b :: rest =>
      if b = 0x22 then
        (scanJsonString (b :: rest)).bind fun (text, rest) =>
          passed text (scanNested fuel closing rest)
      else if b = 0x7b ∨ b = 0x5b then
        passed [b] (scanNested fuel ((if b = 0x7b then 0x7d else 0x5d) :: closing) rest)
      else if b = 0x7d ∨ b = 0x5d then
        match closing with
        | [] => none
        | top :: closing =>
            if top ≠ b then none
            else if closing = [] then some ([b], rest)
            else passed [b] (scanNested fuel closing rest)
      else passed [b] (scanNested fuel closing rest)

/-- The end of a scalar, without the white space before it. -/
def trimEnd (s : Bytes) : Bytes := s.rdropWhile isSpace

/-- `scan_json_value`.  The end of an empty scalar is moved back over white space
before it, and the caller refuses an end before the start. -/
def scanJsonValue (spaced : Bool) : Bytes → Option (Bytes × Bytes)
  | [] => none
  | b :: rest =>
      if b = 0x22 then scanJsonString (b :: rest)
      else if b ≠ 0x7b ∧ b ≠ 0x5b then
        let taken := (b :: rest).takeWhile fun c => c ≠ 0x2c && c ≠ 0x7d
        if taken = [] ∧ spaced = true then none
        else some (trimEnd taken, (b :: rest).drop (trimEnd taken).length)
      else scanNested (rest.length + 2) [] (b :: rest)

/-- `Json::parse(text).get<std::string>()`. -/
def keyOf (text : Bytes) : Option Bytes :=
  match Nlohmann.parse false text with
  | some (.string key) => some key
  | _ => none

/-- The loop of `extract_json_member_raw`, from a member on. -/
def memberRaw (member : Bytes) : Nat → Bytes → Option Bytes
  | 0, _ => none
  | fuel + 1, s =>
      match skipJsonWhitespace s with
      | [] => none
      | b :: rest =>
          if b = 0x7d then none
          else
            (scanJsonString (b :: rest)).bind fun (keyText, rest) =>
              (keyOf keyText).bind fun key =>
                match skipJsonWhitespace rest with
                | 0x3a :: rest =>
                    (scanJsonValue ((skipJsonWhitespace rest).length < rest.length)
                      (skipJsonWhitespace rest)).bind fun (text, rest) =>
                        if key = member then some text
                        else
                          match skipJsonWhitespace rest with
                          | 0x2c :: rest => memberRaw member fuel rest
                          | _ => none
                | _ => none

/-- `extract_json_member_raw`. -/
def extractJsonMemberRaw (document member : Bytes) : Option Bytes :=
  match skipJsonWhitespace document with
  | 0x7b :: rest => memberRaw member (document.length + 1) rest
  | _ => none

/-! ## What the walk finds -/

theorem skip_spaces {w s : Bytes} {b : UInt8} (hw : Spaces w) (hb : isSpace b = false) :
    skipJsonWhitespace (w ++ b :: s) = b :: s := by
  rw [skipJsonWhitespace, dropWhile_spaces hw, List.dropWhile_cons_of_neg (by simp [hb])]

theorem passed_passed (a b : Bytes) (result : Option (Bytes × Bytes)) :
    passed a (passed b result) = passed (a ++ b) result := by
  cases result with
  | none => rfl
  | some r => simp [passed, List.append_assoc]

theorem passed_nil (result : Option (Bytes × Bytes)) : passed [] result = result := by
  cases result with
  | none => rfl
  | some r => rfl

theorem scanStringLoop_body {body : Bytes} (h : StringBody body) (t : Bytes) :
    scanStringLoop false (body ++ 0x22 :: t) = some (body ++ [0x22], t) := by
  induction h with
  | nil => rfl
  | char hq hb _ ih =>
    rw [List.cons_append, scanStringLoop, if_neg hb, if_neg hq, ih]
    rfl
  | escape _ ih =>
    rw [List.cons_append, List.cons_append, scanStringLoop, if_pos rfl, scanStringLoop, ih]
    rfl

theorem scanJsonString_quoted {q : Bytes} (h : Quoted q) (t : Bytes) :
    scanJsonString (q ++ t) = some (q, t) := by
  obtain ⟨body, hbody, rfl⟩ := h
  rw [List.cons_append, List.append_assoc, List.singleton_append, scanJsonString,
    scanStringLoop_body hbody]
  rfl

section Steps
variable (fuel : Nat) (closing : List UInt8) (rest : Bytes)

theorem scanNested_plain {b : UInt8} (hb : isMark b = false) :
    scanNested (fuel + 1) closing (b :: rest) = passed [b] (scanNested fuel closing rest) := by
  simp only [isMark, Bool.or_eq_false_iff, decide_eq_false_iff_not] at hb
  obtain ⟨⟨⟨⟨h₁, h₂⟩, h₃⟩, h₄⟩, h₅⟩ := hb
  rw [scanNested.eq_def]
  simp only [if_neg h₁, if_neg (not_or.mpr ⟨h₂, h₄⟩), if_neg (not_or.mpr ⟨h₃, h₅⟩)]

theorem scanNested_quoted {q : Bytes} (hq : Quoted q) :
    scanNested (fuel + 1) closing (q ++ rest) = passed q (scanNested fuel closing rest) := by
  have hscan := scanJsonString_quoted hq rest
  obtain ⟨body, hbody, rfl⟩ := hq
  rw [List.cons_append] at hscan ⊢
  rw [scanNested.eq_def]
  simp only [if_true, hscan, Option.bind_some]

theorem scanNested_open {opened close : UInt8}
    (h : (opened = 0x7b ∧ close = 0x7d) ∨ (opened = 0x5b ∧ close = 0x5d)) :
    scanNested (fuel + 1) closing (opened :: rest) =
      passed [opened] (scanNested fuel (close :: closing) rest) := by
  rcases h with ⟨rfl, rfl⟩ | ⟨rfl, rfl⟩ <;> rfl

theorem scanNested_close {close : UInt8} (h : close = 0x7d ∨ close = 0x5d) :
    scanNested (fuel + 1) (close :: closing) (close :: rest) =
      if closing = [] then some ([close], rest)
      else passed [close] (scanNested fuel closing rest) := by
  rcases h with rfl | rfl <;> rfl

end Steps

/-- The number of steps in which text is passed over with a stack of brackets. -/
def Passes (closing : List UInt8) (i : Bytes) : Prop :=
  ∃ k, k ≤ i.length ∧ ∀ fuel t,
    scanNested (k + fuel) closing (i ++ t) = passed i (scanNested fuel closing t)

theorem Passes.bracketed {opened close : UInt8} {i t : Bytes} {closing : List UInt8}
    (h : (opened = 0x7b ∧ close = 0x7d) ∨ (opened = 0x5b ∧ close = 0x5d)) (hclosing : closing ≠ [])
    (hi : Passes (close :: closing) i) (ht : Passes closing t) :
    Passes closing (opened :: (i ++ close :: t)) := by
  obtain ⟨k, hk, hrun⟩ := hi
  obtain ⟨k', hk', hrun'⟩ := ht
  refine ⟨k + (k' + 1) + 1, ?_, fun fuel s => ?_⟩
  · simp only [List.length_cons, List.length_append]
    omega
  · have hclose : close = 0x7d ∨ close = 0x5d := h.imp And.right And.right
    rw [Nat.add_right_comm, List.cons_append, scanNested_open _ _ _ h, List.append_assoc,
      List.cons_append, Nat.add_assoc, hrun, Nat.add_right_comm, scanNested_close _ _ _ hclose,
      if_neg hclosing, hrun', passed_passed, passed_passed, passed_passed]
    simp

/-- **Balanced text is passed over**, inside at least one open bracket. -/
theorem scanNested_nested {i : Bytes} (h : Nested i) :
    ∀ {closing : List UInt8}, closing ≠ [] → Passes closing i := by
  induction h with
  | nil =>
    intro closing _
    exact ⟨0, Nat.le_refl _, fun fuel t => by rw [Nat.zero_add, List.nil_append, passed_nil]⟩
  | plain hb _ ih =>
    intro closing hclosing
    obtain ⟨k, hk, hrun⟩ := ih hclosing
    refine ⟨k + 1, Nat.succ_le_succ hk, fun fuel s => ?_⟩
    rw [Nat.add_right_comm, List.cons_append, scanNested_plain _ _ _ hb, hrun, passed_passed]
    rfl
  | quoted hq _ ih =>
    intro closing hclosing
    obtain ⟨k, hk, hrun⟩ := ih hclosing
    refine ⟨k + 1, ?_, fun fuel s => ?_⟩
    · obtain ⟨body, -, rfl⟩ := hq
      simp only [List.cons_append, List.length_cons, List.length_append]
      omega
    · rw [List.append_assoc, Nat.add_right_comm, scanNested_quoted _ _ _ hq, hrun, passed_passed]
  | braces _ _ ihi iht =>
    intro closing hclosing
    exact .bracketed (.inl ⟨rfl, rfl⟩) hclosing (ihi (List.cons_ne_nil _ _)) (iht hclosing)
  | brackets _ _ ihi iht =>
    intro closing hclosing
    exact .bracketed (.inr ⟨rfl, rfl⟩) hclosing (ihi (List.cons_ne_nil _ _)) (iht hclosing)

theorem takeWhile_scalar {v w r : Bytes} {c : UInt8} (hv : ∀ b ∈ v, isAtom b = true)
    (hw : Spaces w) (hc : c = 0x2c ∨ c = 0x7d) :
    (v ++ (w ++ c :: r)).takeWhile (fun b => b ≠ 0x2c && b ≠ 0x7d) = v ++ w := by
  have hall : ∀ b ∈ v ++ w, (b ≠ 0x2c && b ≠ 0x7d) = true := by
    intro b hb
    rcases List.mem_append.mp hb with hb | hb
    · obtain ⟨hmark, -, hcomma, -⟩ := isAtom_iff.mp (hv b hb)
      simp only [isMark, Bool.or_eq_false_iff, decide_eq_false_iff_not] at hmark
      simp [hcomma, hmark.1.1.2]
    · have := hw b hb
      simp only [isSpace, Bool.or_eq_true, decide_eq_true_eq] at this
      rcases this with ((rfl | rfl) | rfl) | rfl <;> rfl
  rw [← List.append_assoc, List.takeWhile_append_of_pos hall]
  rcases hc with rfl | rfl <;> simp

theorem scanJsonValue_bracketed {opened close : UInt8} {spaced : Bool} {i t : Bytes}
    (h : (opened = 0x7b ∧ close = 0x7d) ∨ (opened = 0x5b ∧ close = 0x5d)) (hi : Nested i) :
    scanJsonValue spaced (opened :: (i ++ [close]) ++ t) = some (opened :: (i ++ [close]), t) := by
  obtain ⟨k, hk, hrun⟩ := scanNested_nested hi (List.cons_ne_nil close [])
  have hclose : close = 0x7d ∨ close = 0x5d := h.imp And.right And.right
  have hopen : opened ≠ 0x22 ∧ ¬ (opened ≠ 0x7b ∧ opened ≠ 0x5b) := by
    rcases h with ⟨rfl, -⟩ | ⟨rfl, -⟩ <;> decide
  have hfuel : (i ++ [close] ++ t).length + 2 = k + (i.length - k + t.length + 1 + 1) + 1 := by
    simp only [List.length_append, List.length_singleton]
    omega
  rw [List.cons_append, scanJsonValue, if_neg hopen.1, if_neg hopen.2, hfuel,
    scanNested_open _ _ _ h, List.append_assoc, List.singleton_append, hrun,
    scanNested_close _ _ _ hclose, if_pos rfl]
  rfl

/-- **The text of a value is cut out of an object exactly.** -/
theorem scanJsonValue_shape {v t : Bytes} (spaced : Bool) (hv : ValueShape v)
    (ht : EndsMember t) : scanJsonValue spaced (v ++ t) = some (v, t) := by
  cases hv with
  | quoted hq =>
    have hscan := scanJsonString_quoted hq t
    obtain ⟨body, hbody, rfl⟩ := hq
    rw [List.cons_append] at hscan ⊢
    rw [scanJsonValue, if_pos rfl, hscan]
  | scalar hne hatoms =>
    obtain ⟨w, c, r, rfl, hw, hc⟩ := ht
    have htake := @takeWhile_scalar v w r c hatoms hw hc
    have htrim : trimEnd (v ++ w) = v := by
      obtain ⟨front, last, rfl, hlast⟩ := (ValueShape.scalar hne hatoms).last
      exact rdropWhile_spaces hlast hw
    obtain ⟨b, more, rfl⟩ := List.exists_cons_of_ne_nil hne
    obtain ⟨hmark, -⟩ := isAtom_iff.mp (hatoms b (List.mem_cons_self ..))
    simp only [isMark, Bool.or_eq_false_iff, decide_eq_false_iff_not] at hmark
    obtain ⟨⟨⟨⟨h₁, h₂⟩, -⟩, h₄⟩, -⟩ := hmark
    rw [List.cons_append] at htake ⊢
    rw [scanJsonValue, if_neg h₁, if_pos ⟨h₂, h₄⟩]
    simp only [htake, htrim]
    rw [if_neg (fun h => List.cons_ne_nil _ _ h.1), ← List.cons_append, List.drop_left]
  | object hi => exact scanJsonValue_bracketed (.inl ⟨rfl, rfl⟩) hi
  | array hi => exact scanJsonValue_bracketed (.inr ⟨rfl, rfl⟩) hi

theorem keyOf_reads {text key : Bytes} (h : Nlohmann.ReadsKey text key) :
    keyOf text = some key := by
  rw [keyOf, h.parse false]

/-- One member: its text is the result, or the walk goes on after it. -/
theorem memberRaw_step {p : Piece} {name : Bytes} (h : p.WellFormed)
    (hname : keyOf p.key = some name) (member rest : Bytes) (fuel : Nat) (ps : List Piece) :
    memberRaw member (fuel + 1) (p.text ++ renderRest ps rest) =
      if name = member then some p.value
      else
        match renderRest ps rest with
        | 0x2c :: more => memberRaw member fuel more
        | _ => none := by
  obtain ⟨body, -, hkey⟩ := h.key
  obtain ⟨b, more, hvalue, hspace, -⟩ := h.value.head
  have hlead : skipJsonWhitespace (p.text ++ renderRest ps rest) =
      p.key ++ (p.tail ++ renderRest ps rest) := by
    rw [Piece.text, List.append_assoc, List.append_assoc, hkey, List.cons_append,
      skip_spaces h.lead rfl]
  have hafter : skipJsonWhitespace (p.tail ++ renderRest ps rest) =
      0x3a :: (p.beforeValue ++ (p.value ++ (p.trail ++ renderRest ps rest))) := by
    rw [Piece.tail, List.append_assoc, List.cons_append, skip_spaces h.afterKey rfl]
    simp only [List.append_assoc]
  have hbefore :
      skipJsonWhitespace (p.beforeValue ++ (p.value ++ (p.trail ++ renderRest ps rest))) =
        p.value ++ (p.trail ++ renderRest ps rest) := by
    rw [hvalue, List.cons_append, skip_spaces h.beforeValue hspace]
  have htrail : skipJsonWhitespace (p.trail ++ renderRest ps rest) = renderRest ps rest := by
    cases ps with
    | nil => rw [renderRest, skip_spaces h.trail rfl]
    | cons q ps => rw [renderRest, skip_spaces h.trail rfl]
  have hstring := scanJsonString_quoted h.key (p.tail ++ renderRest ps rest)
  have hscan := fun spaced => scanJsonValue_shape spaced h.value
    (endsMember_renderRest h.trail ps rest)
  rw [memberRaw, hlead]
  rw [hkey, List.cons_append] at hstring ⊢
  dsimp only
  rw [if_neg (by decide), hstring, Option.bind_some, ← hkey, hname, Option.bind_some, hafter]
  change (scanJsonValue _ (skipJsonWhitespace (p.beforeValue ++ _))).bind _ = _
  rw [hbefore, hscan, Option.bind_some, htrail]

/-- **On an object without comments the walk finds the first member of the name**, and
nothing if there is none. -/
theorem memberRaw_layout {ps : List Piece} {p : Piece} {ms : List (Bytes × Json)}
    (h : List.Forall₂ Nlohmann.ReadsMember (p :: ps) ms) (member rest : Bytes) :
    ∀ fuel, ps.length < fuel →
      (∃ text v, (Json.valuesOf member ms).head? = some v ∧ Nlohmann.Reads text v ∧
        memberRaw member fuel (p.text ++ renderRest ps rest) = some text) ∨
      ((Json.valuesOf member ms).head? = none ∧
        memberRaw member fuel (p.text ++ renderRest ps rest) = none) := by
  induction ps generalizing p ms with
  | nil =>
    intro fuel hfuel
    obtain ⟨fuel, rfl⟩ := Nat.exists_eq_succ_of_ne_zero (Nat.ne_of_gt hfuel)
    cases h with
    | @cons _ m _ ms hread htail =>
      cases htail
      rw [Nat.succ_eq_add_one, memberRaw_step hread.wellFormed (keyOf_reads hread.key),
        Json.valuesOf_cons]
      by_cases hm : m.1 = member
      · rw [if_pos hm, if_pos hm]
        exact .inl ⟨p.value, m.2, rfl, hread.value, rfl⟩
      · rw [if_neg hm, if_neg hm]
        exact .inr ⟨rfl, rfl⟩
  | cons q ps ih =>
    intro fuel hfuel
    obtain ⟨fuel, rfl⟩ := Nat.exists_eq_succ_of_ne_zero (Nat.ne_of_gt (Nat.zero_lt_of_lt hfuel))
    cases h with
    | @cons _ m _ ms hread htail =>
      rw [Nat.succ_eq_add_one, memberRaw_step hread.wellFormed (keyOf_reads hread.key),
        Json.valuesOf_cons]
      by_cases hm : m.1 = member
      · rw [if_pos hm, if_pos hm]
        exact .inl ⟨p.value, m.2, rfl, hread.value, rfl⟩
      · rw [if_neg hm, if_neg hm]
        exact ih htail fuel (Nat.lt_of_succ_lt_succ hfuel)

theorem length_le_renderRest (ps : List Piece) (rest : Bytes) :
    ps.length < (renderRest ps rest).length := by
  induction ps with
  | nil => simp [renderRest]
  | cons p ps ih =>
    simp only [renderRest, List.length_cons, List.length_append]
    omega

/-- **The first member of the name is cut out**, from the document on. -/
theorem extractJsonMemberRaw_layout {document : Bytes} {ms : List (Bytes × Json)}
    (h : Nlohmann.Layout document ms) (member : Bytes) :
    (∃ text v, (Json.valuesOf member ms).head? = some v ∧ Nlohmann.Reads text v ∧
      extractJsonMemberRaw document member = some text) ∨
    ((Json.valuesOf member ms).head? = none ∧ extractJsonMemberRaw document member = none) := by
  obtain ⟨w, p, ps, rest, rfl, hw, hforall⟩ := h
  have hfuel : ps.length < (w ++ 0x7b :: (p.text ++ renderRest ps rest)).length + 1 := by
    have := length_le_renderRest ps rest
    simp only [List.length_append, List.length_cons]
    omega
  rw [extractJsonMemberRaw, skip_spaces hw rfl]
  exact memberRaw_layout hforall member rest _ hfuel

/-! ## The walk cuts a slice out of the document -/

theorem passed_split {text s out rest : Bytes} {result : Option (Bytes × Bytes)}
    (hr : ∀ more rest, result = some (more, rest) → s = more ++ rest)
    (h : passed text result = some (out, rest)) : text ++ s = out ++ rest := by
  obtain ⟨⟨more, r⟩, hresult, he⟩ := Option.map_eq_some_iff.mp h
  obtain ⟨rfl, rfl⟩ := Prod.mk.inj he
  rw [hr more r hresult, List.append_assoc]

theorem scanStringLoop_split {escaped : Bool} {s text rest : Bytes}
    (h : scanStringLoop escaped s = some (text, rest)) : s = text ++ rest := by
  induction s generalizing escaped text rest with
  | nil => cases escaped <;> cases h
  | cons b s ih =>
    cases escaped with
    | true => exact passed_split (fun _ _ => ih) h
    | false =>
      rw [scanStringLoop] at h
      split at h
      · exact passed_split (fun _ _ => ih) h
      · split at h
        · obtain ⟨rfl, rfl⟩ := Prod.mk.inj (Option.some.inj h)
          rfl
        · exact passed_split (fun _ _ => ih) h

theorem scanJsonString_split {s text rest : Bytes}
    (h : scanJsonString s = some (text, rest)) : s = text ++ rest := by
  unfold scanJsonString at h
  split at h
  · exact passed_split (fun _ _ => scanStringLoop_split) h
  · cases h

theorem scanNested_split {fuel : Nat} {closing : List UInt8} {s text rest : Bytes}
    (h : scanNested fuel closing s = some (text, rest)) : s = text ++ rest := by
  induction fuel generalizing closing s text rest with
  | zero => cases h
  | succ fuel ih =>
    cases s with
    | nil => cases h
    | cons b s =>
      rw [scanNested.eq_def] at h
      dsimp only at h
      split at h
      · obtain ⟨⟨quoted, r⟩, hstring, h⟩ := Option.bind_eq_some_iff.mp h
        rw [scanJsonString_split hstring]
        exact passed_split (fun _ _ => ih) h
      split at h
      · exact passed_split (fun _ _ => ih) h
      split at h
      · split at h
        · cases h
        · split at h
          · cases h
          · split at h
            · obtain ⟨rfl, rfl⟩ := Prod.mk.inj (Option.some.inj h)
              rfl
            · exact passed_split (fun _ _ => ih) h
      · exact passed_split (fun _ _ => ih) h

theorem trimEnd_isPrefix (s : Bytes) : trimEnd s <+: s := List.rdropWhile_prefix _ _

theorem scanJsonValue_split {spaced : Bool} {s text rest : Bytes}
    (h : scanJsonValue spaced s = some (text, rest)) : s = text ++ rest := by
  cases s with
  | nil => cases h
  | cons b s =>
    rw [scanJsonValue] at h
    split at h
    · exact scanJsonString_split h
    split at h
    · dsimp only at h
      split at h
      · cases h
      · obtain ⟨rfl, rfl⟩ := Prod.mk.inj (Option.some.inj h)
        exact (List.prefix_iff_eq_append.mp
          ((trimEnd_isPrefix _).trans (List.takeWhile_prefix _))).symm
    · exact scanNested_split h

theorem skip_suffix (s : Bytes) : skipJsonWhitespace s <:+ s := List.dropWhile_suffix _

theorem infix_of_skip {text s : Bytes} (h : text <:+: skipJsonWhitespace s) : text <:+: s :=
  h.trans (skip_suffix s).isInfix

theorem memberRaw_isInfix {member : Bytes} {fuel : Nat} {s text : Bytes}
    (h : memberRaw member fuel s = some text) : text <:+: s := by
  induction fuel generalizing s with
  | zero => cases h
  | succ fuel ih =>
    rw [memberRaw] at h
    refine infix_of_skip ?_
    split at h
    · cases h
    · rename_i b rest hs
      rw [hs]
      split at h
      · cases h
      · obtain ⟨⟨keyText, r₁⟩, hkey, h₁⟩ := Option.bind_eq_some_iff.mp h
        obtain ⟨key, -, h₂⟩ := Option.bind_eq_some_iff.mp h₁
        rw [scanJsonString_split hkey]
        refine List.IsInfix.trans ?_ (List.suffix_append keyText r₁).isInfix
        refine infix_of_skip ?_
        dsimp only at h₂
        split at h₂
        · rename_i r₂ hr₂
          rw [hr₂]
          refine List.IsInfix.trans ?_ (List.suffix_cons _ r₂).isInfix
          refine infix_of_skip ?_
          obtain ⟨⟨found, r₃⟩, hvalue, h₃⟩ := Option.bind_eq_some_iff.mp h₂
          rw [scanJsonValue_split hvalue]
          dsimp only at h₃
          split at h₃
          · obtain rfl := Option.some.inj h₃
            exact (List.prefix_append _ _).isInfix
          · refine List.IsInfix.trans ?_ (List.suffix_append found r₃).isInfix
            refine infix_of_skip ?_
            split at h₃
            · rename_i r₄ hr₄
              rw [hr₄]
              exact (ih h₃).trans (List.suffix_cons _ r₄).isInfix
            · cases h₃
        · cases h₂

/-- **What is hashed is a slice of the document.** -/
theorem extractJsonMemberRaw_isInfix {document member text : Bytes}
    (h : extractJsonMemberRaw document member = some text) : text <:+: document := by
  unfold extractJsonMemberRaw at h
  split at h
  · rename_i rest hskip
    refine infix_of_skip ?_
    rw [hskip]
    exact (memberRaw_isInfix h).trans (List.suffix_cons _ rest).isInfix
  · cases h

/-! ## The fields of the value -/

/-- An error of the client that found a response it cannot read. -/
def protocolError (message : Bytes) : Error where
  kind := .protocol
  statusCode := 0
  serviceCode := []
  message := message

/-- `parse_json`. -/
def parseJson (what : Bytes → Bytes) (value context : Bytes) : Except Error Json :=
  match Nlohmann.parse true value with
  | some v => .ok v
  | none => .error (protocolError (context ++ ascii ": " ++ what value))

theorem parseJson_eq_ok {what : Bytes → Bytes} {value context : Bytes} {v : Json} :
    parseJson what value context = .ok v ↔ Nlohmann.parse true value = some v := by
  unfold parseJson
  cases Nlohmann.parse true value with
  | none => simp
  | some u => simp

/-- The value of a field that is present and not null. -/
def field (value : Json) (key : Bytes) : Option Json :=
  match value.find key with
  | some .null => none
  | found => found

/-- `json_get_string`. -/
def jsonGetString (value : Json) (key : Bytes) (required : Bool) : Except Error Bytes :=
  match field value key with
  | none =>
      if required then .error (protocolError (ascii "missing JSON field: " ++ key)) else .ok []
  | some (.string text) => .ok text
  | some _ => .error (protocolError (ascii "JSON field is not a string: " ++ key))

/-- `json_get_int64`; an unsigned number is converted as the hardware does. -/
def jsonGetInt64 (value : Json) (key : Bytes) (fallback : Int) : Except Error Int :=
  match field value key with
  | none => .ok fallback
  | some (.unsigned n) => .ok (Int.bmod n (2 ^ 64))
  | some (.integer n) => .ok n
  | some _ => .error (protocolError (ascii "JSON field is not an integer: " ++ key))

/-- `json_get_uint64`. -/
def jsonGetUint64 (value : Json) (key : Bytes) (fallback : Nat) : Except Error Nat :=
  match field value key with
  | none => .ok fallback
  | some (.unsigned n) => .ok n
  | some (.integer n) => .ok (n % 2 ^ 64).toNat
  | some _ => .error (protocolError (ascii "JSON field is not an unsigned integer: " ++ key))

/-- `json_get_bool`. -/
def jsonGetBool (value : Json) (key : Bytes) (fallback : Bool) : Except Error Bool :=
  match field value key with
  | none => .ok fallback
  | some (.boolean b) => .ok b
  | some _ => .error (protocolError (ascii "JSON field is not a boolean: " ++ key))

/-- `value.contains(key)`. -/
def contains (value : Json) (key : Bytes) : Bool := (value.find key).isSome

/-- `value.is_object()`. -/
def isObject : Json → Bool
  | .object _ => true
  | _ => false

end Cpp
end SwmSdk
