import SwmSdk.JsonMember

/-! # What the walk finds, by the shape of the text

`extract_json_member_raw` does not know comments: to it a slash or a star is a byte like any other.
So on a body with comments it may see other members than the parser.  What it sees is said here
without it: a member is a quoted name, a colon and a value, and a value is a quoted text, a text
between brackets that are balanced outside of quotes, or a run without comma and brace (`Cut`).
The walk finds the first member of the name in this sense, on every document
(`extractJsonMemberRaw_eq_some_iff`).
-/
namespace SwmSdk.Cpp
open ByteText JsonText

/-- A comma or a closing brace, before which a scalar ends. -/
def endsScalar (b : UInt8) : Bool := b = 0x2c || b = 0x7d

/-- The text of a value and what stands after it; `spaced` says whether white space stands before
it. -/
inductive Cut (spaced : Bool) : Bytes → Bytes → Prop where
  | quoted {text rest : Bytes} (h : Quoted text) : Cut spaced text rest
  | object {i rest : Bytes} (h : Nested i) : Cut spaced (0x7b :: (i ++ [0x7d])) rest
  | array {i rest : Bytes} (h : Nested i) : Cut spaced (0x5b :: (i ++ [0x5d])) rest
  | scalar {b : UInt8} {t w rest : Bytes} (hquote : b ≠ 0x22) (hopen : b ≠ 0x7b ∧ b ≠ 0x5b)
      (hspace : isSpace b = false) (hrun : ∀ c ∈ b :: t, endsScalar c = false)
      (hlast : ∀ c ∈ (b :: t).getLast?, isSpace c = false) (hw : Spaces w)
      (hrest : ∀ c ∈ rest.head?, endsScalar c = true) : Cut spaced (b :: t) (w ++ rest)
  /-- Nothing stands between the colon and the end. -/
  | empty {b : UInt8} {rest : Bytes} (hspaced : spaced = false) (hend : endsScalar b = true) :
      Cut spaced [] (b :: rest)

/-- Some bytes start with a member of this name, and it has this text. -/
def MemberAt (name s text rest : Bytes) : Prop :=
  ∃ lead key afterKey beforeValue,
    s = lead ++ (key ++ (afterKey ++ 0x3a :: (beforeValue ++ (text ++ rest)))) ∧
    Spaces lead ∧ Quoted key ∧ keyOf key = some name ∧ Spaces afterKey ∧ Spaces beforeValue ∧
    Cut (decide (beforeValue ≠ [])) text rest

/-- The first member of a name, from a member on. -/
inductive FirstMember (name : Bytes) : Bytes → Bytes → Prop where
  | here {s text rest : Bytes} (h : MemberAt name s text rest) : FirstMember name s text
  | later {other s passed trail more text : Bytes}
      (h : MemberAt other s passed (trail ++ 0x2c :: more)) (hne : other ≠ name)
      (htrail : Spaces trail) (hmore : FirstMember name more text) : FirstMember name s text

/-- The text of the first member of a name in a document that starts as an object. -/
def DocumentMember (name document text : Bytes) : Prop :=
  ∃ lead s, document = lead ++ 0x7b :: s ∧ Spaces lead ∧ FirstMember name s text

/-! ## What the walk finds is there -/

theorem skip_eq (s : Bytes) : s = s.takeWhile isSpace ++ skipJsonWhitespace s :=
  List.takeWhile_append_dropWhile.symm

/-- White space and what is left after it. -/
theorem exists_spaces {s t : Bytes} (h : skipJsonWhitespace s = t) :
    ∃ w, s = w ++ t ∧ Spaces w :=
  ⟨_, h ▸ skip_eq s, spaces_takeWhile s⟩

theorem passed_eq_some {text out rest : Bytes} {result : Option (Bytes × Bytes)}
    (h : passed text result = some (out, rest)) :
    ∃ more, result = some (more, rest) ∧ out = text ++ more := by
  obtain ⟨⟨more, r⟩, hresult, he⟩ := Option.map_eq_some_iff.mp h
  obtain ⟨rfl, rfl⟩ := Prod.mk.inj he
  exact ⟨more, hresult, rfl⟩

/-- A closing quote is found after the inside of a string. -/
theorem scanStringLoop_sound {s text rest : Bytes} {escaped : Bool}
    (h : scanStringLoop escaped s = some (text, rest)) :
    ∃ body, text = body ++ [0x22] ∧ match escaped with
      | false => StringBody body
      | true => ∃ b t, body = b :: t ∧ StringBody t := by
  induction s generalizing escaped text rest with
  | nil => cases escaped <;> cases h
  | cons b s ih =>
    cases escaped with
    | true =>
      obtain ⟨more, hmore, rfl⟩ := passed_eq_some h
      obtain ⟨body, rfl, hbody⟩ := ih hmore
      exact ⟨b :: body, rfl, b, body, rfl, hbody⟩
    | false =>
      rw [scanStringLoop] at h
      split at h
      · rename_i hb
        obtain ⟨more, hmore, rfl⟩ := passed_eq_some h
        obtain ⟨_, rfl, c, t, rfl, ht⟩ := ih hmore
        exact ⟨b :: c :: t, rfl, hb ▸ .escape ht⟩
      · rename_i hb
        split at h
        · rename_i hquote
          obtain ⟨rfl, rfl⟩ := Prod.mk.inj (Option.some.inj h)
          exact ⟨[], by rw [hquote]; rfl, .nil⟩
        · rename_i hquote
          obtain ⟨more, hmore, rfl⟩ := passed_eq_some h
          obtain ⟨body, rfl, hbody⟩ := ih hmore
          exact ⟨b :: body, rfl, .char hquote hb hbody⟩

theorem scanJsonString_sound {s text rest : Bytes} (h : scanJsonString s = some (text, rest)) :
    Quoted text := by
  unfold scanJsonString at h
  split at h
  · obtain ⟨more, hmore, rfl⟩ := passed_eq_some h
    obtain ⟨body, rfl, hbody⟩ := scanStringLoop_sound hmore
    exact ⟨body, hbody, rfl⟩
  · cases h

/-- Balanced text and the brackets that a stack expects. -/
inductive Balances : List UInt8 → Bytes → Prop where
  | last {top : UInt8} {i : Bytes} (hi : Nested i) : Balances [top] (i ++ [top])
  | more {top next : UInt8} {closing : List UInt8} {i t : Bytes} (hi : Nested i)
      (ht : Balances (next :: closing) t) : Balances (top :: next :: closing) (i ++ top :: t)

/-- Balanced text before it belongs to it. -/
theorem Balances.prepend {top : UInt8} {closing : List UInt8} {t : Bytes}
    (h : Balances (top :: closing) t) {i : Bytes} (hi : Nested i) :
    Balances (top :: closing) (i ++ t) := by
  cases h with
  | last hj =>
    rw [← List.append_assoc]
    exact .last (hi.append hj)
  | more hj ht =>
    rw [← List.append_assoc]
    exact .more (hi.append hj) ht

/-- What closes a bracket that was opened inside others. -/
theorem Balances.reopen {close top : UInt8} {closing : List UInt8} {t : Bytes}
    (h : Balances (close :: top :: closing) t) {opened : UInt8}
    (hpair : (opened = 0x7b ∧ close = 0x7d) ∨ (opened = 0x5b ∧ close = 0x5d)) :
    Balances (top :: closing) (opened :: t) := by
  cases h with
  | @more _ _ _ i t hi ht =>
    have hnested : Nested (opened :: (i ++ close :: [])) := by
      rcases hpair with ⟨rfl, rfl⟩ | ⟨rfl, rfl⟩
      · exact .braces hi .nil
      · exact .brackets hi .nil
    have hclosed := ht.prepend hnested
    rwa [List.cons_append, List.append_assoc, List.singleton_append] at hclosed

theorem scanNested_sound {fuel : Nat} {top : UInt8} {closing : List UInt8} {s text rest : Bytes}
    (h : scanNested fuel (top :: closing) s = some (text, rest)) :
    Balances (top :: closing) text := by
  induction fuel generalizing top closing s text rest with
  | zero => cases h
  | succ fuel ih =>
    cases s with
    | nil => cases h
    | cons b s =>
      rw [scanNested.eq_def] at h
      dsimp only at h
      split at h
      · obtain ⟨⟨quoted, r⟩, hstring, h⟩ := Option.bind_eq_some_iff.mp h
        obtain ⟨more, hmore, rfl⟩ := passed_eq_some h
        have hquoted := Nested.quoted (scanJsonString_sound hstring) .nil
        rw [List.append_nil] at hquoted
        exact (ih hmore).prepend hquoted
      rename_i hquote
      split at h
      · rename_i hopen
        obtain ⟨more, hmore, rfl⟩ := passed_eq_some h
        refine (ih hmore).reopen ?_
        rcases hopen with rfl | rfl
        · exact .inl ⟨rfl, rfl⟩
        · exact .inr ⟨rfl, rfl⟩
      rename_i hopen
      split at h
      · split at h
        · cases h
        · rename_i htop
          obtain rfl := not_not.mp htop
          split at h
          · rename_i hlast
            obtain ⟨rfl, rfl⟩ := Prod.mk.inj (Option.some.inj h)
            rw [hlast]
            exact .last .nil
          · rename_i hlast
            obtain ⟨more, hmore, rfl⟩ := passed_eq_some h
            obtain ⟨next, closing, rfl⟩ := List.exists_cons_of_ne_nil hlast
            exact .more .nil (ih hmore)
      · rename_i hclose
        obtain ⟨more, hmore, rfl⟩ := passed_eq_some h
        have hplain : isMark b = false := by
          simp only [isMark, Bool.or_eq_false_iff, decide_eq_false_iff_not]
          grind
        exact (ih hmore).prepend (.plain hplain .nil)

/-- The end of a scalar: white space, and before it none. -/
theorem trimEnd_parts (s : Bytes) :
    ∃ w, s = trimEnd s ++ w ∧ Spaces w ∧ ∀ c ∈ (trimEnd s).getLast?, isSpace c = false := by
  refine ⟨s.rtakeWhile isSpace, ?_, fun b hb => List.mem_rtakeWhile_imp hb, fun c hc => ?_⟩
  · exact (List.rdropWhile_append_rtakeWhile (p := isSpace) (l := s)).symm
  · have hne : trimEnd s ≠ [] := by
      rintro hnil
      rw [hnil] at hc
      cases hc
    rw [List.getLast?_eq_getLast_of_ne_nil hne, Option.mem_def, Option.some.injEq] at hc
    rw [← hc]
    exact Bool.of_not_eq_true (List.rdropWhile_last_not isSpace s hne)

theorem ends_eq : (fun c : UInt8 => c ≠ 0x2c && c ≠ 0x7d) = fun c => !endsScalar c := by
  funext c
  simp [endsScalar]

/-- A scalar that is not empty, as it is taken. -/
theorem cut_scalar {spaced : Bool} {b : UInt8} {s : Bytes} (hquote : b ≠ 0x22)
    (hopen : b ≠ 0x7b ∧ b ≠ 0x5b) (hspace : isSpace b = false) (hend : endsScalar b = false) :
    Cut spaced (trimEnd ((b :: s).takeWhile fun c => !endsScalar c))
      ((b :: s).drop (trimEnd ((b :: s).takeWhile fun c => !endsScalar c)).length) := by
  obtain ⟨w, htaken, hw, hlast⟩ := trimEnd_parts ((b :: s).takeWhile fun c => !endsScalar c)
  have htake : (b :: s).takeWhile (fun c => !endsScalar c) =
      b :: s.takeWhile fun c => !endsScalar c := List.takeWhile_cons_of_pos (by rw [hend]; rfl)
  -- what is left of it starts with its first byte
  obtain ⟨t, ht⟩ : ∃ t, trimEnd ((b :: s).takeWhile fun c => !endsScalar c) = b :: t := by
    have hne : trimEnd ((b :: s).takeWhile fun c => !endsScalar c) ≠ [] := by
      intro hnil
      have hall := List.rdropWhile_eq_nil_iff.mp hnil b (by rw [htake]; exact List.mem_cons_self ..)
      rw [hspace] at hall
      cases hall
    obtain ⟨c, t, hct⟩ := List.exists_cons_of_ne_nil hne
    rw [hct, htake] at htaken
    rw [hct, ← (List.cons.inj htaken).1]
    exact ⟨t, rfl⟩
  have hrun : ∀ c ∈ trimEnd ((b :: s).takeWhile fun c => !endsScalar c), endsScalar c = false := by
    intro c hc
    have hmem := (trimEnd_isPrefix _).subset hc
    simpa using List.mem_takeWhile_imp hmem
  have hall : b :: s = trimEnd ((b :: s).takeWhile fun c => !endsScalar c) ++
      (w ++ (b :: s).dropWhile fun c => !endsScalar c) := by
    rw [← List.append_assoc, ← htaken, List.takeWhile_append_dropWhile]
  have hdrop : (b :: s).drop (trimEnd ((b :: s).takeWhile fun c => !endsScalar c)).length =
      w ++ (b :: s).dropWhile fun c => !endsScalar c :=
    (congrArg (List.drop _) hall).trans List.drop_left
  rw [hdrop]
  rw [ht] at hrun hlast ⊢
  refine .scalar hquote hopen hspace hrun hlast hw fun c hc => ?_
  have hhead := List.head?_dropWhile_not (fun c => !endsScalar c) (b :: s)
  rw [hc] at hhead
  simpa using hhead

theorem scanJsonValue_sound {s text rest : Bytes} {spaced : Bool}
    (hspace : ∀ b ∈ s.head?, isSpace b = false)
    (h : scanJsonValue spaced s = some (text, rest)) : Cut spaced text rest := by
  cases s with
  | nil => cases h
  | cons b s =>
    rw [scanJsonValue] at h
    split at h
    · exact .quoted (scanJsonString_sound h)
    rename_i hquote
    split at h
    · rename_i hopen
      rw [ends_eq] at h
      dsimp only at h
      split at h
      · cases h
      rename_i hsome
      obtain ⟨rfl, rfl⟩ := Prod.mk.inj (Option.some.inj h)
      cases hend : endsScalar b with
      | true =>
        have hnil : (b :: s).takeWhile (fun c => !endsScalar c) = [] :=
          List.takeWhile_cons_of_neg (by simp [hend])
        rw [hnil] at hsome ⊢
        exact .empty (Bool.of_not_eq_true fun hspaced => hsome ⟨rfl, hspaced⟩) hend
      | false => exact cut_scalar hquote hopen (hspace b rfl) hend
    · rename_i hopen
      rw [scanNested.eq_def] at h
      dsimp only at h
      have hbracket : b = 0x7b ∨ b = 0x5b := by
        by_contra hnot
        exact hopen (not_or.mp hnot)
      rw [if_neg hquote, if_pos hbracket] at h
      obtain ⟨more, hmore, rfl⟩ := passed_eq_some h
      have hcloses := scanNested_sound hmore
      rcases hbracket with rfl | rfl
      · cases hcloses with
        | last hi => exact .object hi
      · cases hcloses with
        | last hi => exact .array hi

/-- **A text that the walk finds is that of the first member of the name.** -/
theorem memberRaw_sound {name : Bytes} {fuel : Nat} {s text : Bytes}
    (h : memberRaw name fuel s = some text) : FirstMember name s text := by
  induction fuel generalizing s with
  | zero => cases h
  | succ fuel ih =>
    rw [memberRaw] at h
    split at h
    · cases h
    rename_i b more hskip
    obtain ⟨lead, rfl, hlead⟩ := exists_spaces hskip
    split at h
    · cases h
    obtain ⟨⟨key, r₁⟩, hkey, h₁⟩ := Option.bind_eq_some_iff.mp h
    obtain ⟨found, hname, h₂⟩ := Option.bind_eq_some_iff.mp h₁
    dsimp only at h₂ hname
    split at h₂
    · rename_i r₂ hcolon
      obtain ⟨afterKey, rfl, hafter⟩ := exists_spaces hcolon
      obtain ⟨⟨value, r₃⟩, hvalue, h₃⟩ := Option.bind_eq_some_iff.mp h₂
      dsimp only at h₃
      obtain ⟨beforeValue, hr₂, hbefore⟩ := exists_spaces (s := r₂) rfl
      have hmember : MemberAt found (lead ++ b :: more) value r₃ := by
        refine ⟨lead, key, afterKey, beforeValue, ?_, hlead, scanJsonString_sound hkey, hname,
          hafter, hbefore, ?_⟩
        · rw [scanJsonString_split hkey, ← scanJsonValue_split hvalue, ← hr₂]
        · have hspaced : decide ((skipJsonWhitespace r₂).length < r₂.length) =
              decide (beforeValue ≠ []) := by
            have hlength := congrArg List.length hr₂
            rw [List.length_append] at hlength
            rw [decide_eq_decide, ← List.length_pos_iff]
            omega
          rw [hspaced] at hvalue
          refine scanJsonValue_sound (fun c hc => ?_) hvalue
          have hhead := List.head?_dropWhile_not isSpace r₂
          rw [show (r₂.dropWhile isSpace).head? = some c from hc] at hhead
          simpa using hhead
      split at h₃
      · rename_i heq
        obtain rfl := Option.some.inj h₃
        exact .here (heq ▸ hmember)
      · rename_i hne
        split at h₃
        · rename_i r₄ hcomma
          obtain ⟨trail, rfl, htrail⟩ := exists_spaces hcomma
          exact .later hmember hne htrail (ih h₃)
        · cases h₃
    · cases h₂

/-! ## What is there is what the walk finds -/

/-- Where a value starts is no white space. -/
theorem Cut.head {spaced : Bool} {text rest : Bytes} (h : Cut spaced text rest) :
    ∃ b more, text ++ rest = b :: more ∧ isSpace b = false := by
  cases h with
  | quoted hq =>
    obtain ⟨body, -, rfl⟩ := hq
    exact ⟨_, _, rfl, rfl⟩
  | object | array => exact ⟨_, _, rfl, rfl⟩
  | scalar _ _ hspace => exact ⟨_, _, rfl, hspace⟩
  | @empty b _ _ hend =>
    refine ⟨b, _, rfl, ?_⟩
    simp only [endsScalar, Bool.or_eq_true, decide_eq_true_eq] at hend
    rcases hend with rfl | rfl
    · rfl
    · rfl

theorem endsScalar_of_space {b : UInt8} (h : isSpace b = true) : endsScalar b = false := by
  simp only [isSpace, Bool.or_eq_true, decide_eq_true_eq] at h
  rcases h with ((rfl | rfl) | rfl) | rfl <;> rfl

/-- **The walk cuts out the text of a value.** -/
theorem Cut.scan {spaced : Bool} {text rest : Bytes} (h : Cut spaced text rest) :
    scanJsonValue spaced (text ++ rest) = some (text, rest) := by
  cases h with
  | quoted hq =>
    have hscan := scanJsonString_quoted hq rest
    obtain ⟨body, hbody, rfl⟩ := hq
    rw [List.cons_append] at hscan ⊢
    rw [scanJsonValue, if_pos rfl, hscan]
  | object hi => exact scanJsonValue_bracketed (.inl ⟨rfl, rfl⟩) hi
  | array hi => exact scanJsonValue_bracketed (.inr ⟨rfl, rfl⟩) hi
  | @scalar b t w rest hquote hopen hspace hrun hlast hw hrest =>
    have hall : ∀ c ∈ b :: t ++ w, (!endsScalar c) = true := by
      intro c hc
      rcases List.mem_append.mp hc with hc | hc
      · rw [hrun c hc]
        rfl
      · rw [endsScalar_of_space (hw c hc)]
        rfl
    have hstop : rest.takeWhile (fun c => !endsScalar c) = [] := by
      cases rest with
      | nil => rfl
      | cons c rest => exact List.takeWhile_cons_of_neg (by simp [hrest c rfl])
    have htake : (b :: t ++ (w ++ rest)).takeWhile (fun c => !endsScalar c) = b :: t ++ w := by
      rw [← List.append_assoc, List.takeWhile_append_of_pos hall, hstop, List.append_nil]
    have htrim : trimEnd (b :: t ++ w) = b :: t := by
      obtain ⟨front, last, hfront⟩ :=
        (List.eq_nil_or_concat (b :: t)).resolve_left (List.cons_ne_nil b t)
      rw [List.concat_eq_append] at hfront
      rw [hfront] at hlast ⊢
      exact rdropWhile_spaces (hlast last (by simp)) hw
    rw [List.cons_append] at htake
    rw [List.cons_append, scanJsonValue, if_neg hquote, if_pos hopen, ends_eq]
    simp only [htake]
    rw [htrim, if_neg (fun h => List.cons_ne_nil _ _ h.1), ← List.cons_append, List.drop_left]
  | @empty b rest hspaced hend =>
    have htake : (b :: rest).takeWhile (fun c => !endsScalar c) = [] :=
      List.takeWhile_cons_of_neg (by simp [hend])
    have hmark : b ≠ 0x22 ∧ b ≠ 0x7b ∧ b ≠ 0x5b := by
      simp only [endsScalar, Bool.or_eq_true, decide_eq_true_eq] at hend
      rcases hend with rfl | rfl <;> decide
    rw [List.nil_append, scanJsonValue, if_neg hmark.1, if_pos hmark.2, ends_eq]
    simp only [htake]
    rw [if_neg (by simp [hspaced])]
    rfl

/-- **The walk at a member**: its text is the result, or the walk goes on after it. -/
theorem memberRaw_at {name other s text rest : Bytes} (h : MemberAt other s text rest)
    (fuel : Nat) : memberRaw name (fuel + 1) s =
      if other = name then some text
      else
        match skipJsonWhitespace rest with
        | 0x2c :: rest => memberRaw name fuel rest
        | _ => none := by
  obtain ⟨lead, key, afterKey, beforeValue, rfl, hlead, hquoted, hname, hafter, hbefore, hcut⟩ := h
  have hstring :=
    scanJsonString_quoted hquoted (afterKey ++ 0x3a :: (beforeValue ++ (text ++ rest)))
  obtain ⟨b, more, hvalue, hspace⟩ := hcut.head
  have hskip : skipJsonWhitespace (beforeValue ++ (text ++ rest)) = text ++ rest := by
    rw [hvalue, skip_spaces hbefore hspace]
  have hspaced : decide ((text ++ rest).length < (beforeValue ++ (text ++ rest)).length) =
      decide (beforeValue ≠ []) := by
    have hlength : (beforeValue ++ (text ++ rest)).length =
        beforeValue.length + (text ++ rest).length := List.length_append
    rw [decide_eq_decide, ← List.length_pos_iff]
    omega
  obtain ⟨body, -, rfl⟩ := hquoted
  rw [memberRaw, List.cons_append, skip_spaces hlead rfl]
  dsimp only
  rw [if_neg (by decide), ← List.cons_append, hstring, Option.bind_some, hname, Option.bind_some,
    skip_spaces hafter rfl]
  have hscan : scanJsonValue
      (decide ((text ++ rest).length < (beforeValue ++ (text ++ rest)).length))
      (skipJsonWhitespace (beforeValue ++ (text ++ rest))) = some (text, rest) := by
    rw [hskip, hspaced, hcut.scan]
  change (scanJsonValue _ (skipJsonWhitespace (beforeValue ++ _))).bind _ = _
  rw [hskip] at hscan ⊢
  exact (congrArg (Option.bind · _) hscan).trans rfl

theorem MemberAt.length_lt {name s text rest : Bytes} (h : MemberAt name s text rest) :
    rest.length < s.length := by
  obtain ⟨lead, key, afterKey, beforeValue, rfl, -⟩ := h
  simp only [List.length_append, List.length_cons]
  omega

/-- **The first member of the name is found.** -/
theorem FirstMember.found {name s text : Bytes} (h : FirstMember name s text) {fuel : Nat}
    (hfuel : s.length ≤ fuel) : memberRaw name (fuel + 1) s = some text := by
  induction h generalizing fuel with
  | here h => rw [memberRaw_at h, if_pos rfl]
  | @later other s passed trail more text h hne htrail _ ih =>
    have hlength := h.length_lt
    rw [List.length_append, List.length_cons] at hlength
    obtain ⟨fuel, rfl⟩ := Nat.exists_eq_add_one_of_ne_zero (show fuel ≠ 0 by omega)
    rw [memberRaw_at h, if_neg hne, skip_spaces htrail rfl]
    exact ih (by omega)

/-- **What the walk finds**, on every document. -/
theorem extractJsonMemberRaw_eq_some_iff {document name text : Bytes} :
    extractJsonMemberRaw document name = some text ↔ DocumentMember name document text := by
  constructor
  · intro h
    unfold extractJsonMemberRaw at h
    split at h
    · rename_i s hskip
      obtain ⟨lead, hdocument, hlead⟩ := exists_spaces hskip
      exact ⟨lead, s, hdocument, hlead, memberRaw_sound h⟩
    · cases h
  · rintro ⟨lead, s, rfl, hlead, hfirst⟩
    rw [extractJsonMemberRaw, skip_spaces hlead rfl]
    refine hfirst.found ?_
    simp only [List.length_append, List.length_cons]
    omega

end SwmSdk.Cpp
