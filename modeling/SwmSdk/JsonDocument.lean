import SwmSdk.Nlohmann

/-! # JSON documents

The texts of RFC 8259 with what they hold: the members of an object in the order of the text, the
names that occur twice among them, and the texts with their escapes undone.  Half a surrogate pair
may stand in an escape; it stands for U+FFFD here, as in the readers that take it at all.

The C++ library refuses half a pair, and a number that no double holds.  What it reads of a
document otherwise is the value of the document (`parse_document`).
-/
namespace SwmSdk
open ByteText JsonText Nlohmann

/-- A JSON document as it is written: a number is its text, and an object keeps every member. -/
inductive Document where
  | null
  | boolean (value : Bool)
  | number (text : Bytes)
  | string (value : Bytes)
  | array (items : List Document)
  | object (members : List (Bytes × Document))
  deriving Repr

namespace Document

/-! ## Reading -/

/-- U+FFFD. -/
def replacement : Bytes := [0xef, 0xbf, 0xbd]

/-- The second half of a pair. -/
def lowHalf : Bytes → Option (Nat × Bytes)
  | 0x5c :: 0x75 :: rest =>
      (getCodepoint rest).filter fun second => 0xdc00 ≤ second.1 && second.1 ≤ 0xdfff
  | _ => none

/-- A `\u` escape after the `u`. -/
def unicode (s : Bytes) : Option (Bytes × Bytes) :=
  (getCodepoint s).map fun (first, rest) =>
    if 0xd800 ≤ first ∧ first ≤ 0xdbff then
      match lowHalf rest with
      | some (second, rest) => (utf8 (first * 1024 + second - 0x35fdc00), rest)
      | none => (replacement, rest)
    else if 0xdc00 ≤ first ∧ first ≤ 0xdfff then (replacement, rest)
    else (utf8 first, rest)

/-- One character or escape of a string. -/
def char : Bytes → Option (Bytes × Bytes)
  | 0x5c :: 0x75 :: rest => unicode rest
  | s => scanChar s

/-- A string after its opening quote. -/
def text : Nat → Bytes → Option (Bytes × Bytes)
  | 0, _ => none
  | _ + 1, 0x22 :: rest => some ([], rest)
  | fuel + 1, s =>
      (char s).bind fun (first, rest) =>
        (text fuel rest).map fun (chars, rest) => (first ++ chars, rest)

/-- What is left after a number. -/
def afterNumber (s : Bytes) : Option Bytes :=
  (scanInteger (scanMinus s).2).bind fun (_, rest) =>
    (scanFraction rest).bind fun (_, rest) => (scanExponent rest).map fun (_, rest) => rest

/-- A token of a document, with the text of a number. -/
inductive Lexeme where
  /-- A bracket, a separator, a literal or the end of the input. -/
  | mark (token : Token)
  | string (value : Bytes)
  | number (text : Bytes)

/-- The token at the head of a text, and what follows it. -/
def lexeme : Bytes → Option (Lexeme × Bytes)
  | [] => some (.mark .endOfInput, [])
  | b :: rest =>
      if b = 0x22 then
        (text (rest.length + 1) rest).map fun (value, rest) => (.string value, rest)
      else if b = 0x2d ∨ isDigit b then
        (afterNumber (b :: rest)).map fun after =>
          (.number ((b :: rest).take ((b :: rest).length - after.length)), after)
      else if b = 0x00 then none
      else (scanToken (b :: rest)).map fun (token, rest) => (.mark token, rest)

/-- The next lexeme. -/
def next (s : Bytes) : Option (Lexeme × Bytes) := lexeme (s.dropWhile isSpace)

mutual

/-- A value, and what is left after it. -/
def value : Nat → Bytes → Option (Document × Bytes)
  | 0, _ => none
  | fuel + 1, s =>
      match next s with
      | some (.mark .beginObject, rest) =>
          match next rest with
          | some (.mark .endObject, rest) => some (.object [], rest)
          | some (.string key, rest) =>
              (members fuel key rest).map fun (all, rest) => (.object all, rest)
          | _ => none
      | some (.mark .beginArray, rest) =>
          match next rest with
          | some (.mark .endArray, rest) => some (.array [], rest)
          | _ => (elements fuel rest).map fun (items, rest) => (.array items, rest)
      | some (.mark (.scalar .null), rest) => some (.null, rest)
      | some (.mark (.scalar (.boolean b)), rest) => some (.boolean b, rest)
      | some (.string text, rest) => some (.string text, rest)
      | some (.number text, rest) => some (.number text, rest)
      | _ => none

/-- The elements of an array, from the next one on. -/
def elements : Nat → Bytes → Option (List Document × Bytes)
  | 0, _ => none
  | fuel + 1, s =>
      (value fuel s).bind fun (v, rest) =>
        match next rest with
        | some (.mark .valueSeparator, rest) =>
            (elements fuel rest).map fun (vs, rest) => (v :: vs, rest)
        | some (.mark .endArray, rest) => some ([v], rest)
        | _ => none

/-- The members of an object, from a name that was read on. -/
def members : Nat → Bytes → Bytes → Option (List (Bytes × Document) × Bytes)
  | 0, _, _ => none
  | fuel + 1, key, s =>
      match next s with
      | some (.mark .nameSeparator, rest) =>
          (value fuel rest).bind fun (v, rest) =>
            match next rest with
            | some (.mark .valueSeparator, rest) =>
                match next rest with
                | some (.string name, rest) =>
                    (members fuel name rest).map fun (all, rest) => ((key, v) :: all, rest)
                | _ => none
            | some (.mark .endObject, rest) => some ([(key, v)], rest)
            | _ => none
      | _ => none

end

/-- The document that a body is: one value, and then the end of the input. -/
def read (body : Bytes) : Option Document :=
  (value (body.length + 1) body).bind fun (document, rest) =>
    match next rest with
    | some (.mark .endOfInput, _) => some document
    | _ => none

mutual

/-- How deep arrays and objects are nested. -/
def depth : Document → Nat
  | .array items => depthItems items + 1
  | .object members => depthMembers members + 1
  | _ => 0

/-- The depth of the deepest item. -/
def depthItems : List Document → Nat
  | [] => 0
  | item :: items => max item.depth (depthItems items)

/-- The depth of the deepest member. -/
def depthMembers : List (Bytes × Document) → Nat
  | [] => 0
  | (_, value) :: members => max value.depth (depthMembers members)

end

/-- The last member of a name. -/
def last (name : Bytes) (members : List (Bytes × Document)) : Option Document :=
  (Json.valuesOf name members).getLast?

/-- A text, or null. -/
def IsText : Document → Prop
  | .null => True
  | .string _ => True
  | _ => False

instance : DecidablePred IsText
  | .null => isTrue trivial
  | .string _ => isTrue trivial
  | .boolean _ => isFalse id
  | .number _ => isFalse id
  | .array _ => isFalse id
  | .object _ => isFalse id

/-- The text of a member; another value has none. -/
def textOf : Option Document → Bytes
  | some (.string value) => value
  | _ => []

/-! ## What the C++ library reads of it -/

/-- A number of the library. -/
def IsNumber : Json → Prop
  | .unsigned _ => True
  | .integer _ => True
  | .float _ => True
  | _ => False

mutual

/-- The value of a document.  In an object the last member of a name stands for all of them. -/
inductive Matches : Json → Document → Prop
  | null : Matches .null .null
  | boolean (b : Bool) : Matches (.boolean b) (.boolean b)
  | number {v : Json} {text : Bytes} (h : IsNumber v) : Matches v (.number text)
  | string (value : Bytes) : Matches (.string value) (.string value)
  | array {vs : List Json} {items : List Document} (h : MatchesItems vs items) :
      Matches (.array vs) (.array items)
  | object {vs : List (Bytes × Json)} {members : List (Bytes × Document)}
      (h : MatchesMembers vs members) : Matches (.object (Json.fromMembers vs)) (.object members)

/-- The values are those of the items. -/
inductive MatchesItems : List Json → List Document → Prop
  | nil : MatchesItems [] []
  | cons {v : Json} {item : Document} {vs : List Json} {items : List Document}
      (hv : Matches v item) (h : MatchesItems vs items) : MatchesItems (v :: vs) (item :: items)

/-- The values are those of the members, under the same names. -/
inductive MatchesMembers : List (Bytes × Json) → List (Bytes × Document) → Prop
  | nil : MatchesMembers [] []
  | cons {name : Bytes} {v : Json} {value : Document} {vs : List (Bytes × Json)}
      {members : List (Bytes × Document)} (hv : Matches v value) (h : MatchesMembers vs members) :
      MatchesMembers ((name, v) :: vs) ((name, value) :: members)

end

/-- The values of a name match, in their order. -/
theorem MatchesMembers.valuesOf {vs : List (Bytes × Json)} {members : List (Bytes × Document)}
    (h : MatchesMembers vs members) (key : Bytes) :
    MatchesItems (Json.valuesOf key vs) (Json.valuesOf key members) := by
  cases h with
  | nil => exact .nil
  | @cons name v value vs members hv h =>
    rw [Json.valuesOf_cons, Json.valuesOf_cons]
    split
    · exact .cons hv (h.valuesOf key)
    · exact h.valuesOf key

/-- The last items match. -/
theorem MatchesItems.getLast? {vs : List Json} {items : List Document}
    (h : MatchesItems vs items) :
    (vs.getLast? = none ∧ items.getLast? = none) ∨
      ∃ v item, vs.getLast? = some v ∧ items.getLast? = some item ∧ Matches v item := by
  cases h with
  | nil => exact .inl ⟨rfl, rfl⟩
  | @cons v item vs items hv h =>
    rcases h.getLast? with ⟨hvs, hitems⟩ | ⟨v', item', hvs, hitems, hmatch⟩
    · exact .inr ⟨v, item, by rw [List.getLast?_cons, hvs]; rfl,
        by rw [List.getLast?_cons, hitems]; rfl, hv⟩
    · exact .inr ⟨v', item', by rw [List.getLast?_cons, hvs]; rfl,
        by rw [List.getLast?_cons, hitems]; rfl, hmatch⟩

/-- A name is looked up in a document and in its value. -/
theorem Matches.find {v : Json} {members : List (Bytes × Document)}
    (h : Matches v (.object members)) (name : Bytes) :
    (v.find name = none ∧ last name members = none) ∨
      ∃ found item, v.find name = some found ∧ last name members = some item ∧
        Matches found item := by
  cases h with
  | object h =>
    have hfind : ∀ vs : List (Bytes × Json), (Json.object (Json.fromMembers vs)).find name =
        (Json.valuesOf name vs).getLast? := fun vs => Json.lookup_fromMembers name vs
    rw [hfind]
    exact (h.valuesOf name).getLast?

/-! ### Lexemes -/

theorem unicode_of_scan {s : Bytes} {out : Bytes × Bytes} (h : scanUnicode s = some out) :
    unicode s = some out := by
  simp only [scanUnicode, Option.bind_eq_bind, Option.bind_eq_some_iff] at h
  obtain ⟨⟨first, rest⟩, hfirst, h⟩ := h
  rw [unicode, hfirst, Option.map_some]
  dsimp only at h ⊢
  split at h
  · rename_i hhigh
    rw [if_pos hhigh]
    split at h
    · obtain ⟨⟨second, after⟩, hsecond, h⟩ := Option.bind_eq_some_iff.mp h
      dsimp only at h
      split at h
      · rename_i hlow
        rw [lowHalf, hsecond, Option.filter_some, if_pos (by simpa using hlow)]
        exact h
      · cases h
    · cases h
  · rename_i hhigh
    rw [if_neg hhigh]
    split at h
    · cases h
    · rename_i hlow
      rw [if_neg hlow]
      exact h

theorem char_of_scan {s : Bytes} {out : Bytes × Bytes} (h : scanChar s = some out) :
    char s = some out := by
  unfold char
  split
  · exact unicode_of_scan h
  · exact h

theorem text_step {fuel : Nat} {s : Bytes} (hquote : s.head? ≠ some 0x22) :
    text (fuel + 1) s = (char s).bind fun (first, rest) =>
      (text fuel rest).map fun (chars, rest) => (first ++ chars, rest) := by
  cases s with
  | nil => rfl
  | cons b s => exact text.eq_3 _ _ (fun rest he => hquote (by rw [he]; rfl))

theorem text_of_scan {fuel : Nat} {s : Bytes} {out : Bytes × Bytes}
    (h : scanString fuel s = some out) : text fuel s = some out := by
  induction fuel generalizing s out with
  | zero => cases h
  | succ fuel ih =>
    by_cases hquote : s.head? = some 0x22
    · obtain ⟨rest, rfl⟩ : ∃ rest, s = 0x22 :: rest := by
        cases s with
        | nil => cases hquote
        | cons b rest => exact ⟨rest, by rw [Option.some.inj hquote]⟩
      exact h
    · rw [scanString_step hquote] at h
      obtain ⟨⟨first, rest⟩, hfirst, h⟩ := Option.bind_eq_some_iff.mp h
      obtain ⟨⟨chars, after⟩, hchars, h⟩ := Option.bind_eq_some_iff.mp h
      rw [text_step hquote, char_of_scan hfirst, Option.bind_some]
      dsimp only
      rw [ih hchars]
      exact h

theorem isNumber_of_numberValue {negative : Bool} {whole : Bytes} {fraction : Option Bytes}
    {exponent : Option Int} {v : Json}
    (h : numberValue negative whole fraction exponent = some v) : IsNumber v := by
  have hfloat : ∀ {x : Option Binary64}, x.map Json.float = some v → IsNumber v := by
    intro x hx
    obtain ⟨b, -, rfl⟩ := Option.map_eq_some_iff.mp hx
    trivial
  unfold numberValue at h
  dsimp only at h
  split at h
  · split at h
    · split at h
      · rw [← Option.some.inj h]
        trivial
      · exact hfloat h
    · split at h
      · rw [← Option.some.inj h]
        trivial
      · exact hfloat h
  · exact hfloat h

theorem afterNumber_of_scan {s rest : Bytes} {v : Json} (h : scanNumber s = some (v, rest)) :
    afterNumber s = some rest ∧ IsNumber v := by
  simp only [scanNumber, Option.bind_eq_bind, Option.bind_eq_some_iff] at h
  obtain ⟨⟨whole, r₁⟩, hwhole, ⟨fraction, r₂⟩, hfraction, ⟨exponent, r₃⟩, hexponent, w, hw, h⟩ := h
  obtain ⟨rfl, rfl⟩ := Prod.mk.inj (Option.some.inj h)
  dsimp only at hfraction hexponent
  refine ⟨?_, isNumber_of_numberValue hw⟩
  simp only [afterNumber, hwhole, hfraction, hexponent, Option.bind_some, Option.map_some]

/-- A token of the parser, and the lexeme at its place. -/
inductive Same : Token → Lexeme → Prop
  | mark (token : Token) : Same token (.mark token)
  | string (value : Bytes) : Same (.string value) (.string value)
  | number {v : Json} {text : Bytes} (h : IsNumber v) : Same (.scalar v) (.number text)

theorem scanToken_number {b : UInt8} {s : Bytes} (hb : b = 0x2d ∨ isDigit b = true) :
    scanToken (b :: s) =
      (scanNumber (b :: s)).map fun (value, rest) => (.scalar value, rest) := by
  have hmarks : ∀ x ∈ ([0x5b, 0x5d, 0x7b, 0x7d, 0x3a, 0x2c, 0x74, 0x66, 0x6e, 0x22] : Bytes),
      ¬ (x = 0x2d ∨ isDigit x = true) := by
    have hall : (([0x5b, 0x5d, 0x7b, 0x7d, 0x3a, 0x2c, 0x74, 0x66, 0x6e, 0x22] : Bytes).all
        fun x => !decide (x = 0x2d ∨ isDigit x = true)) = true := rfl
    intro x hx
    simpa using List.all_eq_true.mp hall x hx
  have hne : ∀ x ∈ ([0x5b, 0x5d, 0x7b, 0x7d, 0x3a, 0x2c, 0x74, 0x66, 0x6e, 0x22] : Bytes),
      b ≠ x := fun x hx he => hmarks x hx (he ▸ hb)
  simp only [List.mem_cons, List.not_mem_nil, or_false, forall_eq_or_imp, forall_eq] at hne
  obtain ⟨h₁, h₂, h₃, h₄, h₅, h₆, h₇, h₈, h₉, h₁₀⟩ := hne
  rw [scanToken, if_neg h₁, if_neg h₂, if_neg h₃, if_neg h₄, if_neg h₅, if_neg h₆, if_neg h₇,
    if_neg h₈, if_neg h₉, if_neg h₁₀, if_pos hb]

theorem lexeme_of_scan {s rest after : Bytes} {token : Token} {l : Lexeme}
    (hscan : scanToken s = some (token, rest)) (hlexeme : lexeme s = some (l, after)) :
    Same token l ∧ after = rest := by
  cases s with
  | nil =>
    cases hscan
    cases hlexeme
    exact ⟨.mark _, rfl⟩
  | cons b s =>
    rw [lexeme] at hlexeme
    split at hlexeme
    · rename_i hb
      subst hb
      have hstring : scanToken (0x22 :: s) =
          (scanString (s.length + 1) s).map fun (value, rest) => (.string value, rest) := rfl
      rw [hstring] at hscan
      obtain ⟨⟨value, left⟩, hvalue, hout⟩ := Option.map_eq_some_iff.mp hscan
      obtain ⟨rfl, rfl⟩ := Prod.mk.inj hout
      rw [text_of_scan hvalue] at hlexeme
      obtain ⟨rfl, rfl⟩ := Prod.mk.inj (Option.some.inj hlexeme)
      exact ⟨.string _, rfl⟩
    · rename_i hquote
      split at hlexeme
      · rename_i hb
        rw [scanToken_number hb] at hscan
        obtain ⟨⟨v, left⟩, hv, hout⟩ := Option.map_eq_some_iff.mp hscan
        obtain ⟨rfl, rfl⟩ := Prod.mk.inj hout
        obtain ⟨hafter, hkind⟩ := afterNumber_of_scan hv
        rw [hafter] at hlexeme
        obtain ⟨rfl, rfl⟩ := Prod.mk.inj (Option.some.inj hlexeme)
        exact ⟨.number hkind, rfl⟩
      · split at hlexeme
        · cases hlexeme
        · rw [hscan] at hlexeme
          obtain ⟨rfl, rfl⟩ := Prod.mk.inj (Option.some.inj hlexeme)
          exact ⟨.mark _, rfl⟩

theorem skipGap_eq {comments : Bool} {fuel : Nat} {s : Bytes}
    (h : ∀ rest, s.dropWhile isSpace ≠ 0x2f :: rest) :
    skipGap comments (fuel + 1) s = some (s.dropWhile isSpace) := by
  rw [skipGap]
  split
  · rename_i rest heq
    exact absurd heq (h rest)
  · rfl

/-- No lexeme begins with a slash, so comments make no difference. -/
theorem next_of_scan {comments : Bool} {s rest after : Bytes} {token : Token} {l : Lexeme}
    (hscan : scan comments s = some (token, rest)) (hnext : next s = some (l, after)) :
    Same token l ∧ after = rest := by
  rw [next] at hnext
  have hslash : ∀ more, s.dropWhile isSpace ≠ 0x2f :: more := by
    intro more heq
    rw [heq] at hnext
    cases hnext
  rw [scan, skipGap_eq hslash, Option.bind_some] at hscan
  exact lexeme_of_scan hscan hnext

/-- A mark is a token of the parser. -/
theorem scan_of_next {comments : Bool} {s rest : Bytes} {token : Token}
    (h : next s = some (.mark token, rest)) : scan comments s = some (token, rest) := by
  rw [next] at h
  have hslash : ∀ more, s.dropWhile isSpace ≠ 0x2f :: more := by
    intro more heq
    rw [heq] at h
    cases h
  rw [scan, skipGap_eq hslash, Option.bind_some]
  cases hs : s.dropWhile isSpace with
  | nil =>
    rw [hs] at h
    cases h
    rfl
  | cons b more =>
    rw [hs, lexeme] at h
    split at h
    · obtain ⟨out, -, hout⟩ := Option.map_eq_some_iff.mp h
      cases hout
    · split at h
      · obtain ⟨out, -, hout⟩ := Option.map_eq_some_iff.mp h
        cases hout
      · split at h
        · cases h
        · obtain ⟨⟨t, r⟩, hscan, hout⟩ := Option.map_eq_some_iff.mp h
          obtain ⟨ht, rfl⟩ := Prod.mk.inj hout
          cases ht
          exact hscan

/-- The first element of an array has a lexeme. -/
theorem next_of_elements {fuel : Nat} {s : Bytes} {out : List Document × Bytes}
    (h : elements fuel s = some out) : ∃ found, next s = some found := by
  cases fuel with
  | zero => cases h
  | succ fuel =>
    rw [elements] at h
    obtain ⟨first, hfirst, -⟩ := Option.bind_eq_some_iff.mp h
    cases fuel with
    | zero => cases hfirst
    | succ fuel =>
      cases hnext : next s with
      | none =>
        rw [value, hnext] at hfirst
        cases hfirst
      | some found => exact ⟨found, rfl⟩

/-! ### Values -/

/-- What the two parsers read with the same fuel. -/
structure Agree (comments : Bool) (fuel : Nat) : Prop where
  value : ∀ {s rest after : Bytes} {v : Json} {document : Document},
    Nlohmann.value comments fuel s = some (v, rest) → value fuel s = some (document, after) →
      Matches v document ∧ after = rest
  elements : ∀ {s rest after : Bytes} {vs : List Json} {items : List Document},
    Nlohmann.elements comments fuel s = some (vs, rest) → elements fuel s = some (items, after) →
      MatchesItems vs items ∧ after = rest
  members : ∀ {key s rest after : Bytes} {vs : List (Bytes × Json)}
    {all : List (Bytes × Document)},
    Nlohmann.members comments fuel key s = some (vs, rest) →
      members fuel key s = some (all, after) → MatchesMembers vs all ∧ after = rest

variable {comments : Bool}

theorem agree_elements {fuel : Nat} (ih : Agree comments fuel) {s rest after : Bytes}
    {vs : List Json} {items : List Document}
    (h : Nlohmann.elements comments (fuel + 1) s = some (vs, rest))
    (hdoc : elements (fuel + 1) s = some (items, after)) :
    MatchesItems vs items ∧ after = rest := by
  rw [Nlohmann.elements] at h
  rw [elements] at hdoc
  obtain ⟨⟨v, r⟩, hv, h⟩ := Option.bind_eq_some_iff.mp h
  obtain ⟨⟨item, r'⟩, hitem, hdoc⟩ := Option.bind_eq_some_iff.mp hdoc
  obtain ⟨hmatch, rfl⟩ := ih.value hv hitem
  dsimp only at h hdoc
  cases hnext : next r' with
  | none =>
    rw [hnext] at hdoc
    cases hdoc
  | some found =>
    obtain ⟨l, left⟩ := found
    rw [hnext] at hdoc
    split at h
    · rename_i rest' hscan
      obtain ⟨hsame, rfl⟩ := next_of_scan hscan hnext
      cases hsame
      obtain ⟨⟨vs', r₂⟩, hvs, hout⟩ := Option.map_eq_some_iff.mp h
      obtain ⟨rfl, rfl⟩ := Prod.mk.inj hout
      obtain ⟨⟨items', r₃⟩, hitems, hout⟩ := Option.map_eq_some_iff.mp hdoc
      obtain ⟨rfl, rfl⟩ := Prod.mk.inj hout
      obtain ⟨hrest, rfl⟩ := ih.elements hvs hitems
      exact ⟨.cons hmatch hrest, rfl⟩
    · rename_i rest' hscan
      obtain ⟨hsame, rfl⟩ := next_of_scan hscan hnext
      cases hsame
      obtain ⟨rfl, rfl⟩ := Prod.mk.inj (Option.some.inj h)
      obtain ⟨rfl, rfl⟩ := Prod.mk.inj (Option.some.inj hdoc)
      exact ⟨.cons hmatch .nil, rfl⟩
    · cases h

theorem agree_members {fuel : Nat} (ih : Agree comments fuel) {key s rest after : Bytes}
    {vs : List (Bytes × Json)} {all : List (Bytes × Document)}
    (h : Nlohmann.members comments (fuel + 1) key s = some (vs, rest))
    (hdoc : members (fuel + 1) key s = some (all, after)) :
    MatchesMembers vs all ∧ after = rest := by
  rw [Nlohmann.members] at h
  rw [members] at hdoc
  split at h
  · rename_i colon hcolon
    cases hnext : next s with
    | none =>
      rw [hnext] at hdoc
      cases hdoc
    | some found =>
      obtain ⟨l, left⟩ := found
      rw [hnext] at hdoc
      obtain ⟨hsame, rfl⟩ := next_of_scan hcolon hnext
      cases hsame
      obtain ⟨⟨v, r⟩, hv, h⟩ := Option.bind_eq_some_iff.mp h
      obtain ⟨⟨item, r'⟩, hitem, hdoc⟩ := Option.bind_eq_some_iff.mp hdoc
      obtain ⟨hmatch, rfl⟩ := ih.value hv hitem
      dsimp only at h hdoc
      cases hend : next r' with
      | none =>
        rw [hend] at hdoc
        cases hdoc
      | some found =>
        obtain ⟨l, left'⟩ := found
        rw [hend] at hdoc
        split at h
        · rename_i comma hcomma
          obtain ⟨hsame, rfl⟩ := next_of_scan hcomma hend
          cases hsame
          dsimp only at hdoc
          split at h
          · rename_i name afterName hname
            cases hkey : next left' with
            | none =>
              rw [hkey] at hdoc
              cases hdoc
            | some found =>
              obtain ⟨l, left''⟩ := found
              rw [hkey] at hdoc
              obtain ⟨hsame, rfl⟩ := next_of_scan hname hkey
              cases hsame with
              | mark => cases hdoc
              | string =>
                obtain ⟨⟨vs', r₂⟩, hvs, hout⟩ := Option.map_eq_some_iff.mp h
                obtain ⟨rfl, rfl⟩ := Prod.mk.inj hout
                obtain ⟨⟨all', r₃⟩, hall, hout⟩ := Option.map_eq_some_iff.mp hdoc
                obtain ⟨rfl, rfl⟩ := Prod.mk.inj hout
                obtain ⟨hrest, rfl⟩ := ih.members hvs hall
                exact ⟨.cons hmatch hrest, rfl⟩
          · cases h
        · rename_i brace hbrace
          obtain ⟨hsame, rfl⟩ := next_of_scan hbrace hend
          cases hsame
          obtain ⟨rfl, rfl⟩ := Prod.mk.inj (Option.some.inj h)
          obtain ⟨rfl, rfl⟩ := Prod.mk.inj (Option.some.inj hdoc)
          exact ⟨.cons hmatch .nil, rfl⟩
        · cases h
  · cases h

theorem agree_value {fuel : Nat} (ih : Agree comments fuel) {s rest after : Bytes} {v : Json}
    {document : Document} (h : Nlohmann.value comments (fuel + 1) s = some (v, rest))
    (hdoc : value (fuel + 1) s = some (document, after)) :
    Matches v document ∧ after = rest := by
  rw [Nlohmann.value] at h
  rw [value] at hdoc
  cases hnext : next s with
  | none =>
    rw [hnext] at hdoc
    cases hdoc
  | some found =>
    obtain ⟨l, left⟩ := found
    rw [hnext] at hdoc
    split at h
    · rename_i inside hopen
      obtain ⟨hsame, rfl⟩ := next_of_scan hopen hnext
      cases hsame
      dsimp only at hdoc
      cases hfirst : next left with
      | none =>
        rw [hfirst] at hdoc
        cases hdoc
      | some found =>
        obtain ⟨l, left'⟩ := found
        rw [hfirst] at hdoc
        split at h
        · rename_i brace hbrace
          obtain ⟨hsame, rfl⟩ := next_of_scan hbrace hfirst
          cases hsame
          obtain ⟨rfl, rfl⟩ := Prod.mk.inj (Option.some.inj h)
          obtain ⟨rfl, rfl⟩ := Prod.mk.inj (Option.some.inj hdoc)
          exact ⟨.object .nil, rfl⟩
        · rename_i key afterKey hkey
          obtain ⟨hsame, rfl⟩ := next_of_scan hkey hfirst
          cases hsame with
          | mark => cases hdoc
          | string =>
            obtain ⟨⟨vs, r⟩, hvs, hout⟩ := Option.map_eq_some_iff.mp h
            obtain ⟨rfl, rfl⟩ := Prod.mk.inj hout
            obtain ⟨⟨all, r'⟩, hall, hout⟩ := Option.map_eq_some_iff.mp hdoc
            obtain ⟨rfl, rfl⟩ := Prod.mk.inj hout
            obtain ⟨hmatch, rfl⟩ := ih.members hvs hall
            exact ⟨.object hmatch, rfl⟩
        · cases h
    · rename_i inside hopen
      obtain ⟨hsame, rfl⟩ := next_of_scan hopen hnext
      cases hsame
      dsimp only at hdoc
      split at h
      · rename_i bracket hbracket
        obtain ⟨rfl, rfl⟩ := Prod.mk.inj (Option.some.inj h)
        split at hdoc
        · rename_i bracket' hclose
          obtain ⟨-, rfl⟩ := next_of_scan hbracket hclose
          obtain ⟨rfl, rfl⟩ := Prod.mk.inj (Option.some.inj hdoc)
          exact ⟨.array .nil, rfl⟩
        · rename_i hno
          obtain ⟨out, helements, -⟩ := Option.map_eq_some_iff.mp hdoc
          obtain ⟨⟨l, r⟩, hfirst⟩ := next_of_elements helements
          obtain ⟨hsame, -⟩ := next_of_scan hbracket hfirst
          cases hsame
          exact absurd hfirst (hno r)
      · rename_i hno
        split at hdoc
        · rename_i bracket hclose
          exact absurd (scan_of_next hclose) (hno bracket)
        · obtain ⟨⟨vs, r⟩, hvs, hout⟩ := Option.map_eq_some_iff.mp h
          obtain ⟨rfl, rfl⟩ := Prod.mk.inj hout
          obtain ⟨⟨items, r'⟩, hitems, hout⟩ := Option.map_eq_some_iff.mp hdoc
          obtain ⟨rfl, rfl⟩ := Prod.mk.inj hout
          obtain ⟨hmatch, rfl⟩ := ih.elements hvs hitems
          exact ⟨.array hmatch, rfl⟩
    · rename_i text left' htext
      obtain ⟨hsame, rfl⟩ := next_of_scan htext hnext
      obtain ⟨rfl, rfl⟩ := Prod.mk.inj (Option.some.inj h)
      cases hsame with
      | mark => cases hdoc
      | string =>
        obtain ⟨rfl, rfl⟩ := Prod.mk.inj (Option.some.inj hdoc)
        exact ⟨.string _, rfl⟩
    · rename_i scalar left' hscalar
      obtain ⟨hsame, rfl⟩ := next_of_scan hscalar hnext
      obtain ⟨rfl, rfl⟩ := Prod.mk.inj (Option.some.inj h)
      cases hsame with
      | mark =>
        cases scalar with
        | null =>
          obtain ⟨rfl, rfl⟩ := Prod.mk.inj (Option.some.inj hdoc)
          exact ⟨.null, rfl⟩
        | boolean b =>
          obtain ⟨rfl, rfl⟩ := Prod.mk.inj (Option.some.inj hdoc)
          exact ⟨.boolean b, rfl⟩
        | _ => cases hdoc
      | number hkind =>
        obtain ⟨rfl, rfl⟩ := Prod.mk.inj (Option.some.inj hdoc)
        exact ⟨.number hkind, rfl⟩
    · cases h

theorem agree (fuel : Nat) : Agree comments fuel := by
  induction fuel with
  | zero =>
    exact {
      value := fun h _ => (nomatch h)
      elements := fun h _ => (nomatch h)
      members := fun h _ => (nomatch h) }
  | succ fuel ih =>
    exact {
      value := agree_value ih
      elements := agree_elements ih
      members := agree_members ih }

/-- **What the C++ library reads of a document is its value**, with or without comments. -/
theorem parse_document {body : Bytes} {v : Json} {document : Document}
    (h : parse comments body = some v) (hread : read body = some document) :
    Matches v document := by
  obtain ⟨⟨document', after⟩, hvalue, hread⟩ := Option.bind_eq_some_iff.mp hread
  have hbom : skipBom body = some body := by
    cases body with
    | nil => rfl
    | cons b s =>
      refine skipBom_of_head fun hb => ?_
      subst hb
      cases hvalue
  simp only [parse, hbom, Option.bind_eq_bind, Option.bind_some] at h
  obtain ⟨⟨v', rest⟩, hv, h⟩ := Option.bind_eq_some_iff.mp h
  dsimp only at h hread
  split at h
  · split at hread
    · obtain ⟨hmatch, -⟩ := (agree _).value hv hvalue
      rw [← Option.some.inj h, ← Option.some.inj hread]
      exact hmatch
    · cases hread
  · cases h

end Document
end SwmSdk
