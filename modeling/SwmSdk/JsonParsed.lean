import SwmSdk.JsonDump

/-! # Writing what was read

Every value that `parse_json` reads can be written: its texts are UTF-8 (`scanString_utf8`) and its
objects are in order.  What `json_body` writes for it is a normal form: it is read as the same
value, and written again as the same text (`jsonText_normal`).
-/
namespace SwmSdk
namespace Nlohmann
open ByteText JsonText

/-! ## Texts that the parser reads -/

/-- The bytes of one character. -/
inductive Utf8Char : Bytes → Prop
  | plain {b : UInt8} : b < 0x80 → Utf8Char [b]
  | long {b : UInt8} {ranges : List (UInt8 × UInt8)} {taken : Bytes} : 0x80 ≤ b →
      continuation b = some ranges →
      List.Forall₂ (fun r b => r.1 ≤ b ∧ b ≤ r.2) ranges taken → Utf8Char (b :: taken)

theorem takeInRanges_of_forall {ranges : List (UInt8 × UInt8)} {taken : Bytes}
    (h : List.Forall₂ (fun r b => r.1 ≤ b ∧ b ≤ r.2) ranges taken) (t : Bytes) :
    takeInRanges ranges (taken ++ t) = taken := by
  induction h with
  | nil => exact CSharp.takeInRanges_nil t
  | cons hb _ ih => rw [List.cons_append, takeInRanges, if_pos hb, ih]

theorem Utf8Char.append {char : Bytes} (hchar : Utf8Char char) {n : Nat} {text : Bytes}
    (h : isUtf8 n text = true) : isUtf8 (n + 1) (char ++ text) = true := by
  cases hchar with
  | plain hb => rw [List.singleton_append, isUtf8, if_pos hb, h]
  | long hb hranges htaken =>
    rw [List.cons_append, isUtf8, if_neg (UInt8.not_lt.mpr hb), hranges]
    dsimp only
    rw [takeInRanges_of_forall htaken, List.drop_left, h, ← htaken.length_eq, Bool.and_true,
      decide_eq_true_iff]

/-- A text needs no more fuel than it has bytes. -/
theorem validUtf8_of_isUtf8 {n : Nat} {text : Bytes} (h : isUtf8 n text = true) :
    validUtf8 text = true := by
  have enough : ∀ m, text.length ≤ m → isUtf8 m text = true := by
    induction n generalizing text with
    | zero =>
      cases text with
      | nil =>
        intro m _
        cases m <;> rfl
      | cons b rest => cases h
    | succ n ih =>
      cases text with
      | nil =>
        intro m _
        cases m <;> rfl
      | cons b rest =>
        intro m hm
        obtain ⟨m, rfl⟩ := Nat.exists_eq_succ_of_ne_zero (Nat.ne_of_gt (Nat.zero_lt_of_lt hm))
        rw [List.length_cons] at hm
        rw [isUtf8] at h ⊢
        by_cases hb : b < 0x80
        · rw [if_pos hb] at h ⊢
          exact ih h m (by omega)
        · rw [if_neg hb] at h ⊢
          cases hranges : continuation b with
          | none =>
            rw [hranges] at h
            cases h
          | some ranges =>
            rw [hranges] at h
            dsimp only at h ⊢
            rw [Bool.and_eq_true] at h ⊢
            refine ⟨h.1, ih h.2 m ?_⟩
            rw [List.length_drop]
            omega
  exact enough _ (Nat.le_refl _)

/-- The bytes of a code point that is no surrogate are one character. -/
theorem utf8Char_utf8 {n : Nat} (h : n < 0xd800 ∨ 0xdfff < n ∧ n ≤ 0x10ffff) :
    Utf8Char (utf8 n) := by
  have htwo : ∀ k < 32, 2 ≤ k → continuation (UInt8.ofNat (0xc0 + k)) = some [(0x80, 0xbf)] := by
    decide
  -- the second byte leaves out what would be overlong, a surrogate or beyond the last plane
  have hthree : ∀ k < 16, continuation (UInt8.ofNat (0xe0 + k)) =
      some [(UInt8.ofNat (if k = 0 then 0xa0 else 0x80),
        UInt8.ofNat (if k = 13 then 0x9f else 0xbf)), (0x80, 0xbf)] := by decide
  have hfour : ∀ k < 5, continuation (UInt8.ofNat (0xf0 + k)) =
      some [(UInt8.ofNat (if k = 0 then 0x90 else 0x80),
        UInt8.ofNat (if k = 4 then 0x8f else 0xbf)), (0x80, 0xbf), (0x80, 0xbf)] := by decide
  have htail : ∀ k, 0x80 ≤ UInt8.ofNat (0x80 + k % 64) ∧ UInt8.ofNat (0x80 + k % 64) ≤ 0xbf :=
    fun k => @between 0x80 _ 0xbf (by omega) (by omega) (by decide)
  have hfirst : ∀ k, 0x80 ≤ k → k ≤ 0xff → 0x80 ≤ UInt8.ofNat k := fun k hlow hhigh =>
    (@between 0x80 k 0xff hlow hhigh (by decide)).1
  unfold utf8
  split
  · rename_i hsmall
    refine .plain ?_
    exact UInt8.lt_of_le_of_lt (@between 0 n 0x7f (by omega) (by omega) (by decide)).2 (by decide)
  · split
    · refine .long (hfirst _ (by omega) (by omega)) (htwo (n / 64) (by omega) (by omega)) ?_
      exact .cons (htail n) .nil
    · split
      · refine .long (hfirst _ (by omega) (by omega)) (hthree (n / 4096) (by omega)) ?_
        refine .cons (between ?_ ?_ ?_) (.cons (htail n) .nil)
        · split <;> omega
        · split <;> omega
        · split <;> decide
      · refine .long (hfirst _ (by omega) (by omega)) (hfour (n / 262144) (by omega)) ?_
        refine .cons (between ?_ ?_ ?_) (.cons (htail (n / 64)) (.cons (htail n) .nil))
        · split <;> omega
        · split <;> omega
        · split <;> decide

theorem hexDigitValue_lt {b : UInt8} {n : Nat} (h : hexDigitValue b = some n) : n < 16 := by
  unfold hexDigitValue at h
  simp only [UInt8.le_iff_toNat_le] at h
  split_ifs at h with h₁ h₂ h₃
  · obtain rfl := Option.some.inj h
    exact Nat.lt_of_le_of_lt (Nat.sub_le_sub_right h₁.2 _) (by decide)
  · obtain rfl := Option.some.inj h
    exact Nat.lt_of_le_of_lt (Nat.sub_le_sub_right h₂.2 _) (by decide)
  · obtain rfl := Option.some.inj h
    exact Nat.lt_of_le_of_lt (Nat.sub_le_sub_right h₃.2 _) (by decide)

theorem getCodepoint_lt {s rest : Bytes} {n : Nat} (h : getCodepoint s = some (n, rest)) :
    n < 0x10000 := by
  unfold getCodepoint at h
  split at h
  · obtain ⟨va, ha, h⟩ := Option.bind_eq_some_iff.mp h
    obtain ⟨vb, hb, h⟩ := Option.bind_eq_some_iff.mp h
    obtain ⟨vc, hc, h⟩ := Option.bind_eq_some_iff.mp h
    obtain ⟨vd, hd, h⟩ := Option.bind_eq_some_iff.mp h
    obtain ⟨rfl, -⟩ := Prod.mk.inj (Option.some.inj h)
    have hva := hexDigitValue_lt ha
    have hvb := hexDigitValue_lt hb
    have hvc := hexDigitValue_lt hc
    have hvd := hexDigitValue_lt hd
    omega
  · cases h

theorem scanUnicode_char {s char rest : Bytes} (h : scanUnicode s = some (char, rest)) :
    Utf8Char char := by
  unfold scanUnicode at h
  obtain ⟨⟨first, after⟩, hfirst, h⟩ := Option.bind_eq_some_iff.mp h
  have hlt := getCodepoint_lt hfirst
  dsimp only at h
  split at h
  · split at h
    · obtain ⟨⟨second, out⟩, hsecond, h⟩ := Option.bind_eq_some_iff.mp h
      dsimp only at h
      split at h
      · obtain ⟨rfl, rfl⟩ := Prod.mk.inj (Option.some.inj h)
        exact utf8Char_utf8 (.inr ⟨by omega, by omega⟩)
      · cases h
    · cases h
  · split at h
    · cases h
    · obtain ⟨rfl, rfl⟩ := Prod.mk.inj (Option.some.inj h)
      exact utf8Char_utf8 (by omega)

theorem takeRanges_forall {ranges : List (UInt8 × UInt8)} {s taken rest : Bytes}
    (h : takeRanges ranges s = some (taken, rest)) :
    List.Forall₂ (fun r b => r.1 ≤ b ∧ b ≤ r.2) ranges taken := by
  induction ranges generalizing s taken with
  | nil =>
    cases h
    exact .nil
  | cons range ranges ih =>
    obtain ⟨low, high⟩ := range
    cases s with
    | nil => cases h
    | cons b s =>
      rw [takeRanges] at h
      split at h
      · rename_i hb
        obtain ⟨⟨more, out⟩, hmore, he⟩ := Option.map_eq_some_iff.mp h
        cases he
        exact .cons hb (ih hmore)
      · cases h

theorem scanEscape_char {s char rest : Bytes} (h : scanEscape s = some (char, rest)) :
    Utf8Char char := by
  unfold scanEscape at h
  split at h
  case h_9 => exact scanUnicode_char h
  case h_10 => cases h
  all_goals
    cases h
    exact .plain (by decide)

theorem scanChar_char {s char rest : Bytes} (h : scanChar s = some (char, rest)) :
    Utf8Char char := by
  unfold scanChar at h
  split at h
  · exact scanEscape_char h
  · split at h
    · cases h
    · split at h
      · rename_i hb
        cases h
        exact .plain hb
      · rename_i hb
        obtain ⟨ranges, hranges, h⟩ := Option.bind_eq_some_iff.mp h
        obtain ⟨⟨taken, out⟩, htaken, he⟩ := Option.map_eq_some_iff.mp h
        cases he
        exact .long (UInt8.not_lt.mp hb) hranges (takeRanges_forall htaken)
  · cases h

/-- **A text that is read is UTF-8.** -/
theorem scanString_utf8 {fuel : Nat} {s text rest : Bytes}
    (h : scanString fuel s = some (text, rest)) : validUtf8 text = true := by
  have hchars : ∃ n, isUtf8 n text = true := by
    induction fuel generalizing s text with
    | zero => cases h
    | succ fuel ih =>
      by_cases hquote : s.head? = some 0x22
      · cases s with
        | nil => cases hquote
        | cons b s =>
          obtain rfl := Option.some.inj hquote
          cases h
          exact ⟨0, rfl⟩
      · rw [scanString_step hquote] at h
        obtain ⟨⟨char, after⟩, hchar, h⟩ := Option.bind_eq_some_iff.mp h
        obtain ⟨⟨chars, out⟩, hrest, h⟩ := Option.bind_eq_some_iff.mp h
        obtain ⟨rfl, rfl⟩ := Prod.mk.inj (Option.some.inj h)
        obtain ⟨n, hn⟩ := ih hrest
        exact ⟨n + 1, (scanChar_char hchar).append hn⟩
  obtain ⟨n, hn⟩ := hchars
  exact validUtf8_of_isUtf8 hn

theorem scan_string_utf8 {comments : Bool} {s text rest : Bytes}
    (h : scan comments s = some (.string text, rest)) : validUtf8 text = true := by
  obtain ⟨t, -, htoken⟩ := Option.bind_eq_some_iff.mp h
  cases t with
  | nil => cases htoken
  | cons b t =>
    rw [scanToken] at htoken
    obtain ⟨-, htoken⟩ := ite_skip htoken (by simp)
    obtain ⟨-, htoken⟩ := ite_skip htoken (by simp)
    obtain ⟨-, htoken⟩ := ite_skip htoken (by simp)
    obtain ⟨-, htoken⟩ := ite_skip htoken (by simp)
    obtain ⟨-, htoken⟩ := ite_skip htoken (by simp)
    obtain ⟨-, htoken⟩ := ite_skip htoken (by simp)
    split at htoken
    · cases scanLiteral_token htoken
    split at htoken
    · cases scanLiteral_token htoken
    split at htoken
    · cases scanLiteral_token htoken
    split at htoken
    · obtain ⟨⟨chars, out⟩, hchars, he⟩ := Option.map_eq_some_iff.mp htoken
      cases he
      exact scanString_utf8 hchars
    split at htoken
    · obtain ⟨⟨number, out⟩, -, he⟩ := Option.map_eq_some_iff.mp htoken
      cases he
    · obtain ⟨-, htoken⟩ := ite_skip htoken (by simp)
      cases htoken

/-! ## Values that the parser reads -/

/-- What the parser builds has the property, if its parts have it. -/
structure Inherited (P : Json → Prop) : Prop where
  scalar : ∀ {comments : Bool} {s rest : Bytes} {v : Json},
    scan comments s = some (.scalar v, rest) → P v
  string : ∀ text, validUtf8 text = true → P (.string text)
  array : ∀ items : List Json, (∀ v ∈ items, P v) → P (.array items)
  object : ∀ all : List (Bytes × Json), (∀ member ∈ all, validUtf8 member.1 = true ∧ P member.2) →
    P (.object (Json.fromMembers all))

section Parse
variable {P : Json → Prop} {comments : Bool}

/-- The parser with this fuel reads only what has the property. -/
structure Inherits (P : Json → Prop) (comments : Bool) (fuel : Nat) : Prop where
  value : ∀ {s v rest}, value comments fuel s = some (v, rest) → P v
  elements : ∀ {s vs rest}, elements comments fuel s = some (vs, rest) → ∀ v ∈ vs, P v
  members : ∀ {key s ms rest}, validUtf8 key = true →
    members comments fuel key s = some (ms, rest) →
      ∀ member ∈ ms, validUtf8 member.1 = true ∧ P member.2

theorem inherits_value (hP : Inherited P) {fuel : Nat} (ih : Inherits P comments fuel)
    {s rest : Bytes} {v : Json} (h : value comments (fuel + 1) s = some (v, rest)) : P v := by
  rw [value] at h
  split at h
  · split at h
    · cases h
      exact hP.object [] (List.forall_mem_nil _)
    · rename_i hkey
      obtain ⟨⟨all, out⟩, hmembers, he⟩ := Option.map_eq_some_iff.mp h
      cases he
      exact hP.object all (ih.members (scan_string_utf8 hkey) hmembers)
    · cases h
  · split at h
    · cases h
      exact hP.array [] (List.forall_mem_nil _)
    · obtain ⟨⟨items, out⟩, helements, he⟩ := Option.map_eq_some_iff.mp h
      cases he
      exact hP.array items (ih.elements helements)
  · rename_i hscan
    cases h
    exact hP.string _ (scan_string_utf8 hscan)
  · rename_i hscan
    cases h
    exact hP.scalar hscan
  · cases h

theorem inherits_elements {fuel : Nat} (ih : Inherits P comments fuel) {s rest : Bytes}
    {vs : List Json} (h : elements comments (fuel + 1) s = some (vs, rest)) : ∀ v ∈ vs, P v := by
  rw [elements] at h
  obtain ⟨⟨v, out⟩, hvalue, h⟩ := Option.bind_eq_some_iff.mp h
  dsimp only at h
  split at h
  · obtain ⟨⟨us, out'⟩, helements, he⟩ := Option.map_eq_some_iff.mp h
    cases he
    exact List.forall_mem_cons.mpr ⟨ih.value hvalue, ih.elements helements⟩
  · cases h
    exact List.forall_mem_singleton.mpr (ih.value hvalue)
  · cases h

theorem inherits_members {fuel : Nat} (ih : Inherits P comments fuel) {key s rest : Bytes}
    {ms : List (Bytes × Json)} (hkey : validUtf8 key = true)
    (h : members comments (fuel + 1) key s = some (ms, rest)) :
    ∀ member ∈ ms, validUtf8 member.1 = true ∧ P member.2 := by
  rw [members] at h
  split at h
  · obtain ⟨⟨v, out⟩, hvalue, h⟩ := Option.bind_eq_some_iff.mp h
    dsimp only at h
    split at h
    · split at h
      · rename_i hnext
        obtain ⟨⟨us, out'⟩, hmembers, he⟩ := Option.map_eq_some_iff.mp h
        cases he
        exact List.forall_mem_cons.mpr ⟨⟨hkey, ih.value hvalue⟩,
          ih.members (scan_string_utf8 hnext) hmembers⟩
      · cases h
    · cases h
      exact List.forall_mem_singleton.mpr ⟨hkey, ih.value hvalue⟩
    · cases h
  · cases h

theorem inherits (hP : Inherited P) (fuel : Nat) : Inherits P comments fuel := by
  induction fuel with
  | zero =>
    constructor
    · intro s v rest h
      rw [value] at h
      cases h
    · intro s vs rest h
      rw [elements] at h
      cases h
    · intro key s ms rest _ h
      rw [members] at h
      cases h
  | succ fuel ih => exact ⟨inherits_value hP ih, inherits_elements ih, inherits_members ih⟩

/-- **A property that values inherit from their parts holds of every document.** -/
theorem parse_inherits (hP : Inherited P) {document : Bytes} {v : Json}
    (h : parse comments document = some v) : P v := by
  simp only [parse, Option.bind_eq_bind, Option.bind_eq_some_iff] at h
  obtain ⟨s, -, ⟨u, rest⟩, hvalue, hend⟩ := h
  split at hend
  · cases hend
    exact (inherits hP _).value hvalue
  · cases hend

end Parse

mutual

/-- The doubles in a value. -/
def doubles : Json → List Binary64
  | .float x => [x]
  | .array items => doublesOfItems items
  | .object members => doublesOfMembers members
  | .null => []
  | .boolean _ => []
  | .unsigned _ => []
  | .integer _ => []
  | .string _ => []

/-- The doubles of the items. -/
def doublesOfItems : List Json → List Binary64
  | [] => []
  | item :: items => doubles item ++ doublesOfItems items

/-- The doubles of the members. -/
def doublesOfMembers : List (Bytes × Json) → List Binary64
  | [] => []
  | (_, v) :: members => doubles v ++ doublesOfMembers members

end

theorem utf8Items_iff {items : List Json} : Utf8Items items ↔ ∀ v ∈ items, Utf8 v := by
  induction items with
  | nil => exact iff_of_true trivial (List.forall_mem_nil _)
  | cons item items ih => rw [Utf8Items, ih, List.forall_mem_cons]

theorem utf8Members_iff {members : List (Bytes × Json)} :
    Utf8Members members ↔ ∀ member ∈ members, validUtf8 member.1 = true ∧ Utf8 member.2 := by
  induction members with
  | nil => exact iff_of_true trivial (List.forall_mem_nil _)
  | cons member members ih =>
    obtain ⟨key, v⟩ := member
    rw [Utf8Members, ih, List.forall_mem_cons, and_assoc]

theorem storedItems_iff {toChars : Binary64 → Bytes} {items : List Json} :
    StoredItems toChars items ↔ ∀ v ∈ items, Stored toChars v := by
  induction items with
  | nil => exact iff_of_true trivial (List.forall_mem_nil _)
  | cons item items ih => rw [StoredItems, ih, List.forall_mem_cons]

theorem mem_doublesOfItems {x : Binary64} {v : Json} {items : List Json} (hx : x ∈ doubles v)
    (hv : v ∈ items) : x ∈ doublesOfItems items := by
  induction items with
  | nil => cases hv
  | cons item items ih =>
    rw [doublesOfItems, List.mem_append]
    rcases List.mem_cons.mp hv with rfl | hv
    · exact .inl hx
    · exact .inr (ih hv)

theorem mem_doublesOfMembers {x : Binary64} {member : Bytes × Json}
    {members : List (Bytes × Json)} (hx : x ∈ doubles member.2) (hmem : member ∈ members) :
    x ∈ doublesOfMembers members := by
  induction members with
  | nil => cases hmem
  | cons first members ih =>
    obtain ⟨key, v⟩ := first
    rw [doublesOfMembers, List.mem_append]
    rcases List.mem_cons.mp hmem with rfl | hmem
    · exact .inl hx
    · exact .inr (ih hmem)

/-- A literal or a number is in the range of its type. -/
theorem scan_scalar {comments : Bool} {s rest : Bytes} {v : Json}
    (h : scan comments s = some (.scalar v, rest)) :
    Utf8 v ∧ ∀ toChars, (∀ x ∈ doubles v, Reads (toChars x) (.float x)) → Stored toChars v := by
  have hstored := scan_stored h
  obtain ⟨t, -, htoken⟩ := Option.bind_eq_some_iff.mp h
  rcases scanToken_scalar htoken with rfl | rfl | rfl | ⟨_, _, _, _, hnumber⟩
  · exact ⟨trivial, fun _ _ => trivial⟩
  · exact ⟨trivial, fun _ _ => trivial⟩
  · exact ⟨trivial, fun _ _ => trivial⟩
  · have hkind : (∃ n, v = .unsigned n) ∨ (∃ n, v = .integer n) ∨ ∃ x, v = .float x := by
      have hfloat : ∀ {x : Option Binary64}, x.map Json.float = some v → ∃ x, v = .float x := by
        intro x hx
        obtain ⟨y, -, hy⟩ := Option.map_eq_some_iff.mp hx
        exact ⟨y, hy.symm⟩
      unfold numberValue at hnumber
      dsimp only at hnumber
      split_ifs at hnumber
      · exact .inr (.inl ⟨_, (Option.some.inj hnumber).symm⟩)
      · exact .inr (.inr (hfloat hnumber))
      · exact .inl ⟨_, (Option.some.inj hnumber).symm⟩
      · exact .inr (.inr (hfloat hnumber))
      · exact .inr (.inr (hfloat hnumber))
    rcases hkind with ⟨n, rfl⟩ | ⟨n, rfl⟩ | ⟨x, rfl⟩
    · cases hstored with
      | unsigned hn => exact ⟨trivial, fun _ _ => hn⟩
    · cases hstored with
      | integer hlow hhigh => exact ⟨trivial, fun _ _ => ⟨hlow, hhigh⟩⟩
    · exact ⟨trivial, fun _ hreads => hreads x (List.mem_singleton_self x)⟩

theorem utf8_inherited : Inherited Utf8 where
  scalar h := (scan_scalar h).1
  string _ h := h
  array _ h := utf8Items_iff.mpr h
  object _ h := utf8Members_iff.mpr fun member hmem => h member (Json.mem_fromMembers hmem)

theorem stored_inherited (toChars : Binary64 → Bytes) : Inherited fun v =>
    (∀ x ∈ doubles v, Reads (toChars x) (.float x)) → Stored toChars v where
  scalar h := (scan_scalar h).2 toChars
  string _ _ _ := trivial
  array _ h hreads := storedItems_iff.mpr fun v hv =>
    h v hv fun x hx => hreads x (mem_doublesOfItems hx hv)
  object all h hreads := ⟨sorted_fromMembers all, storedMembers_iff.mpr fun member hmem =>
    (h member (Json.mem_fromMembers hmem)).2 fun x hx => hreads x (mem_doublesOfMembers hx hmem)⟩

/-! ## The normal form -/

section Normal
variable (toChars : Binary64 → Bytes)

mutual

/-- A value and the one that is read for it are written alike. -/
theorem dump_reread : ∀ v : Json, dump toChars (reread v) = dump toChars v
  | .null => rfl
  | .boolean _ => rfl
  | .unsigned _ => rfl
  | .integer (.ofNat _) => rfl
  | .integer (.negSucc _) => rfl
  | .float _ => rfl
  | .string _ => rfl
  | .array [] => rfl
  | .array (item :: items) => by
      rw [reread, rereadItems, dump, dump, dump_reread item, dumpItems_reread items]
  | .object [] => rfl
  | .object ((key, v) :: members) => by
      rw [reread, rereadMembers, dump, dump, dump_reread v, dumpMembers_reread members]

theorem dumpItems_reread : ∀ items : List Json,
    dumpItems toChars (rereadItems items) = dumpItems toChars items
  | [] => rfl
  | item :: items => by
      rw [rereadItems, dumpItems, dumpItems, dump_reread item, dumpItems_reread items]

theorem dumpMembers_reread : ∀ members : List (Bytes × Json),
    dumpMembers toChars (rereadMembers members) = dumpMembers toChars members
  | [] => rfl
  | (key, v) :: members => by
      rw [rereadMembers, dumpMembers, dumpMembers, dump_reread v, dumpMembers_reread members]

end

end Normal

end Nlohmann

namespace Cpp
open ByteText Nlohmann

/-- **What was read can be written, as a normal form**: `json_body` writes every value that
`parse_json` reads; its text is read as the same value, up to the sign of its type, and that value
is written as the same text. -/
theorem jsonText_normal {toChars : Binary64 → Bytes} {what : Bytes → Bytes}
    {text context : Bytes} {value : Json} (h : parseJson what text context = .ok value)
    (hdoubles : ∀ x ∈ doubles value, Reads (toChars x) (.float x)) :
    ∃ normal, jsonText toChars value = .ok normal ∧
      parseJson what normal context = .ok (reread value) ∧
      jsonText toChars (reread value) = .ok normal := by
  have hparse := parseJson_eq_ok.mp h
  have hstored := parse_inherits (stored_inherited toChars) hparse hdoubles
  have hwritten := parseJson_jsonText hstored what context
  obtain ⟨normal, hnormal⟩ := hwritten.1.mpr (parse_inherits utf8_inherited hparse)
  refine ⟨normal, hnormal, hwritten.2 normal hnormal, ?_⟩
  rw [jsonText, dump_reread, ← jsonText, hnormal]

/-- A text with a comment, a name that comes twice, a pair of escapes and a negative zero. -/
def sampleText : Bytes :=
  ascii "\x7b\"b\": 1, /* first */ \"a\\ud83d\\ude00\": [-0, 5], \"b\": -7\x7d"

theorem jsonText_normal_sample : ∃ value normal, parseJson id sampleText [] = .ok value ∧
    jsonText (fun _ => []) value = .ok normal ∧
    parseJson id normal [] = .ok (reread value) ∧
    jsonText (fun _ => []) (reread value) = .ok normal := by
  have hvalue : parseJson id sampleText [] = .ok (.object [
      (ascii "a" ++ [0xf0, 0x9f, 0x98, 0x80], .array [.integer 0, .unsigned 5]),
      (ascii "b", .integer (-7))]) := by rfl
  obtain ⟨normal, hnormal⟩ := @jsonText_normal (fun _ => []) id sampleText [] _ hvalue
    fun x hx => (nomatch hx)
  exact ⟨_, normal, hvalue, hnormal⟩

end Cpp
end SwmSdk
