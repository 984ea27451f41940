import Mathlib.Data.List.Forall2
import SwmSdk.JsonText

/-! # The grammar of JSON

The texts of RFC 8259, in UTF-8, with the names of an object's members decoded.  Every text that
the grammar derives has the shape that a reader of quotes and brackets relies on
(`Derives.shaped`): a value has `ValueShape`, and the members of an object are pieces between
commas.
-/
namespace JsonGrammar
open ByteText JsonText

/-! ## Strings -/

/-- What an escape of one letter stands for. -/
def escaped (b : UInt8) : Option Char :=
  if b = 0x22 ∨ b = 0x5c ∨ b = 0x2f then some (Char.ofNat b.toNat)
  else if b = 0x62 then some (Char.ofNat 0x08)
  else if b = 0x66 then some (Char.ofNat 0x0c)
  else if b = 0x6e then some (Char.ofNat 0x0a)
  else if b = 0x72 then some (Char.ofNat 0x0d)
  else if b = 0x74 then some (Char.ofNat 0x09)
  else none

/-- The UTF-16 code unit of four hexadecimal digits. -/
def codeUnit (a b c d : UInt8) : Option Nat := do
  let a ← hexValue a
  let b ← hexValue b
  let c ← hexValue c
  let d ← hexValue d
  some (((a * 16 + b) * 16 + c) * 16 + d)

/-- A character that may stand in a string as it is. -/
def Unescaped (c : Char) : Prop := 0x20 ≤ c.toNat ∧ c.toNat ≠ 0x22 ∧ c.toNat ≠ 0x5c

/-- The text of a string between its quotes.  The grammar allows an escape of half a
surrogate pair. -/
inductive StringText : Bytes → Prop where
  | nil : StringText []
  | plain {c : Char} {t : Bytes} (hc : Unescaped c) (ht : StringText t) :
      StringText (String.utf8EncodeChar c ++ t)
  | escape {b : UInt8} {t : Bytes} (hb : (escaped b).isSome) (ht : StringText t) :
      StringText (0x5c :: b :: t)
  | unicode {a b c d : UInt8} {t : Bytes} (hu : (codeUnit a b c d).isSome) (ht : StringText t) :
      StringText (0x5c :: 0x75 :: a :: b :: c :: d :: t)

/-- The text of a string and the characters it stands for, in UTF-8; half a surrogate
pair stands for none. -/
inductive Decodes : Bytes → Bytes → Prop where
  | nil : Decodes [] []
  | plain {c : Char} {t name : Bytes} (hc : Unescaped c) (ht : Decodes t name) :
      Decodes (String.utf8EncodeChar c ++ t) (String.utf8EncodeChar c ++ name)
  | escape {b : UInt8} {c : Char} {t name : Bytes} (hb : escaped b = some c)
      (ht : Decodes t name) : Decodes (0x5c :: b :: t) (String.utf8EncodeChar c ++ name)
  | unicode {a b c d : UInt8} {char : Char} {t name : Bytes}
      (hu : codeUnit a b c d = some char.toNat) (ht : Decodes t name) :
      Decodes (0x5c :: 0x75 :: a :: b :: c :: d :: t) (String.utf8EncodeChar char ++ name)
  | pair {a b c d e f g h : UInt8} {high low : Nat} {char : Char} {t name : Bytes}
      (hhigh : codeUnit a b c d = some high) (hlow : codeUnit e f g h = some low)
      (hrange : 0xd800 ≤ high ∧ high ≤ 0xdbff ∧ 0xdc00 ≤ low ∧ low ≤ 0xdfff)
      (hchar : char.toNat = 0x10000 + (high - 0xd800) * 0x400 + (low - 0xdc00))
      (ht : Decodes t name) :
      Decodes (0x5c :: 0x75 :: a :: b :: c :: d :: 0x5c :: 0x75 :: e :: f :: g :: h :: t)
        (String.utf8EncodeChar char ++ name)

theorem Decodes.stringText {t name : Bytes} (h : Decodes t name) : StringText t := by
  induction h with
  | nil => exact .nil
  | plain hc _ ih => exact .plain hc ih
  | escape hb _ ih => exact .escape (by rw [hb]; rfl) ih
  | unicode hu _ ih => exact .unicode (by rw [hu]; rfl) ih
  | pair hhigh hlow _ _ _ ih =>
    exact .unicode (by rw [hhigh]; rfl) (.unicode (by rw [hlow]; rfl) ih)

theorem char_toNat_lt (c : Char) : c.toNat < 0xd800 ∨ 0xdfff < c.toNat ∧ c.toNat < 0x110000 :=
  c.valid

/-- The bytes of a character, by its length. -/
theorem utf8EncodeChar_cases (c : Char) :
    (c.toNat < 0x80 ∧ String.utf8EncodeChar c = [UInt8.ofNat c.toNat]) ∨
    ((0x80 ≤ c.toNat ∧ c.toNat < 0x800) ∧ String.utf8EncodeChar c =
      [UInt8.ofNat (0xc0 + c.toNat / 64), UInt8.ofNat (0x80 + c.toNat % 64)]) ∨
    ((0x800 ≤ c.toNat ∧ c.toNat < 0x10000) ∧ String.utf8EncodeChar c =
      [UInt8.ofNat (0xe0 + c.toNat / 4096), UInt8.ofNat (0x80 + c.toNat / 64 % 64),
        UInt8.ofNat (0x80 + c.toNat % 64)]) ∨
    (0x10000 ≤ c.toNat ∧ String.utf8EncodeChar c =
      [UInt8.ofNat (0xf0 + c.toNat / 262144), UInt8.ofNat (0x80 + c.toNat / 4096 % 64),
        UInt8.ofNat (0x80 + c.toNat / 64 % 64), UInt8.ofNat (0x80 + c.toNat % 64)]) := by
  have hlt := char_toNat_lt c
  have hval : c.val.toNat = c.toNat := rfl
  unfold String.utf8EncodeChar
  simp only [hval]
  generalize c.toNat = v at hlt
  by_cases h₁ : v ≤ 0x7f
  · exact .inl ⟨by omega, if_pos h₁⟩
  rw [if_neg h₁]
  by_cases h₂ : v ≤ 0x7ff
  · rw [if_pos h₂, show v / 64 % 0x20 + 0xc0 = 0xc0 + v / 64 by omega, Nat.add_comm (v % 0x40)]
    exact .inr (.inl ⟨by omega, rfl⟩)
  rw [if_neg h₂]
  by_cases h₃ : v ≤ 0xffff
  · rw [if_pos h₃, show v / 4096 % 0x10 + 0xe0 = 0xe0 + v / 4096 by omega,
      Nat.add_comm (v / 64 % 0x40), Nat.add_comm (v % 0x40)]
    exact .inr (.inr (.inl ⟨by omega, rfl⟩))
  · rw [if_neg h₃, show v / 262144 % 0x08 + 0xf0 = 0xf0 + v / 262144 by omega,
      Nat.add_comm (v / 4096 % 0x40), Nat.add_comm (v / 64 % 0x40), Nat.add_comm (v % 0x40)]
    exact .inr (.inr (.inr ⟨by omega, rfl⟩))

theorem ofNat_le {m n : Nat} (h : m ≤ n) (hn : n < 256) : UInt8.ofNat m ≤ UInt8.ofNat n := by
  simp only [UInt8.le_iff_toNat_le, UInt8.toNat_ofNat']
  omega

/-- The first byte of a character is the character itself, or no ASCII byte, and no later byte is
an ASCII byte. -/
theorem utf8EncodeChar_head (c : Char) :
    ∃ b more, String.utf8EncodeChar c = b :: more ∧ (∀ x ∈ more, 0x80 ≤ x) ∧
      (b.toNat = c.toNat ∨ 0x80 ≤ b) := by
  have hlt := char_toNat_lt c
  have high : ∀ {n : Nat}, 0x80 ≤ n → n < 256 → 0x80 ≤ UInt8.ofNat n := ofNat_le
  rcases utf8EncodeChar_cases c with ⟨hv, he⟩ | ⟨hv, he⟩ | ⟨hv, he⟩ | ⟨hv, he⟩
  · refine ⟨_, _, he, by simp, .inl ?_⟩
    rw [UInt8.toNat_ofNat']
    omega
  · refine ⟨_, _, he, ?_, .inr (high (by omega) (by omega))⟩
    exact List.forall_mem_singleton.mpr (high (by omega) (by omega))
  · refine ⟨_, _, he, ?_, .inr (high (by omega) (by omega))⟩
    simp only [List.mem_cons, List.not_mem_nil, or_false, forall_eq_or_imp, forall_eq]
    exact ⟨high (by omega) (by omega), high (by omega) (by omega)⟩
  · refine ⟨_, _, he, ?_, .inr (high (by omega) (by omega))⟩
    simp only [List.mem_cons, List.not_mem_nil, or_false, forall_eq_or_imp, forall_eq]
    exact ⟨high (by omega) (by omega), high (by omega) (by omega), high (by omega) (by omega)⟩

/-! ## Numbers -/

/-- The digits from `low` on. -/
def DigitFrom (low : UInt8) (b : UInt8) : Prop := low ≤ b ∧ b ≤ 0x39

/-- At least one digit. -/
def Digits (t : Bytes) : Prop := t ≠ [] ∧ ∀ b ∈ t, DigitFrom 0x30 b

/-- `int`: zero, or digits that do not start with one. -/
def IntText (t : Bytes) : Prop :=
  t = [0x30] ∨ ∃ d ds, t = d :: ds ∧ DigitFrom 0x31 d ∧ ∀ b ∈ ds, DigitFrom 0x30 b

/-- `frac`, or nothing. -/
def FracText (t : Bytes) : Prop := t = [] ∨ ∃ ds, t = 0x2e :: ds ∧ Digits ds

/-- `exp`, or nothing. -/
def ExpText (t : Bytes) : Prop :=
  t = [] ∨ ∃ e sign ds, t = e :: (sign ++ ds) ∧ (e = 0x65 ∨ e = 0x45) ∧
    (sign = [] ∨ sign = [0x2b] ∨ sign = [0x2d]) ∧ Digits ds

/-- `number`. -/
def NumberText (t : Bytes) : Prop :=
  ∃ minus int frac exp, t = minus ++ (int ++ (frac ++ exp)) ∧ (minus = [] ∨ minus = [0x2d]) ∧
    IntText int ∧ FracText frac ∧ ExpText exp

/-! ## Values -/

/-- A string with its quotes. -/
def quoted (t : Bytes) : Bytes := 0x22 :: (t ++ [0x22])

/-- What the grammar derives: values, the elements of an array, and the members of an object,
as the texts of their names (without quotes) and of their values. -/
inductive Symbol where
  | value
  | elements
  | members (raw : List (Bytes × Bytes))

/-- What the symbols of the grammar derive. -/
inductive Derives : Symbol → Bytes → Prop where
  | literal {t : Bytes} (h : t = ascii "null" ∨ t = ascii "true" ∨ t = ascii "false") :
      Derives .value t
  | number {t : Bytes} (h : NumberText t) : Derives .value t
  | string {t : Bytes} (h : StringText t) : Derives .value (quoted t)
  | emptyArray {w : Bytes} (hw : Spaces w) : Derives .value (0x5b :: (w ++ [0x5d]))
  | array {i : Bytes} (h : Derives .elements i) : Derives .value (0x5b :: (i ++ [0x5d]))
  | emptyObject {w : Bytes} (hw : Spaces w) : Derives .value (0x7b :: (w ++ [0x7d]))
  | object {raw : List (Bytes × Bytes)} {i : Bytes} (h : Derives (.members raw) i) :
      Derives .value (0x7b :: (i ++ [0x7d]))
  | element {w v w' : Bytes} (hw : Spaces w) (hv : Derives .value v) (hw' : Spaces w') :
      Derives .elements (w ++ (v ++ w'))
  | moreElements {w v w' rest : Bytes} (hw : Spaces w) (hv : Derives .value v) (hw' : Spaces w')
      (hrest : Derives .elements rest) : Derives .elements (w ++ (v ++ (w' ++ 0x2c :: rest)))
  | member {p : Piece} {k : Bytes} (hlead : Spaces p.lead) (hkey : p.key = quoted k)
      (hk : StringText k) (hafter : Spaces p.afterKey) (hbefore : Spaces p.beforeValue)
      (hv : Derives .value p.value) (htrail : Spaces p.trail) :
      Derives (.members [(k, p.value)]) p.text
  | moreMembers {p : Piece} {k rest : Bytes} {raw : List (Bytes × Bytes)} (hlead : Spaces p.lead)
      (hkey : p.key = quoted k) (hk : StringText k) (hafter : Spaces p.afterKey)
      (hbefore : Spaces p.beforeValue) (hv : Derives .value p.value) (htrail : Spaces p.trail)
      (hrest : Derives (.members raw) rest) :
      Derives (.members ((k, p.value) :: raw)) (p.text ++ 0x2c :: rest)

/-- The text of an object, with the decoded names of its members and the texts of their values. -/
inductive ObjectText : Bytes → List (Bytes × Bytes) → Prop where
  | empty {w i w' : Bytes} (hw : Spaces w) (hi : Spaces i) (hw' : Spaces w') :
      ObjectText (w ++ 0x7b :: (i ++ 0x7d :: w')) []
  | members {w i w' : Bytes} {raw ms : List (Bytes × Bytes)} (hw : Spaces w)
      (hi : Derives (.members raw) i) (hw' : Spaces w')
      (hnames : List.Forall₂ (fun r m => Decodes r.1 m.1 ∧ m.2 = r.2) raw ms) :
      ObjectText (w ++ 0x7b :: (i ++ 0x7d :: w')) ms

/-! ## The shape of what is derived -/

theorem hexValue_plain {b : UInt8} {n : Nat} (h : hexValue b = some n) :
    b ≠ 0x22 ∧ b ≠ 0x5c := by
  constructor
  · rintro rfl
    cases h
  · rintro rfl
    cases h

theorem codeUnit_plain {a b c d : UInt8} (h : (codeUnit a b c d).isSome) :
    ∀ x ∈ [a, b, c, d], x ≠ 0x22 ∧ x ≠ 0x5c := by
  obtain ⟨n, h⟩ := Option.isSome_iff_exists.mp h
  simp only [codeUnit, Option.bind_eq_bind, Option.bind_eq_some_iff] at h
  obtain ⟨_, ha, _, hb, _, hc, _, hd, -⟩ := h
  simp only [List.mem_cons, List.not_mem_nil, or_false, forall_eq_or_imp, forall_eq]
  exact ⟨hexValue_plain ha, hexValue_plain hb, hexValue_plain hc, hexValue_plain hd⟩

theorem unescaped_plain {c : Char} (hc : Unescaped c) :
    ∀ b ∈ String.utf8EncodeChar c, b ≠ 0x22 ∧ b ≠ 0x5c := by
  obtain ⟨-, hquote, hslash⟩ := hc
  have hhigh : ∀ {x : UInt8}, 0x80 ≤ x → x ≠ 0x22 ∧ x ≠ 0x5c := by
    intro x hx
    exact ⟨by rintro rfl; exact absurd hx (by decide), by rintro rfl; exact absurd hx (by decide)⟩
  obtain ⟨b, more, he, hmore, hb⟩ := utf8EncodeChar_head c
  rw [he]
  refine List.forall_mem_cons.mpr ⟨?_, fun x hx => hhigh (hmore x hx)⟩
  rcases hb with hb | hb
  · exact ⟨by rintro rfl; exact hquote hb.symm, by rintro rfl; exact hslash hb.symm⟩
  · exact hhigh hb

/-- The quote that ends a string is the first that is not escaped. -/
theorem StringText.body {t : Bytes} (h : StringText t) : StringBody t := by
  induction h with
  | nil => exact .nil
  | plain hc _ ih => exact (stringBody_of (unescaped_plain hc)).append ih
  | escape _ _ ih => exact .escape ih
  | @unicode a b c d t hu _ ih =>
    exact .escape ((stringBody_of (codeUnit_plain hu)).append ih)

theorem StringText.quoted {t : Bytes} (h : StringText t) : Quoted (quoted t) := ⟨t, h.body, rfl⟩

theorem isAtom_digit {low b : UInt8} (hlow : 0x30 ≤ low) (h : DigitFrom low b) :
    isAtom b = true := by
  obtain ⟨h₁, h₂⟩ := h
  have hb := UInt8.le_trans hlow h₁
  simp only [UInt8.le_iff_toNat_le] at hb h₂
  simp only [isAtom, isMark, isSpace, Bool.and_eq_true, Bool.not_eq_true', Bool.or_eq_false_iff,
    decide_eq_false_iff_not, decide_eq_true_eq, ne_eq, ← UInt8.toNat_inj]
  simp at hb h₂ ⊢
  omega

theorem Digits.atoms {t : Bytes} (h : Digits t) : ∀ b ∈ t, isAtom b = true :=
  fun b hb => isAtom_digit (UInt8.le_refl _) (h.2 b hb)

theorem IntText.atoms {t : Bytes} (h : IntText t) : t ≠ [] ∧ ∀ b ∈ t, isAtom b = true := by
  rcases h with rfl | ⟨d, ds, rfl, hd, hds⟩
  · exact ⟨List.cons_ne_nil _ _, List.forall_mem_singleton.mpr rfl⟩
  · refine ⟨List.cons_ne_nil _ _, List.forall_mem_cons.mpr ⟨isAtom_digit (by decide) hd, ?_⟩⟩
    exact fun b hb => isAtom_digit (UInt8.le_refl _) (hds b hb)

theorem FracText.atoms {t : Bytes} (h : FracText t) : ∀ b ∈ t, isAtom b = true := by
  rcases h with rfl | ⟨ds, rfl, hds⟩
  · simp
  · exact List.forall_mem_cons.mpr ⟨rfl, hds.atoms⟩

theorem ExpText.atoms {t : Bytes} (h : ExpText t) : ∀ b ∈ t, isAtom b = true := by
  rcases h with rfl | ⟨e, sign, ds, rfl, he, hsign, hds⟩
  · simp
  · refine List.forall_mem_cons.mpr ⟨by rcases he with rfl | rfl <;> rfl, ?_⟩
    refine List.forall_mem_append.mpr ⟨?_, hds.atoms⟩
    rcases hsign with rfl | rfl | rfl
    · exact List.forall_mem_nil _
    · exact List.forall_mem_singleton.mpr rfl
    · exact List.forall_mem_singleton.mpr rfl

/-- A number has no white space, separator or bracket in it. -/
theorem NumberText.atoms {t : Bytes} (h : NumberText t) : t ≠ [] ∧ ∀ b ∈ t, isAtom b = true := by
  obtain ⟨minus, int, frac, exp, rfl, hminus, hint, hfrac, hexp⟩ := h
  constructor
  · intro hnil
    exact hint.atoms.1 (List.append_eq_nil_iff.mp (List.append_eq_nil_iff.mp hnil).2).1
  · refine List.forall_mem_append.mpr ⟨?_, List.forall_mem_append.mpr ⟨hint.atoms.2,
      List.forall_mem_append.mpr ⟨hfrac.atoms, hexp.atoms⟩⟩⟩
    rcases hminus with rfl | rfl
    · exact List.forall_mem_nil _
    · exact List.forall_mem_singleton.mpr rfl

/-- What the text of a symbol looks like to a reader of quotes and brackets. -/
def Shaped : Symbol → Bytes → Prop
  | .value, t => ValueShape t
  | .elements, t => Nested t
  | .members raw, t =>
      ∃ p ps, (∀ rest, t ++ 0x7d :: rest = p.text ++ renderRest ps rest) ∧
        List.Forall₂ (fun p r => p.WellFormed ∧ StringText r.1 ∧ p.key = quoted r.1 ∧
          p.value = r.2) (p :: ps) raw

theorem members_nested {raw : List (Bytes × Bytes)} {t : Bytes} (h : Shaped (.members raw) t) :
    Nested t := by
  obtain ⟨p, ps, hrender, hall⟩ := h
  obtain ⟨hp, hps⟩ := List.forall_mem_cons.mp ((List.forall₂_and_left _ _).mp hall).1
  obtain ⟨i, hi, hrest⟩ := renderRest_nested hps []
  have ht : t = p.text ++ i := by
    have h := hrender []
    rw [hrest, ← List.append_assoc] at h
    exact (List.append_inj' h rfl).1
  rw [ht]
  exact (hp.lead.nested.append (.quoted hp.key hp.tail_nested)).append hi

/-- **What the grammar derives has the shape its symbol says.** -/
theorem Derives.shaped {symbol : Symbol} {t : Bytes} (h : Derives symbol t) : Shaped symbol t := by
  induction h with
  | literal h => rcases h with rfl | rfl | rfl <;> exact .scalar (by decide) (by decide +kernel)
  | number h => exact .scalar h.atoms.1 h.atoms.2
  | string h => exact .quoted h.quoted
  | emptyArray hw => exact .array hw.nested
  | array _ ih => exact .array ih
  | emptyObject hw => exact .object hw.nested
  | object _ ih => exact .object (members_nested ih)
  | element hw _ hw' ih => exact hw.nested.append ((ValueShape.nested ih).append hw'.nested)
  | moreElements hw _ hw' _ ihv ih =>
    exact hw.nested.append ((ValueShape.nested ihv).append (hw'.nested.append (.plain rfl ih)))
  | @member p k hlead hkey hk hafter hbefore _ htrail ih =>
    have hwell : p.WellFormed := ⟨hlead, by rw [hkey]; exact hk.quoted, hafter, hbefore, ih, htrail⟩
    exact ⟨p, [], fun _ => rfl, .cons ⟨hwell, hk, hkey, rfl⟩ .nil⟩
  | @moreMembers p k rest raw hlead hkey hk hafter hbefore _ htrail _ ihv ih =>
    have hwell : p.WellFormed :=
      ⟨hlead, by rw [hkey]; exact hk.quoted, hafter, hbefore, ihv, htrail⟩
    obtain ⟨q, qs, hrender, hall⟩ := ih
    refine ⟨p, q :: qs, fun out => ?_, .cons ⟨hwell, hk, hkey, rfl⟩ hall⟩
    rw [List.append_assoc, List.cons_append, hrender, renderRest]

end JsonGrammar
