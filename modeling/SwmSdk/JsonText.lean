import Mathlib.Data.List.DropRight
import Mathlib.Data.List.TakeWhile
import SwmSdk.ByteText

/-! # The shape of JSON text

What a reader needs that looks for the end of a value without parsing it: quoted
texts, in which a quote counts only when it is not escaped, and brackets, which
are balanced outside quoted texts.  `Nested` is any run of bytes that is balanced
in this sense, and `ValueShape` is the text of one value.

`Piece` is one member of an object with the white space around it, and
`renderRest` the text of an object from some member on.
-/
namespace JsonText
open ByteText

/-- Blank, tab, line feed and carriage return. -/
def isSpace (b : UInt8) : Bool := b = 0x20 || b = 0x09 || b = 0x0a || b = 0x0d

/-- White space. -/
def Spaces (w : Bytes) : Prop := ∀ b ∈ w, isSpace b = true

theorem Spaces.nil : Spaces [] := fun _ h => absurd h List.not_mem_nil

theorem Spaces.cons {b : UInt8} {w : Bytes} (hb : isSpace b = true) (hw : Spaces w) :
    Spaces (b :: w) := by
  intro c hc
  rcases List.mem_cons.mp hc with rfl | hc
  · exact hb
  · exact hw c hc

theorem spaces_takeWhile (s : Bytes) : Spaces (s.takeWhile isSpace) :=
  fun _ h => List.mem_takeWhile_imp h

theorem dropWhile_spaces {w s : Bytes} (hw : Spaces w) :
    (w ++ s).dropWhile isSpace = s.dropWhile isSpace := by
  induction w with
  | nil => rfl
  | cons b w ih =>
    rw [List.cons_append, List.dropWhile_cons_of_pos (hw b (List.mem_cons_self ..))]
    exact ih fun c hc => hw c (List.mem_cons_of_mem _ hc)

/-- A quote or a bracket. -/
def isMark (b : UInt8) : Bool :=
  b = 0x22 || b = 0x7b || b = 0x7d || b = 0x5b || b = 0x5d

/-- The bytes between the quotes of a text: every quote in it is escaped. -/
inductive StringBody : Bytes → Prop where
  | nil : StringBody []
  | char {b : UInt8} {t : Bytes} (hq : b ≠ 0x22) (hb : b ≠ 0x5c) (ht : StringBody t) :
      StringBody (b :: t)
  | escape {b : UInt8} {t : Bytes} (ht : StringBody t) : StringBody (0x5c :: b :: t)

theorem StringBody.append {s t : Bytes} (hs : StringBody s) (ht : StringBody t) :
    StringBody (s ++ t) := by
  induction hs with
  | nil => exact ht
  | char hq hb _ ih => exact .char hq hb ih
  | escape _ ih => exact .escape ih

/-- A text without quotes and backslashes is the inside of a string. -/
theorem stringBody_of {t : Bytes} (h : ∀ b ∈ t, b ≠ 0x22 ∧ b ≠ 0x5c) : StringBody t := by
  induction t with
  | nil => exact .nil
  | cons b t ih =>
    have hb := h b (List.mem_cons_self ..)
    exact .char hb.1 hb.2 (ih fun c hc => h c (List.mem_cons_of_mem _ hc))

/-- A text between quotes. -/
def Quoted (t : Bytes) : Prop := ∃ body, StringBody body ∧ t = 0x22 :: (body ++ [0x22])

/-- A run of bytes whose brackets are balanced outside quoted texts. -/
inductive Nested : Bytes → Prop where
  | nil : Nested []
  | plain {b : UInt8} {t : Bytes} (hb : isMark b = false) (ht : Nested t) : Nested (b :: t)
  | quoted {q t : Bytes} (hq : Quoted q) (ht : Nested t) : Nested (q ++ t)
  | braces {i t : Bytes} (hi : Nested i) (ht : Nested t) :
      Nested (0x7b :: (i ++ 0x7d :: t))
  | brackets {i t : Bytes} (hi : Nested i) (ht : Nested t) :
      Nested (0x5b :: (i ++ 0x5d :: t))

theorem Nested.append {s t : Bytes} (hs : Nested s) (ht : Nested t) : Nested (s ++ t) := by
  induction hs with
  | nil => exact ht
  | plain hb _ ih => exact .plain hb ih
  | quoted hq _ ih =>
    rw [List.append_assoc]
    exact .quoted hq ih
  | braces hi _ _ ih =>
    rw [List.cons_append, List.append_assoc, List.cons_append]
    exact .braces hi ih
  | brackets hi _ _ ih =>
    rw [List.cons_append, List.append_assoc, List.cons_append]
    exact .brackets hi ih

theorem Nested.of_plain {t : Bytes} (h : ∀ b ∈ t, isMark b = false) : Nested t := by
  induction t with
  | nil => exact .nil
  | cons b t ih =>
    exact .plain (h b (List.mem_cons_self ..)) (ih fun c hc => h c (List.mem_cons_of_mem _ hc))

theorem Spaces.nested {w : Bytes} (hw : Spaces w) : Nested w := by
  refine .of_plain fun b hb => ?_
  have hs := hw b hb
  simp only [isSpace, Bool.or_eq_true, decide_eq_true_eq] at hs
  rcases hs with ((rfl | rfl) | rfl) | rfl <;> rfl

/-- A byte of a literal or a number. -/
def isAtom (b : UInt8) : Bool := !isMark b && !isSpace b && b ≠ 0x2c && b ≠ 0x3a

/-- The text of one value. -/
inductive ValueShape : Bytes → Prop where
  | quoted {t : Bytes} (h : Quoted t) : ValueShape t
  | scalar {t : Bytes} (hne : t ≠ []) (h : ∀ b ∈ t, isAtom b = true) : ValueShape t
  | object {i : Bytes} (h : Nested i) : ValueShape (0x7b :: (i ++ [0x7d]))
  | array {i : Bytes} (h : Nested i) : ValueShape (0x5b :: (i ++ [0x5d]))

theorem ValueShape.nested {t : Bytes} (h : ValueShape t) : Nested t := by
  cases h with
  | quoted hq =>
    have hn := Nested.quoted hq .nil
    rwa [List.append_nil] at hn
  | scalar _ h =>
    refine .of_plain fun b hb => ?_
    have hatom := h b hb
    simp only [isAtom, Bool.and_eq_true, Bool.not_eq_true'] at hatom
    exact hatom.1.1.1
  | object hi => exact .braces hi .nil
  | array hi => exact .brackets hi .nil

theorem isAtom_iff {b : UInt8} :
    isAtom b = true ↔ isMark b = false ∧ isSpace b = false ∧ b ≠ 0x2c ∧ b ≠ 0x3a := by
  simp only [isAtom, Bool.and_eq_true, Bool.not_eq_true', decide_eq_true_eq, and_assoc]

/-- A value starts with no white space and no separator. -/
theorem ValueShape.head {t : Bytes} (h : ValueShape t) :
    ∃ b more, t = b :: more ∧ isSpace b = false ∧ b ≠ 0x3a := by
  cases h with
  | quoted hq =>
    obtain ⟨body, -, rfl⟩ := hq
    exact ⟨0x22, _, rfl, rfl, by decide⟩
  | scalar hne h =>
    obtain ⟨b, more, rfl⟩ := List.exists_cons_of_ne_nil hne
    obtain ⟨-, hspace, -, hcolon⟩ := isAtom_iff.mp (h b (List.mem_cons_self ..))
    exact ⟨b, more, rfl, hspace, hcolon⟩
  | object => exact ⟨0x7b, _, rfl, rfl, by decide⟩
  | array => exact ⟨0x5b, _, rfl, rfl, by decide⟩

/-- A value ends with no white space. -/
theorem ValueShape.last {t : Bytes} (h : ValueShape t) :
    ∃ front last, t = front ++ [last] ∧ isSpace last = false := by
  cases h with
  | quoted hq =>
    obtain ⟨body, -, rfl⟩ := hq
    exact ⟨0x22 :: body, 0x22, rfl, rfl⟩
  | scalar hne h =>
    refine ⟨t.dropLast, t.getLast hne, (List.dropLast_append_getLast hne).symm, ?_⟩
    exact (isAtom_iff.mp (h _ (List.getLast_mem hne))).2.1
  | @object i => exact ⟨0x7b :: i, 0x7d, rfl, rfl⟩
  | @array i => exact ⟨0x5b :: i, 0x5d, rfl, rfl⟩

/-- White space after a text that does not end with any is trimmed. -/
theorem rdropWhile_spaces {front w : Bytes} {last : UInt8} (hlast : isSpace last = false)
    (hw : Spaces w) : ((front ++ [last]) ++ w).rdropWhile isSpace = front ++ [last] := by
  have hw' : Spaces w.reverse := fun b hb => hw b (List.mem_reverse.mp hb)
  rw [List.rdropWhile, List.reverse_append, dropWhile_spaces hw', List.reverse_append,
    List.reverse_singleton, List.singleton_append, List.dropWhile_cons_of_neg (by simp [hlast]),
    List.reverse_cons, List.reverse_reverse]

/-! ## Members -/

/-- A member of an object and the white space around its parts. -/
structure Piece where
  lead : Bytes
  key : Bytes
  afterKey : Bytes
  beforeValue : Bytes
  value : Bytes
  trail : Bytes

namespace Piece

/-- The member after its key. -/
def tail (p : Piece) : Bytes := p.afterKey ++ 0x3a :: (p.beforeValue ++ (p.value ++ p.trail))

/-- The whole text of the member. -/
def text (p : Piece) : Bytes := p.lead ++ (p.key ++ p.tail)

/-- The parts of the member have the shape their names say. -/
structure WellFormed (p : Piece) : Prop where
  lead : Spaces p.lead
  key : Quoted p.key
  afterKey : Spaces p.afterKey
  beforeValue : Spaces p.beforeValue
  value : ValueShape p.value
  trail : Spaces p.trail

theorem WellFormed.tail_nested {p : Piece} (h : p.WellFormed) : Nested p.tail :=
  h.afterKey.nested.append (.plain rfl (h.beforeValue.nested.append
    (h.value.nested.append h.trail.nested)))

end Piece

/-- What is left of an object after a member: the further members, its closing
brace and what follows it. -/
def renderRest : List Piece → Bytes → Bytes
  | [], rest => 0x7d :: rest
  | p :: ps, rest => 0x2c :: (p.text ++ renderRest ps rest)

/-- What follows a value in an object: white space, and then a comma or the closing
brace. -/
def EndsMember (t : Bytes) : Prop :=
  ∃ w c r, t = w ++ c :: r ∧ Spaces w ∧ (c = 0x2c ∨ c = 0x7d)

theorem endsMember_renderRest {w : Bytes} (hw : Spaces w) (ps : List Piece) (rest : Bytes) :
    EndsMember (w ++ renderRest ps rest) := by
  cases ps with
  | nil => exact ⟨w, 0x7d, rest, rfl, hw, .inr rfl⟩
  | cons p ps => exact ⟨w, 0x2c, p.text ++ renderRest ps rest, rfl, hw, .inl rfl⟩

/-- Further members are balanced up to the closing brace. -/
theorem renderRest_nested {ps : List Piece} (h : ∀ p ∈ ps, p.WellFormed) (rest : Bytes) :
    ∃ i, Nested i ∧ renderRest ps rest = i ++ 0x7d :: rest := by
  induction ps with
  | nil => exact ⟨[], .nil, rfl⟩
  | cons p ps ih =>
    obtain ⟨i, hi, he⟩ := ih fun q hq => h q (List.mem_cons_of_mem _ hq)
    have hp := h p (List.mem_cons_self ..)
    refine ⟨0x2c :: (p.text ++ i), .plain rfl (.append ?_ hi), ?_⟩
    · exact hp.lead.nested.append (.quoted hp.key hp.tail_nested)
    · rw [renderRest, he, List.cons_append, List.append_assoc]

end JsonText
