import SwmSdk.Json
import SwmSdk.JavaText
import SwmSdk.JsonText
import SwmSdk.Types

/-! # The Java JSON helpers

`JsonUtil` over the Jackson library, which is a parameter: the tree it reads, and
the tokens of the fields of a document with the byte offsets it reports for them.
`rawMember` asks Jackson where the value of a field starts and finds its end with
a scanner of its own.

`Jackson.Lawful` is what is assumed of the library: a document it reads as an object
has the text of an object, the offsets point at the values, each value is what the
library reads from the text of the value alone, and the last field of a name wins.
-/
namespace SwmSdk
namespace Java
open ByteText JsonText

/-- A field name, and `currentTokenLocation()` at its value: none for no location, and a
negative byte offset when the parser does not count bytes. -/
structure Field where
  name : Bytes
  location : Option Int

/-- How the loop over the fields of an object ends. -/
inductive Ending where
  | endObject
  /-- The next token is no field name. -/
  | noField
  /-- There is no token after a field name. -/
  | noValue
  /-- The parser throws an `IOException`. -/
  | broken

/-- The tokens of a document, as far as `rawMember` reads them. -/
inductive Tokens where
  | notObject
  | broken
  | object (fields : List Field) (ending : Ending)

/-- What the SDK uses of Jackson. -/
structure Jackson where
  Node : Type
  /-- `MAPPER.readTree`; an error is the message of the exception. -/
  readTree : Bytes → Except Bytes Node
  /-- `JsonNode.get(String)`. -/
  get : Node → Bytes → Option Node
  isNull : Node → Bool
  isObject : Node → Bool
  /-- `asText()` of a textual node. -/
  textual : Node → Option Bytes
  /-- `longValue()` of an integral node. -/
  integral : Node → Option Int
  /-- `booleanValue()` of a boolean node. -/
  boolean : Node → Option Bool
  /-- `intValue()` of any node. -/
  intValue : Node → Int
  tokens : Bytes → Tokens

section JsonUtil
variable (J : Jackson)

/-- The exception of a response that cannot be read. -/
def protocol (message : Bytes) : Thrown :=
  .swm { kind := .protocol, statusCode := 0, serviceCode := [], message := message }

/-- `JsonUtil.parse`. -/
def parse (bytes context : Bytes) : Except Thrown J.Node :=
  match J.readTree bytes with
  | .ok node => .ok node
  | .error message => .error (protocol (context ++ ascii ": " ++ message))

/-- The node of a field that is present and not null. -/
def fieldNode (value : J.Node) (field : Bytes) : Option J.Node :=
  (J.get value field).bind fun node => if J.isNull node then none else some node

/-- `JsonUtil.text`. -/
def text (value : J.Node) (field : Bytes) (required : Bool) : Except Thrown Bytes :=
  match fieldNode J value field with
  | none =>
      if required then .error (protocol (ascii "missing JSON field: " ++ field)) else .ok []
  | some node =>
      match J.textual node with
      | none => .error (protocol (ascii "JSON field is not a string: " ++ field))
      | some text => .ok text

/-- `JsonUtil.longValue`. -/
def longValue (value : J.Node) (field : Bytes) (fallback : Int) : Except Thrown Int :=
  match fieldNode J value field with
  | none => .ok fallback
  | some node =>
      match J.integral node with
      | none => .error (protocol (ascii "JSON field is not an integer: " ++ field))
      | some n => .ok n

/-- `JsonUtil.intValue`: the low 32 bits of an integral node. -/
def intField (value : J.Node) (field : Bytes) (fallback : Int) : Except Thrown Int :=
  match fieldNode J value field with
  | none => .ok fallback
  | some node =>
      match J.integral node with
      | none => .error (protocol (ascii "JSON field is not an integer: " ++ field))
      | some n => .ok (Int.bmod n (2 ^ 32))

/-- `JsonUtil.boolValue`. -/
def boolValue (value : J.Node) (field : Bytes) (fallback : Bool) : Except Thrown Bool :=
  match fieldNode J value field with
  | none => .ok fallback
  | some node =>
      match J.boolean node with
      | none => .error (protocol (ascii "JSON field is not a boolean: " ++ field))
      | some b => .ok b

/-! ## The raw member -/

/-- A byte that is skipped before a value. -/
def isGap (b : UInt8) : Bool := isSpace b || b = 0x3a

/-- `valueStart`, from an offset on. -/
def valueStart (document : Bytes) (offset : Nat) : Nat :=
  offset + ((document.drop offset).takeWhile isGap).length

/-- `trimEnd`. -/
def trimEnd (document : Bytes) (stop : Nat) : Nat := ((document.take stop).rdropWhile isSpace).length

/-- The loop of `scanValueEnd` from an index on. -/
def scanLoop (document : Bytes) : (depth : Nat) → (inString escaped : Bool) → (index : Nat) →
    Bytes → Option Nat
  | _, _, _, _, [] => none
  | depth, true, true, index, _ :: rest => scanLoop document depth true false (index + 1) rest
  | depth, true, false, index, b :: rest =>
      if b = 0x5c then scanLoop document depth true true (index + 1) rest
      else if b = 0x22 then scanLoop document depth false false (index + 1) rest
      else scanLoop document depth true false (index + 1) rest
  | depth, false, escaped, index, b :: rest =>
      if b = 0x22 then scanLoop document depth true escaped (index + 1) rest
      else if b = 0x7b ∨ b = 0x5b then
        scanLoop document (depth + 1) false escaped (index + 1) rest
      else if b = 0x7d ∨ b = 0x5d then
        if depth = 0 then some (trimEnd document index)
        else if depth - 1 = 0 then some (index + 1)
        else scanLoop document (depth - 1) false escaped (index + 1) rest
      else if depth = 0 ∧ b = 0x2c then some (trimEnd document index)
      else scanLoop document depth false escaped (index + 1) rest

/-- `scanValueEnd`. -/
def scanValueEnd (document : Bytes) (start : Nat) : Option Nat :=
  scanLoop document 0 false false start (document.drop start)

def invalidJson : Thrown := protocol (ascii "invalid JSON response")

/-- The loop of `rawMember` over the fields. -/
def rawFields (document member : Bytes) (ending : Ending) :
    List Field → Except Thrown (Option Bytes)
  | [] =>
      match ending with
      | .broken => .error invalidJson
      | _ => .ok none
  | field :: fields =>
      match field.location with
      | none => .ok none
      | some offset =>
          -- `document[-1]` is read when the parser does not count bytes
          if offset < 0 then .error .indexOutOfBounds
          else
            let start := valueStart document offset.toNat
            match scanValueEnd document start with
            | none => .ok none
            | some stop =>
                if member = field.name then
                  if stop < start then .error .negativeArraySize
                  else .ok (some ((document.drop start).take (stop - start)))
                else rawFields document member ending fields

/-- `JsonUtil.rawMember`. -/
def rawMember (document member : Bytes) : Except Thrown (Option Bytes) :=
  match J.tokens document with
  | .notObject => .ok none
  | .broken => .error invalidJson
  | .object fields ending => rawFields document member ending fields

end JsonUtil

/-! ## What is assumed of Jackson -/

/-- The fields, the pieces of the text and the members of an object fit together: the
offset of a field points at its value or at what is skipped before it, and the
node of the member is what is read from the text of the value. -/
inductive Jackson.Shows (J : Jackson) (document rest : Bytes) :
    List Field → List Piece → List (Bytes × J.Node) → Prop where
  | nil : Shows J document rest [] [] []
  | cons {name gap : Bytes} {offset : Nat} {p : Piece} {node : J.Node} {fields : List Field}
      {ps : List Piece} {ms : List (Bytes × J.Node)} (hp : p.WellFormed)
      (hgap : ∀ b ∈ gap, isGap b = true)
      (hoffset : document.drop offset = gap ++ (p.value ++ (p.trail ++ renderRest ps rest)))
      (hnode : J.readTree p.value = .ok node) (htail : Shows J document rest fields ps ms) :
      Shows J document rest (⟨name, some offset⟩ :: fields) (p :: ps) ((name, node) :: ms)

/-- A document is an object with these members, and its tree has the last of each name. -/
def Jackson.Layout (J : Jackson) (document : Bytes) (root : J.Node)
    (ms : List (Bytes × J.Node)) : Prop :=
  (∃ fields ps rest, J.tokens document = .object fields .endObject ∧
    J.Shows document rest fields ps ms) ∧
  ∀ key, J.get root key = (Json.valuesOf key ms).getLast?

/-- **What is assumed of Jackson**: a document that it reads to the end, and whose first
field it locates, is laid out as an object. -/
structure Jackson.Lawful (J : Jackson) : Prop where
  layout : ∀ {document : Bytes} {root : J.Node} {name : Bytes} {offset : Nat}
    {fields : List Field} {ending : Ending}, J.readTree document = .ok root →
    J.tokens document = .object (⟨name, some offset⟩ :: fields) ending →
    ∃ ms, J.Layout document root ms

/-! ## What the scanner finds -/

section Scanner
variable (document : Bytes)

theorem scanLoop_string {body : Bytes} (h : StringBody body) (depth index : Nat) (t : Bytes) :
    scanLoop document depth true false index (body ++ 0x22 :: t) =
      scanLoop document depth false false (index + body.length + 1) t := by
  induction h generalizing index with
  | nil => rw [List.nil_append, scanLoop, if_neg (by decide), if_pos rfl]; rfl
  | @char b body hq hb _ ih =>
    rw [List.cons_append, scanLoop, if_neg hb, if_neg hq, ih, List.length_cons]
    congr 1
    omega
  | @escape b body _ ih =>
    rw [List.cons_append, List.cons_append, scanLoop, if_pos rfl, scanLoop, ih, List.length_cons,
      List.length_cons]
    congr 1
    omega

theorem scanLoop_quoted {q : Bytes} (h : Quoted q) (depth index : Nat) (t : Bytes) :
    scanLoop document depth false false index (q ++ t) =
      scanLoop document depth false false (index + q.length) t := by
  obtain ⟨body, hbody, rfl⟩ := h
  rw [List.cons_append, List.append_assoc, List.singleton_append, scanLoop, if_pos rfl,
    scanLoop_string document hbody]
  congr 1
  simp only [List.length_cons, List.length_append, List.length_nil]
  omega

/-- A byte that is no quote or bracket is passed over inside brackets. -/
theorem scanLoop_plain {b : UInt8} (hb : isMark b = false) {depth : Nat} (index : Nat) (t : Bytes)
    (h : depth = 0 → b ≠ 0x2c) :
    scanLoop document depth false false index (b :: t) =
      scanLoop document depth false false (index + 1) t := by
  simp only [isMark, Bool.or_eq_false_iff, decide_eq_false_iff_not] at hb
  obtain ⟨⟨⟨⟨h₁, h₂⟩, h₃⟩, h₄⟩, h₅⟩ := hb
  rw [scanLoop, if_neg h₁, if_neg (not_or.mpr ⟨h₂, h₄⟩), if_neg (not_or.mpr ⟨h₃, h₅⟩),
    if_neg (fun hc => h hc.1 hc.2)]

theorem scanLoop_open {b : UInt8} (hb : b = 0x7b ∨ b = 0x5b) (depth index : Nat) (t : Bytes) :
    scanLoop document depth false false index (b :: t) =
      scanLoop document (depth + 1) false false (index + 1) t := by
  rcases hb with rfl | rfl <;> rfl

theorem scanLoop_close {b : UInt8} (hb : b = 0x7d ∨ b = 0x5d) (depth index : Nat) (t : Bytes) :
    scanLoop document (depth + 1) false false index (b :: t) =
      if depth = 0 then some (index + 1)
      else scanLoop document depth false false (index + 1) t := by
  rcases hb with rfl | rfl <;> rfl

/-- **Balanced text is passed over** inside brackets. -/
theorem scanLoop_nested {i : Bytes} (h : Nested i) (depth index : Nat) (t : Bytes) :
    scanLoop document (depth + 1) false false index (i ++ t) =
      scanLoop document (depth + 1) false false (index + i.length) t := by
  induction h generalizing depth index t with
  | nil => rfl
  | plain hb _ ih =>
    rw [List.cons_append, scanLoop_plain document hb _ _ (fun h => absurd h (Nat.succ_ne_zero _)),
      ih, List.length_cons]
    congr 1
    omega
  | quoted hq _ ih =>
    rw [List.append_assoc, scanLoop_quoted document hq, ih, List.length_append, Nat.add_assoc]
  | braces _ _ ihi iht =>
    rw [List.cons_append, scanLoop_open document (.inl rfl), List.append_assoc, ihi,
      List.cons_append, scanLoop_close document (.inl rfl), if_neg (Nat.succ_ne_zero _), iht]
    congr 1
    simp only [List.length_cons, List.length_append]
    omega
  | brackets _ _ ihi iht =>
    rw [List.cons_append, scanLoop_open document (.inr rfl), List.append_assoc, ihi,
      List.cons_append, scanLoop_close document (.inr rfl), if_neg (Nat.succ_ne_zero _), iht]
    congr 1
    simp only [List.length_cons, List.length_append]
    omega

theorem scanLoop_spaces {w : Bytes} (hw : Spaces w) (index : Nat) (t : Bytes) :
    scanLoop document 0 false false index (w ++ t) =
      scanLoop document 0 false false (index + w.length) t := by
  induction w generalizing index with
  | nil => rfl
  | cons b w ih =>
    have hb := hw b (List.mem_cons_self ..)
    have hplain : isMark b = false ∧ b ≠ 0x2c := by
      simp only [isSpace, Bool.or_eq_true, decide_eq_true_eq] at hb
      rcases hb with ((rfl | rfl) | rfl) | rfl <;> decide
    rw [List.cons_append, scanLoop_plain document hplain.1 _ _ (fun _ => hplain.2),
      ih (fun c hc => hw c (List.mem_cons_of_mem _ hc)), List.length_cons]
    congr 1
    omega

theorem scanLoop_atoms {v : Bytes} (hv : ∀ b ∈ v, isAtom b = true) (index : Nat) (t : Bytes) :
    scanLoop document 0 false false index (v ++ t) =
      scanLoop document 0 false false (index + v.length) t := by
  induction v generalizing index with
  | nil => rfl
  | cons b v ih =>
    obtain ⟨hmark, -, hcomma, -⟩ := isAtom_iff.mp (hv b (List.mem_cons_self ..))
    rw [List.cons_append, scanLoop_plain document hmark _ _ (fun _ => hcomma),
      ih (fun c hc => hv c (List.mem_cons_of_mem _ hc)), List.length_cons]
    congr 1
    omega

end Scanner

/-- At the end of a member the scanner goes back over white space. -/
theorem scanLoop_end {before v t : Bytes} (hv : ValueShape v) (ht : EndsMember t) :
    scanLoop (before ++ (v ++ t)) 0 false false (before.length + v.length) t =
      some (before.length + v.length) := by
  obtain ⟨w, c, r, rfl, hw, hc⟩ := ht
  obtain ⟨front, last, rfl, hlast⟩ := hv.last
  have htrim : trimEnd (before ++ (front ++ [last] ++ (w ++ c :: r)))
      (before.length + (front ++ [last]).length + w.length) =
        before.length + (front ++ [last]).length := by
    have htake : (before ++ (front ++ [last] ++ (w ++ c :: r))).take
        (before.length + (front ++ [last]).length + w.length) =
          (before ++ front) ++ [last] ++ w := by
      have hsplit : before ++ (front ++ [last] ++ (w ++ c :: r)) =
          ((before ++ front) ++ [last] ++ w) ++ c :: r := by
        simp only [List.append_assoc]
      rw [hsplit]
      refine List.take_left' ?_
      simp only [List.length_append]
      omega
    rw [trimEnd, htake, rdropWhile_spaces hlast hw]
    simp only [List.length_append]
    omega
  rw [scanLoop_spaces _ hw]
  rcases hc with rfl | rfl
  · rw [scanLoop, if_neg (by decide), if_neg (by decide), if_neg (by decide),
      if_pos ⟨rfl, rfl⟩, htrim]
  · rw [scanLoop, if_neg (by decide), if_neg (by decide), if_pos (.inl rfl), if_pos rfl, htrim]

/-- **The scanner finds the end of a value exactly.** -/
theorem scanValueEnd_shape {before v t : Bytes} (hv : ValueShape v) (ht : EndsMember t) :
    scanValueEnd (before ++ (v ++ t)) before.length = some (before.length + v.length) := by
  have hend := @scanLoop_end before v t hv ht
  rw [scanValueEnd, List.drop_left]
  cases hv with
  | quoted hq => rw [scanLoop_quoted _ hq, hend]
  | scalar hne hatoms => rw [scanLoop_atoms _ hatoms, hend]
  | object hi =>
    rw [List.cons_append, scanLoop_open _ (.inl rfl), List.append_assoc, scanLoop_nested _ hi,
      List.singleton_append, scanLoop_close _ (.inl rfl), if_pos rfl]
    congr 1
    simp only [List.length_cons, List.length_append, List.length_nil]
    omega
  | array hi =>
    rw [List.cons_append, scanLoop_open _ (.inr rfl), List.append_assoc, scanLoop_nested _ hi,
      List.singleton_append, scanLoop_close _ (.inr rfl), if_pos rfl]
    congr 1
    simp only [List.length_cons, List.length_append, List.length_nil]
    omega

/-- The start of a value: what is skipped before it is no part of it. -/
theorem valueStart_shape {document gap v t : Bytes} {offset : Nat}
    (hgap : ∀ b ∈ gap, isGap b = true) (hv : ValueShape v)
    (h : document.drop offset = gap ++ (v ++ t)) :
    valueStart document offset = offset + gap.length ∧
      document.drop (offset + gap.length) = v ++ t := by
  obtain ⟨b, more, rfl, hspace, hcolon⟩ := hv.head
  have hb : isGap b = false := by simp [isGap, hspace, hcolon]
  constructor
  · rw [valueStart, h, List.takeWhile_append_of_pos hgap, List.cons_append,
      List.takeWhile_cons_of_neg (by simp [hb]), List.append_nil]
  · rw [← List.drop_drop, h, List.drop_left]

/-- **On a document that is laid out as an object the first field of the name is cut
out.** -/
theorem rawFields_shows {J : Jackson} {document rest : Bytes} {fields : List Field}
    {ps : List Piece} {ms : List (Bytes × J.Node)} (h : J.Shows document rest fields ps ms)
    (member : Bytes) :
    (∃ slice node, (Json.valuesOf member ms).head? = some node ∧ J.readTree slice = .ok node ∧
      slice <:+: document ∧ rawFields document member .endObject fields = .ok (some slice)) ∨
    ((Json.valuesOf member ms).head? = none ∧
      rawFields document member .endObject fields = .ok none) := by
  induction h with
  | nil => exact .inr ⟨rfl, rfl⟩
  | @cons name gap offset p node fields ps ms hp hgap hoffset hnode _ ih =>
    obtain ⟨hstart, hdrop⟩ := valueStart_shape hgap hp.value hoffset
    have hbefore : (document.take (offset + gap.length)).length = offset + gap.length := by
      refine List.length_take_of_le ?_
      by_contra hlt
      rw [List.drop_eq_nil_of_le (by omega)] at hdrop
      obtain ⟨b, more, hvalue, -⟩ := hp.value.head
      rw [hvalue] at hdrop
      cases hdrop
    have hscan := @scanValueEnd_shape (document.take (offset + gap.length)) _ _ hp.value
      (endsMember_renderRest hp.trail ps rest)
    rw [← hdrop, List.take_append_drop, hbefore] at hscan
    have hslice : (document.drop (offset + gap.length)).take
        (offset + gap.length + p.value.length - (offset + gap.length)) = p.value := by
      rw [Nat.add_sub_cancel_left, hdrop, List.take_left]
    rw [rawFields]
    simp only [Int.toNat_natCast, hstart, hscan]
    rw [if_neg (by omega), Json.valuesOf_cons]
    by_cases hm : member = name
    · rw [if_pos hm, if_pos hm.symm, if_neg (by omega), hslice]
      refine .inl ⟨p.value, node, rfl, hnode, ?_, rfl⟩
      exact (List.prefix_append _ _).isInfix.trans (hdrop ▸ (List.drop_suffix _ _).isInfix)
    · rw [if_neg hm, if_neg (Ne.symm hm)]
      exact ih

end Java
end SwmSdk
