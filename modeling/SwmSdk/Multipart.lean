import SwmSdk.ByteText
import SwmSdk.FieldLines

/-! # Multipart bodies

The parts of a body stand between delimiters: a line break, two dashes and the boundary.  A part is
some lines of headers, an empty line, and its content, which may be any bytes.

A body is read at the first places where the delimiter stands (`Separator.split`).  The content of a
part could make a delimiter with what stands before it or behind it; it does not, since the first
byte of a delimiter does not come back in it, and since no line before the content begins with a
dash.  So the parts are read back if no content holds the boundary (`read_encode`).
-/
namespace FieldLines
variable {α : Type*} [DecidableEq α]

namespace Separator
variable (s : Separator α)

/-- What stands before and behind the first separator of a text. -/
def cut : List α → Option (List α × List α)
  | [] => none
  | b :: rest =>
      if s.text <+: b :: rest then some ([], (b :: rest).drop s.text.length)
      else (cut rest).map fun (front, back) => (b :: front, back)

/-- The parts of a text between separators. -/
def splitLoop : Nat → List α → List (List α)
  | 0, text => [text]
  | fuel + 1, text =>
      match s.cut text with
      | none => [text]
      | some (front, back) => front :: splitLoop fuel back

/-- The pieces between the separators. -/
def split (text : List α) : List (List α) := s.splitLoop text.length text

theorem cut_none {text : List α} (h : ¬ s.text <:+: text) : s.cut text = none := by
  induction text with
  | nil => rfl
  | cons b rest ih =>
    rw [List.infix_cons_iff, not_or] at h
    rw [cut, if_neg h.1, ih h.2]
    rfl

/-- The front of a first cut does not hold the separator. -/
theorem cut_append {front back : List α} (h : ¬ s.text <:+: front) :
    s.cut (front ++ (s.text ++ back)) = some (front, back) := by
  induction front with
  | nil =>
    have hfront : s.text <+: s.text ++ back := List.prefix_append _ _
    have hdrop : (s.text ++ back).drop s.text.length = back := List.drop_left
    have hcons : s.text ++ back = s.head :: (s.rest ++ back) := rfl
    rw [hcons] at hfront hdrop
    rw [List.nil_append, hcons, cut, if_pos hfront, hdrop]
  | cons b front ih =>
    have hno : ¬ s.text <+: b :: (front ++ (s.text ++ back)) := by
      rintro ⟨rest, hrest⟩
      have hsplit : [] ++ (s.text ++ rest) = b :: front ++ (s.text ++ back) := hrest
      have hnil : ¬ s.text <:+: ([] : List α) := by
        rw [List.infix_nil]
        exact List.cons_ne_nil _ _
      exact List.cons_ne_nil b front (s.split_first hnil h hsplit).1.symm
    rw [List.cons_append, cut, if_neg hno, ih fun hin => h (List.infix_cons hin)]
    rfl

/-- **Parts that do not hold the separator are read back.** -/
theorem splitLoop_join {first : List α} {rest : List (List α)} (hfirst : ¬ s.text <:+: first)
    (hrest : ∀ part ∈ rest, ¬ s.text <:+: part) {fuel : Nat} (hfuel : rest.length ≤ fuel) :
    s.splitLoop fuel (first ++ rest.flatMap (s.text ++ ·)) = first :: rest := by
  induction rest generalizing first fuel with
  | nil =>
    rw [List.flatMap_nil, List.append_nil]
    cases fuel with
    | zero => rfl
    | succ fuel => rw [splitLoop, s.cut_none hfirst]
  | cons part rest ih =>
    obtain ⟨fuel, rfl⟩ := Nat.exists_eq_add_one_of_ne_zero (Nat.ne_of_gt (Nat.zero_lt_of_lt hfuel))
    obtain ⟨hpart, hrest⟩ := List.forall_mem_cons.mp hrest
    rw [List.flatMap_cons, List.append_assoc, splitLoop, s.cut_append hfirst]
    dsimp only
    rw [ih hpart hrest (by simpa using hfuel)]

theorem split_join {first : List α} {rest : List (List α)} (hfirst : ¬ s.text <:+: first)
    (hrest : ∀ part ∈ rest, ¬ s.text <:+: part) :
    s.split (first ++ rest.flatMap (s.text ++ ·)) = first :: rest := by
  refine s.splitLoop_join hfirst hrest ?_
  have hlength : rest.length ≤ (rest.flatMap (s.text ++ ·)).length := by
    clear hfirst hrest
    have hpos : 0 < s.text.length := List.length_pos_iff.mpr (List.cons_ne_nil _ _)
    induction rest with
    | nil => exact Nat.le_refl 0
    | cons part rest ih =>
      rw [List.flatMap_cons, List.length_append, List.length_append, List.length_cons]
      omega
  rw [List.length_append]
  omega

omit [DecidableEq α] in
/-- A separator does not begin at another element than its first. -/
theorem infix_cons_skip {b : α} (hb : b ≠ s.head) {t : List α} :
    s.text <:+: b :: t ↔ s.text <:+: t := by
  rw [List.infix_cons_iff, or_iff_right]
  rintro ⟨rest, hrest⟩
  exact hb (List.cons.inj hrest).1.symm

omit [DecidableEq α] in
theorem infix_append_skip {front t : List α} (h : s.head ∉ front) :
    s.text <:+: front ++ t ↔ s.text <:+: t := by
  induction front with
  | nil => rfl
  | cons b front ih =>
    obtain ⟨hb, hfront⟩ := not_or.mp (fun hmem => h (List.mem_cons.mpr hmem))
    rw [List.cons_append, s.infix_cons_skip (Ne.symm hb), ih hfront]

end Separator
end FieldLines

namespace Multipart
open ByteText FieldLines

/-- The end of a line. -/
def lineBreak : Separator UInt8 := ⟨0x0d, [0x0a], by decide⟩

/-- A boundary: it holds no carriage return, with which a delimiter begins. -/
structure Boundary where
  text : Bytes
  plain : 0x0d ∉ text

namespace Boundary
variable (boundary : Boundary)

/-- A line break, two dashes and the boundary. -/
def delimiter : Separator UInt8 where
  head := 0x0d
  rest := 0x0a :: 0x2d :: 0x2d :: boundary.text
  once := by
    have hplain := boundary.plain
    simp [hplain]

end Boundary

/-- A part: the lines of its headers, and its content. -/
structure Part where
  headers : List Bytes
  content : Bytes
  deriving DecidableEq, Repr

/-- A body: what stands before the first delimiter, the parts, and what stands behind the closing
delimiter. -/
structure Message where
  preamble : Bytes
  parts : List Part
  epilogue : Bytes
  deriving DecidableEq, Repr

/-! ## Reading -/

/-- The lines up to an empty one, and what follows it. -/
def readHeaders : Nat → Bytes → Option (List Bytes × Bytes)
  | 0, _ => none
  | fuel + 1, text =>
      match lineBreak.cut text with
      | none => none
      | some (line, rest) =>
          if line = [] then some ([], rest)
          else (readHeaders fuel rest).map fun (lines, content) => (line :: lines, content)

/-- The part behind a delimiter: white space to the end of the line, the headers, an empty line and
the content. -/
def readPart (segment : Bytes) : Option Part := do
  let (padding, rest) ← lineBreak.cut segment
  if padding.all fun b => b = 0x20 || b = 0x09 then
    let (headers, content) ← readHeaders rest.length rest
    some ⟨headers, content⟩
  else none

/-- The parts, up to the delimiter that two dashes follow. -/
def readParts (boundary : Boundary) : List Bytes → Option (List Part × Bytes)
  | [] => none
  | segment :: rest =>
      if ascii "--" <+: segment then
        some ([], segment.drop 2 ++ rest.flatMap (boundary.delimiter.text ++ ·))
      else do
        let part ← readPart segment
        let (parts, epilogue) ← readParts boundary rest
        some (part :: parts, epilogue)

/-- A body read apart at its delimiters, the first of which may stand at its start. -/
def read (boundary : Boundary) (body : Bytes) : Option Message :=
  match boundary.delimiter.split (lineBreak.text ++ body) with
  | [] => none
  | preamble :: segments =>
      (readParts boundary segments).map fun (parts, epilogue) =>
        ⟨preamble.drop 2, parts, epilogue⟩

/-! ## Writing -/

namespace Part

/-- What stands behind the delimiter of a part. -/
def segment (part : Part) : Bytes :=
  lineBreak.text ++ (part.headers.flatMap (· ++ lineBreak.text) ++
    (lineBreak.text ++ part.content))

/-- Lines that are not empty and do not begin with a dash, and a content without the boundary. -/
structure Fits (boundary : Boundary) (part : Part) : Prop where
  nonempty : ∀ line ∈ part.headers, line ≠ []
  oneLine : ∀ line ∈ part.headers, 0x0d ∉ line
  noDash : ∀ line ∈ part.headers, line.head? ≠ some 0x2d
  content : ¬ boundary.text <:+: part.content

end Part

/-- A part behind its delimiter, and the line break of the next one. -/
def encodePart (boundary : Boundary) (part : Part) : Bytes :=
  ascii "--" ++ (boundary.text ++ (part.segment ++ lineBreak.text))

/-- The body that is written for some parts. -/
def encode (boundary : Boundary) (parts : List Part) : Bytes :=
  parts.flatMap (encodePart boundary) ++
    (ascii "--" ++ (boundary.text ++ (ascii "--" ++ lineBreak.text)))

/-! ## Delimiters in a part -/

section Reading
variable {boundary : Boundary}

/-- Behind a line break a delimiter begins with the dashes, or later. -/
theorem delimiter_infix_lineBreak {text : Bytes} :
    boundary.delimiter.text <:+: lineBreak.text ++ text ↔
      0x2d :: 0x2d :: boundary.text <+: text ∨ boundary.delimiter.text <:+: text := by
  have hcons : lineBreak.text ++ text = 0x0d :: 0x0a :: text := rfl
  have hdelimiter : boundary.delimiter.text = 0x0d :: 0x0a :: 0x2d :: 0x2d :: boundary.text := rfl
  have hskip : boundary.delimiter.text <:+: 0x0a :: text ↔ boundary.delimiter.text <:+: text :=
    boundary.delimiter.infix_cons_skip (show (0x0a : UInt8) ≠ 0x0d by decide)
  rw [hcons, List.infix_cons_iff, hskip, hdelimiter, List.cons_prefix_cons, List.cons_prefix_cons]
  simp only [true_and]

theorem boundary_infix_of_front {text : Bytes} (h : 0x2d :: 0x2d :: boundary.text <+: text) :
    boundary.text <:+: text :=
  (List.infix_cons (List.infix_cons List.infix_rfl)).trans h.isInfix

theorem boundary_infix_of_delimiter {text : Bytes} (h : boundary.delimiter.text <:+: text) :
    boundary.text <:+: text :=
  (List.suffix_cons_iff.mpr (.inr (List.suffix_cons_iff.mpr (.inr (List.suffix_cons_iff.mpr
    (.inr (List.suffix_cons _ _))))))).isInfix.trans h

/-- What stands behind the closing delimiter holds none. -/
theorem Boundary.not_infix_closing (boundary : Boundary) :
    ¬ boundary.delimiter.text <:+: ascii "--" ++ lineBreak.text := by
  have hdash : (0x0d : UInt8) ∉ ascii "--" := by decide
  have hnil : lineBreak.text ++ [] = lineBreak.text := List.append_nil _
  rw [boundary.delimiter.infix_append_skip hdash, ← hnil, delimiter_infix_lineBreak]
  rintro (hfront | hin)
  · exact List.cons_ne_nil _ _ (List.prefix_nil.mp hfront)
  · exact List.cons_ne_nil _ _ (List.infix_nil.mp hin)

/-- **No delimiter stands in a part**, nor where its content begins. -/
theorem Part.Fits.no_delimiter {part : Part} (h : part.Fits boundary) :
    ¬ boundary.delimiter.text <:+: part.segment := by
  obtain ⟨headers, content⟩ := part
  obtain ⟨hnonempty, honeLine, hnoDash, hcontent⟩ := h
  dsimp only at hnonempty honeLine hnoDash hcontent
  unfold Part.segment
  dsimp only
  induction headers with
  | nil =>
    rw [List.flatMap_nil, List.nil_append, delimiter_infix_lineBreak, delimiter_infix_lineBreak]
    rintro (hdash | hdash | hin)
    · exact absurd (List.cons.inj hdash.choose_spec).1 (by decide)
    · exact hcontent (boundary_infix_of_front hdash)
    · exact hcontent (boundary_infix_of_delimiter hin)
  | cons line headers ih =>
    obtain ⟨hne, hnonempty⟩ := List.forall_mem_cons.mp hnonempty
    obtain ⟨hline, honeLine⟩ := List.forall_mem_cons.mp honeLine
    obtain ⟨hdash, hnoDash⟩ := List.forall_mem_cons.mp hnoDash
    rw [List.flatMap_cons, List.append_assoc, List.append_assoc, delimiter_infix_lineBreak,
      boundary.delimiter.infix_append_skip hline]
    rintro (hstart | hin)
    · obtain ⟨b, line, rfl⟩ := List.exists_cons_of_ne_nil hne
      have hb : 0x2d = b := (List.cons.inj hstart.choose_spec).1
      exact hdash (by rw [hb]; rfl)
    · exact ih hnonempty honeLine hnoDash hin

/-! ## What is written is read -/

theorem length_le_flatMap_lines (headers : List Bytes) :
    headers.length ≤ (headers.flatMap (· ++ lineBreak.text)).length := by
  have hpos : 0 < lineBreak.text.length := by decide
  induction headers with
  | nil => exact Nat.le_refl 0
  | cons line headers ih =>
    rw [List.flatMap_cons, List.length_append, List.length_append, List.length_cons]
    omega

theorem readHeaders_lines {headers : List Bytes} (hnonempty : ∀ line ∈ headers, line ≠ [])
    (honeLine : ∀ line ∈ headers, 0x0d ∉ line) (content : Bytes) {fuel : Nat}
    (hfuel : headers.length < fuel) :
    readHeaders fuel (headers.flatMap (· ++ lineBreak.text) ++ (lineBreak.text ++ content)) =
      some (headers, content) := by
  induction headers generalizing fuel with
  | nil =>
    obtain ⟨fuel, rfl⟩ := Nat.exists_eq_add_one_of_ne_zero (Nat.ne_of_gt hfuel)
    have hcut : lineBreak.cut (lineBreak.text ++ content) = some ([], content) :=
      lineBreak.cut_append (lineBreak.not_infix_of_head List.not_mem_nil)
    rw [List.flatMap_nil, List.nil_append, readHeaders, hcut]
    rfl
  | cons line headers ih =>
    obtain ⟨fuel, rfl⟩ := Nat.exists_eq_add_one_of_ne_zero (Nat.ne_of_gt (Nat.zero_lt_of_lt hfuel))
    obtain ⟨hne, hnonempty⟩ := List.forall_mem_cons.mp hnonempty
    obtain ⟨hline, honeLine⟩ := List.forall_mem_cons.mp honeLine
    rw [List.flatMap_cons, List.append_assoc, List.append_assoc, readHeaders,
      lineBreak.cut_append (lineBreak.not_infix_of_head hline)]
    dsimp only
    rw [if_neg hne, ih hnonempty honeLine (by simpa using hfuel)]
    rfl

theorem readPart_segment {part : Part} (h : part.Fits boundary) :
    readPart part.segment = some part := by
  have hcut : lineBreak.cut part.segment = some ([], part.headers.flatMap (· ++ lineBreak.text) ++
      (lineBreak.text ++ part.content)) :=
    lineBreak.cut_append (lineBreak.not_infix_of_head List.not_mem_nil)
  have hlines := length_le_flatMap_lines part.headers
  rw [readPart, hcut]
  change (do
    let (headers, content) ← readHeaders _ _
    some (Part.mk headers content)) = some part
  rw [readHeaders_lines h.nonempty h.oneLine part.content (by
    rw [List.length_append, List.length_append]
    have hpos : 0 < lineBreak.text.length := by decide
    omega)]
  rfl

theorem readParts_segments {parts : List Part} (h : ∀ part ∈ parts, part.Fits boundary)
    (rest : Bytes) :
    readParts boundary (parts.map Part.segment ++ [ascii "--" ++ rest]) = some (parts, rest) := by
  induction parts with
  | nil =>
    have hclosing : ascii "--" <+: ascii "--" ++ rest := List.prefix_append _ _
    have hdrop : (ascii "--" ++ rest).drop 2 = rest := rfl
    rw [List.map_nil, List.nil_append, readParts, if_pos hclosing, hdrop, List.flatMap_nil,
      List.append_nil]
  | cons part parts ih =>
    obtain ⟨hpart, hparts⟩ := List.forall_mem_cons.mp h
    have hopen : ¬ ascii "--" <+: part.segment := by
      rintro ⟨rest, hrest⟩
      exact absurd (List.cons.inj hrest).1 (by decide)
    rw [List.map_cons, List.cons_append, readParts, if_neg hopen, readPart_segment hpart,
      ih hparts]
    rfl

/-- The body is the delimited segments, once a line break stands before it. -/
theorem lineBreak_encode (parts : List Part) :
    lineBreak.text ++ encode boundary parts =
      (parts.map Part.segment ++ [ascii "--" ++ lineBreak.text]).flatMap
        (boundary.delimiter.text ++ ·) := by
  have hdelimiter : ∀ text, boundary.delimiter.text ++ text =
      lineBreak.text ++ (ascii "--" ++ (boundary.text ++ text)) := fun _ => rfl
  induction parts with
  | nil =>
    rw [List.map_nil, List.nil_append, List.flatMap_singleton, hdelimiter]
    rfl
  | cons part parts ih =>
    rw [List.map_cons, List.cons_append, List.flatMap_cons, ← ih, hdelimiter, encode, encode,
      List.flatMap_cons, encodePart]
    simp only [List.append_assoc]

/-- **The parts are read back**, and there is nothing else. -/
theorem read_encode {parts : List Part} (h : ∀ part ∈ parts, part.Fits boundary) :
    read boundary (encode boundary parts) = some ⟨[], parts, lineBreak.text⟩ := by
  have hnil : ¬ boundary.delimiter.text <:+: [] :=
    boundary.delimiter.not_infix_of_head List.not_mem_nil
  have hsegments : ∀ segment ∈ parts.map Part.segment ++ [ascii "--" ++ lineBreak.text],
      ¬ boundary.delimiter.text <:+: segment := by
    intro segment hsegment
    rcases List.mem_append.mp hsegment with hmem | hmem
    · obtain ⟨part, hpart, rfl⟩ := List.mem_map.mp hmem
      exact (h part hpart).no_delimiter
    · obtain rfl := List.mem_singleton.mp hmem
      exact boundary.not_infix_closing
  have hsplit := boundary.delimiter.split_join hnil hsegments
  rw [List.nil_append] at hsplit
  rw [read, lineBreak_encode, hsplit]
  dsimp only
  rw [readParts_segments h]
  rfl

end Reading

/-! ## Form data -/

/-- A field of a form: its name, its content, and for a file the name of the file and the type of
the content. -/
structure FormField where
  name : Bytes
  filename : Option Bytes
  contentType : Option Bytes
  content : Bytes
  deriving DecidableEq, Repr

/-- A form as it is read: its fields, and what stands before and behind the parts. -/
structure Form where
  preamble : Bytes
  fields : List FormField
  epilogue : Bytes
  deriving DecidableEq, Repr

/-- The value of the first header of some name, given in small letters. -/
def headerValue (name : Bytes) : List Bytes → Option Bytes
  | [] => none
  | line :: rest =>
      if lower (line.takeWhile (· ≠ 0x3a)) = name then
        some (((line.dropWhile (· ≠ 0x3a)).drop 1).dropWhile fun b => b = 0x20 || b = 0x09)
      else headerValue name rest

def openQuote : Separator UInt8 := ⟨0x3d, [0x22], by decide⟩

def closeQuote : Separator UInt8 := ⟨0x22, [], by decide⟩

/-- Parameters `; key="value"`: a value goes to the next quote. -/
def parameters : Nat → Bytes → Option (List (Bytes × Bytes))
  | _, [] => some []
  | 0, _ :: _ => none
  | fuel + 1, b :: text => do
      let (key, rest) ← openQuote.cut (b :: text)
      if ascii "; " <+: key then
        let (value, rest) ← closeQuote.cut rest
        (parameters fuel rest).map ((key.drop 2, value) :: ·)
      else none

/-- The field that a part is. -/
def formField (part : Part) : Option FormField := do
  let disposition ← headerValue (ascii "content-disposition") part.headers
  if ascii "form-data" <+: disposition then
    let listed ← parameters disposition.length (disposition.drop 9)
    let name ← listed.lookup (ascii "name")
    some ⟨name, listed.lookup (ascii "filename"),
      headerValue (ascii "content-type") part.headers, part.content⟩
  else none

/-- A form, if every part of the message is a field. -/
def readForm (boundary : Boundary) (body : Bytes) : Option Form := do
  let message ← read boundary body
  let fields ← message.parts.mapM formField
  some ⟨message.preamble, fields, message.epilogue⟩

namespace FormField

/-- `; key="value"`. -/
def parameter (key value : Bytes) : Bytes :=
  ascii "; " ++ (key ++ (openQuote.text ++ (value ++ closeQuote.text)))

/-- The parameters of the field's header. -/
def disposition (field : FormField) : Bytes :=
  parameter (ascii "name") field.name ++
    field.filename.elim [] (parameter (ascii "filename"))

/-- The part that is written for a field. -/
def part (field : FormField) : Part where
  headers := (ascii "Content-Disposition: form-data" ++ field.disposition) ::
    field.contentType.elim [] fun type => [ascii "Content-Type: " ++ type]
  content := field.content

/-- Names without quotes and line breaks, a type without line breaks, and a content without the
boundary. -/
structure Fits (boundary : Boundary) (field : FormField) : Prop where
  name : 0x22 ∉ field.name ∧ 0x0d ∉ field.name
  filename : ∀ name ∈ field.filename, 0x22 ∉ name ∧ 0x0d ∉ name
  contentType : ∀ type ∈ field.contentType, 0x0d ∉ type ∧ type.head? ≠ some 0x20 ∧
    type.head? ≠ some 0x09
  content : ¬ boundary.text <:+: field.content

end FormField

/-- One parameter is read, and those behind it. -/
theorem parameters_parameter {key value rest : Bytes} (hkey : 0x3d ∉ key) (hvalue : 0x22 ∉ value)
    (fuel : Nat) :
    parameters (fuel + 1) (FormField.parameter key value ++ rest) =
      (parameters fuel rest).map ((key, value) :: ·) := by
  have hopen : (0x3d : UInt8) ∉ ascii "; " ++ key := by
    rw [List.mem_append, not_or]
    exact ⟨by decide, hkey⟩
  have htext : FormField.parameter key value ++ rest = ascii "; " ++ key ++ (openQuote.text ++
      (value ++ (closeQuote.text ++ rest))) := by
    rw [FormField.parameter]
    simp only [List.append_assoc]
  have hkeyCut : openQuote.cut (FormField.parameter key value ++ rest) =
      some (ascii "; " ++ key, value ++ (closeQuote.text ++ rest)) := by
    rw [htext]
    exact openQuote.cut_append (openQuote.not_infix_of_head hopen)
  have hvalueCut : closeQuote.cut (value ++ (closeQuote.text ++ rest)) = some (value, rest) :=
    closeQuote.cut_append (closeQuote.not_infix_of_head hvalue)
  have hcons : FormField.parameter key value ++ rest =
      0x3b :: (FormField.parameter key value ++ rest).tail := rfl
  rw [hcons] at hkeyCut ⊢
  rw [parameters, hkeyCut]
  have hfront : ascii "; " <+: ascii "; " ++ key := List.prefix_append _ _
  have hdrop : (ascii "; " ++ key).drop 2 = key := rfl
  simp only [Option.bind_eq_bind, Option.bind_some, if_pos hfront, hvalueCut, hdrop]

section Form
variable {boundary : Boundary}

theorem parameters_disposition {field : FormField} (h : field.Fits boundary) {fuel : Nat}
    (hfuel : 1 < fuel) :
    parameters fuel field.disposition = some ((ascii "name", field.name) ::
      (field.filename.map fun name => (ascii "filename", name)).toList) := by
  obtain ⟨fuel, rfl⟩ := Nat.exists_eq_add_of_le' hfuel
  rw [FormField.disposition, parameters_parameter (by decide) h.name.1]
  cases hfile : field.filename with
  | none =>
    rw [Option.elim_none, parameters]
    rfl
  | some name =>
    have hname : 0x22 ∉ name := (h.filename name hfile).1
    rw [Option.elim_some, ← List.append_nil (FormField.parameter _ name),
      parameters_parameter (by decide) hname, parameters]
    rfl

/-- **The part of a field is read as that field.** -/
theorem formField_part {field : FormField} (h : field.Fits boundary) :
    formField field.part = some field := by
  have hdisposition : headerValue (ascii "content-disposition") field.part.headers =
      some (ascii "form-data" ++ field.disposition) := rfl
  have htype : headerValue (ascii "content-type") field.part.headers = field.contentType := by
    cases htype : field.contentType with
    | none =>
      rw [FormField.part, htype]
      rfl
    | some type =>
      have hvalue : headerValue (ascii "content-type") field.part.headers =
          some (type.dropWhile fun b => b = 0x20 || b = 0x09) := by
        rw [FormField.part, htype]
        rfl
      obtain ⟨-, hspace, htab⟩ := h.contentType type htype
      rw [hvalue]
      cases type with
      | nil => rfl
      | cons b type =>
        rw [List.head?_cons] at hspace htab
        have hkeep : ¬ (decide (b = 0x20) || decide (b = 0x09)) = true := by
          simpa using ⟨fun hb => hspace (by rw [hb]), fun hb => htab (by rw [hb])⟩
        rw [List.dropWhile_cons, if_neg hkeep]
  have hfront : ascii "form-data" <+: ascii "form-data" ++ field.disposition :=
    List.prefix_append _ _
  have hdrop : (ascii "form-data" ++ field.disposition).drop 9 = field.disposition := rfl
  have hfuel : 1 < (ascii "form-data" ++ field.disposition).length := by
    have hlength : (ascii "form-data").length = 9 := by decide
    rw [List.length_append, hlength]
    omega
  rw [formField, hdisposition]
  simp only [Option.bind_eq_bind, Option.bind_some, if_pos hfront, hdrop,
    parameters_disposition h hfuel, htype]
  obtain ⟨name, filename, contentType, content⟩ := field
  cases filename with
  | none => rfl
  | some filename => rfl

theorem FormField.notMem_parameter {key value : Bytes} (hkey : 0x0d ∉ key) (hvalue : 0x0d ∉ value) :
    0x0d ∉ FormField.parameter key value := by
  rw [FormField.parameter]
  simp only [List.mem_append, not_or]
  exact ⟨by decide, hkey, by decide, hvalue, by decide⟩

theorem FormField.Fits.disposition {field : FormField} (h : field.Fits boundary) :
    0x0d ∉ field.disposition := by
  rw [FormField.disposition, List.mem_append, not_or]
  refine ⟨FormField.notMem_parameter (by decide) h.name.2, ?_⟩
  cases hfile : field.filename with
  | none => exact List.not_mem_nil
  | some name => exact FormField.notMem_parameter (by decide) (h.filename name hfile).2

/-- The headers of a field are lines. -/
theorem FormField.Fits.part {field : FormField} (h : field.Fits boundary) :
    field.part.Fits boundary := by
  have hlines : ∀ line ∈ field.part.headers, ∃ rest, line = 0x43 :: rest ∧ 0x0d ∉ line := by
    intro line hline
    rcases List.mem_cons.mp hline with rfl | htype
    · refine ⟨_, rfl, ?_⟩
      rw [List.mem_append, not_or]
      exact ⟨by decide, h.disposition⟩
    · cases hcontentType : field.contentType with
      | none =>
        rw [hcontentType] at htype
        exact absurd htype List.not_mem_nil
      | some type =>
        rw [hcontentType] at htype
        obtain rfl := List.mem_singleton.mp htype
        refine ⟨_, rfl, ?_⟩
        rw [List.mem_append, not_or]
        exact ⟨by decide, (h.contentType type hcontentType).1⟩
  refine ⟨fun line hline => ?_, fun line hline => ?_, fun line hline => ?_, h.content⟩
  · obtain ⟨rest, rfl, -⟩ := hlines line hline
    exact List.cons_ne_nil _ _
  · exact (hlines line hline).choose_spec.2
  · obtain ⟨rest, rfl, -⟩ := hlines line hline
    exact (by decide : some (0x43 : UInt8) ≠ some 0x2d)

/-- **The fields of a form are read back**, in order, and there is nothing else. -/
theorem readForm_encode {fields : List FormField} (h : ∀ field ∈ fields, field.Fits boundary) :
    readForm boundary (encode boundary (fields.map FormField.part)) =
      some ⟨[], fields, lineBreak.text⟩ := by
  have hparts : ∀ part ∈ fields.map FormField.part, part.Fits boundary := by
    intro part hpart
    obtain ⟨field, hfield, rfl⟩ := List.mem_map.mp hpart
    exact (h field hfield).part
  have hfields : (fields.map FormField.part).mapM formField = some fields := by
    clear hparts
    induction fields with
    | nil => rfl
    | cons field fields ih =>
      obtain ⟨hfield, hfields⟩ := List.forall_mem_cons.mp h
      rw [List.map_cons, List.mapM_cons, formField_part hfield, ih hfields]
      rfl
  rw [readForm, read_encode hparts]
  simp only [Option.bind_eq_bind, Option.bind_some, hfields]

end Form
end Multipart
