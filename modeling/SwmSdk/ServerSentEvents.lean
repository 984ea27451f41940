import Mathlib.Data.List.Induction
import SwmSdk.ByteText

/-! # Server-sent events

The line protocol of an event stream, as the standard interprets it: a line is a field, a
comment or empty, fields fill a data buffer and an event type buffer, an empty line
dispatches what they hold, and what is left at the end is discarded (`interpret`).

Between empty lines stand the blocks of a stream.  A machine that starts afresh at every
empty line is described block by block (`run_blocks`); of `interpret`, the message of a
block has its last type and its data lines (`interpret_blocks`).
-/
namespace ServerSentEvents
open ByteText

/-! ## The standard -/

/-- The name of the field that a line holds. -/
def fieldName (line : Bytes) : Bytes := line.takeWhile (· ≠ 0x3a)

/-- What comes after the colon, if there is one. -/
def afterColon (line : Bytes) : Option Bytes :=
  if 0x3a ∈ line then some (line.dropWhile (· ≠ 0x3a)).tail else none

/-- The value of a field: one space after the colon is not part of it, and without a colon it
is empty. -/
def fieldValue : Option Bytes → Bytes
  | none => []
  | some text => if text.head? = some 0x20 then text.tail else text

theorem fieldName_colon {name : Bytes} (h : 0x3a ∉ name) (rest : Bytes) :
    fieldName (name ++ 0x3a :: rest) = name := by
  have hname : ∀ b ∈ name, decide (b ≠ 0x3a) = true :=
    fun b hb => decide_eq_true fun hb' => h (hb' ▸ hb)
  rw [fieldName, List.takeWhile_append_of_pos hname]
  exact List.append_nil name

/-- A line is its name, the colon and the rest. -/
theorem line_eq {line rest : Bytes} (h : afterColon line = some rest) :
    line = fieldName line ++ 0x3a :: rest := by
  rw [afterColon] at h
  split at h
  · rename_i hcolon
    cases h
    exact (takeWhile_ne_append hcolon).symm
  · cases h

/-- The data buffer and the event type buffer. -/
structure Buffers where
  data : Bytes
  eventType : Bytes

/-- Process a line that is not empty. -/
def Buffers.process (buffers : Buffers) (line : Bytes) : Buffers :=
  if line.head? = some 0x3a then buffers
  else if fieldName line = ascii "event" then
    { buffers with eventType := fieldValue (afterColon line) }
  else if fieldName line = ascii "data" then
    { buffers with data := buffers.data ++ (fieldValue (afterColon line) ++ [newline]) }
  else buffers

/-- What is dispatched. -/
structure Message where
  eventType : Bytes
  data : Bytes
  deriving DecidableEq, Repr

/-- The message of the buffers, without the line feed at the end of the data. -/
def Buffers.message (buffers : Buffers) : Option Message :=
  if buffers.data = [] then none else some ⟨buffers.eventType, buffers.data.dropLast⟩

/-- **The messages of the lines of a stream.** -/
def interpret : Buffers → List Bytes → List Message
  | _, [] => []
  | buffers, line :: lines =>
      if line = [] then buffers.message.toList ++ interpret ⟨[], []⟩ lines
      else interpret (buffers.process line) lines

/-! ## Blocks -/

/-- **A machine that starts afresh at every empty line** gives what it has at the end of each
block. -/
theorem run_blocks {σ β : Type} {run : σ → List Bytes → List β} {start : σ} {step : σ → Bytes → σ}
    {dispatch finish : σ → List β} (hnil : ∀ s, run s [] = finish s)
    (hempty : ∀ s lines, run s ([] :: lines) = dispatch s ++ run start lines)
    (hline : ∀ s {line : Bytes}, line ≠ [] → ∀ lines,
      run s (line :: lines) = run (step s line) lines)
    (block lines : List Bytes) (hblock : [] ∉ block) :
    ∃ blocks last, (block ++ lines).splitOn [] = blocks ++ [last] ∧
      run (block.foldl step start) lines =
        blocks.flatMap (fun block => dispatch (block.foldl step start)) ++
          finish (last.foldl step start) := by
  induction lines generalizing block with
  | nil =>
    refine ⟨[], block, ?_, hnil _⟩
    rw [List.append_nil, List.splitOn_eq_singleton hblock]
    rfl
  | cons line lines ih =>
    by_cases hne : line = []
    · subst hne
      obtain ⟨blocks, last, hsplit, hrun⟩ := ih [] List.not_mem_nil
      refine ⟨block :: blocks, last, ?_, ?_⟩
      · rw [List.splitOn_append_cons_self_of_not_mem hblock]
        exact congrArg (block :: ·) hsplit
      · rw [hempty, List.flatMap_cons, List.append_assoc]
        exact congrArg _ hrun
    · have hnext : [] ∉ block ++ [line] := by
        rw [List.mem_append, List.mem_singleton]
        exact fun h => h.elim hblock fun h => hne h.symm
      obtain ⟨blocks, last, hsplit, hrun⟩ := ih (block ++ [line]) hnext
      refine ⟨blocks, last, ?_, ?_⟩
      · rw [← hsplit, List.append_assoc]
        rfl
      · rw [hline _ hne, ← hrun, List.foldl_concat]

/-- What the fields of a name have after their colons, in a block of lines. -/
def fields (name : Bytes) (block : List Bytes) : List (Option Bytes) :=
  (block.filter fun line => fieldName line = name).map afterColon

theorem fields_concat (name : Bytes) (block : List Bytes) (line : Bytes) :
    fields name (block ++ [line]) =
      fields name block ++ if fieldName line = name then [afterColon line] else [] := by
  rw [fields, List.filter_append, List.map_append, ← fields]
  by_cases h : fieldName line = name <;> simp [h]

/-- The texts of the lines joined by line feeds. -/
def joined (values : List Bytes) : Bytes := [newline].intercalate values

/-- The message of a block: its last type, and its data lines. -/
def blockMessage (block : List Bytes) : Option Message :=
  if fields (ascii "data") block = [] then none
  else some ⟨((fields (ascii "event") block).getLast?.map fieldValue).getD [],
    joined ((fields (ascii "data") block).map fieldValue)⟩

theorem fieldName_comment {line : Bytes} (h : line.head? = some 0x3a) : fieldName line = [] := by
  cases line with
  | nil => cases h
  | cons b rest =>
    cases h
    rfl

/-- The buffers at the end of a block. -/
theorem foldl_process (block : List Bytes) :
    block.foldl Buffers.process ⟨[], []⟩ =
      ⟨(fields (ascii "data") block).flatMap fun raw => fieldValue raw ++ [newline],
        ((fields (ascii "event") block).getLast?.map fieldValue).getD []⟩ := by
  induction block using List.reverseRecOn with
  | nil => rfl
  | append_singleton block line ih =>
    rw [List.foldl_concat, ih, fields_concat, fields_concat, Buffers.process]
    by_cases hcomment : line.head? = some 0x3a
    · have hname := fieldName_comment hcomment
      rw [if_pos hcomment, if_neg (by rw [hname]; decide), if_neg (by rw [hname]; decide),
        List.append_nil, List.append_nil]
    · rw [if_neg hcomment]
      by_cases hevent : fieldName line = ascii "event"
      · rw [if_pos hevent, if_pos hevent, if_neg (by rw [hevent]; decide), List.append_nil,
          List.getLast?_concat]
        rfl
      · rw [if_neg hevent, if_neg hevent, List.append_nil]
        by_cases hdata : fieldName line = ascii "data"
        · rw [if_pos hdata, if_pos hdata, List.flatMap_append]
          simp
        · rw [if_neg hdata, if_neg hdata, List.append_nil]

/-- Data lines without the last line feed are the joined ones. -/
theorem dropLast_flatMap {values : List Bytes} (h : values ≠ []) :
    (values.flatMap fun value => value ++ [newline]).dropLast = joined values := by
  induction values with
  | nil => exact absurd rfl h
  | cons value values ih =>
    cases values with
    | nil => simp [joined]
    | cons next values =>
      have hrest : (next :: values).flatMap (fun value => value ++ [newline]) ≠ [] := by
        simp
      rw [List.flatMap_cons, List.dropLast_append_of_ne_nil hrest, ih (List.cons_ne_nil _ _)]
      simp [joined, List.intercalate_cons_cons]

/-- **What a block dispatches.** -/
theorem message_block (block : List Bytes) :
    (block.foldl Buffers.process ⟨[], []⟩).message = blockMessage block := by
  rw [foldl_process, Buffers.message, blockMessage]
  by_cases hnone : fields (ascii "data") block = []
  · rw [if_pos hnone, hnone]
    rfl
  · have hdata : (fields (ascii "data") block).flatMap (fun raw => fieldValue raw ++ [newline]) ≠
        [] := by
      cases hfields : fields (ascii "data") block with
      | nil => exact absurd hfields hnone
      | cons raw raws => simp
    have hjoined := dropLast_flatMap (mt List.map_eq_nil_iff.mp hnone :
      (fields (ascii "data") block).map fieldValue ≠ [])
    rw [List.flatMap_map] at hjoined
    rw [if_neg hnone, if_neg hdata, hjoined]

/-- **The messages of a stream are those of its blocks** but the last, which no empty line ends. -/
theorem interpret_blocks (lines : List Bytes) :
    ∃ blocks last, lines.splitOn [] = blocks ++ [last] ∧
      interpret ⟨[], []⟩ lines = blocks.filterMap blockMessage := by
  obtain ⟨blocks, last, hsplit, hrun⟩ := @run_blocks _ _ interpret ⟨[], []⟩ Buffers.process
    (fun buffers => buffers.message.toList) (fun _ => []) (fun _ => rfl) (fun _ _ => rfl)
    (fun _ _ hne _ => by rw [interpret, if_neg hne]) [] lines List.not_mem_nil
  refine ⟨blocks, last, hsplit, ?_⟩
  rw [List.filterMap_eq_flatMap_toList]
  refine hrun.trans ?_
  rw [List.append_nil]
  exact congrArg (fun f => List.flatMap f blocks) (funext fun block => by rw [message_block])

/-! ## Joined texts -/

theorem joined_ne_nil {value : Bytes} (h : value ≠ []) (values : List Bytes) :
    joined (value :: values) ≠ [] := by
  cases values with
  | nil => simpa [joined] using h
  | cons next values => simp [joined, List.intercalate_cons_cons]

theorem joined_cons (value : Bytes) {values : List Bytes} (h : values ≠ []) :
    joined (value :: values) = value ++ newline :: joined values := by
  cases values with
  | nil => exact absurd rfl h
  | cons next values => simp [joined, List.intercalate_cons_cons]

theorem joined_concat {values : List Bytes} (h : values ≠ []) (value : Bytes) :
    joined (values ++ [value]) = joined values ++ newline :: value := by
  induction values with
  | nil => exact absurd rfl h
  | cons first values ih =>
    by_cases hne : values = []
    · subst hne
      simp [joined, List.intercalate_cons_cons]
    · rw [List.cons_append, joined_cons _ (List.append_ne_nil_of_left_ne_nil hne _), ih hne,
        joined_cons _ hne, List.append_assoc]
      rfl

/-- **Joined texts determine the texts**, none of which has a line feed. -/
theorem joined_inj {values values' : List Bytes} (h : ∀ value ∈ values, newline ∉ value)
    (h' : ∀ value ∈ values', newline ∉ value) (hne : values ≠ []) (hne' : values' ≠ []) :
    joined values = joined values' ↔ values = values' := by
  constructor
  · intro hsame
    rw [← List.splitOn_intercalate newline h hne, ← List.splitOn_intercalate newline h' hne']
    exact congrArg _ hsame
  · exact congrArg joined

/-- The bytes of joined texts. -/
theorem forall_mem_joined {p : UInt8 → Prop} (hline : p newline) (values : List Bytes) :
    (∀ b ∈ joined values, p b) ↔ ∀ value ∈ values, ∀ b ∈ value, p b := by
  induction values with
  | nil => simp [joined]
  | cons value values ih =>
    by_cases hne : values = []
    · subst hne
      simp [joined]
    · rw [joined_cons _ hne, List.forall_mem_append, List.forall_mem_cons, ih, List.forall_mem_cons]
      exact and_congr_right fun _ => and_iff_right hline

end ServerSentEvents
