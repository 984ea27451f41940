import SwmSdk.EventLines
import SwmSdk.ServerSentEvents

/-! # The events of the client and of the standard

On a stream of lines that end with a line feed, or with a carriage return and a line feed,
`next_sse` is to return the messages of the standard (`ServerSentEvents.interpret`).  Both
work block by block; a block of `next_sse` has the trimmed texts of its data lines from the
first on that is not empty (`codeMessage_eq`), and the last block, which no empty line
ends, is returned as well.

`eventsFrom_standard_iff` says for which lines the results are the same (`Standard`), and
`sse_standard_iff` for which streams `next_sse` returns what the standard dispatches.
-/
namespace SwmSdk
namespace Cpp
open ByteText ServerSentEvents

/-! ## The blocks of `next_sse` -/

/-- The name and the data of an event. -/
def messageOf (event : ParsedSseEvent) : Message := ⟨event.name, event.data⟩

/-- An event is returned if it has data. -/
def returned (event : ParsedSseEvent) : Option Message :=
  if event.data = [] then none else some (messageOf event)

/-- What is returned of a block. -/
def codeMessage (block : List Bytes) : Option Message :=
  returned (block.foldl addLine ⟨[], [], []⟩)

/-- The texts that are joined: leading empty ones leave no line feed. -/
def keptTexts (raws : List (Option Bytes)) : List Bytes :=
  ((raws.filterMap id).map trimAscii).dropWhile (· = [])

/-- A line starts with a name and a colon. -/
theorem prefix_iff {name line rest : Bytes} (hname : 0x3a ∉ name)
    (h : afterColon line = some rest) : name ++ ascii ":" <+: line ↔ fieldName line = name := by
  constructor
  · rintro ⟨more, rfl⟩
    rw [List.append_assoc]
    exact fieldName_colon hname more
  · rintro rfl
    refine ⟨rest, ?_⟩
    rw [List.append_assoc]
    exact (line_eq h).symm

/-- A line without a colon adds nothing, whatever its name. -/
theorem addLine_of_no_colon (event : ParsedSseEvent) {line : Bytes} (h : 0x3a ∉ line) :
    addLine event line = event := by
  have hnot : ∀ {text : Bytes}, 0x3a ∈ text → ¬ text <+: line :=
    fun hmem hstarts => h (hstarts.subset hmem)
  rw [addLine, if_neg (hnot (by decide)), if_neg (hnot (by decide)), if_neg (hnot (by decide)),
    if_neg (hnot (by decide))]

/-- What a line adds, by its field. -/
theorem addLine_eq (event : ParsedSseEvent) (line : Bytes) :
    addLine event line =
      match afterColon line with
      | none => event
      | some rest =>
          if fieldName line = ascii "event" then { event with name := trimAscii rest }
          else if fieldName line = ascii "id" then { event with id := trimAscii rest }
          else if fieldName line = ascii "data" then
            { event with
              data := (if event.data = [] then [] else event.data ++ [newline]) ++
                trimAscii rest }
          else event := by
  cases hrest : afterColon line with
  | none =>
    refine addLine_of_no_colon event fun hcolon => ?_
    rw [afterColon, if_pos hcolon] at hrest
    cases hrest
  | some rest =>
    have hdrop : ∀ {name : Bytes}, fieldName line = name → line.drop (name.length + 1) = rest := by
      rintro name rfl
      have hline := line_eq hrest
      generalize fieldName line = name at hline
      rw [hline, ← List.drop_drop, List.drop_left]
      rfl
    have hcomment : ascii ":" <+: line ↔ fieldName line = [] := prefix_iff List.not_mem_nil hrest
    have hevent : ascii "event:" <+: line ↔ fieldName line = ascii "event" :=
      @prefix_iff (ascii "event") _ _ (by decide) hrest
    have hid : ascii "id:" <+: line ↔ fieldName line = ascii "id" :=
      @prefix_iff (ascii "id") _ _ (by decide) hrest
    have hdata : ascii "data:" <+: line ↔ fieldName line = ascii "data" :=
      @prefix_iff (ascii "data") _ _ (by decide) hrest
    rw [addLine]
    dsimp only
    by_cases h1 : fieldName line = []
    · rw [if_pos (hcomment.mpr h1), h1]
      rfl
    · rw [if_neg (mt hcomment.mp h1)]
      by_cases h2 : fieldName line = ascii "event"
      · rw [if_pos (hevent.mpr h2), if_pos h2, ← hdrop h2]
        rfl
      · rw [if_neg (mt hevent.mp h2), if_neg h2]
        by_cases h3 : fieldName line = ascii "id"
        · rw [if_pos (hid.mpr h3), if_pos h3, ← hdrop h3]
          rfl
        · rw [if_neg (mt hid.mp h3), if_neg h3]
          by_cases h4 : fieldName line = ascii "data"
          · rw [if_pos (hdata.mpr h4), if_pos h4, ← hdrop h4]
            rfl
          · rw [if_neg (mt hdata.mp h4), if_neg h4]

theorem keptTexts_none (raws : List (Option Bytes)) :
    keptTexts (raws ++ [none]) = keptTexts raws := by
  rw [keptTexts, List.filterMap_append]
  simp [keptTexts]

theorem keptTexts_some (raws : List (Option Bytes)) (text : Bytes) :
    keptTexts (raws ++ [some text]) =
      if keptTexts raws = [] then (if trimAscii text = [] then [] else [trimAscii text])
      else keptTexts raws ++ [trimAscii text] := by
  rw [keptTexts, List.filterMap_append, List.map_append, List.dropWhile_append, ← keptTexts]
  by_cases hnone : keptTexts raws = []
  · rw [if_pos (List.isEmpty_iff.mpr hnone), if_pos hnone]
    by_cases hempty : trimAscii text = [] <;> simp [hempty]
  · rw [if_neg (mt List.isEmpty_iff.mp hnone), if_neg hnone]
    rfl

/-- Nothing is kept, or the first text is not empty. -/
theorem keptTexts_cases (raws : List (Option Bytes)) :
    keptTexts raws = [] ∨ ∃ text texts, keptTexts raws = text :: texts ∧ text ≠ [] := by
  have hhead := List.head?_dropWhile_not (· = []) ((raws.filterMap id).map trimAscii)
  rw [← keptTexts] at hhead
  cases hkept : keptTexts raws with
  | nil => exact .inl rfl
  | cons text texts =>
    rw [hkept] at hhead
    exact .inr ⟨text, texts, rfl, of_decide_eq_false hhead⟩

theorem joined_keptTexts (raws : List (Option Bytes)) :
    joined (keptTexts raws) = [] ↔ keptTexts raws = [] := by
  rcases keptTexts_cases raws with h | ⟨text, texts, h, hne⟩
  · rw [h]
    exact iff_of_true rfl rfl
  · rw [h]
    exact iff_of_false (joined_ne_nil hne texts) (List.cons_ne_nil _ _)

/-- A text is put behind a line feed, unless it comes first. -/
theorem joined_keptTexts_concat (raws : List (Option Bytes)) (text : Bytes) :
    joined (keptTexts (raws ++ [some text])) =
      (if joined (keptTexts raws) = [] then [] else joined (keptTexts raws) ++ [newline]) ++
        trimAscii text := by
  rw [keptTexts_some]
  by_cases hnone : keptTexts raws = []
  · have hjoined : joined [] = [] := rfl
    rw [if_pos hnone, hnone, if_pos hjoined, List.nil_append]
    by_cases hempty : trimAscii text = []
    · rw [if_pos hempty, hempty]
      rfl
    · rw [if_neg hempty]
      simp [joined]
  · rw [if_neg hnone, if_neg (mt (joined_keptTexts _).mp hnone), joined_concat hnone,
      List.append_assoc]
    rfl

/-- The event of `next_sse` at the end of a block. -/
theorem foldl_addLine (block : List Bytes) :
    (block.foldl addLine ⟨[], [], []⟩).name =
        ((((fields (ascii "event") block).filterMap id).getLast?).map trimAscii).getD [] ∧
      (block.foldl addLine ⟨[], [], []⟩).data =
        joined (keptTexts (fields (ascii "data") block)) := by
  induction block using List.reverseRecOn with
  | nil => exact ⟨rfl, rfl⟩
  | append_singleton block line ih =>
    obtain ⟨hname, hdata⟩ := ih
    rw [List.foldl_concat, fields_concat, fields_concat, addLine_eq]
    cases hrest : afterColon line with
    | none =>
      dsimp only
      rw [hname, hdata]
      constructor
      · split <;> simp
      · split
        · rw [keptTexts_none]
        · rw [List.append_nil]
    | some rest =>
      dsimp only
      by_cases hevent : fieldName line = ascii "event"
      · rw [if_pos hevent, if_pos hevent, if_neg (by rw [hevent]; decide), List.append_nil]
        exact ⟨by simp, hdata⟩
      · rw [if_neg hevent, if_neg hevent, List.append_nil]
        by_cases hid : fieldName line = ascii "id"
        · rw [if_pos hid, if_neg (by rw [hid]; decide), List.append_nil]
          exact ⟨hname, hdata⟩
        · rw [if_neg hid]
          by_cases hfield : fieldName line = ascii "data"
          · rw [if_pos hfield, if_pos hfield]
            refine ⟨hname, ?_⟩
            dsimp only
            rw [hdata, joined_keptTexts_concat]
          · rw [if_neg hfield, if_neg hfield, List.append_nil]
            exact ⟨hname, hdata⟩

/-- **The message of a block of `next_sse`**: its last name, and the texts that are kept. -/
theorem codeMessage_eq (block : List Bytes) :
    codeMessage block =
      if keptTexts (fields (ascii "data") block) = [] then none
      else some ⟨((((fields (ascii "event") block).filterMap id).getLast?).map trimAscii).getD [],
        joined (keptTexts (fields (ascii "data") block))⟩ := by
  obtain ⟨hname, hdata⟩ := foldl_addLine block
  rw [codeMessage, returned, messageOf, hname, hdata]
  by_cases hnone : keptTexts (fields (ascii "data") block) = []
  · rw [if_pos hnone, if_pos ((joined_keptTexts _).mpr hnone)]
  · rw [if_neg hnone, if_neg (mt (joined_keptTexts _).mp hnone)]

/-- The events of the lines are the messages of the blocks, with the last. -/
theorem eventsFrom_blocks (lines : List Bytes) :
    ∃ blocks last, lines.splitOn [] = blocks ++ [last] ∧
      (eventsFrom ⟨[], [], []⟩ lines).map messageOf =
        blocks.filterMap codeMessage ++ (codeMessage last).toList := by
  have hreturned : ∀ event : ParsedSseEvent,
      (if event.data = [] then [] else [event]).map messageOf = (returned event).toList := by
    intro event
    rw [returned]
    split <;> rfl
  have hempty : ∀ (event : ParsedSseEvent) (lines : List Bytes),
      (eventsFrom event ([] :: lines)).map messageOf =
        (returned event).toList ++ (eventsFrom ⟨[], [], []⟩ lines).map messageOf := by
    intro event lines
    rw [eventsFrom, if_pos rfl, ← hreturned]
    split <;> rfl
  obtain ⟨blocks, last, hsplit, hrun⟩ := @run_blocks _ _
    (fun event lines => (eventsFrom event lines).map messageOf) ⟨[], [], []⟩ addLine
    (fun event => (returned event).toList) (fun event => (returned event).toList)
    hreturned hempty (fun event line hne lines => by rw [eventsFrom, if_neg hne]) [] lines
    List.not_mem_nil
  refine ⟨blocks, last, hsplit, ?_⟩
  rw [List.filterMap_eq_flatMap_toList]
  exact hrun

/-! ## Blocks that agree -/

/-- Only a space after the colon is trimmed off a text. -/
def Plain (raw : Option Bytes) : Prop := ∃ text, raw = some text ∧ trimAscii text = fieldValue raw

/-- The last `event` line of a block counts, if it has a colon. -/
def TypeKept (raws : List (Option Bytes)) : Prop :=
  match raws.getLast? with
  | none => True
  | some (some text) => trimAscii text = fieldValue (some text)
  | some none => ∀ text, (raws.filterMap id).getLast? = some text → trimAscii text = []

/-- A block with data lines is as in the standard: all of them have a colon and a text that is kept
as it is, and the first is not empty. -/
def BlockKept (block : List Bytes) : Prop :=
  fields (ascii "data") block ≠ [] →
    (∀ raw ∈ fields (ascii "data") block, Plain raw) ∧
    (∀ raw ∈ (fields (ascii "data") block).head?, fieldValue raw ≠ []) ∧
    TypeKept (fields (ascii "event") block)

/-- The data lines of a block are blank. -/
def Blank (block : List Bytes) : Prop :=
  ∀ text, some text ∈ fields (ascii "data") block → trimAscii text = []

/-- **The lines on which the client follows the standard.** -/
def Standard (lines : List Bytes) : Prop :=
  (∀ block ∈ (lines.splitOn []).dropLast, BlockKept block) ∧
    ∀ block ∈ (lines.splitOn []).getLast?, Blank block

theorem typeKept_iff (raws : List (Option Bytes)) :
    (((raws.filterMap id).getLast?).map trimAscii).getD [] =
      ((raws.getLast?).map fieldValue).getD [] ↔ TypeKept raws := by
  rcases List.eq_nil_or_concat raws with rfl | ⟨front, raw, rfl⟩
  · exact iff_of_true rfl trivial
  · rw [TypeKept, List.concat_eq_append, List.getLast?_concat, List.filterMap_append]
    cases raw with
    | none =>
      rw [List.filterMap_cons_none rfl, List.filterMap_nil, List.append_nil]
      dsimp only
      cases (front.filterMap id).getLast? with
      | none => exact iff_of_true rfl fun text h => by cases h
      | some text => exact ⟨fun h _ hsame => by cases hsame; exact h, fun h => h text rfl⟩
    | some text =>
      have hlast : [some text].filterMap id = [text] := rfl
      rw [hlast, List.getLast?_concat]
      exact Iff.rfl

theorem keptTexts_eq_nil_iff (raws : List (Option Bytes)) :
    keptTexts raws = [] ↔ ∀ text, some text ∈ raws → trimAscii text = [] := by
  rw [keptTexts, List.dropWhile_eq_nil_iff]
  constructor
  · intro h text hmem
    have hin : trimAscii text ∈ (raws.filterMap id).map trimAscii :=
      List.mem_map_of_mem (List.mem_filterMap.mpr ⟨some text, hmem, rfl⟩)
    exact of_decide_eq_true (h _ hin)
  · intro h value hvalue
    obtain ⟨text, htext, rfl⟩ := List.mem_map.mp hvalue
    obtain ⟨raw, hraw, rfl⟩ := List.mem_filterMap.mp htext
    exact decide_eq_true (h text hraw)

/-- Plain texts are the values of their fields. -/
theorem map_trim_eq {raws : List (Option Bytes)} (h : ∀ raw ∈ raws, Plain raw) :
    (raws.filterMap id).map trimAscii = raws.map fieldValue := by
  induction raws with
  | nil => rfl
  | cons raw raws ih =>
    rw [List.forall_mem_cons] at h
    obtain ⟨⟨text, rfl, hplain⟩, hrest⟩ := h
    have hcons : (some text :: raws).filterMap id = text :: raws.filterMap id := rfl
    rw [hcons, List.map_cons, List.map_cons, ih hrest, hplain]

theorem plain_of_map_trim {raws : List (Option Bytes)} (hall : ∀ raw ∈ raws, raw.isSome = true)
    (h : (raws.filterMap id).map trimAscii = raws.map fieldValue) : ∀ raw ∈ raws, Plain raw := by
  induction raws with
  | nil => simp
  | cons raw raws ih =>
    rw [List.forall_mem_cons] at hall ⊢
    obtain ⟨text, rfl⟩ := Option.isSome_iff_exists.mp hall.1
    have hcons : (some text :: raws).filterMap id = text :: raws.filterMap id := rfl
    rw [hcons, List.map_cons, List.map_cons, List.cons.injEq] at h
    exact ⟨⟨text, rfl, h.1⟩, ih hall.2 h.2⟩

/-- **The kept texts are the values of the fields** if those are plain and the first one is not
empty. -/
theorem keptTexts_eq_iff {raws : List (Option Bytes)} (hne : raws ≠ []) :
    keptTexts raws = raws.map fieldValue ↔
      (∀ raw ∈ raws, Plain raw) ∧ ∀ raw ∈ raws.head?, fieldValue raw ≠ [] := by
  constructor
  · intro hsame
    have hlength := congrArg List.length hsame
    rw [List.length_map] at hlength
    -- nothing was dropped, and every field has a text
    have hsuffix : keptTexts raws <:+ (raws.filterMap id).map trimAscii := List.dropWhile_suffix _
    have hle := hsuffix.length_le
    rw [List.length_map] at hle
    have hsome := List.length_filterMap_le id raws
    have hkept : keptTexts raws = (raws.filterMap id).map trimAscii :=
      hsuffix.eq_of_length (by rw [List.length_map]; omega)
    have hall : ∀ raw ∈ raws, (id raw).isSome = true :=
      List.filterMap_length_eq_length.mp (by omega)
    refine ⟨?_, ?_⟩
    · exact plain_of_map_trim hall (hkept ▸ hsame)
    · rcases keptTexts_cases raws with hnil | ⟨text, texts, hcons, htext⟩
      · rw [hnil, eq_comm, List.map_eq_nil_iff] at hsame
        exact absurd hsame hne
      · cases raws with
        | nil => exact absurd rfl hne
        | cons raw raws =>
          rw [hcons, List.map_cons, List.cons.injEq] at hsame
          rintro raw' hraw
          cases hraw
          exact hsame.1 ▸ htext
  · rintro ⟨hplain, hhead⟩
    rw [keptTexts, map_trim_eq hplain]
    cases raws with
    | nil => exact absurd rfl hne
    | cons raw raws =>
      rw [List.map_cons, List.dropWhile_cons_of_neg]
      exact fun h => hhead raw rfl (of_decide_eq_true h)

/-! ## Blank bytes -/

/-- All bytes are trimmed off. -/
def AllBlank (text : Bytes) : Prop := ∀ b ∈ text, trimAscii.isBlankByte b = true

theorem trimAscii_eq_nil_iff (text : Bytes) : trimAscii text = [] ↔ AllBlank text := by
  rw [trimAscii, List.rdropWhile_eq_nil_iff]
  constructor
  · intro h
    have hhead := List.head?_dropWhile_not trimAscii.isBlankByte text
    cases hrest : text.dropWhile trimAscii.isBlankByte with
    | nil => exact List.dropWhile_eq_nil_iff.mp hrest
    | cons b rest =>
      rw [hrest] at h hhead
      exact absurd (h b (List.mem_cons_self ..)) (by simpa using hhead)
  · intro h b hb
    exact h b ((List.dropWhile_subset _) hb)

theorem not_allBlank_trimAscii {text : Bytes} (h : trimAscii text ≠ []) :
    ¬ AllBlank (trimAscii text) := by
  intro hblank
  have hlast := List.rdropWhile_last_not trimAscii.isBlankByte _ h
  exact hlast (hblank _ (List.getLast_mem h))

theorem fieldValue_subset (text : Bytes) : fieldValue (some text) ⊆ text := by
  rw [fieldValue]
  split
  · exact List.tail_subset text
  · exact fun b hb => hb

theorem allBlank_joined (values : List Bytes) :
    AllBlank (joined values) ↔ ∀ value ∈ values, AllBlank value :=
  forall_mem_joined (p := fun b => trimAscii.isBlankByte b = true) (by decide) values

/-- What is returned of a block has a byte that is not blank. -/
theorem codeMessage_not_blank {block : List Bytes} {message : Message}
    (h : codeMessage block = some message) : ¬ AllBlank message.data := by
  rw [codeMessage_eq] at h
  rcases keptTexts_cases (fields (ascii "data") block) with hnil | ⟨text, texts, hcons, hne⟩
  · rw [if_pos hnil] at h
    cases h
  · rw [if_neg (by rw [hcons]; exact List.cons_ne_nil _ _)] at h
    cases h
    have hkept : text ∈ keptTexts (fields (ascii "data") block) := hcons ▸ List.mem_cons_self ..
    obtain ⟨raw, -, rfl⟩ := List.mem_map.mp ((List.dropWhile_subset _) hkept)
    intro hblank
    exact not_allBlank_trimAscii hne ((allBlank_joined _).mp hblank _ hkept)

/-- Of a block of which nothing is returned, the standard has blank data. -/
theorem blockMessage_blank {block : List Bytes} {message : Message}
    (hcode : codeMessage block = none) (h : blockMessage block = some message) :
    AllBlank message.data := by
  rw [blockMessage] at h
  split at h
  · cases h
  · cases h
    have hkept : keptTexts (fields (ascii "data") block) = [] := by
      by_contra hne
      rw [codeMessage_eq, if_neg hne] at hcode
      cases hcode
    refine (allBlank_joined _).mpr fun value hvalue => ?_
    obtain ⟨raw, hraw, rfl⟩ := List.mem_map.mp hvalue
    cases raw with
    | none => exact fun b hb => absurd hb List.not_mem_nil
    | some text =>
      have htrim := (keptTexts_eq_nil_iff _).mp hkept text hraw
      exact fun b hb => (trimAscii_eq_nil_iff text).mp htrim b (fieldValue_subset text hb)

/-- A block that is returned has a message in the standard. -/
theorem blockMessage_ne_none {block : List Bytes} {message : Message}
    (h : codeMessage block = some message) : blockMessage block ≠ none := by
  intro hnone
  rw [blockMessage] at hnone
  split at hnone
  · rename_i hfields
    rw [codeMessage_eq, hfields] at h
    cases h
  · cases hnone

/-- **Two ways to read blocks** give the same messages only block by block, if what one of them
returns can be told from what only the other returns. -/
theorem filterMap_eq_iff {β M : Type} {own standard : β → Option M} {P : M → Prop}
    (hown : ∀ {b m}, own b = some m → standard b ≠ none ∧ P m)
    (hother : ∀ {b m}, own b = none → standard b = some m → ¬ P m) (blocks : List β) (last : β) :
    blocks.filterMap own ++ (own last).toList = blocks.filterMap standard ↔
      (∀ b ∈ blocks, own b = standard b) ∧ own last = none := by
  induction blocks with
  | nil =>
    cases own last with
    | none => exact iff_of_true rfl ⟨by simp, rfl⟩
    | some m => exact iff_of_false (List.cons_ne_nil _ _) fun h => by cases h.2
  | cons b blocks ih =>
    rw [List.forall_mem_cons]
    cases hb : own b with
    | none =>
      rw [List.filterMap_cons_none hb]
      cases hs : standard b with
      | none =>
        rw [List.filterMap_cons_none hs, ih, and_iff_right rfl]
      | some m =>
        rw [List.filterMap_cons_some hs]
        refine iff_of_false (fun hsame => ?_) fun h => by cases h.1.1
        have hmem : m ∈ blocks.filterMap own ++ (own last).toList :=
          hsame ▸ List.mem_cons_self ..
        refine hother hb hs ?_
        rcases List.mem_append.mp hmem with hmem | hmem
        · obtain ⟨c, -, hc⟩ := List.mem_filterMap.mp hmem
          exact (hown hc).2
        · exact (hown (Option.mem_toList.mp hmem)).2
    | some m =>
      rw [List.filterMap_cons_some hb]
      cases hs : standard b with
      | none => exact absurd hs (hown hb).1
      | some m' =>
        rw [List.filterMap_cons_some hs, List.cons_append, List.cons.injEq, ih,
          Option.some.injEq, and_assoc]

/-! ## Lines on which the client follows the standard -/

theorem afterColon_subset {line text : Bytes} (h : afterColon line = some text) : text ⊆ line := by
  rw [line_eq h]
  exact fun b hb => List.mem_append_right _ (List.mem_cons_of_mem _ hb)

/-- What stands in the fields of a block has no line feed. -/
theorem newline_notMem_fields {block : List Bytes} (h : ∀ line ∈ block, newline ∉ line)
    (name text : Bytes) (hmem : some text ∈ fields name block) : newline ∉ text := by
  obtain ⟨line, hline, htext⟩ := List.mem_map.mp hmem
  exact fun hin => h line (List.mem_filter.mp hline).1 (afterColon_subset htext hin)

/-- **A block is returned as in the standard** under these conditions. -/
theorem codeMessage_eq_iff {block : List Bytes} (h : ∀ line ∈ block, newline ∉ line) :
    codeMessage block = blockMessage block ↔ BlockKept block := by
  have htexts := newline_notMem_fields h (ascii "data")
  rw [codeMessage_eq, blockMessage, BlockKept]
  by_cases hnone : fields (ascii "data") block = []
  · rw [if_pos hnone, hnone]
    exact iff_of_true rfl fun hne => absurd rfl hne
  · rw [if_neg hnone, imp_iff_right hnone, ← and_assoc, ← keptTexts_eq_iff hnone, ← typeKept_iff]
    have hvalues : ∀ value ∈ (fields (ascii "data") block).map fieldValue, newline ∉ value := by
      intro value hvalue
      obtain ⟨raw, hraw, rfl⟩ := List.mem_map.mp hvalue
      cases raw with
      | none => exact List.not_mem_nil
      | some text => exact fun hin => htexts text hraw (fieldValue_subset text hin)
    have hkeptTexts : ∀ value ∈ keptTexts (fields (ascii "data") block), newline ∉ value := by
      intro value hvalue
      obtain ⟨text, htext, rfl⟩ := List.mem_map.mp ((List.dropWhile_subset _) hvalue)
      obtain ⟨raw, hraw, hid⟩ := List.mem_filterMap.mp htext
      obtain rfl : raw = some text := hid
      exact fun hin => htexts text hraw (mem_trimAscii hin)
    have hmapped : (fields (ascii "data") block).map fieldValue ≠ [] :=
      mt List.map_eq_nil_iff.mp hnone
    by_cases hkept : keptTexts (fields (ascii "data") block) = []
    · rw [if_pos hkept]
      exact iff_of_false (fun hsame => by cases hsame)
        fun hboth => hmapped (hboth.1.symm.trans hkept)
    · rw [if_neg hkept, Option.some.injEq, Message.mk.injEq,
        joined_inj hkeptTexts hvalues hkept hmapped, and_comm]

/-- Nothing is returned of a blank block. -/
theorem codeMessage_none_iff (block : List Bytes) : codeMessage block = none ↔ Blank block := by
  rw [codeMessage_eq, Blank, ← keptTexts_eq_nil_iff]
  by_cases hkept : keptTexts (fields (ascii "data") block) = []
  · rw [if_pos hkept]
    exact iff_of_true rfl hkept
  · rw [if_neg hkept]
    exact iff_of_false (Option.some_ne_none _) hkept

/-- **For which lines the events are the messages of the standard.** -/
theorem eventsFrom_standard_iff {lines : List Bytes} (h : ∀ line ∈ lines, newline ∉ line) :
    (eventsFrom ⟨[], [], []⟩ lines).map messageOf = interpret ⟨[], []⟩ lines ↔ Standard lines := by
  have hblocks := (forall_mem_splitOn (p := fun line : Bytes => newline ∉ line) lines []).mpr
    fun line hline _ => h line hline
  obtain ⟨blocks, last, hsplit, hown⟩ := eventsFrom_blocks lines
  obtain ⟨blocks', last', hsplit', hstandard⟩ := interpret_blocks lines
  obtain ⟨rfl, hlast⟩ := List.append_inj' (hsplit.symm.trans hsplit') rfl
  rw [hown, hstandard, filterMap_eq_iff (P := fun message => ¬ AllBlank message.data)
    (fun hm => ⟨blockMessage_ne_none hm, codeMessage_not_blank hm⟩)
    (fun hnone hm hblank => hblank (blockMessage_blank hnone hm)), codeMessage_none_iff, Standard,
    hsplit, List.dropLast_concat, List.getLast?_concat]
  refine and_congr (forall₂_congr fun block hblock => ?_) ⟨?_, fun hall => hall last rfl⟩
  · refine codeMessage_eq_iff (hblocks block ?_)
    rw [hsplit]
    exact List.mem_append_left _ hblock
  · rintro hblank block hmem
    cases hmem
    exact hblank

/-! ## Streams of lines -/

/-- A line of a stream, with the line end that comes after it. -/
structure StreamLine where
  text : Bytes
  carriageReturn : Bool

/-- The line with its end. -/
def StreamLine.bytes (line : StreamLine) : Bytes :=
  line.text ++ (if line.carriageReturn then [0x0d, newline] else [newline])

/-- A text without a line end in it. -/
def NoBreak (text : Bytes) : Prop := newline ∉ text ∧ 0x0d ∉ text

/-- The bytes of a stream; nothing ends its last line. -/
def streamBytes (lines : List StreamLine) (last : Bytes) : Bytes :=
  lines.flatMap StreamLine.bytes ++ last

/-- The lines of a stream, with the last one that has no end. -/
def streamLines (lines : List StreamLine) (last : Bytes) : List Bytes :=
  lines.map StreamLine.text ++ (if last = [] then [] else [last])

theorem dropReturn_eq {line : Bytes} (h : 0x0d ∉ line) : dropReturn line = line := by
  rw [dropReturn, if_neg fun hlast => h (List.mem_of_getLast? hlast)]

/-- `read_line` returns the lines of such a stream. -/
theorem sseLines_stream {lines : List StreamLine} {last : Bytes}
    (hlines : ∀ line ∈ lines, NoBreak line.text) (hlast : NoBreak last) :
    sseLines (streamBytes lines last) = streamLines lines last := by
  induction lines with
  | nil => exact sseLines_last hlast.1
  | cons line lines ih =>
    obtain ⟨hline, hrest⟩ := List.forall_mem_cons.mp hlines
    obtain ⟨text, carriageReturn⟩ := line
    have hbytes : streamBytes (⟨text, carriageReturn⟩ :: lines) last =
        (text ++ if carriageReturn then [0x0d] else []) ++
          newline :: streamBytes lines last := by
      cases carriageReturn <;> simp [streamBytes, StreamLine.bytes]
    have hdropped : dropReturn (text ++ if carriageReturn then [0x0d] else []) = text := by
      cases carriageReturn with
      | false =>
        rw [if_neg (by decide), List.append_nil]
        exact dropReturn_eq hline.2
      | true =>
        rw [if_pos rfl, dropReturn, if_pos List.getLast?_concat, List.dropLast_concat]
    have hnone : newline ∉ text ++ if carriageReturn then [0x0d] else [] := by
      rw [List.mem_append]
      refine fun h => h.elim hline.1 fun h => ?_
      split at h
      · exact absurd h (by decide)
      · exact absurd h List.not_mem_nil
    rw [hbytes, sseLines_line hnone, hdropped, ih hrest]
    rfl

/-- **For which streams `next_sse` returns what the standard dispatches**, call after call and
whatever the reads: those that keep to the limit of a line and whose blocks are kept. -/
theorem sse_standard_iff {lines : List StreamLine} {last : Bytes}
    (hlines : ∀ line ∈ lines, NoBreak line.text) (hlast : NoBreak last) {chunks : List Bytes}
    (hchunks : ∀ chunk ∈ chunks, chunk ≠ [])
    (hbytes : chunks.flatten = streamBytes lines last) (slack : Nat) :
    (∀ k, (nthCall (nextEvent slack) k (opened chunks)).map (Option.map messageOf) =
        .ok (interpret ⟨[], []⟩ (streamLines lines last))[k]?) ↔
      Fits [] chunks ∧ Standard (streamLines lines last) := by
  have hnewline : ∀ line ∈ streamLines lines last, newline ∉ line := by
    intro line hline
    rcases List.mem_append.mp hline with hline | hline
    · obtain ⟨own, hown, rfl⟩ := List.mem_map.mp hline
      exact (hlines own hown).1
    · split at hline
      · exact absurd hline List.not_mem_nil
      · rw [List.mem_singleton.mp hline]
        exact hlast.1
  by_cases hfits : Fits [] chunks
  · have hevents := nthEvent_eq ⟨hbytes, hchunks, hfits⟩ slack
    rw [sseLines_stream hlines hlast] at hevents
    rw [and_iff_right hfits, ← eventsFrom_standard_iff hnewline, List.ext_getElem?_iff]
    refine forall_congr' fun k => ?_
    rw [hevents k, List.getElem?_map]
    exact ⟨Except.ok.inj, congrArg Except.ok⟩
  · refine iff_of_false (fun hall => ?_) fun hboth => hfits hboth.1
    obtain ⟨k, e, herror⟩ := nthCall_limit (reading_opened hchunks) hfits slack
    have hcall := hall k
    rw [herror] at hcall
    cases hcall

/-! An event with a name and one data line, with a space at the end or without. -/

def smallLines (data : Bytes) : List StreamLine :=
  [⟨ascii "event: a", true⟩, ⟨data, true⟩, ⟨[], true⟩]

theorem smallLines_noBreak {data : Bytes} (h : NoBreak data) :
    ∀ line ∈ smallLines data, NoBreak line.text := by
  intro line hline
  simp only [smallLines, List.mem_cons, List.not_mem_nil, or_false] at hline
  rcases hline with rfl | rfl | rfl
  · exact ⟨by decide, by decide⟩
  · exact h
  · exact ⟨by decide, by decide⟩

/-- Without the space it is returned as it was sent. -/
theorem small_stream_standard :
    (nthCall (nextEvent 0) 0 (opened [smallStream])).map (Option.map messageOf) =
        .ok (interpret ⟨[], []⟩ (streamLines (smallLines (ascii "data: 1")) []))[0]? ∧
      (nthCall (nextEvent 0) 1 (opened [smallStream])).map (Option.map messageOf) =
        .ok (interpret ⟨[], []⟩ (streamLines (smallLines (ascii "data: 1")) []))[1]? := by
  suffices hboth : Fits [] [smallStream] ∧
      Standard (streamLines (smallLines (ascii "data: 1")) []) by
    have hall := (sse_standard_iff (smallLines_noBreak ⟨by decide, by decide⟩)
      ⟨by decide, by decide⟩ (by decide) (by decide) 0).mpr hboth
    exact ⟨hall 0, hall 1⟩
  refine ⟨⟨by decide, trivial⟩, ?_⟩
  have hblocks : (streamLines (smallLines (ascii "data: 1")) []).splitOn [] =
      [[ascii "event: a", ascii "data: 1"], []] := by decide
  have hdata : fields (ascii "data") [ascii "event: a", ascii "data: 1"] = [some (ascii " 1")] := by
    decide
  have htype : fields (ascii "event") [ascii "event: a", ascii "data: 1"] =
      [some (ascii " a")] := by decide
  rw [Standard, hblocks]
  refine ⟨?_, ?_⟩
  · intro block hblock
    obtain rfl := List.mem_singleton.mp hblock
    rw [BlockKept, hdata, htype]
    refine fun _ => ⟨?_, ?_, ?_⟩
    · intro raw hraw
      obtain rfl := List.mem_singleton.mp hraw
      exact ⟨_, rfl, by decide⟩
    · intro raw hraw
      cases hraw
      decide
    · exact (by decide : trimAscii (ascii " a") = fieldValue (some (ascii " a")))
  · intro block hblock
    cases hblock
    exact fun text hmem => absurd hmem List.not_mem_nil

/-- A space at the end of the data is lost. -/
theorem trailing_space_lost :
    ¬ ∀ (lines : List StreamLine) (last : Bytes), (∀ line ∈ lines, NoBreak line.text) →
      NoBreak last → ∀ chunks : List Bytes, (∀ chunk ∈ chunks, chunk ≠ []) →
      chunks.flatten = streamBytes lines last → ∀ slack k,
      (nthCall (nextEvent slack) k (opened chunks)).map (Option.map messageOf) =
        .ok (interpret ⟨[], []⟩ (streamLines lines last))[k]? := by
  intro h
  have hcall := h (smallLines (ascii "data: 1 ")) [] (smallLines_noBreak ⟨by decide, by decide⟩)
    ⟨by decide, by decide⟩ [ascii "event: a\r\ndata: 1 \r\n\r\n"] (by decide) (by decide) 0 0
  have hown : ((nthCall (nextEvent 0) 0
      (opened [ascii "event: a\r\ndata: 1 \r\n\r\n"])).map (Option.map messageOf)).toOption =
        some (some ⟨ascii "a", ascii "1"⟩) := by
    decide +kernel
  rw [hcall] at hown
  exact absurd hown (by decide +kernel)

end Cpp
end SwmSdk
