import SwmSdk.EventStandard

/-! # The size of an event

`read_line` refuses a line of more than 256 KiB, with an error that speaks of an event;
`next_sse` puts the data of any number of lines together.  `Held` follows what `next_sse`
keeps between the lines of a stream, over all the calls; it is the fold of the lines that
came after the last empty one (`held_iff`), which are those that are taken before a read is
too long or the stream fails (`linesTaken`).

`sse_limit_iff` says for which streams the data of an event keeps to the limit.
-/
namespace SwmSdk
namespace Cpp
open ByteText ServerSentEvents

/-! ## The lines that are taken -/

/-- The reads before one that makes the unfinished line too long. -/
def readsTaken : Bytes → List Bytes → List Bytes
  | _, [] => []
  | pending, chunk :: chunks =>
      if (unfinished pending ++ chunk).length ≤ 256 * 1024 then
        chunk :: readsTaken (unfinished pending ++ chunk) chunks
      else []

instance decidableFits : (pending : Bytes) → (chunks : List Bytes) → Decidable (Fits pending chunks)
  | _, [] => isTrue trivial
  | pending, chunk :: chunks =>
      have := decidableFits (unfinished pending ++ chunk) chunks
      inferInstanceAs (Decidable (_ ∧ _))

/-- The stream comes to its end: no read is too long and none fails. -/
def Ends (reader : SseReader) : Prop :=
  Fits reader.pending reader.chunks ∧ reader.failure = none

instance (reader : SseReader) : Decidable (Ends reader) := inferInstanceAs (Decidable (_ ∧ _))

/-- The lines that a line feed ends. -/
def closedLines (bytes : Bytes) : List Bytes := (bytes.splitOn newline).dropLast.map dropReturn

/-- The lines that a reader still takes. -/
def linesTaken (reader : SseReader) : List Bytes :=
  if Ends reader then sseLines (reader.pending ++ reader.chunks.flatten)
  else closedLines (reader.pending ++ (readsTaken reader.pending reader.chunks).flatten)

theorem closedLines_line {line : Bytes} (h : newline ∉ line) (rest : Bytes) :
    closedLines (line ++ newline :: rest) = dropReturn line :: closedLines rest := by
  have hne : rest.splitOn newline ≠ [] := List.splitOn_ne_nil _ _
  rw [closedLines, List.splitOn_append_cons_self_of_not_mem h, List.dropLast_cons_of_ne_nil hne]
  rfl

theorem closedLines_open {bytes : Bytes} (h : newline ∉ bytes) : closedLines bytes = [] := by
  rw [closedLines, List.splitOn_eq_singleton h]
  rfl

theorem readsTaken_congr {pending pending' : Bytes} (h : unfinished pending = unfinished pending')
    (chunks : List Bytes) : readsTaken pending chunks = readsTaken pending' chunks := by
  cases chunks with
  | nil => rfl
  | cons chunk chunks => rw [readsTaken, readsTaken, h]

theorem ends_line (line rest : Bytes) (chunks : List Bytes) (failure : Option Failure) :
    Ends ⟨line ++ newline :: rest, chunks, failure⟩ ↔ Ends ⟨rest, chunks, failure⟩ :=
  and_congr (fits_congr (unfinished_line line rest) chunks) Iff.rfl

theorem linesTaken_line {line : Bytes} (h : newline ∉ line) (rest : Bytes) (chunks : List Bytes)
    (failure : Option Failure) :
    linesTaken ⟨line ++ newline :: rest, chunks, failure⟩ =
      dropReturn line :: linesTaken ⟨rest, chunks, failure⟩ := by
  have hreads := readsTaken_congr (unfinished_line line rest) chunks
  rw [linesTaken, linesTaken]
  dsimp only
  rw [List.append_assoc, List.append_assoc, List.cons_append, List.cons_append, sseLines_line h,
    closedLines_line h, hreads]
  by_cases hends : Ends ⟨rest, chunks, failure⟩
  · rw [if_pos hends, if_pos ((ends_line ..).mpr hends)]
  · rw [if_neg hends, if_neg (mt (ends_line ..).mp hends)]

/-- A read that fits is put behind the unfinished line. -/
theorem ends_read {pending chunk : Bytes} (h : newline ∉ pending)
    (hfit : (pending ++ chunk).length ≤ 256 * 1024) (chunks : List Bytes)
    (failure : Option Failure) :
    Ends ⟨pending, chunk :: chunks, failure⟩ ↔ Ends ⟨pending ++ chunk, chunks, failure⟩ := by
  rw [Ends, Ends]
  dsimp only
  rw [Fits, unfinished_eq h, and_iff_right hfit]

theorem linesTaken_read {pending chunk : Bytes} (h : newline ∉ pending)
    (hfit : (pending ++ chunk).length ≤ 256 * 1024) (chunks : List Bytes)
    (failure : Option Failure) :
    linesTaken ⟨pending, chunk :: chunks, failure⟩ =
      linesTaken ⟨pending ++ chunk, chunks, failure⟩ := by
  have hends := ends_read h hfit chunks failure
  rw [linesTaken, linesTaken]
  dsimp only
  rw [readsTaken, unfinished_eq h, if_pos hfit, List.flatten_cons, List.flatten_cons,
    ← List.append_assoc, ← List.append_assoc]
  by_cases hlater : Ends ⟨pending ++ chunk, chunks, failure⟩
  · rw [if_pos hlater, if_pos (hends.mpr hlater)]
  · rw [if_neg hlater, if_neg (mt hends.mp hlater)]

/-- **What a call of `read_line` does**: it takes the first line, or there is none and the stream
ends or the call throws. -/
theorem readLine_taken {reader : SseReader} (hchunks : ∀ chunk ∈ reader.chunks, chunk ≠ []) :
    (∃ line next, readLine reader.failure reader.pending reader.chunks = .ok (some line, next) ∧
        linesTaken reader = line :: linesTaken next ∧ (Ends next ↔ Ends reader) ∧
        (∀ chunk ∈ next.chunks, chunk ≠ [])) ∨
      (linesTaken reader = [] ∧ Ends reader ∧
        readLine reader.failure reader.pending reader.chunks = .ok (none, ⟨[], [], none⟩)) ∨
      (linesTaken reader = [] ∧ ¬ Ends reader ∧
        ∃ e, readLine reader.failure reader.pending reader.chunks = .error e) := by
  obtain ⟨pending, chunks, failure⟩ := reader
  dsimp only at hchunks ⊢
  induction chunks generalizing pending with
  | nil =>
    rcases cutLine_eq pending with ⟨hcut, hnone⟩ | ⟨line, rest, hcut, hline, rfl⟩
    · cases failure with
      | some e =>
        have hends : ¬ Ends ⟨pending, [], some e⟩ := fun h => by cases h.2
        rw [readLine, hcut]
        refine .inr (.inr ⟨?_, hends, e, rfl⟩)
        rw [linesTaken, if_neg hends]
        exact closedLines_open (by rwa [readsTaken, List.flatten_nil, List.append_nil])
      | none =>
        have hends : Ends ⟨pending, [], none⟩ := ⟨trivial, rfl⟩
        have htaken : linesTaken ⟨pending, [], none⟩ = if pending = [] then [] else [pending] := by
          rw [linesTaken, if_pos hends, List.flatten_nil, List.append_nil, sseLines_last hnone]
        rw [readLine, hcut]
        dsimp only
        by_cases hempty : pending = []
        · rw [if_pos hempty] at htaken ⊢
          exact .inr (.inl ⟨htaken, hends, rfl⟩)
        · rw [if_neg hempty] at htaken ⊢
          exact .inl ⟨pending, ⟨[], [], none⟩, rfl, htaken, iff_of_true ⟨trivial, rfl⟩ hends,
            fun _ h => by cases h⟩
    · have hread : readLine failure (line ++ newline :: rest) [] =
          .ok (some (dropReturn line), ⟨rest, [], failure⟩) := by
        cases failure <;> rw [readLine, hcut]
      exact .inl ⟨_, _, hread, linesTaken_line hline rest [] failure,
        (ends_line line rest [] failure).symm, hchunks⟩
  | cons chunk chunks ih =>
    rw [readLine]
    rcases cutLine_eq pending with ⟨hcut, hnone⟩ | ⟨line, rest, hcut, hline, rfl⟩
    · rw [hcut]
      dsimp only
      rw [if_neg (hchunks chunk (List.mem_cons_self ..))]
      by_cases hlarge : (pending ++ chunk).length > 256 * 1024
      · have hends : ¬ Ends ⟨pending, chunk :: chunks, failure⟩ := by
          rintro ⟨hfits, -⟩
          have hfit := hfits.1
          rw [unfinished_eq hnone] at hfit
          omega
        rw [if_pos hlarge]
        refine .inr (.inr ⟨?_, hends, _, rfl⟩)
        rw [linesTaken, if_neg hends, readsTaken, unfinished_eq hnone, if_neg (by omega)]
        exact closedLines_open (by rwa [List.flatten_nil, List.append_nil])
      · have hfit : (pending ++ chunk).length ≤ 256 * 1024 := by omega
        rw [if_neg hlarge, linesTaken_read hnone hfit, ends_read hnone hfit]
        exact ih (pending ++ chunk) fun c hc => hchunks c (List.mem_cons_of_mem _ hc)
    · rw [hcut]
      exact .inl ⟨_, _, rfl, linesTaken_line hline rest _ failure,
        (ends_line line rest _ failure).symm, hchunks⟩

/-- The lines that a line feed ends are lines of the bytes. -/
theorem closedLines_length (bytes : Bytes) : (closedLines bytes).length ≤ bytes.length := by
  induction hlength : bytes.length using Nat.strong_induction_on generalizing bytes with
  | _ n ih =>
    rcases cutLine_eq bytes with ⟨-, hnone⟩ | ⟨line, rest, -, hline, rfl⟩
    · rw [closedLines_open hnone]
      exact Nat.zero_le _
    · rw [List.length_append, List.length_cons] at hlength
      have hrest := ih rest.length (by omega) rest rfl
      rw [closedLines_line hline, List.length_cons]
      omega

theorem readsTaken_length (pending : Bytes) (chunks : List Bytes) :
    (readsTaken pending chunks).flatten.length ≤ chunks.flatten.length := by
  induction chunks generalizing pending with
  | nil => exact Nat.le_refl _
  | cons chunk chunks ih =>
    have hrest := ih (unfinished pending ++ chunk)
    rw [readsTaken]
    split
    · rw [List.flatten_cons, List.flatten_cons, List.length_append, List.length_append]
      omega
    · exact Nat.zero_le _

theorem linesTaken_length (reader : SseReader) : (linesTaken reader).length ≤ reader.size := by
  have hflatten : reader.chunks.flatten.length = (reader.chunks.map List.length).sum :=
    List.length_flatten
  have hreads := readsTaken_length reader.pending reader.chunks
  rw [linesTaken, SseReader.size]
  split
  · have hlines := sseLines_length (reader.pending ++ reader.chunks.flatten)
    rw [List.length_append] at hlines
    omega
  · have hlines :=
      closedLines_length (reader.pending ++ (readsTaken reader.pending reader.chunks).flatten)
    rw [List.length_append] at hlines
    omega

/-! ## The events that are returned -/

/-- The events of the lines; the one after the last empty line is returned if the stream ends. -/
def eventsTaken (ended : Bool) : ParsedSseEvent → List Bytes → List ParsedSseEvent
  | event, [] => if event.data ≠ [] ∧ ended then [event] else []
  | event, line :: lines =>
      if line = [] then
        if event.data = [] then eventsTaken ended ⟨[], [], []⟩ lines
        else event :: eventsTaken ended ⟨[], [], []⟩ lines
      else eventsTaken ended (addLine event line) lines

/-- **What a call of `next_sse` does**: it takes the first event, or there is none and the stream
ends or the call throws. -/
theorem nextSse_taken {fuel : Nat} {event : ParsedSseEvent} {reader : SseReader}
    (hchunks : ∀ chunk ∈ reader.chunks, chunk ≠ []) (hfuel : (linesTaken reader).length < fuel) :
    (∃ first later, nextSse fuel event reader = .ok (some first, later) ∧
        eventsTaken (Ends reader) event (linesTaken reader) =
          first :: eventsTaken (Ends reader) ⟨[], [], []⟩ (linesTaken later) ∧
        (Ends later ↔ Ends reader) ∧ ∀ chunk ∈ later.chunks, chunk ≠ []) ∨
      eventsTaken (Ends reader) event (linesTaken reader) = [] ∧
        ((∃ e, nextSse fuel event reader = .error e) ∨
          Ends reader ∧ nextSse fuel event reader = .ok (none, ⟨[], [], none⟩)) := by
  induction fuel generalizing event reader with
  | zero => exact absurd hfuel (Nat.not_lt_zero _)
  | succ fuel ih =>
    rcases readLine_taken hchunks with
      ⟨line, next, hread, hlines, hends, hnext⟩ | ⟨hlines, hends, hread⟩ | ⟨hlines, hends, e, hread⟩
    · rw [hlines, List.length_cons] at hfuel
      have hrest := fun event' => @ih event' next hnext (Nat.lt_of_succ_lt_succ hfuel)
      simp only [hends] at hrest
      rw [nextSse_line hread, hlines, eventsTaken]
      by_cases hempty : line = []
      · rw [if_pos hempty, if_pos hempty]
        by_cases hdata : event.data = []
        · rw [if_pos hdata, if_pos hdata]
          exact hrest _
        · rw [if_neg hdata, if_neg hdata]
          exact .inl ⟨event, next, rfl, rfl, hends, hnext⟩
      · rw [if_neg hempty, if_neg hempty]
        exact hrest _
    -- the end of the stream, where an event that was begun is returned
    · rw [nextSse, hread, hlines, eventsTaken, decide_eq_true hends]
      dsimp only
      by_cases hdata : event.data = []
      · rw [if_pos hdata, if_neg (fun h => h.1 hdata)]
        exact .inr ⟨rfl, .inr ⟨hends, rfl⟩⟩
      · have hlater : Ends ⟨[], [], none⟩ := ⟨trivial, rfl⟩
        rw [if_neg hdata, if_pos ⟨hdata, rfl⟩]
        exact .inl ⟨event, _, rfl, rfl, iff_of_true hlater hends, fun _ h => by cases h⟩
    · rw [nextSse, hread, hlines, eventsTaken, decide_eq_false hends]
      refine .inr ⟨if_neg fun h => ?_, .inl ⟨e, rfl⟩⟩
      cases h.2

/-- **The events that the calls return.** -/
theorem nthCall_taken {reader : SseReader} (hchunks : ∀ chunk ∈ reader.chunks, chunk ≠ [])
    (slack k : Nat) (event : ParsedSseEvent) :
    nthCall (nextEvent slack) k reader = .ok (some event) ↔
      (eventsTaken (Ends reader) ⟨[], [], []⟩ (linesTaken reader))[k]? = some event := by
  induction k generalizing reader with
  | zero =>
    have hfuel : (linesTaken reader).length < reader.size + 1 + slack := by
      have hlength := linesTaken_length reader
      omega
    rw [nthCall, nextEvent]
    rcases nextSse_taken hchunks hfuel with
      ⟨first, later, hrun, hevents, -, -⟩ | ⟨hevents, ⟨e, hrun⟩ | ⟨hends, hrun⟩⟩
    · rw [hrun, hevents]
      simp
    · rw [hrun, hevents]
      simp
    · rw [hrun, hevents]
      simp
  | succ k ih =>
    have hfuel : (linesTaken reader).length < reader.size + 1 + slack := by
      have hlength := linesTaken_length reader
      omega
    rw [nthCall, nextEvent]
    rcases nextSse_taken hchunks hfuel with
      ⟨first, later, hrun, hevents, hends, hlater⟩ | ⟨hevents, ⟨e, hrun⟩ | ⟨hends, hrun⟩⟩
    · rw [hrun, hevents, List.getElem?_cons_succ]
      dsimp only
      rw [ih hlater]
      simp only [hends]
    · rw [hrun, hevents]
      simp
    · rw [hrun, hevents]
      dsimp only
      rw [ih (fun _ h => by cases h)]
      exact iff_of_false (by simp [linesTaken, Ends, Fits, sseLines, linesOf, eventsTaken])
        (by simp)

/-! ## What is held between the lines -/

/-- An empty line ends an event, and the next one starts afresh. -/
def keep (event : ParsedSseEvent) (line : Bytes) : ParsedSseEvent :=
  if line = [] then ⟨[], [], []⟩ else addLine event line

/-- What `next_sse` holds between the calls of `read_line`, over all its calls on a stream. -/
inductive Held (first : SseReader) : ParsedSseEvent → SseReader → Prop
  | start : Held first ⟨[], [], []⟩ first
  | line {event : ParsedSseEvent} {reader next : SseReader} {line : Bytes} :
      Held first event reader → nextLine reader = .ok (some line, next) →
      Held first (keep event line) next
  | finish {event : ParsedSseEvent} {reader next : SseReader} :
      Held first event reader → nextLine reader = .ok (none, next) → Held first ⟨[], [], []⟩ next

/-- An event that a call returns was held, and what the next call starts with is. -/
theorem Held.nextSse {first reader later : SseReader} {event : ParsedSseEvent} {fuel : Nat}
    {result : Option ParsedSseEvent} (h : Held first event reader)
    (hfuel : (linesTaken reader).length < fuel) (hchunks : ∀ chunk ∈ reader.chunks, chunk ≠ [])
    (hrun : nextSse fuel event reader = .ok (result, later)) :
    Held first ⟨[], [], []⟩ later ∧ ∀ returned ∈ result, ∃ before, Held first returned before := by
  induction fuel generalizing event reader with
  | zero => exact absurd hfuel (Nat.not_lt_zero _)
  | succ fuel ih =>
    rcases readLine_taken hchunks with ⟨line, next, hread, hlines, -, hnext⟩ | ⟨-, -, hread⟩ |
      ⟨-, -, e, hread⟩
    · rw [hlines, List.length_cons] at hfuel
      rw [nextSse_line hread] at hrun
      have hstep : Held first (keep event line) next := h.line hread
      by_cases hempty : line = []
      · rw [keep, if_pos hempty] at hstep
        rw [if_pos hempty] at hrun
        by_cases hdata : event.data = []
        · rw [if_pos hdata] at hrun
          exact ih hstep (Nat.lt_of_succ_lt_succ hfuel) hnext hrun
        · rw [if_neg hdata] at hrun
          cases hrun
          exact ⟨hstep, fun _ heq => by cases heq; exact ⟨_, h⟩⟩
      · rw [keep, if_neg hempty] at hstep
        rw [if_neg hempty] at hrun
        exact ih hstep (Nat.lt_of_succ_lt_succ hfuel) hnext hrun
    · rw [Cpp.nextSse, hread] at hrun
      cases hrun
      refine ⟨h.finish hread, fun returned hreturned => ?_⟩
      by_cases hdata : event.data = []
      · rw [if_pos hdata] at hreturned
        cases hreturned
      · rw [if_neg hdata] at hreturned
        cases hreturned
        exact ⟨_, h⟩
    · rw [Cpp.nextSse, hread] at hrun
      cases hrun

section Lines
variable {first : SseReader} (hfirst : ∀ chunk ∈ first.chunks, chunk ≠ [])
include hfirst

/-- What is held is kept of some of the lines, the other ones being those still to come. -/
theorem Held.lines {event : ParsedSseEvent} {reader : SseReader} (h : Held first event reader) :
    (∀ chunk ∈ reader.chunks, chunk ≠ []) ∧
      ((∃ before, linesTaken first = before ++ linesTaken reader ∧
          event = before.foldl keep ⟨[], [], []⟩) ∨
        event = ⟨[], [], []⟩ ∧ linesTaken reader = []) := by
  induction h with
  | start => exact ⟨hfirst, .inl ⟨[], rfl, rfl⟩⟩
  | @line event reader next line h hread ih =>
    obtain ⟨hchunks, hevent⟩ := ih
    rcases readLine_taken hchunks with ⟨line', next', hread', hlines, -, hnext⟩ | ⟨-, -, hread'⟩ |
      ⟨-, -, e, hread'⟩
    · cases hread.symm.trans hread'
      refine ⟨hnext, .inl ?_⟩
      rcases hevent with ⟨before, hbefore, rfl⟩ | ⟨-, hnone⟩
      · refine ⟨before ++ [line], ?_, ?_⟩
        · rw [hbefore, hlines, List.append_assoc]
          rfl
        · rw [List.foldl_concat]
      · rw [hlines] at hnone
        cases hnone
    · cases hread.symm.trans hread'
    · cases hread.symm.trans hread'
  | finish h hread ih =>
    rcases readLine_taken ih.1 with ⟨line', next', hread', -, -, -⟩ | ⟨-, -, hread'⟩ |
      ⟨-, -, e, hread'⟩
    · cases hread.symm.trans hread'
    · cases hread.symm.trans hread'
      exact ⟨fun _ hchunk => absurd hchunk List.not_mem_nil, .inr ⟨rfl, rfl⟩⟩
    · cases hread.symm.trans hread'

/-- Every part of the lines is kept at some time. -/
theorem held_of_lines (before after : List Bytes) (hlines : linesTaken first = before ++ after) :
    ∃ reader, Held first (before.foldl keep ⟨[], [], []⟩) reader ∧ linesTaken reader = after ∧
      ∀ chunk ∈ reader.chunks, chunk ≠ [] := by
  induction before using List.reverseRecOn generalizing after with
  | nil => exact ⟨first, .start, hlines, hfirst⟩
  | append_singleton before line ih =>
    rw [List.append_assoc, List.singleton_append] at hlines
    obtain ⟨reader, hheld, hafter, hchunks⟩ := ih (line :: after) hlines
    rcases readLine_taken hchunks with ⟨line', next, hread, hnext, -, hproper⟩ | ⟨hnone, -, -⟩ |
      ⟨hnone, -, -⟩
    · rw [hafter] at hnext
      obtain ⟨rfl, rfl⟩ := List.cons.inj hnext
      exact ⟨next, by rw [List.foldl_concat]; exact hheld.line hread, rfl, hproper⟩
    · rw [hafter] at hnone
      cases hnone
    · rw [hafter] at hnone
      cases hnone

end Lines

theorem foldl_keep {lines : List Bytes} (h : [] ∉ lines) (event : ParsedSseEvent) :
    lines.foldl keep event = lines.foldl addLine event := by
  induction lines generalizing event with
  | nil => rfl
  | cons line lines ih =>
    obtain ⟨hne, hrest⟩ := not_or.mp (mt List.mem_cons.mpr h)
    rw [List.foldl_cons, List.foldl_cons, keep, if_neg (Ne.symm hne), ih hrest]

/-! ## The sizes of lines -/

theorem trimAscii_length (value : Bytes) : (trimAscii value).length ≤ value.length :=
  ((List.rdropWhile_prefix _ _).length_le).trans (List.dropWhile_sublist _).length_le

theorem dropReturn_length (line : Bytes) : (dropReturn line).length ≤ line.length := by
  rw [dropReturn]
  split
  · exact (List.dropLast_sublist _).length_le
  · exact Nat.le_refl _

/-- A line and what is left of the bytes keep to the limit. -/
theorem nextLine_length {reader next : SseReader} {result : Option Bytes}
    (hread : nextLine reader = .ok (result, next)) (hpending : reader.pending.length ≤ 256 * 1024) :
    next.pending.length ≤ 256 * 1024 ∧ ∀ line ∈ result, line.length ≤ 256 * 1024 := by
  obtain ⟨pending, chunks, failure⟩ := reader
  rw [nextLine] at hread
  dsimp only at hread hpending
  -- a line that is cut off, and the line that the end of the stream leaves
  have hclosed : ∀ line rest, (line ++ newline :: rest).length ≤ 256 * 1024 →
      rest.length ≤ 256 * 1024 ∧
        ∀ first ∈ some (dropReturn line), first.length ≤ 256 * 1024 := by
    intro line rest hlength
    have hdrop := dropReturn_length line
    rw [List.length_append, List.length_cons] at hlength
    refine ⟨by omega, fun first hfirst => ?_⟩
    obtain rfl := Option.mem_some.mp hfirst
    omega
  have hlast : ∀ pending : Bytes, pending.length ≤ 256 * 1024 →
      ∀ line ∈ (if pending = [] then none else some pending), line.length ≤ 256 * 1024 := by
    intro pending hlength line hline
    split at hline
    · cases hline
    · obtain rfl := Option.mem_some.mp hline
      exact hlength
  induction chunks generalizing pending with
  | nil =>
    rcases cutLine_eq pending with ⟨hcut, -⟩ | ⟨line, rest, hcut, -, rfl⟩
    · cases failure with
      | some e =>
        rw [readLine, hcut] at hread
        cases hread
      | none =>
        rw [readLine, hcut] at hread
        cases hread
        exact ⟨Nat.zero_le _, hlast pending hpending⟩
    · cases failure with
      | some e =>
        rw [readLine, hcut] at hread
        cases hread
        exact hclosed line rest hpending
      | none =>
        rw [readLine, hcut] at hread
        cases hread
        exact hclosed line rest hpending
  | cons chunk chunks ih =>
    rw [readLine] at hread
    rcases cutLine_eq pending with ⟨hcut, -⟩ | ⟨line, rest, hcut, -, rfl⟩
    · rw [hcut] at hread
      dsimp only at hread
      by_cases hend : chunk = []
      · rw [if_pos hend] at hread
        cases hread
        exact ⟨Nat.zero_le _, hlast pending hpending⟩
      · rw [if_neg hend] at hread
        by_cases hlarge : (pending ++ chunk).length > 256 * 1024
        · rw [if_pos hlarge] at hread
          cases hread
        · rw [if_neg hlarge] at hread
          exact ih (pending ++ chunk) hread (Nat.le_of_not_gt hlarge)
    · rw [hcut] at hread
      cases hread
      exact hclosed line rest hpending

theorem addLine_length {event : ParsedSseEvent} {line : Bytes} {limit : Nat}
    (hline : line.length ≤ limit) (hname : event.name.length ≤ limit)
    (hid : event.id.length ≤ limit) :
    (addLine event line).name.length ≤ limit ∧ (addLine event line).id.length ≤ limit := by
  have hfield : ∀ n, (trimAscii (line.drop n)).length ≤ limit := fun n =>
    (trimAscii_length _).trans ((List.drop_sublist n line).length_le.trans hline)
  rw [addLine]
  split
  · exact ⟨hname, hid⟩
  · split
    · exact ⟨hfield 6, hid⟩
    · split
      · exact ⟨hname, hfield 3⟩
      · split
        · exact ⟨hname, hid⟩
        · exact ⟨hname, hid⟩

/-- **All that is held but the data keeps to the limit.** -/
theorem Held.small {first reader : SseReader} {event : ParsedSseEvent}
    (hfirst : first.pending.length ≤ 256 * 1024) (h : Held first event reader) :
    event.name.length ≤ 256 * 1024 ∧ event.id.length ≤ 256 * 1024 ∧
      reader.pending.length ≤ 256 * 1024 := by
  induction h with
  | start => exact ⟨Nat.zero_le _, Nat.zero_le _, hfirst⟩
  | @line event reader next line h hread ih =>
    obtain ⟨hname, hid, hpending⟩ := ih
    obtain ⟨hnext, hline⟩ := nextLine_length hread hpending
    rw [keep]
    split
    · exact ⟨Nat.zero_le _, Nat.zero_le _, hnext⟩
    · obtain ⟨hname, hid⟩ := addLine_length (hline line rfl) hname hid
      exact ⟨hname, hid, hnext⟩
  | finish h hread ih =>
    exact ⟨Nat.zero_le _, Nat.zero_le _, (nextLine_length hread ih.2.2).1⟩

/-- The lines of a stream keep to the limit. -/
theorem linesTaken_line_length {reader : SseReader} (hchunks : ∀ chunk ∈ reader.chunks, chunk ≠ [])
    (hpending : reader.pending.length ≤ 256 * 1024) :
    ∀ line ∈ linesTaken reader, line.length ≤ 256 * 1024 := by
  induction hlines : linesTaken reader generalizing reader with
  | nil => exact fun _ h => absurd h List.not_mem_nil
  | cons line lines ih =>
    rcases readLine_taken hchunks with ⟨line', next, hread, htaken, -, hnext⟩ | ⟨hnone, -, -⟩ |
      ⟨hnone, -, -⟩
    · rw [hlines] at htaken
      obtain ⟨rfl, rfl⟩ := List.cons.inj htaken
      obtain ⟨hpending, hline⟩ := nextLine_length hread hpending
      exact List.forall_mem_cons.mpr ⟨hline line rfl, ih hnext hpending rfl⟩
    · rw [hlines] at hnone
      cases hnone
    · rw [hlines] at hnone
      cases hnone

/-! ## Blocks -/

/-- What is held at the end of each block. -/
def blockEnds : ParsedSseEvent → List Bytes → List ParsedSseEvent
  | event, [] => [event]
  | event, line :: lines =>
      if line = [] then event :: blockEnds ⟨[], [], []⟩ lines
      else blockEnds (addLine event line) lines

/-- The event of a block. -/
def blockEvent (block : List Bytes) : ParsedSseEvent := block.foldl addLine ⟨[], [], []⟩

theorem blockEnds_eq (lines : List Bytes) :
    blockEnds ⟨[], [], []⟩ lines = (lines.splitOn []).map blockEvent := by
  obtain ⟨blocks, last, hsplit, hrun⟩ := @run_blocks _ _ blockEnds ⟨[], [], []⟩ addLine
    (fun event => [event]) (fun event => [event]) (fun _ => rfl)
    (fun event lines => by rw [blockEnds, if_pos rfl]; rfl)
    (fun event line hne lines => by rw [blockEnds, if_neg hne]) [] lines List.not_mem_nil
  rw [List.nil_append] at hsplit
  rw [hsplit, List.map_append]
  refine hrun.trans ?_
  rw [← List.map_eq_flatMap]
  rfl

/-- The blocks whose events are returned: the last one only if the stream ends. -/
def returnedBlocks (ended : Bool) (lines : List Bytes) : List (List Bytes) :=
  if ended then lines.splitOn [] else (lines.splitOn []).dropLast

theorem eventsTaken_eq (ended : Bool) (lines : List Bytes) :
    eventsTaken ended ⟨[], [], []⟩ lines =
      ((returnedBlocks ended lines).map blockEvent).filter (·.data ≠ []) := by
  have hone : ∀ event : ParsedSseEvent,
      [event].filter (·.data ≠ []) = if event.data = [] then [] else [event] := by
    intro event
    by_cases hdata : event.data = [] <;> simp [hdata]
  obtain ⟨blocks, last, hsplit, hrun⟩ := @run_blocks _ _ (eventsTaken ended) ⟨[], [], []⟩ addLine
    (fun event => [event].filter (·.data ≠ []))
    (fun event => if event.data ≠ [] ∧ ended then [event] else [])
    (fun _ => by rw [eventsTaken])
    (fun event lines => by rw [eventsTaken, if_pos rfl, hone]; split <;> rfl)
    (fun event line hne lines => by rw [eventsTaken, if_neg hne]) [] lines List.not_mem_nil
  rw [List.nil_append] at hsplit
  refine hrun.trans ?_
  have hblocks : blocks.flatMap (fun block => [blockEvent block].filter (·.data ≠ [])) =
      (blocks.map blockEvent).filter (·.data ≠ []) := by
    rw [← List.filter_flatMap, List.map_eq_flatMap]
  refine (congrArg (· ++ _) hblocks).trans ?_
  rw [returnedBlocks, hsplit]
  cases ended with
  | true =>
    rw [if_pos rfl, List.map_append, List.filter_append]
    refine congrArg _ ((hone _).trans ?_).symm
    by_cases hdata : (blockEvent last).data = []
    · rw [if_pos hdata, if_neg fun h => h.1 hdata]
    · rw [if_neg hdata, if_pos ⟨hdata, rfl⟩]
      rfl
  | false =>
    rw [if_neg Bool.false_ne_true, List.dropLast_concat, if_neg (fun h => Bool.noConfusion h.2),
      List.append_nil]

/-- Data only grows within a block. -/
theorem addLine_data (event : ParsedSseEvent) (line : Bytes) :
    event.data.length ≤ (addLine event line).data.length := by
  rw [addLine]
  split
  · exact Nat.le_refl _
  · split
    · exact Nat.le_refl _
    · split
      · exact Nat.le_refl _
      · split
        · rw [List.length_append]
          by_cases hdata : event.data = []
          · rw [hdata]
            exact Nat.zero_le _
          · rw [if_neg hdata, List.length_append]
            omega
        · exact Nat.le_refl _

/-- What is held within the blocks is bounded by what is held at their ends. -/
theorem keep_bounded_iff (bound : Nat) (event : ParsedSseEvent) (lines : List Bytes) :
    (∀ before, before <+: lines → (before.foldl keep event).data.length ≤ bound) ↔
      ∀ last ∈ blockEnds event lines, last.data.length ≤ bound := by
  induction lines generalizing event with
  | nil =>
    rw [blockEnds, List.forall_mem_singleton]
    constructor
    · exact fun h => h [] (List.prefix_refl _)
    · rintro h before hbefore
      rw [List.prefix_nil.mp hbefore]
      exact h
  | cons line lines ih =>
    have hcons : (∀ before, before <+: line :: lines →
          (before.foldl keep event).data.length ≤ bound) ↔
        event.data.length ≤ bound ∧ ∀ before, before <+: lines →
          (before.foldl keep (keep event line)).data.length ≤ bound := by
      simp only [List.prefix_cons_iff, forall_eq_or_imp, forall_exists_index, and_imp,
        List.foldl_nil]
      refine and_congr_right fun _ => ⟨fun h before hbefore => ?_, ?_⟩
      · exact h (line :: before) before rfl hbefore
      · rintro h _ before rfl hbefore
        exact h before hbefore
    rw [hcons, ih, blockEnds, keep]
    by_cases hempty : line = []
    · rw [if_pos hempty, if_pos hempty, List.forall_mem_cons]
    · rw [if_neg hempty, if_neg hempty]
      refine and_iff_right_of_imp fun h => ?_
      -- the line only adds to the event, which some block end bounds
      have hfirst := (ih (addLine event line)).mpr h [] (List.nil_prefix)
      exact (addLine_data event line).trans hfirst

/-! ## The limit on the data -/

/-- The texts of the data lines of a block, which are joined. -/
def dataTexts (block : List Bytes) : List Bytes := keptTexts (fields (ascii "data") block)

/-- A block has one text at most, or its texts and the line feeds between them come to no more
than the bound. -/
def BlockFits (bound : Nat) (block : List Bytes) : Prop :=
  (dataTexts block).length ≤ 1 ∨ (joined (dataTexts block)).length ≤ bound

theorem blockEvent_data (block : List Bytes) :
    (blockEvent block).data = joined (dataTexts block) := (foldl_addLine block).2

theorem dataTexts_length {block : List Bytes} {limit : Nat}
    (h : ∀ line ∈ block, line.length ≤ limit) : ∀ text ∈ dataTexts block, text.length ≤ limit := by
  intro text htext
  have hmem := (List.dropWhile_sublist _).mem htext
  obtain ⟨rest, hrest, rfl⟩ := List.mem_map.mp hmem
  obtain ⟨raw, hraw, hsome⟩ := List.mem_filterMap.mp hrest
  obtain ⟨line, hline, rfl⟩ := List.mem_map.mp hraw
  have hlength := congrArg List.length (line_eq hsome)
  have hshort := h line (List.mem_filter.mp hline).1
  have htrim := trimAscii_length rest
  rw [List.length_append, List.length_cons] at hlength
  omega

/-- One text keeps to the limit by itself. -/
theorem data_le_iff {block : List Bytes} {bound : Nat} (hbound : 256 * 1024 ≤ bound)
    (h : ∀ line ∈ block, line.length ≤ 256 * 1024) :
    (blockEvent block).data.length ≤ bound ↔ BlockFits bound block := by
  rw [blockEvent_data, BlockFits]
  constructor
  · exact .inr
  · rintro (hone | hjoined)
    · have hlength := dataTexts_length h
      cases htexts : dataTexts block with
      | nil => exact Nat.zero_le _
      | cons text texts =>
        rw [htexts] at hone hlength
        obtain rfl : texts = [] := List.eq_nil_of_length_eq_zero (by
          rw [List.length_cons] at hone
          omega)
        have hsingle : joined [text] = text := by simp [joined]
        rw [hsingle]
        exact (hlength text (List.mem_singleton_self _)).trans hbound
    · exact hjoined

/-- The events that are returned keep to the limit, and so does all the data that is held to
some bound. -/
def KeepsLimit (bound slack : Nat) (first : SseReader) : Prop :=
  (∀ k event, nthCall (nextEvent slack) k first = .ok (some event) →
      event.data.length ≤ 256 * 1024) ∧
    ∀ event reader, Held first event reader → event.data.length ≤ bound

/-- Every block whose event is returned fits the limit, and the last one the bound. -/
def BlocksFit (bound : Nat) (first : SseReader) : Prop :=
  (∀ block ∈ returnedBlocks (Ends first) (linesTaken first), BlockFits (256 * 1024) block) ∧
    ∀ block ∈ (linesTaken first).splitOn [], BlockFits bound block

theorem mem_of_mem_splitOn {block : List Bytes} {lines : List Bytes}
    (h : block ∈ lines.splitOn []) : ∀ line ∈ block, line ∈ lines :=
  (forall_mem_splitOn (p := (· ∈ lines)) lines []).mpr (fun _ hline _ => hline) block h

theorem keepsLimit_iff {first : SseReader} (hchunks : ∀ chunk ∈ first.chunks, chunk ≠ [])
    (hpending : first.pending.length ≤ 256 * 1024) {bound : Nat} (hbound : 256 * 1024 ≤ bound)
    (slack : Nat) : KeepsLimit bound slack first ↔ BlocksFit bound first := by
  have hshort : ∀ block ∈ (linesTaken first).splitOn [], ∀ line ∈ block,
      line.length ≤ 256 * 1024 := fun block hblock line hline =>
    linesTaken_line_length hchunks hpending line (mem_of_mem_splitOn hblock line hline)
  have hreturned : ∀ block ∈ returnedBlocks (Ends first) (linesTaken first),
      block ∈ (linesTaken first).splitOn [] := by
    intro block hblock
    rw [returnedBlocks] at hblock
    split at hblock
    · exact hblock
    · exact List.mem_of_mem_dropLast hblock
  refine and_congr ?_ ?_
  · constructor
    · intro h block hblock
      rw [← data_le_iff (Nat.le_refl _) (hshort block (hreturned block hblock))]
      by_cases hdata : (blockEvent block).data = []
      · rw [hdata]
        exact Nat.zero_le _
      · have hmem : blockEvent block ∈
            eventsTaken (Ends first) ⟨[], [], []⟩ (linesTaken first) := by
          rw [eventsTaken_eq, List.mem_filter]
          exact ⟨List.mem_map_of_mem hblock, decide_eq_true hdata⟩
        obtain ⟨k, hk⟩ := List.mem_iff_getElem?.mp hmem
        exact h k _ ((nthCall_taken hchunks slack k _).mpr hk)
    · intro h k event hcall
      have hmem := List.mem_iff_getElem?.mpr ⟨k, (nthCall_taken hchunks slack k event).mp hcall⟩
      rw [eventsTaken_eq] at hmem
      obtain ⟨block, hblock, rfl⟩ := List.mem_map.mp (List.mem_filter.mp hmem).1
      rw [data_le_iff (Nat.le_refl _) (hshort block (hreturned block hblock))]
      exact h block hblock
  · have hheld : (∀ event reader, Held first event reader → event.data.length ≤ bound) ↔
        ∀ before, before <+: linesTaken first →
          (before.foldl keep ⟨[], [], []⟩).data.length ≤ bound := by
      constructor
      · rintro h before ⟨after, hafter⟩
        obtain ⟨reader, hreader, -, -⟩ := held_of_lines hchunks before after hafter.symm
        exact h _ reader hreader
      · intro h event reader hreader
        obtain ⟨-, ⟨before, hbefore, rfl⟩ | ⟨rfl, -⟩⟩ := hreader.lines hchunks
        · exact h before ⟨_, hbefore.symm⟩
        · exact Nat.zero_le _
    rw [hheld, keep_bounded_iff, blockEnds_eq, List.forall_mem_map]
    exact forall₂_congr fun block hblock => data_le_iff hbound (hshort block hblock)

/-- **For which streams the events keep to the limit.**  The names, the ids and the unfinished
lines always do.  The data of the events that are returned does, and all the data that is held
keeps to a bound, if every block that an empty line or the end of the stream closes has one text
at most or its texts come to no more than the limit, and the last block to no more than the
bound. -/
theorem sse_limit_iff {chunks : List Bytes} (failure : Option Failure)
    (hchunks : ∀ chunk ∈ chunks, chunk ≠ []) {bound : Nat} (hbound : 256 * 1024 ≤ bound)
    (slack : Nat) :
    (∀ event reader, Held ⟨[], chunks, failure⟩ event reader → event.name.length ≤ 256 * 1024 ∧
      event.id.length ≤ 256 * 1024 ∧ reader.pending.length ≤ 256 * 1024) ∧
    (KeepsLimit bound slack ⟨[], chunks, failure⟩ ↔ BlocksFit bound ⟨[], chunks, failure⟩) :=
  ⟨fun _ _ h => h.small (Nat.zero_le _), keepsLimit_iff hchunks (Nat.zero_le _) hbound slack⟩

theorem smallStream_keepsLimit : KeepsLimit (256 * 1024) 0 ⟨[], [smallStream], none⟩ := by
  refine (sse_limit_iff none (by decide) (Nat.le_refl _) 0).2.mpr ?_
  have hends : decide (Ends ⟨[], [smallStream], none⟩) = true := by decide
  have hblocks : (linesTaken ⟨[], [smallStream], none⟩).splitOn [] =
      [[ascii "event: a", ascii "data: 1"], []] := by decide
  have hfit : ∀ block ∈ [[ascii "event: a", ascii "data: 1"], []],
      BlockFits (256 * 1024) block := by
    intro block hblock
    refine .inl ?_
    have hall : ∀ block ∈ [[ascii "event: a", ascii "data: 1"], []],
        (dataTexts block).length ≤ 1 := by decide
    exact hall block hblock
  rw [BlocksFit, returnedBlocks, hends, if_pos rfl, hblocks]
  exact ⟨hfit, hfit⟩

/-! An event of many short lines. -/

/-- A data line of a kilobyte. -/
def kilobyteLine : Bytes := ascii "data:" ++ List.replicate 1023 0x61

/-- So many data lines, each in a read of its own. -/
def kilobyteReads (n : Nat) : List Bytes := List.replicate n (kilobyteLine ++ [newline])

theorem kilobyteReads_taken (n : Nat) :
    Ends (opened (kilobyteReads n)) ∧
      linesTaken (opened (kilobyteReads n)) = List.replicate n kilobyteLine := by
  have hline : newline ∉ kilobyteLine := by decide +kernel
  have hreturn : dropReturn kilobyteLine = kilobyteLine := by decide +kernel
  have hfit : ([] ++ (kilobyteLine ++ [newline])).length ≤ 256 * 1024 := by decide +kernel
  induction n with
  | zero => exact ⟨⟨trivial, rfl⟩, by decide⟩
  | succ n ih =>
    obtain ⟨hends, hlines⟩ := ih
    rw [opened] at hends hlines ⊢
    rw [kilobyteReads, List.replicate_succ, ← kilobyteReads]
    rw [ends_read List.not_mem_nil hfit, linesTaken_read List.not_mem_nil hfit, List.nil_append,
      ends_line, linesTaken_line hline, hreturn, hlines]
    exact ⟨hends, (List.replicate_succ ..).symm⟩

theorem kilobyteLine_data (event : ParsedSseEvent) :
    event.data.length + 1023 ≤ (addLine event kilobyteLine).data.length := by
  have hline : ∀ event, addLine event kilobyteLine =
      { event with
        data := (if event.data = [] then [] else event.data ++ [newline]) ++
          List.replicate 1023 0x61 } := by
    intro event
    have hno : ¬ ascii ":" <+: kilobyteLine ∧ ¬ ascii "event:" <+: kilobyteLine ∧
        ¬ ascii "id:" <+: kilobyteLine ∧ ascii "data:" <+: kilobyteLine := by decide
    have htrim : trimAscii (kilobyteLine.drop 5) = List.replicate 1023 0x61 := by decide +kernel
    rw [addLine, if_neg hno.1, if_neg hno.2.1, if_neg hno.2.2.1, if_pos hno.2.2.2, htrim]
  rw [hline, List.length_append, List.length_replicate]
  by_cases hdata : event.data = []
  · rw [hdata, if_pos rfl]
  · rw [if_neg hdata, List.length_append]
    exact Nat.add_le_add_right (Nat.le_add_right _ _) _

theorem kilobyteLines_data (n : Nat) :
    1023 * n ≤ (blockEvent (List.replicate n kilobyteLine)).data.length := by
  induction n with
  | zero => exact Nat.zero_le _
  | succ n ih =>
    have hstep := kilobyteLine_data (blockEvent (List.replicate n kilobyteLine))
    rw [blockEvent, List.replicate_succ', List.foldl_concat, ← blockEvent]
    omega

/-- **Events of any size.**  300 reads of a kilobyte are returned as one event of more than 256 KiB,
and what is held exceeds every bound. -/
theorem data_unlimited :
    (∃ event, nthCall (nextEvent 0) 0 (opened (kilobyteReads 300)) = .ok (some event) ∧
      256 * 1024 < event.data.length) ∧
    ∀ bound, ∃ n event reader, Held (opened (kilobyteReads n)) event reader ∧
      bound < event.data.length := by
  have hlines : ∀ n, [] ∉ List.replicate n kilobyteLine := by
    intro n hmem
    have hne : ([] : Bytes) ≠ kilobyteLine := by decide
    exact hne (List.eq_of_mem_replicate hmem)
  have hchunks : ∀ n, ∀ chunk ∈ (opened (kilobyteReads n)).chunks, chunk ≠ [] := by
    intro n chunk hchunk
    rw [List.eq_of_mem_replicate hchunk]
    exact List.append_ne_nil_of_right_ne_nil _ (List.cons_ne_nil _ _)
  constructor
  · obtain ⟨hends, htaken⟩ := kilobyteReads_taken 300
    have hdata := kilobyteLines_data 300
    have hne : (blockEvent (List.replicate 300 kilobyteLine)).data ≠ [] := by
      intro hnil
      rw [hnil, List.length_nil] at hdata
      omega
    refine ⟨blockEvent (List.replicate 300 kilobyteLine), ?_, by omega⟩
    rw [nthCall_taken (hchunks 300), htaken, decide_eq_true hends, eventsTaken_eq, returnedBlocks,
      if_pos rfl, List.splitOn_eq_singleton (hlines 300), List.map_singleton,
      List.filter_singleton, decide_eq_true hne]
    rfl
  · intro bound
    have hdata := kilobyteLines_data (bound + 1)
    obtain ⟨-, htaken⟩ := kilobyteReads_taken (bound + 1)
    obtain ⟨reader, hheld, -, -⟩ := held_of_lines (hchunks (bound + 1))
      (List.replicate (bound + 1) kilobyteLine) [] (by rw [htaken, List.append_nil])
    rw [foldl_keep (hlines (bound + 1))] at hheld
    exact ⟨bound + 1, _, reader, hheld, by rw [← blockEvent]; omega⟩

end Cpp
end SwmSdk
