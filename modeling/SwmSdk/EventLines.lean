import SwmSdk.UpdateStream

/-! # The events of a stream that is read in pieces

`read_line` looks for a line feed in the bytes it has and reads more while there is none;
`next_sse` puts lines together to an event.  What they return depends on the bytes of the
stream alone: the lines are those between its line feeds (`sseLines`), the events those of
the lines (`eventsFrom`), however the bytes were cut into reads (`chunking_independent`).

The state after some calls is described by the lines that are still to come (`Reading`);
a call of `read_line` takes the first of them (`readLine_cases`), a call of `next_sse` the
lines of one event (`nextSse_cases`).
-/
namespace SwmSdk
namespace Cpp
open ByteText

/-! ## Lines and events of all the bytes -/

/-- The lines between line feeds, without the carriage return that ends a line; what comes
after the last line feed is a line if there is anything. -/
def linesOf : List Bytes → List Bytes
  | [] => []
  | [last] => if last = [] then [] else [last]
  | part :: next :: parts => dropReturn part :: linesOf (next :: parts)

/-- The lines of the bytes of a stream. -/
def sseLines (bytes : Bytes) : List Bytes := linesOf (bytes.splitOn newline)

/-- What a line that is not empty adds to an event. -/
def addLine (event : ParsedSseEvent) (line : Bytes) : ParsedSseEvent :=
  if ascii ":" <+: line then event
  else if ascii "event:" <+: line then { event with name := trimAscii (line.drop 6) }
  else if ascii "id:" <+: line then { event with id := trimAscii (line.drop 3) }
  else if ascii "data:" <+: line then
    { event with
      data := (if event.data = [] then [] else event.data ++ [newline]) ++
        trimAscii (line.drop 5) }
  else event

/-- The events of the lines, the first of which has some fields already. -/
def eventsFrom : ParsedSseEvent → List Bytes → List ParsedSseEvent
  | event, [] => if event.data = [] then [] else [event]
  | event, line :: lines =>
      if line = [] then
        if event.data = [] then eventsFrom ⟨[], [], []⟩ lines
        else event :: eventsFrom ⟨[], [], []⟩ lines
      else eventsFrom (addLine event line) lines

theorem sseLines_line {line : Bytes} (h : newline ∉ line) (rest : Bytes) :
    sseLines (line ++ newline :: rest) = dropReturn line :: sseLines rest := by
  rw [sseLines, List.splitOn_append_cons_self_of_not_mem h]
  cases hparts : rest.splitOn newline with
  | nil => exact absurd hparts (List.splitOn_ne_nil _ _)
  | cons part parts =>
    rw [linesOf, ← hparts]
    rfl

theorem sseLines_last {bytes : Bytes} (h : newline ∉ bytes) :
    sseLines bytes = if bytes = [] then [] else [bytes] := by
  rw [sseLines, List.splitOn_eq_singleton h]
  rfl

/-- The first line feed cuts a line off. -/
theorem cutLine_eq (bytes : Bytes) :
    (cutLine bytes = none ∧ newline ∉ bytes) ∨
      ∃ line rest, cutLine bytes = some (line, rest) ∧ newline ∉ line ∧
        bytes = line ++ newline :: rest := by
  rw [cutLine]
  by_cases hmem : newline ∈ bytes
  · refine .inr ⟨_, _, if_pos hmem, ?_, ?_⟩
    · intro h
      have hin := List.all_eq_true.mp (List.all_takeWhile (p := (· ≠ newline)) (l := bytes)) _ h
      exact absurd rfl (of_decide_eq_true hin)
    · exact (takeWhile_ne_append hmem).symm
  · exact .inl ⟨if_neg hmem, hmem⟩

/-- Every line takes a byte. -/
theorem sseLines_length (bytes : Bytes) : (sseLines bytes).length ≤ bytes.length := by
  induction hlength : bytes.length using Nat.strong_induction_on generalizing bytes with
  | _ n ih =>
    rcases cutLine_eq bytes with ⟨-, hnone⟩ | ⟨line, rest, -, hline, rfl⟩
    · rw [sseLines_last hnone]
      cases bytes with
      | nil => exact Nat.zero_le _
      | cons b rest =>
        rw [if_neg (List.cons_ne_nil _ _), ← hlength, List.length_singleton]
        exact Nat.succ_pos _
    · rw [List.length_append, List.length_cons] at hlength
      have hrest := ih rest.length (by omega) rest rfl
      rw [sseLines_line hline, List.length_cons]
      omega

/-! ## The state of a reader -/

/-- What was read after the last line feed. -/
def unfinished (pending : Bytes) : Bytes := pending.rtakeWhile (· ≠ newline)

/-- The limit is not hit: no read makes the unfinished line longer than 256 KiB. -/
def Fits : Bytes → List Bytes → Prop
  | _, [] => True
  | pending, chunk :: chunks =>
      (unfinished pending ++ chunk).length ≤ 256 * 1024 ∧ Fits (unfinished pending ++ chunk) chunks

/-- The lines that a reader has still to return: reads return some bytes until the end, and
nothing is thrown. -/
structure Reading (reader : SseReader) (lines : List Bytes) : Prop where
  failure_eq : reader.failure = none
  chunk_ne : ∀ chunk ∈ reader.chunks, chunk ≠ []
  lines_eq : lines = sseLines (reader.pending ++ reader.chunks.flatten)

theorem unfinished_eq {pending : Bytes} (h : newline ∉ pending) : unfinished pending = pending := by
  rw [unfinished, List.rtakeWhile_eq_self_iff]
  exact fun b hb => decide_eq_true fun hb' => h (hb' ▸ hb)

theorem unfinished_line (line rest : Bytes) :
    unfinished (line ++ newline :: rest) = unfinished rest := by
  have hstop : (newline :: line.reverse).takeWhile (· ≠ newline) = [] := rfl
  rw [unfinished, unfinished, List.rtakeWhile, List.rtakeWhile, List.reverse_append,
    List.reverse_cons, List.append_assoc, List.singleton_append, List.takeWhile_append, hstop,
    List.append_nil]
  split
  · rename_i hall
    rw [(List.takeWhile_prefix _).eq_of_length hall]
  · rfl

theorem fits_congr {pending pending' : Bytes} (h : unfinished pending = unfinished pending')
    (chunks : List Bytes) : Fits pending chunks ↔ Fits pending' chunks := by
  cases chunks with
  | nil => exact Iff.rfl
  | cons chunk chunks => rw [Fits, Fits, h]

/-- **A call of `read_line` takes the first line**, or hits the limit. -/
theorem readLine_cases {pending : Bytes} {chunks : List Bytes} {lines : List Bytes}
    (h : Reading ⟨pending, chunks, none⟩ lines) :
    (∃ reader, readLine none pending chunks = .ok (lines.head?, reader) ∧
        Reading reader lines.tail ∧ (Fits reader.pending reader.chunks ↔ Fits pending chunks) ∧
        (lines = [] → Fits pending chunks)) ∨
      (¬ Fits pending chunks ∧ ∃ e, readLine none pending chunks = .error e) := by
  induction chunks generalizing pending with
  | nil =>
    have hlines := h.lines_eq
    rw [List.flatten_nil, List.append_nil] at hlines
    rw [readLine]
    rcases cutLine_eq pending with ⟨hcut, hnone⟩ | ⟨line, rest, hcut, hline, rfl⟩
    · rw [sseLines_last hnone] at hlines
      rw [hcut]
      dsimp only
      by_cases hempty : pending = []
      · rw [if_pos hempty] at hlines ⊢
        rw [hlines]
        exact .inl ⟨⟨[], [], none⟩, rfl, ⟨rfl, by simp, rfl⟩, Iff.rfl, fun _ => trivial⟩
      · rw [if_neg hempty] at hlines ⊢
        rw [hlines]
        exact .inl ⟨⟨[], [], none⟩, rfl, ⟨rfl, by simp, rfl⟩, Iff.rfl, fun _ => trivial⟩
    · rw [sseLines_line hline] at hlines
      rw [hcut, hlines]
      refine .inl ⟨⟨rest, [], none⟩, rfl, ⟨rfl, by simp, ?_⟩, Iff.rfl, fun _ => trivial⟩
      rw [List.flatten_nil, List.append_nil]
      rfl
  | cons chunk chunks ih =>
    have hlines := h.lines_eq
    have hchunk := h.chunk_ne chunk (List.mem_cons_self ..)
    rw [readLine]
    rcases cutLine_eq pending with ⟨hcut, hnone⟩ | ⟨line, rest, hcut, hline, rfl⟩
    · rw [hcut, Fits, unfinished_eq hnone]
      dsimp only
      rw [if_neg hchunk]
      -- there is no line yet, so the next read is put behind what is pending if it fits
      by_cases hlarge : (pending ++ chunk).length > 256 * 1024
      · rw [if_pos hlarge]
        exact .inr ⟨fun hfits => absurd hfits.1 (by omega), eventTooLarge, rfl⟩
      · rw [if_neg hlarge, and_iff_right (Nat.le_of_not_gt hlarge)]
        refine ih ⟨rfl, fun c hc => h.chunk_ne c (List.mem_cons_of_mem _ hc), ?_⟩
        rw [hlines, List.flatten_cons, List.append_assoc]
    -- a line that is there is given out before the next read
    · rw [List.flatten_cons, List.append_assoc, List.cons_append, sseLines_line hline] at hlines
      rw [hcut, hlines]
      refine .inl ⟨⟨rest, chunk :: chunks, none⟩, rfl, ⟨rfl, h.chunk_ne, rfl⟩, ?_, ?_⟩
      · exact fits_congr (unfinished_line line rest).symm _
      · exact fun hnil => absurd hnil (List.cons_ne_nil _ _)

/-- A line of `next_sse`: an empty one ends the event, if that has data. -/
theorem nextSse_line {fuel : Nat} {event : ParsedSseEvent} {reader next : SseReader} {line : Bytes}
    (h : readLine reader.failure reader.pending reader.chunks = .ok (some line, next)) :
    nextSse (fuel + 1) event reader =
      if line = [] then
        if event.data = [] then nextSse fuel ⟨[], [], []⟩ next else .ok (some event, next)
      else nextSse fuel (addLine event line) next := by
  rw [nextSse, h]
  dsimp only
  by_cases hempty : line = []
  · rw [if_pos hempty, if_pos hempty]
    by_cases hdata : event.data = []
    · rw [if_pos hdata, if_neg (not_not_intro hdata)]
    · rw [if_neg hdata, if_pos hdata]
  · rw [if_neg hempty, if_neg hempty, addLine]
    split_ifs <;> rfl

/-- **A call of `next_sse` takes the lines of the first event**, or hits the limit. -/
theorem nextSse_cases {fuel : Nat} {event : ParsedSseEvent} {reader : SseReader}
    {lines : List Bytes} (h : Reading reader lines) (hfuel : lines.length < fuel) :
    (∃ later rest, nextSse fuel event reader = .ok ((eventsFrom event lines).head?, later) ∧
        Reading later rest ∧ (eventsFrom event lines).tail = eventsFrom ⟨[], [], []⟩ rest ∧
        (Fits later.pending later.chunks ↔ Fits reader.pending reader.chunks) ∧
        (eventsFrom event lines = [] → Fits reader.pending reader.chunks)) ∨
      (¬ Fits reader.pending reader.chunks ∧ ∃ e, nextSse fuel event reader = .error e) := by
  induction fuel generalizing event reader lines with
  | zero => exact absurd hfuel (Nat.not_lt_zero _)
  | succ fuel ih =>
    obtain ⟨pending, chunks, failure⟩ := reader
    obtain rfl : failure = none := h.failure_eq
    rcases readLine_cases h with ⟨next, hread, hnext, hfits, hend⟩ | ⟨hlimit, e, hread⟩
    · cases lines with
      | nil =>
        rw [nextSse, hread]
        refine .inl ⟨next, [], ?_, hnext, ?_, hfits, fun _ => hend rfl⟩
        · rw [eventsFrom]
          by_cases hdata : event.data = []
          · simp only [List.head?_nil, if_pos hdata]
          · simp only [List.head?_nil, if_neg hdata]
            rfl
        · rw [eventsFrom]
          split <;> rfl
      | cons line lines =>
        have hless : lines.length < fuel := Nat.lt_of_succ_lt_succ hfuel
        -- what a call for the rest of the lines does, from the reader after the first
        have hrest : ∀ event' : ParsedSseEvent,
            (∃ later rest,
              nextSse fuel event' next = .ok ((eventsFrom event' lines).head?, later) ∧
              Reading later rest ∧
              (eventsFrom event' lines).tail = eventsFrom ⟨[], [], []⟩ rest ∧
              (Fits later.pending later.chunks ↔ Fits pending chunks) ∧
              (eventsFrom event' lines = [] → Fits pending chunks)) ∨
            (¬ Fits pending chunks ∧ ∃ e, nextSse fuel event' next = .error e) := by
          intro event'
          rcases ih hnext hless with
            ⟨later, rest, hrun, hlater, htail, hsame, hall⟩ | ⟨hlimit, herror⟩
          · exact .inl ⟨later, rest, hrun, hlater, htail, hsame.trans hfits,
              fun hnil => hfits.mp (hall hnil)⟩
          · exact .inr ⟨fun hfit => hlimit (hfits.mpr hfit), herror⟩
        rw [nextSse_line hread, eventsFrom]
        by_cases hempty : line = []
        · rw [if_pos hempty, if_pos hempty]
          by_cases hdata : event.data = []
          · rw [if_pos hdata, if_pos hdata]
            exact hrest _
          · rw [if_neg hdata, if_neg hdata]
            exact .inl ⟨next, lines, rfl, hnext, rfl, hfits,
              fun hnil => absurd hnil (List.cons_ne_nil _ _)⟩
        · rw [if_neg hempty, if_neg hempty]
          exact hrest _
    · rw [nextSse, hread]
      exact .inr ⟨hlimit, e, rfl⟩

/-! ## Call after call -/

section Calls
variable {α : Type} (call : SseReader → Except Failure (Option α × SseReader))

/-- What a call returns that comes after `k` others on the same reader. -/
def nthCall : Nat → SseReader → Except Failure (Option α)
  | 0, reader =>
      match call reader with
      | .error e => .error e
      | .ok (result, _) => .ok result
  | k + 1, reader =>
      match call reader with
      | .error e => .error e
      | .ok (_, reader) => nthCall k reader

variable {call}

/-- Calls that take a list apart return its items, and nothing after them. -/
theorem nthCall_eq {R : SseReader → List α → Prop}
    (hcall : ∀ {reader items}, R reader items →
      ∃ later, call reader = .ok (items.head?, later) ∧ R later items.tail)
    {reader : SseReader} {items : List α} (h : R reader items) (k : Nat) :
    nthCall call k reader = .ok items[k]? := by
  induction k generalizing reader items with
  | zero =>
    obtain ⟨later, hrun, -⟩ := hcall h
    rw [nthCall, hrun, ← List.head?_eq_getElem?]
  | succ k ih =>
    obtain ⟨later, hrun, hlater⟩ := hcall h
    rw [nthCall, hrun]
    exact (ih hlater).trans (by rw [List.getElem?_tail])

end Calls

/-- A call of `read_line`. -/
def nextLine (reader : SseReader) : Except Failure (Option Bytes × SseReader) :=
  readLine reader.failure reader.pending reader.chunks

/-- A call of `next_sse`, with fuel for the whole stream and more. -/
def nextEvent (slack : Nat) (reader : SseReader) :
    Except Failure (Option ParsedSseEvent × SseReader) :=
  nextSse (reader.size + 1 + slack) ⟨[], [], []⟩ reader

/-- A stream from its first read on. -/
def opened (chunks : List Bytes) : SseReader := ⟨[], chunks, none⟩

/-- The bytes of a stream in reads of any size, none of which hits the limit. -/
structure Split (bytes : Bytes) (chunks : List Bytes) : Prop where
  bytes_eq : chunks.flatten = bytes
  chunk_ne : ∀ chunk ∈ chunks, chunk ≠ []
  fits : Fits [] chunks

theorem Reading.length_le {reader : SseReader} {lines : List Bytes} (h : Reading reader lines) :
    lines.length ≤ reader.size := by
  have hlines := sseLines_length (reader.pending ++ reader.chunks.flatten)
  rw [← h.lines_eq, List.length_append, List.length_flatten] at hlines
  rw [SseReader.size]
  omega

theorem reading_opened {chunks : List Bytes} (h : ∀ chunk ∈ chunks, chunk ≠ []) :
    Reading (opened chunks) (sseLines chunks.flatten) :=
  ⟨rfl, h, rfl⟩

/-- The lines that `read_line` returns, call after call. -/
theorem nthLine_eq {bytes : Bytes} {chunks : List Bytes} (h : Split bytes chunks) (k : Nat) :
    nthCall nextLine k (opened chunks) = .ok (sseLines bytes)[k]? := by
  refine nthCall_eq (R := fun reader lines => Reading reader lines ∧
    Fits reader.pending reader.chunks) ?_ ⟨?_, h.fits⟩ k
  · rintro ⟨pending, chunks, failure⟩ lines ⟨hreading, hfits⟩
    obtain rfl : failure = none := hreading.failure_eq
    rcases readLine_cases hreading with ⟨later, hrun, hlater, hsame, -⟩ | ⟨hlimit, -⟩
    · exact ⟨later, hrun, hlater, hsame.mpr hfits⟩
    · exact absurd hfits hlimit
  · rw [← h.bytes_eq]
    exact reading_opened h.chunk_ne

/-- The events that `next_sse` returns, call after call. -/
theorem nthEvent_eq {bytes : Bytes} {chunks : List Bytes} (h : Split bytes chunks) (slack k : Nat) :
    nthCall (nextEvent slack) k (opened chunks) =
      .ok (eventsFrom ⟨[], [], []⟩ (sseLines bytes))[k]? := by
  refine nthCall_eq (R := fun reader events => ∃ lines, Reading reader lines ∧
    Fits reader.pending reader.chunks ∧ events = eventsFrom ⟨[], [], []⟩ lines) ?_
    ⟨_, ?_, h.fits, rfl⟩ k
  · rintro reader events ⟨lines, hreading, hfits, rfl⟩
    have hfuel : lines.length < reader.size + 1 + slack := by
      have hlength := hreading.length_le
      omega
    rcases nextSse_cases hreading hfuel with
      ⟨later, rest, hrun, hlater, htail, hsame, -⟩ | ⟨hlimit, -⟩
    · exact ⟨later, hrun, rest, hlater, hsame.mpr hfits, htail⟩
    · exact absurd hfits hlimit
  · rw [← h.bytes_eq]
    exact reading_opened h.chunk_ne

/-- **The reads of a stream do not matter**: calls of `read_line` return the lines of the bytes, and
calls of `next_sse` the events of these lines and then the end of the stream. -/
theorem chunking_independent {bytes : Bytes} {chunks chunks' : List Bytes}
    (h : Split bytes chunks) (h' : Split bytes chunks') :
    (∀ k, nthCall nextLine k (opened chunks) = .ok (sseLines bytes)[k]? ∧
      nthCall nextLine k (opened chunks') = .ok (sseLines bytes)[k]?) ∧
    ∀ slack k,
      nthCall (nextEvent slack) k (opened chunks) =
        .ok (eventsFrom ⟨[], [], []⟩ (sseLines bytes))[k]? ∧
      nthCall (nextEvent slack) k (opened chunks') =
        .ok (eventsFrom ⟨[], [], []⟩ (sseLines bytes))[k]? :=
  ⟨fun k => ⟨nthLine_eq h k, nthLine_eq h' k⟩,
    fun slack k => ⟨nthEvent_eq h slack k, nthEvent_eq h' slack k⟩⟩

/-! An event that is read at once, and one whose line end is cut in two. -/

/-- A stream with one event. -/
def smallStream : Bytes := ascii "event: a\r\ndata: 1\r\n\r\n"

theorem chunking_sample :
    (∀ k, nthCall nextLine k (opened [smallStream]) = .ok (sseLines smallStream)[k]? ∧
      nthCall nextLine k (opened [smallStream.take 9, smallStream.drop 9]) =
        .ok (sseLines smallStream)[k]?) ∧
    ∀ slack k,
      nthCall (nextEvent slack) k (opened [smallStream]) =
        .ok (eventsFrom ⟨[], [], []⟩ (sseLines smallStream))[k]? ∧
      nthCall (nextEvent slack) k (opened [smallStream.take 9, smallStream.drop 9]) =
        .ok (eventsFrom ⟨[], [], []⟩ (sseLines smallStream))[k]? :=
  chunking_independent ⟨rfl, by decide, by decide, trivial⟩
    ⟨rfl, by decide, by decide, by decide, trivial⟩

example : eventsFrom ⟨[], [], []⟩ (sseLines smallStream) = [⟨ascii "a", [], ascii "1"⟩] := by
  decide +kernel

/-- If the limit is hit, some call throws. -/
theorem nthCall_limit {reader : SseReader} {lines : List Bytes} (h : Reading reader lines)
    (hlimit : ¬ Fits reader.pending reader.chunks) (slack : Nat) :
    ∃ k e, nthCall (nextEvent slack) k reader = .error e := by
  have hfuel : ∀ {reader : SseReader} {lines : List Bytes}, Reading reader lines →
      lines.length < reader.size + 1 + slack := by
    intro reader lines hreading
    have hlength := hreading.length_le
    omega
  -- by induction on the events that are left: each call that returns takes one of them
  induction hlength : (eventsFrom ⟨[], [], []⟩ lines).length generalizing reader lines with
  | zero =>
    rcases nextSse_cases h (hfuel h) with ⟨later, rest, -, -, -, -, hall⟩ | ⟨-, e, hrun⟩
    · exact absurd (hall (List.eq_nil_of_length_eq_zero hlength)) hlimit
    · exact ⟨0, e, by rw [nthCall, nextEvent, hrun]⟩
  | succ n ih =>
    rcases nextSse_cases h (hfuel h) with
      ⟨later, rest, hrun, hlater, htail, hsame, -⟩ | ⟨-, e, hrun⟩
    · have hrest : (eventsFrom ⟨[], [], []⟩ rest).length = n := by
        rw [← htail, List.length_tail, hlength, Nat.add_sub_cancel]
      obtain ⟨k, e, hcall⟩ := ih hlater (mt hsame.mp hlimit) hrest
      exact ⟨k + 1, e, by rw [nthCall, nextEvent, hrun]; exact hcall⟩
    · exact ⟨0, e, by rw [nthCall, nextEvent, hrun]⟩

end Cpp
end SwmSdk
