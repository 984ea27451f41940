import SwmSdk.ByteCodec
import SwmSdk.OfflineBudget
import SwmSdk.Types

/-! # The offline budget in the state file

The C++ and Java SDKs keep no budget in memory: each query and each verified interaction reads the
state file.  C++ keeps a latch beside it, Java nothing.

The C++ answers are those of C# exactly as long as the first interaction comes within a day
of the stored record and trusted time does not run back (`offline_agree_iff`).  The Java lock
opens again after a lapse, as soon as the clock is within a day of the last record
(`offlineLatch_iff`).
-/
namespace SwmSdk
open ByteText Numeral Budget

/-! ## C++ -/

namespace Cpp

/-- `std::isspace`. -/
def isSpace (b : UInt8) : Bool := (0x09 ≤ b && b ≤ 0x0d) || b = 0x20

/-- A decimal digit. -/
def isDigitByte (b : UInt8) : Bool := 48 ≤ b && b ≤ 57

/-- `std::stoll`: the numeral that a text starts with, after white space; none where it throws. -/
def stoll (text : Bytes) : Option Int :=
  match text.dropWhile isSpace with
  | [] => none
  | c :: rest =>
      if c = 43 ∨ c = 45 then parseInt64 (c :: rest.takeWhile isDigitByte)
      else parseInt64 ((c :: rest).takeWhile isDigitByte)

/-- The fourth line of a record of the identity.  `std::getline` reads no line at the end of
the text. -/
def recordLine (id : StateIdentity) (text : Bytes) : Option Bytes :=
  match text.splitOn newline with
  | header :: install :: thumbprint :: milliseconds :: rest =>
      if (milliseconds = [] ∧ rest = []) ∨ header ≠ offlineBudgetHeader ∨
          install ≠ id.installId ∨ thumbprint ≠ id.keyThumbprint then none
      else some milliseconds
  | _ => none

/-- What a pipeline keeps of the budget. -/
structure OfflineFile where
  latched : Bool := false
  file : Option Bytes
  deriving DecidableEq, Repr

/-- `offline_locked`. -/
def offlineLocked (id : StateIdentity) (now : Int64) (s : OfflineFile) : Bool :=
  if s.latched then true
  else
    match (s.file.bind (recordLine id)).bind stoll with
    | none => true
    | some last =>
        if last ≤ 0 then true
        else decide (now.toInt ≤ 0) || decide (now.toInt < last) ||
          decide (now.toInt - last > maximumOffline)

/-- `note_verified_interaction`; a write that fails throws. -/
def noteVerifiedInteraction (id : StateIdentity) (time : Int64) (written : Bool)
    (s : OfflineFile) : OfflineFile :=
  if time.toInt ≤ 0 then s
  else
    let last := ((s.file.bind (recordLine id)).bind stoll).getD 0
    let latched := s.latched ||
      (decide (last > 0) && decide (time.toInt ≥ last) && decide (time.toInt - last > maximumOffline))
    if written then { latched, file := some (offlineText id time.toInt) } else { s with latched }

/-- A process that starts with a file. -/
def runOffline (id : StateIdentity) (file : Option Bytes) (events : List BudgetEvent) :
    OfflineFile × List Bool :=
  BudgetEvent.run (noteVerifiedInteraction id) (fun now s => (offlineLocked id now s, s)) { file }
    events

/-- The record that the file holds. -/
def record (id : StateIdentity) (file : Option Bytes) : Option Int :=
  ((file.bind (recordLine id)).bind stoll).filter (0 < ·)

theorem stoll_decimal {n : Int} (hpositive : 0 < n) (hn : InInt64 n) :
    stoll (decimal n) = some n := by
  obtain ⟨k, rfl⟩ := Int.eq_ofNat_of_zero_le (Int.le_of_lt hpositive)
  obtain ⟨b, rest, hcons, hlow, hhigh⟩ := decimalNat_cons k
  have hdigits : ∀ c ∈ decimalNat k, isDigitByte c = true := by
    intro c hc
    have hdigit := digit_of_mem_decimalNat hc
    simp only [isDigitByte, Bool.and_eq_true, decide_eq_true_eq, UInt8.le_iff_toNat_le]
    exact hdigit
  have hplain : ∀ m < 58, 48 ≤ m → isSpace (UInt8.ofNat m) = false ∧
      ¬ (UInt8.ofNat m = 43 ∨ UInt8.ofNat m = 45) := by decide
  have hb := hplain b.toNat (by omega) hlow
  rw [UInt8.ofNat_toNat] at hb
  have htake : (b :: rest).takeWhile isDigitByte = b :: rest := by
    rw [← hcons]
    exact List.takeWhile_eq_self_iff.mpr hdigits
  have htext : decimal (Int.ofNat k) = b :: rest := hcons
  have hparse := parseInt64_decimal hn
  rw [stoll, show ((k : Nat) : Int) = Int.ofNat k from rfl, htext,
    List.dropWhile_cons_of_neg (by simp [hb.1])]
  dsimp only
  rw [if_neg hb.2, htake, ← htext]
  exact hparse

/-- A record that the SDK wrote is read back. -/
theorem record_text (id : StateIdentity) {time : Int64} (htime : 0 < time.toInt) :
    record id (some (offlineText id time.toInt)) = some time.toInt := by
  have hrange : InInt64 time.toInt := ⟨time.le_toInt, time.toInt_lt⟩
  have hline : recordLine id (offlineText id time.toInt) = some (decimal time.toInt) := by
    simp [recordLine, offlineText_lines]
  rw [record, Option.bind_some, hline, Option.bind_some, stoll_decimal htime hrange]
  simp [htime]

/-- The lock, in terms of the latch and the record. -/
theorem offlineLocked_eq_false {id : StateIdentity} {now : Int64} {s : OfflineFile} :
    offlineLocked id now s = false ↔
      s.latched = false ∧ ∃ last, record id s.file = some last ∧ 0 < now.toInt ∧
        last ≤ now.toInt ∧ now.toInt ≤ last + maximumOffline := by
  unfold offlineLocked record
  cases s.latched with
  | true => simp
  | false =>
    cases (s.file.bind (recordLine id)).bind stoll with
    | none => simp
    | some last =>
      by_cases hlast : last ≤ 0
      · have hnot : ¬ 0 < last := Int.not_lt.mpr hlast
        simp [hlast, hnot]
      · have hpositive : 0 < last := Int.not_le.mp hlast
        simp only [Bool.false_eq_true, if_false, if_neg hlast, Option.filter_some, hpositive,
          decide_true, if_true, Bool.or_eq_false_iff, decide_eq_false_iff_not, Option.some.injEq,
          exists_eq_left', true_and]
        omega

/-- What a note does to the latch and the record. -/
theorem note_latched {id : StateIdentity} {time : Int64} {written : Bool} {s : OfflineFile}
    (htime : 0 < time.toInt) :
    (noteVerifiedInteraction id time written s).latched = true ↔
      s.latched = true ∨ ∃ last, record id s.file = some last ∧
        time.toInt - last > maximumOffline := by
  have hday : (0 : Int) < maximumOffline := by decide
  have hlatched : (noteVerifiedInteraction id time written s).latched = (s.latched ||
      (decide (((s.file.bind (recordLine id)).bind stoll).getD 0 > 0) &&
        decide (time.toInt ≥ ((s.file.bind (recordLine id)).bind stoll).getD 0) &&
        decide (time.toInt - ((s.file.bind (recordLine id)).bind stoll).getD 0 >
          maximumOffline))) := by
    unfold noteVerifiedInteraction
    rw [if_neg (by omega)]
    dsimp only
    split
    · rfl
    · rfl
  rw [hlatched, record, Bool.or_eq_true]
  refine or_congr_right ?_
  cases (s.file.bind (recordLine id)).bind stoll with
  | none => simp
  | some last =>
    simp only [Option.getD_some, Bool.and_eq_true, decide_eq_true_eq, Option.filter_eq_some_iff,
      Option.some.injEq]
    constructor
    · rintro ⟨⟨hpositive, -⟩, hlate⟩
      exact ⟨last, ⟨rfl, hpositive⟩, hlate⟩
    · rintro ⟨_, ⟨rfl, hpositive⟩, hlate⟩
      exact ⟨⟨hpositive, by omega⟩, hlate⟩

theorem note_file {id : StateIdentity} {time : Int64} {s : OfflineFile} (htime : 0 < time.toInt) :
    record id (noteVerifiedInteraction id time true s).file = some time.toInt := by
  have hfile : (noteVerifiedInteraction id time true s).file =
      some (offlineText id time.toInt) := by
    unfold noteVerifiedInteraction
    rw [if_neg (by omega)]
    rfl
  rw [hfile, record_text id htime]

end Cpp

/-! ## C++ beside C# -/

/-- A record that some installation wrote. -/
structure OfflineRecord where
  identity : StateIdentity
  milliseconds : Int64
  positive : 0 < milliseconds.toInt

/-- The text of the record, as it is written. -/
def OfflineRecord.text (r : OfflineRecord) : Bytes := offlineText r.identity r.milliseconds.toInt

/-- The record is bound to the identity. -/
def OfflineRecord.BoundTo (r : OfflineRecord) (id : StateIdentity) : Prop :=
  r.identity.installId = id.installId ∧ r.identity.keyThumbprint = id.keyThumbprint

instance (r : OfflineRecord) (id : StateIdentity) : Decidable (r.BoundTo id) :=
  inferInstanceAs (Decidable (_ ∧ _))

/-- What an initial file tells the identity. -/
def storedFor (id : StateIdentity) : Option OfflineRecord → Option Int
  | none => none
  | some r => if r.BoundTo id then some r.milliseconds.toInt else none

theorem Cpp.record_initial (id : StateIdentity) (initial : Option OfflineRecord) :
    Cpp.record id (initial.map (·.text)) = storedFor id initial := by
  cases initial with
  | none => rfl
  | some r =>
    by_cases hbound : r.BoundTo id
    · have htext : r.text = offlineText id r.milliseconds.toInt := by
        rw [OfflineRecord.text, offlineText, hbound.1, hbound.2, offlineText]
      rw [Option.map_some, htext, Cpp.record_text id r.positive, storedFor, if_pos hbound]
    · have hline : Cpp.recordLine id r.text = none := by
        rw [Cpp.recordLine, OfflineRecord.text, offlineText_lines]
        refine if_pos (.inr (.inr ?_))
        rw [OfflineRecord.BoundTo, Classical.not_and_iff_not_or_not] at hbound
        exact hbound
      rw [storedFor, if_neg hbound, Option.map_some, Cpp.record, Option.bind_some, hline]
      rfl

theorem CSharp.record_initial (id : StateIdentity) (initial : Option OfflineRecord) :
    (initial.map (·.text)).bind (CSharp.readRecord id) = storedFor id initial := by
  cases initial with
  | none => rfl
  | some r =>
    by_cases hbound : r.BoundTo id
    · have htext : r.text = offlineText id r.milliseconds.toInt := by
        rw [OfflineRecord.text, offlineText, hbound.1, hbound.2, offlineText]
      have hread := (CSharp.recordFormat id).read_text r.milliseconds.toInt r.positive
        ⟨r.milliseconds.le_toInt, r.milliseconds.toInt_lt⟩
      rw [Option.map_some, Option.bind_some, htext, storedFor, if_pos hbound]
      exact hread
    · have hlines := CSharp.units_splitOn r.text newline
      rw [OfflineRecord.text, offlineText_lines] at hlines
      have hread : CSharp.readRecord id r.text = none := by
        rw [CSharp.readRecord, OfflineRecord.text,
          CSharp.getString_ascii (ascii_offlineText r.identity r.milliseconds.toInt),
          show (0x0a : UInt16) = newline.toUInt16 from rfl, hlines]
        refine if_pos (.inr ?_)
        rw [OfflineRecord.BoundTo, Classical.not_and_iff_not_or_not] at hbound
        rcases hbound with hinstall | hthumbprint
        · exact .inl fun h => hinstall (CSharp.units_injective h)
        · exact .inr fun h => hthumbprint (CSharp.units_injective h)
      rw [storedFor, if_neg hbound, Option.map_some, Option.bind_some, hread]

namespace Budget

/-- A further time at which C++ goes with the others: after a lapse any, else one that does not
run back, and the first within a day of the stored record. -/
def TameStep (stored : Option Int) (before : List Int) (time : Int) : Prop :=
  Lapsed stored before ∨
    (∀ m, latest stored before = some m → m ≤ time) ∧
      (before = [] → ∀ r ∈ stored, time - r ≤ maximumOffline)

/-- All times are tame. -/
def Tame (stored : Option Int) (noted : List Int) : Prop :=
  ∀ before time after, noted = before ++ time :: after → TameStep stored before time

theorem tame_nil (stored : Option Int) : Tame stored [] := by
  intro before time after h
  simp at h

theorem tame_concat {stored : Option Int} {noted : List Int} {time : Int} :
    Tame stored (noted ++ [time]) ↔ Tame stored noted ∧ TameStep stored noted time :=
  Schedule.forall_split_concat

theorem Tame.left {stored : Option Int} {first second : List Int}
    (h : Tame stored (first ++ second)) : Tame stored first := by
  intro before time after hfirst
  exact h before time (after ++ second) (by rw [hfirst]; simp)

end Budget

/-- The C++ state tells what is known, until the budget lapses. -/
structure Cpp.OfflineFile.Tracks (id : StateIdentity) (stored : Option Int) (noted : List Int)
    (s : Cpp.OfflineFile) : Prop where
  latched : s.latched = true ↔ Lapsed stored noted
  record : ¬ Lapsed stored noted → Cpp.record id s.file = latest stored noted

namespace Cpp.OfflineFile
variable {id : StateIdentity} {stored : Option Int} {times : List Int} {s : Cpp.OfflineFile}

/-- **A tame note keeps C++ in step.** -/
theorem Tracks.note (h : s.Tracks id stored times) {time : Int64} (htime : 0 < time.toInt)
    (htame : TameStep stored times time.toInt) :
    (noteVerifiedInteraction id time true s).Tracks id stored (times ++ [time.toInt]) := by
  by_cases hlapsed : Lapsed stored times
  · have hmore : Lapsed stored (times ++ [time.toInt]) := lapsed_concat.mpr (.inl hlapsed)
    refine ⟨⟨fun _ => hmore, fun _ => ?_⟩, fun hnot => absurd hmore hnot⟩
    exact (note_latched htime).mpr (.inl (h.latched.mpr hlapsed))
  · obtain ⟨hforward, hfirst⟩ := htame.resolve_left hlapsed
    have hrecord := h.record hlapsed
    refine ⟨?_, fun _ => ?_⟩
    · rw [note_latched htime, h.latched, hrecord, lapsed_concat]
      refine or_congr_right ⟨?_, fun hlate => hlate.2⟩
      rintro ⟨last, hlast, hlate⟩
      refine ⟨?_, last, hlast, hlate⟩
      rintro rfl
      rw [latest_nil] at hlast
      exact absurd (hfirst rfl last hlast) (by omega)
    · rw [note_file htime, latest_concat]
      cases hm : latest stored times with
      | none => rfl
      | some m =>
        have hle := hforward m hm
        simp only [Option.some.injEq]
        omega

/-- In step, the locks answer alike. -/
theorem Tracks.locked_eq (h : s.Tracks id stored times) {format : RecordFormat}
    {state : OfflineBudgetState} (hstate : (state.ensureLoaded format).Tracks stored times)
    (now : Int64) : offlineLocked id now s = (state.isLocked format now).1 := by
  rw [Bool.eq_iff_iff, ← not_iff_not, Bool.not_eq_true, Bool.not_eq_true,
    OfflineBudgetState.isLocked_eq_false hstate, offlineLocked_eq_false, Open, ← h.latched,
    Bool.not_eq_true, and_comm]
  refine and_congr_left fun hlatched => ?_
  rw [h.record (by rw [← h.latched, hlatched]; simp)]

/-- **Tame notes keep C++ in step with the state in memory**, and every query is answered
alike. -/
theorem run_eq {format : RecordFormat} (events : List BudgetEvent)
    (hwrites : BudgetEvent.Writes events) {s : Cpp.OfflineFile} {state : OfflineBudgetState}
    {times : List Int} (hs : s.Tracks id stored times)
    (hstate : (state.ensureLoaded format).Tracks stored times)
    (htame : Tame stored (times ++ BudgetEvent.times events)) :
    (BudgetEvent.run (noteVerifiedInteraction id) (fun now s => (offlineLocked id now s, s)) s
        events).2 = (OfflineBudgetState.runWith format state events).2 ∧
      (BudgetEvent.run (noteVerifiedInteraction id) (fun now s => (offlineLocked id now s, s)) s
        events).1.Tracks id stored (times ++ BudgetEvent.times events) := by
  induction events generalizing s state times with
  | nil =>
    refine ⟨rfl, ?_⟩
    rw [BudgetEvent.times, List.append_nil]
    exact hs
  | cons event events ih =>
    have hrest : BudgetEvent.Writes events := fun time hmem =>
      hwrites time (List.mem_cons_of_mem _ hmem)
    cases event with
    | query now =>
      have hloaded : (((state.isLocked format now).2).ensureLoaded format).Tracks stored times := by
        show ((state.ensureLoaded format).ensureLoaded format).Tracks stored times
        rw [OfflineBudgetState.ensureLoaded_ensureLoaded]
        exact hstate
      obtain ⟨hanswers, hfinal⟩ := ih hrest hs hloaded htame
      refine ⟨?_, hfinal⟩
      exact congrArg₂ List.cons (hs.locked_eq hstate now) hanswers
    | note time written =>
      rw [BudgetEvent.times] at htame ⊢
      -- a time that is not positive is not noted
      by_cases htime : time.toInt ≤ 0
      · rw [if_pos htime] at htame ⊢
        have hsame : noteVerifiedInteraction id time written s = s := if_pos htime
        have hstay : (state.noteVerifiedInteraction format time written).1 = state := by
          rw [OfflineBudgetState.noteVerifiedInteraction, if_pos htime]
        have hnext := ih hrest hs hstate htame
        rw [BudgetEvent.run, hsame, OfflineBudgetState.runWith, BudgetEvent.run, hstay]
        exact hnext
      · rw [if_neg htime, List.append_cons] at htame ⊢
        have hpositive : 0 < time.toInt := Int.not_le.mp htime
        have hwritten : written = true := by
          cases written with
          | true => rfl
          | false => exact absurd (List.mem_cons_self ..) (hwrites time)
        rw [hwritten]
        exact ih hrest (hs.note hpositive (tame_concat.mp htame.left).2)
          (hstate.note hpositive true) htame

end Cpp.OfflineFile

/-- A trusted time, which is positive. -/
structure TrustedTime where
  value : Int64
  positive : 0 < value.toInt

def TrustedTime.toInt (time : TrustedTime) : Int := time.value.toInt

/-- C++ and C# answer every query alike, whenever it is made between the interactions. -/
def OfflineAgree (id : StateIdentity) (initial : Option OfflineRecord) (notes : List TrustedTime) :
    Prop :=
  ∀ events, BudgetEvent.times events = notes.map TrustedTime.toInt → BudgetEvent.Writes events →
    (Cpp.runOffline id (initial.map (·.text)) events).2 =
      (CSharp.runBudget id (initial.map (·.text)) events).2

section Agreement
variable {id : StateIdentity} {initial : Option OfflineRecord}

theorem Cpp.tracks_start (id : StateIdentity) (initial : Option OfflineRecord) :
    Cpp.OfflineFile.Tracks id (storedFor id initial) [] { file := initial.map (·.text) } := by
  refine ⟨?_, fun _ => ?_⟩
  · simp [not_lapsed_nil]
  · rw [latest_nil]
    exact Cpp.record_initial id initial

theorem CSharp.tracks_start (id : StateIdentity) (initial : Option OfflineRecord) :
    (OfflineBudgetState.ensureLoaded (CSharp.recordFormat id)
      { file := initial.map (·.text) }).Tracks (storedFor id initial) [] := by
  have h := (OfflineBudgetState.tracks_start (CSharp.recordFormat id) (initial.map (·.text))).1
  have hstored : (initial.map (·.text)).bind (CSharp.recordFormat id).read = storedFor id initial :=
    CSharp.record_initial id initial
  rw [hstored] at h
  exact h

/-- The notes, without a query. -/
def TrustedTime.events (notes : List TrustedTime) : List BudgetEvent :=
  notes.map fun time => .note time.value true

theorem TrustedTime.times_events (notes : List TrustedTime) :
    BudgetEvent.times (events notes) = notes.map toInt := by
  induction notes with
  | nil => rfl
  | cons time notes ih =>
    have htime : ¬ time.value.toInt ≤ 0 := Int.not_le.mpr time.positive
    rw [events, List.map_cons, BudgetEvent.times, if_neg htime, ← events, ih]
    rfl

theorem TrustedTime.writes_events (notes : List TrustedTime) :
    BudgetEvent.Writes (events notes) := by
  intro time hmem
  obtain ⟨note, -, hnote⟩ := List.mem_map.mp hmem
  cases hnote

theorem TrustedTime.answers_events {σ : Type} {note : Int64 → Bool → σ → σ}
    {query : Int64 → σ → Bool × σ} (notes : List TrustedTime) (s : σ) :
    (BudgetEvent.run note query s (events notes)).2 = [] := by
  induction notes generalizing s with
  | nil => rfl
  | cons time notes ih => exact ih _

theorem OfflineAgree.left {first second : List TrustedTime}
    (h : OfflineAgree id initial (first ++ second)) : OfflineAgree id initial first := by
  intro events htimes hwrites
  have hmore := h (events ++ TrustedTime.events second)
    (by rw [BudgetEvent.times_append, htimes, TrustedTime.times_events, List.map_append])
    (fun time hmem => (List.mem_append.mp hmem).elim (hwrites time)
      (TrustedTime.writes_events second time))
  simp only [Cpp.runOffline, CSharp.runBudget, BudgetEvent.run_append,
    TrustedTime.answers_events, List.append_nil] at hmore
  exact hmore

/-- A query at the time of the last note tells whether its budget was latched. -/
theorem OfflineAgree.late_iff {notes : List TrustedTime} {time : TrustedTime}
    (h : OfflineAgree id initial (notes ++ [time]))
    (htame : Tame (storedFor id initial) (notes.map TrustedTime.toInt))
    (hlapsed : ¬ Lapsed (storedFor id initial) (notes.map TrustedTime.toInt)) :
    (¬ ∃ m, latest (storedFor id initial) (notes.map TrustedTime.toInt) = some m ∧
      time.toInt - m > maximumOffline) ↔
    Open (storedFor id initial) (notes.map TrustedTime.toInt ++ [time.toInt]) time.toInt := by
  have htimes := TrustedTime.times_events notes
  have hcpp := (Cpp.OfflineFile.run_eq (TrustedTime.events notes) (TrustedTime.writes_events notes)
    (Cpp.tracks_start id initial) (CSharp.tracks_start id initial)
    (by rw [List.nil_append, htimes]; exact htame)).2
  rw [List.nil_append, htimes] at hcpp
  have hcsharp := OfflineBudgetState.run_tracks (CSharp.recordFormat id) (initial.map (·.text))
    (TrustedTime.events notes)
  have hstored : (initial.map (·.text)).bind (CSharp.recordFormat id).read = storedFor id initial :=
    CSharp.record_initial id initial
  rw [hstored, htimes] at hcsharp
  have hnext := hcsharp.note time.positive true
  have hafter : BudgetEvent.times [.note time.value true, .query time.value] = [time.toInt] :=
    if_neg (Int.not_le.mpr time.positive)
  have hanswers := h (TrustedTime.events notes ++ [.note time.value true, .query time.value])
    (by rw [BudgetEvent.times_append, htimes, hafter, List.map_append]; rfl)
    (fun t hmem => (List.mem_append.mp hmem).elim (TrustedTime.writes_events notes t) (by simp))
  simp only [Cpp.runOffline, CSharp.runBudget, BudgetEvent.run_append,
    TrustedTime.answers_events, List.nil_append, BudgetEvent.run] at hanswers
  -- the answers agree, so the latch of C++ says what the record of C# says
  have hopen := (iff_of_eq (congrArg (· = false) (List.cons.inj hanswers).1)).trans
    (OfflineBudgetState.isLocked_eq_false hnext time.value)
  rw [Cpp.offlineLocked_eq_false, Cpp.note_file time.positive] at hopen
  refine Iff.trans ?_ hopen
  rw [← Bool.not_eq_true, Cpp.note_latched time.positive, hcpp.latched, hcpp.record hlapsed]
  have hday : (0 : Int) < maximumOffline := by decide
  have hpositive := time.positive
  constructor
  · intro hsoon
    refine ⟨?_, time.value.toInt, rfl, hpositive, Int.le_refl _, by omega⟩
    rintro (hl | hlate)
    · exact hlapsed hl
    · exact hsoon hlate
  · rintro ⟨hnot, -⟩ hlate
    exact hnot (.inr hlate)

/-- Where the answers agree, a further time is tame. -/
theorem OfflineAgree.tameStep {notes : List TrustedTime} {time : TrustedTime}
    (h : OfflineAgree id initial (notes ++ [time]))
    (htame : Tame (storedFor id initial) (notes.map TrustedTime.toInt)) :
    TameStep (storedFor id initial) (notes.map TrustedTime.toInt) time.toInt := by
  by_cases hlapsed : Lapsed (storedFor id initial) (notes.map TrustedTime.toInt)
  · exact .inl hlapsed
  · have hlate := h.late_iff htame hlapsed
    have hday : (0 : Int) < maximumOffline := by decide
    refine .inr ⟨fun m hm => ?_, fun hnil r hr => ?_⟩
    · -- a time that runs back: C++ takes it as the last, C# stays locked
      by_contra hback
      have hsoon : ¬ ∃ m, latest (storedFor id initial) (notes.map TrustedTime.toInt) = some m ∧
          time.toInt - m > maximumOffline := by
        rintro ⟨m', hm', hfar⟩
        obtain rfl := Option.some.inj (hm.symm.trans hm')
        omega
      obtain ⟨⟨last, hlast, -, hle, -⟩, -⟩ := hlate.mp hsoon
      rw [latest_concat, hm] at hlast
      have hmax : max m time.toInt = last := Option.some.inj hlast
      omega
    · -- a first interaction long after the record: C++ latches, C# does not
      by_contra hfar
      have hm : latest (storedFor id initial) (notes.map TrustedTime.toInt) = some r := by
        rw [hnil, latest_nil]
        exact hr
      refine hlate.mpr ⟨⟨time.toInt, ?_, time.positive, Int.le_refl _, by omega⟩, ?_⟩
        ⟨r, hm, by omega⟩
      · rw [latest_concat, hm]
        have hmax : max r time.toInt = time.toInt := by omega
        exact congrArg some hmax
      · rw [lapsed_concat]
        rintro (hl | ⟨hne, -⟩)
        · exact hlapsed hl
        · exact hne hnil

end Agreement

/-- **When the C++ lock goes with C#**: for every stored record and all interactions, the answers
agree on every query exactly when, until the budget lapses, the first interaction comes within
a day of the stored record and no time is before one that is known. -/
theorem offline_agree_iff (id : StateIdentity) (initial : Option OfflineRecord)
    (notes : List TrustedTime) :
    OfflineAgree id initial notes ↔ Tame (storedFor id initial) (notes.map TrustedTime.toInt) := by
  constructor
  · intro h
    induction notes using List.reverseRecOn with
    | nil => exact tame_nil _
    | append_singleton notes time ih =>
      rw [List.map_append, List.map_singleton]
      have htame := ih h.left
      exact tame_concat.mpr ⟨htame, h.tameStep htame⟩
  · intro htame events htimes hwrites
    refine (Cpp.OfflineFile.run_eq events hwrites (Cpp.tracks_start id initial)
      (CSharp.tracks_start id initial) ?_).1
    rw [List.nil_append, htimes]
    exact htame

def sampleIdentity : StateIdentity where
  installId := ascii "00112233445566778899aabbccddeeff"
  keyThumbprint := ascii "PUAXw-hDiVqStwqnTRt-vJyYLM8uxJaMwM1V8Sr0Zgw"
  plain b hb := by
    have hall : (ascii "00112233445566778899aabbccddeeff" ++
        ascii "PUAXw-hDiVqStwqnTRt-vJyYLM8uxJaMwM1V8Sr0Zgw").all
        (fun b => b < 0x80 ∧ b ≠ newline) = true := by decide
    exact of_decide_eq_true (List.all_eq_true.mp hall b hb)

/-- A client starts two days after its last record: C++ locks it at the interaction
with which C# opens. -/
theorem first_interaction_latches :
    ¬ ∀ (id : StateIdentity) (initial : Option OfflineRecord) (notes : List TrustedTime),
      OfflineAgree id initial notes := by
  intro h
  have hagree := h sampleIdentity (some ⟨sampleIdentity, 1000, by decide⟩)
    [⟨172801000, by decide⟩] [.note 172801000 true, .query 172801000] (by decide)
    (by intro time; simp)
  exact absurd hagree (by decide +kernel)

/-! ## Java -/

namespace Java

/-- The zeros of the decimal digits of the basic plane. -/
def digitZeros : List UInt16 :=
  [0x0030, 0x0660, 0x06f0, 0x07c0, 0x0966, 0x09e6, 0x0a66, 0x0ae6, 0x0b66, 0x0be6, 0x0c66, 0x0ce6,
   0x0d66, 0x0de6, 0x0e50, 0x0ed0, 0x0f20, 0x1040, 0x1090, 0x17e0, 0x1810, 0x1946, 0x19d0, 0x1a80,
   0x1a90, 0x1b50, 0x1bb0, 0x1c40, 0x1c50, 0xa620, 0xa8d0, 0xa900, 0xa9d0, 0xa9f0, 0xaa50, 0xabf0,
   0xff10]

/-- `Character.digit`, to the base ten. -/
def charDigit (c : UInt16) : Option Nat :=
  (digitZeros.find? fun zero => zero ≤ c && c ≤ zero + 9).map fun zero => c.toNat - zero.toNat

/-- `Long.parseLong` on the UTF-16 units of a text; none where it throws. -/
def parseLongUnits (text : List UInt16) : Option Int := signedDigits 0x2b 0x2d charDigit text

/-- The number in a record of the identity. -/
def readRecord (id : StateIdentity) (text : Bytes) : Option Int :=
  match (CSharp.getString text).splitOn 0x0a with
  | header :: install :: thumbprint :: milliseconds :: _ =>
      if header ≠ CSharp.units offlineBudgetHeader ∨ CSharp.units id.installId ≠ install ∨
          CSharp.units id.keyThumbprint ≠ thumbprint then none
      else parseLongUnits milliseconds
  | _ => none

/-- The difference of two numbers of 64 bits. -/
def subtract (a b : Int) : Int := (a - b).bmod (2 ^ 64)

/-- The record does not cover the clock value. -/
def Stale (recorded : Option Int) (now : Int) : Prop :=
  ∀ last ∈ recorded, now ≤ 0 ∨ now < last ∨ subtract now last > maximumOffline

instance (recorded : Option Int) (now : Int) : Decidable (Stale recorded now) :=
  inferInstanceAs (Decidable (∀ last ∈ recorded, _))

/-- `offlineLocked`. -/
def offlineLocked (id : StateIdentity) (now : Int64) (file : Option Bytes) : Bool :=
  match file.bind (readRecord id) with
  | none => true
  | some last =>
      decide (now.toInt ≤ 0) || decide (now.toInt < last) ||
        decide (subtract now.toInt last > maximumOffline)

/-- `noteVerifiedInteraction`; a write that fails throws. -/
def noteVerifiedInteraction (id : StateIdentity) (time : Int64) (written : Bool)
    (file : Option Bytes) : Option Bytes :=
  if time.toInt ≤ 0 then file
  else if written then some (offlineText id time.toInt) else file

/-- A process that starts with a file. -/
def runOffline (id : StateIdentity) (file : Option Bytes) (events : List BudgetEvent) :
    Option Bytes × List Bool :=
  BudgetEvent.run (noteVerifiedInteraction id) (fun now file => (offlineLocked id now file, file))
    file events

/-- What the calls that need the network throw once the offline budget is used up. -/
def budgetExceeded : Error where
  kind := .offlineBudget
  statusCode := 0
  serviceCode := ascii "offline_budget_exceeded"
  message := ascii "offline budget exceeded; restart the client and complete a full bootstrap"

/-- The start of an operation that needs the budget; `rest` is what it does then. -/
def withinBudget {α : Type} (closed : Bool) (id : StateIdentity) (now : Int64)
    (file : Option Bytes) (rest : Except Thrown α) : Except Thrown α :=
  if closed then .error .illegalState
  else if offlineLocked id now file then .error (.swm budgetExceeded)
  else rest

/-- `authorizeOperation`, with the request it makes. -/
def authorizeOperation {Grant : Type} (closed : Bool) (id : StateIdentity) (now : Int64)
    (file : Option Bytes) (request : Except Thrown Grant) : Except Thrown Grant :=
  withinBudget closed id now file request

/-- `consumeOperationAuthorization`, with the request it makes. -/
def consumeOperationAuthorization {Receipt : Type} (closed : Bool) (id : StateIdentity)
    (now : Int64) (file : Option Bytes) (request : Except Thrown Receipt) :
    Except Thrown Receipt :=
  withinBudget closed id now file request

theorem char_writes : Writes UInt8.toUInt16 0x2b 0x2d charDigit where
  negative := ⟨rfl, by decide⟩
  digits b hlow hhigh := by
    have hall : ∀ n < 58, 48 ≤ n → charDigit (UInt8.ofNat n).toUInt16 = some (n - 48) ∧
        (UInt8.ofNat n).toUInt16 ≠ 0x2b ∧ (UInt8.ofNat n).toUInt16 ≠ 0x2d := by decide +kernel
    have hb := hall b.toNat (by omega) hlow
    rw [UInt8.ofNat_toNat] at hb
    exact hb

theorem readRecord_text (id : StateIdentity) (time : Int64) :
    readRecord id (offlineText id time.toInt) = some time.toInt := by
  have hlines := CSharp.units_splitOn (offlineText id time.toInt) newline
  rw [offlineText_lines] at hlines
  have hparse := char_writes.signedDigits_decimal (n := time.toInt) ⟨time.le_toInt, time.toInt_lt⟩
  rw [readRecord, CSharp.getString_ascii (ascii_offlineText id time.toInt),
    show (0x0a : UInt16) = newline.toUInt16 from rfl, hlines]
  simp only [List.map_cons, ne_eq, not_true_eq_false, or_self, if_false]
  exact hparse

/-- **The lock is a matter of the record alone.** -/
theorem offlineLocked_iff {id : StateIdentity} {now : Int64} {file : Option Bytes} :
    offlineLocked id now file = true ↔ Stale (file.bind (readRecord id)) now.toInt := by
  unfold offlineLocked Stale
  cases file.bind (readRecord id) with
  | none => simp
  | some last => simp [or_assoc]

/-- The number of the last record that was written, or else of the initial file. -/
def recordedAfter (stored : Option Int) : List BudgetEvent → Option Int
  | [] => stored
  | .note time true :: rest =>
      if time.toInt ≤ 0 then recordedAfter stored rest else recordedAfter (some time.toInt) rest
  | .note _ false :: rest => recordedAfter stored rest
  | .query _ :: rest => recordedAfter stored rest

theorem run_record (id : StateIdentity) (events : List BudgetEvent) (file : Option Bytes) :
    (runOffline id file events).1.bind (readRecord id) =
      recordedAfter (file.bind (readRecord id)) events := by
  unfold runOffline
  induction events generalizing file with
  | nil => rfl
  | cons event events ih =>
    cases event with
    | query now => exact ih file
    | note time written =>
      cases written with
      | false =>
        have hsame : noteVerifiedInteraction id time false file = file := by
          unfold noteVerifiedInteraction
          split
          · rfl
          · rfl
        rw [BudgetEvent.run, hsame, recordedAfter]
        exact ih file
      | true =>
        rw [BudgetEvent.run, recordedAfter, noteVerifiedInteraction]
        by_cases htime : time.toInt ≤ 0
        · rw [if_pos htime, if_pos htime]
          exact ih file
        · rw [if_neg htime, if_neg htime, if_pos rfl, ih, Option.bind_some, readRecord_text]

/-- Two consecutive interactions are more than a day apart. -/
def Gap (noted : List Int) : Prop :=
  ∃ before first second after, noted = before ++ first :: second :: after ∧
    second - first > maximumOffline

/-- After a gap the lock is closed for the rest of a run, and the operations fail. -/
def OfflineLatch (id : StateIdentity) (file : Option Bytes) (events : List BudgetEvent) : Prop :=
  ∀ before now after, events = before ++ .query now :: after → Gap (BudgetEvent.times before) →
    offlineLocked id now (runOffline id file before).1 = true ∧
    ∀ (α : Type) (request : Except Thrown α),
      authorizeOperation false id now (runOffline id file before).1 request =
        .error (.swm budgetExceeded) ∧
      consumeOperationAuthorization false id now (runOffline id file before).1 request =
        .error (.swm budgetExceeded)

/-- **When the Java lock stays closed**: in every run, exactly when each query after a gap comes
at a clock value that the last record does not cover. -/
theorem offlineLatch_iff (id : StateIdentity) (file : Option Bytes) (events : List BudgetEvent) :
    OfflineLatch id file events ↔
      ∀ before now after, events = before ++ .query now :: after →
        Gap (BudgetEvent.times before) →
        Stale (recordedAfter (file.bind (readRecord id)) before) now.toInt := by
  refine forall₅_congr fun before now after hevents hgap => ?_
  rw [← run_record, ← offlineLocked_iff]
  constructor
  · intro h
    exact h.1
  · intro hlocked
    refine ⟨hlocked, fun α request => ?_⟩
    simp [authorizeOperation, consumeOperationAuthorization, withinBudget, hlocked]

/-- Two interactions two days apart, and a query with the second: the lock is open. -/
theorem gap_unlocked :
    ¬ ∀ (id : StateIdentity) (file : Option Bytes) (events : List BudgetEvent),
      OfflineLatch id file events := by
  intro h
  have hlocked := (h sampleIdentity none
    [.note 1000 true, .note 172801000 true, .query 172801000]
    [.note 1000 true, .note 172801000 true] 172801000 [] rfl
    ⟨[], 1000, 172801000, [], by decide, by decide⟩).1
  exact absurd hlocked (by decide +kernel)

end Java
end SwmSdk
