import Mathlib.Data.List.DropRight
import SwmSdk.CSharpText
import SwmSdk.Numeral
import SwmSdk.Schedule

/-! # The offline budget

A device may work offline for a day after its last verified interaction with the service.
The Go and C# SDKs keep the budget in memory, load it from the state file when it is first used,
and write it back at most every five minutes.

`Budget.Law` says what this amounts to, in terms of the record that the file held and the
times that were noted: `offlineBudget_law` proves it of both SDKs.
-/
namespace SwmSdk
open ByteText Numeral

/-! ## The record -/

/-- The identity that state is bound to: an install id in hexadecimal and the thumbprint of
the device key in base64url. -/
structure StateIdentity where
  installId : Bytes
  keyThumbprint : Bytes
  plain : ∀ b ∈ installId ++ keyThumbprint, b < 0x80 ∧ b ≠ newline

def offlineBudgetHeader : Bytes := ascii "SwmSdkOfflineBudgetV1"

/-- `maximumOfflineMilliseconds`. -/
def maximumOffline : Int := 24 * 60 * 60 * 1000

/-- `persistIntervalMilliseconds`. -/
def persistInterval : Int := 5 * 60 * 1000

/-- The text of a record. -/
def offlineText (id : StateIdentity) (milliseconds : Int) : Bytes :=
  offlineBudgetHeader ++ newline :: (id.installId ++ newline :: (id.keyThumbprint ++
    newline :: (decimal milliseconds ++ [newline])))

theorem offlineText_lines (id : StateIdentity) (milliseconds : Int) :
    (offlineText id milliseconds).splitOn newline =
      [offlineBudgetHeader, id.installId, id.keyThumbprint, decimal milliseconds, []] := by
  have hinstall : newline ∉ id.installId := fun h =>
    (id.plain _ (List.mem_append_left _ h)).2 rfl
  have hthumbprint : newline ∉ id.keyThumbprint := fun h =>
    (id.plain _ (List.mem_append_right _ h)).2 rfl
  rw [offlineText, List.splitOn_append_cons_self_of_not_mem (by decide),
    List.splitOn_append_cons_self_of_not_mem hinstall,
    List.splitOn_append_cons_self_of_not_mem hthumbprint,
    List.splitOn_append_cons_self_of_not_mem (newline_notMem_decimal _), List.splitOn_nil]

theorem ascii_decimal (n : Int) : ∀ b ∈ decimal n, (48 ≤ b.toNat ∧ b.toNat ≤ 57) ∨ b = 45 := by
  intro b hb
  cases n with
  | ofNat n => exact .inl (digit_of_mem_decimalNat hb)
  | negSucc n =>
    rcases List.mem_cons.mp hb with rfl | hb
    · exact .inr rfl
    · exact .inl (digit_of_mem_decimalNat hb)

theorem ascii_offlineText (id : StateIdentity) (milliseconds : Int) :
    ∀ b ∈ offlineText id milliseconds, b < 0x80 := by
  have hheader : ∀ b ∈ offlineBudgetHeader, b < 0x80 := ascii_of_all (by decide)
  have hdecimal : ∀ b ∈ decimal milliseconds, b < 0x80 := by
    intro b hb
    rw [UInt8.lt_iff_toNat_lt]
    rcases ascii_decimal _ b hb with hdigit | rfl
    · exact Nat.lt_of_le_of_lt hdigit.2 (by decide)
    · decide
  have hinstall : ∀ b ∈ id.installId, b < 0x80 := fun b hb =>
    (id.plain b (List.mem_append_left _ hb)).1
  have hthumbprint : ∀ b ∈ id.keyThumbprint, b < 0x80 := fun b hb =>
    (id.plain b (List.mem_append_right _ hb)).1
  have hnewline : newline < 0x80 := by decide
  intro b hb
  simp only [offlineText, List.mem_append, List.mem_cons, List.not_mem_nil, or_false] at hb
  rcases hb with hb | rfl | hb | rfl | hb | rfl | hb | rfl
  · exact hheader b hb
  · exact hnewline
  · exact hinstall b hb
  · exact hnewline
  · exact hthumbprint b hb
  · exact hnewline
  · exact hdecimal b hb
  · exact hnewline

/-- How an SDK reads the file, and that it reads back the records it writes. -/
structure RecordFormat where
  identity : StateIdentity
  read : Bytes → Option Int
  read_positive : ∀ {text value}, read text = some value → 0 < value
  read_text : ∀ value : Int, 0 < value → InInt64 value →
    read (offlineText identity value) = some value

/-- A record with the lines that are asked for and a positive value. -/
def recordOf {α : Type} [DecidableEq α] (header install thumbprint : α) (parse : α → Option Int)
    (lines : List α) : Option Int :=
  match lines with
  | first :: second :: third :: value :: _ =>
      if first ≠ header ∨ second ≠ install ∨ third ≠ thumbprint then none
      else (parse value).filter (0 < ·)
  | _ => none

theorem recordOf_positive {α : Type} [DecidableEq α] {header install thumbprint : α}
    {parse : α → Option Int} {lines : List α} {value : Int}
    (h : recordOf header install thumbprint parse lines = some value) : 0 < value := by
  unfold recordOf at h
  split at h
  · split at h
    · cases h
    · simpa using (Option.filter_eq_some_iff.mp h).2
  · cases h

theorem recordOf_lines {α : Type} [DecidableEq α] {header install thumbprint text : α}
    {parse : α → Option Int} {rest : List α} {value : Int} (hparse : parse text = some value)
    (hvalue : 0 < value) :
    recordOf header install thumbprint parse (header :: install :: thumbprint :: text :: rest) =
      some value := by
  simp [recordOf, hparse, hvalue]

namespace Go

/-- The record of `ensureLoaded`. -/
def readRecord (id : StateIdentity) (text : Bytes) : Option Int :=
  recordOf offlineBudgetHeader id.installId id.keyThumbprint parseInt64 (text.splitOn newline)

/-- The record of a device, as this SDK reads it. -/
def recordFormat (id : StateIdentity) : RecordFormat where
  identity := id
  read := readRecord id
  read_positive h := recordOf_positive h
  read_text value hpositive hrange := by
    rw [readRecord, offlineText_lines]
    exact recordOf_lines (parseInt64_decimal hrange) hpositive

end Go

namespace CSharp

/-- The white space of `NumberStyles.AllowLeadingWhite`. -/
def isNumberWhite (c : UInt16) : Bool := (0x09 ≤ c && c ≤ 0x0d) || c = 0x20

/-- The value of a digit. -/
def unitDigit (c : UInt16) : Option Nat :=
  if 0x30 ≤ c ∧ c ≤ 0x39 then some (c.toNat - 0x30) else none

/-- `long.TryParse` with `NumberStyles.Integer`: white space on both sides, and null
characters at the end. -/
def tryParse (text : Text) : Option Int :=
  signedDigits 0x2b 0x2d unitDigit
    (((text.dropWhile isNumberWhite).rdropWhile (· = 0)).rdropWhile isNumberWhite)

/-- The record of `EnsureLoaded`. -/
def readRecord (id : StateIdentity) (text : Bytes) : Option Int :=
  recordOf (units offlineBudgetHeader) (units id.installId) (units id.keyThumbprint) tryParse
    ((getString text).splitOn 0x0a)

theorem unit_writes : Writes UInt8.toUInt16 0x2b 0x2d unitDigit where
  negative := ⟨rfl, by decide⟩
  digits b hlow hhigh := by
    refine ⟨?_, ?_, ?_⟩
    · rw [unitDigit, if_pos, UInt8.toNat_toUInt16]
      simp only [UInt16.le_iff_toNat_le, UInt8.toNat_toUInt16]
      exact ⟨hlow, hhigh⟩
    · intro h
      have hb : b = 0x2b := toUInt16_inj.mp h
      rw [hb] at hlow
      exact absurd hlow (by decide)
    · intro h
      have hb : b = 0x2d := toUInt16_inj.mp h
      rw [hb] at hlow
      exact absurd hlow (by decide)

theorem tryParse_decimal {n : Int} (hn : InInt64 n) : tryParse (units (decimal n)) = some n := by
  have hplain : ∀ c ∈ units (decimal n), isNumberWhite c = false ∧ c ≠ 0 := by
    have hdigit : ∀ k < 58, 45 ≤ k → isNumberWhite (UInt8.ofNat k).toUInt16 = false ∧
        (UInt8.ofNat k).toUInt16 ≠ 0 := by decide
    intro c hc
    obtain ⟨b, hb, rfl⟩ := List.mem_map.mp hc
    have hrange := hdigit b.toNat
    rw [UInt8.ofNat_toNat] at hrange
    rcases ascii_decimal n b hb with ⟨hlow, hhigh⟩ | rfl
    · exact hrange (by omega) (by omega)
    · exact hrange (by decide) (by decide)
  have hstart : ∀ (p : UInt16 → Bool) (text : Text), (∀ c ∈ text, p c = false) →
      text.dropWhile p = text ∧ text.rdropWhile p = text := by
    intro p text htext
    constructor
    · rw [List.dropWhile_eq_self_iff]
      intro hlength
      simp [htext _ (List.getElem_mem hlength)]
    · rw [List.rdropWhile_eq_self_iff]
      intro hne
      simp [htext _ (List.getLast_mem hne)]
  have hwhite := hstart isNumberWhite _ fun c hc => (hplain c hc).1
  have hzero := hstart (fun c => decide (c = 0)) (units (decimal n)) fun c hc => by
    simp [(hplain c hc).2]
  rw [tryParse, hwhite.1, hzero.2, hwhite.2]
  exact unit_writes.signedDigits_decimal hn

def recordFormat (id : StateIdentity) : RecordFormat where
  identity := id
  read := readRecord id
  read_positive h := recordOf_positive h
  read_text value hpositive hrange := by
    have hlines := units_splitOn (offlineText id value) newline
    rw [offlineText_lines] at hlines
    rw [readRecord, getString_ascii (ascii_offlineText id value),
      show (0x0a : UInt16) = newline.toUInt16 from rfl, hlines]
    exact recordOf_lines (tryParse_decimal hrange) hpositive

end CSharp

/-! ## The state in memory -/

/-- `offlineBudgetState`, with the file that the store holds. -/
structure OfflineBudgetState where
  loaded : Bool := false
  hasRecord : Bool := false
  latched : Bool := false
  hadVerifiedInteraction : Bool := false
  lastVerified : Int := 0
  lastPersisted : Int := 0
  file : Option Bytes
  deriving DecidableEq, Repr

namespace OfflineBudgetState

/-- `ensureLoaded`. -/
def ensureLoaded (format : RecordFormat) (s : OfflineBudgetState) : OfflineBudgetState :=
  if s.loaded then s
  else
    match s.file.bind format.read with
    | none => { s with loaded := true }
    | some value =>
        { s with loaded := true, hasRecord := true, lastVerified := value, lastPersisted := value }

/-- `isLocked`. -/
def isLocked (format : RecordFormat) (now : Int64) (s : OfflineBudgetState) :
    Bool × OfflineBudgetState :=
  let s := s.ensureLoaded format
  (s.latched || !s.hasRecord || decide (now.toInt ≤ 0) || decide (now.toInt < s.lastVerified) ||
    decide (now.toInt - s.lastVerified > maximumOffline), s)

/-- `persist`, whose write may fail. -/
def persist (format : RecordFormat) (written : Bool) (s : OfflineBudgetState) :
    OfflineBudgetState :=
  if written then
    { s with file := some (offlineText format.identity s.lastVerified),
             lastPersisted := s.lastVerified }
  else s

/-- The state of `noteVerifiedInteraction` before it persists. -/
def noted (time : Int) (s : OfflineBudgetState) : OfflineBudgetState :=
  { s with
    latched := s.latched || (s.hadVerifiedInteraction && s.hasRecord &&
      decide (time ≥ s.lastVerified) && decide (time - s.lastVerified > maximumOffline))
    hadVerifiedInteraction := true
    hasRecord := true
    lastVerified := if time > s.lastVerified then time else s.lastVerified }

/-- The state was never written, or long enough ago. -/
def persistDue (time : Int) (s : OfflineBudgetState) : Prop :=
  s.lastPersisted = 0 ∨ time - s.lastPersisted ≥ persistInterval

instance (time : Int) (s : OfflineBudgetState) : Decidable (s.persistDue time) :=
  inferInstanceAs (Decidable (_ ∨ _))

/-- `noteVerifiedInteraction`, and whether a write was tried and failed. -/
def noteVerifiedInteraction (format : RecordFormat) (time : Int64) (written : Bool)
    (s : OfflineBudgetState) : OfflineBudgetState × Bool :=
  if time.toInt ≤ 0 then (s, false)
  else
    let s := (s.ensureLoaded format).noted time.toInt
    if s.persistDue time.toInt then (s.persist format written, !written) else (s, false)

end OfflineBudgetState

/-- What happens to the budget of a process: an interaction is verified at a trusted time,
and the record is written or the write fails; or the lock is asked for. -/
inductive BudgetEvent where
  | note (time : Int64) (written : Bool)
  | query (now : Int64)
  deriving DecidableEq, Repr

namespace BudgetEvent

/-- A run of events, with the answers of the queries. -/
def run {σ : Type} (note : Int64 → Bool → σ → σ) (query : Int64 → σ → Bool × σ) :
    σ → List BudgetEvent → σ × List Bool
  | s, [] => (s, [])
  | s, .note time written :: rest => run note query (note time written s) rest
  | s, .query now :: rest =>
      let (answer, s) := query now s
      let (s, answers) := run note query s rest
      (s, answer :: answers)

/-- The positive times that were noted. -/
def times : List BudgetEvent → List Int
  | [] => []
  | .note time _ :: rest => if time.toInt ≤ 0 then times rest else time.toInt :: times rest
  | .query _ :: rest => times rest

/-- No write fails. -/
def Writes (events : List BudgetEvent) : Prop :=
  ∀ time, .note time false ∉ events

theorem times_append (first second : List BudgetEvent) :
    times (first ++ second) = times first ++ times second := by
  induction first with
  | nil => rfl
  | cons event first ih =>
    cases event with
    | query now => exact ih
    | note time written =>
      rw [List.cons_append, times, times, ih]
      split
      · rfl
      · rfl

theorem run_append {σ : Type} {note : Int64 → Bool → σ → σ} {query : Int64 → σ → Bool × σ}
    (first second : List BudgetEvent) (s : σ) :
    run note query s (first ++ second) =
      ((run note query (run note query s first).1 second).1,
        (run note query s first).2 ++ (run note query (run note query s first).1 second).2) := by
  induction first generalizing s with
  | nil => rfl
  | cons event first ih =>
    cases event with
    | note time written => exact ih _
    | query now =>
      cases hquery : query now s with
      | mk answer s' => simp only [List.cons_append, run, hquery, ih]

end BudgetEvent

namespace Go

/-- `IsLocked`, of the record of a device. -/
def isLocked (id : StateIdentity) (now : Int64) (s : OfflineBudgetState) :
    Bool × OfflineBudgetState :=
  s.isLocked (recordFormat id) now

/-- A write that fails is ignored. -/
def noteVerifiedInteraction (id : StateIdentity) (time : Int64) (written : Bool)
    (s : OfflineBudgetState) : OfflineBudgetState :=
  (s.noteVerifiedInteraction (recordFormat id) time written).1

/-- A process that starts with a file. -/
def runBudget (id : StateIdentity) (file : Option Bytes) (events : List BudgetEvent) :
    OfflineBudgetState × List Bool :=
  BudgetEvent.run (noteVerifiedInteraction id) (isLocked id) { file } events

end Go

namespace CSharp

/-- `IsLocked`. -/
def isLocked (id : StateIdentity) (now : Int64) (s : OfflineBudgetState) :
    Bool × OfflineBudgetState :=
  s.isLocked (recordFormat id) now

/-- `NoteVerifiedInteraction`; it throws when a write fails, after the state has changed. -/
def noteVerifiedInteraction (id : StateIdentity) (time : Int64) (written : Bool)
    (s : OfflineBudgetState) : OfflineBudgetState × Bool :=
  s.noteVerifiedInteraction (recordFormat id) time written

/-- A process that starts with a file; an exception of a note goes to its caller. -/
def runBudget (id : StateIdentity) (file : Option Bytes) (events : List BudgetEvent) :
    OfflineBudgetState × List Bool :=
  BudgetEvent.run (fun time written s => (noteVerifiedInteraction id time written s).1)
    (isLocked id) { file } events

end CSharp

/-! ## What the budget is

The budget in terms of the record that was stored and the times that were noted since,
in the order of the interactions. -/

namespace Budget

/-- The latest time that is known. -/
def latest (stored : Option Int) (noted : List Int) : Option Int := (stored.toList ++ noted).max?

/-- An interaction after the first came more than a day after all that was known. -/
def Lapsed (stored : Option Int) (noted : List Int) : Prop :=
  ∃ before time after m, noted = before ++ time :: after ∧ before ≠ [] ∧
    latest stored before = some m ∧ time - m > maximumOffline

/-- The budget is open at a clock value. -/
def Open (stored : Option Int) (noted : List Int) (now : Int) : Prop :=
  (∃ m, latest stored noted = some m ∧ 0 < now ∧ m ≤ now ∧ now ≤ m + maximumOffline) ∧
    ¬ Lapsed stored noted

theorem latest_nil (stored : Option Int) : latest stored [] = stored := by
  cases stored with
  | none => rfl
  | some r => rfl

theorem latest_concat (stored : Option Int) (noted : List Int) (time : Int) :
    latest stored (noted ++ [time]) =
      some (match latest stored noted with | none => time | some m => max m time) := by
  unfold latest
  rw [← List.append_assoc]
  cases stored.toList ++ noted with
  | nil => rfl
  | cons first rest => rw [List.cons_append, List.max?_cons', List.foldl_append]; rfl

theorem latest_isSome {stored : Option Int} {noted : List Int} (h : noted ≠ []) :
    ∃ m, latest stored noted = some m := by
  cases hlatest : latest stored noted with
  | none => simp [latest, h] at hlatest
  | some m => exact ⟨m, rfl⟩

theorem not_lapsed_nil (stored : Option Int) : ¬ Lapsed stored [] := by
  rintro ⟨before, time, after, m, h, -⟩
  simp at h

theorem lapsed_concat {stored : Option Int} {noted : List Int} {time : Int} :
    Lapsed stored (noted ++ [time]) ↔
      Lapsed stored noted ∨
        noted ≠ [] ∧ ∃ m, latest stored noted = some m ∧ time - m > maximumOffline := by
  constructor
  · rintro ⟨before, t, after, m, h, hne, hm, hlate⟩
    rcases Schedule.split_concat h with ⟨rfl, rfl⟩ | ⟨rest, -, rfl⟩
    · exact .inr ⟨hne, m, hm, hlate⟩
    · exact .inl ⟨before, t, rest, m, rfl, hne, hm, hlate⟩
  · rintro (⟨before, t, after, m, rfl, hne, hm, hlate⟩ | ⟨hne, m, hm, hlate⟩)
    · exact ⟨before, t, after ++ [time], m, by simp, hne, hm, hlate⟩
    · exact ⟨noted, time, [], m, rfl, hne, hm, hlate⟩

end Budget

/-! ## Every run -/

namespace OfflineBudgetState
open Budget

section Loading
variable (format : RecordFormat) (s : OfflineBudgetState)

theorem loaded_ensureLoaded : (s.ensureLoaded format).loaded = true := by
  unfold ensureLoaded
  split
  · assumption
  · split
    · rfl
    · rfl

variable {s}

theorem ensureLoaded_of_loaded (h : s.loaded = true) : s.ensureLoaded format = s :=
  if_pos h

theorem ensureLoaded_ensureLoaded :
    (s.ensureLoaded format).ensureLoaded format = s.ensureLoaded format :=
  ensureLoaded_of_loaded format (loaded_ensureLoaded format s)

end Loading

/-- The state holds what is known of the stored record and the noted times. -/
structure Tracks (stored : Option Int) (noted : List Int) (s : OfflineBudgetState) : Prop where
  loaded : s.loaded = true
  hasRecord : s.hasRecord = (latest stored noted).isSome
  lastVerified : s.lastVerified = (latest stored noted).getD 0
  positive : ∀ m, latest stored noted = some m → 0 < m
  latched : s.latched = true ↔ Lapsed stored noted
  hadVerifiedInteraction : s.hadVerifiedInteraction = true ↔ noted ≠ []

/-- The file holds a record that is less than five minutes behind. -/
structure Persists (format : RecordFormat) (stored : Option Int) (noted : List Int)
    (s : OfflineBudgetState) : Prop where
  behind : s.lastPersisted ≤ s.lastVerified ∧ s.lastVerified - s.lastPersisted < persistInterval
  file : latest stored noted = none ∧ s.lastPersisted = 0 ∨
    0 < s.lastPersisted ∧ s.file.bind format.read = some s.lastPersisted

section Step
variable {format : RecordFormat} {stored : Option Int} {times : List Int}
variable {s : OfflineBudgetState}

theorem tracks_start (format : RecordFormat) (file : Option Bytes) :
    Tracks (file.bind format.read) [] (ensureLoaded format { file }) ∧
      Persists format (file.bind format.read) [] (ensureLoaded format { file }) := by
  have hinterval : (0 : Int) < persistInterval := by decide
  unfold ensureLoaded
  cases hread : file.bind format.read with
  | none =>
    simp only [Bool.false_eq_true, if_false]
    refine ⟨⟨rfl, rfl, rfl, ?_, ?_, by simp⟩, ⟨⟨Int.le_refl _, hinterval⟩, .inl ⟨rfl, rfl⟩⟩⟩
    · intro m hm
      cases hm
    · simp [not_lapsed_nil]
  | some value =>
    have hpositive : 0 < value := by
      obtain ⟨text, -, htext⟩ := Option.bind_eq_some_iff.mp hread
      exact format.read_positive htext
    simp only [Bool.false_eq_true, if_false]
    refine ⟨⟨rfl, rfl, rfl, ?_, ?_, by simp⟩, ⟨⟨Int.le_refl _, ?_⟩, .inr ⟨hpositive, hread⟩⟩⟩
    · intro m hm
      obtain rfl := Option.some.inj hm
      exact hpositive
    · simp [not_lapsed_nil]
    · rw [Int.sub_self]
      exact hinterval

theorem Tracks.noted (h : Tracks stored times s) {time : Int} (ht : 0 < time) :
    Tracks stored (times ++ [time]) (s.noted time) := by
  have hlatest := latest_concat stored times time
  refine ⟨h.loaded, by rw [hlatest]; rfl, ?_, ?_, ?_, by simp [OfflineBudgetState.noted]⟩
  · rw [hlatest]
    have hlast := h.lastVerified
    cases hm : latest stored times with
    | none =>
      rw [hm] at hlast
      simp [OfflineBudgetState.noted, hlast, ht]
    | some m =>
      rw [hm] at hlast
      simp only [OfflineBudgetState.noted, hlast, Option.getD_some]
      omega
  · intro m hm
    rw [hlatest] at hm
    obtain rfl := Option.some.inj hm
    cases latest stored times with
    | none => exact ht
    | some m => exact Int.lt_of_lt_of_le ht (Int.le_max_right m time)
  · rw [lapsed_concat, ← h.latched, ← h.hadVerifiedInteraction]
    -- of all gaps only the one to the latest time so far is new
    have hday : (0 : Int) < maximumOffline := by decide
    have hlast := h.lastVerified
    have hrecord := h.hasRecord
    cases hm : latest stored times with
    | none =>
      rw [hm] at hrecord
      simp [OfflineBudgetState.noted, hrecord]
    | some m =>
      rw [hm] at hlast hrecord
      simp only [OfflineBudgetState.noted, hlast, hrecord, Option.isSome_some, Option.getD_some,
        Bool.or_eq_true, Bool.and_eq_true, decide_eq_true_eq, and_true, Option.some.injEq,
        exists_eq_left']
      constructor
      · rintro (hl | ⟨⟨hv, -⟩, hlate⟩)
        · exact .inl hl
        · exact .inr ⟨hv, hlate⟩
      · rintro (hl | ⟨hv, hlate⟩)
        · exact .inl hl
        · exact .inr ⟨⟨hv, by omega⟩, hlate⟩

theorem Persists.noted (ht : Tracks stored times s) (h : Persists format stored times s)
    {time : Int64} (htime : 0 < time.toInt) :
    Persists format stored (times ++ [time.toInt])
      (if (s.noted time.toInt).persistDue time.toInt then (s.noted time.toInt).persist format true
        else s.noted time.toInt) := by
  have hinterval : (0 : Int) < persistInterval := by decide
  obtain ⟨hle, hbehind⟩ := h.behind
  have hlast : (s.noted time.toInt).lastVerified =
      if time.toInt > s.lastVerified then time.toInt else s.lastVerified := rfl
  have hpersisted : (s.noted time.toInt).lastPersisted = s.lastPersisted := rfl
  by_cases hdue : (s.noted time.toInt).persistDue time.toInt
  · -- what is written is the time itself: the record was absent, or was five minutes behind it
    have hnew : (s.noted time.toInt).lastVerified = time.toInt := by
      rw [hlast]
      split
      · rfl
      · rename_i hold
        rcases hdue with hzero | hlong
        · rcases h.file with ⟨hnone, -⟩ | ⟨hpositive, -⟩
          · have hverified := ht.lastVerified
            rw [hnone] at hverified
            simp only [Option.getD_none] at hverified
            omega
          · omega
        · omega
    rw [if_pos hdue]
    refine ⟨⟨Int.le_refl _, ?_⟩, .inr ⟨?_, ?_⟩⟩
    · simp [persist, hinterval]
    · simp [persist, hnew, htime]
    · simp only [persist, if_true, hnew, Option.bind_some]
      exact format.read_text _ htime ⟨time.le_toInt, time.toInt_lt⟩
  · have hmore : 0 < s.lastPersisted := by
      rcases h.file with ⟨-, hzero⟩ | ⟨hpositive, -⟩
      · exact absurd (.inl hzero) hdue
      · exact hpositive
    have hsoon : ¬ time.toInt - s.lastPersisted ≥ persistInterval := fun hlong =>
      hdue (.inr hlong)
    rw [if_neg hdue]
    refine ⟨?_, .inr ⟨hmore, ?_⟩⟩
    · rw [hlast, hpersisted]
      split
      · constructor
        · omega
        · omega
      · exact ⟨hle, hbehind⟩
    · rcases h.file with ⟨-, hzero⟩ | ⟨-, hfile⟩
      · omega
      · exact hfile

theorem Tracks.persist (h : Tracks stored times s) (written : Bool) :
    Tracks stored times (s.persist format written) := by
  unfold OfflineBudgetState.persist
  split
  · exact ⟨h.loaded, h.hasRecord, h.lastVerified, h.positive, h.latched, h.hadVerifiedInteraction⟩
  · exact h

/-- **The lock, in terms of what is known.** -/
theorem isLocked_eq_false (h : Tracks stored times (s.ensureLoaded format)) (now : Int64) :
    (s.isLocked format now).1 = false ↔ Open stored times now.toInt := by
  have hlast := h.lastVerified
  have hrecord := h.hasRecord
  simp only [isLocked, Bool.or_eq_false_iff, decide_eq_false_iff_not, Bool.not_eq_false',
    Open, ← h.latched, Bool.not_eq_true]
  cases hm : latest stored times with
  | none =>
    rw [hm] at hrecord
    simp [hrecord]
  | some m =>
    rw [hm] at hlast hrecord
    simp only [hlast, hrecord, Option.isSome_some, Option.getD_some, Option.some.injEq,
      exists_eq_left']
    constructor
    · rintro ⟨⟨⟨⟨hlatched, -⟩, hnow⟩, hold⟩, hday⟩
      exact ⟨⟨by omega, by omega, by omega⟩, hlatched⟩
    · rintro ⟨⟨hnow, hold, hday⟩, hlatched⟩
      exact ⟨⟨⟨⟨hlatched, trivial⟩, by omega⟩, by omega⟩, by omega⟩

end Step

section Run
variable {format : RecordFormat} {stored : Option Int}

/-- The events of a run, as the state sees them. -/
def runWith (format : RecordFormat) (s : OfflineBudgetState) (events : List BudgetEvent) :
    OfflineBudgetState × List Bool :=
  BudgetEvent.run (fun time written s => (noteVerifiedInteraction format time written s).1)
    (fun now s => isLocked format now s) s events

theorem note_ensureLoaded {s : OfflineBudgetState} {time : Int64} (htime : 0 < time.toInt)
    (written : Bool) :
    (s.noteVerifiedInteraction format time written).1.ensureLoaded format =
      if ((s.ensureLoaded format).noted time.toInt).persistDue time.toInt then
        ((s.ensureLoaded format).noted time.toInt).persist format written
      else (s.ensureLoaded format).noted time.toInt := by
  have hloaded := loaded_ensureLoaded format s
  have hnote : (s.noteVerifiedInteraction format time written).1 =
      if ((s.ensureLoaded format).noted time.toInt).persistDue time.toInt then
        ((s.ensureLoaded format).noted time.toInt).persist format written
      else (s.ensureLoaded format).noted time.toInt := by
    unfold noteVerifiedInteraction
    rw [if_neg (by omega)]
    dsimp only
    split
    · rfl
    · rfl
  rw [hnote, ensureLoaded_of_loaded]
  split
  · unfold persist
    split
    · exact hloaded
    · exact hloaded
  · exact hloaded

theorem Tracks.note {s : OfflineBudgetState} {times : List Int}
    (h : Tracks stored times (s.ensureLoaded format)) {time : Int64} (htime : 0 < time.toInt)
    (written : Bool) :
    Tracks stored (times ++ [time.toInt])
      ((s.noteVerifiedInteraction format time written).1.ensureLoaded format) := by
  rw [note_ensureLoaded htime]
  split
  · exact (h.noted htime).persist written
  · exact h.noted htime

/-- An invariant of the loaded state that every note keeps holds after a run. -/
theorem run_invariant {P : List Int → OfflineBudgetState → Prop} {G : Bool → Prop}
    (hstep : ∀ {times} {s : OfflineBudgetState} {time : Int64} {written}, G written →
      P times (s.ensureLoaded format) → 0 < time.toInt → P (times ++ [time.toInt])
        ((s.noteVerifiedInteraction format time written).1.ensureLoaded format))
    (events : List BudgetEvent) (hgood : ∀ time written, .note time written ∈ events → G written)
    {s : OfflineBudgetState} {times : List Int} (h : P times (s.ensureLoaded format)) :
    P (times ++ BudgetEvent.times events) ((runWith format s events).1.ensureLoaded format) := by
  induction events generalizing s times with
  | nil =>
    rw [BudgetEvent.times, List.append_nil]
    exact h
  | cons event events ih =>
    have hrest : ∀ time written, .note time written ∈ events → G written :=
      fun time written hmem => hgood time written (List.mem_cons_of_mem _ hmem)
    cases event with
    | query now =>
      apply ih hrest
      show P times ((s.ensureLoaded format).ensureLoaded format)
      rw [ensureLoaded_ensureLoaded]
      exact h
    | note time written =>
      rw [BudgetEvent.times]
      by_cases htime : time.toInt ≤ 0
      · have hsame : (s.noteVerifiedInteraction format time written).1 = s := by
          unfold noteVerifiedInteraction
          rw [if_pos htime]
        rw [if_pos htime]
        apply ih hrest
        show P times ((s.noteVerifiedInteraction format time written).1.ensureLoaded format)
        rw [hsame]
        exact h
      · rw [if_neg htime, List.append_cons]
        apply ih hrest
        exact hstep (hgood time written (List.mem_cons_self ..)) h (Int.not_le.mp htime)

theorem run_tracks (format : RecordFormat) (file : Option Bytes) (events : List BudgetEvent) :
    Tracks (file.bind format.read) (BudgetEvent.times events)
      ((runWith format { file } events).1.ensureLoaded format) :=
  run_invariant (G := fun _ => True) (fun _ h htime => h.note htime _) events
    (fun _ _ _ => trivial) (tracks_start format file).1

theorem run_persists (format : RecordFormat) (file : Option Bytes) {events : List BudgetEvent}
    (hwrites : BudgetEvent.Writes events) :
    Persists format (file.bind format.read) (BudgetEvent.times events)
      ((runWith format { file } events).1.ensureLoaded format) := by
  have hgood : ∀ time written, BudgetEvent.note time written ∈ events → written = true := by
    intro time written hmem
    cases written with
    | true => rfl
    | false => exact absurd hmem (hwrites time)
  have hboth := run_invariant
    (P := fun times s => Tracks (file.bind format.read) times s ∧
      Persists format (file.bind format.read) times s)
    (fun {times s time written} hwritten h htime => by
      obtain rfl := hwritten
      refine ⟨h.1.note htime true, ?_⟩
      rw [note_ensureLoaded htime]
      exact h.2.noted h.1 htime) events hgood (tracks_start format file)
  exact hboth.2

end Run
end OfflineBudgetState

/-! ## The law -/

/-- What a budget does: the lock is open exactly as the stored record and the noted times
say, and the file is less than five minutes behind them. -/
structure Budget.Law (stored : Option Int) (events : List BudgetEvent) (locked : Int64 → Bool)
    (persisted : Option Int) : Prop where
  locked : ∀ now, locked now = false ↔ Budget.Open stored (BudgetEvent.times events) now.toInt
  persisted : BudgetEvent.Writes events → BudgetEvent.times events ≠ [] →
    ∃ m value, Budget.latest stored (BudgetEvent.times events) = some m ∧
      persisted = some value ∧ value ≤ m ∧ m - value < persistInterval

theorem OfflineBudgetState.run_law (format : RecordFormat) (file : Option Bytes)
    (events : List BudgetEvent) :
    Budget.Law (file.bind format.read) events
      (fun now => ((runWith format { file } events).1.isLocked format now).1)
      ((runWith format { file } events).1.file.bind format.read) := by
  have htracks := run_tracks format file events
  refine ⟨fun now => isLocked_eq_false htracks now, fun hwrites hne => ?_⟩
  have hpersists := run_persists format file hwrites
  obtain ⟨m, hm⟩ : ∃ m, Budget.latest (file.bind format.read) (BudgetEvent.times events) = some m :=
    Budget.latest_isSome hne
  have hverified := htracks.lastVerified
  rw [hm, Option.getD_some] at hverified
  have hfile : ((runWith format { file } events).1.ensureLoaded format).file =
      (runWith format { file } events).1.file := by
    unfold ensureLoaded
    split
    · rfl
    · split
      · rfl
      · rfl
  rcases hpersists.file with ⟨hnone, -⟩ | ⟨-, hread⟩
  · rw [hm] at hnone
    cases hnone
  · rw [hfile] at hread
    refine ⟨m, _, hm, hread, ?_, ?_⟩
    · rw [← hverified]
      exact hpersists.behind.1
    · rw [← hverified]
      exact hpersists.behind.2

/-- **The offline budget of Go and C#.**  For every file, every run of notes and queries and
every clock value: the lock is open exactly when a time is known, the clock lies within a day after
the latest of them, and no interaction but the first came more than a day after all
before it; and if no write fails, the file is less than five minutes behind. -/
theorem offlineBudget_law (id : StateIdentity) (file : Option Bytes) (events : List BudgetEvent) :
    Budget.Law (file.bind (Go.readRecord id)) events
      (fun now => (Go.isLocked id now (Go.runBudget id file events).1).1)
      ((Go.runBudget id file events).1.file.bind (Go.readRecord id)) ∧
    Budget.Law (file.bind (CSharp.readRecord id)) events
      (fun now => (CSharp.isLocked id now (CSharp.runBudget id file events).1).1)
      ((CSharp.runBudget id file events).1.file.bind (CSharp.readRecord id)) :=
  ⟨OfflineBudgetState.run_law (Go.recordFormat id) file events,
    OfflineBudgetState.run_law (CSharp.recordFormat id) file events⟩

end SwmSdk
