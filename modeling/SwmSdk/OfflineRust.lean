import SwmSdk.OfflineBudget

/-! # The offline budget of a client whose key rotates

The Rust client keeps its budget beside its identity: an object with the install id and the
thumbprint that the identity had when the budget was first used.  `rotate_device_key` replaces
the identity and leaves that object as it is, where the Go and C# clients drop theirs.

Every record that the client writes is one of the identity that it has at that time, exactly when
no record is written after a rotation that followed the first use of the budget
(`records_follow_iff`); so in a run that rotates before it uses the budget all of them are
(`records_follow_of_rotations_first`).
-/
namespace SwmSdk
open ByteText Numeral

/-- The two identities are written alike into a record. -/
def StateIdentity.Same (first second : StateIdentity) : Prop :=
  first.installId = second.installId ∧ first.keyThumbprint = second.keyThumbprint

instance (first second : StateIdentity) : Decidable (first.Same second) :=
  inferInstanceAs (Decidable (_ ∧ _))

theorem offlineText_same {first second : StateIdentity} (h : first.Same second)
    (milliseconds : Int) : offlineText first milliseconds = offlineText second milliseconds := by
  rw [offlineText, h.1, h.2, offlineText]

/-- A record names its identity. -/
theorem same_of_offlineText {first second : StateIdentity} {m n : Int}
    (h : offlineText first m = offlineText second n) : first.Same second := by
  have hlines := congrArg (List.splitOn newline) h
  rw [offlineText_lines, offlineText_lines] at hlines
  simp only [List.cons.injEq] at hlines
  exact ⟨hlines.2.1, hlines.2.2.1⟩

namespace Rust

/-! ## The budget -/

/-- The record of `ensure_loaded`. -/
def readRecord (id : StateIdentity) (text : Bytes) : Option Int :=
  recordOf offlineBudgetHeader id.installId id.keyThumbprint parseInt64
    ((lossyUtf8 text.length text).splitOn newline)

theorem readRecord_text (id : StateIdentity) {value : Int} (hpositive : 0 < value)
    (hrange : InInt64 value) : readRecord id (offlineText id value) = some value := by
  rw [readRecord, lossyUtf8_ascii (ascii_offlineText id value) (Nat.le_refl _), offlineText_lines]
  exact recordOf_lines (parseInt64_decimal hrange) hpositive

/-- The record of a device, as this SDK reads it. -/
def recordFormat (id : StateIdentity) : RecordFormat where
  identity := id
  read := readRecord id
  read_positive h := recordOf_positive h
  read_text _ hpositive hrange := readRecord_text id hpositive hrange

theorem readRecord_range {id : StateIdentity} {text : Bytes} {value : Int}
    (h : readRecord id text = some value) : InInt64 value := by
  unfold readRecord recordOf at h
  split at h
  · split at h
    · cases h
    · exact signedDigits_inInt64 (Option.filter_eq_some_iff.mp h).1
  · cases h

/-- `OfflineBudget`: the identity that it was made for, and its state. -/
structure OfflineBudget where
  identity : StateIdentity
  state : OfflineBudgetState

namespace OfflineBudget

/-- `OfflineBudget::new`. -/
def new (identity : StateIdentity) : OfflineBudget := ⟨identity, { file := none }⟩

def format (budget : OfflineBudget) : RecordFormat := recordFormat budget.identity

/-- The state, over the file that the store holds. -/
def withFile (budget : OfflineBudget) (file : Option Bytes) : OfflineBudgetState :=
  { budget.state with file }

/-- The record that `note_verified` writes, if it writes one. -/
def record (budget : OfflineBudget) (file : Option Bytes) (time : Int64) (written : Bool) :
    Option Bytes :=
  let s := ((budget.withFile file).ensureLoaded budget.format).noted time.toInt
  if 0 < time.toInt ∧ s.persistDue time.toInt ∧ written then
    some (offlineText budget.identity s.lastVerified)
  else none

/-- `note_verified`. -/
def noteVerified (budget : OfflineBudget) (file : Option Bytes) (time : Int64) (written : Bool) :
    OfflineBudget :=
  { budget with
    state := ((budget.withFile file).noteVerifiedInteraction budget.format time written).1 }

/-- `is_locked`. -/
def isLocked (budget : OfflineBudget) (file : Option Bytes) (now : Int64) :
    Bool × OfflineBudget :=
  let (locked, state) := (budget.withFile file).isLocked budget.format now
  (locked, { budget with state })

/-- The record is what a note leaves in the file. -/
theorem noteVerified_file (budget : OfflineBudget) (file : Option Bytes) (time : Int64)
    (written : Bool) : (budget.noteVerified file time written).state.file =
      (budget.record file time written).or file := by
  have hloaded : ((budget.withFile file).ensureLoaded budget.format).file = file := by
    unfold OfflineBudgetState.ensureLoaded
    split
    · rfl
    · split
      · rfl
      · rfl
  unfold noteVerified record OfflineBudgetState.noteVerifiedInteraction
  dsimp only
  by_cases htime : time.toInt ≤ 0
  · rw [if_pos htime, if_neg fun h => absurd h.1 (Int.not_lt.mpr htime)]
    rfl
  · rw [if_neg htime]
    have hpositive : 0 < time.toInt := Int.not_le.mp htime
    by_cases hdue : (((budget.withFile file).ensureLoaded budget.format).noted time.toInt).persistDue
        time.toInt
    · rw [if_pos hdue]
      cases written with
      | true =>
        rw [if_pos ⟨hpositive, hdue, rfl⟩]
        rfl
      | false =>
        rw [if_neg fun h => absurd h.2.2 (by decide)]
        exact hloaded
    · rw [if_neg hdue, if_neg fun h => hdue h.2.1]
      exact hloaded

/-- The last verified time of a loaded budget fits an `i64`. -/
def InRange (budget : OfflineBudget) : Prop := InInt64 budget.state.lastVerified

theorem new_inRange (identity : StateIdentity) : (new identity).InRange := by
  show InInt64 0
  decide

theorem ensureLoaded_inRange {budget : OfflineBudget} (h : budget.InRange)
    (file : Option Bytes) :
    InInt64 ((budget.withFile file).ensureLoaded budget.format).lastVerified := by
  unfold OfflineBudgetState.ensureLoaded
  split
  · exact h
  · split
    · exact h
    · rename_i value hvalue
      obtain ⟨text, -, hread⟩ := Option.bind_eq_some_iff.mp hvalue
      exact readRecord_range hread

theorem noted_inRange {s : OfflineBudgetState} (h : InInt64 s.lastVerified) (time : Int64) :
    InInt64 (s.noted time.toInt).lastVerified := by
  unfold OfflineBudgetState.noted
  dsimp only
  split
  · exact ⟨time.le_toInt, time.toInt_lt⟩
  · exact h

theorem noteVerified_inRange {budget : OfflineBudget} (h : budget.InRange) (file : Option Bytes)
    (time : Int64) (written : Bool) : (budget.noteVerified file time written).InRange := by
  have hnoted := noted_inRange (ensureLoaded_inRange h file) time
  unfold InRange noteVerified OfflineBudgetState.noteVerifiedInteraction
  dsimp only
  split
  · exact h
  · split
    · unfold OfflineBudgetState.persist
      split
      · exact hnoted
      · exact hnoted
    · exact hnoted

/-- **A record is read back** by a process that loads the identity it was written for. -/
theorem record_eq_some {budget : OfflineBudget} (h : budget.InRange) {file : Option Bytes}
    {time : Int64} {written : Bool} {text : Bytes}
    (hrecord : budget.record file time written = some text) :
    ∃ value, text = offlineText budget.identity value ∧
      readRecord budget.identity text = some value := by
  unfold record at hrecord
  dsimp only at hrecord
  split at hrecord
  · rename_i hwrites
    obtain rfl := Option.some.inj hrecord
    have hrange := noted_inRange (ensureLoaded_inRange h file) time
    refine ⟨_, rfl, readRecord_text _ ?_ hrange⟩
    unfold OfflineBudgetState.noted
    dsimp only
    split
    · exact hwrites.1
    · omega
  · cases hrecord

end OfflineBudget

/-! ## The client -/

/-- What a client has of the budget: the identity slot, the budget slot, the file, and the records
that it wrote, each with the identity that was in the slot. -/
structure OfflineClient where
  identity : Option StateIdentity := none
  offline : Option OfflineBudget := none
  file : Option Bytes
  written : List (Bytes × StateIdentity) := []

/-- What happens to a client: `identity()` fills the slot, an interaction is verified at a trusted
time (and a write succeeds or fails), the lock is asked for, or a rotation succeeds.  A note that
finds the slot locked changes nothing and is no event. -/
inductive OfflineClientEvent where
  | load (identity : StateIdentity)
  | note (time : Int64) (written : Bool)
  | query (now : Int64)
  | rotate (identity : StateIdentity)

namespace OfflineClient

/-- `note_verified_interaction`. -/
def noteVerifiedInteraction (c : OfflineClient) (time : Int64) (written : Bool) : OfflineClient :=
  match c.identity with
  | none => c
  | some identity =>
      let budget := c.offline.getD (.new identity)
      let noted := budget.noteVerified c.file time written
      { c with
        offline := some noted
        file := noted.state.file
        written := (budget.record c.file time written).toList.map (·, identity) ++ c.written }

/-- `is_offline_locked`. -/
def isOfflineLocked (c : OfflineClient) (now : Int64) : Bool × OfflineClient :=
  match c.identity with
  | none => (true, c)
  | some identity =>
      let (locked, budget) := (c.offline.getD (.new identity)).isLocked c.file now
      (locked, { c with offline := some budget })

/-- What an event does to the client. -/
def step (c : OfflineClient) : OfflineClientEvent → OfflineClient
  | .load identity => { c with identity := c.identity.or (some identity) }
  | .note time written => c.noteVerifiedInteraction time written
  | .query now => (c.isOfflineLocked now).2
  | .rotate identity => { c with identity := some identity }

/-- A new client over a file. -/
def run (file : Option Bytes) (events : List OfflineClientEvent) : OfflineClient :=
  events.foldl step { file }

theorem run_concat (file : Option Bytes) (events : List OfflineClientEvent)
    (event : OfflineClientEvent) : run file (events ++ [event]) = (run file events).step event := by
  rw [run, List.foldl_append]
  rfl

/-- Every record is one of the identity that was in the client when it was written, and a process
that loads that identity reads it back. -/
def RecordsFollow (c : OfflineClient) : Prop :=
  ∀ text identity, (text, identity) ∈ c.written →
    ∃ value, text = offlineText identity value ∧ readRecord identity text = some value

/-- The event writes a record although the client was rotated since its budget was made. -/
def StaleWrite (c : OfflineClient) (event : OfflineClientEvent) : Prop :=
  ∃ time written identity budget, event = .note time written ∧ c.identity = some identity ∧
    c.offline = some budget ∧ ¬ budget.identity.Same identity ∧
    (budget.record c.file time written).isSome

/-- The budget has a time that fits. -/
def InRange (c : OfflineClient) : Prop := ∀ budget ∈ c.offline, budget.InRange

variable {c : OfflineClient}

theorem InRange.getD (h : c.InRange) (identity : StateIdentity) :
    (c.offline.getD (.new identity)).InRange := by
  cases hoffline : c.offline with
  | none => exact OfflineBudget.new_inRange identity
  | some budget => exact h budget hoffline

theorem step_inRange (h : c.InRange) (event : OfflineClientEvent) : (c.step event).InRange := by
  cases event with
  | load identity => exact h
  | rotate identity => exact h
  | note time written =>
    unfold step noteVerifiedInteraction
    dsimp only
    split
    · exact h
    · rename_i identity _
      intro budget hbudget
      obtain rfl := Option.some.inj hbudget
      exact OfflineBudget.noteVerified_inRange (h.getD identity) _ _ _
  | query now =>
    unfold step isOfflineLocked
    dsimp only
    split
    · exact h
    · rename_i identity _
      intro budget hbudget
      obtain rfl := Option.some.inj hbudget
      exact OfflineBudget.ensureLoaded_inRange (h.getD identity) _

theorem run_inRange (file : Option Bytes) (events : List OfflineClientEvent) :
    (run file events).InRange := by
  induction events using List.reverseRecOn with
  | nil =>
    intro budget hbudget
    cases hbudget
  | append_singleton events event ih =>
    rw [run_concat]
    exact step_inRange ih event

/-- The records after a note. -/
theorem mem_written_note {time : Int64} {written : Bool} {text : Bytes} {identity : StateIdentity} :
    (text, identity) ∈ (c.noteVerifiedInteraction time written).written ↔
      (text, identity) ∈ c.written ∨ c.identity = some identity ∧
        (c.offline.getD (.new identity)).record c.file time written = some text := by
  unfold noteVerifiedInteraction
  cases hidentity : c.identity with
  | none => simp
  | some current =>
    simp only [List.mem_append, List.mem_map, Option.mem_toList, Prod.mk.injEq, Option.some.injEq]
    constructor
    · rintro (⟨_, hrecord, rfl, rfl⟩ | hold)
      · exact .inr ⟨rfl, hrecord⟩
      · exact .inl hold
    · rintro (hold | ⟨rfl, hrecord⟩)
      · exact .inr hold
      · exact .inl ⟨text, hrecord, rfl, rfl⟩

/-- **A step that writes nothing stale keeps the records with their identity.** -/
theorem RecordsFollow.step (h : c.RecordsFollow) (hrange : c.InRange) {event : OfflineClientEvent}
    (hfresh : ¬ c.StaleWrite event) : (c.step event).RecordsFollow := by
  cases event with
  | load identity => exact h
  | rotate identity => exact h
  | query now =>
    unfold OfflineClient.step isOfflineLocked
    dsimp only
    split
    · exact h
    · exact h
  | note time written =>
    intro text identity hmem
    rcases mem_written_note.mp hmem with hold | ⟨hidentity, hrecord⟩
    · exact h text identity hold
    · obtain ⟨value, htext, hread⟩ := OfflineBudget.record_eq_some (hrange.getD identity) hrecord
      have hsame : (c.offline.getD (.new identity)).identity.Same identity := by
        cases hoffline : c.offline with
        | none => exact ⟨rfl, rfl⟩
        | some budget =>
          by_contra hother
          rw [hoffline] at hrecord
          refine hfresh ⟨time, written, identity, budget, rfl, hidentity, hoffline, hother, ?_⟩
          exact Option.isSome_iff_exists.mpr ⟨text, hrecord⟩
      refine ⟨value, by rw [htext, offlineText_same hsame], ?_⟩
      have hsameRead : readRecord identity text =
          readRecord (c.offline.getD (.new identity)).identity text := by
        rw [readRecord, readRecord, hsame.1, hsame.2]
      rw [hsameRead, hread]

/-- A stale record names another identity than the client has. -/
theorem StaleWrite.not_follow {event : OfflineClientEvent} (h : c.StaleWrite event)
    (hrange : c.InRange) : ¬ (c.step event).RecordsFollow := by
  obtain ⟨time, written, identity, budget, rfl, hidentity, hoffline, hother, hwrites⟩ := h
  intro hfollow
  obtain ⟨text, hrecord⟩ := Option.isSome_iff_exists.mp hwrites
  obtain ⟨value, htext, -⟩ := OfflineBudget.record_eq_some (hrange budget hoffline) hrecord
  have hmem : (text, identity) ∈ (c.noteVerifiedInteraction time written).written := by
    refine mem_written_note.mpr (.inr ⟨hidentity, ?_⟩)
    rw [hoffline]
    exact hrecord
  obtain ⟨value', htext', -⟩ := hfollow text identity hmem
  exact hother (same_of_offlineText (htext.symm.trans htext'))

/-- The budget was made for the identity in the slot. -/
def Bound (c : OfflineClient) : Prop :=
  ∀ budget ∈ c.offline, ∃ identity ∈ c.identity, budget.identity = identity

/-- Only a rotation after the first use parts the budget from the identity. -/
theorem Bound.step (h : c.Bound) {event : OfflineClientEvent}
    (hfirst : ∀ identity, event = .rotate identity → c.offline = none) :
    (c.step event).Bound := by
  -- the budget that a use finds or makes is the one of the identity in the slot
  have hcurrent : ∀ {identity}, c.identity = some identity →
      (c.offline.getD (.new identity)).identity = identity := by
    intro identity hidentity
    cases hoffline : c.offline with
    | none => rfl
    | some budget =>
      obtain ⟨current, hslot, hsame⟩ := h budget hoffline
      rw [hidentity] at hslot
      rw [Option.some.inj hslot]
      exact hsame
  cases event with
  | load loaded =>
    intro budget hbudget
    obtain ⟨identity, hslot, hsame⟩ := h budget hbudget
    have hkept : c.identity.or (some loaded) = some identity := by
      rw [hslot]
      rfl
    exact ⟨identity, hkept, hsame⟩
  | rotate identity =>
    intro budget hbudget
    have hnone : c.offline = some budget := hbudget
    rw [hfirst identity rfl] at hnone
    cases hnone
  | note time written =>
    unfold OfflineClient.step noteVerifiedInteraction
    dsimp only
    split
    · exact h
    · rename_i identity hidentity
      intro budget hbudget
      obtain rfl := Option.some.inj hbudget
      exact ⟨identity, hidentity, hcurrent hidentity⟩
  | query now =>
    unfold OfflineClient.step isOfflineLocked
    dsimp only
    split
    · exact h
    · rename_i identity hidentity
      intro budget hbudget
      obtain rfl := Option.some.inj hbudget
      exact ⟨identity, hidentity, hcurrent hidentity⟩

theorem Bound.not_stale (h : c.Bound) (event : OfflineClientEvent) : ¬ c.StaleWrite event := by
  rintro ⟨time, written, identity, budget, rfl, hidentity, hoffline, hother, -⟩
  obtain ⟨current, hslot, hsame⟩ := h budget hoffline
  rw [hidentity] at hslot
  obtain rfl := Option.some.inj hslot
  exact hother ⟨congrArg _ hsame, congrArg _ hsame⟩

end OfflineClient

open OfflineClient

/-- **When the records follow the identity**: in every state of a run, exactly when no note of the
run writes a record after the client was rotated away from the identity that its budget was made
for. -/
theorem records_follow_iff (file : Option Bytes) (events : List OfflineClientEvent) :
    (∀ before, before <+: events → (run file before).RecordsFollow) ↔
      ∀ before event after, events = before ++ event :: after →
        ¬ (run file before).StaleWrite event := by
  constructor
  · rintro h before event after rfl hstale
    refine hstale.not_follow (run_inRange file before) ?_
    rw [← run_concat]
    exact h _ ⟨after, by simp⟩
  · intro h before hbegins
    induction before using List.reverseRecOn with
    | nil =>
      intro text identity hmem
      cases hmem
    | append_singleton before event ih =>
      obtain ⟨after, hafter⟩ := hbegins
      have hsplit : events = before ++ event :: after := by
        rw [← hafter, List.append_assoc, List.singleton_append]
      rw [run_concat]
      refine RecordsFollow.step (ih ⟨event :: after, hsplit.symm⟩) (run_inRange file before) ?_
      exact h before event after hsplit

/-- **Rotations before the first use do no harm**: the records of such a run follow. -/
theorem records_follow_of_rotations_first (file : Option Bytes) (events : List OfflineClientEvent)
    (hfirst : ∀ before identity after, events = before ++ .rotate identity :: after →
      (run file before).offline = none) : (run file events).RecordsFollow := by
  have hbound : (run file events).Bound ∧ (run file events).RecordsFollow := by
    induction events using List.reverseRecOn with
    | nil =>
      constructor
      · intro budget hbudget
        cases hbudget
      · intro text identity hmem
        cases hmem
    | append_singleton events event ih =>
      have hbefore : ∀ before identity after, events = before ++ .rotate identity :: after →
          (run file before).offline = none := by
        rintro before identity after rfl
        exact hfirst before identity (after ++ [event]) (by simp)
      obtain ⟨hbound, hfollow⟩ := ih hbefore
      rw [run_concat]
      refine ⟨hbound.step ?_, hfollow.step (run_inRange file events) (hbound.not_stale event)⟩
      rintro identity rfl
      exact hfirst events identity [] rfl
  exact hbound.2

/-! Two interactions, ten minutes and a rotation apart. -/

/-- A literal is seen to be plain by evaluation. -/
theorem plain_of_all {text : Bytes} (h : text.all (fun b => b < 0x80 ∧ b ≠ newline) = true) :
    ∀ b ∈ text, b < 0x80 ∧ b ≠ newline :=
  fun b hb => of_decide_eq_true (List.all_eq_true.mp h b hb)

def sampleIdentity (installId : String)
    (h : (ascii installId ++ ascii "thumbprint").all (fun b => b < 0x80 ∧ b ≠ newline) = true) :
    StateIdentity := ⟨ascii installId, ascii "thumbprint", plain_of_all h⟩

/-- The key is rotated between two interactions. -/
def sampleOfflineEvents : List OfflineClientEvent :=
  [.load (sampleIdentity "old" (by decide)), .note 1000 true,
    .rotate (sampleIdentity "new" (by decide)), .note 601000 true]

/-- The second record names the identity that was rotated away. -/
theorem rotated_record_stale :
    ¬ ∀ (file : Option Bytes) (events : List OfflineClientEvent),
      (run file events).RecordsFollow := by
  intro h
  have hwritten : (run none sampleOfflineEvents).written.head? =
      some (offlineText (sampleIdentity "old" (by decide)) 601000,
        sampleIdentity "new" (by decide)) := rfl
  obtain ⟨value, htext, -⟩ := h none sampleOfflineEvents _ _ (List.mem_of_mem_head? hwritten)
  exact absurd (same_of_offlineText htext) (by decide)

end Rust
end SwmSdk
