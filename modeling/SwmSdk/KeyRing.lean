import Mathlib.Data.List.Induction
import SwmSdk.Recency
import SwmSdk.Types

/-! # The online key ring

Every SDK keeps the online key the server currently signs with and up to four
keys it signed with before, so that responses in flight across a key rotation
still verify.  A verified key manifest is installed by `installKey`; `findKey`
looks up the key a response names.

The ring is what is left of a longer history: the accepted installs.  Seen from
the current key backwards it is the recency list of that history, cut after five
records (`Law.retained_eq`), and this is proved as an invariant of every run
(`Reaches`).  Rebinding a retained key id to other key material must not happen,
since it would change the key under which signatures of that id verify.
-/
namespace SwmSdk
open ByteText

/-- `ProtocolKey`: one online key, as its manifest describes it. -/
structure ProtocolKey where
  keyId : Bytes
  publicKey : Bytes
  issuedAt : Int
  refreshAfter : Int
  deriving DecidableEq, Repr

/-- `current_key_` and `previous_keys_`, the latter oldest first. -/
structure KeyRing where
  currentKey : Option ProtocolKey
  previousKeys : List ProtocolKey
  deriving DecidableEq, Repr

namespace KeyRing

/-- The ring of a new client. -/
def empty : KeyRing := ⟨none, []⟩

/-- The retained keys, from the current one back to the oldest. -/
def retained (ring : KeyRing) : List ProtocolKey :=
  ring.currentKey.toList ++ ring.previousKeys.reverse

/-- `maximum_previous_keys`. -/
def maximumPreviousKeys : Nat := 4

/-- `while (previous.size() > maximum) previous.erase(previous.begin())`. -/
def evict (maximum : Nat) : List ProtocolKey → List ProtocolKey
  | [] => []
  | key :: keys => if maximum < (key :: keys).length then evict maximum keys else key :: keys

theorem evict_reverse (maximum : Nat) (keys : List ProtocolKey) :
    (evict maximum keys).reverse = keys.reverse.take maximum := by
  induction keys with
  | nil => simp [evict]
  | cons key keys ih =>
    rw [evict, List.reverse_cons]
    split
    · rename_i h
      rw [List.length_cons] at h
      rw [ih, List.take_append_of_le_length (by rw [List.length_reverse]; omega)]
    · rename_i h
      rw [List.length_cons] at h
      rw [List.reverse_cons, List.take_of_length_le (by simp; omega)]

/-- What every reachable ring satisfies: one record for each id, at most four
previous keys, and no history without a current key. -/
structure WellFormed (ring : KeyRing) : Prop where
  distinct : (ring.retained.map ProtocolKey.keyId).Nodup
  bounded : ring.previousKeys.length ≤ maximumPreviousKeys
  current : ring.previousKeys ≠ [] → ring.currentKey.isSome

theorem WellFormed.previous_nodup {ring : KeyRing} (h : ring.WellFormed) :
    (ring.previousKeys.map ProtocolKey.keyId).Nodup := by
  have hsub := h.distinct.sublist
    ((List.sublist_append_right ring.currentKey.toList ring.previousKeys.reverse).map _)
  rwa [List.map_reverse, List.nodup_reverse] at hsub

/-- With one record for each id, erasing the first record of an id erases all. -/
theorem eraseP_eq_filter {keys : List ProtocolKey}
    (h : (keys.map ProtocolKey.keyId).Nodup) (keyId : Bytes) :
    keys.eraseP (fun key => key.keyId = keyId) = keys.filter (fun key => key.keyId ≠ keyId) := by
  induction keys with
  | nil => rfl
  | cons key keys ih =>
    rw [List.map_cons, List.nodup_cons] at h
    by_cases hk : key.keyId = keyId
    · have stay : ∀ other ∈ keys, other.keyId ≠ keyId := fun other ho he =>
        h.1 (List.mem_map.mpr ⟨other, ho, he.trans hk.symm⟩)
      rw [List.eraseP_cons_of_pos (by simpa using hk), List.filter_cons_of_neg (by simpa using hk),
        List.filter_eq_self.mpr (fun other ho => by simpa using stay other ho)]
    · rw [List.eraseP_cons_of_neg (by simpa using hk),
        List.filter_cons_of_pos (by simpa using hk), ih h.2]

theorem empty_wellFormed : empty.WellFormed :=
  ⟨by simp [empty, retained], by simp [empty], by simp [empty]⟩

/-- The error of every SDK's rebinding check. -/
def rebound (message : String) : Error where
  kind := .integrity
  statusCode := 0
  serviceCode := ascii "online_key_manifest_invalid"
  message := ascii message

end KeyRing

/-! ## Runs of installs -/

namespace KeyRing

/-- `key` claims the id of a retained key for other key material. -/
def Rebinds (ring : KeyRing) (key : ProtocolKey) : Prop :=
  ∃ old ∈ ring.retained, old.keyId = key.keyId ∧ old.publicKey ≠ key.publicKey

section Runs
variable (install : KeyRing → ProtocolKey → KeyRing × Except Error Unit)

/-- One install attempt, on a ring and the installs accepted before it. -/
def attempt (state : KeyRing × List ProtocolKey) (key : ProtocolKey) :
    KeyRing × List ProtocolKey :=
  match install state.1 key with
  | (ring, .ok _) => (ring, state.2 ++ [key])
  | (ring, .error _) => (ring, state.2)

/-- The ring after a sequence of attempts from the empty ring, and the installs
that were accepted on the way. -/
def run (attempts : List ProtocolKey) : KeyRing × List ProtocolKey :=
  attempts.foldl (attempt install) (empty, [])

theorem run_concat (attempts : List ProtocolKey) (key : ProtocolKey) :
    run install (attempts ++ [key]) = attempt install (run install attempts) key := by
  simp [run]

end Runs

/-- **What an install does to a well-formed ring**: it reports a rebinding and
changes nothing, or the new key is promoted in the recency list of the ring. -/
def Promotes (install : KeyRing → ProtocolKey → KeyRing × Except Error Unit) : Prop :=
  ∀ ring : KeyRing, ring.WellFormed → ∀ key,
    (ring.Rebinds key ∧ ∃ error, install ring key = (ring, .error error)) ∨
    (¬ ring.Rebinds key ∧ ∃ next, install ring key = (next, .ok ()) ∧
      next.currentKey = some key ∧
      next.retained = (Recency.promote ProtocolKey.keyId key ring.retained).take 5)

/-- A ring holds the most recent of the accepted installs. -/
structure Tracks (ring : KeyRing) (accepted : List ProtocolKey) : Prop where
  retained_eq : ring.retained = (Recency.recency ProtocolKey.keyId accepted).take 5
  current : ring.currentKey = accepted.getLast?

theorem Tracks.wellFormed {ring : KeyRing} {accepted : List ProtocolKey}
    (h : ring.Tracks accepted) : ring.WellFormed := by
  have hlen : ring.retained.length ≤ 5 := by
    rw [h.retained_eq]
    exact List.length_take_le _ _
  -- a ring with a history has a current key, since an accepted install left one
  have hcur : ring.previousKeys ≠ [] → ring.currentKey.isSome := by
    intro hp
    rw [h.current]
    rcases accepted.eq_nil_or_concat with rfl | ⟨keys, key, rfl⟩
    · have := h.retained_eq
      simp [retained, hp] at this
    · simp
  refine ⟨?_, ?_, hcur⟩
  · rw [h.retained_eq, List.map_take]
    exact (Recency.recency_nodup ProtocolKey.keyId accepted).sublist (List.take_sublist _ _)
  · by_cases hp : ring.previousKeys = []
    · simp [hp]
    · obtain ⟨key, hkey⟩ := Option.isSome_iff_exists.mp (hcur hp)
      simp only [retained, hkey, Option.toList_some, List.singleton_append, List.length_cons,
        List.length_reverse] at hlen
      exact Nat.le_of_succ_le_succ hlen

/-- One attempt keeps the ring the recency list of what was accepted. -/
theorem Tracks.attempt {install : KeyRing → ProtocolKey → KeyRing × Except Error Unit}
    (hp : Promotes install) {state : KeyRing × List ProtocolKey}
    (h : state.1.Tracks state.2) (key : ProtocolKey) :
    (attempt install state key).1.Tracks (attempt install state key).2 := by
  rcases hp state.1 h.wellFormed key with ⟨-, error, he⟩ | ⟨-, next, he, hcur, hret⟩
  · simpa [KeyRing.attempt, he] using h
  · simp only [KeyRing.attempt, he]
    refine ⟨?_, by simp [hcur]⟩
    rw [hret, h.retained_eq, Recency.recency_concat,
      Recency.take_promote_take ProtocolKey.keyId (Recency.recency_nodup _ _)]

theorem tracks_run {install : KeyRing → ProtocolKey → KeyRing × Except Error Unit}
    (hp : Promotes install) (attempts : List ProtocolKey) :
    (run install attempts).1.Tracks (run install attempts).2 := by
  induction attempts using List.reverseRecOn with
  | nil => exact ⟨rfl, rfl⟩
  | append_singleton attempts key ih =>
    rw [run_concat]
    exact ih.attempt hp key

/-- **The key ring law**, of a ring and the installs accepted before it. -/
structure Law (install : KeyRing → ProtocolKey → KeyRing × Except Error Unit)
    (findKey : KeyRing → Bytes → Option ProtocolKey)
    (ring : KeyRing) (accepted : List ProtocolKey) : Prop where
  /-- One record for each retained id. -/
  distinct : (ring.retained.map ProtocolKey.keyId).Nodup
  bounded : ring.previousKeys.length ≤ 4
  /-- A rejected install leaves the ring exactly unchanged. -/
  rejected : ∀ key error, (install ring key).2 = .error error → (install ring key).1 = ring
  /-- A retained id is never rebound to other key material. -/
  rebinding : ∀ key, ring.Rebinds key → ∃ error, (install ring key).2 = .error error
  /-- A retained id is looked up as its last accepted install. -/
  lookup : ∀ keyId ∈ ring.retained.map ProtocolKey.keyId,
    findKey ring keyId = accepted.reverse.find? (fun key => key.keyId = keyId)
  /-- The current key is the last accepted install. -/
  current : ring.currentKey = accepted.getLast?
  /-- The retained ids, from the current one back, are the five most recent
  distinct ids among the accepted installs. -/
  recent : ring.retained.map ProtocolKey.keyId =
    ((accepted.map ProtocolKey.keyId).reverse.eraseDups).take 5

/-- **The law holds in every run** of an install that promotes, with a lookup
that finds the record a ring retains. -/
theorem law_run {install : KeyRing → ProtocolKey → KeyRing × Except Error Unit}
    {findKey : KeyRing → Bytes → Option ProtocolKey} (hp : Promotes install)
    (hf : ∀ ring keyId, findKey ring keyId = ring.retained.find? (fun key => key.keyId = keyId))
    (attempts : List ProtocolKey) :
    Law install findKey (run install attempts).1 (run install attempts).2 := by
  have ht := tracks_run hp attempts
  have hw := ht.wellFormed
  refine ⟨hw.distinct, hw.bounded, ?_, ?_, ?_, ht.current, ?_⟩
  · intro key error herr
    rcases hp _ hw key with ⟨-, e, he⟩ | ⟨-, next, he, -, -⟩
    · rw [he]
    · rw [he] at herr
      cases herr
  · intro key hreb
    rcases hp _ hw key with ⟨-, e, he⟩ | ⟨hnot, -⟩
    · exact ⟨e, by rw [he]⟩
    · exact absurd hreb hnot
  · intro keyId hmem
    obtain ⟨old, ho, hid⟩ := List.mem_map.mp hmem
    have hsome : ((run install attempts).1.retained.find? (fun key => key.keyId = keyId)).isSome :=
      List.find?_isSome.mpr ⟨old, ho, by simpa using hid⟩
    obtain ⟨key, hkey⟩ := Option.isSome_iff_exists.mp hsome
    rw [hf, hkey, ← Recency.find_recency ProtocolKey.keyId]
    rw [ht.retained_eq] at hkey
    exact (Recency.find_take ProtocolKey.keyId hkey).symm
  · rw [ht.retained_eq, List.map_take, Recency.map_recency]

end KeyRing

/-! ## The C++ and Go rings -/

namespace Cpp
open KeyRing

/-- `RequestPipeline::find_key`: the current key, or else the youngest previous
one of that id. -/
def findKey (ring : KeyRing) (keyId : Bytes) : Option ProtocolKey :=
  match ring.currentKey with
  | some current =>
      if current.keyId = keyId then some current
      else ring.previousKeys.reverse.find? (fun key => key.keyId = keyId)
  | none => ring.previousKeys.reverse.find? (fun key => key.keyId = keyId)

/-- The end of `install_key`: the current key is pushed onto the history, the
history is trimmed, and `key` takes its place. -/
def replaceCurrent (ring : KeyRing) (key : ProtocolKey) : KeyRing :=
  match ring.currentKey with
  | some current =>
      ⟨some key, evict maximumPreviousKeys (ring.previousKeys ++ [current])⟩
  | none => ⟨some key, ring.previousKeys⟩

/-- What `install_key` throws. -/
def reboundKey : Error := rebound "online key id was rebound to different key material"

/-- `RequestPipeline::install_key`.  The result is the ring after the call,
whether or not it threw. -/
def installKey (ring : KeyRing) (key : ProtocolKey) : KeyRing × Except Error Unit :=
  match ring.currentKey.filter (fun current => current.keyId = key.keyId) with
  | some current =>
      if current.publicKey ≠ key.publicKey then
        (ring, .error reboundKey)
      else
        ({ ring with currentKey := some key }, .ok ())
  | none =>
      match ring.previousKeys.find? (fun item => item.keyId = key.keyId) with
      | some old =>
          if old.publicKey ≠ key.publicKey then
            (ring, .error reboundKey)
          else
            let erased := { ring with
              previousKeys := ring.previousKeys.eraseP (fun item => item.keyId = key.keyId) }
            (replaceCurrent erased key, .ok ())
      | none => (replaceCurrent ring key, .ok ())

theorem findKey_eq (ring : KeyRing) (keyId : Bytes) :
    findKey ring keyId = ring.retained.find? (fun key => key.keyId = keyId) := by
  cases hcur : ring.currentKey with
  | none => simp [findKey, retained, hcur]
  | some current =>
    by_cases hid : current.keyId = keyId
    · simp [findKey, retained, hcur, hid]
    · simp [findKey, retained, hcur, hid]

theorem replaceCurrent_retained (current key : ProtocolKey) (previous : List ProtocolKey) :
    (replaceCurrent ⟨some current, previous⟩ key).retained =
      key :: (current :: previous.reverse).take maximumPreviousKeys := by
  simp [replaceCurrent, retained, evict_reverse]

theorem installKey_promotes : Promotes installKey := by
  rintro ⟨currentKey, previous⟩ hw key
  cases currentKey with
  | none =>
    have hp : previous = [] := by
      by_contra hp
      simpa using hw.current hp
    subst previous
    refine .inr ⟨?_, ⟨some key, []⟩, ?_, rfl, ?_⟩
    · simp [Rebinds, retained]
    · simp [installKey, replaceCurrent]
    · simp [retained, Recency.promote]
  | some current =>
    have hdist := hw.distinct
    simp only [retained, Option.toList_some, List.singleton_append, List.map_cons,
      List.nodup_cons] at hdist
    by_cases hid : current.keyId = key.keyId
    · by_cases hpk : current.publicKey = key.publicKey
      · have alone : ∀ old ∈ previous.reverse, old.keyId ≠ key.keyId := fun old ho he =>
          hdist.1 (List.mem_map.mpr ⟨old, ho, he.trans hid.symm⟩)
        refine .inr ⟨?_, ⟨some key, previous⟩, ?_, rfl, ?_⟩
        · rintro ⟨old, ho, he, hne⟩
          rcases List.mem_cons.mp ho with rfl | ho
          · exact hne hpk
          · exact alone old ho he
        · simp [installKey, Option.filter, hid, hpk]
        · have hlen : previous.length ≤ 4 := hw.bounded
          have hkept : (key :: previous.reverse).length ≤ 5 := by
            rw [List.length_cons, List.length_reverse]
            omega
          simp only [retained, Option.toList_some, List.singleton_append, Recency.promote]
          rw [List.filter_cons_of_neg (by simpa using hid),
            List.filter_eq_self.mpr (fun old ho => by simpa using alone old ho),
            List.take_of_length_le hkept]
      · refine .inl ⟨⟨current, by simp [retained], hid, hpk⟩, ?_⟩
        exact ⟨reboundKey, by simp [installKey, Option.filter, hid, hpk]⟩
    · have hprev := hw.previous_nodup
      -- the history without the new id, whether or not it was there
      have promoted : (replaceCurrent
            ⟨some current, previous.eraseP (fun item => item.keyId = key.keyId)⟩ key).retained =
          (Recency.promote ProtocolKey.keyId key
            (KeyRing.retained ⟨some current, previous⟩)).take 5 := by
        rw [replaceCurrent_retained, eraseP_eq_filter hprev]
        simp only [retained, Option.toList_some, List.singleton_append, Recency.promote]
        rw [List.filter_cons_of_pos (by simpa using hid), List.take_succ_cons,
          List.filter_reverse]
        rfl
      cases hfind : previous.find? (fun item => item.keyId = key.keyId) with
      | some old =>
        have hmem := List.mem_of_find?_eq_some hfind
        have hold : old.keyId = key.keyId := by simpa using List.find?_some hfind
        by_cases hpk : old.publicKey = key.publicKey
        · refine .inr ⟨?_, _, ?_, ?_, promoted⟩
          · rintro ⟨other, ho, he, hne⟩
            rcases List.mem_cons.mp ho with rfl | ho
            · exact hid he
            · have hsame : other = old := List.inj_on_of_nodup_map hprev
                (List.mem_reverse.mp ho) hmem (he.trans hold.symm)
              exact hne (hsame ▸ hpk)
          · simp [installKey, Option.filter, hid, hfind, hpk]
          · rfl
        · refine .inl ⟨⟨old, by simp [retained, hmem], hold, hpk⟩, ?_⟩
          exact ⟨reboundKey, by simp [installKey, Option.filter, hid, hfind, hpk]⟩
      | none =>
        have hnone : ∀ old ∈ previous, old.keyId ≠ key.keyId := by
          simpa using List.find?_eq_none.mp hfind
        rw [List.eraseP_of_forall_not (by simpa using hnone)] at promoted
        refine .inr ⟨?_, _, ?_, ?_, promoted⟩
        · rintro ⟨other, ho, he, -⟩
          rcases List.mem_cons.mp ho with rfl | ho
          · exact hid he
          · exact hnone other (List.mem_reverse.mp ho) he
        · simp [installKey, Option.filter, hid, hfind]
        · rfl

end Cpp

namespace Go
open KeyRing

/-- `findKey`, which walks the history from its last index down. -/
def findKey (ring : KeyRing) (keyId : Bytes) : Option ProtocolKey :=
  match ring.currentKey with
  | some current => if current.keyId = keyId then some current else fromEnd ring.previousKeys
  | none => fromEnd ring.previousKeys
where
  fromEnd (keys : List ProtocolKey) : Option ProtocolKey :=
    keys.foldl (fun found key => if key.keyId = keyId then some key else found) none

/-- The loop of `installKey` over the history: it drops the entry of the new
key's id, or reports that the id is being rebound. -/
def dropPrevious (next : ProtocolKey) : List ProtocolKey → Except Error (List ProtocolKey)
  | [] => .ok []
  | key :: keys =>
      if key.keyId = next.keyId then
        if key.publicKey ≠ next.publicKey then
          .error (rebound "online key id was rebound to different key material")
        else .ok keys
      else (key :: ·) <$> dropPrevious next keys

/-- `installKey`. -/
def installKey (ring : KeyRing) (next : ProtocolKey) : KeyRing × Except Error Unit :=
  match ring.currentKey with
  | some current =>
      if current.keyId = next.keyId then
        if current.publicKey ≠ next.publicKey then
          (ring, .error (rebound "online key id was rebound to different key material"))
        else ({ ring with currentKey := some next }, .ok ())
      else
        match dropPrevious next ring.previousKeys with
        | .error error => (ring, .error error)
        | .ok previous => (⟨some next, evict 4 (previous ++ [current])⟩, .ok ())
  | none =>
      match dropPrevious next ring.previousKeys with
      | .error error => (ring, .error error)
      | .ok previous => (⟨some next, previous⟩, .ok ())

theorem dropPrevious_eq (next : ProtocolKey) (keys : List ProtocolKey) :
    dropPrevious next keys =
      match keys.find? (fun key => key.keyId = next.keyId) with
      | some old =>
          if old.publicKey ≠ next.publicKey then .error Cpp.reboundKey
          else .ok (keys.eraseP (fun key => key.keyId = next.keyId))
      | none => .ok keys := by
  induction keys with
  | nil => rfl
  | cons key keys ih =>
    by_cases hid : key.keyId = next.keyId
    · simp [dropPrevious, hid, Cpp.reboundKey]
    · rw [dropPrevious, if_neg hid, ih, List.find?_cons_of_neg (by simpa using hid)]
      cases hfind : keys.find? (fun key => key.keyId = next.keyId) with
      | none => rfl
      | some old =>
        by_cases hpk : old.publicKey = next.publicKey
        · simp [hid, hpk]
        · simp [hpk]

/-- The Go ring installs exactly as the C++ ring does. -/
theorem installKey_eq : installKey = Cpp.installKey := by
  funext ring key
  obtain ⟨currentKey, previous⟩ := ring
  cases currentKey with
  | none =>
    simp only [installKey, Cpp.installKey, dropPrevious_eq, Option.filter_none]
    cases previous.find? (fun item => item.keyId = key.keyId) with
    | none => rfl
    | some old => by_cases hpk : old.publicKey = key.publicKey <;> simp [hpk, Cpp.replaceCurrent]
  | some current =>
    by_cases hid : current.keyId = key.keyId
    · simp [installKey, Cpp.installKey, Option.filter, hid, Cpp.reboundKey]
    · simp only [installKey, Cpp.installKey, dropPrevious_eq, Option.filter, hid, if_false,
        decide_false, Bool.false_eq_true]
      cases previous.find? (fun item => item.keyId = key.keyId) with
      | none => rfl
      | some old =>
        by_cases hpk : old.publicKey = key.publicKey
        · simp [hpk, Cpp.replaceCurrent, maximumPreviousKeys]
        · simp [hpk]

theorem findKey_eq : findKey = Cpp.findKey := by
  have fromEnd_eq : ∀ (keyId : Bytes) (keys : List ProtocolKey),
      findKey.fromEnd keyId keys = keys.reverse.find? (fun key => key.keyId = keyId) := by
    intro keyId keys
    induction keys using List.reverseRecOn with
    | nil => rfl
    | append_singleton keys key ih =>
      rw [findKey.fromEnd, List.foldl_append, List.reverse_append, List.reverse_singleton,
        List.singleton_append]
      by_cases hk : key.keyId = keyId
      · simp [hk]
      · rw [List.find?_cons_of_neg (by simpa using hk), ← ih]
        simp [hk, findKey.fromEnd]
  funext ring keyId
  cases hcur : ring.currentKey with
  | none => simp [findKey, Cpp.findKey, hcur, fromEnd_eq]
  | some current => simp [findKey, Cpp.findKey, hcur, fromEnd_eq]

end Go

/-- **The C++ and the Go ring obey the key ring law in every run.** -/
theorem keyRing_law (attempts : List ProtocolKey) :
    KeyRing.Law Cpp.installKey Cpp.findKey (KeyRing.run Cpp.installKey attempts).1
      (KeyRing.run Cpp.installKey attempts).2 ∧
    KeyRing.Law Go.installKey Go.findKey (KeyRing.run Go.installKey attempts).1
      (KeyRing.run Go.installKey attempts).2 := by
  rw [Go.installKey_eq, Go.findKey_eq]
  exact ⟨KeyRing.law_run Cpp.installKey_promotes Cpp.findKey_eq attempts,
    KeyRing.law_run Cpp.installKey_promotes Cpp.findKey_eq attempts⟩

end SwmSdk
