import SwmSdk.KeyRing
import SwmSdk.Schedule

/-! # The Rust, Java and Python key rings

The Rust ring pushes the current key onto the history and trims it *before* it
looks the new id up there, and the Java ring removes the new id from the history
without looking at its key material.  Both rings guard the current key; what they
do to an id of the history depends on the order of these steps.  The Python ring
guards the whole history, but trims it before it takes the new id out.

`Guarded` is what an install owes: a rejected install changes nothing, and a
retained id is not rebound.  For both rings it holds along a run exactly when no
call of the run claims the id of a previous key for other key material
(`Rust.guarded_run_iff`, `Java.bound_run_iff`).  The Python ring retains what the C++
ring does until a full history gives one of its younger keys back
(`Python.sameKeys_iff`).
-/
namespace SwmSdk
open ByteText

namespace KeyRing

/-- `key` claims the id of a previous key for other key material. -/
def RebindsPrevious (ring : KeyRing) (key : ProtocolKey) : Prop :=
  ∃ old ∈ ring.previousKeys, old.keyId = key.keyId ∧ old.publicKey ≠ key.publicKey

/-- What an install owes: a rejected one leaves the ring exactly as it was, and
one that rebinds a retained id is rejected. -/
structure Guarded (install : KeyRing → ProtocolKey → KeyRing × Except Error Unit)
    (ring : KeyRing) (key : ProtocolKey) : Prop where
  unchanged : ∀ error, (install ring key).2 = .error error → (install ring key).1 = ring
  rejected : ring.Rebinds key → ∃ error, (install ring key).2 = .error error

/-- `P` holds of every call of a run, with the ring the call finds. -/
def EachCall (install : KeyRing → ProtocolKey → KeyRing × Except Error Unit)
    (P : KeyRing → ProtocolKey → Prop) (calls : List ProtocolKey) : Prop :=
  ∀ before key after, calls = before ++ key :: after → P (run install before).1 key

section Steps
variable {install : KeyRing → ProtocolKey → KeyRing × Except Error Unit}

theorem attempt_fst (state : KeyRing × List ProtocolKey) (key : ProtocolKey) :
    (attempt install state key).1 = (install state.1 key).1 := by
  unfold attempt
  split <;> simp_all

/-- If the calls of a run keep the ring well formed, every call finds it so. -/
theorem EachCall.wellFormed {P : KeyRing → ProtocolKey → Prop}
    (step : ∀ ring key, ring.WellFormed → P ring key → (install ring key).1.WellFormed)
    {calls : List ProtocolKey} (h : EachCall install P calls) (before after : List ProtocolKey)
    (hsplit : calls = before ++ after) : (run install before).1.WellFormed := by
  induction before using List.reverseRecOn generalizing after with
  | nil => exact empty_wellFormed
  | append_singleton before key ih =>
    rw [run_concat, attempt_fst]
    rw [List.append_assoc, List.singleton_append] at hsplit
    exact step _ key (ih (key :: after) hsplit) (h before key after hsplit)

theorem eachCall_nil (P : KeyRing → ProtocolKey → Prop) : EachCall install P [] := by
  intro before key after hsplit
  simp at hsplit

theorem eachCall_concat {P : KeyRing → ProtocolKey → Prop} {calls : List ProtocolKey}
    {key : ProtocolKey} : EachCall install P (calls ++ [key]) ↔
      EachCall install P calls ∧ P (run install calls).1 key :=
  Schedule.forall_split_concat

/-- Two properties that agree on well-formed rings, one of which keeps rings well
formed, hold of the same runs. -/
theorem eachCall_iff {P Q : KeyRing → ProtocolKey → Prop}
    (step : ∀ ring key, ring.WellFormed → Q ring key → (install ring key).1.WellFormed)
    (agree : ∀ ring key, ring.WellFormed → (P ring key ↔ Q ring key))
    (calls : List ProtocolKey) : EachCall install P calls ↔ EachCall install Q calls := by
  constructor
  · intro h before key after hsplit
    have hw := h.wellFormed (fun ring key hw hp => step ring key hw ((agree ring key hw).mp hp))
      before (key :: after) hsplit
    exact (agree _ key hw).mp (h before key after hsplit)
  · intro h before key after hsplit
    have hw := h.wellFormed step before (key :: after) hsplit
    exact (agree _ key hw).mpr (h before key after hsplit)

end Steps

/-! ### The history after a push -/

theorem mem_evict {maximum : Nat} {keys : List ProtocolKey} {key : ProtocolKey}
    (h : key ∈ evict maximum keys) : key ∈ keys := by
  rw [← List.mem_reverse, evict_reverse] at h
  exact List.mem_reverse.mp (List.mem_of_mem_take h)

theorem evict_length_le (maximum : Nat) (keys : List ProtocolKey) :
    (evict maximum keys).length ≤ maximum := by
  rw [← List.length_reverse, evict_reverse]
  exact List.length_take_le _ _

theorem evict_sublist (maximum : Nat) (keys : List ProtocolKey) :
    (evict maximum keys).Sublist keys := by
  rw [← List.reverse_sublist, evict_reverse]
  exact List.take_sublist _ _

/-- The key pushed last is never the one that is trimmed. -/
theorem mem_evict_concat {maximum : Nat} (hmax : 0 < maximum) (keys : List ProtocolKey)
    (key : ProtocolKey) : key ∈ evict maximum (keys ++ [key]) := by
  rw [← List.mem_reverse, evict_reverse, List.reverse_append, List.reverse_singleton,
    List.singleton_append]
  obtain ⟨n, rfl⟩ := Nat.exists_eq_succ_of_ne_zero (Nat.pos_iff_ne_zero.mp hmax)
  simp

theorem WellFormed.current_not_previous {current : ProtocolKey} {previous : List ProtocolKey}
    (h : KeyRing.WellFormed ⟨some current, previous⟩) {old : ProtocolKey} (ho : old ∈ previous) :
    old.keyId ≠ current.keyId := by
  have hd := h.distinct
  simp only [retained, Option.toList_some, List.singleton_append, List.map_cons,
    List.nodup_cons] at hd
  exact fun he => hd.1 (List.mem_map.mpr ⟨old, List.mem_reverse.mpr ho, he⟩)

theorem WellFormed.previous_nil {previous : List ProtocolKey}
    (h : KeyRing.WellFormed ⟨none, previous⟩) : previous = [] := by
  by_contra hp
  simpa using h.current hp

/-- A current key and a trimmed history without its id make a well-formed ring. -/
theorem wellFormed_mk {key : ProtocolKey} {previous : List ProtocolKey}
    (hd : (previous.map ProtocolKey.keyId).Nodup) (hlen : previous.length ≤ 4)
    (hk : ∀ old ∈ previous, old.keyId ≠ key.keyId) :
    KeyRing.WellFormed ⟨some key, previous⟩ := by
  refine ⟨?_, hlen, fun _ => rfl⟩
  simp only [retained, Option.toList_some, List.singleton_append, List.map_cons, List.nodup_cons,
    List.map_reverse, List.mem_reverse, List.nodup_reverse]
  exact ⟨fun hm => by obtain ⟨old, ho, he⟩ := List.mem_map.mp hm; exact hk old ho he, hd⟩

/-- The history with the current key pushed onto it has one record for each id. -/
theorem WellFormed.pushed_nodup {current : ProtocolKey} {previous : List ProtocolKey}
    (h : KeyRing.WellFormed ⟨some current, previous⟩) :
    ((previous ++ [current]).map ProtocolKey.keyId).Nodup := by
  have hd := h.distinct
  simp only [retained, Option.toList_some, List.singleton_append] at hd
  rw [← List.nodup_reverse, ← List.map_reverse, List.reverse_append]
  exact hd

theorem RebindsPrevious.rebinds {ring : KeyRing} {key : ProtocolKey}
    (h : ring.RebindsPrevious key) : ring.Rebinds key := by
  obtain ⟨old, ho, he, hne⟩ := h
  exact ⟨old, List.mem_append_right _ (List.mem_reverse.mpr ho), he, hne⟩

/-- A rebinding is one of the current key or of the history. -/
theorem rebinds_mk {current key : ProtocolKey} {previous : List ProtocolKey} :
    KeyRing.Rebinds ⟨some current, previous⟩ key ↔
      (current.keyId = key.keyId ∧ current.publicKey ≠ key.publicKey) ∨
        KeyRing.RebindsPrevious ⟨some current, previous⟩ key := by
  constructor
  · rintro ⟨old, ho, he, hne⟩
    rcases List.mem_cons.mp ho with rfl | ho
    · exact .inl ⟨he, hne⟩
    · exact .inr ⟨old, List.mem_reverse.mp ho, he, hne⟩
  · rintro (⟨he, hne⟩ | hprevious)
    · exact ⟨current, List.mem_cons_self .., he, hne⟩
    · exact hprevious.rebinds

/-- No key of the history has the id of the current one. -/
theorem WellFormed.not_rebindsPrevious {current key : ProtocolKey} {previous : List ProtocolKey}
    (h : KeyRing.WellFormed ⟨some current, previous⟩) (hid : current.keyId = key.keyId) :
    ¬ KeyRing.RebindsPrevious ⟨some current, previous⟩ key := by
  rintro ⟨old, ho, he, -⟩
  exact h.current_not_previous ho (he.trans hid.symm)

/-- A key with a one-byte id and one byte of key material. -/
def sampleKey (keyId publicKey : UInt8) : ProtocolKey := ⟨[keyId], [publicKey], 1, 2⟩

end KeyRing

/-! ## Rust -/

namespace Rust
open KeyRing

/-- What `install_key` returns for a rebinding; it carries no service code. -/
def reboundKey : Error where
  kind := .integrity
  statusCode := 0
  serviceCode := []
  message := ascii "online key id was rebound to different key material"

/-- The second half of `install_key`: the new id is looked up in the history as
the first half left it. -/
def settle (ring : KeyRing) (next : ProtocolKey) : KeyRing × Except Error Unit :=
  match ring.previousKeys.find? (fun key => key.keyId = next.keyId) with
  | some old =>
      if old.publicKey ≠ next.publicKey then (ring, .error reboundKey)
      else (⟨some next, ring.previousKeys.eraseP (fun key => key.keyId = next.keyId)⟩, .ok ())
  | none => ({ ring with currentKey := some next }, .ok ())

/-- `install_key`.  The current key is pushed onto the history, and the history
trimmed, before the new id is looked up there. -/
def installKey (ring : KeyRing) (next : ProtocolKey) : KeyRing × Except Error Unit :=
  match ring.currentKey with
  | some existing =>
      if existing.keyId = next.keyId ∧ existing.publicKey ≠ next.publicKey then
        (ring, .error reboundKey)
      else if existing.keyId ≠ next.keyId then
        settle { ring with previousKeys := evict 4 (ring.previousKeys ++ [existing]) } next
      else settle ring next
  | none => settle ring next

/-- The lookup finds the one record of the new id, or none. -/
theorem settle_cases {ring : KeyRing} (hd : (ring.previousKeys.map ProtocolKey.keyId).Nodup)
    (next : ProtocolKey) :
    (ring.RebindsPrevious next ∧ settle ring next = (ring, .error reboundKey)) ∨
    (¬ ring.RebindsPrevious next ∧ settle ring next =
      (⟨some next, ring.previousKeys.filter (fun key => key.keyId ≠ next.keyId)⟩, .ok ())) := by
  unfold settle
  cases hfind : ring.previousKeys.find? (fun key => key.keyId = next.keyId) with
  | some old =>
    have hmem := List.mem_of_find?_eq_some hfind
    have hid : old.keyId = next.keyId := by simpa using List.find?_some hfind
    by_cases hpk : old.publicKey = next.publicKey
    · refine .inr ⟨?_, by simp only [hpk, ne_eq, not_true, if_false, eraseP_eq_filter hd]⟩
      rintro ⟨other, ho, he, hne⟩
      have hsame : other = old := List.inj_on_of_nodup_map hd ho hmem (he.trans hid.symm)
      exact hne (hsame ▸ hpk)
    · exact .inl ⟨⟨old, hmem, hid, hpk⟩, by simp [hpk]⟩
  | none =>
    have hnone : ∀ old ∈ ring.previousKeys, old.keyId ≠ next.keyId := by
      simpa using List.find?_eq_none.mp hfind
    refine .inr ⟨fun ⟨old, ho, he, _⟩ => hnone old ho he, ?_⟩
    rw [List.filter_eq_self.mpr (fun old ho => by simpa using hnone old ho)]

/-- **What `install_key` does to a well-formed ring.**  The current key is
guarded.  For any other id the history is pushed and trimmed first, and what is
left of it decides. -/
theorem installKey_cases {ring : KeyRing} (hw : ring.WellFormed) (next : ProtocolKey) :
    (¬ ring.RebindsPrevious next ∧ installKey ring next = (ring, .error reboundKey)) ∨
    (¬ ring.Rebinds next ∧ ∃ previous, installKey ring next = (⟨some next, previous⟩, .ok ()) ∧
      KeyRing.WellFormed ⟨some next, previous⟩) ∨
    (ring.RebindsPrevious next ∧ ∃ current previous, ring = ⟨some current, previous⟩ ∧
      installKey ring next =
        settle ⟨some current, evict 4 (previous ++ [current])⟩ next) := by
  obtain ⟨currentKey, previous⟩ := ring
  cases currentKey with
  | none =>
    obtain rfl := hw.previous_nil
    refine .inr (.inl ⟨by simp [Rebinds, retained], [], by simp [installKey, settle], ?_⟩)
    exact wellFormed_mk (by simp) (by simp) (by simp)
  | some current =>
    by_cases hid : current.keyId = next.keyId
    · have other : ∀ old ∈ previous, old.keyId ≠ next.keyId := fun old ho he =>
        hw.current_not_previous ho (he.trans hid.symm)
      -- the current key once more, or its id with another key
      by_cases hpk : current.publicKey = next.publicKey
      · refine .inr (.inl ⟨?_, previous, ?_, ?_⟩)
        · rw [rebinds_mk]
          rintro (⟨-, hne⟩ | hreb)
          · exact hne hpk
          · exact hw.not_rebindsPrevious hid hreb
        · have hfind : previous.find? (fun key => key.keyId = next.keyId) = none := by
            simpa using other
          simp [installKey, settle, hid, hpk, hfind]
        · exact wellFormed_mk hw.previous_nodup hw.bounded other
      · exact .inl ⟨hw.not_rebindsPrevious hid, by simp [installKey, hid, hpk]⟩
    · have hinst : installKey ⟨some current, previous⟩ next =
          settle ⟨some current, evict 4 (previous ++ [current])⟩ next := by
        simp [installKey, hid]
      by_cases hreb : KeyRing.RebindsPrevious ⟨some current, previous⟩ next
      · exact .inr (.inr ⟨hreb, current, previous, rfl, hinst⟩)
      · have hd := (hw.pushed_nodup).sublist ((evict_sublist 4 (previous ++ [current])).map _)
        have keep : ¬ KeyRing.RebindsPrevious ⟨some current, evict 4 (previous ++ [current])⟩
            next := by
          rintro ⟨old, ho, he, hne⟩
          rcases List.mem_append.mp (mem_evict ho) with ho | ho
          · exact hreb ⟨old, ho, he, hne⟩
          · exact hid (List.mem_singleton.mp ho ▸ he)
        obtain ⟨hclash, -⟩ | ⟨-, hsettle⟩ :=
          @settle_cases ⟨some current, evict 4 (previous ++ [current])⟩ hd next
        · exact absurd hclash keep
        · refine .inr (.inl ⟨?_, _, hinst.trans hsettle, ?_⟩)
          · rw [rebinds_mk]
            rintro (⟨he, -⟩ | hprevious)
            · exact hid he
            · exact hreb hprevious
          · refine wellFormed_mk (hd.sublist (List.filter_sublist.map _)) ?_ (by simp)
            exact Nat.le_trans (List.length_filter_le _ _) (evict_length_le _ _)

theorem installKey_wellFormed {ring : KeyRing} {next : ProtocolKey} (hw : ring.WellFormed)
    (h : ¬ ring.RebindsPrevious next) : (installKey ring next).1.WellFormed := by
  rcases installKey_cases hw next with ⟨-, he⟩ | ⟨-, previous, he, hwf⟩ | ⟨hreb, -⟩
  · rw [he]; exact hw
  · rw [he]; exact hwf
  · exact absurd hreb h

/-- **One call is guarded exactly when it does not rebind a previous key.**  A
rebinding of the oldest key of a full ring is accepted, since that key was
trimmed before the check; any other is rejected after the current key was pushed
onto the history. -/
theorem guarded_iff {ring : KeyRing} (hw : ring.WellFormed) (next : ProtocolKey) :
    Guarded installKey ring next ↔ ¬ ring.RebindsPrevious next := by
  rcases installKey_cases hw next with ⟨hno, he⟩ | ⟨hno, previous, he, -⟩ |
      ⟨hreb, current, previous, rfl, he⟩
  · refine ⟨fun _ => hno, fun _ => ⟨fun error _ => by rw [he], fun _ => ⟨reboundKey, by rw [he]⟩⟩⟩
  · refine ⟨fun _ => ?_, fun _ => ⟨fun error herr => ?_, fun hreb => absurd hreb hno⟩⟩
    · exact fun hprevious => hno hprevious.rebinds
    · rw [he] at herr
      cases herr
  · refine ⟨fun hg => ?_, fun hn => absurd hreb hn⟩
    exfalso
    have hd := (hw.pushed_nodup).sublist ((evict_sublist 4 (previous ++ [current])).map _)
    obtain ⟨-, hsettle⟩ | ⟨-, hsettle⟩ :=
      @settle_cases ⟨some current, evict 4 (previous ++ [current])⟩ hd next
    · -- rejected, but the history already holds the current key
      have hsame := hg.unchanged reboundKey (by rw [he, hsettle])
      rw [he, hsettle] at hsame
      have hpushed : evict 4 (previous ++ [current]) = previous :=
        congrArg KeyRing.previousKeys hsame
      have hmem := mem_evict_concat (Nat.succ_pos 3) previous current
      rw [hpushed] at hmem
      exact hw.current_not_previous hmem rfl
    · -- the clashing key was the oldest one and has been trimmed away
      obtain ⟨error, herr⟩ := hg.rejected hreb.rebinds
      rw [he, hsettle] at herr
      cases herr

/-- **Along a run, every call is guarded exactly when no call rebinds a previous
key.** -/
theorem guarded_run_iff (calls : List ProtocolKey) :
    EachCall installKey (Guarded installKey) calls ↔
      EachCall installKey (fun ring key => ¬ ring.RebindsPrevious key) calls :=
  eachCall_iff (fun _ _ hw h => installKey_wellFormed hw h)
    (fun _ key hw => guarded_iff hw key) calls

/-- The ring is full and its oldest id is rebound: the sixth call is accepted. -/
theorem rebinding_oldest_accepted :
    ¬ EachCall installKey (Guarded installKey) [sampleKey 1 1, sampleKey 2 1, sampleKey 3 1,
      sampleKey 4 1, sampleKey 5 1, sampleKey 1 9] := by
  intro h
  have hg := h [sampleKey 1 1, sampleKey 2 1, sampleKey 3 1, sampleKey 4 1, sampleKey 5 1]
    (sampleKey 1 9) [] rfl
  obtain ⟨error, he⟩ := hg.rejected ⟨sampleKey 1 1, by decide, rfl, by decide⟩
  cases he

end Rust

/-! ## Java -/

namespace Java
open KeyRing

/-- What `installKey` throws for a rebinding of the current key. -/
def reboundKey : Error := rebound "online key id was rebound"

/-- `findKey`.  The deque holds the newest key first, so it is searched from the
end of `previousKeys`. -/
def findKey (ring : KeyRing) (keyId : Bytes) : Option ProtocolKey :=
  match ring.currentKey with
  | some current =>
      if current.keyId = keyId then some current
      else ring.previousKeys.reverse.find? (fun key => key.keyId = keyId)
  | none => ring.previousKeys.reverse.find? (fun key => key.keyId = keyId)

/-- `installKey`.  Only the current key is tested for a rebinding; the new id is
removed from the history whatever its key material is there. -/
def installKey (ring : KeyRing) (key : ProtocolKey) : KeyRing × Except Error Unit :=
  match ring.currentKey with
  | some current =>
      if current.keyId = key.keyId then
        if current.publicKey ≠ key.publicKey then (ring, .error reboundKey)
        else ({ ring with currentKey := some key }, .ok ())
      else
        (⟨some key, evict 4 (ring.previousKeys.filter (fun value => value.keyId ≠ key.keyId) ++
          [current])⟩, .ok ())
  | none => ({ ring with currentKey := some key }, .ok ())

/-- What an install owes to the signatures verified so far: a rebinding of a
retained id is rejected and changes nothing, and an id that stays retained keeps
the public key `findKey` gave for it. -/
structure Bound (ring : KeyRing) (key : ProtocolKey) : Prop where
  rejected : ring.Rebinds key → ∃ error, installKey ring key = (ring, .error error)
  stable : ∀ keyId old new, findKey ring keyId = some old →
    findKey (installKey ring key).1 keyId = some new → old.publicKey = new.publicKey

theorem findKey_eq (ring : KeyRing) (keyId : Bytes) :
    findKey ring keyId = ring.retained.find? (fun key => key.keyId = keyId) := by
  unfold findKey retained
  cases hc : ring.currentKey with
  | none => rfl
  | some current =>
    by_cases hk : current.keyId = keyId
    · simp [hk]
    · simp [hk]

/-- **What `installKey` does to a well-formed ring.**  It rejects a rebinding of
the current key and accepts everything else; the records kept are old ones of
other ids, and the new one. -/
theorem installKey_cases {ring : KeyRing} (hw : ring.WellFormed) (key : ProtocolKey) :
    (¬ ring.RebindsPrevious key ∧ installKey ring key = (ring, .error reboundKey)) ∨
    ∃ previous, installKey ring key = (⟨some key, previous⟩, .ok ()) ∧
      KeyRing.WellFormed ⟨some key, previous⟩ ∧ (∀ old ∈ previous, old ∈ ring.retained) ∧
      (ring.Rebinds key → ring.RebindsPrevious key) := by
  obtain ⟨currentKey, previous⟩ := ring
  cases currentKey with
  | none =>
    obtain rfl := hw.previous_nil
    refine .inr ⟨[], rfl, wellFormed_mk (by simp) (by simp) (by simp), by simp, ?_⟩
    rintro ⟨old, ho, -⟩
    simp [retained] at ho
  | some current =>
    by_cases hid : current.keyId = key.keyId
    · have other : ∀ old ∈ previous, old.keyId ≠ key.keyId := fun old ho he =>
        hw.current_not_previous ho (he.trans hid.symm)
      by_cases hpk : current.publicKey = key.publicKey
      · refine .inr ⟨previous, by simp [installKey, hid, hpk], ?_, ?_, ?_⟩
        · exact wellFormed_mk hw.previous_nodup hw.bounded other
        · exact fun old ho => List.mem_append_right _ (List.mem_reverse.mpr ho)
        · rw [rebinds_mk]
          rintro (⟨-, hne⟩ | hprevious)
          · exact absurd hpk hne
          · exact hprevious
      · exact .inl ⟨hw.not_rebindsPrevious hid, by simp [installKey, hid, hpk]⟩
    · refine .inr ⟨_, by simp only [installKey, hid, if_false]; rfl, ?_, ?_, ?_⟩
      · refine wellFormed_mk ?_ (evict_length_le _ _) ?_
        · refine hw.pushed_nodup.sublist (((evict_sublist _ _).trans ?_).map _)
          exact List.filter_sublist.append (List.Sublist.refl _)
        · intro old ho he
          rcases List.mem_append.mp (mem_evict ho) with ho | ho
          · simp [he] at ho
          · exact hid (List.mem_singleton.mp ho ▸ he)
      · intro old ho
        rcases List.mem_append.mp (mem_evict ho) with ho | ho
        · exact List.mem_append_right _ (List.mem_reverse.mpr (List.mem_of_mem_filter ho))
        · rw [List.mem_singleton.mp ho]
          exact List.mem_cons_self ..
      · rw [rebinds_mk]
        rintro (⟨he, -⟩ | hprevious)
        · exact absurd he hid
        · exact hprevious

theorem installKey_wellFormed {ring : KeyRing} (hw : ring.WellFormed) (key : ProtocolKey) :
    (installKey ring key).1.WellFormed := by
  rcases installKey_cases hw key with ⟨-, he⟩ | ⟨previous, he, hwf, -⟩
  · rw [he]; exact hw
  · rw [he]; exact hwf

/-- In a well-formed ring an id has one record. -/
theorem findKey_unique {ring : KeyRing} (hw : ring.WellFormed) {keyId : Bytes}
    {key other : ProtocolKey} (h : findKey ring keyId = some key) (ho : other ∈ ring.retained)
    (hid : other.keyId = keyId) : other = key := by
  rw [findKey_eq] at h
  have hkey : key.keyId = keyId := by simpa using List.find?_some h
  exact List.inj_on_of_nodup_map hw.distinct ho (List.mem_of_find?_eq_some h)
    (hid.trans hkey.symm)

/-- **One call is bound exactly when it does not rebind a previous key**: such a
call is always accepted. -/
theorem bound_iff {ring : KeyRing} (hw : ring.WellFormed) (key : ProtocolKey) :
    Bound ring key ↔ ¬ ring.RebindsPrevious key := by
  rcases installKey_cases hw key with ⟨hno, he⟩ | ⟨previous, he, -, hold, hreb⟩
  · refine ⟨fun _ => hno, fun _ => ⟨fun _ => ⟨reboundKey, he⟩, ?_⟩⟩
    intro keyId old new ho hn
    rw [he, ho] at hn
    cases hn
    rfl
  · constructor
    · rintro hb ⟨old, ho, hid, hne⟩
      obtain ⟨error, herr⟩ := hb.rejected
        ⟨old, List.mem_append_right _ (List.mem_reverse.mpr ho), hid, hne⟩
      rw [he] at herr
      cases herr
    · intro hn
      refine ⟨fun h => absurd (hreb h) hn, fun keyId old new ho hnew => ?_⟩
      rw [he, findKey_eq] at hnew
      have hid : new.keyId = keyId := by simpa using List.find?_some hnew
      rcases List.mem_cons.mp (List.mem_of_find?_eq_some hnew) with rfl | hmem
      · by_contra hne
        rw [findKey_eq] at ho
        have holdId : old.keyId = keyId := by simpa using List.find?_some ho
        exact hn (hreb ⟨old, List.mem_of_find?_eq_some ho, holdId.trans hid.symm, hne⟩)
      · rw [findKey_unique hw ho (hold new (List.mem_reverse.mp hmem)) hid]

/-- **Along a run, every call is bound exactly when no call rebinds a previous
key.** -/
theorem bound_run_iff (calls : List ProtocolKey) :
    EachCall installKey Bound calls ↔
      EachCall installKey (fun ring key => ¬ ring.RebindsPrevious key) calls :=
  eachCall_iff (fun _ key hw _ => installKey_wellFormed hw key)
    (fun _ key hw => bound_iff hw key) calls

/-- The id of the previous key comes back with other key material and is taken. -/
theorem rebinding_previous_accepted :
    ¬ EachCall installKey Bound [sampleKey 1 1, sampleKey 2 1, sampleKey 1 9] := by
  intro h
  have hb := h [sampleKey 1 1, sampleKey 2 1] (sampleKey 1 9) [] rfl
  have hkey := hb.stable [1] (sampleKey 1 1) (sampleKey 1 9) (by decide) (by decide)
  exact absurd hkey (by decide)

end Java

/-! ## Two rings along a run -/

namespace KeyRing

/-- The ring of one SDK: how it installs a key, and how it finds one. -/
structure Port where
  install : KeyRing → ProtocolKey → KeyRing × Except Error Unit
  findKey : KeyRing → Bytes → Option ProtocolKey

/-- The call is rejected. -/
def Port.Rejects (port : Port) (ring : KeyRing) (key : ProtocolKey) : Prop :=
  ∃ error, (port.install ring key).2 = .error error

/-- The public key and the refresh time of the key of an id. -/
def Port.finds (port : Port) (ring : KeyRing) (keyId : Bytes) : Option (Bytes × Int) :=
  (port.findKey ring keyId).map fun key => (key.publicKey, key.refreshAfter)

/-- Each call of the run is rejected by both rings or by neither, and after it both find the
same keys. -/
def Port.Agrees (port other : Port) (calls : List ProtocolKey) : Prop :=
  ∀ before key after, calls = before ++ key :: after →
    (port.Rejects (run port.install before).1 key ↔
      other.Rejects (run other.install before).1 key) ∧
    ∀ keyId, port.finds (run port.install (before ++ [key])).1 keyId =
      other.finds (run other.install (before ++ [key])).1 keyId

def cpp : Port := ⟨Cpp.installKey, Cpp.findKey⟩

/-- One call does to a well-formed ring what the C++ ring does. -/
def Port.Matches (port : Port) (ring : KeyRing) (key : ProtocolKey) : Prop :=
  (port.install ring key).1 = (Cpp.installKey ring key).1 ∧
    (port.Rejects ring key ↔ cpp.Rejects ring key)

theorem cpp_wellFormed (calls : List ProtocolKey) : (run Cpp.installKey calls).1.WellFormed :=
  (tracks_run Cpp.installKey_promotes calls).wellFormed

section Runs
variable {port : Port} {P : KeyRing → ProtocolKey → Prop}

theorem Port.run_eq (hmatch : ∀ ring key, ring.WellFormed → P ring key → port.Matches ring key)
    {calls : List ProtocolKey} (h : EachCall Cpp.installKey P calls) :
    (run port.install calls).1 = (run Cpp.installKey calls).1 := by
  induction calls using List.reverseRecOn with
  | nil => rfl
  | append_singleton calls key ih =>
    obtain ⟨hbefore, hkey⟩ := eachCall_concat.mp h
    rw [run_concat, run_concat, attempt_fst, attempt_fst, ih hbefore]
    exact (hmatch _ key (cpp_wellFormed calls) hkey).1

/-- The calls before a call of a run are a run with the same property. -/
theorem EachCall.upTo {calls before after : List ProtocolKey} {key : ProtocolKey}
    (h : EachCall Cpp.installKey P calls) (hsplit : calls = before ++ key :: after) :
    EachCall Cpp.installKey P (before ++ [key]) := by
  intro first next rest hfirst
  exact h first next (rest ++ after) (by rw [hsplit, List.append_cons, hfirst]; simp)

/-- **A ring whose calls match the C++ ring agrees with it along the run.** -/
theorem Port.agrees (hmatch : ∀ ring key, ring.WellFormed → P ring key → port.Matches ring key)
    (hfind : port.findKey = Cpp.findKey) {calls : List ProtocolKey}
    (h : EachCall Cpp.installKey P calls) : port.Agrees cpp calls := by
  intro before key after hsplit
  have hthere := h.upTo hsplit
  obtain ⟨hbefore, hkey⟩ := eachCall_concat.mp hthere
  constructor
  · rw [Port.run_eq hmatch hbefore]
    exact (hmatch _ key (cpp_wellFormed before) hkey).2
  · intro keyId
    rw [Port.run_eq hmatch hthere, Port.finds, hfind]
    rfl

end Runs

theorem Port.matches_of_eq {port : Port} (h : port.install = Cpp.installKey) (ring : KeyRing)
    (key : ProtocolKey) : port.Matches ring key := by
  unfold Port.Matches Port.Rejects
  rw [h]
  exact ⟨rfl, Iff.rfl⟩

theorem Port.matches_of_error {port : Port} {ring next : KeyRing} {key : ProtocolKey}
    {error other : Error} (h : port.install ring key = (next, .error error))
    (hcpp : Cpp.installKey ring key = (next, .error other)) : port.Matches ring key :=
  ⟨by rw [h, hcpp], iff_of_true ⟨error, by rw [h]⟩ ⟨other, congrArg Prod.snd hcpp⟩⟩

theorem Port.matches_of_ok {port : Port} {ring next : KeyRing} {key : ProtocolKey}
    (h : port.install ring key = (next, .ok ()))
    (hcpp : Cpp.installKey ring key = (next, .ok ())) : port.Matches ring key := by
  have accepts : ∀ {other : Port}, other.install ring key = (next, .ok ()) →
      ¬ other.Rejects ring key := by
    rintro other hother ⟨error, herror⟩
    rw [hother] at herror
    cases herror
  exact ⟨by rw [h, hcpp], iff_of_false (accepts h) (@accepts cpp hcpp)⟩

end KeyRing

/-! ## Python -/

namespace Python
open KeyRing

/-- What `_install_key` raises; it carries no service code. -/
def reboundKey : Error where
  kind := .integrity
  statusCode := 0
  serviceCode := []
  message := ascii "online key id was rebound to different key material"

/-- `_find_key`. -/
def findKey (ring : KeyRing) (keyId : Bytes) : Option ProtocolKey :=
  match ring.currentKey with
  | some current =>
      if current.keyId = keyId then some current
      else ring.previousKeys.reverse.find? (fun key => key.keyId = keyId)
  | none => ring.previousKeys.reverse.find? (fun key => key.keyId = keyId)

/-- `keys[-4:]`. -/
def lastFour (keys : List ProtocolKey) : List ProtocolKey := keys.drop (keys.length - 4)

/-- `_install_key`.  The current key is pushed and the history trimmed before the new id is
taken out of it. -/
def installKey (ring : KeyRing) (next : ProtocolKey) : KeyRing × Except Error Unit :=
  match ring.currentKey.filter (fun current => current.keyId = next.keyId) with
  | some current =>
      if current.publicKey ≠ next.publicKey then (ring, .error reboundKey)
      else ({ ring with currentKey := some next }, .ok ())
  | none =>
      if ring.previousKeys.any fun key =>
          key.keyId = next.keyId ∧ key.publicKey ≠ next.publicKey then
        (ring, .error reboundKey)
      else
        let pushed := match ring.currentKey with
          | some current => lastFour (ring.previousKeys ++ [current])
          | none => ring.previousKeys
        (⟨some next, pushed.filter fun key => key.keyId ≠ next.keyId⟩, .ok ())

end Python

def KeyRing.python : KeyRing.Port := ⟨Python.installKey, Python.findKey⟩

namespace Python
open KeyRing

/-- The history is full, and a key of it other than the oldest is promoted again. -/
def PromotesFromFull (ring : KeyRing) (key : ProtocolKey) : Prop :=
  ∃ oldest rest, ring.previousKeys = oldest :: rest ∧ rest.length = 3 ∧
    ∃ old ∈ rest, old.keyId = key.keyId ∧ old.publicKey = key.publicKey

theorem lastFour_eq (keys : List ProtocolKey) : lastFour keys = evict 4 keys := by
  rw [← List.reverse_inj, evict_reverse, lastFour, List.take_reverse]

theorem findKey_eq (ring : KeyRing) (keyId : Bytes) :
    findKey ring keyId = Cpp.findKey ring keyId := rfl

/-- The history loop finds a rebinding exactly when the C++ lookup does. -/
theorem any_rebound {keys : List ProtocolKey} {next : ProtocolKey} :
    (keys.any fun key => key.keyId = next.keyId ∧ key.publicKey ≠ next.publicKey) = true ↔
      ∃ old ∈ keys, old.keyId = next.keyId ∧ old.publicKey ≠ next.publicKey := by
  simp

theorem evict_of_le {maximum : Nat} {keys : List ProtocolKey} (h : keys.length ≤ maximum) :
    evict maximum keys = keys := by
  cases keys with
  | nil => rfl
  | cons key keys => exact if_neg (Nat.not_lt.mpr h)

/-- A full history loses its oldest key. -/
theorem evict_full {oldest current : ProtocolKey} {rest : List ProtocolKey}
    (h : rest.length = 3) : evict 4 (oldest :: rest ++ [current]) = rest ++ [current] := by
  rw [List.cons_append, evict, if_pos (by simp [h]), evict_of_le (by simp [h])]

/-- Taking an id out of a history after it is trimmed, or before. -/
theorem evict_filter {previous : List ProtocolKey} {current next : ProtocolKey}
    (hlength : previous.length ≤ 4) (hcurrent : current.keyId ≠ next.keyId)
    (hkept : ∀ oldest rest, previous = oldest :: rest → rest.length = 3 →
      ∀ old ∈ rest, old.keyId ≠ next.keyId) :
    (evict 4 (previous ++ [current])).filter (fun key => key.keyId ≠ next.keyId) =
      evict 4 (previous.filter (fun key => key.keyId ≠ next.keyId) ++ [current]) := by
  have hfilter : ∀ keys : List ProtocolKey, (keys ++ [current]).filter
      (fun key => key.keyId ≠ next.keyId) =
        keys.filter (fun key => key.keyId ≠ next.keyId) ++ [current] := by
    intro keys
    rw [List.filter_append, List.filter_singleton, decide_eq_true hcurrent, cond_true]
  by_cases hfull : previous.length ≤ 3
  · have hle := List.length_filter_le (fun key => decide (key.keyId ≠ next.keyId)) previous
    rw [evict_of_le (by simp; omega), hfilter, evict_of_le (by simp at hle ⊢; omega)]
  · obtain ⟨oldest, rest, rfl⟩ := List.exists_cons_of_length_pos (show 0 < previous.length by omega)
    have hrest : rest.length = 3 := by
      rw [List.length_cons] at hlength hfull
      omega
    have hself : rest.filter (fun key => key.keyId ≠ next.keyId) = rest :=
      List.filter_eq_self.mpr fun old ho => by simpa using hkept oldest rest rfl hrest old ho
    rw [evict_full hrest, hfilter, hself]
    by_cases hold : oldest.keyId = next.keyId
    · rw [List.filter_cons_of_neg (by simpa using hold), hself, evict_of_le (by simp [hrest])]
    · rw [List.filter_cons_of_pos (by simpa using hold), hself, evict_full hrest]

/-- Both rings find a rebinding of a key of the history, or both accept. -/
theorem install_cases {current key : ProtocolKey} {previous : List ProtocolKey}
    (hw : KeyRing.WellFormed ⟨some current, previous⟩) (hid : current.keyId ≠ key.keyId) :
    (KeyRing.RebindsPrevious ⟨some current, previous⟩ key ∧
      installKey ⟨some current, previous⟩ key = (⟨some current, previous⟩, .error reboundKey) ∧
      Cpp.installKey ⟨some current, previous⟩ key =
        (⟨some current, previous⟩, .error Cpp.reboundKey)) ∨
    (¬ KeyRing.RebindsPrevious ⟨some current, previous⟩ key ∧
      installKey ⟨some current, previous⟩ key =
        (⟨some key, (evict 4 (previous ++ [current])).filter
          fun item => item.keyId ≠ key.keyId⟩, .ok ()) ∧
      Cpp.installKey ⟨some current, previous⟩ key =
        (⟨some key, evict 4 (previous.filter (fun item => item.keyId ≠ key.keyId) ++
          [current])⟩, .ok ())) := by
  have hfilter :
      (some current).filter (fun current => decide (current.keyId = key.keyId)) = none := by
    simp [Option.filter, hid]
  by_cases hreb : KeyRing.RebindsPrevious ⟨some current, previous⟩ key
  · refine .inl ⟨hreb, ?_, ?_⟩
    · simp only [installKey, hfilter, any_rebound.mpr hreb, if_true]
    · obtain ⟨old, ho, hold, hne⟩ := hreb
      cases hfind : previous.find? (fun item => item.keyId = key.keyId) with
      | none => exact absurd hold (by simpa using List.find?_eq_none.mp hfind old ho)
      | some other =>
        have hother : other.keyId = key.keyId := by simpa using List.find?_some hfind
        obtain rfl : other = old := List.inj_on_of_nodup_map hw.previous_nodup
          (List.mem_of_find?_eq_some hfind) ho (hother.trans hold.symm)
        simp only [Cpp.installKey, hfilter, hfind, if_pos hne]
  · refine .inr ⟨hreb, ?_, ?_⟩
    · simp only [installKey, hfilter, if_neg (fun h => hreb (any_rebound.mp h)), lastFour_eq]
    · simp only [Cpp.installKey, hfilter]
      cases hfind : previous.find? (fun item => item.keyId = key.keyId) with
      | some old =>
        have hmem := List.mem_of_find?_eq_some hfind
        have hold : old.keyId = key.keyId := by simpa using List.find?_some hfind
        have hpk : old.publicKey = key.publicKey := by
          by_contra hne
          exact hreb ⟨old, hmem, hold, hne⟩
        simp only [hpk, ne_eq, not_true, if_false, eraseP_eq_filter hw.previous_nodup]
        rfl
      | none =>
        have hnone : ∀ old ∈ previous, old.keyId ≠ key.keyId := by
          simpa using List.find?_eq_none.mp hfind
        rw [List.filter_eq_self.mpr (fun old ho => by simpa using hnone old ho)]
        rfl

/-- **What `_install_key` does to a well-formed ring**: what the C++ ring does, unless it promotes
a key from a full history. -/
theorem installKey_matches {ring : KeyRing} (hw : ring.WellFormed) {key : ProtocolKey}
    (h : ¬ PromotesFromFull ring key) : python.Matches ring key := by
  obtain ⟨currentKey, previous⟩ := ring
  cases currentKey with
  | none =>
    obtain rfl := hw.previous_nil
    exact Port.matches_of_ok rfl rfl
  | some current =>
    by_cases hid : current.keyId = key.keyId
    · by_cases hpk : current.publicKey = key.publicKey
      · simp [Port.Matches, Port.Rejects, python, cpp, installKey, Cpp.installKey, Option.filter,
          hid, hpk]
      · simp [Port.Matches, Port.Rejects, python, cpp, installKey, Cpp.installKey, Option.filter,
          hid, hpk]
    · rcases install_cases hw hid with ⟨-, hpython, hcpp⟩ | ⟨hreb, hpython, hcpp⟩
      · exact Port.matches_of_error hpython hcpp
      · refine Port.matches_of_ok (hpython.trans ?_) hcpp
        rw [evict_filter hw.bounded hid]
        rintro oldest rest rfl hrest old ho hold
        by_cases hpk : old.publicKey = key.publicKey
        · exact h ⟨oldest, rest, rfl, hrest, old, ho, hold, hpk⟩
        · exact hreb ⟨old, List.mem_cons_of_mem _ ho, hold, hpk⟩

/-- Then it also loses the oldest key. -/
theorem installKey_loses {ring : KeyRing} (hw : ring.WellFormed) {key : ProtocolKey}
    (h : PromotesFromFull ring key) :
    ∃ keyId, findKey (installKey ring key).1 keyId = none ∧
      (Cpp.findKey (Cpp.installKey ring key).1 keyId).isSome := by
  obtain ⟨currentKey, previous⟩ := ring
  obtain ⟨oldest, rest, rfl, hrest, old, ho, hold, hpk⟩ := h
  obtain ⟨current, rfl⟩ := Option.isSome_iff_exists.mp (hw.current (List.cons_ne_nil _ _))
  have hother : ∀ item ∈ rest, item.keyId ≠ oldest.keyId := by
    have hd := hw.previous_nodup
    rw [List.map_cons, List.nodup_cons] at hd
    intro item hitem heq
    exact hd.1 (List.mem_map.mpr ⟨item, hitem, heq⟩)
  have hapart : ∀ item ∈ oldest :: rest, item.keyId ≠ current.keyId := fun item hitem =>
    hw.current_not_previous hitem
  have hid : current.keyId ≠ key.keyId := by
    rw [← hold]
    exact (hapart old (List.mem_cons_of_mem _ ho)).symm
  have hkey : key.keyId ≠ oldest.keyId := by
    rw [← hold]
    exact hother old ho
  rcases install_cases hw hid with ⟨⟨other, hmem, hsame, hne⟩, -⟩ | ⟨-, hpython, hcpp⟩
  · obtain rfl : other = old := List.inj_on_of_nodup_map hw.previous_nodup hmem
      (List.mem_cons_of_mem _ ho) (hsame.trans hold.symm)
    exact absurd hpk hne
  · refine ⟨oldest.keyId, ?_, ?_⟩
    -- the history is full, so Python drops its oldest key before it takes the promoted one out
    · rw [hpython, evict_full hrest, findKey_eq, Cpp.findKey_eq, List.find?_eq_none]
      intro item hitem
      rw [decide_eq_true_eq]
      rcases List.mem_cons.mp hitem with rfl | hitem
      · exact hkey
      · rcases List.mem_append.mp (List.mem_of_mem_filter (List.mem_reverse.mp hitem)) with
          hin | hin
        · exact hother item hin
        · rw [List.mem_singleton.mp hin]
          exact (hapart oldest List.mem_cons_self).symm
    · have hshort : (rest.filter fun item => item.keyId ≠ key.keyId).length < rest.length :=
        List.length_filter_lt_length_iff_exists.mpr ⟨old, ho, by simpa using hold⟩
      rw [hcpp, List.filter_cons_of_pos (by simpa using hkey.symm),
        List.cons_append, evict_of_le ?_, Cpp.findKey_eq, List.find?_isSome]
      · exact ⟨oldest, by simp [retained], by simp⟩
      · rw [List.length_cons, List.length_append, List.length_singleton]
        omega

/-- **When the Python ring retains the keys of the C++ ring**: in every run, exactly when no call
promotes a key of a full history other than its oldest. -/
theorem sameKeys_iff (calls : List ProtocolKey) :
    python.Agrees cpp calls ↔
      EachCall Cpp.installKey (fun ring key => ¬ PromotesFromFull ring key) calls := by
  constructor
  · intro h
    suffices hfront : ∀ before after, calls = before ++ after →
        EachCall Cpp.installKey (fun ring key => ¬ PromotesFromFull ring key) before from
      hfront calls [] (List.append_nil calls).symm
    intro before
    induction before using List.reverseRecOn with
    | nil => exact fun _ _ => eachCall_nil _
    | append_singleton before key ih =>
      intro after hsplit
      rw [List.append_assoc, List.singleton_append] at hsplit
      have hbefore := ih (key :: after) hsplit
      refine eachCall_concat.mpr ⟨hbefore, fun hfull => ?_⟩
      -- the oldest key is found in one ring only
      obtain ⟨keyId, hlost, hfound⟩ := installKey_loses (cpp_wellFormed before) hfull
      have hsame := (h before key after hsplit).2 keyId
      have heq : (run python.install before).1 = (run Cpp.installKey before).1 :=
        Port.run_eq (fun _ _ hw hkey => installKey_matches hw hkey) hbefore
      rw [run_concat, run_concat, attempt_fst, attempt_fst, heq] at hsame
      change (findKey (installKey (run Cpp.installKey before).1 key).1 keyId).map _ =
        (Cpp.findKey (Cpp.installKey (run Cpp.installKey before).1 key).1 keyId).map _ at hsame
      obtain ⟨found, hfound⟩ := Option.isSome_iff_exists.mp hfound
      rw [hlost, hfound] at hsame
      cases hsame
  · exact Port.agrees (fun _ _ hw hkey => installKey_matches hw hkey) rfl

/-- Five keys, then the third one again: the first is lost. -/
theorem promoted_loses_oldest :
    ¬ python.Agrees cpp [sampleKey 1 1, sampleKey 2 1, sampleKey 3 1, sampleKey 4 1, sampleKey 5 1,
      sampleKey 3 1] := by
  intro h
  have hfound := (h [sampleKey 1 1, sampleKey 2 1, sampleKey 3 1, sampleKey 4 1, sampleKey 5 1]
    (sampleKey 3 1) [] rfl).2 [1]
  exact absurd hfound (by decide)

end Python

end SwmSdk
