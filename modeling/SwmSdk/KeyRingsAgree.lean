import SwmSdk.KeyRingPorts

/-! # The six key rings

The C# ring is the C++ ring: it looks the new id up in the whole history, takes its record
out, and trims the history after it pushed the current key.  The other rings take these
steps in another order.

The Go and the C# ring agree with the C++ ring in every run.  All six agree exactly as long as
no call claims the id of a previous key for other key material, and none promotes a key of a
full history other than its oldest (`keyRings_sixAgree_iff`).
-/
namespace SwmSdk
open ByteText KeyRing

/-! ## C# and Rust -/

namespace CSharp

/-- `FindKey`. -/
def findKey (ring : KeyRing) (keyId : Bytes) : Option ProtocolKey :=
  match ring.currentKey with
  | some current =>
      if current.keyId = keyId then some current
      else ring.previousKeys.reverse.find? (fun item => item.keyId = keyId)
  | none => ring.previousKeys.reverse.find? (fun item => item.keyId = keyId)

/-- The error of `InstallKey`. -/
def reboundKey : Error := rebound "online key id was rebound to different key material"

/-- The end of `InstallKey`. -/
def replaceCurrent (ring : KeyRing) (next : ProtocolKey) : KeyRing :=
  match ring.currentKey with
  | some current => ⟨some next, evict 4 (ring.previousKeys ++ [current])⟩
  | none => ⟨some next, ring.previousKeys⟩

/-- `InstallKey`.  `Remove` takes out the first record that equals the one found in every
member. -/
def installKey (ring : KeyRing) (next : ProtocolKey) : KeyRing × Except Error Unit :=
  match ring.currentKey.filter (fun current => current.keyId = next.keyId) with
  | some current =>
      if current.publicKey ≠ next.publicKey then (ring, .error reboundKey)
      else ({ ring with currentKey := some next }, .ok ())
  | none =>
      match ring.previousKeys.find? (fun item => item.keyId = next.keyId) with
      | some previous =>
          if previous.publicKey ≠ next.publicKey then (ring, .error reboundKey)
          else
            let removed := { ring with previousKeys := ring.previousKeys.erase previous }
            (replaceCurrent removed next, .ok ())
      | none => (replaceCurrent ring next, .ok ())

theorem findKey_eq : findKey = Cpp.findKey := rfl

theorem replaceCurrent_eq : replaceCurrent = Cpp.replaceCurrent := rfl

/-- The record found is the first of its id, and so the first that equals it. -/
theorem erase_found {keys : List ProtocolKey} {keyId : Bytes} {old : ProtocolKey}
    (h : keys.find? (fun item => item.keyId = keyId) = some old) :
    keys.erase old = keys.eraseP (fun item => item.keyId = keyId) := by
  induction keys with
  | nil => cases h
  | cons key keys ih =>
    by_cases hid : key.keyId = keyId
    · rw [List.find?_cons_of_pos (by simpa using hid), Option.some.injEq] at h
      rw [h, List.erase_cons_head, List.eraseP_cons_of_pos (by simpa [← h] using hid)]
    · rw [List.find?_cons_of_neg (by simpa using hid)] at h
      have hold : old.keyId = keyId := by simpa using List.find?_some h
      have hne : key ≠ old := fun heq => hid (heq ▸ hold)
      rw [List.erase_cons_tail (by simpa using hne), ih h,
        List.eraseP_cons_of_neg (by simpa using hid)]

/-- The C# ring installs exactly as the C++ ring does, ring for ring. -/
theorem installKey_eq : installKey = Cpp.installKey := by
  funext ring next
  unfold installKey Cpp.installKey
  cases ring.currentKey.filter (fun current => current.keyId = next.keyId) with
  | some current => rfl
  | none =>
    cases hfind : ring.previousKeys.find? (fun item => item.keyId = next.keyId) with
    | none => rfl
    | some previous =>
      simp only [erase_found hfind, replaceCurrent_eq]
      rfl

end CSharp

namespace Rust

/-- `find_key`. -/
def findKey (ring : KeyRing) (keyId : Bytes) : Option ProtocolKey :=
  match ring.currentKey with
  | some current =>
      if current.keyId = keyId then some current
      else ring.previousKeys.reverse.find? (fun key => key.keyId = keyId)
  | none => ring.previousKeys.reverse.find? (fun key => key.keyId = keyId)

end Rust

/-! ## One call -/

namespace KeyRing

def go : Port := ⟨Go.installKey, Go.findKey⟩

def csharp : Port := ⟨CSharp.installKey, CSharp.findKey⟩

def rust : Port := ⟨Rust.installKey, Rust.findKey⟩

def java : Port := ⟨Java.installKey, Java.findKey⟩

/-- What the C++ ring does with a new id that rebinds no previous key. -/
theorem cpp_install {current key : ProtocolKey} {previous : List ProtocolKey}
    (hw : KeyRing.WellFormed ⟨some current, previous⟩) (hid : current.keyId ≠ key.keyId)
    (hreb : ¬ RebindsPrevious ⟨some current, previous⟩ key) :
    Cpp.installKey ⟨some current, previous⟩ key =
      (⟨some key, evict 4 (previous.filter (fun item => item.keyId ≠ key.keyId) ++
        [current])⟩, .ok ()) := by
  rcases Python.install_cases hw hid with ⟨hyes, -⟩ | ⟨-, -, hcpp⟩
  · exact absurd hyes hreb
  · exact hcpp

/-- A full history keeps its younger keys, unless one of them is promoted or rebound. -/
theorem kept_of_not_promoted {ring : KeyRing} {key : ProtocolKey}
    (hreb : ¬ ring.RebindsPrevious key) (hfull : ¬ Python.PromotesFromFull ring key)
    (oldest : ProtocolKey) (rest : List ProtocolKey)
    (hprevious : ring.previousKeys = oldest :: rest) (hrest : rest.length = 3) :
    ∀ old ∈ rest, old.keyId ≠ key.keyId := by
  intro old ho hold
  have hmem : old ∈ ring.previousKeys := by
    rw [hprevious]
    exact List.mem_cons_of_mem _ ho
  by_cases hpk : old.publicKey = key.publicKey
  · exact hfull ⟨oldest, rest, hprevious, hrest, old, ho, hold, hpk⟩
  · exact hreb ⟨old, hmem, hold, hpk⟩

end KeyRing

namespace Rust

theorem installKey_matches {ring : KeyRing} (hw : ring.WellFormed) {key : ProtocolKey}
    (hreb : ¬ ring.RebindsPrevious key) (hfull : ¬ Python.PromotesFromFull ring key) :
    rust.Matches ring key := by
  obtain ⟨currentKey, previous⟩ := ring
  cases currentKey with
  | none =>
    obtain rfl := hw.previous_nil
    exact Port.matches_of_ok rfl rfl
  | some current =>
    by_cases hid : current.keyId = key.keyId
    · have hfind : previous.find? (fun item => item.keyId = key.keyId) = none := by
        simpa using fun old ho he => hw.current_not_previous ho (he.trans hid.symm)
      by_cases hpk : current.publicKey = key.publicKey
      · simp [Port.Matches, Port.Rejects, rust, cpp, installKey, settle, Cpp.installKey,
          Option.filter, hid, hpk, hfind]
      · simp [Port.Matches, Port.Rejects, rust, cpp, installKey, Cpp.installKey, Option.filter,
          hid, hpk]
    · have hcpp := cpp_install hw hid hreb
      -- the current key is pushed and the history trimmed before the id is taken out
      have hinstall : installKey ⟨some current, previous⟩ key =
          settle ⟨some current, evict 4 (previous ++ [current])⟩ key := by
        simp [installKey, hid]
      have hd := hw.pushed_nodup.sublist ((evict_sublist 4 (previous ++ [current])).map _)
      obtain ⟨⟨old, ho, hold, hne⟩, -⟩ | ⟨-, hsettle⟩ :=
        @settle_cases ⟨some current, evict 4 (previous ++ [current])⟩ hd key
      · rcases List.mem_append.mp (mem_evict ho) with ho | ho
        · exact absurd ⟨old, ho, hold, hne⟩ hreb
        · exact absurd (List.mem_singleton.mp ho ▸ hold) hid
      · rw [Python.evict_filter hw.bounded hid
          (kept_of_not_promoted hreb hfull)] at hsettle
        exact Port.matches_of_ok (hinstall.trans hsettle) hcpp

end Rust

namespace Java

theorem installKey_matches {ring : KeyRing} (hw : ring.WellFormed) {key : ProtocolKey}
    (hreb : ¬ ring.RebindsPrevious key) : java.Matches ring key := by
  obtain ⟨currentKey, previous⟩ := ring
  cases currentKey with
  | none =>
    obtain rfl := hw.previous_nil
    exact Port.matches_of_ok rfl rfl
  | some current =>
    by_cases hid : current.keyId = key.keyId
    · by_cases hpk : current.publicKey = key.publicKey
      · simp [Port.Matches, Port.Rejects, java, cpp, installKey, Cpp.installKey, Option.filter,
          hid, hpk]
      · simp [Port.Matches, Port.Rejects, java, cpp, installKey, Cpp.installKey, Option.filter,
          hid, hpk]
    · have hinstall : installKey ⟨some current, previous⟩ key =
          (⟨some key, evict 4 (previous.filter (fun item => item.keyId ≠ key.keyId) ++
            [current])⟩, .ok ()) := by
        simp [installKey, hid]
      exact Port.matches_of_ok hinstall (cpp_install hw hid hreb)

theorem findKey_eq_cpp : findKey = Cpp.findKey := rfl

/-- Java accepts what the C++ ring rejects when a previous key is rebound. -/
theorem not_rejects {ring : KeyRing} (hw : ring.WellFormed) {key : ProtocolKey}
    (hreb : ring.RebindsPrevious key) : ¬ java.Rejects ring key ∧ cpp.Rejects ring key := by
  constructor
  · rintro ⟨error, herror⟩
    rcases installKey_cases hw key with ⟨hno, -⟩ | ⟨previous, he, -⟩
    · exact hno hreb
    · have hok : (java.install ring key).2 = .ok () := congrArg Prod.snd he
      rw [hok] at herror
      cases herror
  · rcases Cpp.installKey_promotes ring hw key with ⟨-, error, he⟩ | ⟨hno, -⟩
    · exact ⟨error, congrArg Prod.snd he⟩
    · exact absurd hreb.rebinds hno

end Java

/-! ## All six -/

/-- The Go and the C# ring agree with the C++ ring in every run. -/
theorem go_csharp_agree (calls : List ProtocolKey) :
    go.Agrees cpp calls ∧ csharp.Agrees cpp calls := by
  have hrun : EachCall Cpp.installKey (fun _ _ => True) calls := fun _ _ _ _ => trivial
  exact ⟨Port.agrees (fun ring key _ _ => Port.matches_of_eq Go.installKey_eq ring key)
      Go.findKey_eq hrun,
    Port.agrees (fun ring key _ _ => Port.matches_of_eq CSharp.installKey_eq ring key)
      CSharp.findKey_eq hrun⟩

/-- **When the key rings of all six SDKs agree**: in every run, exactly when no call claims the id
of a previous key for other key material, and none promotes a key of a full history other than
its oldest. -/
theorem keyRings_sixAgree_iff (calls : List ProtocolKey) :
    (∀ port ∈ [go, csharp, rust, java, python], port.Agrees cpp calls) ↔
      EachCall Cpp.installKey
        (fun ring key => ¬ ring.RebindsPrevious key ∧ ¬ Python.PromotesFromFull ring key)
        calls := by
  constructor
  · intro h
    have hjava : java.Agrees cpp calls := h java (by simp)
    have hpython : python.Agrees cpp calls := h python (by simp)
    have hfull := (Python.sameKeys_iff calls).mp hpython
    suffices hfront : ∀ before after, calls = before ++ after →
        EachCall Cpp.installKey (fun ring key => ¬ ring.RebindsPrevious key) before by
      have hreb := hfront calls [] (List.append_nil calls).symm
      exact fun before key after hsplit =>
        ⟨hreb before key after hsplit, hfull before key after hsplit⟩
    intro before
    induction before using List.reverseRecOn with
    | nil => exact fun _ _ => eachCall_nil _
    | append_singleton before key ih =>
      intro after hsplit
      rw [List.append_assoc, List.singleton_append] at hsplit
      have hbefore := ih (key :: after) hsplit
      refine eachCall_concat.mpr ⟨hbefore, fun hreb => ?_⟩
      -- up to here both rings are the same, and only the C++ ring rejects the call
      have hsame := Port.run_eq (fun _ _ hw hno => Java.installKey_matches hw hno) hbefore
      obtain ⟨haccepts, hrejects⟩ := Java.not_rejects (cpp_wellFormed before) hreb
      have hboth := (hjava before key after hsplit).1
      rw [hsame] at hboth
      exact haccepts (hboth.mpr hrejects)
  · intro h
    have hreb : EachCall Cpp.installKey (fun ring key => ¬ ring.RebindsPrevious key) calls :=
      fun before key after hsplit => (h before key after hsplit).1
    have hfull : EachCall Cpp.installKey
        (fun ring key => ¬ Python.PromotesFromFull ring key) calls :=
      fun before key after hsplit => (h before key after hsplit).2
    have hrust : rust.Agrees cpp calls :=
      Port.agrees (fun _ _ hw hno => Rust.installKey_matches hw hno.1 hno.2) rfl h
    have hjava : java.Agrees cpp calls :=
      Port.agrees (fun _ _ hw hno => Java.installKey_matches hw hno) rfl hreb
    have hpython : python.Agrees cpp calls := (Python.sameKeys_iff calls).mpr hfull
    simpa using ⟨(go_csharp_agree calls).1, (go_csharp_agree calls).2, hrust, hjava, hpython⟩

end SwmSdk
