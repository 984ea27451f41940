import Mathlib.Logic.Function.Basic
import SwmSdk.DeviceIdentity
import SwmSdk.Rim2Ports
import SwmSdk.Schedule

/-! # Two processes that load one identity

The Go `loadOrCreateIdentity` reads `identity.bin`, and makes a key and a file when there is none
or its key does not open.  Nothing keeps another process out in between, and both write the same
temporary file.  Here two processes run it for one app on one store; every access to the file
system or the key store is a step, and a schedule interleaves the steps.

When both calls succeed, both return the identity of the file exactly when one of them read it
after the other had put it in place, and opened its key (`one_identity_iff`); otherwise both made
one, and the first is lost (`both_created`).
-/
namespace SwmSdk.Go
open ByteText Schedule

/-! ## The identity -/

/-- `identityFromKey`, for a key whose public key can be exported. -/
def identityFromKey (crypto : Crypto) (appID installID keyName publicKey : Bytes) :
    DeviceIdentity :=
  deviceIdentity crypto appID installID keyName publicKey

/-- `readIdentityMetadata`, of what `readProtected` gave. -/
def readIdentityMetadata (plaintext : Bytes) : Option (Bytes × Bytes) :=
  match plaintext.splitOn newline with
  | version :: installID :: keyName :: _ =>
      if version ≠ ascii "v2" ∨ installID.length ≠ 32 ∨ trimSpace keyName = [] then none
      else some (installID, keyName)
  | _ => none

/-- A name that `buildKeyName` built is not blank. -/
theorem trimSpace_keyName (crypto : Crypto) (appID installID : Bytes) :
    trimSpace (buildKeyName crypto appID installID) ≠ [] := by
  have hletter : (0x53 : UInt8) ∈ buildKeyName crypto appID installID := by
    have hhead : (0x53 : UInt8) ∈ ascii "SwmSdk." := by decide
    simp only [buildKeyName, List.mem_append]
    exact .inl (.inl (.inl hhead))
  intro hnil
  have hkept : (0x53 : UInt8) ∈ trimSpace (buildKeyName crypto appID installID) :=
    VisibleByte.mem_trimSpace (by decide) hletter
  rw [hnil] at hkept
  cases hkept

/-- **Metadata are read back.** -/
theorem readIdentityMetadata_identityMetadata (crypto : Crypto) (appID : Bytes) {random : Bytes}
    (hlength : random.length = 16) :
    readIdentityMetadata (identityMetadata (hex random) (buildKeyName crypto appID (hex random))) =
      some (hex random, buildKeyName crypto appID (hex random)) := by
  have hvalid : ¬ (ascii "v2" ≠ ascii "v2" ∨ (hex random).length ≠ 32 ∨
      trimSpace (buildKeyName crypto appID (hex random)) = []) := by
    rw [hex_length, hlength]
    rintro (h | h | h)
    · exact h rfl
    · exact h rfl
    · exact trimSpace_keyName crypto appID _ h
  unfold readIdentityMetadata
  rw [identityMetadata_lines]
  exact if_neg hvalid

/-! ## The call -/

/-- What the processes share: the plaintext of `identity.bin` and of its temporary file, and the
public keys of the key store by their names. -/
structure IdentityStore where
  file : Option Bytes := none
  temporary : Option Bytes := none
  keys : Bytes → Option Bytes

/-- Where a call of `loadOrCreateIdentity` is, with what it holds. -/
inductive LoadPhase where
  | reading
  /-- The metadata are read; the key is to be opened. -/
  | opening (installID keyName : Bytes)
  /-- The key did not open; the file is to be deleted. -/
  | deleting
  | creating
  /-- The key is made; `identityFromKey` is to give this identity. -/
  | exporting (identity : DeviceIdentity)
  | writing (identity : DeviceIdentity)
  /-- The temporary file is written. -/
  | replacing (identity : DeviceIdentity)
  /-- The replacement failed; the temporary file is to be removed. -/
  | removing (identity : DeviceIdentity)
  /-- The call has failed; its key is to be deleted. -/
  | dropping (identity : DeviceIdentity)
  /-- It returned the identity of a key that it opened. -/
  | opened (identity : DeviceIdentity)
  /-- It returned the identity of a key that it made. -/
  | created (identity : DeviceIdentity)
  | failed
  deriving DecidableEq, Repr

/-- The steps of a call, each with what the system answers. -/
inductive LoadEvent where
  | read (succeeds : Bool)
  /-- `OpenIdentityKey` and `identityFromKey`. -/
  | open (succeeds : Bool)
  | delete (succeeds : Bool)
  /-- `randomBytes` and `CreateIdentityKey`, with the public key it makes. -/
  | create (random : Option RandomBytes) (publicKey : Option Bytes)
  | export (succeeds : Bool)
  /-- The temporary file is written; a write that fails leaves some file, or none. -/
  | write (outcome : Except (Option Bytes) Unit)
  | replace (succeeds : Bool)
  | remove (succeeds : Bool)
  | deleteKey (succeeds : Bool)
  deriving DecidableEq, Repr

/-- What `writeIdentityMetadata` writes. -/
def metadata (identity : DeviceIdentity) : Bytes :=
  identityMetadata identity.installId identity.keyName

section Steps
variable (crypto : Crypto) (appID : Bytes)

/-- One step of a call of `loadOrCreateIdentity`. -/
def loadStep (store : IdentityStore) : LoadPhase → LoadEvent → Option (IdentityStore × LoadPhase)
  | .reading, .read succeeds =>
      match if succeeds then store.file.bind readIdentityMetadata else none with
      | some (installID, keyName) => some (store, .opening installID keyName)
      | none => some (store, .creating)
  | .opening installID keyName, .open succeeds =>
      match if succeeds then store.keys keyName else none with
      | some publicKey =>
          some (store, .opened (identityFromKey crypto appID installID keyName publicKey))
      | none => some (store, .deleting)
  | .deleting, .delete succeeds =>
      some ({ store with file := if succeeds then none else store.file }, .creating)
  | .creating, .create random publicKey =>
      match random, publicKey with
      | some random, some publicKey =>
          let installID := hex random.val
          let keyName := buildKeyName crypto appID installID
          -- no flag asks to overwrite a key of that name
          if (store.keys keyName).isSome then some (store, .failed)
          else some ({ store with keys := Function.update store.keys keyName (some publicKey) },
            .exporting (identityFromKey crypto appID installID keyName publicKey))
      | _, _ => some (store, .failed)
  | .exporting identity, .export succeeds =>
      some (store, if succeeds then .writing identity else .dropping identity)
  | .writing identity, .write outcome =>
      match outcome with
      | .ok () => some ({ store with temporary := some (metadata identity) }, .replacing identity)
      | .error left => some ({ store with temporary := left }, .dropping identity)
  | .replacing identity, .replace succeeds =>
      match if succeeds then store.temporary else none with
      | some text =>
          some ({ store with file := some text, temporary := none }, .created identity)
      | none => some (store, .removing identity)
  | .removing identity, .remove succeeds =>
      some ({ store with temporary := if succeeds then none else store.temporary },
        .dropping identity)
  | .dropping identity, .deleteKey succeeds =>
      some (if succeeds then
        { store with keys := Function.update store.keys identity.keyName none } else store, .failed)
  | _, _ => none

/-- The two processes. -/
inductive Caller where
  | first | second
  deriving DecidableEq, Repr

def Caller.other : Caller → Caller
  | .first => .second
  | .second => .first

/-- The store and where both calls are. -/
structure TwoCalls where
  store : IdentityStore
  phase : Caller → LoadPhase

/-- One step of one of the calls. -/
def callStep (s : TwoCalls) (action : Caller × LoadEvent) : Option TwoCalls :=
  (loadStep crypto appID s.store (s.phase action.1) action.2).map fun (store, phase) =>
    ⟨store, Function.update s.phase action.1 phase⟩

/-- Both calls begin on an empty store; the key store may hold any keys. -/
def emptyStore (keys : Bytes → Option Bytes) : TwoCalls := ⟨{ keys }, fun _ => .reading⟩

end Steps

/-- What a call returned. -/
def LoadPhase.identity : LoadPhase → Option DeviceIdentity
  | .opened identity => some identity
  | .created identity => some identity
  | _ => none

namespace TwoCalls

/-- Every identity that was returned is the one that the file names. -/
def OneIdentity (s : TwoCalls) : Prop :=
  ∀ caller, ∀ identity ∈ (s.phase caller).identity,
    s.store.file.bind readIdentityMetadata = some (identity.installId, identity.keyName)

end TwoCalls

/-! ## What a step does -/

section Moves
variable {crypto : Crypto} {appID : Bytes}

/-- The steps that are possible, each with what it changes. -/
inductive Moves (crypto : Crypto) (appID : Bytes) (store : IdentityStore) :
    LoadPhase → LoadEvent → IdentityStore → LoadPhase → Prop where
  | found {text installID keyName : Bytes} (hfile : store.file = some text)
      (hread : readIdentityMetadata text = some (installID, keyName)) :
      Moves crypto appID store .reading (.read true) store (.opening installID keyName)
  | notFound {succeeds : Bool} : Moves crypto appID store .reading (.read succeeds) store .creating
  | opens {installID keyName publicKey : Bytes} (hkey : store.keys keyName = some publicKey) :
      Moves crypto appID store (.opening installID keyName) (.open true) store
        (.opened (identityFromKey crypto appID installID keyName publicKey))
  | notOpened {installID keyName : Bytes} {succeeds : Bool}
      (hfails : succeeds = true → store.keys keyName = none) :
      Moves crypto appID store (.opening installID keyName) (.open succeeds) store .deleting
  | deletes {succeeds : Bool} {file : Option Bytes} (hfile : file = none ∨ file = store.file) :
      Moves crypto appID store .deleting (.delete succeeds) { store with file } .creating
  | creates {random : RandomBytes} {keyName publicKey : Bytes}
      (hname : keyName = buildKeyName crypto appID (hex random.val))
      (hfree : store.keys keyName = none) :
      Moves crypto appID store .creating (.create (some random) (some publicKey))
        { store with keys := Function.update store.keys keyName (some publicKey) }
        (.exporting (identityFromKey crypto appID (hex random.val) keyName publicKey))
  | notCreated {random : Option RandomBytes} {publicKey : Option Bytes} :
      Moves crypto appID store .creating (.create random publicKey) store .failed
  | exports {identity : DeviceIdentity} :
      Moves crypto appID store (.exporting identity) (.export true) store (.writing identity)
  | notExported {identity : DeviceIdentity} :
      Moves crypto appID store (.exporting identity) (.export false) store (.dropping identity)
  | writes {identity : DeviceIdentity} :
      Moves crypto appID store (.writing identity) (.write (.ok ()))
        { store with temporary := some (metadata identity) } (.replacing identity)
  | notWritten {identity : DeviceIdentity} {left : Option Bytes} :
      Moves crypto appID store (.writing identity) (.write (.error left))
        { store with temporary := left } (.dropping identity)
  | replaces {identity : DeviceIdentity} {text : Bytes} (htext : store.temporary = some text) :
      Moves crypto appID store (.replacing identity) (.replace true)
        { store with file := some text, temporary := none } (.created identity)
  | notReplaced {identity : DeviceIdentity} {succeeds : Bool} :
      Moves crypto appID store (.replacing identity) (.replace succeeds) store (.removing identity)
  | removes {identity : DeviceIdentity} {succeeds : Bool} {temporary : Option Bytes} :
      Moves crypto appID store (.removing identity) (.remove succeeds) { store with temporary }
        (.dropping identity)
  | drops {identity : DeviceIdentity} {succeeds : Bool} {keys : Bytes → Option Bytes}
      (hkeys : ∀ name, name ≠ identity.keyName → keys name = store.keys name) :
      Moves crypto appID store (.dropping identity) (.deleteKey succeeds) { store with keys }
        .failed

/-- **Every step of the code is one of these.** -/
theorem moves_of_loadStep {store store' : IdentityStore} {phase phase' : LoadPhase}
    {event : LoadEvent} (h : loadStep crypto appID store phase event = some (store', phase')) :
    Moves crypto appID store phase event store' phase' := by
  unfold loadStep at h
  -- one case for each phase; every system call may fail
  split at h
  · rename_i succeeds
    split at h
    · rename_i installID keyName hread
      cases h
      obtain ⟨rfl, hfound⟩ := Option.ite_none_right_eq_some.mp hread
      obtain ⟨text, hfile, hread⟩ := Option.bind_eq_some_iff.mp hfound
      exact .found hfile hread
    · cases h
      exact .notFound
  · rename_i installID keyName succeeds
    split at h
    · rename_i publicKey hopen
      cases h
      obtain ⟨rfl, hkey⟩ := Option.ite_none_right_eq_some.mp hopen
      exact .opens hkey
    · rename_i hclosed
      cases h
      refine .notOpened fun htrue => ?_
      rwa [if_pos htrue] at hclosed
  · rename_i succeeds
    cases h
    refine .deletes ?_
    cases succeeds with
    | true => exact .inl rfl
    | false => exact .inr rfl
  · split at h
    · rename_i random publicKey
      dsimp only at h
      split at h
      · cases h
        exact .notCreated
      · rename_i hfree
        cases h
        exact .creates rfl (Option.not_isSome_iff_eq_none.mp hfree)
    · cases h
      exact .notCreated
  · rename_i identity succeeds
    cases h
    cases succeeds with
    | true => exact .exports
    | false => exact .notExported
  · split at h
    · cases h
      exact .writes
    · cases h
      exact .notWritten
  · split at h
    · rename_i text hreplace
      cases h
      obtain ⟨rfl, htext⟩ := Option.ite_none_right_eq_some.mp hreplace
      exact .replaces htext
    · cases h
      exact .notReplaced
  · cases h
    exact .removes
  · rename_i identity succeeds
    cases h
    cases succeeds with
    | true => exact .drops fun name hne => Function.update_of_ne hne _ _
    | false => exact .drops fun name _ => rfl
  · cases h

theorem moves_of_callStep {s t : TwoCalls} {caller : Caller} {event : LoadEvent}
    (h : callStep crypto appID s (caller, event) = some t) :
    Moves crypto appID s.store (s.phase caller) event t.store (t.phase caller) ∧
      t.phase caller.other = s.phase caller.other := by
  obtain ⟨⟨store, phase⟩, hstep, rfl⟩ := Option.map_eq_some_iff.mp h
  have hother : caller.other ≠ caller := by cases caller <;> decide
  refine ⟨?_, Function.update_of_ne hother _ _⟩
  show Moves crypto appID s.store (s.phase caller) event store
    (Function.update s.phase caller phase caller)
  rw [Function.update_self]
  exact moves_of_loadStep hstep

@[simp] theorem Caller.other_other (caller : Caller) : caller.other.other = caller := by
  cases caller <;> rfl

theorem Caller.eq_or_eq_other (p caller : Caller) : p = caller ∨ p = caller.other := by
  cases p <;> cases caller <;> decide

variable {store store' : IdentityStore} {phase phase' : LoadPhase} {event : LoadEvent}

/-! ## The keys -/

/-- The identity whose key the call has made. -/
def LoadPhase.held : LoadPhase → Option DeviceIdentity
  | .exporting identity | .writing identity | .replacing identity | .removing identity
  | .dropping identity | .created identity => some identity
  | _ => none

/-- The identity of a key that a call makes. -/
def newIdentity (crypto : Crypto) (appID : Bytes) (random : RandomBytes) (publicKey : Bytes) :
    DeviceIdentity :=
  identityFromKey crypto appID (hex random.val) (buildKeyName crypto appID (hex random.val))
    publicKey

/-- A step keeps the keys, makes one under a free name, or deletes its own. -/
theorem Moves.keys_cases (h : Moves crypto appID store phase event store' phase') :
    (store'.keys = store.keys ∧ ∀ identity, phase'.held = some identity →
      phase.held = some identity) ∨
    (∃ random publicKey, phase'.held = some (newIdentity crypto appID random publicKey) ∧
      store.keys (newIdentity crypto appID random publicKey).keyName = none ∧
      store'.keys = Function.update store.keys (newIdentity crypto appID random publicKey).keyName
        (some publicKey)) ∨
    ∃ identity, phase.held = some identity ∧ phase'.held = none ∧
      ∀ name, name ≠ identity.keyName → store'.keys name = store.keys name := by
  cases h with
  | @creates random keyName publicKey hname hfree =>
    subst hname
    exact .inr (.inl ⟨random, publicKey, rfl, hfree, rfl⟩)
  | drops hkeys => exact .inr (.inr ⟨_, rfl, rfl, hkeys⟩)
  | _ => exact .inl ⟨rfl, by simp [LoadPhase.held]⟩

/-- Both calls have their keys. -/
structure KeysKept (crypto : Crypto) (appID : Bytes) (s : TwoCalls) : Prop where
  present : ∀ p identity, (s.phase p).held = some identity →
    s.store.keys identity.keyName = some identity.publicKeySec1
  formed : ∀ p identity, (s.phase p).held = some identity →
    ∃ random publicKey, identity = newIdentity crypto appID random publicKey
  distinct : ∀ p mine others, (s.phase p).held = some mine →
    (s.phase p.other).held = some others → mine.keyName ≠ others.keyName

theorem KeysKept.step {s t : TwoCalls} {caller : Caller} (hkept : KeysKept crypto appID s)
    (hmoves : Moves crypto appID s.store (s.phase caller) event t.store (t.phase caller))
    (hother : t.phase caller.other = s.phase caller.other) : KeysKept crypto appID t := by
  rcases hmoves.keys_cases with ⟨hkeys, hheld⟩ | ⟨random, publicKey, hheld, hfree, hkeys⟩ |
    ⟨dropped, hold, hheld, hkeys⟩
  · have hback : ∀ p identity, (t.phase p).held = some identity →
        (s.phase p).held = some identity := by
      intro p identity hp
      rcases p.eq_or_eq_other caller with rfl | rfl
      · exact hheld identity hp
      · rwa [hother] at hp
    refine ⟨?_, ?_, ?_⟩
    · intro p identity hp
      rw [hkeys]
      exact hkept.present p identity (hback p identity hp)
    · intro p identity hp
      exact hkept.formed p identity (hback p identity hp)
    · intro p mine others hmine hothers
      exact hkept.distinct p mine others (hback p mine hmine) (hback _ others hothers)
  · -- the new name is free, so it is not the name of the other call
    have hne : ∀ identity, (s.phase caller.other).held = some identity →
        identity.keyName ≠ (newIdentity crypto appID random publicKey).keyName := by
      intro identity hp heq
      have hpresent := hkept.present _ identity hp
      rw [heq, hfree] at hpresent
      cases hpresent
    refine ⟨?_, ?_, ?_⟩
    · intro p identity hp
      rcases p.eq_or_eq_other caller with rfl | rfl
      · obtain rfl := Option.some.inj (hheld.symm.trans hp)
        rw [hkeys, Function.update_self]
        rfl
      · rw [hother] at hp
        rw [hkeys, Function.update_of_ne (hne identity hp)]
        exact hkept.present _ identity hp
    · intro p identity hp
      rcases p.eq_or_eq_other caller with rfl | rfl
      · exact ⟨random, publicKey, Option.some.inj (hp.symm.trans hheld)⟩
      · rw [hother] at hp
        exact hkept.formed _ identity hp
    · intro p mine others hmine hothers
      rcases p.eq_or_eq_other caller with rfl | rfl
      · rw [hother] at hothers
        rw [← Option.some.inj (hheld.symm.trans hmine)]
        exact (hne others hothers).symm
      · rw [hother] at hmine
        rw [Caller.other_other, hheld] at hothers
        rw [← Option.some.inj hothers]
        exact hne mine hmine
  · refine ⟨?_, ?_, ?_⟩
    · intro p identity hp
      rcases p.eq_or_eq_other caller with rfl | rfl
      · rw [hheld] at hp
        cases hp
      · rw [hother] at hp
        rw [hkeys _ (hkept.distinct _ dropped identity hold hp).symm]
        exact hkept.present _ identity hp
    · intro p identity hp
      rcases p.eq_or_eq_other caller with rfl | rfl
      · rw [hheld] at hp
        cases hp
      · rw [hother] at hp
        exact hkept.formed _ identity hp
    · intro p mine others hmine hothers
      rcases p.eq_or_eq_other caller with rfl | rfl
      · rw [hheld] at hmine
        cases hmine
      · rw [Caller.other_other, hheld] at hothers
        cases hothers

/-- The file names an identity. -/
theorem KeysKept.read_metadata {s : TwoCalls} (hkept : KeysKept crypto appID s) {p : Caller}
    {identity : DeviceIdentity} (hp : s.phase p = .created identity) :
    readIdentityMetadata (metadata identity) = some (identity.installId, identity.keyName) := by
  obtain ⟨random, publicKey, rfl⟩ := hkept.formed p identity (by rw [hp]; rfl)
  exact readIdentityMetadata_identityMetadata crypto appID random.property

/-! ## The files -/

/-- The call may have written the temporary file. -/
def LoadPhase.Wrote : LoadPhase → Prop
  | .replacing _ | .removing _ | .dropping _ | .created _ | .failed => True
  | _ => False

/-- A call that has written nothing may only have deleted `identity.bin`. -/
theorem Moves.quiet (h : Moves crypto appID store phase event store' phase')
    (hquiet : ¬ phase'.Wrote) : ¬ phase.Wrote ∧ store'.temporary = store.temporary ∧
      (store'.file = none ∨ store'.file = store.file) := by
  cases h with
  | deletes hfile => exact ⟨id, rfl, hfile⟩
  | _ => simp_all [LoadPhase.Wrote]

/-- The file changes when it is deleted or replaced. -/
theorem Moves.file_cases (h : Moves crypto appID store phase event store' phase') :
    store'.file = none ∨ store'.file = store.file ∨ ∃ identity, phase = .replacing identity ∧
      phase' = .created identity ∧ store'.file = store.temporary := by
  cases h with
  | deletes hfile =>
    rcases hfile with hfile | hfile
    · exact .inl hfile
    · exact .inr (.inl hfile)
  | replaces htext => exact .inr (.inr ⟨_, rfl, rfl, htext.symm⟩)
  | _ => exact .inr (.inl rfl)

theorem Moves.temporary_of_replacing {identity : DeviceIdentity}
    (h : Moves crypto appID store phase event store' (.replacing identity)) :
    store'.temporary = some (metadata identity) := by
  cases h
  rfl

/-- What a call wrote stays as long as the other has written nothing. -/
structure FilesKept (s : TwoCalls) : Prop where
  temporary : ∀ p identity, ¬ (s.phase p.other).Wrote → s.phase p = .replacing identity →
    s.store.temporary = some (metadata identity)
  file : ∀ p text, ¬ (s.phase p.other).Wrote → s.store.file = some text →
    ∃ identity, s.phase p = .created identity ∧ text = metadata identity

theorem FilesKept.step {s t : TwoCalls} {caller : Caller} (hkept : FilesKept s)
    (hmoves : Moves crypto appID s.store (s.phase caller) event t.store (t.phase caller))
    (hother : t.phase caller.other = s.phase caller.other) : FilesKept t := by
  refine ⟨?_, ?_⟩
  · intro p identity hquiet hp
    -- the call that moved is `p` itself, or the other, which has written nothing
    rcases p.eq_or_eq_other caller with rfl | rfl
    · rw [hp] at hmoves
      exact hmoves.temporary_of_replacing
    · rw [Caller.other_other] at hquiet
      obtain ⟨hbefore, htemporary, -⟩ := hmoves.quiet hquiet
      rw [htemporary]
      refine hkept.temporary _ identity ?_ (hother ▸ hp)
      rwa [Caller.other_other]
  · intro p text hquiet hfile
    rcases p.eq_or_eq_other caller with rfl | rfl
    · rw [hother] at hquiet
      rcases hmoves.file_cases with hnone | hsame | ⟨identity, hphase, hphase', hmoved⟩
      · rw [hnone] at hfile
        cases hfile
      · -- a call that has created its identity moves no more
        obtain ⟨identity, hcreated, -⟩ := hkept.file _ text hquiet (hsame ▸ hfile)
        rw [hcreated] at hmoves
        cases hmoves
      · rw [hmoved, hkept.temporary _ identity hquiet hphase] at hfile
        exact ⟨identity, hphase', (Option.some.inj hfile).symm⟩
    · rw [Caller.other_other] at hquiet
      obtain ⟨hbefore, -, hnone | hsame⟩ := hmoves.quiet hquiet
      · rw [hnone] at hfile
        cases hfile
      · rw [hother]
        refine hkept.file _ text ?_ (hsame ▸ hfile)
        rwa [Caller.other_other]

/-! ## The schedule -/

/-- `p` read the file that the other call had put in place, which is there still. -/
structure Saw (actions : List (Caller × LoadEvent)) (s : TwoCalls) (p : Caller)
    (identity : DeviceIdentity) : Prop where
  made : s.phase p.other = .created identity
  file : s.store.file = some (metadata identity)
  later : Before (p.other, .replace true) (p, .read true) actions

/-- What the phases say about the schedule. -/
structure Traced (actions : List (Caller × LoadEvent)) (s : TwoCalls) : Prop where
  replaced : ∀ p identity, s.phase p = .created identity → (p, .replace true) ∈ actions
  opening : ∀ p installID keyName, s.phase p = .opening installID keyName →
    ∃ identity, Saw actions s p identity ∧ installID = identity.installId ∧
      keyName = identity.keyName
  opened : ∀ p identity, s.phase p = .opened identity →
    Saw actions s p identity ∧ (p, .open true) ∈ actions
  open_true : ∀ p, (p, .open true) ∈ actions → ∃ identity, s.phase p = .opened identity

variable {s t : TwoCalls} {caller : Caller} {actions : List (Caller × LoadEvent)}

/-- A step of the reader leaves what it saw. -/
theorem Saw.step {identity : DeviceIdentity} (h : Saw actions s caller identity)
    (hother : t.phase caller.other = s.phase caller.other) (hfile : t.store.file = s.store.file)
    (event : LoadEvent) : Saw (actions ++ [(caller, event)]) t caller identity where
  made := hother.trans h.made
  file := hfile.trans h.file
  later := before_concat.mpr (.inl h.later)

/-- A call whose file was seen is over. -/
theorem Saw.not_moves {identity : DeviceIdentity} (h : Saw actions s caller.other identity)
    (hmoves : Moves crypto appID s.store (s.phase caller) event t.store (t.phase caller)) :
    False := by
  have hmade := h.made
  rw [Caller.other_other] at hmade
  rw [hmade] at hmoves
  cases hmoves

theorem Traced.step (htraced : Traced actions s) (hkeys : KeysKept crypto appID s)
    (hfiles : FilesKept s)
    (hmoves : Moves crypto appID s.store (s.phase caller) event t.store (t.phase caller))
    (hother : t.phase caller.other = s.phase caller.other) :
    Traced (actions ++ [(caller, event)]) t := by
  refine ⟨?_, ?_, ?_, ?_⟩
  · intro p identity hp
    rcases p.eq_or_eq_other caller with rfl | rfl
    · rw [hp] at hmoves
      generalize s.phase p = phase at hmoves
      generalize t.store = store' at hmoves
      cases hmoves
      exact List.mem_append_right _ (List.mem_singleton.mpr rfl)
    · rw [hother] at hp
      exact List.mem_append_left _ (htraced.replaced _ identity hp)
  · intro p installID keyName hp
    rcases p.eq_or_eq_other caller with rfl | rfl
    · rw [hp] at hmoves
      generalize hphase : s.phase p = phase at hmoves
      generalize hstore : t.store = store' at hmoves
      cases hmoves with
      | @found text _ _ hfile hread =>
        -- the reader has written nothing, so the file is the one of the other call
        have hquiet : ¬ (s.phase p.other.other).Wrote := by
          rw [Caller.other_other, hphase]
          exact id
        obtain ⟨identity, hmade, rfl⟩ := hfiles.file _ text hquiet hfile
        have hnames := hkeys.read_metadata hmade
        rw [hread] at hnames
        obtain ⟨rfl, rfl⟩ := Prod.mk.inj (Option.some.inj hnames)
        refine ⟨identity, ⟨hother.trans hmade, by rw [hstore, hfile], ?_⟩, rfl, rfl⟩
        exact before_concat.mpr (.inr ⟨htraced.replaced _ identity hmade, rfl⟩)
    · rw [hother] at hp
      obtain ⟨identity, hsaw, -⟩ := htraced.opening _ installID keyName hp
      exact (hsaw.not_moves hmoves).elim
  · intro p identity hp
    rcases p.eq_or_eq_other caller with rfl | rfl
    · rw [hp] at hmoves
      generalize hphase : s.phase p = phase at hmoves
      generalize hstore : t.store = store' at hmoves
      generalize hopened : LoadPhase.opened identity = phase' at hmoves
      cases hmoves with
      | @opens installID keyName publicKey hkey =>
        obtain ⟨seen, hsaw, rfl, rfl⟩ := htraced.opening p _ _ hphase
        have hheld : (s.phase p.other).held = some seen := by
          rw [hsaw.made]
          rfl
        obtain rfl := Option.some.inj (hkey.symm.trans (hkeys.present _ seen hheld))
        obtain ⟨random, publicKey, rfl⟩ := hkeys.formed _ seen hheld
        obtain rfl := LoadPhase.opened.inj hopened
        exact ⟨hsaw.step hother (congrArg IdentityStore.file hstore) _,
          List.mem_append_right _ (List.mem_singleton.mpr rfl)⟩
      | _ => cases hopened
    · rw [hother] at hp
      exact ((htraced.opened _ identity hp).1.not_moves hmoves).elim
  · intro p hmem
    rcases List.mem_append.mp hmem with hmem | hmem
    · obtain ⟨identity, hp⟩ := htraced.open_true p hmem
      rcases p.eq_or_eq_other caller with rfl | rfl
      · rw [hp] at hmoves
        cases hmoves
      · exact ⟨identity, hother.trans hp⟩
    · obtain ⟨rfl, rfl⟩ := Prod.mk.inj (List.mem_singleton.mp hmem)
      generalize hphase : s.phase p = phase at hmoves
      generalize hphase' : t.phase p = phase' at hmoves
      generalize t.store = store' at hmoves
      cases hmoves with
      | opens => exact ⟨_, rfl⟩
      | @notOpened installID keyName _ hfails =>
        obtain ⟨seen, hsaw, -, rfl⟩ := htraced.opening p _ _ hphase
        have hpresent := hkeys.present _ seen (by rw [hsaw.made]; rfl)
        rw [hfails rfl] at hpresent
        cases hpresent

/-- All of it, along a run. -/
structure Kept (crypto : Crypto) (appID : Bytes) (actions : List (Caller × LoadEvent))
    (s : TwoCalls) : Prop where
  keys : KeysKept crypto appID s
  files : FilesKept s
  traced : Traced actions s

theorem emptyStore_kept (keys : Bytes → Option Bytes) :
    Kept crypto appID [] (emptyStore keys) where
  keys := ⟨nofun, nofun, nofun⟩
  files := ⟨nofun, nofun⟩
  traced := ⟨nofun, nofun, nofun, nofun⟩

theorem kept_of_run {keys : Bytes → Option Bytes}
    (hrun : run (callStep crypto appID) (emptyStore keys) actions = some s) :
    Kept crypto appID actions s := by
  refine run_induction (P := Kept crypto appID) (emptyStore_kept keys) ?_ hrun
  intro actions s ⟨caller, event⟩ t hkept hstep
  obtain ⟨hmoves, hother⟩ := moves_of_callStep hstep
  exact ⟨hkept.keys.step hmoves hother, hkept.files.step hmoves hother,
    hkept.traced.step hkept.keys hkept.files hmoves hother⟩

/-! ## One identity -/

/-- When one call opened the key of the other, both return its identity. -/
theorem Saw.returned_eq {identity returned : DeviceIdentity} {p : Caller}
    (hsaw : Saw actions s caller identity) (hopened : s.phase caller = .opened identity)
    (hreturned : returned ∈ (s.phase p).identity) : returned = identity := by
  rcases p.eq_or_eq_other caller with rfl | rfl
  · rw [hopened] at hreturned
    exact (Option.some.inj hreturned).symm
  · rw [hsaw.made] at hreturned
    exact (Option.some.inj hreturned).symm

theorem Saw.one_identity {identity : DeviceIdentity} (hkeys : KeysKept crypto appID s)
    (hsaw : Saw actions s caller identity) (hopened : s.phase caller = .opened identity) :
    s.OneIdentity := by
  intro p returned hreturned
  rw [hsaw.file, hsaw.returned_eq hopened hreturned]
  exact hkeys.read_metadata hsaw.made

/-- Two calls that made a key each made two identities. -/
theorem not_oneIdentity_of_created {mine others : DeviceIdentity} (hkeys : KeysKept crypto appID s)
    (hmine : s.phase caller = .created mine) (hothers : s.phase caller.other = .created others) :
    ¬ s.OneIdentity := by
  intro hone
  have hfirst := hone caller mine (by rw [hmine]; rfl)
  have hsecond := hone caller.other others (by rw [hothers]; rfl)
  rw [hfirst] at hsecond
  obtain ⟨-, hname⟩ := Prod.mk.inj (Option.some.inj hsecond)
  exact hkeys.distinct caller mine others (by rw [hmine]; rfl) (by rw [hothers]; rfl) hname

theorem opened_or_created {phase : LoadPhase} (h : phase.identity.isSome) :
    ∃ identity, phase = .opened identity ∨ phase = .created identity := by
  cases phase with
  | opened identity => exact ⟨identity, .inl rfl⟩
  | created identity => exact ⟨identity, .inr rfl⟩
  | _ => cases h

/-- Where there is one identity, one of the calls opened the key of the other. -/
theorem exists_opened (hkeys : KeysKept crypto appID s)
    (hsuccess : ∀ caller, ((s.phase caller).identity).isSome) (hone : s.OneIdentity) :
    ∃ caller identity, s.phase caller = .opened identity := by
  by_contra hnone
  obtain ⟨mine, hmine | hmine⟩ := opened_or_created (hsuccess .first)
  · exact hnone ⟨.first, mine, hmine⟩
  · obtain ⟨others, hothers | hothers⟩ := opened_or_created (hsuccess .second)
    · exact hnone ⟨.second, others, hothers⟩
    · exact not_oneIdentity_of_created hkeys hmine hothers hone

end Moves

section Results
variable {crypto : Crypto} {appID : Bytes} {keys : Bytes → Option Bytes}
  {actions : List (Caller × LoadEvent)} {s : TwoCalls}

/-- **When two processes have one identity**: of calls that succeed, both return the identity of
the file exactly when one of them read the file after the other had replaced it, and opened the
key. -/
theorem one_identity_iff (hrun : run (callStep crypto appID) (emptyStore keys) actions = some s)
    (hsuccess : ∀ caller, ((s.phase caller).identity).isSome) :
    s.OneIdentity ↔ ∃ caller : Caller,
      Before (caller.other, .replace true) (caller, .read true) actions ∧
      (caller, .open true) ∈ actions := by
  have hkept := kept_of_run hrun
  constructor
  · intro hone
    obtain ⟨caller, identity, hphase⟩ := exists_opened hkept.keys hsuccess hone
    obtain ⟨hsaw, hmem⟩ := hkept.traced.opened caller identity hphase
    exact ⟨caller, hsaw.later, hmem⟩
  · rintro ⟨caller, -, hmem⟩
    obtain ⟨identity, hphase⟩ := hkept.traced.open_true caller hmem
    exact (hkept.traced.opened caller identity hphase).1.one_identity hkept.keys hphase

/-- **The identity survives a restart**: where both calls returned the identity of the file, a
call that starts afterwards opens its key and returns it too. -/
theorem restart_opens (hrun : run (callStep crypto appID) (emptyStore keys) actions = some s)
    (hsuccess : ∀ caller, ((s.phase caller).identity).isSome) (hone : s.OneIdentity)
    {p : Caller} {returned : DeviceIdentity} (hreturned : returned ∈ (s.phase p).identity) :
    loadStep crypto appID s.store .reading (.read true) =
        some (s.store, .opening returned.installId returned.keyName) ∧
      loadStep crypto appID s.store (.opening returned.installId returned.keyName) (.open true) =
        some (s.store, .opened returned) := by
  have hkept := kept_of_run hrun
  obtain ⟨caller, identity, hphase⟩ := exists_opened hkept.keys hsuccess hone
  obtain ⟨hsaw, -⟩ := hkept.traced.opened caller identity hphase
  obtain rfl := hsaw.returned_eq hphase hreturned
  have hheld : (s.phase caller.other).held = some returned := by
    rw [hsaw.made]
    rfl
  have hpresent := hkept.keys.present _ returned hheld
  obtain ⟨random, publicKey, hnew⟩ := hkept.keys.formed _ returned hheld
  constructor
  · rw [loadStep, if_pos rfl, hone p returned hreturned]
  · rw [loadStep, if_pos rfl, hpresent, hnew]
    rfl

end Results

/-! Two processes of the app `app`. -/

/-- Creating, up to the replacement of the file. -/
def creationEvents (random : RandomBytes) (publicKey : Bytes) : List LoadEvent :=
  [.create (some random) (some publicKey), .export true, .write (.ok ()), .replace true]

/-- The second process starts when the first is done. -/
def laterActions : List (Caller × LoadEvent) :=
  (.first, .read true) ::
    (creationEvents (sampleRandom 1) firstKey).map (.first, ·) ++
    [(.second, .read true), (.second, .open true)]

theorem one_identity_later : ∃ s,
    run (callStep deviceCrypto (ascii "app")) (emptyStore fun _ => none) laterActions = some s ∧
      s.OneIdentity := by
  obtain ⟨s, hrun, hsuccess⟩ : ∃ s, run (callStep deviceCrypto (ascii "app"))
      (emptyStore fun _ => none) laterActions = some s ∧
        ∀ caller, ((s.phase caller).identity).isSome :=
    ⟨_, rfl, fun caller => by cases caller <;> rfl⟩
  exact ⟨s, hrun, (one_identity_iff hrun hsuccess).mpr ⟨.second, by decide, by decide⟩⟩

/-- Both processes look before either has made its file. -/
def racingActions : List (Caller × LoadEvent) :=
  (.first, .read true) :: (.second, .read true) ::
    (creationEvents (sampleRandom 1) firstKey).map (.first, ·) ++
    (creationEvents (sampleRandom 2) secondKey).map (.second, ·)

/-- The identity of the first process is lost. -/
theorem both_created : ¬ ∀ (crypto : Crypto) (appID : Bytes) (keys : Bytes → Option Bytes)
    (actions : List (Caller × LoadEvent)) (s : TwoCalls),
    run (callStep crypto appID) (emptyStore keys) actions = some s →
      (∀ caller, ((s.phase caller).identity).isSome) → s.OneIdentity := by
  intro h
  have hrun : ∃ s, run (callStep deviceCrypto (ascii "app")) (emptyStore fun _ => none)
      racingActions = some s ∧ (∃ identity, s.phase .first = .created identity) ∧
        ∃ identity, s.phase .second = .created identity := ⟨_, rfl, ⟨_, rfl⟩, ⟨_, rfl⟩⟩
  obtain ⟨s, hrun, ⟨first, hfirst⟩, second, hsecond⟩ := hrun
  refine not_oneIdentity_of_created (kept_of_run hrun).keys hfirst hsecond
    (h _ _ _ _ s hrun ?_)
  intro caller
  cases caller with
  | first =>
    rw [hfirst]
    rfl
  | second =>
    rw [hsecond]
    rfl

end SwmSdk.Go
