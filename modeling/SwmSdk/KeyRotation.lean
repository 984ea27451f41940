import SwmSdk.ClientCalls
import SwmSdk.DeviceIdentity
import SwmSdk.Dpop

/-! # Rotating the device key

The C++ `rotate_device_key` makes a second key, has the server confirm it (with a challenge in
between, if the server asks for one), and puts it in the place of the first: in `identity.bin`, in
the memory of the pipeline, and then it ends the session and the offline latch.  A failure before
that deletes the new key again.

The call changes all or nothing exactly when none of four things happens: the new key cannot be
exported, it is not deleted where it should be, the state file is moved into place although its
bytes were not written, or the confirmation has no registration id (`rotation_atomic_iff`).  The
last throws with the new key in place and the session gone (`unregistered_rotation`).
-/
namespace SwmSdk
namespace Cpp
open ByteText Outcome

/-! ## The device -/

/-- What the pipeline and the system keep of the device and its session. -/
structure DeviceState where
  identity : Option DeviceIdentity
  /-- What `read_protected` gives of `identity.bin`. -/
  stored : Option Bytes
  /-- The public keys of the key store, by name. -/
  keys : Bytes → Option Bytes
  session : Option Bytes
  sessionExpiresAt : Int
  /-- A session is only taken from answers to requests that the identity signed. -/
  loaded : session.isSome → identity.isSome

/-- `read_metadata`. -/
def readMetadata (text : Bytes) : Option (Bytes × Bytes) :=
  match text.splitOn newline with
  | version :: installId :: keyName :: _ :: _ =>
      if version ≠ ascii "v2" ∨ installId.length ≠ 32 ∨ keyName = [] then none
      else some (installId, keyName)
  | _ => none

theorem readMetadata_identityMetadata (crypto : Crypto) (appId : Bytes) (random : RandomBytes) :
    readMetadata (identityMetadata (hex random.val)
      (buildKeyName crypto appId (hex random.val))) =
      some (hex random.val, buildKeyName crypto appId (hex random.val)) := by
  have hvalid : ¬ (ascii "v2" ≠ ascii "v2" ∨ (hex random.val).length ≠ 32 ∨
      buildKeyName crypto appId (hex random.val) = []) := by
    rw [hex_length, random.property]
    rintro (h | h | h)
    · exact h rfl
    · exact h rfl
    · cases h
  unfold readMetadata
  rw [identityMetadata_lines]
  exact if_neg hvalid

/-! ## Making a key -/

/-- What the system answers to `create_identity` and `populate_public_identity`; a step that fails
throws its failure. -/
structure KeyCreation where
  random : Except Failure RandomBytes
  provider : Except Failure Unit
  /-- A key of that name can be opened, if there is one. -/
  opens : Bool
  /-- The random bytes that replace those of a name that is taken. -/
  randomAgain : Except Failure RandomBytes
  /-- The key is made, with this public key. -/
  creates : Except Failure Bytes
  exports : Except Failure Unit

/-- The error of a device key that cannot be used. -/
def identityError (message : String) : Error where
  kind := .identity
  statusCode := 0
  serviceCode := []
  message := ascii message

/-- A key of `create_identity`, before its public key is exported. -/
structure NewKey where
  random : RandomBytes
  publicKey : Bytes

section Keys
variable (crypto : Crypto) (appId : Bytes)

/-- The name under which the key store keeps the key. -/
def NewKey.name (key : NewKey) : Bytes := buildKeyName crypto appId (hex key.random.val)

/-- `populate_public_identity`, of a key that can be exported. -/
def populatePublicIdentity (installId keyName publicKey : Bytes) : DeviceIdentity :=
  { deviceIdentity crypto appId installId keyName publicKey with
    publicKeySec1 := Base64Url.encode publicKey }

/-- The identity that the key gives the device. -/
def NewKey.identity (key : NewKey) : DeviceIdentity :=
  populatePublicIdentity crypto appId (hex key.random.val) (key.name crypto appId) key.publicKey

/-- `NCryptCreatePersistedKey` up to `NCryptFinalizeKey`, without a flag to overwrite a key. -/
def createKey (creation : KeyCreation) (random : RandomBytes) (s : DeviceState) :
    Except Failure NewKey × DeviceState :=
  match creation.creates with
  | .error e => (.error e, s)
  | .ok publicKey =>
      let key : NewKey := ⟨random, publicKey⟩
      if (s.keys (key.name crypto appId)).isSome then
        (.error (.swm (identityError "NCryptCreatePersistedKey")), s)
      else (.ok key, { s with
        keys := Function.update s.keys (key.name crypto appId) (some publicKey) })

/-- `create_identity`. -/
def createIdentity (rejectExisting : Bool) (creation : KeyCreation) (s : DeviceState) :
    Except Failure NewKey × DeviceState :=
  match creation.random, creation.provider with
  | .error e, _ => (.error e, s)
  | _, .error e => (.error e, s)
  | .ok random, .ok () =>
      match if creation.opens then s.keys (buildKeyName crypto appId (hex random.val))
          else none with
      | none => createKey crypto appId creation random s
      | some publicKey =>
          if rejectExisting then
            match creation.randomAgain with
            | .error e => (.error e, s)
            | .ok random => createKey crypto appId creation random s
          else (.ok ⟨random, publicKey⟩, s)

/-! ## Loading the identity -/

/-- How a write of `identity.bin` ends. -/
inductive WriteOutcome where
  | throws (failure : Failure)
  | written
  /-- The stream is closed without a check, so the bytes of a full disk are missing from the file
  that is moved into place. -/
  | truncated

/-- `write_protected`, of `identity.bin`. -/
def writeIdentity (outcome : WriteOutcome) (installId keyName : Bytes) (s : DeviceState) :
    Except Failure Unit × DeviceState :=
  match outcome with
  | .throws failure => (.error failure, s)
  | .written => (.ok (), { s with stored := some (identityMetadata installId keyName) })
  | .truncated => (.ok (), { s with stored := none })

/-- What the system answers to `load_or_create`. -/
structure LoadWorld where
  mutex : Except Failure Unit
  /-- The key that the metadata name can be opened, if there is one. -/
  opensStored : Bool
  creation : KeyCreation
  write : WriteOutcome

/-- The end of `load_or_create` when no key was opened. -/
def makeIdentity (world : LoadWorld) (s : DeviceState) :
    Except Failure DeviceIdentity × DeviceState :=
  match createIdentity crypto appId false world.creation s with
  | (.error e, s) => (.error e, s)
  | (.ok key, s) =>
      match world.creation.exports with
      | .error e => (.error e, s)
      | .ok () =>
          match writeIdentity world.write (hex key.random.val) (key.name crypto appId) s with
          | (.error e, s) => (.error e, s)
          | (.ok (), s) => (.ok (key.identity crypto appId), s)

/-- `load_or_create`. -/
def loadOrCreate (world : LoadWorld) (s : DeviceState) :
    Except Failure DeviceIdentity × DeviceState :=
  match world.mutex with
  | .error e => (.error e, s)
  | .ok () =>
      match s.stored.bind readMetadata with
      | none => makeIdentity crypto appId world s
      | some (installId, keyName) =>
          match world.creation.provider with
          | .error e => (.error e, s)
          | .ok () =>
              match if world.opensStored then s.keys keyName else none with
              | none => makeIdentity crypto appId world s
              | some publicKey =>
                  match world.creation.exports with
                  | .error e => (.error e, s)
                  | .ok () =>
                      (.ok (populatePublicIdentity crypto appId installId keyName publicKey), s)

/-- `identity`, which loads the identity at its first use. -/
def identity (world : LoadWorld) (s : DeviceState) :
    Except Failure DeviceIdentity × DeviceState :=
  match s.identity with
  | some identity => (.ok identity, s)
  | none =>
      match loadOrCreate crypto appId world s with
      | (.error e, s) => (.error e, s)
      | (.ok identity, s) =>
          (.ok identity, { s with identity := some identity, loaded := fun _ => rfl })

/-! ## The calls of the pipeline -/

/-- The device and the offline latch. -/
structure RotationState where
  device : DeviceState
  offlineLatched : Bool

/-- What a call of the pipeline does to the device on its way: it uses the identity, or a verified
interaction sets the offline latch. -/
inductive PipelineEffect where
  | identity (world : LoadWorld)
  | latch

/-- A call of the pipeline: what it does on its way, and how it ends if nothing of that throws. -/
structure PipelineCall (α : Type) where
  effects : List PipelineEffect
  result : Except Failure α

/-- The effects of a request, up to the first that throws. -/
def runEffects : List PipelineEffect → RotationState → Except Failure Unit × RotationState
  | [], s => (.ok (), s)
  | .identity world :: rest, s =>
      match identity crypto appId world s.device with
      | (.error e, device) => (.error e, { s with device })
      | (.ok _, device) => runEffects rest { s with device }
  | .latch :: rest, s => runEffects rest { s with offlineLatched := true }

/-- A call of the pipeline: its effects, then its result. -/
def PipelineCall.run {α : Type} (call : PipelineCall α) (s : RotationState) :
    Except Failure α × RotationState :=
  match runEffects crypto appId call.effects s with
  | (.error e, s) => (.error e, s)
  | (.ok (), s) => (call.result, s)

/-! ## The rotation -/

/-- `HardwareEvidence`. -/
structure HardwareEvidence where
  version : UInt32
  componentMask : UInt32
  aggregateHash : Bytes

/-- What the system and the server answer to one attempt. -/
structure RotationAttempt where
  hardware : Except Failure HardwareEvidence
  sign : Bytes → Except Failure Bytes
  send : ClientRequest → PipelineCall ProtocolResponse

/-- What the system and the server answer to a rotation. -/
structure RotationWorld where
  /-- `refresh_trusted_time`, unless the clock is set. -/
  timeSync : Option (PipelineCall Unit)
  onlineKeys : PipelineCall Unit
  /-- The options and the clock of the pipeline, then. -/
  pipeline : Pipeline
  creation : KeyCreation
  attempts : Nat → RotationAttempt
  commit : WriteOutcome
  /-- `NCryptDeleteKey` succeeds. -/
  deletes : Bool

/-- The pipeline with the session of the device. -/
def RotationWorld.pipelineOf (world : RotationWorld) (s : DeviceState) : Pipeline :=
  { world.pipeline with session := s.session, sessionExpiresAt := s.sessionExpiresAt }

/-- `create_device_auth_for`. -/
def createDeviceAuthFor (identity : DeviceIdentity) (evidence : HardwareEvidence)
    (challenge : Bytes) : Json :=
  .object (Json.fromMembers ([
    (ascii "install_id", .string identity.installId),
    (ascii "key_id", .string identity.keyId),
    (ascii "key_thumbprint", .string identity.keyThumbprint),
    (ascii "public_key_sec1", .string identity.publicKeySec1),
    (ascii "credential_version", .string (ascii "device_credential_v2")),
    (ascii "hardware_evidence", .object (Json.fromMembers [
      (ascii "version", .unsigned evidence.version.toNat),
      (ascii "component_mask", .unsigned evidence.componentMask.toNat),
      (ascii "aggregate_hash", .string evidence.aggregateHash)]))] ++
    if challenge = [] then [] else [(ascii "challenge", .string challenge)]))

/-- The proof of the new key, for a challenge. -/
def newKeyProof (attempt : RotationAttempt) (challenge proofDigest : Bytes) :
    Except Failure (List (Bytes × Json)) :=
  if challenge = [] then .ok []
  else do
    let digest ← lift (hexDecode proofDigest)
    if digest.length ≠ 32 then
      .error (.swm (protocolError (ascii "device key rotation proof digest is invalid")))
    else do
      let signature ← attempt.sign digest
      .ok [(ascii "new_key_proof", .string (Base64Url.encode signature))]

/-- The request of an attempt. -/
def rotationRequest (attempt : RotationAttempt) (pending : DeviceIdentity)
    (challenge proofDigest : Bytes) : Except Failure ClientRequest := do
  let evidence ← attempt.hardware
  let proof ← newKeyProof attempt challenge proofDigest
  .ok (postRequest "/api/client/device-key/rotate" .deviceKeyRotation
    ((ascii "new_device_auth", createDeviceAuthFor pending evidence challenge) :: proof))

variable (what : Bytes → Bytes)

/-- The challenge of an answer: the challenge and the digest to prove. -/
def readRotationChallenge (response : ProtocolResponse) : Except Error (Bytes × Bytes) := do
  let body ← parseJson what response.body (ascii "device key rotation challenge")
  let challenge ← jsonGetString body (ascii "challenge") true
  let proofDigest ← jsonGetString body (ascii "proof_digest") true
  if challenge = [] ∨ proofDigest = [] then
    .error (protocolError (ascii "device key rotation challenge is invalid"))
  else .ok (challenge, proofDigest)

/-- The confirmation of an answer. -/
def readConfirmation (pending : DeviceIdentity) (response : ProtocolResponse) :
    Except Error Json := do
  throwIfError what response
  let parsed ← parseJson what response.body (ascii "device key rotation response")
  let rotated ← jsonGetBool parsed (ascii "rotated") false
  if ¬ rotated then
    .error (protocolError (ascii "device key rotation response is invalid"))
  else do
    let installId ← jsonGetString parsed (ascii "install_id") false
    if installId ≠ pending.installId then
      .error (protocolError (ascii "device key rotation response is invalid"))
    else do
      let keyId ← jsonGetString parsed (ascii "key_id") false
      if keyId ≠ pending.keyId then
        .error (protocolError (ascii "device key rotation response is invalid"))
      else .ok parsed

/-- The attempts from one on, up to a confirmation. -/
def confirmFrom (attempts : Nat → RotationAttempt) (pending : DeviceIdentity) :
    Nat → Nat → Bytes → Bytes → RotationState → Except Failure Json × RotationState
  | 0, _, _, _, s => (.error (.swm (protocolError
      (ascii "device key rotation challenge retry was exhausted"))), s)
  | remaining + 1, attempt, challenge, proofDigest, s =>
      match rotationRequest (attempts attempt) pending challenge proofDigest with
      | .error e => (.error e, s)
      | .ok request =>
          match ((attempts attempt).send request).run crypto appId s with
          | (.error e, s) => (.error e, s)
          | (.ok response, s) =>
              -- a challenge is taken once only
              if response.statusCode = 428 ∧ attempt = 0 then
                match readRotationChallenge what response with
                | .error e => (.error (.swm e), s)
                | .ok (challenge, proofDigest) =>
                    confirmFrom attempts pending remaining (attempt + 1) challenge proofDigest s
              else (lift (readConfirmation what pending response), s)

/-- `DeviceKeyRotationResult`. -/
structure DeviceKeyRotationResult where
  registrationId : Bytes
  installId : Bytes
  keyId : Bytes
  deviceId : Bytes
  deriving DecidableEq, Repr

/-- The new identity takes the place of the old, and the session ends. -/
def DeviceState.install (pending : DeviceIdentity) (s : DeviceState) : DeviceState :=
  { s with
    identity := some pending
    session := none
    sessionExpiresAt := 0
    loaded := fun _ => rfl }

/-- `delete_pending`. -/
def DeviceState.deletePending (pending : DeviceIdentity) (deletes : Bool) (s : DeviceState) :
    DeviceState :=
  if deletes then { s with keys := Function.update s.keys pending.keyName none } else s

/-- What follows a confirmation. -/
def finishRotation (deviceId : Bytes) (pending : DeviceIdentity) (parsed : Json) :
    Except Failure DeviceKeyRotationResult := do
  let registrationId ← lift (jsonGetString parsed (ascii "registration_id") true)
  .ok {
    registrationId
    installId := pending.installId
    keyId := pending.keyId
    deviceId := if deviceId = [] then pending.deviceId else deviceId }

/-- The `try` block: its end, whether `committed` is set, and the state. -/
def tryRotation (deviceId : Bytes) (world : RotationWorld) (pending : DeviceIdentity)
    (s : RotationState) : Except Failure DeviceKeyRotationResult × Bool × RotationState :=
  match confirmFrom crypto appId what world.attempts pending 2 0 [] [] s with
  | (.error e, s) => (.error e, false, s)
  | (.ok parsed, s) =>
      match writeIdentity world.commit pending.installId pending.keyName s.device with
      | (.error e, device) => (.error e, false, { s with device })
      -- from here on a failure finds `committed` set
      | (.ok (), device) => (finishRotation deviceId pending parsed, true,
          ⟨device.install pending, false⟩)

/-- The start of the call, up to the session. -/
def beginRotation (world : RotationWorld) (s : RotationState) :
    Except Failure Unit × RotationState :=
  match (world.timeSync.getD ⟨[], .ok ()⟩).run crypto appId s with
  | (.error e, s) => (.error e, s)
  | (.ok (), s) =>
      match world.onlineKeys.run crypto appId s with
      | (.error e, s) => (.error e, s)
      | (.ok (), s) =>
          match (world.pipelineOf s.device).ensureSession
              "trusted server time is unavailable for session validation" with
          | .error e => (.error (.swm e), s)
          | .ok _ => (.ok (), s)

/-- `create_pending`. -/
def createPending (creation : KeyCreation) (s : DeviceState) :
    Except Failure DeviceIdentity × DeviceState :=
  match createIdentity crypto appId true creation s with
  | (.error e, s) => (.error e, s)
  | (.ok key, s) =>
      match creation.exports with
      | .error e => (.error e, s)
      | .ok () => (.ok (key.identity crypto appId), s)

/-- `rotate_device_key`; `deviceId` is the one of the options. -/
def rotateDeviceKey (deviceId : Bytes) (world : RotationWorld) (s : RotationState) :
    Except Failure DeviceKeyRotationResult × RotationState :=
  match beginRotation crypto appId world s with
  | (.error e, s) => (.error e, s)
  | (.ok (), s) =>
      match createPending crypto appId world.creation s.device with
      -- outside the `try` block: a key that was made stays
      | (.error e, device) => (.error e, { s with device })
      | (.ok pending, device) =>
          match tryRotation crypto appId what deviceId world pending { s with device } with
          | (.ok result, _, s) => (.ok result, s)
          | (.error e, committed, s) =>
              (.error e, if committed then s
                else { s with device := s.device.deletePending pending world.deletes })

/-! ## All or nothing -/

/-- The device is as before, `identity()` having been called at most. -/
def Kept (s t : DeviceState) : Prop := t = s ∨ ∃ world, t = (identity crypto appId world s).2

/-- An attempt is answered with a response. -/
def RotationAttempt.Answers (attempt : RotationAttempt) (pending : DeviceIdentity)
    (challenge proofDigest : Bytes) (response : ProtocolResponse) : Prop :=
  ∃ request, rotationRequest attempt pending challenge proofDigest = .ok request ∧
    (attempt.send request).result = .ok response

/-- The server confirms the identity, after a challenge or without one. -/
def Confirms (world : RotationWorld) (pending : DeviceIdentity) (parsed : Json) : Prop :=
  ∃ response, (world.attempts 0).Answers pending [] [] response ∧
    if response.statusCode = 428 then
      ∃ challenge proofDigest next,
        readRotationChallenge what response = .ok (challenge, proofDigest) ∧
        (world.attempts 1).Answers pending challenge proofDigest next ∧
        readConfirmation what pending next = .ok parsed
    else readConfirmation what pending response = .ok parsed

/-- The new identity is in place, and the session and the latch have ended. -/
structure Rotated (world : RotationWorld) (t : RotationState) (pending : DeviceIdentity) :
    Prop where
  confirmed : ∃ parsed, Confirms what world pending parsed
  memory : t.device.identity = some pending
  disk : t.device.stored.bind readMetadata = some (pending.installId, pending.keyName)
  session : t.device.session = none ∧ t.device.sessionExpiresAt = 0
  latch : t.offlineLatched = false

/-- **All or nothing**: a call that throws changes nothing and leaves no key, one that returns has
rotated. -/
def Atomic (deviceId : Bytes) (world : RotationWorld) (s : RotationState) : Prop :=
  match rotateDeviceKey crypto appId what deviceId world s with
  | (.error _, t) => Kept crypto appId s.device t.device
  | (.ok _, t) => ∃ pending, Rotated what world t pending

/-- The refreshes succeed and the session lasts. -/
structure Starts (world : RotationWorld) (s : DeviceState) : Prop where
  timeSync : (world.timeSync.getD ⟨[], .ok ()⟩).result = .ok ()
  onlineKeys : world.onlineKeys.result = .ok ()
  session : ∃ session, (world.pipelineOf s).ensureSession
    "trusted server time is unavailable for session validation" = .ok session

/-- What must hold once the new key is there: where nothing confirms it or the write of its file
throws, the key is deleted; otherwise the bytes of the file are written, and the confirmation has a
registration id. -/
structure Settled (world : RotationWorld) (pending : DeviceIdentity) : Prop where
  deleted : (∀ parsed, ¬ Confirms what world pending parsed) ∨
    (∃ failure, world.commit = .throws failure) → world.deletes = true
  written : ∀ parsed, Confirms what world pending parsed →
    (∀ failure, world.commit ≠ .throws failure) →
      world.commit = .written ∧ ∃ id, jsonGetString parsed (ascii "registration_id") true = .ok id

/-- When a key is made, its public key is exported, and what follows is settled. -/
def Orderly (world : RotationWorld) (s : DeviceState) : Prop :=
  ∀ key, Starts world s → (createIdentity crypto appId true world.creation s).1 = .ok key →
    world.creation.exports = .ok () ∧ Settled what world (key.identity crypto appId)

end Keys

section Lemmas
variable {crypto : Crypto} {appId : Bytes} {what : Bytes → Bytes}

/-! ## Loading keeps the session -/

theorem createKey_session (crypto : Crypto) (appId : Bytes)
    (creation : KeyCreation) (random : RandomBytes) (s : DeviceState) :
    (createKey crypto appId creation random s).2.session = s.session := by
  unfold createKey
  split
  · rfl
  · dsimp only
    split
    · rfl
    · rfl

theorem createIdentity_session (crypto : Crypto) (appId : Bytes)
    (rejectExisting : Bool) (creation : KeyCreation) (s : DeviceState) :
    (createIdentity crypto appId rejectExisting creation s).2.session = s.session := by
  unfold createIdentity
  split
  · rfl
  · rfl
  · split
    · exact createKey_session crypto appId _ _ _
    · split
      · split
        · rfl
        · exact createKey_session crypto appId _ _ _
      · rfl

theorem writeIdentity_session (outcome : WriteOutcome) (installId keyName : Bytes)
    (s : DeviceState) : (writeIdentity outcome installId keyName s).2.session = s.session := by
  cases outcome <;> rfl

theorem makeIdentity_session (crypto : Crypto) (appId : Bytes)
    (world : LoadWorld) (s : DeviceState) :
    (makeIdentity crypto appId world s).2.session = s.session := by
  have hcreate := createIdentity_session crypto appId false world.creation s
  unfold makeIdentity
  split
  · rename_i t hfailed
    rw [hfailed] at hcreate
    exact hcreate
  · rename_i key t hmade
    rw [hmade] at hcreate
    split
    · exact hcreate
    · have hwrite := writeIdentity_session world.write (hex key.random.val)
        (key.name crypto appId) t
      split
      · rename_i hfailed
        rw [hfailed] at hwrite
        exact hwrite.trans hcreate
      · rename_i hwritten
        rw [hwritten] at hwrite
        exact hwrite.trans hcreate

theorem loadOrCreate_session (crypto : Crypto) (appId : Bytes)
    (world : LoadWorld) (s : DeviceState) :
    (loadOrCreate crypto appId world s).2.session = s.session := by
  unfold loadOrCreate
  split
  · rfl
  · split
    · exact makeIdentity_session crypto appId world s
    · split
      · rfl
      · split
        · exact makeIdentity_session crypto appId world s
        · split
          · rfl
          · rfl

theorem identity_session (crypto : Crypto) (appId : Bytes) (world : LoadWorld) (s : DeviceState) :
    (identity crypto appId world s).2.session = s.session := by
  have hload := loadOrCreate_session crypto appId world s
  unfold identity
  split
  · rfl
  · split
    · rename_i hfailed
      rw [hfailed] at hload
      exact hload
    · rename_i hloaded
      rw [hloaded] at hload
      exact hload

/-! ## What a call of the pipeline leaves -/

/-- A loaded identity is not loaded again. -/
theorem identity_of_loaded (crypto : Crypto) (appId : Bytes)
    {s : DeviceState} (h : s.identity.isSome) (world : LoadWorld) :
    ∃ loaded, identity crypto appId world s = (.ok loaded, s) := by
  obtain ⟨loaded, hloaded⟩ := Option.isSome_iff_exists.mp h
  refine ⟨loaded, ?_⟩
  unfold identity
  rw [hloaded]

theorem identity_loads {s t : DeviceState} {world : LoadWorld} {loaded : DeviceIdentity}
    (h : identity crypto appId world s = (.ok loaded, t)) : t.identity.isSome := by
  unfold identity at h
  split at h
  · rename_i old hold
    obtain ⟨-, rfl⟩ := Prod.mk.inj h
    rw [hold]
    rfl
  · split at h
    · obtain ⟨herror, -⟩ := Prod.mk.inj h
      cases herror
    · obtain ⟨-, rfl⟩ := Prod.mk.inj h
      rfl

theorem Kept.eq_of_loaded {s t : DeviceState} (h : Kept crypto appId s t)
    (hloaded : s.identity.isSome) : t = s := by
  rcases h with rfl | ⟨world, rfl⟩
  · rfl
  · obtain ⟨loaded, hsame⟩ := identity_of_loaded crypto appId hloaded world
    rw [hsame]

/-- With a loaded identity nothing on the way of a call throws. -/
theorem runEffects_of_loaded (crypto : Crypto) (appId : Bytes) (effects : List PipelineEffect)
    {s : RotationState} (h : s.device.identity.isSome) :
    ∃ t, runEffects crypto appId effects s = (.ok (), t) ∧ t.device = s.device := by
  induction effects generalizing s with
  | nil => exact ⟨s, rfl, rfl⟩
  | cons effect rest ih =>
    cases effect with
    | identity world =>
      obtain ⟨loaded, hsame⟩ := identity_of_loaded crypto appId h world
      rw [runEffects, hsame]
      exact ih h
    | latch => exact ih (s := { s with offlineLatched := true }) h

theorem runEffects_session (crypto : Crypto) (appId : Bytes)
    (effects : List PipelineEffect) (s : RotationState) :
    (runEffects crypto appId effects s).2.device.session = s.device.session := by
  induction effects generalizing s with
  | nil => rfl
  | cons effect rest ih =>
    cases effect with
    | identity world =>
      have hsession := identity_session crypto appId world s.device
      rw [runEffects]
      split
      · rename_i hfailed
        rw [hfailed] at hsession
        exact hsession
      · rename_i device hloaded
        rw [hloaded] at hsession
        exact (ih _).trans hsession
    | latch => exact ih { s with offlineLatched := true }

/-- Effects keep the device; where they end well after loading it, it is loaded. -/
theorem runEffects_kept (crypto : Crypto) (appId : Bytes)
    (effects : List PipelineEffect) (s : RotationState) :
    Kept crypto appId s.device (runEffects crypto appId effects s).2.device ∧
      ((runEffects crypto appId effects s).1 = .ok () →
        (runEffects crypto appId effects s).2.device = s.device ∨
          (runEffects crypto appId effects s).2.device.identity.isSome) := by
  induction effects generalizing s with
  | nil => exact ⟨.inl rfl, fun _ => .inl rfl⟩
  | cons effect rest ih =>
    cases effect with
    | latch => exact ih { s with offlineLatched := true }
    | identity world =>
      rw [runEffects]
      split
      · rename_i e device hfailed
        refine ⟨.inr ⟨world, ?_⟩, nofun⟩
        rw [hfailed]
      · rename_i loaded device hloaded
        -- the rest finds the identity loaded
        have hsome : device.identity.isSome := identity_loads hloaded
        obtain ⟨t, hrest, hsame⟩ := runEffects_of_loaded crypto appId rest
          (s := { s with device }) hsome
        rw [hrest, hsame]
        refine ⟨.inr ⟨world, ?_⟩, fun _ => .inr hsome⟩
        rw [hloaded]

variable {α : Type}

theorem PipelineCall.run_device (crypto : Crypto) (appId : Bytes)
    (call : PipelineCall α) (s : RotationState) :
    (call.run crypto appId s).2 = (runEffects crypto appId call.effects s).2 := by
  unfold PipelineCall.run
  split
  · rename_i hfailed
    rw [hfailed]
  · rename_i hdone
    rw [hdone]

theorem PipelineCall.effects_of_run {call : PipelineCall α} {s t : RotationState} {a : α}
    (h : call.run crypto appId s = (.ok a, t)) :
    (runEffects crypto appId call.effects s).1 = .ok () := by
  unfold PipelineCall.run at h
  split at h
  · obtain ⟨herror, -⟩ := Prod.mk.inj h
    cases herror
  · rename_i hdone
    rw [hdone]

/-- A call keeps the device; where it ends well after loading it, it is loaded. -/
theorem PipelineCall.run_kept (crypto : Crypto) (appId : Bytes)
    (call : PipelineCall α) (s : RotationState) :
    Kept crypto appId s.device (call.run crypto appId s).2.device ∧
      ∀ a, (call.run crypto appId s).1 = .ok a →
        (call.run crypto appId s).2.device = s.device ∨
          (call.run crypto appId s).2.device.identity.isSome := by
  obtain ⟨hkept, hloads⟩ := runEffects_kept crypto appId call.effects s
  rw [call.run_device]
  refine ⟨hkept, fun a hresult => hloads ?_⟩
  have hrun : call.run crypto appId s = (.ok a, (call.run crypto appId s).2) :=
    Prod.ext hresult rfl
  exact PipelineCall.effects_of_run hrun

/-- With a loaded identity a call only ends in its own way. -/
theorem PipelineCall.run_of_loaded (crypto : Crypto) (appId : Bytes) (call : PipelineCall α)
    {s : RotationState} (h : s.device.identity.isSome) :
    ∃ t, call.run crypto appId s = (call.result, t) ∧ t.device = s.device := by
  obtain ⟨t, hrun, hsame⟩ := runEffects_of_loaded crypto appId call.effects h
  refine ⟨t, ?_, hsame⟩
  unfold PipelineCall.run
  rw [hrun]

theorem PipelineCall.run_session (crypto : Crypto) (appId : Bytes)
    (call : PipelineCall α) (s : RotationState) :
    (call.run crypto appId s).2.device.session = s.device.session := by
  rw [call.run_device]
  exact runEffects_session crypto appId call.effects s

/-! ## The start of the call -/

theorem ensureSession_some {pipeline : Pipeline} {unavailable : String} {session : Bytes}
    (h : pipeline.ensureSession unavailable = .ok session) : pipeline.session.isSome := by
  unfold Pipeline.ensureSession at h
  obtain ⟨-, h⟩ := guard_eq_ok.mp h
  split at h
  · rename_i htaken
    rw [htaken]
    rfl
  · cases h

/-- The two refreshes keep the device. -/
theorem refreshes_kept {first second : PipelineCall Unit} {s t u : RotationState}
    {result : Except Failure Unit} (hfirst : first.run crypto appId s = (.ok (), t))
    (hsecond : second.run crypto appId t = (result, u)) : Kept crypto appId s.device u.device := by
  obtain ⟨hkept, hloads⟩ := first.run_kept crypto appId s
  have hnext := (second.run_kept crypto appId t).1
  rw [hfirst] at hkept hloads
  rw [hsecond] at hnext
  rcases hloads () rfl with hsame | hloaded
  · exact hsame ▸ hnext
  · rw [hnext.eq_of_loaded hloaded]
    exact hkept

theorem beginRotation_kept (crypto : Crypto) (appId : Bytes)
    (world : RotationWorld) (s : RotationState) :
    Kept crypto appId s.device (beginRotation crypto appId world s).2.device := by
  unfold beginRotation
  split
  · rename_i e t hfailed
    have hkept := (PipelineCall.run_kept crypto appId
      (world.timeSync.getD ⟨[], .ok ()⟩) s).1
    rw [hfailed] at hkept
    exact hkept
  · rename_i t hsynced
    split
    · rename_i e u hfailed
      exact refreshes_kept hsynced hfailed
    · rename_i u hrefreshed
      split
      · exact refreshes_kept hsynced hrefreshed
      · exact refreshes_kept hsynced hrefreshed

/-- A session that lasts belongs to a loaded identity. -/
theorem Starts.loaded {world : RotationWorld} {s : DeviceState} (h : Starts world s) :
    s.identity.isSome := by
  obtain ⟨session, hsession⟩ := h.session
  exact s.loaded (ensureSession_some hsession)

/-- A call that starts finds the device as it was. -/
theorem beginRotation_of_starts (crypto : Crypto) (appId : Bytes) {world : RotationWorld}
    {s : RotationState} (h : Starts world s.device) :
    ∃ t, beginRotation crypto appId world s = (.ok (), t) ∧ t.device = s.device := by
  obtain ⟨t, hsynced, hfirst⟩ := PipelineCall.run_of_loaded crypto appId
    (world.timeSync.getD ⟨[], .ok ()⟩) h.loaded
  obtain ⟨u, hrefreshed, hsecond⟩ := PipelineCall.run_of_loaded crypto appId world.onlineKeys
    (s := t) (hfirst ▸ h.loaded)
  obtain ⟨session, hsession⟩ := h.session
  have hsame : u.device = s.device := hsecond.trans hfirst
  refine ⟨u, ?_, hsame⟩
  rw [h.timeSync] at hsynced
  rw [h.onlineKeys] at hrefreshed
  unfold beginRotation
  rw [hsynced]
  dsimp only
  rw [hrefreshed]
  dsimp only
  rw [hsame, hsession]

theorem starts_of_beginRotation {world : RotationWorld} {s t : RotationState}
    (h : beginRotation crypto appId world s = (.ok (), t)) : Starts world s.device := by
  unfold beginRotation at h
  split at h
  · cases h
  · rename_i u hsynced
    split at h
    · cases h
    · rename_i v hrefreshed
      split at h
      · cases h
      · rename_i session hsession
        -- the session is the one of the start, so the identity was loaded then
        have hfirst := PipelineCall.run_session crypto appId (world.timeSync.getD ⟨[], .ok ()⟩) s
        have hsecond := PipelineCall.run_session crypto appId world.onlineKeys u
        rw [hsynced] at hfirst
        rw [hrefreshed] at hsecond
        have hsome : v.device.session.isSome := ensureSession_some hsession
        rw [hsecond, hfirst] at hsome
        obtain ⟨u', hrun, hsame⟩ := PipelineCall.run_of_loaded crypto appId
          (world.timeSync.getD ⟨[], .ok ()⟩) (s.device.loaded hsome)
        obtain ⟨hresult, rfl⟩ := Prod.mk.inj (hsynced.symm.trans hrun)
        obtain ⟨v', hrun', hsame'⟩ := PipelineCall.run_of_loaded crypto appId world.onlineKeys
          (s := u) (hsame ▸ s.device.loaded hsome)
        obtain ⟨hresult', rfl⟩ := Prod.mk.inj (hrefreshed.symm.trans hrun')
        refine ⟨hresult.symm, hresult'.symm, session, ?_⟩
        rw [← hsame, ← hsame']
        exact hsession

/-! ## The new key -/

theorem createKey_error {creation : KeyCreation} {random : RandomBytes} {s t : DeviceState}
    {e : Failure} (h : createKey crypto appId creation random s = (.error e, t)) : t = s := by
  unfold createKey at h
  split at h
  · exact (Prod.mk.inj h).2.symm
  · dsimp only at h
    split at h
    · exact (Prod.mk.inj h).2.symm
    · cases h

theorem createKey_ok {creation : KeyCreation} {random : RandomBytes} {s t : DeviceState}
    {key : NewKey} (h : createKey crypto appId creation random s = (.ok key, t)) :
    s.keys (key.name crypto appId) = none ∧ t = { s with
      keys := Function.update s.keys (key.name crypto appId) (some key.publicKey) } := by
  unfold createKey at h
  split at h
  · cases h
  · dsimp only at h
    split at h
    · cases h
    · rename_i hfree
      obtain ⟨hkey, rfl⟩ := Prod.mk.inj h
      obtain rfl := Except.ok.inj hkey
      exact ⟨Option.not_isSome_iff_eq_none.mp hfree, rfl⟩

/-- With existing keys rejected, `create_identity` makes a key or nothing. -/
theorem createIdentity_cases (crypto : Crypto) (appId : Bytes)
    (creation : KeyCreation) (s : DeviceState) :
    (∃ e, createIdentity crypto appId true creation s = (.error e, s)) ∨
      ∃ random, createIdentity crypto appId true creation s =
        createKey crypto appId creation random s := by
  unfold createIdentity
  split
  · exact .inl ⟨_, rfl⟩
  · exact .inl ⟨_, rfl⟩
  · split
    · exact .inr ⟨_, rfl⟩
    · rw [if_pos rfl]
      split
      · exact .inl ⟨_, rfl⟩
      · exact .inr ⟨_, rfl⟩

theorem createIdentity_error {creation : KeyCreation} {s t : DeviceState} {e : Failure}
    (h : createIdentity crypto appId true creation s = (.error e, t)) : t = s := by
  rcases createIdentity_cases crypto appId creation s with
    ⟨e', hfailed⟩ | ⟨random, hcreated⟩
  · rw [hfailed] at h
    exact (Prod.mk.inj h).2.symm
  · rw [hcreated] at h
    exact createKey_error h

theorem createIdentity_ok {creation : KeyCreation} {s t : DeviceState} {key : NewKey}
    (h : createIdentity crypto appId true creation s = (.ok key, t)) :
    s.keys (key.name crypto appId) = none ∧ t = { s with
      keys := Function.update s.keys (key.name crypto appId) (some key.publicKey) } := by
  rcases createIdentity_cases crypto appId creation s with
    ⟨e', hfailed⟩ | ⟨random, hcreated⟩
  · rw [hfailed] at h
    cases h
  · rw [hcreated] at h
    exact createKey_ok h

theorem createPending_of_error {creation : KeyCreation} {s t : DeviceState} {e : Failure}
    (h : createIdentity crypto appId true creation s = (.error e, t)) :
    createPending crypto appId creation s = (.error e, t) := by
  unfold createPending
  rw [h]

/-- A key that was made is there, whether or not it can be exported. -/
theorem createPending_of_ok {creation : KeyCreation} {s t : DeviceState} {key : NewKey}
    (h : createIdentity crypto appId true creation s = (.ok key, t)) :
    createPending crypto appId creation s =
      match creation.exports with
      | .error e => (.error e, t)
      | .ok () => (.ok (key.identity crypto appId), t) := by
  unfold createPending
  rw [h]

/-- Deleting the new key brings the device back. -/
theorem deletePending_new {s : DeviceState} {name publicKey : Bytes} {pending : DeviceIdentity}
    (hfree : s.keys name = none) (hname : pending.keyName = name) :
    DeviceState.deletePending pending true
      { s with keys := Function.update s.keys name (some publicKey) } = s := by
  have hkeys : Function.update (Function.update s.keys name (some publicKey)) name none =
      s.keys := by
    rw [Function.update_idem, ← hfree, Function.update_eq_self]
  unfold DeviceState.deletePending
  rw [if_pos rfl, hname]
  dsimp only
  rw [hkeys]

/-! ## The attempts -/

/-- The attempts keep the device. -/
theorem confirmFrom_device (crypto : Crypto) (appId : Bytes) (what : Bytes → Bytes)
    (attempts : Nat → RotationAttempt) (pending : DeviceIdentity) (remaining attempt : Nat)
    (challenge proofDigest : Bytes) {s : RotationState} (h : s.device.identity.isSome) :
    (confirmFrom crypto appId what attempts pending remaining attempt challenge proofDigest
      s).2.device = s.device := by
  induction remaining generalizing attempt challenge proofDigest s with
  | zero => rfl
  | succ remaining ih =>
    unfold confirmFrom
    split
    · rfl
    · rename_i request _
      obtain ⟨t, hrun, hsame⟩ := PipelineCall.run_of_loaded crypto appId
        ((attempts attempt).send request) h
      rw [hrun]
      split
      · rename_i hfailed
        rw [← (Prod.mk.inj hfailed).2]
        exact hsame
      · rename_i response u hanswered
        obtain ⟨-, rfl⟩ := Prod.mk.inj hanswered
        split
        · split
          · exact hsame
          · exact (ih _ _ _ (hsame ▸ h)).trans hsame
        · exact hsame

/-- An attempt ends with its request, its answer and what the answer leads to. -/
theorem confirmFrom_succ (crypto : Crypto) (appId : Bytes) (what : Bytes → Bytes)
    (attempts : Nat → RotationAttempt) (pending : DeviceIdentity) (remaining attempt : Nat)
    (challenge proofDigest : Bytes) {s : RotationState} (h : s.device.identity.isSome) :
    ∃ next : ClientRequest → RotationState, (∀ request, (next request).device = s.device) ∧
      (confirmFrom crypto appId what attempts pending (remaining + 1) attempt challenge proofDigest
        s).1 = (do
          let request ← rotationRequest (attempts attempt) pending challenge proofDigest
          let response ← ((attempts attempt).send request).result
          if response.statusCode = 428 ∧ attempt = 0 then
            let (challenge, proofDigest) ← lift (readRotationChallenge what response)
            (confirmFrom crypto appId what attempts pending remaining (attempt + 1) challenge
              proofDigest (next request)).1
          else lift (readConfirmation what pending response)) := by
  choose next hnext using fun request => PipelineCall.run_of_loaded crypto appId
    ((attempts attempt).send request) h
  refine ⟨next, fun request => (hnext request).2, ?_⟩
  rw [confirmFrom]
  cases rotationRequest (attempts attempt) pending challenge proofDigest with
  | error e => rfl
  | ok request =>
    dsimp only
    rw [(hnext request).1]
    show _ = ((attempts attempt).send request).result >>= _
    cases ((attempts attempt).send request).result with
    | error e => rfl
    | ok response =>
      by_cases hchallenged : response.statusCode = 428 ∧ attempt = 0
      · show (if _ then _ else _ : Except Failure Json × RotationState).1 = if _ then _ else _
        rw [if_pos hchallenged, if_pos hchallenged]
        cases readRotationChallenge what response with
        | error e => rfl
        | ok read => rfl
      · show (if _ then _ else _ : Except Failure Json × RotationState).1 = if _ then _ else _
        rw [if_neg hchallenged, if_neg hchallenged]

/-- The second attempt is the last. -/
theorem confirmFrom_last (crypto : Crypto) (appId : Bytes) (what : Bytes → Bytes)
    (attempts : Nat → RotationAttempt) (pending : DeviceIdentity) (challenge proofDigest : Bytes)
    {s : RotationState} (h : s.device.identity.isSome) (parsed : Json) :
    (confirmFrom crypto appId what attempts pending 1 1 challenge proofDigest s).1 = .ok parsed ↔
      ∃ response, (attempts 1).Answers pending challenge proofDigest response ∧
        readConfirmation what pending response = .ok parsed := by
  obtain ⟨_, _, hsecond⟩ := confirmFrom_succ crypto appId what attempts pending 0 1 challenge
    proofDigest h
  rw [hsecond]
  constructor
  · intro hok
    obtain ⟨request, hrequest, hok⟩ := bind_eq_ok.mp hok
    obtain ⟨response, hresponse, hok⟩ := bind_eq_ok.mp hok
    rw [if_neg (fun hzero => Nat.one_ne_zero hzero.2)] at hok
    exact ⟨response, ⟨request, hrequest, hresponse⟩, lift_eq_ok.mp hok⟩
  · rintro ⟨response, ⟨request, hrequest, hresponse⟩, hok⟩
    refine bind_eq_ok.mpr ⟨request, hrequest, bind_eq_ok.mpr ⟨response, hresponse, ?_⟩⟩
    rw [if_neg (fun hzero => Nat.one_ne_zero hzero.2)]
    exact lift_eq_ok.mpr hok

/-- **The attempts end with a confirmation exactly when the server confirms.** -/
theorem confirmFrom_ok_iff (crypto : Crypto) (appId : Bytes) (what : Bytes → Bytes)
    (world : RotationWorld) (pending : DeviceIdentity) {s : RotationState}
    (h : s.device.identity.isSome) (parsed : Json) :
    (confirmFrom crypto appId what world.attempts pending 2 0 [] [] s).1 = .ok parsed ↔
      Confirms what world pending parsed := by
  obtain ⟨next, hnext, hfirst⟩ := confirmFrom_succ crypto appId what world.attempts pending 1 0
    [] [] h
  -- behind a challenge there is one attempt, which no further challenge follows
  have hlast : ∀ request challenge proofDigest, (confirmFrom crypto appId what world.attempts
      pending 1 1 challenge proofDigest (next request)).1 = .ok parsed ↔
        ∃ response, (world.attempts 1).Answers pending challenge proofDigest response ∧
          readConfirmation what pending response = .ok parsed :=
    fun request _ _ => confirmFrom_last crypto appId what _ _ _ _ (hnext request ▸ h) parsed
  rw [hfirst]
  constructor
  · intro hok
    obtain ⟨request, hrequest, hok⟩ := bind_eq_ok.mp hok
    obtain ⟨response, hresponse, hok⟩ := bind_eq_ok.mp hok
    refine ⟨response, ⟨request, hrequest, hresponse⟩, ?_⟩
    by_cases hchallenged : response.statusCode = 428
    · rw [if_pos ⟨hchallenged, rfl⟩] at hok
      obtain ⟨⟨challenge, proofDigest⟩, hread, hok⟩ := bind_eq_ok.mp hok
      obtain ⟨answer, hanswer, hconfirmed⟩ := (hlast _ _ _).mp hok
      rw [if_pos hchallenged]
      exact ⟨challenge, proofDigest, answer, lift_eq_ok.mp hread, hanswer, hconfirmed⟩
    · rw [if_neg fun hboth => hchallenged hboth.1] at hok
      rw [if_neg hchallenged]
      exact lift_eq_ok.mp hok
  · rintro ⟨response, ⟨request, hrequest, hresponse⟩, hok⟩
    refine bind_eq_ok.mpr ⟨request, hrequest, bind_eq_ok.mpr ⟨response, hresponse, ?_⟩⟩
    by_cases hchallenged : response.statusCode = 428
    · rw [if_pos hchallenged] at hok
      obtain ⟨challenge, proofDigest, answer, hread, hanswer, hconfirmed⟩ := hok
      rw [if_pos ⟨hchallenged, rfl⟩]
      exact bind_eq_ok.mpr ⟨(challenge, proofDigest), lift_eq_ok.mpr hread,
        (hlast _ _ _).mpr ⟨answer, hanswer, hconfirmed⟩⟩
    · rw [if_neg hchallenged] at hok
      rw [if_neg fun hboth => hchallenged hboth.1]
      exact lift_eq_ok.mpr hok

/-! ## The whole call -/

/-- A device that has the new key is not the one before. -/
theorem not_kept {s t : DeviceState} {name publicKey : Bytes} (hloaded : s.identity.isSome)
    (hfree : s.keys name = none) (hkeys : t.keys = Function.update s.keys name (some publicKey)) :
    ¬ Kept crypto appId s t := by
  intro hkept
  rw [hkept.eq_of_loaded hloaded] at hkeys
  rw [hkeys, Function.update_self] at hfree
  cases hfree

/-- Where a call starts and makes a key, order is a matter of this key. -/
theorem orderly_iff {world : RotationWorld} {s t : DeviceState} {key : NewKey}
    (hstarts : Starts world s)
    (hcreate : createIdentity crypto appId true world.creation s = (.ok key, t)) :
    Orderly crypto appId what world s ↔
      world.creation.exports = .ok () ∧ Settled what world (key.identity crypto appId) := by
  constructor
  · intro h
    refine h key hstarts ?_
    rw [hcreate]
  · intro h made _ hmade
    rw [hcreate] at hmade
    exact Except.ok.inj hmade ▸ h

/-- Without a confirmation the key has to be deleted. -/
theorem settled_of_unconfirmed {world : RotationWorld} {pending : DeviceIdentity}
    (h : ∀ parsed, ¬ Confirms what world pending parsed) :
    Settled what world pending ↔ world.deletes = true := by
  constructor
  · intro hsettled
    exact hsettled.deleted (.inl h)
  · intro hdeletes
    exact ⟨fun _ => hdeletes, fun parsed hparsed => absurd hparsed (h parsed)⟩

/-- With a confirmation it depends on the write of the file. -/
theorem settled_of_confirmed {world : RotationWorld} {pending : DeviceIdentity} {parsed : Json}
    (h : ∀ other, Confirms what world pending other ↔ other = parsed) :
    Settled what world pending ↔
      match world.commit with
      | .throws _ => world.deletes = true
      | .truncated => False
      | .written => ∃ id, jsonGetString parsed (ascii "registration_id") true = .ok id := by
  have hparsed : Confirms what world pending parsed := (h parsed).mpr rfl
  cases hcommit : world.commit with
  | throws failure =>
    constructor
    · intro hsettled
      exact hsettled.deleted (.inr ⟨failure, hcommit⟩)
    · intro hdeletes
      exact ⟨fun _ => hdeletes, fun _ _ hwrites => absurd hcommit (hwrites failure)⟩
  | truncated =>
    refine iff_of_false (fun hsettled => ?_) id
    have hwrites : ∀ failure, world.commit ≠ .throws failure := by
      intro failure hthrows
      cases hcommit.symm.trans hthrows
    cases hcommit.symm.trans (hsettled.written parsed hparsed hwrites).1
  | written =>
    have hwrites : ∀ failure, world.commit ≠ .throws failure := by
      intro failure hthrows
      cases hcommit.symm.trans hthrows
    constructor
    · intro hsettled
      exact (hsettled.written parsed hparsed hwrites).2
    · intro hid
      refine ⟨?_, fun other hother _ => ⟨hcommit, (h other).mp hother ▸ hid⟩⟩
      rintro (hnone | ⟨failure, hthrows⟩)
      · exact absurd hparsed (hnone parsed)
      · exact absurd hthrows (hwrites failure)

/-- The end of a call whose new key is there. -/
theorem tryRotation_atomic_iff (crypto : Crypto) (appId : Bytes) (what : Bytes → Bytes)
    (deviceId : Bytes) (world : RotationWorld) {s : DeviceState} {t : RotationState} {key : NewKey}
    (hloaded : s.identity.isSome)
    (hfree : s.keys (key.name crypto appId) = none)
    (hdevice : t.device = { s with
      keys := Function.update s.keys (key.name crypto appId) (some key.publicKey) }) :
    (match tryRotation crypto appId what deviceId world (key.identity crypto appId) t with
      | (.ok _, _, u) => ∃ pending, Rotated what world u pending
      | (.error _, committed, u) => Kept crypto appId s (if committed then u.device
          else u.device.deletePending (key.identity crypto appId) world.deletes)) ↔
      Settled what world (key.identity crypto appId) := by
  have hkey : ∀ u : DeviceState, u.keys = t.device.keys → ¬ Kept crypto appId s u := by
    intro u hkeys
    exact not_kept hloaded hfree (hkeys.trans (congrArg DeviceState.keys hdevice))
  have hdeleted : ∀ u : DeviceState, u = t.device →
      (Kept crypto appId s (u.deletePending (key.identity crypto appId) world.deletes) ↔
        world.deletes = true) := by
    rintro u rfl
    cases hdeletes : world.deletes with
    | true =>
      refine iff_of_true (.inl ?_) rfl
      rw [hdevice]
      exact deletePending_new hfree rfl
    | false => exact iff_of_false (hkey _ rfl) Bool.false_ne_true
  have hthere : t.device.identity.isSome := by
    rw [hdevice]
    exact hloaded
  have hsame := confirmFrom_device crypto appId what world.attempts (key.identity crypto appId) 2 0
    [] [] hthere
  have hconfirms := confirmFrom_ok_iff crypto appId what world (key.identity crypto appId) hthere
  have hread : readMetadata (identityMetadata (key.identity crypto appId).installId
      (key.identity crypto appId).keyName) =
        some ((key.identity crypto appId).installId, (key.identity crypto appId).keyName) :=
    readMetadata_identityMetadata crypto appId key.random
  unfold tryRotation
  rcases hrun : confirmFrom crypto appId what world.attempts (key.identity crypto appId) 2 0 [] [] t
    with ⟨confirmation, u⟩
  rw [hrun] at hsame hconfirms
  cases confirmation with
  | error e =>
    -- the key is deleted, if it can be
    rw [settled_of_unconfirmed fun parsed hparsed => nomatch (hconfirms parsed).mpr hparsed]
    exact hdeleted u.device hsame
  | ok parsed =>
    have hconfirmed : ∀ other, Confirms what world (key.identity crypto appId) other ↔
        other = parsed := by
      intro other
      rw [← hconfirms]
      exact ⟨fun hok => (Except.ok.inj hok).symm, fun hok => hok ▸ rfl⟩
    have hkeys : u.device.keys = t.device.keys := congrArg DeviceState.keys hsame
    rw [settled_of_confirmed hconfirmed]
    cases hcommit : world.commit with
    | throws failure => exact hdeleted u.device hsame
    | truncated =>
      -- thrown or returned, the file cannot be read
      dsimp only [writeIdentity]
      refine iff_of_false ?_ id
      cases hfinish : finishRotation deviceId (key.identity crypto appId) parsed with
      | error e =>
        dsimp only
        rw [if_pos rfl]
        exact hkey _ hkeys
      | ok result =>
        rintro ⟨pending, hrotated⟩
        cases hrotated.disk
    | written =>
      dsimp only [writeIdentity]
      unfold finishRotation
      cases hid : jsonGetString parsed (ascii "registration_id") true with
      | error e =>
        -- it throws with the new key in place
        refine iff_of_false ?_ ?_
        · show ¬ Kept crypto appId s (if true = true then _ else _)
          rw [if_pos rfl]
          exact hkey _ hkeys
        · rintro ⟨id, hok⟩
          cases hok
      | ok id =>
        refine iff_of_true ⟨key.identity crypto appId, ?_⟩ ⟨id, rfl⟩
        exact ⟨⟨parsed, (hconfirmed parsed).mpr rfl⟩, rfl, hread, ⟨rfl, rfl⟩, rfl⟩

end Lemmas

/-- **When a rotation is all or nothing**: exactly when, once a new key is made, its public key is
exported, it is deleted where nothing confirms it or its file is not written, and otherwise the
bytes of the file are written and the confirmation has a registration id. -/
theorem rotation_atomic_iff (crypto : Crypto) (appId : Bytes) (what : Bytes → Bytes)
    (deviceId : Bytes) (world : RotationWorld) (s : RotationState) :
    Atomic crypto appId what deviceId world s ↔ Orderly crypto appId what world s.device := by
  unfold Atomic rotateDeviceKey
  rcases hbegin : beginRotation crypto appId world s with ⟨result, s₁⟩
  cases result with
  | error e =>
    have hkept := beginRotation_kept crypto appId world s
    rw [hbegin] at hkept
    refine iff_of_true hkept ?_
    intro key hstarts
    obtain ⟨t, hok, -⟩ := beginRotation_of_starts crypto appId hstarts
    cases hbegin.symm.trans hok
  | ok u =>
    have hstarts := starts_of_beginRotation hbegin
    obtain ⟨t, hok, hsame⟩ := beginRotation_of_starts crypto appId hstarts
    obtain ⟨-, rfl⟩ := Prod.mk.inj (hbegin.symm.trans hok)
    rcases hcreate : createIdentity crypto appId true world.creation s.device with ⟨result, device⟩
    dsimp only
    rw [hsame]
    cases result with
    | error e =>
      -- no key was made
      rw [createPending_of_error hcreate]
      obtain rfl := createIdentity_error hcreate
      refine iff_of_true (.inl rfl) ?_
      intro key _ hmade
      rw [hcreate] at hmade
      cases hmade
    | ok key =>
      obtain ⟨hfree, hdevice⟩ := createIdentity_ok hcreate
      rw [createPending_of_ok hcreate, orderly_iff hstarts hcreate]
      cases world.creation.exports with
      | error e =>
        -- the key stays
        have hkeys := congrArg DeviceState.keys hdevice
        exact iff_of_false (not_kept hstarts.loaded hfree hkeys) fun h => by cases h.1
      | ok v =>
        have htry := tryRotation_atomic_iff crypto appId what deviceId world
          (t := { s₁ with device }) hstarts.loaded hfree hdevice
        rw [and_iff_right rfl, ← htry]
        dsimp only
        rcases tryRotation crypto appId what deviceId world (key.identity crypto appId)
          { s₁ with device } with ⟨result, committed, u⟩
        cases result with
        | ok result => exact Iff.rfl
        | error e =>
          cases committed with
          | false => exact Iff.rfl
          | true => exact Iff.rfl

/-! A rotation whose confirmation leaves the registration id out. -/

/-- An answer that confirms another key than the one of the request. -/
def unregisteredResponse : ProtocolResponse where
  statusCode := 200
  body := ascii "\x7b\"rotated\":true,\"install_id\":\"01010101010101010101010101010101\"," ++
    ascii "\"key_id\":\"swm-device-aYvqY9xEo0RmP_FCmuoQhC\"\x7d"

def unregisteredWorld : RotationWorld where
  timeSync := none
  onlineKeys := ⟨[], .ok ()⟩
  pipeline := Java.samplePipeline
  creation := {
    random := .ok (sampleRandom 1)
    provider := .ok ()
    opens := true
    randomAgain := .ok (sampleRandom 2)
    creates := .ok firstKey
    exports := .ok () }
  attempts _ := {
    hardware := .ok ⟨3, 7, ascii "hardware"⟩
    sign _ := .ok (List.replicate 64 0)
    send _ := ⟨[], .ok unregisteredResponse⟩ }
  commit := .written
  deletes := true

/-- A device with a session, whose key is the second one. -/
def registeredDevice : RotationState where
  device := {
    identity := some (populatePublicIdentity deviceCrypto (ascii "app")
      (ascii "02020202020202020202020202020202")
      (ascii "SwmSdk.a172cedcae47.02020202020202020202020202020202") secondKey)
    stored := some (identityMetadata (ascii "02020202020202020202020202020202")
      (ascii "SwmSdk.a172cedcae47.02020202020202020202020202020202"))
    keys := Function.update (fun _ => none)
      (ascii "SwmSdk.a172cedcae47.02020202020202020202020202020202") (some secondKey)
    session := some (ascii "session")
    sessionExpiresAt := 2000
    loaded := fun _ => rfl }
  offlineLatched := false

/-- It throws with the new key in place and the session gone. -/
theorem unregistered_rotation : ¬ ∀ (crypto : Crypto) (appId : Bytes) (what : Bytes → Bytes)
    (deviceId : Bytes) (world : RotationWorld) (s : RotationState),
    Atomic crypto appId what deviceId world s := by
  intro h
  have hatomic := h deviceCrypto (ascii "app") (fun _ => []) [] unregisteredWorld registeredDevice
  have hthrows : (rotateDeviceKey deviceCrypto (ascii "app") (fun _ => []) [] unregisteredWorld
      registeredDevice).1.isOk = false := by decide +kernel
  have hsession : (rotateDeviceKey deviceCrypto (ascii "app") (fun _ => []) [] unregisteredWorld
      registeredDevice).2.device.session = none := by decide +kernel
  unfold Atomic at hatomic
  rcases hrun : rotateDeviceKey deviceCrypto (ascii "app") (fun _ => []) [] unregisteredWorld
    registeredDevice with ⟨result, t⟩
  rw [hrun] at hatomic hthrows hsession
  cases result with
  | ok result => cases hthrows
  | error e =>
    dsimp only at hatomic hsession
    rw [hatomic.eq_of_loaded rfl] at hsession
    cases hsession

end Cpp
end SwmSdk
