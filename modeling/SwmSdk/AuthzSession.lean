import SwmSdk.OfflineFile
import SwmSdk.SessionLifetime

/-! # The session of a call that fails

`verify_authz` takes over the session of a response when all checks have passed, and then notes the
interaction in `offline.bin`.  The note can throw: the identity may not load, and the write of the
file has three steps that may fail.  The call then fails with the new session in place.

A failing call leaves the session alone exactly when the response does not pass, or brings no other
session, or the note does not throw (`session_kept_iff`).
-/
namespace SwmSdk
namespace Cpp
open ByteText Outcome

/-- What the system answers to `write_protected`. -/
structure StateWrite where
  protects : Bool
  /-- The temporary file is opened and takes the bytes. -/
  written : Bool
  moved : Bool
  /-- The bytes are in the file when its stream is closed, which nothing checks. -/
  flushed : Bool
  /-- The text of `std::filesystem_error`, if the temporary file is not removed either. -/
  leftBehind : Option Bytes

namespace StateWrite

/-- The errors of the state file, which `noteVerifiedInteraction` passes on. -/
def stateError (message : String) : Failure :=
  .swm { kind := .identity, statusCode := 0, serviceCode := [], message := ascii message }

/-- `write_protected`. -/
def result (write : StateWrite) : Except Failure Unit :=
  if ¬ write.protects then .error (stateError "DPAPI protection failed")
  else if ¬ write.written then .error (stateError "cannot write SDK state")
  else if ¬ write.moved then
    match write.leftBehind with
    | some what => .error (.other what)
    | none => .error (stateError "cannot commit SDK state")
  else .ok ()

/-- The file takes its place. -/
def Succeeds (write : StateWrite) : Prop :=
  write.protects = true ∧ write.written = true ∧ write.moved = true

theorem result_ok_iff {write : StateWrite} : write.result = .ok () ↔ write.Succeeds := by
  unfold result Succeeds
  cases write.protects <;> cases write.written <;> cases write.moved <;> cases write.leftBehind <;>
    simp

end StateWrite

/-- The identity of the device, as far as a call reads it. -/
structure KnownIdentity where
  deviceId : Bytes
  state : StateIdentity

/-- What a call of `verify_authz` meets. -/
structure VerifyWorld where
  /-- `identity()`: the one in memory, or what `load_or_create` gives. -/
  identity : Except Failure KnownIdentity
  /-- `now_unix_ms`, when the interaction is noted. -/
  time : Int64
  write : StateWrite

/-- What a call may change. -/
structure VerifyState where
  session : Session
  offline : OfflineFile

/-- `note_verified_interaction`: how it ends, and what it leaves. -/
def noteInteraction (world : VerifyWorld) (s : OfflineFile) : Except Failure Unit × OfflineFile :=
  if world.time.toInt ≤ 0 then (.ok (), s)
  else
    match world.identity with
    | .error failure => (.error failure, s)
    | .ok identity =>
        match world.write.result with
        | .error failure =>
            (.error failure, noteVerifiedInteraction identity.state world.time false s)
        | .ok () =>
            let noted := noteVerifiedInteraction identity.state world.time true s
            (.ok (), if world.write.flushed then noted else { noted with file := none })

/-- The note does not throw. -/
def Notes (world : VerifyWorld) : Prop :=
  0 < world.time.toInt → (∃ identity, world.identity = .ok identity) ∧ world.write.Succeeds

theorem noteInteraction_ok_iff {world : VerifyWorld} {s : OfflineFile} :
    (noteInteraction world s).1 = .ok () ↔ Notes world := by
  unfold noteInteraction Notes
  by_cases htime : world.time.toInt ≤ 0
  · rw [if_pos htime]
    simp only [true_iff]
    omega
  · rw [if_neg htime]
    have hpositive : 0 < world.time.toInt := by omega
    cases hidentity : world.identity with
    | error failure => simp [hpositive]
    | ok identity =>
      cases hwrite : world.write.result with
      | error failure =>
        have hfails : ¬ world.write.Succeeds := by
          rw [← StateWrite.result_ok_iff, hwrite]
          simp
        simp [hpositive, hfails]
      | ok u =>
        have hsucceeds : world.write.Succeeds := StateWrite.result_ok_iff.mp hwrite
        simp [hsucceeds]

section Call
variable (crypto : Crypto) (what : Bytes → Bytes) (context : AuthzContext)

/-- The carrier and its envelope, before they are checked. -/
def readCarrier (response : ProtocolResponse) : Except Error (Json × Bytes × AuthzEnvelope) := do
  throwIfError what response
  let carrier ← parseJson what response.body (ascii "Authz v3 carrier")
  match carrier.find (ascii "data"), carrier.find (ascii "authz") with
  | some data, some (.object fields) =>
      match extractJsonMemberRaw response.body (ascii "data") with
      | none => .error (protocolError (ascii "Authz v3 response data is missing"))
      | some rawData => do
          let authz ← readEnvelope (.object fields)
          .ok (data, rawData, authz)
  | _, _ => .error (protocolError (ascii "Authz v3 carrier is incomplete"))

/-- The checks of the envelope, of a device whose id is known. -/
def checkCarrier (carrier : Json × Bytes × AuthzEnvelope) :
    Except Error (Json × AuthzEnvelope) := do
  let (data, rawData, authz) := carrier
  let key ← checkEnvelope crypto context rawData authz
  let valid ← crypto.ed25519Verify key.publicKey (canonical context authz) authz.signature
  if ¬ valid then .error authzSignatureInvalid else .ok (data, authz)

theorem verifiedCarrier_eq (response : ProtocolResponse) :
    verifiedCarrier crypto what context response =
      readCarrier what response >>= checkCarrier crypto context := by
  unfold verifiedCarrier readCarrier
  rw [bind_assoc]
  refine bind_congr fun _ => ?_
  rw [bind_assoc]
  refine bind_congr fun carrier => ?_
  cases carrier.find (ascii "data") with
  | none => rfl
  | some data =>
    cases carrier.find (ascii "authz") with
    | none => rfl
    | some envelope =>
      cases envelope with
      | object fields =>
        dsimp only
        cases extractJsonMemberRaw response.body (ascii "data") with
        | none => rfl
        | some rawData =>
          dsimp only
          rw [bind_assoc]
          rfl
      | _ => rfl

/-- The checks of `verify_authz`.  `device_id()` is asked after the first three texts of the
envelope, and loads the identity when no device id is configured. -/
def verified (world : VerifyWorld) (response : ProtocolResponse) :
    Except Failure (Json × AuthzEnvelope) :=
  let deviceId : Except Failure Bytes :=
    if context.deviceId ≠ [] then .ok context.deviceId else world.identity.map (·.deviceId)
  match deviceId with
  | .ok deviceId =>
      (verifiedCarrier crypto what { context with deviceId } response).mapError Failure.swm
  | .error failure =>
      match readCarrier what response with
      | .error e => .error (.swm e)
      | .ok (_, _, authz) =>
          if authz.version ≠ ascii "authz_v3" ∨ authz.decision ≠ ascii "allow" ∨
              authz.releaseId ≠ context.releaseId then
            .error (.swm (authzInvalid "Authz v3 response identity or lifetime is invalid"))
          else .error failure

/-- `verify_authz`; the device id of the context is the configured one. -/
def verifyAuthzCall (world : VerifyWorld) (s : VerifyState) (response : ProtocolResponse) :
    Except Failure Json × VerifyState :=
  match verified crypto what context world response with
  | .error failure => (.error failure, s)
  | .ok (data, authz) =>
      let session := if authz.session ≠ [] then ⟨authz.session, authz.expiresAt⟩ else s.session
      match noteInteraction world s.offline with
      | (.error failure, offline) => (.error failure, ⟨session, offline⟩)
      | (.ok (), offline) => (.ok data, ⟨session, offline⟩)

variable {crypto what context} {world : VerifyWorld} {s : VerifyState}
  {response : ProtocolResponse}

/-- A call with a configured device id does to the session what `verifyAuthz` does. -/
theorem verifyAuthzCall_session (hdevice : context.deviceId ≠ []) {note : Except Error Unit}
    (hnote : (noteInteraction world s.offline).1 = note.mapError Failure.swm) :
    (verifyAuthzCall crypto what context world s response).1 =
        (verifyAuthz crypto what note context s.session response).1.mapError Failure.swm ∧
      (verifyAuthzCall crypto what context world s response).2.session =
        (verifyAuthz crypto what note context s.session response).2 := by
  unfold verifyAuthzCall verifyAuthz verified
  rw [if_pos hdevice]
  dsimp only
  cases verifiedCarrier crypto what context response with
  | error e => exact ⟨rfl, rfl⟩
  | ok result =>
    obtain ⟨data, authz⟩ := result
    cases hresult : noteInteraction world s.offline with
    | mk noted offline =>
      rw [hresult] at hnote
      cases note with
      | error e =>
        obtain rfl : noted = .error (.swm e) := hnote
        exact ⟨rfl, rfl⟩
      | ok u =>
        obtain rfl : noted = .ok u := hnote
        exact ⟨rfl, rfl⟩

theorem verifyAuthzCall_of_verified {data : Json} {authz : AuthzEnvelope}
    (h : verified crypto what context world response = .ok (data, authz)) :
    ((∃ failure, (verifyAuthzCall crypto what context world s response).1 = .error failure) ↔
        ¬ Notes world) ∧
      (verifyAuthzCall crypto what context world s response).2.session =
        if authz.session ≠ [] then ⟨authz.session, authz.expiresAt⟩ else s.session := by
  unfold verifyAuthzCall
  rw [h, ← noteInteraction_ok_iff (s := s.offline)]
  dsimp only
  obtain ⟨noted, offline⟩ := noteInteraction world s.offline
  cases noted with
  | error failure => simp
  | ok u => simp

end Call

/-- **When a failing call leaves the session alone**: when a response that passes all checks and
brings another session can be noted. -/
theorem session_kept_iff (crypto : Crypto) (what : Bytes → Bytes) (context : AuthzContext)
    (world : VerifyWorld) (s : VerifyState) (response : ProtocolResponse) :
    ((∃ failure, (verifyAuthzCall crypto what context world s response).1 = .error failure) →
        (verifyAuthzCall crypto what context world s response).2.session = s.session) ↔
      ∀ data authz, verified crypto what context world response = .ok (data, authz) →
        authz.session ≠ [] → (⟨authz.session, authz.expiresAt⟩ : Session) ≠ s.session →
        Notes world := by
  constructor
  · intro h data authz hverified hsession hother
    obtain ⟨hfails, hafter⟩ := verifyAuthzCall_of_verified (s := s) hverified
    by_contra hnotes
    rw [hafter, if_pos hsession] at h
    exact hother (h (hfails.mpr hnotes))
  · intro h hfailed
    cases hverified : verified crypto what context world response with
    | error failure =>
      unfold verifyAuthzCall
      rw [hverified]
    | ok result =>
      obtain ⟨data, authz⟩ := result
      obtain ⟨hfails, hafter⟩ := verifyAuthzCall_of_verified (s := s) hverified
      rw [hafter]
      by_cases hsession : authz.session = []
      · exact if_neg (not_not.mpr hsession)
      · rw [if_pos hsession]
        by_contra hother
        exact hfails.mp hfailed (h data authz hverified hsession hother)

/-! A verified response with a session, whose note is not moved into place. -/

/-- A system on which the record is written but cannot be moved into place. -/
def unmovedWorld : VerifyWorld where
  identity := .ok ⟨ascii "device", ⟨[], [], by simp⟩⟩
  time := 1700000000000
  write := { protects := true, written := true, moved := false, flushed := true
             leftBehind := none }

/-- The call fails, and the session of its response stays. -/
theorem session_of_failed_call :
    ¬ ∀ (crypto : Crypto) (what : Bytes → Bytes) (context : AuthzContext) (world : VerifyWorld)
      (s : VerifyState) (response : ProtocolResponse),
      (∃ failure, (verifyAuthzCall crypto what context world s response).1 = .error failure) →
      (verifyAuthzCall crypto what context world s response).2.session = s.session := by
  intro h
  let context : AuthzContext :=
    { sampleContext with now := 1700000000, ring := ⟨some signedKey, []⟩ }
  have hauthz : ((verified sessionCrypto id context unmovedWorld sessionResponse).toOption.map
      fun result => (result.2.session, result.2.expiresAt)) = some (ascii "s1", 1700000002) := by
    decide +kernel
  obtain ⟨⟨data, authz⟩, hresult, hfields⟩ := Option.map_eq_some_iff.mp hauthz
  have hverified : verified sessionCrypto id context unmovedWorld sessionResponse =
      .ok (data, authz) := by
    cases hcase : verified sessionCrypto id context unmovedWorld sessionResponse with
    | error failure =>
      rw [hcase] at hresult
      cases hresult
    | ok result =>
      rw [hcase] at hresult
      rw [Option.some.inj hresult]
  obtain ⟨hsession, hexpires⟩ := Prod.mk.inj hfields
  obtain ⟨hfails, hafter⟩ :=
    verifyAuthzCall_of_verified (s := ⟨⟨[], 0⟩, { file := none }⟩) hverified
  have hkept := h sessionCrypto id context unmovedWorld _ sessionResponse
    (hfails.mpr fun hnotes => absurd (hnotes (by decide)).2.2.2 (by decide))
  rw [hafter, hsession, hexpires] at hkept
  exact absurd hkept (by decide)

end Cpp
end SwmSdk
