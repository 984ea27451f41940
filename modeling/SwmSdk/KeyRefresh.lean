import SwmSdk.Dpop
import SwmSdk.TrustedClock

/-! # Refreshing the online key

`refresh_online_keys` asks the server for a key manifest and installs the key of the answer.
Four windows of time meet there: a key is asked for 300 s before its `refresh_after`, a
manifest is accepted until 120 s after it, a key is used up to it, and an old key that is still
usable covers for a server that cannot be reached.

A refresh that returns normally leaves a key that `current_key` gives out at the time the
refresh last read, exactly when it does not install a manifest between its `refresh_after` and
the end of the 120 s (`refresh_usable_iff`).
-/
namespace SwmSdk
namespace Cpp
open ByteText Outcome

/-- `now_unix_seconds`, at a tick of the system. -/
def ClockState.nowUnixSeconds (tick : Nat) (clock : ClockState) : Int :=
  if clock.nowUnixMs tick ≤ 0 then 0 else clock.nowUnixMs tick / 1000

/-! ## The manifest -/

/-- An online key manifest. -/
structure OnlineKeyManifest where
  version : Bytes
  purpose : Bytes
  appId : Bytes
  releaseId : Bytes
  keyId : Bytes
  publicKey : Bytes
  rootTrustKeyId : Bytes
  signature : Bytes
  issuedAt : Int
  refreshAfter : Int
  deriving DecidableEq, Repr

namespace OnlineKeyManifest

/-- The fields of the manifest, in the order they are read. -/
def read (manifest : Json) : Except Error OnlineKeyManifest := do
  let version ← jsonGetString manifest (ascii "manifest_version") true
  let purpose ← jsonGetString manifest (ascii "purpose") true
  let appId ← jsonGetString manifest (ascii "app_id") true
  let releaseId ← jsonGetString manifest (ascii "release_id") true
  let keyId ← jsonGetString manifest (ascii "key_id") true
  let publicKey ← jsonGetString manifest (ascii "public_key") true
  let rootId ← jsonGetString manifest (ascii "root_trust_key_id") true
  let signature ← jsonGetString manifest (ascii "root_trust_signature") true
  let issuedAt ← jsonGetInt64 manifest (ascii "issued_at") 0
  let refreshAfter ← jsonGetInt64 manifest (ascii "refresh_after") 0
  .ok ⟨version, purpose, appId, releaseId, keyId, publicKey, rootId, signature, issuedAt,
    refreshAfter⟩

/-- What the root key signs. -/
def canonical (m : OnlineKeyManifest) : Bytes :=
  ascii "online_key_manifest_v1\npurpose:" ++ m.purpose ++ ascii "\napp_id:" ++ m.appId ++
    ascii "\nrelease_id:" ++ m.releaseId ++ ascii "\nkey_id:" ++ m.keyId ++
    ascii "\npublic_key:" ++ m.publicKey ++ ascii "\nroot_trust_key_id:" ++ m.rootTrustKeyId ++
    ascii "\nissued_at:" ++ decimal m.issuedAt ++ ascii "\nrefresh_after:" ++
    decimal m.refreshAfter

/-- The manifest is for another client or purpose, or does not last as it should. -/
def Mismatch (m : OnlineKeyManifest) (options : TimeOptions) (now : Int) : Prop :=
  m.version ≠ ascii "online_key_manifest_v1" ∨ m.purpose ≠ ascii "online_body" ∨
    m.appId ≠ options.appId ∨ m.releaseId ≠ options.releaseId ∨
    m.rootTrustKeyId ≠ options.rootTrustKeyId ∨ m.keyId = [] ∨ m.publicKey = [] ∨
    m.issuedAt ≤ 0 ∨ m.refreshAfter ≤ m.issuedAt ∨
    m.refreshAfter - m.issuedAt > 30 * 24 * 60 * 60 ∨ m.issuedAt > now + 120 ∨
    m.refreshAfter < now - 120

instance (m : OnlineKeyManifest) (options : TimeOptions) (now : Int) :
    Decidable (m.Mismatch options now) := by
  unfold Mismatch
  infer_instance

/-- The key that a manifest describes. -/
def key (m : OnlineKeyManifest) : ProtocolKey :=
  ⟨m.keyId, m.publicKey, m.issuedAt, m.refreshAfter⟩

end OnlineKeyManifest

/-- What `verify_online_key_manifest` throws. -/
def manifestError (message : String) : Error where
  kind := .integrity
  statusCode := 0
  serviceCode := ascii "online_key_manifest_invalid"
  message := ascii message

/-- The checks of `refresh_online_keys_core` on the answer to its request. -/
def verifyManifest (crypto : Crypto) (what : Bytes → Bytes) (options : TimeOptions) (now : Int)
    (response : ProtocolResponse) : Except Error OnlineKeyManifest := do
  throwIfError what response
  let body ← parseJson what response.body (ascii "online key manifest")
  let m ← OnlineKeyManifest.read body
  if m.Mismatch options now then
    .error (manifestError "online key manifest identity or lifetime is invalid")
  else do
    let valid ← crypto.ed25519Verify options.rootTrustPublicKey m.canonical m.signature
    if ¬ valid then .error (manifestError "online key manifest root signature is invalid")
    else .ok m

/-! ## The state of the pipeline -/

/-- The online keys and the clock. -/
structure KeyState where
  ring : KeyRing
  clock : ClockState
  deriving DecidableEq, Repr

namespace KeyState

/-- There is a current key, and the clock is set and shows a time before the last `lead` seconds
of its life. -/
def FreshFor (state : KeyState) (lead : Int) (tick : Nat) : Prop :=
  ∃ key ∈ state.ring.currentKey, state.clock.initialized = true ∧
    state.clock.nowUnixSeconds tick < key.refreshAfter - lead

instance (state : KeyState) (lead : Int) (tick : Nat) : Decidable (state.FreshFor lead tick) :=
  match h : state.ring.currentKey with
  | none => isFalse fun ⟨key, hkey, _⟩ => by rw [h] at hkey; cases hkey
  | some key => decidable_of_iff (state.clock.initialized = true ∧
      state.clock.nowUnixSeconds tick < key.refreshAfter - lead) (by simp [FreshFor, h])

/-- `online_key_refresh_lead`. -/
def onlineKeyRefreshLead : Int := 300

/-- `has_fresh_key`. -/
def HasFreshKey (state : KeyState) (tick : Nat) : Prop := state.FreshFor onlineKeyRefreshLead tick

instance (state : KeyState) (tick : Nat) : Decidable (state.HasFreshKey tick) :=
  inferInstanceAs (Decidable (state.FreshFor onlineKeyRefreshLead tick))

/-- `can_use_current_key_after_refresh_failure`. -/
def CanUseCurrentKey (state : KeyState) (tick : Nat) : Prop := state.FreshFor 0 tick

instance (state : KeyState) (tick : Nat) : Decidable (state.CanUseCurrentKey tick) :=
  inferInstanceAs (Decidable (state.FreshFor 0 tick))

/-- `current_key`. -/
def currentKey (state : KeyState) (tick : Nat) : Except Error ProtocolKey :=
  match state.ring.currentKey with
  | none => .error (sessionError "authz_key_required" "online authorization key is unavailable")
  | some key =>
      if state.clock.initialized ∧ state.clock.nowUnixSeconds tick ≥ key.refreshAfter then
        .error (sessionError "authz_key_expired" "online authorization key has expired")
      else .ok key

/-- A pipeline with this ring and clock gives out the same key. -/
theorem currentKey_eq {state : KeyState} {tick : Nat} {pipeline : Pipeline}
    (hring : pipeline.ring = state.ring)
    (hset : pipeline.clockInitialized = state.clock.initialized)
    (hnow : pipeline.now = state.clock.nowUnixSeconds tick) :
    pipeline.currentKey = state.currentKey tick := by
  cases pipeline
  dsimp only at hring hset hnow
  subst hring hset hnow
  rfl

/-- The current key is given out. -/
def Usable (state : KeyState) (tick : Nat) : Prop := ∃ key, state.currentKey tick = .ok key

theorem currentKey_eq_ok {state : KeyState} {tick : Nat} {key : ProtocolKey} :
    state.currentKey tick = .ok key ↔ state.ring.currentKey = some key ∧
      ¬ (state.clock.initialized = true ∧ state.clock.nowUnixSeconds tick ≥ key.refreshAfter) := by
  unfold currentKey
  cases state.ring.currentKey with
  | none => simp
  | some current =>
    dsimp only
    rw [guard_eq_ok, Except.ok.injEq, Option.some.injEq]
    constructor
    · rintro ⟨h, rfl⟩
      exact ⟨rfl, h⟩
    · rintro ⟨rfl, h⟩
      exact ⟨h, rfl⟩

/-- With a current key and a set clock, the key is given out up to its `refresh_after`. -/
theorem usable_iff {state : KeyState} {tick : Nat} {key : ProtocolKey}
    (hkey : state.ring.currentKey = some key) (hset : state.clock.initialized = true) :
    state.Usable tick ↔ state.clock.nowUnixSeconds tick < key.refreshAfter := by
  constructor
  · rintro ⟨current, hcurrent⟩
    obtain ⟨hsome, hfresh⟩ := currentKey_eq_ok.mp hcurrent
    obtain rfl := Option.some.inj (hkey.symm.trans hsome)
    exact Int.not_le.mp fun hle => hfresh ⟨hset, hle⟩
  · intro hlt
    exact ⟨key, currentKey_eq_ok.mpr ⟨hkey, fun h => absurd hlt (Int.not_lt.mpr h.2)⟩⟩

theorem FreshFor.usable {state : KeyState} {lead : Int} {tick : Nat} (hlead : 0 ≤ lead)
    (h : state.FreshFor lead tick) : state.Usable tick := by
  obtain ⟨key, hkey, hset, hlt⟩ := h
  exact (usable_iff hkey hset).mpr (by omega)

end KeyState

/-! ## The refresh -/

/-- What the other parties answer to one call, and the ticks at which it looks at the clock. -/
structure RefreshAnswers where
  /-- The look at the key before the lock is taken. -/
  first : Nat
  /-- What is there once `refresh_mutex_` is taken, or how the wait for it ends. -/
  lock : Except Error KeyState
  /-- The look at the key under the lock. -/
  second : Nat
  /-- The time request: its nonce, its first tick, its answer and the tick of the answer. -/
  nonce : Bytes
  started : Nat
  time : Except Error ProtocolResponse
  received : Nat
  /-- How `note_verified_interaction` ends, after the clock is set. -/
  noted : Except Error Unit
  /-- The answer to the manifest request, and the tick at which it is checked. -/
  manifest : Except Error ProtocolResponse
  checked : Nat
  /-- The look at the key after a failure. -/
  last : Nat

namespace KeyState
variable (crypto : Crypto) (what : Bytes → Bytes) (options : TimeOptions)
  (answers : RefreshAnswers)

/-- `if (!clock_.initialized()) refresh_trusted_time(stop)`. -/
def withTime (state : KeyState) : KeyState × Except Error Unit :=
  if state.clock.initialized then (state, .ok ())
  else
    match refreshTrustedTime crypto what options answers.nonce answers.started answers.time
        answers.received with
    | .error e => (state, .error e)
    | .ok (_, clock) => ({ state with clock }, answers.noted)

/-- The manifest of the answer, if it passes the checks. -/
def acceptedManifest (clock : ClockState) : Except Error OnlineKeyManifest := do
  let response ← answers.manifest
  verifyManifest crypto what options (clock.nowUnixSeconds answers.checked) response

/-- `refresh_online_keys_core`. -/
def refreshOnlineKeysCore (state : KeyState) : KeyState × Except Error Unit :=
  match acceptedManifest crypto what options answers state.clock with
  | .error e => (state, .error e)
  | .ok m =>
      ({ state with ring := (installKey state.ring m.key).1 }, (installKey state.ring m.key).2)

/-- The `try` block of `refresh_online_keys`. -/
def attemptRefresh (state : KeyState) : KeyState × Except Error Unit :=
  match state.withTime crypto what options answers with
  | (state, .error e) => (state, .error e)
  | (state, .ok ()) => state.refreshOnlineKeysCore crypto what options answers

/-- The failures that an old key covers for. -/
def Unreachable (e : Error) : Prop :=
  ¬ (e.kind ≠ .network ∧ e.kind ≠ .timeout ∧ e.statusCode < 500)

instance (e : Error) : Decidable (Unreachable e) := by
  unfold Unreachable
  infer_instance

/-- `refresh_online_keys`: the state that it leaves and, if it returns, the tick at which it last
looked at the clock. -/
def refreshOnlineKeys (force : Bool) (state : KeyState) : KeyState × Except Error Nat :=
  if ¬ force ∧ state.HasFreshKey answers.first then (state, .ok answers.first)
  else
    match answers.lock with
    | .error e => (state, .error e)
    | .ok state =>
        if ¬ force ∧ state.HasFreshKey answers.second then (state, .ok answers.second)
        else
          match state.attemptRefresh crypto what options answers with
          | (state, .ok ()) => (state, .ok answers.checked)
          | (state, .error e) =>
              if ¬ state.CanUseCurrentKey answers.last ∨ ¬ Unreachable e then (state, .error e)
              else (state, .ok answers.last)

/-- The refresh installs a manifest that is past its `refresh_after`: it finds no fresh key, takes
the lock on `found`, has a clock, accepts the manifest `m` for the ring it found, and `m` ran out
by the time it is checked. -/
structure InstallsExpired (force : Bool) (state found : KeyState) (clock : ClockState)
    (m : OnlineKeyManifest) : Prop where
  asked : ¬ (¬ force ∧ state.HasFreshKey answers.first)
  locked : answers.lock = .ok found
  askedLocked : ¬ (¬ force ∧ found.HasFreshKey answers.second)
  timed : found.withTime crypto what options answers = ({ found with clock }, .ok ())
  accepted : acceptedManifest crypto what options answers clock = .ok m
  fits : (installKey found.ring m.key).2 = .ok ()
  expired : m.refreshAfter ≤ clock.nowUnixSeconds answers.checked

variable {crypto what options answers}

/-- An install that succeeds leaves its key as the current one, on every ring. -/
theorem installKey_currentKey {ring : KeyRing} {key : ProtocolKey}
    (h : (installKey ring key).2 = .ok ()) : (installKey ring key).1.currentKey = some key := by
  have hreplace : ∀ ring : KeyRing, (replaceCurrent ring key).currentKey = some key := by
    intro ring
    unfold replaceCurrent
    split
    · rfl
    · rfl
  unfold installKey at h ⊢
  split at h
  · split at h
    · cases h
    · rename_i hsame
      rw [if_neg hsame]
  · split at h
    · split at h
      · cases h
      · rename_i hsame
        rw [if_neg hsame]
        exact hreplace _
    · exact hreplace _

/-- The time step leaves the ring as it was, and a set clock when it succeeds. -/
theorem withTime_ok {state next : KeyState}
    (h : state.withTime crypto what options answers = (next, .ok ())) :
    next = { state with clock := next.clock } ∧ next.clock.initialized = true := by
  unfold withTime at h
  split at h
  · rename_i hset
    obtain rfl := (Prod.mk.inj h).1
    exact ⟨rfl, hset⟩
  · split at h
    · cases h
    · rename_i m clock hrefresh
      obtain rfl := (Prod.mk.inj h).1
      exact ⟨rfl, (refreshTrustedTime_ok hrefresh).2⟩

/-- A `try` block that succeeds leaves the manifest's key as the current one. -/
theorem attemptRefresh_ok {state next : KeyState}
    (h : state.attemptRefresh crypto what options answers = (next, .ok ())) :
    ∃ clock m, state.withTime crypto what options answers = ({ state with clock }, .ok ()) ∧
      acceptedManifest crypto what options answers clock = .ok m ∧
      (installKey state.ring m.key).2 = .ok () ∧
      next = ⟨(installKey state.ring m.key).1, clock⟩ ∧ clock.initialized = true := by
  unfold attemptRefresh at h
  split at h
  · cases h
  · rename_i timed htime
    obtain ⟨htimed, hset⟩ := withTime_ok htime
    unfold refreshOnlineKeysCore at h
    split at h
    · cases h
    · rename_i m hm
      obtain ⟨rfl, hinstall⟩ := Prod.mk.inj h
      rw [htimed] at hinstall ⊢
      exact ⟨timed.clock, m, htime.trans (by rw [← htimed]), hm, hinstall, rfl, hset⟩

/-- After a `try` block that succeeded, the key is given out exactly when it has not run out. -/
theorem attemptRefresh_usable {state : KeyState} {clock : ClockState} {m : OnlineKeyManifest}
    (hset : clock.initialized = true) (hinstall : (installKey state.ring m.key).2 = .ok ())
    (tick : Nat) :
    (KeyState.mk (installKey state.ring m.key).1 clock).Usable tick ↔
      clock.nowUnixSeconds tick < m.refreshAfter := by
  have hkey : (KeyState.mk (installKey state.ring m.key).1 clock).ring.currentKey = some m.key :=
    installKey_currentKey hinstall
  exact usable_iff hkey hset

/-- A refresh that returns without a manifest found a key that can be used. -/
theorem refreshOnlineKeys_cases {force : Bool} {state next : KeyState} {tick : Nat}
    (h : state.refreshOnlineKeys crypto what options answers force = (next, .ok tick)) :
    next.Usable tick ∨
      ∃ found, ¬ (¬ force ∧ state.HasFreshKey answers.first) ∧ answers.lock = .ok found ∧
        ¬ (¬ force ∧ found.HasFreshKey answers.second) ∧
        found.attemptRefresh crypto what options answers = (next, .ok ()) ∧
        tick = answers.checked := by
  unfold refreshOnlineKeys at h
  split at h
  · rename_i hfresh
    obtain ⟨rfl, hresult⟩ := Prod.mk.inj h
    obtain rfl := Except.ok.inj hresult
    exact .inl (hfresh.2.usable (by decide))
  · rename_i hasked
    split at h
    · cases h
    · rename_i found hlock
      split at h
      · rename_i hfresh
        obtain ⟨rfl, hresult⟩ := Prod.mk.inj h
        obtain rfl := Except.ok.inj hresult
        exact .inl (hfresh.2.usable (by decide))
      · rename_i haskedLocked
        split at h
        · rename_i refreshed hattempt
          obtain ⟨rfl, hresult⟩ := Prod.mk.inj h
          exact .inr ⟨found, hasked, hlock, haskedLocked, hattempt, (Except.ok.inj hresult).symm⟩
        · split at h
          · cases h
          · -- the failure was covered by a key that is still good
            rename_i hcovered
            obtain ⟨rfl, hresult⟩ := Prod.mk.inj h
            obtain rfl := Except.ok.inj hresult
            rw [not_or, not_not] at hcovered
            exact .inl (hcovered.1.usable (by decide))

/-- A refresh that installs an expired manifest returns normally. -/
theorem InstallsExpired.returns {force : Bool} {state found : KeyState} {clock : ClockState}
    {m : OnlineKeyManifest}
    (h : InstallsExpired crypto what options answers force state found clock m) :
    state.refreshOnlineKeys crypto what options answers force =
      (⟨(installKey found.ring m.key).1, clock⟩, .ok answers.checked) := by
  have hcore : found.attemptRefresh crypto what options answers =
      (⟨(installKey found.ring m.key).1, clock⟩, .ok ()) := by
    unfold attemptRefresh
    rw [h.timed]
    dsimp only
    unfold refreshOnlineKeysCore
    dsimp only
    rw [h.accepted]
    dsimp only
    rw [h.fits]
  unfold refreshOnlineKeys
  rw [if_neg h.asked, h.locked]
  dsimp only
  rw [if_neg h.askedLocked, hcore]

end KeyState

open KeyState

/-- **When a refresh makes the key usable**: after a call that returns, `current_key` gives out a
key at the time the call last read, exactly when the call does not install a manifest that is
past its `refresh_after`. -/
theorem refresh_usable_iff (crypto : Crypto) (what : Bytes → Bytes) (options : TimeOptions)
    (answers : RefreshAnswers) (force : Bool) (state : KeyState) :
    (∀ next tick, state.refreshOnlineKeys crypto what options answers force = (next, .ok tick) →
      next.Usable tick) ↔
    ¬ ∃ found clock m, InstallsExpired crypto what options answers force state found clock m := by
  constructor
  · rintro h ⟨found, clock, m, hexpired⟩
    have husable := h _ _ hexpired.returns
    obtain ⟨-, hset⟩ := withTime_ok hexpired.timed
    exact absurd ((attemptRefresh_usable hset hexpired.fits _).mp husable)
      (Int.not_lt.mpr hexpired.expired)
  · intro h next tick hreturns
    rcases refreshOnlineKeys_cases hreturns with husable |
      ⟨found, hasked, hlock, haskedLocked, hattempt, rfl⟩
    · exact husable
    · obtain ⟨clock, m, htimed, haccepted, hfits, rfl, hset⟩ := attemptRefresh_ok hattempt
      rw [attemptRefresh_usable hset hfits]
      refine Int.not_le.mp fun hle => h ⟨found, clock, m, ?_⟩
      exact ⟨hasked, hlock, haskedLocked, htimed, haccepted, hfits, hle⟩

/-! A manifest with a real signature, checked one minute after its `refresh_after`. -/

/-- The key manifest of the samples. -/
def sampleKeyManifest : OnlineKeyManifest where
  version := ascii "online_key_manifest_v1"
  purpose := ascii "online_body"
  appId := ascii "app"
  releaseId := ascii "release"
  keyId := ascii "k1"
  publicKey := ascii "PUAXw-hDiVqStwqnTRt-vJyYLM8uxJaMwM1V8Sr0Zgw"
  rootTrustKeyId := ascii "root"
  signature := ascii
    "_lc0HVUI6kO5i4w_FQQNWk_JhRBK2VWWc7OC5L6WHd7ugxSRuEb0esDMwFk0-ZOhcoAlY5LwyQYzZ32dWHOtAw"
  issuedAt := 1699990000
  refreshAfter := 1700000000

/-- The same, as the service sends it. -/
def sampleKeyManifestBody : Bytes :=
  ascii "\x7b\"manifest_version\":\"online_key_manifest_v1\",\"purpose\":\"online_body\"," ++
    ascii "\"app_id\":\"app\",\"release_id\":\"release\",\"key_id\":\"k1\",\"public_key\":\"" ++
    sampleKeyManifest.publicKey ++ ascii "\",\"root_trust_key_id\":\"root\"," ++
    ascii "\"root_trust_signature\":\"" ++ sampleKeyManifest.signature ++
    ascii "\",\"issued_at\":1699990000,\"refresh_after\":1700000000\x7d"

/-- The root signature of the sample manifest holds. -/
def sampleKeyCrypto : Crypto :=
  listedCrypto []
    [(sampleTimeOptions.rootTrustPublicKey, sampleKeyManifest.canonical,
      sampleKeyManifest.signature)]

/-- A pipeline without a key, whose clock showed the manifest's `refresh_after` at tick 0. -/
def sampleKeyState : KeyState := ⟨KeyRing.empty, ⟨true, 1700000000000, 0⟩⟩

/-- A refresh that installs the sample key after a minute. -/
def sampleRefreshAnswers : RefreshAnswers where
  first := 60000
  lock := .ok sampleKeyState
  second := 60000
  nonce := []
  started := 0
  time := .error (clockError "signed server time signature is invalid")
  received := 0
  noted := .ok ()
  manifest := .ok ⟨200, sampleKeyManifestBody⟩
  checked := 60000
  last := 60000

/-- The refresh succeeds, and the key that it installed has expired. -/
theorem refreshed_key_expired :
    ¬ ∀ (crypto : Crypto) (what : Bytes → Bytes) (options : TimeOptions)
      (answers : RefreshAnswers) (force : Bool) (state next : KeyState) (tick : Nat),
      state.refreshOnlineKeys crypto what options answers force = (next, .ok tick) →
      next.Usable tick := by
  intro h
  have hreturns : sampleKeyState.refreshOnlineKeys sampleKeyCrypto id sampleTimeOptions
      sampleRefreshAnswers false =
        (⟨⟨some sampleKeyManifest.key, []⟩, sampleKeyState.clock⟩, .ok 60000) := by
    decide +kernel
  obtain ⟨key, hkey⟩ := h _ _ _ _ _ _ _ _ hreturns
  have hexpired : KeyState.currentKey ⟨⟨some sampleKeyManifest.key, []⟩, sampleKeyState.clock⟩
      60000 = .error (sessionError "authz_key_expired" "online authorization key has expired") := by
    decide +kernel
  rw [hexpired] at hkey
  cases hkey

end Cpp
end SwmSdk
