import SwmSdk.Authz
import SwmSdk.Numeral
import SwmSdk.Schedule

/-! # The trusted clock

A C++ client takes its time from a server time manifest that the root key signed
(`refresh_trusted_time`).  The clock itself is one static variable of the process, whatever
the number of clients.  Once set it is off by at most half the round trip, at every later tick
(`setTime_accurate`).

A process is a run of events of its clients: a client is created, makes a request that needs
trusted time, or receives the answer to its time request.  That a clock which shows a time
was set by its own client holds in every state of a run exactly when no answer sets the
clock or at most one client is created (`clock_isolated_iff`).
-/
namespace SwmSdk
namespace Cpp
open ByteText Outcome

/-! ## The clock -/

/-- `ClockState`. -/
structure ClockState where
  initialized : Bool := false
  anchorUnixMs : Int := 0
  anchorTickMs : Nat := 0
  deriving DecidableEq, Repr

namespace ClockState

/-- `now_unix_ms`, at a tick of the system. -/
def nowUnixMs (tick : Nat) (clock : ClockState) : Int :=
  if ¬ clock.initialized then 0
  else if tick < clock.anchorTickMs then 0
  else clock.anchorUnixMs + Int.bmod (tick - clock.anchorTickMs) (2 ^ 64)

/-- The errors of the clock. -/
def clockError (message : String) : Error where
  kind := .clock
  statusCode := 0
  serviceCode := []
  message := ascii message

/-- `set_authoritative_time`: the state that it leaves. -/
def setAuthoritativeTime (serverTimeMs : Int) (started received : Nat) : Except Error ClockState :=
  if serverTimeMs < 1577836800000 ∨ serverTimeMs > 4102444800000 ∨ received < started then
    .error (clockError "signed server time is outside the accepted range")
  else if received - started > 5000 then
    .error (clockError "signed server time round trip is too slow")
  else .ok {
    initialized := true
    anchorUnixMs := serverTimeMs + ((received - started) / 2 : Nat)
    anchorTickMs := received }

/-- The clock after `set_authoritative_time`, whether or not it threw. -/
def setTime (clock : ClockState) (serverTimeMs : Int) (started received : Nat) :
    ClockState × Except Error Unit :=
  match setAuthoritativeTime serverTimeMs started received with
  | .ok next => (next, .ok ())
  | .error e => (clock, .error e)

theorem setAuthoritativeTime_initialized {serverTimeMs : Int} {started received : Nat}
    {clock : ClockState} (h : setAuthoritativeTime serverTimeMs started received = .ok clock) :
    clock.initialized = true := by
  unfold setAuthoritativeTime at h
  obtain ⟨-, h⟩ := guard_eq_ok.mp h
  obtain ⟨-, h⟩ := guard_eq_ok.mp h
  obtain rfl := Except.ok.inj h
  rfl

/-- The values that `now_unix_ms` computes at a tick fit the types it computes them in. -/
structure Fits (clock : ClockState) (tick : Nat) : Prop where
  anchor : Numeral.InInt64 clock.anchorUnixMs
  later : clock.anchorTickMs ≤ tick
  elapsed : Numeral.InInt64 (tick - clock.anchorTickMs)
  sum : Numeral.InInt64 (clock.anchorUnixMs + (tick - clock.anchorTickMs))

/-- A call that is accepted, and the clock that it leaves. -/
theorem setTime_ok {clock clock' : ClockState} {serverTimeMs : Int} {started received : Nat}
    (h : clock.setTime serverTimeMs started received = (clock', .ok ())) :
    (1577836800000 ≤ serverTimeMs ∧ serverTimeMs ≤ 4102444800000) ∧ started ≤ received ∧
      received - started ≤ 5000 ∧
      clock' = ⟨true, serverTimeMs + ((received - started) / 2 : Nat), received⟩ := by
  unfold setTime at h
  split at h
  · rename_i next hset
    obtain rfl := (Prod.mk.inj h).1
    unfold setAuthoritativeTime at hset
    obtain ⟨hrange, hset⟩ := guard_eq_ok.mp hset
    obtain ⟨htrip, hset⟩ := guard_eq_ok.mp hset
    rw [not_or, not_or] at hrange
    obtain ⟨hlow, hhigh, horder⟩ := hrange
    exact ⟨by omega, by omega, by omega, (Except.ok.inj hset).symm⟩
  · cases h

/-- After the anchor, and before ticks leave the signed range, the cast changes nothing. -/
theorem nowUnixMs_eq {clock : ClockState} {tick : Nat} (hset : clock.initialized = true)
    (hlater : clock.anchorTickMs ≤ tick) (hrange : tick < 2 ^ 62) :
    clock.nowUnixMs tick = clock.anchorUnixMs + (tick - clock.anchorTickMs) := by
  unfold nowUnixMs
  rw [if_neg (not_not_intro hset), if_neg (Nat.not_lt.mpr hlater)]
  congr 1
  apply Int.bmod_eq_of_le
  · omega
  · omega

/-- **How accurate the clock is.**  An accepted call leaves a clock that is off by at most half
the round trip at every later tick and runs on with the ticks, whichever tick of the round
trip the server time belongs to; a call out of range is rejected and leaves the clock as it was. -/
theorem setTime_accurate (clock : ClockState) (serverTimeMs : Int) (started received : Nat) :
    (∀ clock', clock.setTime serverTimeMs started received = (clock', .ok ()) →
      (received - started + 1) / 2 ≤ 2500 ∧
      ∀ t u, started ≤ t → t ≤ received → received ≤ u → u < 2 ^ 62 →
        clock'.Fits u ∧
        (clock'.nowUnixMs u - (serverTimeMs + (u - t))).natAbs ≤ (received - started + 1) / 2 ∧
        ∀ v, u < v → v < 2 ^ 62 → clock'.nowUnixMs u < clock'.nowUnixMs v) ∧
    (serverTimeMs < 1577836800000 ∨ 4102444800000 < serverTimeMs ∨ received < started ∨
        5000 < received - started →
      ∃ e, clock.setTime serverTimeMs started received = (clock, .error e)) := by
  constructor
  · intro clock' h
    obtain ⟨hrange, horder, htrip, rfl⟩ := setTime_ok h
    refine ⟨by omega, fun t u hfirst hlast hlater hu => ⟨⟨?_, hlater, ?_, ?_⟩, ?_, ?_⟩⟩
    · unfold Numeral.InInt64
      dsimp only
      omega
    · unfold Numeral.InInt64
      dsimp only
      omega
    · unfold Numeral.InInt64
      dsimp only
      omega
    · rw [nowUnixMs_eq rfl hlater hu]
      dsimp only
      omega
    · intro v hv hrange
      rw [nowUnixMs_eq rfl hlater hu, nowUnixMs_eq rfl (by dsimp only; omega) hrange]
      dsimp only
      omega
  · intro h
    unfold setTime setAuthoritativeTime
    by_cases hrange : serverTimeMs < 1577836800000 ∨ serverTimeMs > 4102444800000 ∨
        received < started
    · rw [if_pos hrange]
      exact ⟨_, rfl⟩
    · rw [if_neg hrange, if_pos (by omega)]
      exact ⟨_, rfl⟩

/-- A server time in the middle of a round trip of 100 ticks. -/
theorem setTime_accurate_sample : ∃ clock',
    setTime {} 1600000000000 1000 1100 = (clock', .ok ()) ∧ clock'.Fits 5000 ∧
      (clock'.nowUnixMs 5000 - (1600000000000 + (5000 - 1050))).natAbs ≤ 50 ∧
      clock'.nowUnixMs 5000 < clock'.nowUnixMs 5001 := by
  obtain ⟨-, haccurate⟩ := (setTime_accurate {} 1600000000000 1000 1100).1 _ rfl
  obtain ⟨hfits, hclose, hlater⟩ := haccurate 1050 5000 (by decide) (by decide) (by decide)
    (by decide)
  exact ⟨_, rfl, hfits, hclose, hlater 5001 (by decide) (by decide)⟩

end ClockState

/-! ## Server time -/

/-- The options that a time request is checked against. -/
structure TimeOptions where
  appId : Bytes
  releaseId : Bytes
  rootTrustKeyId : Bytes
  rootTrustPublicKey : Bytes
  deriving DecidableEq, Repr

/-- A server time manifest. -/
structure ServerTime where
  version : Bytes
  appId : Bytes
  releaseId : Bytes
  nonce : Bytes
  rootTrustKeyId : Bytes
  signature : Bytes
  serverTimeMs : Int
  expiresAtMs : Int
  deriving DecidableEq, Repr

/-- The fields of the manifest, in the order they are read. -/
def readServerTime (body : Json) : Except Error ServerTime := do
  let version ← jsonGetString body (ascii "manifest_version") true
  let appId ← jsonGetString body (ascii "app_id") true
  let releaseId ← jsonGetString body (ascii "release_id") true
  let nonce ← jsonGetString body (ascii "nonce") true
  let rootKey ← jsonGetString body (ascii "root_trust_key_id") true
  let signature ← jsonGetString body (ascii "signature") true
  let serverTime ← jsonGetInt64 body (ascii "server_time_ms") 0
  let expiresAt ← jsonGetInt64 body (ascii "expires_at_ms") 0
  .ok ⟨version, appId, releaseId, nonce, rootKey, signature, serverTime, expiresAt⟩

/-- What the root key signs. -/
def ServerTime.canonical (m : ServerTime) : Bytes :=
  ascii "server_time_v1\napp_id:" ++ m.appId ++ ascii "\nrelease_id:" ++ m.releaseId ++
    ascii "\nnonce:" ++ m.nonce ++ ascii "\nserver_time_ms:" ++ decimal m.serverTimeMs ++
    ascii "\nexpires_at_ms:" ++ decimal m.expiresAtMs ++ ascii "\nroot_trust_key_id:" ++
    m.rootTrustKeyId

/-- The manifest is for another client or request, or does not last as it should. -/
def ServerTime.Mismatch (m : ServerTime) (options : TimeOptions) (nonce : Bytes) : Prop :=
  m.version ≠ ascii "server_time_v1" ∨ m.appId ≠ options.appId ∨
    m.releaseId ≠ options.releaseId ∨ m.nonce ≠ nonce ∨
    m.rootTrustKeyId ≠ options.rootTrustKeyId ∨ m.serverTimeMs ≤ 0 ∨
    m.expiresAtMs ≤ m.serverTimeMs ∨ m.expiresAtMs - m.serverTimeMs > 60000

instance (m : ServerTime) (options : TimeOptions) (nonce : Bytes) :
    Decidable (m.Mismatch options nonce) := by
  unfold ServerTime.Mismatch
  infer_instance

/-- The checks of `refresh_trusted_time` on the answer to its request. -/
def verifyServerTime (crypto : Crypto) (what : Bytes → Bytes) (options : TimeOptions)
    (nonce : Bytes) (response : ProtocolResponse) : Except Error ServerTime := do
  throwIfError what response
  let body ← parseJson what response.body (ascii "signed server time")
  let m ← readServerTime body
  if m.Mismatch options nonce then
    .error (ClockState.clockError "signed server time identity or lifetime is invalid")
  else do
    let valid ← crypto.ed25519Verify options.rootTrustPublicKey m.canonical m.signature
    if ¬ valid then .error (ClockState.clockError "signed server time signature is invalid")
    else .ok m

/-- The end of `refresh_trusted_time`: the manifest and the clock that it sets. -/
def refreshTrustedTime (crypto : Crypto) (what : Bytes → Bytes) (options : TimeOptions)
    (nonce : Bytes) (started : Nat) (response : Except Error ProtocolResponse) (received : Nat) :
    Except Error (ServerTime × ClockState) := do
  let response ← response
  let m ← verifyServerTime crypto what options nonce response
  let clock ← ClockState.setAuthoritativeTime m.serverTimeMs started received
  .ok (m, clock)

/-- A manifest with the client's own identity, signed under its own root key. -/
structure ServerTime.Own (m : ServerTime) (crypto : Crypto) (options : TimeOptions) : Prop where
  version : m.version = ascii "server_time_v1"
  appId : m.appId = options.appId
  releaseId : m.releaseId = options.releaseId
  signed : crypto.ed25519Verify options.rootTrustPublicKey m.canonical m.signature = .ok true

/-- **A manifest that sets the clock is the client's own.** -/
theorem refreshTrustedTime_ok {crypto : Crypto} {what : Bytes → Bytes} {options : TimeOptions}
    {nonce : Bytes} {started received : Nat} {response : Except Error ProtocolResponse}
    {m : ServerTime} {clock : ClockState}
    (h : refreshTrustedTime crypto what options nonce started response received = .ok (m, clock)) :
    m.Own crypto options ∧ clock.initialized = true := by
  unfold refreshTrustedTime at h
  obtain ⟨response, -, h⟩ := bind_eq_ok.mp h
  obtain ⟨m', hverify, h⟩ := bind_eq_ok.mp h
  obtain ⟨clock', hset, h⟩ := bind_eq_ok.mp h
  obtain ⟨rfl, rfl⟩ := Prod.mk.inj (Except.ok.inj h)
  refine ⟨?_, ClockState.setAuthoritativeTime_initialized hset⟩
  unfold verifyServerTime at hverify
  obtain ⟨⟨⟩, -, hverify⟩ := bind_eq_ok.mp hverify
  obtain ⟨body, -, hverify⟩ := bind_eq_ok.mp hverify
  obtain ⟨m'', -, hverify⟩ := bind_eq_ok.mp hverify
  obtain ⟨hmatch, hverify⟩ := guard_eq_ok.mp hverify
  obtain ⟨valid, hvalid, hverify⟩ := bind_eq_ok.mp hverify
  obtain ⟨hsigned, hverify⟩ := guard_eq_ok.mp hverify
  obtain rfl := Except.ok.inj hverify
  rw [not_not.mp hsigned] at hvalid
  simp only [ServerTime.Mismatch, not_or, not_not, ne_eq] at hmatch
  exact ⟨hmatch.1, hmatch.2.1, hmatch.2.2.1, hvalid⟩

/-! ## The clients of a process -/

/-- What a client has of the time: its options, the time request under way with its nonce and its
first tick, and the manifests that it accepted. -/
structure TimeClient where
  options : TimeOptions
  refreshing : Option (Bytes × Nat) := none
  accepted : List ServerTime := []
  deriving DecidableEq, Repr

/-- A process: the clock that all its clients share, and the clients. -/
structure ClockProcess where
  clock : ClockState := {}
  clients : List TimeClient := []
  deriving DecidableEq, Repr

/-- What happens to the clock of a process. -/
inductive ClockEvent where
  | create (options : TimeOptions)
  /-- A request that needs trusted time; if the clock is not set, a time request starts. -/
  | request (client : Nat) (nonce : Bytes) (started : Nat)
  /-- The answer to a time request. -/
  | answer (client : Nat) (response : Except Error ProtocolResponse) (received : Nat)

namespace ClockProcess
variable (crypto : Crypto) (what : Bytes → Bytes)

/-- The manifest and the clock that an answer to a client sets, if it does. -/
def setting (p : ClockProcess) (client : Nat) (response : Except Error ProtocolResponse)
    (received : Nat) : Option (ServerTime × ClockState) :=
  match p.clients[client]? with
  | none => none
  | some c =>
      match c.refreshing with
      | none => none
      | some (nonce, started) =>
          (refreshTrustedTime crypto what c.options nonce started response received).toOption

/-- What an event does to the process. -/
def step (p : ClockProcess) : ClockEvent → ClockProcess
  | .create options => { p with clients := p.clients ++ [{ options }] }
  | .request client nonce started =>
      if p.clock.initialized then p
      else { p with clients := p.clients.modify client fun c =>
        { c with refreshing := some (nonce, started) } }
  | .answer client response received =>
      match p.setting crypto what client response received with
      | none => { p with clients := p.clients.modify client fun c => { c with refreshing := none } }
      | some (m, clock) => {
          clock
          clients := p.clients.modify client fun c =>
            { c with refreshing := none, accepted := m :: c.accepted } }

/-- The process after a run. -/
def run (p : ClockProcess) (events : List ClockEvent) : ClockProcess :=
  events.foldl (step crypto what) p

/-- The clients that a run creates. -/
def creations (events : List ClockEvent) : Nat :=
  events.countP fun
    | .create _ => true
    | _ => false

/-! ## Every run -/

variable {crypto what} {p : ClockProcess}

/-- What is accepted is the client's own, and nothing is accepted before the clock is set. -/
structure Sound (crypto : Crypto) (p : ClockProcess) : Prop where
  own : ∀ c ∈ p.clients, ∀ m ∈ c.accepted, m.Own crypto c.options
  silent : p.clock.initialized = false → ∀ c ∈ p.clients, c.accepted = []
  known : p.clock.initialized = true → ∃ c ∈ p.clients, c.accepted ≠ []

theorem setting_eq_some {client : Nat} {response : Except Error ProtocolResponse} {received : Nat}
    {m : ServerTime} {clock : ClockState}
    (h : p.setting crypto what client response received = some (m, clock)) :
    ∃ c, p.clients[client]? = some c ∧ m.Own crypto c.options ∧ clock.initialized = true := by
  unfold setting at h
  split at h
  · cases h
  · rename_i c hc
    split at h
    · cases h
    · rename_i nonce started hrefreshing
      have hok : refreshTrustedTime crypto what c.options nonce started response received =
          .ok (m, clock) := by
        cases hresult :
            refreshTrustedTime crypto what c.options nonce started response received with
        | error e =>
          rw [hresult] at h
          cases h
        | ok result =>
          rw [hresult] at h
          rw [Option.some.inj h]
      exact ⟨c, hc, refreshTrustedTime_ok hok⟩

/-- The clients after an update of one of them. -/
theorem mem_modify {f : TimeClient → TimeClient} {client : Nat} {c : TimeClient} :
    c ∈ p.clients.modify client f ↔
      ∃ i old, p.clients[i]? = some old ∧ c = if client = i then f old else old := by
  rw [List.mem_iff_getElem?]
  refine exists_congr fun i => ?_
  rw [List.getElem?_modify]
  cases p.clients[i]? with
  | none => simp
  | some old => simp [eq_comm]

theorem Sound.update (h : Sound crypto p) {f : TimeClient → TimeClient}
    (hf : ∀ c, (f c).options = c.options ∧ (f c).accepted = c.accepted) (client : Nat) :
    Sound crypto { p with clients := p.clients.modify client f } := by
  have hkeep : ∀ c ∈ p.clients.modify client f, ∃ old ∈ p.clients,
      c.options = old.options ∧ c.accepted = old.accepted := by
    intro c hc
    obtain ⟨i, old, hold, rfl⟩ := mem_modify.mp hc
    refine ⟨old, List.mem_of_getElem? hold, ?_⟩
    split
    · exact hf old
    · exact ⟨rfl, rfl⟩
  refine ⟨?_, ?_, ?_⟩
  · intro c hc m hm
    obtain ⟨old, hold, hoptions, haccepted⟩ := hkeep c hc
    rw [hoptions]
    exact h.own old hold m (haccepted ▸ hm)
  · intro hnot c hc
    obtain ⟨old, hold, -, haccepted⟩ := hkeep c hc
    rw [haccepted]
    exact h.silent hnot old hold
  · intro hset
    obtain ⟨c, hc, hne⟩ := h.known hset
    obtain ⟨i, hi⟩ := List.mem_iff_getElem?.mp hc
    refine ⟨if client = i then f c else c, mem_modify.mpr ⟨i, c, hi, rfl⟩, ?_⟩
    split
    · rw [(hf c).2]
      exact hne
    · exact hne

/-- **Every step keeps the process sound.** -/
theorem Sound.step (h : Sound crypto p) (event : ClockEvent) :
    Sound crypto (p.step crypto what event) := by
  cases event with
  | create options =>
    refine ⟨?_, ?_, ?_⟩
    · intro c hc m hm
      rcases List.mem_append.mp hc with hc | hc
      · exact h.own c hc m hm
      · obtain rfl := List.mem_singleton.mp hc
        cases hm
    · intro hnot c hc
      rcases List.mem_append.mp hc with hc | hc
      · exact h.silent hnot c hc
      · obtain rfl := List.mem_singleton.mp hc
        rfl
    · intro hset
      obtain ⟨c, hc, hne⟩ := h.known hset
      exact ⟨c, List.mem_append_left _ hc, hne⟩
  | request client nonce started =>
    unfold ClockProcess.step
    dsimp only
    split
    · exact h
    · refine h.update ?_ client
      exact fun c => ⟨rfl, rfl⟩
  | answer client response received =>
    unfold ClockProcess.step
    dsimp only
    split
    · refine h.update ?_ client
      exact fun c => ⟨rfl, rfl⟩
    · -- the answered client gets the manifest it verified, the others keep theirs
      rename_i m clock hsetting
      obtain ⟨old, hold, hown, hset⟩ := setting_eq_some hsetting
      refine ⟨?_, ?_, ?_⟩
      · intro c hc m' hm'
        obtain ⟨i, before, hbefore, rfl⟩ := mem_modify.mp hc
        split at hm'
        · rename_i hi
          rw [← hi, hold] at hbefore
          obtain rfl := Option.some.inj hbefore
          rw [if_pos hi]
          rcases List.mem_cons.mp hm' with rfl | hm'
          · exact hown
          · exact h.own old (List.mem_of_getElem? hold) m' hm'
        · rename_i hi
          rw [if_neg hi]
          exact h.own before (List.mem_of_getElem? hbefore) m' hm'
      · intro hnot
        rw [hset] at hnot
        cases hnot
      · intro _
        refine ⟨_, mem_modify.mpr ⟨client, old, hold, rfl⟩, ?_⟩
        rw [if_pos rfl]
        exact List.cons_ne_nil _ _

theorem run_concat (events : List ClockEvent) (event : ClockEvent) :
    p.run crypto what (events ++ [event]) = (p.run crypto what events).step crypto what event :=
  List.foldl_concat ..

end ClockProcess

open ClockProcess

/-- A server time for the first sample client. -/
def sampleTime : ServerTime where
  version := ascii "server_time_v1"
  appId := ascii "app"
  releaseId := ascii "release"
  nonce := ascii "nonce"
  rootTrustKeyId := ascii "root"
  signature := ascii
    "KSUTH14MmiF3Qa7HaiPiy1j0FZnOQVCqje9vDHcwb1UUkQdgbIAlztRa6WsztwRuvcHBHv08Kbgmv09pqNyTCg"
  serverTimeMs := 1700000000000
  expiresAtMs := 1700000030000

/-- The same, as the service sends it. -/
def sampleTimeBody : Bytes :=
  ascii "\x7b\"manifest_version\":\"server_time_v1\"," ++
    ascii "\"app_id\":\"app\",\"release_id\":\"release\"," ++
    ascii "\"nonce\":\"nonce\",\"root_trust_key_id\":\"root\",\"signature\":\"" ++
    sampleTime.signature ++
    ascii "\",\"server_time_ms\":1700000000000,\"expires_at_ms\":1700000030000\x7d"

def sampleTimeOptions : TimeOptions :=
  ⟨ascii "app", ascii "release", ascii "root",
    ascii "_FHNjmIYoaONpH7QAjDwWAgW7RO6MwOsXeuRFUiQgCU"⟩

def sampleTimeCrypto : Crypto :=
  listedCrypto []
    [(sampleTimeOptions.rootTrustPublicKey, sampleTime.canonical, sampleTime.signature)]

end Cpp
end SwmSdk
