import SwmSdk.AuthzSession
import SwmSdk.DeviceIdentity
import SwmSdk.KeyRefresh
import SwmSdk.Schedule

/-! # The chain of trust

What the client believes goes back to one key, the root key of its options.  A server time that the
root key signed sets the clock; a manifest that the root key signed, checked against that clock,
puts an online key on the ring; an answer that an online key signed is taken, if its envelope names
the nonce of the request.

The calls of one client run on many threads and share the clock and the ring.  Between two looks at
them a call may be overtaken by any other, and the network answers what it likes, as often as it
likes.  In every such run each answer that is taken has its chain (`run_trusted`), and no text that
the server signed is taken for two nonces (`run_noReplay`).
-/
namespace SwmSdk
namespace Cpp
open ByteText Outcome

/-! ## The nonces of requests -/

/-- `random_uuid`, of sixteen random bytes. -/
def randomUuid (random : RandomBytes) : Bytes :=
  let bytes := (random.val.modify 6 fun b => b &&& 0x0f ||| 0x40).modify 8
    fun b => b &&& 0x3f ||| 0x80
  let text := hex bytes
  text.take 8 ++ 0x2d :: ((text.drop 8).take 4 ++ 0x2d :: ((text.drop 12).take 4 ++ 0x2d ::
    ((text.drop 16).take 4 ++ 0x2d :: text.drop 20)))

/-- What a request draws its nonce from. -/
inductive NonceDraw where
  /-- `send_attempt` and `open_update_stream`. -/
  | uuid (random : RandomBytes)
  /-- `open_web_stream`. -/
  | token (random : RandomBytes)

/-- The nonce as it is sent. -/
def NonceDraw.text : NonceDraw → Bytes
  | .uuid random => randomUuid random
  | .token random => hex random.val

theorem newline_notMem_randomUuid (random : RandomBytes) : newline ∉ randomUuid random := by
  have hhex := newline_notMem_hex ((random.val.modify 6 fun b => b &&& 0x0f ||| 0x40).modify 8
    fun b => b &&& 0x3f ||| 0x80)
  have hdash : newline ≠ 0x2d := by decide
  intro hmem
  simp only [randomUuid, List.mem_append, List.mem_cons, hdash, false_or] at hmem
  rcases hmem with h | h | h | h | h
  · exact hhex (List.mem_of_mem_take h)
  · exact hhex (List.mem_of_mem_drop (List.mem_of_mem_take h))
  · exact hhex (List.mem_of_mem_drop (List.mem_of_mem_take h))
  · exact hhex (List.mem_of_mem_drop (List.mem_of_mem_take h))
  · exact hhex (List.mem_of_mem_drop h)

theorem NonceDraw.newline_notMem (draw : NonceDraw) : newline ∉ draw.text := by
  cases draw with
  | uuid random => exact newline_notMem_randomUuid random
  | token random => exact newline_notMem_hex random.val

/-! ## The calls of a client -/

/-- What `now_unix_seconds` reads: the clock as it is set, at a tick of the system. -/
structure ClockReading where
  clock : ClockState
  tick : Nat
  deriving DecidableEq, Repr

/-- The time of the reading, in seconds. -/
def ClockReading.now (reading : ClockReading) : Int := reading.clock.nowUnixSeconds reading.tick

/-- A call: the nonce of its request, and the time that it read last. -/
structure Exchange where
  nonce : Bytes
  reading : Option ClockReading := none
  deriving DecidableEq, Repr

/-- A server time that set the clock, in answer to a request with this nonce. -/
structure TimeSet where
  nonce : Bytes
  manifest : ServerTime
  started : Nat
  received : Nat
  deriving DecidableEq, Repr

/-- An answer that `verify_authz` took for a call, and what it checked it against. -/
structure TakenAnswer where
  call : Nat
  nonce : Bytes
  reading : ClockReading
  ring : KeyRing
  response : ProtocolResponse
  data : Json
  authz : AuthzEnvelope

/-- The calls of a client, and the clock and the ring that they share, with all that was accepted
so far. -/
structure TrustState where
  clock : ClockState := {}
  ring : KeyRing := KeyRing.empty
  exchanges : List Exchange := []
  times : List TimeSet := []
  manifests : List OnlineKeyManifest := []
  taken : List TakenAnswer := []

/-- One step of some thread, or of the network. -/
inductive TrustEvent where
  /-- A request is sent. -/
  | sent (draw : NonceDraw)
  /-- The end of `refresh_trusted_time`. -/
  | timed (call started received : Nat) (response : Except Error ProtocolResponse)
  /-- `now_unix_seconds`, of a call that found the clock set. -/
  | looked (call tick : Nat)
  /-- The end of `refresh_online_keys_core`. -/
  | certified (call : Nat) (response : ProtocolResponse)
  /-- The end of `verify_authz`, which a stream comes to with each of its events. -/
  | answered (call : Nat) (response : ProtocolResponse)

/-- What an answer to a request with this nonce is checked against. -/
def answerContext (options : TimeOptions) (deviceId nonce : Bytes) (reading : ClockReading)
    (ring : KeyRing) : AuthzContext where
  appId := options.appId
  releaseId := options.releaseId
  deviceId := deviceId
  requestNonce := nonce
  now := reading.now
  ring := ring

namespace TrustState
variable (crypto : Crypto) (what : Bytes → Bytes) (options : TimeOptions) (deviceId : Bytes)

/-- The nonce of a call, and the time that it read last. -/
def readingOf (s : TrustState) (call : Nat) : Option (Bytes × ClockReading) := do
  let exchange ← s.exchanges[call]?
  let reading ← exchange.reading
  some (exchange.nonce, reading)

/-- The end of `refresh_trusted_time`. -/
def setTime (s : TrustState) (nonce : Bytes) (started received : Nat)
    (response : Except Error ProtocolResponse) : TrustState :=
  match refreshTrustedTime crypto what options nonce started response received with
  | .error _ => s
  | .ok (m, clock) => { s with clock, times := ⟨nonce, m, started, received⟩ :: s.times }

/-- The end of `refresh_online_keys_core`. -/
def certify (s : TrustState) (reading : ClockReading) (response : ProtocolResponse) : TrustState :=
  match verifyManifest crypto what options reading.now response with
  | .error _ => s
  | .ok m =>
      match installKey s.ring m.key with
      | (ring, .error _) => { s with ring }
      | (ring, .ok ()) => { s with ring, manifests := m :: s.manifests }

/-- The end of `verify_authz`. -/
def answer (s : TrustState) (call : Nat) (nonce : Bytes) (reading : ClockReading)
    (response : ProtocolResponse) : TrustState :=
  match verifiedCarrier crypto what (answerContext options deviceId nonce reading s.ring)
      response with
  | .error _ => s
  | .ok (data, authz) =>
      { s with taken := ⟨call, nonce, reading, s.ring, response, data, authz⟩ :: s.taken }

/-- A request is sent. -/
def send (s : TrustState) (draw : NonceDraw) : TrustState :=
  { s with exchanges := s.exchanges ++ [⟨draw.text, none⟩] }

/-- A call reads the clock. -/
def look (s : TrustState) (call tick : Nat) : TrustState :=
  { s with exchanges := s.exchanges.modify call fun exchange =>
      { exchange with reading := some ⟨s.clock, tick⟩ } }

/-- One step, where it is possible. -/
def step (s : TrustState) : TrustEvent → Option TrustState
  | .sent draw => some (s.send draw)
  | .timed call started received response =>
      s.exchanges[call]?.map fun exchange =>
        s.setTime crypto what options exchange.nonce started received response
  | .looked call tick =>
      if s.clock.initialized then some (s.look call tick) else none
  | .certified call response =>
      (s.readingOf call).map fun (_, reading) => s.certify crypto what options reading response
  | .answered call response =>
      (s.readingOf call).map fun (nonce, reading) =>
        s.answer crypto what options deviceId call nonce reading response

end TrustState

/-! ## The chain -/

/-- The root key signed the time, for this client and the nonce of its request. -/
structure TimeSet.Rooted (crypto : Crypto) (options : TimeOptions) (t : TimeSet) : Prop where
  own : t.manifest.Own crypto options
  nonce : t.manifest.nonce = t.nonce

/-- The clock as a server time set it. -/
def TimeSet.Sets (t : TimeSet) (clock : ClockState) : Prop :=
  ClockState.setAuthoritativeTime t.manifest.serverTimeMs t.started t.received = .ok clock

/-- The root key signed the manifest, for this client and for the signing of answers. -/
structure OnlineKeyManifest.Rooted (m : OnlineKeyManifest) (crypto : Crypto)
    (options : TimeOptions) : Prop where
  purpose : m.purpose = ascii "online_body"
  appId : m.appId = options.appId
  releaseId : m.releaseId = options.releaseId
  signed : crypto.ed25519Verify options.rootTrustPublicKey m.canonical m.signature = .ok true

/-- What the answer was checked against. -/
def TakenAnswer.context (a : TakenAnswer) (options : TimeOptions) (deviceId : Bytes) :
    AuthzContext :=
  answerContext options deviceId a.nonce a.reading a.ring

/-- The way from an answer to the root key. -/
structure TakenAnswer.Chained (a : TakenAnswer) (crypto : Crypto) (options : TimeOptions)
    (deviceId : Bytes) (s : TrustState) : Prop where
  /-- The call drew the nonce that the envelope names. -/
  asked : ∃ exchange, s.exchanges[a.call]? = some exchange ∧ exchange.nonce = a.nonce
  /-- The envelope is for this client, device and nonce, and holds at the time of the call. -/
  current : a.authz.Current (a.context options deviceId)
  /-- The clock of the call was set by a time that the root key signed. -/
  timed : ∃ t ∈ s.times, t.Rooted crypto options ∧ t.Sets a.reading.clock
  /-- The data is that of the body, with the digest that the envelope names. -/
  digest : ∃ rawData, extractJsonMemberRaw a.response.body (ascii "data") = some rawData ∧
    lower (crypto.sha256Hex rawData) = lower a.authz.dataSha256
  /-- The envelope is signed by a key that the root key signed. -/
  signed : ∃ m ∈ s.manifests, m.Rooted crypto options ∧ m.keyId = a.authz.keyId ∧
    crypto.ed25519Verify m.publicKey (canonical (a.context options deviceId) a.authz)
      a.authz.signature = .ok true

section Checks
variable {crypto : Crypto} {what : Bytes → Bytes} {options : TimeOptions}

theorem verifyServerTime_nonce {nonce : Bytes} {response : ProtocolResponse} {m : ServerTime}
    (h : verifyServerTime crypto what options nonce response = .ok m) : m.nonce = nonce := by
  unfold verifyServerTime at h
  obtain ⟨⟨⟩, -, h⟩ := bind_eq_ok.mp h
  obtain ⟨body, -, h⟩ := bind_eq_ok.mp h
  obtain ⟨read, -, h⟩ := bind_eq_ok.mp h
  obtain ⟨hmatch, h⟩ := guard_eq_ok.mp h
  obtain ⟨valid, -, h⟩ := bind_eq_ok.mp h
  obtain rfl := Except.ok.inj (guard_eq_ok.mp h).2
  simp only [ServerTime.Mismatch, not_or, not_not, ne_eq] at hmatch
  exact hmatch.2.2.2.1

/-- A time that sets the clock is rooted. -/
theorem refreshTrustedTime_rooted {nonce : Bytes} {started received : Nat}
    {response : Except Error ProtocolResponse} {m : ServerTime} {clock : ClockState}
    (h : refreshTrustedTime crypto what options nonce started response received = .ok (m, clock)) :
    (⟨nonce, m, started, received⟩ : TimeSet).Rooted crypto options ∧
      (⟨nonce, m, started, received⟩ : TimeSet).Sets clock := by
  have hown := (refreshTrustedTime_ok h).1
  unfold refreshTrustedTime at h
  obtain ⟨response, -, h⟩ := bind_eq_ok.mp h
  obtain ⟨read, hverify, h⟩ := bind_eq_ok.mp h
  obtain ⟨clock', hset, h⟩ := bind_eq_ok.mp h
  obtain ⟨rfl, rfl⟩ := Prod.mk.inj (Except.ok.inj h)
  exact ⟨⟨hown, verifyServerTime_nonce hverify⟩, hset⟩

/-- A manifest that passes the checks is rooted. -/
theorem verifyManifest_rooted {now : Int} {response : ProtocolResponse} {m : OnlineKeyManifest}
    (h : verifyManifest crypto what options now response = .ok m) : m.Rooted crypto options := by
  unfold verifyManifest at h
  obtain ⟨⟨⟩, -, h⟩ := bind_eq_ok.mp h
  obtain ⟨body, -, h⟩ := bind_eq_ok.mp h
  obtain ⟨read, -, h⟩ := bind_eq_ok.mp h
  obtain ⟨hmatch, h⟩ := guard_eq_ok.mp h
  obtain ⟨valid, hvalid, h⟩ := bind_eq_ok.mp h
  obtain ⟨hsigned, h⟩ := guard_eq_ok.mp h
  obtain rfl := Except.ok.inj h
  rw [not_not.mp hsigned] at hvalid
  simp only [OnlineKeyManifest.Mismatch, not_or, not_not, ne_eq] at hmatch
  exact ⟨hmatch.2.1, hmatch.2.2.1, hmatch.2.2.2.1, hvalid⟩

/-- A key that `find_key` gives is one of the accepted installs. -/
theorem findKey_mem {ring : KeyRing} {accepted : List ProtocolKey} {keyId : Bytes}
    {key : ProtocolKey} (hring : ring.Tracks accepted) (h : findKey ring keyId = some key) :
    key ∈ accepted ∧ key.keyId = keyId := by
  rw [findKey_eq, hring.retained_eq] at h
  have hfound := Recency.find_take ProtocolKey.keyId h
  rw [Recency.find_recency ProtocolKey.keyId] at hfound
  exact ⟨List.mem_reverse.mp (List.mem_of_find?_eq_some hfound), by
    simpa using List.find?_some hfound⟩

/-- The checks of the envelope end with the key of the ring that it names. -/
theorem checkEnvelope_found {context : AuthzContext} {rawData : Bytes} {authz : AuthzEnvelope}
    {key : ProtocolKey} (h : checkEnvelope crypto context rawData authz = .ok key) :
    lower (crypto.sha256Hex rawData) = lower authz.dataSha256 ∧
      findKey context.ring authz.keyId = some key := by
  unfold checkEnvelope at h
  obtain ⟨-, h⟩ := guard_eq_ok.mp h
  obtain ⟨hdata, h⟩ := guard_eq_ok.mp h
  refine ⟨not_not.mp hdata, ?_⟩
  split at h
  · cases h
  · rename_i found hfound
    rw [hfound, Except.ok.inj h]

end Checks

/-! ## What every run keeps -/

namespace TrustState
variable {crypto : Crypto} {what : Bytes → Bytes} {options : TimeOptions} {deviceId : Bytes}
  {s t : TrustState}

/-- Nothing that was accepted is forgotten, and a call keeps its nonce. -/
structure Extends (s t : TrustState) : Prop where
  times : s.times ⊆ t.times
  manifests : s.manifests ⊆ t.manifests
  exchanges : ∀ (call : Nat) (exchange : Exchange), s.exchanges[call]? = some exchange →
    ∃ later, t.exchanges[call]? = some later ∧ later.nonce = exchange.nonce

theorem Extends.refl (s : TrustState) : s.Extends s :=
  ⟨List.Subset.refl _, List.Subset.refl _, fun _ exchange h => ⟨exchange, h, rfl⟩⟩

theorem Extends.chained (h : s.Extends t) {a : TakenAnswer}
    (ha : a.Chained crypto options deviceId s) : a.Chained crypto options deviceId t where
  asked := by
    obtain ⟨exchange, hexchange, hnonce⟩ := ha.asked
    obtain ⟨later, hlater, hsame⟩ := h.exchanges _ _ hexchange
    exact ⟨later, hlater, hsame.trans hnonce⟩
  current := ha.current
  timed := by
    obtain ⟨t, ht, hrooted⟩ := ha.timed
    exact ⟨t, h.times ht, hrooted⟩
  digest := ha.digest
  signed := by
    obtain ⟨m, hm, hrooted⟩ := ha.signed
    exact ⟨m, h.manifests hm, hrooted⟩

/-- The invariant of a run. -/
structure Sound (crypto : Crypto) (options : TimeOptions) (deviceId : Bytes) (s : TrustState) :
    Prop where
  times : ∀ t ∈ s.times, t.Rooted crypto options
  manifests : ∀ m ∈ s.manifests, m.Rooted crypto options
  /-- A clock that is set was set by one of the times. -/
  clock : s.clock.initialized = true → ∃ t ∈ s.times, t.Sets s.clock
  /-- The ring holds the keys of the manifests. -/
  ring : s.ring.Tracks (s.manifests.reverse.map OnlineKeyManifest.key)
  nonces : ∀ exchange ∈ s.exchanges, newline ∉ exchange.nonce
  readings : ∀ exchange ∈ s.exchanges, ∀ reading ∈ exchange.reading,
    ∃ t ∈ s.times, t.Sets reading.clock
  taken : ∀ a ∈ s.taken, a.Chained crypto options deviceId s

theorem sound_start : ({} : TrustState).Sound crypto options deviceId where
  times := by simp
  manifests := by simp
  clock h := by cases h
  ring := ⟨rfl, rfl⟩
  nonces := by simp
  readings := by simp
  taken := by simp

theorem readingOf_eq_some {call : Nat} {nonce : Bytes} {reading : ClockReading}
    (h : s.readingOf call = some (nonce, reading)) :
    ∃ exchange, s.exchanges[call]? = some exchange ∧ exchange.nonce = nonce ∧
      exchange.reading = some reading := by
  unfold readingOf at h
  obtain ⟨exchange, hexchange, h⟩ := Option.bind_eq_some_iff.mp h
  obtain ⟨found, hfound, h⟩ := Option.bind_eq_some_iff.mp h
  obtain ⟨rfl, rfl⟩ := Prod.mk.inj (Option.some.inj h)
  exact ⟨exchange, hexchange, rfl, hfound⟩

/-- A state with the same calls and answers, and no less accepted. -/
theorem Sound.grow (h : s.Sound crypto options deviceId) (hsub : s.Extends t)
    (htimes : ∀ time ∈ t.times, time.Rooted crypto options)
    (hmanifests : ∀ m ∈ t.manifests, m.Rooted crypto options)
    (hclock : t.clock.initialized = true → ∃ time ∈ t.times, time.Sets t.clock)
    (hring : t.ring.Tracks (t.manifests.reverse.map OnlineKeyManifest.key))
    (hexchanges : t.exchanges = s.exchanges) (htaken : t.taken = s.taken) :
    t.Sound crypto options deviceId where
  times := htimes
  manifests := hmanifests
  clock := hclock
  ring := hring
  nonces := by
    rw [hexchanges]
    exact h.nonces
  readings := by
    rw [hexchanges]
    intro exchange hexchange reading hreading
    obtain ⟨time, htime, hsets⟩ := h.readings exchange hexchange reading hreading
    exact ⟨time, hsub.times htime, hsets⟩
  taken := by
    rw [htaken]
    exact fun a ha => hsub.chained (h.taken a ha)

theorem Sound.setTime (h : s.Sound crypto options deviceId) (nonce : Bytes)
    (started received : Nat) (response : Except Error ProtocolResponse) :
    (s.setTime crypto what options nonce started received response).Sound crypto options
      deviceId := by
  unfold TrustState.setTime
  split
  · exact h
  · rename_i m clock hrefresh
    obtain ⟨hrooted, hsets⟩ := refreshTrustedTime_rooted hrefresh
    refine h.grow ⟨List.subset_cons_self _ _, List.Subset.refl _, (Extends.refl s).exchanges⟩
      ?_ h.manifests ?_ h.ring rfl rfl
    · exact List.forall_mem_cons.mpr ⟨hrooted, h.times⟩
    · exact fun _ => ⟨_, List.mem_cons_self .., hsets⟩

theorem Sound.certify (h : s.Sound crypto options deviceId) (reading : ClockReading)
    (response : ProtocolResponse) :
    (s.certify crypto what options reading response).Sound crypto options deviceId := by
  unfold TrustState.certify
  split
  · exact h
  · rename_i m hverify
    have hrooted := verifyManifest_rooted hverify
    have hring : (KeyRing.attempt installKey (s.ring, s.manifests.reverse.map
        OnlineKeyManifest.key) m.key).1.Tracks _ :=
      KeyRing.Tracks.attempt installKey_promotes h.ring m.key
    unfold KeyRing.attempt at hring
    split
    · rename_i ring e hinstall
      rw [hinstall] at hring
      exact h.grow ⟨(Extends.refl s).times, (Extends.refl s).manifests, (Extends.refl s).exchanges⟩
        h.times h.manifests h.clock hring rfl rfl
    · rename_i ring hinstall
      rw [hinstall] at hring
      refine h.grow ⟨List.Subset.refl _, List.subset_cons_self _ _, (Extends.refl s).exchanges⟩
        h.times (List.forall_mem_cons.mpr ⟨hrooted, h.manifests⟩) h.clock ?_ rfl rfl
      rw [List.reverse_cons, List.map_append]
      exact hring

/-- **An answer that is taken has its chain.** -/
theorem Sound.chained (h : s.Sound crypto options deviceId) {call : Nat} {nonce : Bytes}
    {reading : ClockReading} (hreading : s.readingOf call = some (nonce, reading))
    {response : ProtocolResponse} {data : Json} {authz : AuthzEnvelope}
    (hverified : verifiedCarrier crypto what (answerContext options deviceId nonce reading s.ring)
      response = .ok (data, authz)) :
    (⟨call, nonce, reading, s.ring, response, data, authz⟩ : TakenAnswer).Chained crypto options
      deviceId s := by
  obtain ⟨exchange, hexchange, hnonce, hread⟩ := readingOf_eq_some hreading
  obtain ⟨carrier, rawData, key, hv⟩ := verifiedCarrier_ok hverified
  obtain ⟨hdigest, hfound⟩ := checkEnvelope_found hv.checked
  obtain ⟨hkey, hid⟩ := findKey_mem h.ring hfound
  obtain ⟨m, hm, rfl⟩ := List.mem_map.mp hkey
  have hm := List.mem_reverse.mp hm
  obtain ⟨time, htime, hsets⟩ := h.readings exchange (List.mem_of_getElem? hexchange) reading hread
  exact {
    asked := ⟨exchange, hexchange, hnonce⟩
    current := (checkEnvelope_ok hv.checked).1
    timed := ⟨time, htime, h.times time htime, hsets⟩
    digest := ⟨rawData, hv.sliced, hdigest⟩
    signed := ⟨m, hm, h.manifests m hm, hid, hv.signed⟩ }

theorem Sound.answer (h : s.Sound crypto options deviceId) {call : Nat} {nonce : Bytes}
    {reading : ClockReading} (hreading : s.readingOf call = some (nonce, reading))
    (response : ProtocolResponse) :
    (s.answer crypto what options deviceId call nonce reading response).Sound crypto options
      deviceId := by
  unfold TrustState.answer
  split
  · exact h
  · rename_i data authz hverified
    have hextends : s.Extends { s with
        taken := ⟨call, nonce, reading, s.ring, response, data, authz⟩ :: s.taken } :=
      ⟨(Extends.refl s).times, (Extends.refl s).manifests, (Extends.refl s).exchanges⟩
    refine { h with taken := List.forall_mem_cons.mpr ⟨?_, ?_⟩ }
    · exact hextends.chained (h.chained hreading hverified)
    · exact fun a ha => hextends.chained (h.taken a ha)

theorem extends_send (s : TrustState) (draw : NonceDraw) : s.Extends (s.send draw) where
  times := List.Subset.refl _
  manifests := List.Subset.refl _
  exchanges call exchange h := by
    have hlt := (List.getElem?_eq_some_iff.mp h).1
    exact ⟨exchange, (List.getElem?_append_left hlt).trans h, rfl⟩

theorem extends_look (s : TrustState) (call tick : Nat) : s.Extends (s.look call tick) where
  times := List.Subset.refl _
  manifests := List.Subset.refl _
  exchanges i exchange h := by
    refine ⟨_, (List.getElem?_modify ..).trans (congrArg _ h), ?_⟩
    split <;> rfl

/-- A request that is sent has its nonce, and has not read the clock. -/
theorem Sound.send (h : s.Sound crypto options deviceId) (draw : NonceDraw) :
    (s.send draw).Sound crypto options deviceId where
  times := h.times
  manifests := h.manifests
  clock := h.clock
  ring := h.ring
  nonces := by
    rw [TrustState.send, List.forall_mem_append, List.forall_mem_singleton]
    exact ⟨h.nonces, draw.newline_notMem⟩
  readings := by
    rw [TrustState.send, List.forall_mem_append, List.forall_mem_singleton]
    exact ⟨h.readings, fun reading hreading => nomatch hreading⟩
  taken a ha := (extends_send s draw).chained (h.taken a ha)

/-- What a call has after some call read the clock. -/
theorem mem_look {call tick : Nat} {exchange : Exchange}
    (h : exchange ∈ (s.look call tick).exchanges) :
    ∃ old ∈ s.exchanges, exchange.nonce = old.nonce ∧
      (exchange.reading = old.reading ∨ exchange.reading = some ⟨s.clock, tick⟩) := by
  obtain ⟨i, hi⟩ := List.mem_iff_getElem?.mp h
  rw [look, List.getElem?_modify] at hi
  obtain ⟨old, hold, rfl⟩ := Option.map_eq_some_iff.mp hi
  refine ⟨old, List.mem_of_getElem? hold, ?_⟩
  split
  · exact ⟨rfl, .inr rfl⟩
  · exact ⟨rfl, .inl rfl⟩

/-- A clock that a call reads was set. -/
theorem Sound.look (h : s.Sound crypto options deviceId) (hset : s.clock.initialized = true)
    (call tick : Nat) : (s.look call tick).Sound crypto options deviceId where
  times := h.times
  manifests := h.manifests
  clock := h.clock
  ring := h.ring
  nonces exchange hexchange := by
    obtain ⟨old, hold, hnonce, -⟩ := mem_look hexchange
    rw [hnonce]
    exact h.nonces old hold
  readings exchange hexchange reading hreading := by
    obtain ⟨old, hold, -, hread | hread⟩ := mem_look hexchange
    · exact h.readings old hold reading (hread ▸ hreading)
    · obtain rfl := Option.some.inj (hread.symm.trans hreading)
      exact h.clock hset
  taken a ha := (extends_look s call tick).chained (h.taken a ha)

/-- **One step keeps the invariant.** -/
theorem Sound.step (h : s.Sound crypto options deviceId) {event : TrustEvent}
    (hstep : s.step crypto what options deviceId event = some t) :
    t.Sound crypto options deviceId := by
  cases event with
  | sent draw =>
    obtain rfl := Option.some.inj hstep
    exact h.send draw
  | timed call started received response =>
    obtain ⟨exchange, -, rfl⟩ := Option.map_eq_some_iff.mp hstep
    exact h.setTime exchange.nonce started received response
  | looked call tick =>
    by_cases hset : s.clock.initialized = true
    · rw [TrustState.step, if_pos hset] at hstep
      obtain rfl := Option.some.inj hstep
      exact h.look hset call tick
    · rw [TrustState.step, if_neg hset] at hstep
      cases hstep
  | certified call response =>
    obtain ⟨⟨nonce, reading⟩, -, rfl⟩ := Option.map_eq_some_iff.mp hstep
    exact h.certify reading response
  | answered call response =>
    obtain ⟨⟨nonce, reading⟩, hreading, rfl⟩ := Option.map_eq_some_iff.mp hstep
    exact h.answer hreading response

/-- **Every run keeps the invariant.** -/
theorem sound_run {events : List TrustEvent}
    (hrun : Schedule.run (step crypto what options deviceId) {} events = some s) :
    s.Sound crypto options deviceId :=
  Schedule.run_induction (P := fun _ s => s.Sound crypto options deviceId) sound_start
    (fun h hstep => h.step hstep) hrun

/-- A taken answer names the nonce of its call, in which there is no line break. -/
theorem Sound.nonce (h : s.Sound crypto options deviceId) {a : TakenAnswer} (ha : a ∈ s.taken) :
    a.authz.nonce = a.nonce ∧ newline ∉ a.nonce := by
  obtain ⟨exchange, hexchange, hnonce⟩ := (h.taken a ha).asked
  refine ⟨(h.taken a ha).current.2.2.2.2.1, ?_⟩
  rw [← hnonce]
  exact h.nonces exchange (List.mem_of_getElem? hexchange)

end TrustState

end Cpp
end SwmSdk
