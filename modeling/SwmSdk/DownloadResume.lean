import SwmSdk.Dpop
import SwmSdk.Numeral
import SwmSdk.RootOfTrust

/-! # The requests and the resumption of a download

Two facts about whole runs of `download_update` in the C++ client.  Whatever the redirects and
ranges, only requests for the URL of the update carry the session and its proof, none of them
after a redirect, and at most five requests are made (`download_confined`).  And a call on any
partial file installs the artifact of a server that keeps to the range protocol, or
removes the partial file, exactly unless the server refuses the range (`resume_iff`).
-/
namespace SwmSdk
namespace Cpp
open ByteText Outcome

/-! ## What the requests carry -/

/-- `open_download_stream`: the request that is sent.  `dpop` is the proof for a URL. -/
def openDownloadStream (session : Bytes) (dpop : Bytes → Bytes) (request : DownloadRequest) :
    HttpRequest where
  method := ascii "GET"
  url := request.url
  headers :=
    (if request.rangeStart > 0 then
      [(ascii "range", ascii "bytes=" ++ decimalNat request.rangeStart ++ ascii "-")] else []) ++
    (if request.authenticated then
      [(ascii "X-SWM-Session", session), (ascii "X-SWM-DPoP", dpop request.url)] else [])
  body := []

/-- The request carries the session or its proof. -/
def CarriesCredentials (request : HttpRequest) : Prop :=
  (request.header "X-SWM-Session").isSome ∨ (request.header "X-SWM-DPoP").isSome

theorem carriesCredentials_iff {session : Bytes} {dpop : Bytes → Bytes}
    {request : DownloadRequest} :
    CarriesCredentials (openDownloadStream session dpop request) ↔
      request.authenticated = true := by
  have hrange : ascii "range" ≠ ascii "X-SWM-Session" ∧ ascii "range" ≠ ascii "X-SWM-DPoP" := by
    decide
  have hnames : ascii "X-SWM-Session" ≠ ascii "X-SWM-DPoP" := by decide
  unfold CarriesCredentials HttpRequest.header openDownloadStream
  cases request.authenticated with
  | false =>
    split
    · simp [hrange.1, hrange.2]
    · simp
  | true =>
    split
    · simp [hrange.1]
    · simp

/-- The answer is a redirect. -/
def Redirects (answer : Except Failure ResponseStream) : Prop :=
  ∃ stream, answer = .ok stream ∧ 300 ≤ stream.statusCode ∧ stream.statusCode < 400

section Requests
variable (server : Server)

/-- After a redirect no request is authenticated. -/
theorem followRedirects_redirected (existing left : Nat) (url : Bytes)
    (requests : List DownloadRequest) :
    ∃ rest, (followRedirects server existing left url false requests).2 = requests ++ rest ∧
      rest.length ≤ left ∧ (∀ request ∈ rest, request.authenticated = false) ∧
      ∀ stream url' authenticated,
        (followRedirects server existing left url false requests).1 =
          .ok (stream, url', authenticated) → authenticated = false := by
  induction left generalizing url requests with
  | zero => exact ⟨[], (List.append_nil _).symm, Nat.le_refl _, by simp, by simp [followRedirects]⟩
  | succ left ih =>
    have hsingle : ∀ request ∈ [(⟨url, existing, false⟩ : DownloadRequest)],
        request.authenticated = false := by simp
    rw [followRedirects]
    cases server requests ⟨url, existing, false⟩ with
    | error e => exact ⟨[_], rfl, by simp, hsingle, by simp⟩
    | ok stream =>
      dsimp only
      split
      · exact ⟨[_], rfl, by simp, hsingle, by simp⟩
      · split
        · exact ⟨[_], rfl, by simp, hsingle, by simp⟩
        · split
          · exact ⟨[_], rfl, by simp, hsingle, by simp⟩
          · rename_i location _ next _
            obtain ⟨rest, hrest, hlength, hplain, hok⟩ := ih next
              (requests ++ [⟨url, existing, false⟩])
            refine ⟨⟨url, existing, false⟩ :: rest, by rw [hrest]; simp, by simpa using hlength, ?_,
              hok⟩
            intro request hrequest
            rcases List.mem_cons.mp hrequest with rfl | hrequest
            · rfl
            · exact hplain request hrequest

/-- **The loop over redirects**: after its first request none is authenticated, and the
stream it returns is authenticated only as the answer to that request. -/
theorem followRedirects_requests (existing left : Nat) (url : Bytes) (authenticated : Bool)
    (requests : List DownloadRequest) :
    ∃ rest, (followRedirects server existing (left + 1) url authenticated requests).2 =
        requests ++ ⟨url, existing, authenticated⟩ :: rest ∧
      rest.length ≤ left ∧ (∀ request ∈ rest, request.authenticated = false) ∧
      ∀ stream url' authenticated',
        (followRedirects server existing (left + 1) url authenticated requests).1 =
          .ok (stream, url', authenticated') → authenticated' = true →
        rest = [] ∧ url' = url ∧ ¬ Redirects (server requests ⟨url, existing, authenticated⟩) := by
  rw [followRedirects]
  cases hanswer : server requests ⟨url, existing, authenticated⟩ with
  | error e => exact ⟨[], rfl, Nat.zero_le _, by simp, by simp⟩
  | ok stream =>
    dsimp only
    split
    · rename_i hstatus
      refine ⟨[], rfl, Nat.zero_le _, by simp, ?_⟩
      rintro _ _ _ h -
      obtain ⟨-, rfl, -⟩ := Prod.mk.inj (Except.ok.inj h) |>.imp_right Prod.mk.inj
      refine ⟨rfl, rfl, ?_⟩
      rintro ⟨other, hother, hlow, hhigh⟩
      obtain rfl := Except.ok.inj hother
      omega
    · split
      · exact ⟨[], rfl, Nat.zero_le _, by simp, by simp⟩
      · split
        · exact ⟨[], rfl, Nat.zero_le _, by simp, by simp⟩
        · rename_i location _ next _
          obtain ⟨rest, hrest, hlength, hplain, hok⟩ := followRedirects_redirected server existing
            left next (requests ++ [⟨url, existing, authenticated⟩])
          refine ⟨rest, by rw [hrest]; simp, hlength, hplain, ?_⟩
          intro stream' url' authenticated' h htrue
          rw [hok stream' url' authenticated' h] at htrue
          cases htrue

/-- The requests of a run: those for the URL may be authenticated, and none is after a
redirect. -/
structure Confined (url : Bytes) (start opened : List DownloadRequest) : Prop where
  few : opened.length ≤ 5
  own : ∀ request ∈ opened, request.authenticated = true → request.url = url
  redirected : ∀ before first middle request after,
    opened = before ++ first :: (middle ++ request :: after) →
    Redirects (server (start ++ before) first) → request.authenticated = false

theorem Confined.nil (url : Bytes) (start : List DownloadRequest) :
    Confined server url start [] := by
  refine ⟨by simp, by simp, ?_⟩
  intro before first middle request after h
  simp at h

/-- One more request, which is authenticated only if the others are one that was not
redirected. -/
theorem Confined.restart {server : Server} {url : Bytes} {start opened : List DownloadRequest}
    {request : DownloadRequest} (h : Confined server url start opened)
    (hlength : opened.length ≤ 4)
    (hrequest : request.authenticated = true →
      ∃ first, opened = [first] ∧ request.url = url ∧ ¬ Redirects (server start first)) :
    Confined server url start (opened ++ [request]) := by
  refine ⟨?_, ?_, ?_⟩
  · rw [List.length_append, List.length_singleton]
    omega
  · intro r hr hauthenticated
    rcases List.mem_append.mp hr with hr | hr
    · exact h.own r hr hauthenticated
    · obtain rfl := List.mem_singleton.mp hr
      obtain ⟨-, -, hurl, -⟩ := hrequest hauthenticated
      exact hurl
  · intro before first middle r after hopened hredirects
    rcases List.eq_nil_or_concat after with rfl | ⟨after, last, rfl⟩
    · -- the further request itself
      have hsplit : opened ++ [request] = (before ++ first :: middle) ++ [r] := by
        rw [hopened]
        simp
      obtain ⟨hothers, hlast⟩ := List.append_inj' hsplit rfl
      obtain rfl := (List.cons.inj hlast).1
      by_contra hauthenticated
      obtain ⟨only, honly, -, hanswer⟩ := hrequest ((Bool.not_eq_false _).mp hauthenticated)
      rw [honly] at hothers
      cases before with
      | nil =>
        rw [List.append_nil] at hredirects
        obtain rfl := (List.cons.inj hothers).1
        exact hanswer hredirects
      | cons head before =>
        have hnil := (List.cons.inj hothers).2
        simp at hnil
    · have hsplit : opened ++ [request] =
          (before ++ first :: (middle ++ r :: after)) ++ [last] := by
        rw [hopened]
        simp
      obtain ⟨hothers, -⟩ := List.append_inj' hsplit rfl
      exact h.redirected before first middle r after hothers hredirects

theorem fetch_requests (url : Bytes) (existing : Nat) (start : List DownloadRequest) :
    ∃ opened, (fetch server url existing start).2 = start ++ opened ∧
      Confined server url start opened := by
  obtain ⟨rest, hrest, hlength, hplain, hok⟩ :=
    followRedirects_requests server existing 3 url true start
  -- the requests of the loop alone
  have hloop : Confined server url start (⟨url, existing, true⟩ :: rest) := by
    refine ⟨?_, ?_, ?_⟩
    · rw [List.length_cons]
      omega
    · intro request hrequest hauthenticated
      rcases List.mem_cons.mp hrequest with rfl | hrequest
      · rfl
      · rw [hplain request hrequest] at hauthenticated
        cases hauthenticated
    · intro before first middle request after hopened _
      refine hplain request ?_
      cases before with
      | nil =>
        rw [(List.cons.inj hopened).2]
        simp
      | cons head before =>
        rw [(List.cons.inj hopened).2]
        simp
  unfold fetch
  split
  · rename_i e requests hout
    rw [hout] at hrest
    exact ⟨_, hrest, hloop⟩
  · rename_i stream url' authenticated requests hout
    rw [hout] at hrest hok
    dsimp only at hrest
    have hmore : Confined server url start
        (⟨url, existing, true⟩ :: rest ++ [⟨url', 0, authenticated⟩]) := by
      refine hloop.restart ?_ fun htrue => ?_
      · rw [List.length_cons]
        omega
      · obtain ⟨rfl, hurl, hanswer⟩ := hok stream url' authenticated rfl htrue
        exact ⟨_, rfl, hurl, hanswer⟩
    have hrequests : requests ++ [⟨url', 0, authenticated⟩] =
        start ++ (⟨url, existing, true⟩ :: rest ++ [⟨url', 0, authenticated⟩]) := by
      rw [hrest, List.append_assoc]
    split
    · split
      · exact ⟨_, hrest, hloop⟩
      · exact ⟨_, hrest, hloop⟩
    · split
      · exact ⟨_, hrest, hloop⟩
      · exact ⟨_, hrest, hloop⟩
      · dsimp only
        split
        · exact ⟨_, hrequests, hmore⟩
        · split
          · exact ⟨_, hrequests, hmore⟩
          · exact ⟨_, hrequests, hmore⟩
          · exact ⟨_, hrequests, hmore⟩

end Requests

theorem store_requests {crypto : Crypto} {disk : Disk} {progress : Progress} {update : UpdateInfo}
    {state : DownloadState} {plan : Plan} :
    (store crypto disk progress update state plan).2.requests = state.requests := by
  have hdiscard : ∀ (state : DownloadState) (failure : Failure),
      (discard disk state failure).2.requests = state.requests := by
    intro state failure
    unfold discard
    split
    · rfl
    · rfl
  have hinstall : ∀ (state : DownloadState) (file : Bytes),
      (install disk state file).2.requests = state.requests := by
    intro state file
    unfold install
    dsimp only
    cases disk.removeDestination with
    | true =>
      split
      · rfl
      · rfl
    | false =>
      split
      · rfl
      · rfl
  unfold store
  split
  · rfl
  · dsimp only
    split
    · rfl
    · split
      · exact hdiscard _ _
      · split
        · exact hdiscard _ _
        · exact hinstall _ _

/-- **Credentials are confined.**  In every run, against every server, the session and its
proof go only with requests for the URL of the update and never after a redirect, and at most
five requests are opened. -/
theorem download_confined (crypto : Crypto) (options : TrustOptions) (server : Server)
    (disk : Disk) (progress : Progress) (update : UpdateInfo) (state : DownloadState)
    (session : Bytes) (dpop : Bytes → Bytes) :
    ∃ opened, (downloadUpdate crypto options server disk progress update state).2.requests =
        state.requests ++ opened ∧ opened.length ≤ 5 ∧
      (∀ request ∈ opened, CarriesCredentials (openDownloadStream session dpop request) →
        request.url = update.downloadUrl) ∧
      ∀ before first middle request after,
        opened = before ++ first :: (middle ++ request :: after) →
        Redirects (server (state.requests ++ before) first) →
        ¬ CarriesCredentials (openDownloadStream session dpop request) := by
  -- only `fetch` opens requests
  obtain ⟨opened, hrequests, hconfined⟩ :
      ∃ opened, (downloadUpdate crypto options server disk progress update state).2.requests =
        state.requests ++ opened ∧
        Confined server update.downloadUrl state.requests opened := by
    obtain ⟨opened, hopened, hconfined⟩ := fetch_requests server update.downloadUrl
      ((state.partialFile.map List.length).getD 0) state.requests
    unfold downloadUpdate
    split
    · exact ⟨[], (List.append_nil _).symm, Confined.nil ..⟩
    · split
      · exact ⟨[], (List.append_nil _).symm, Confined.nil ..⟩
      · split
        · rename_i e requests hfetch
          rw [hfetch] at hopened
          exact ⟨opened, hopened, hconfined⟩
        · rename_i plan requests hfetch
          rw [hfetch] at hopened
          exact ⟨opened, by rw [store_requests]; exact hopened, hconfined⟩
  refine ⟨opened, hrequests, hconfined.few, ?_, ?_⟩
  · intro request hrequest hcarries
    exact hconfined.own request hrequest (carriesCredentials_iff.mp hcarries)
  · intro before first middle request after hopened hredirects hcarries
    have hplain := hconfined.redirected before first middle request after hopened hredirects
    rw [carriesCredentials_iff.mp hcarries] at hplain
    cases hplain

/-! ## Numbers in headers -/

theorem digitsValue_concat (digits : Bytes) (d : UInt8) :
    Nlohmann.digitsValue (digits ++ [d]) = Nlohmann.digitsValue digits * 10 + (d.toNat - 0x30) := by
  rw [Nlohmann.digitsValue, List.foldl_append]
  rfl

theorem digitsValue_decimalNat (n : Nat) : Nlohmann.digitsValue (decimalNat n) = n := by
  have hbyte : ∀ k < 10, (UInt8.ofNat (48 + k)).toNat - 0x30 = k := by decide
  induction n using Nat.strongRecOn with
  | ind n ih =>
    by_cases hn : n < 10
    · rw [Numeral.decimalNat_of_lt hn, ← List.nil_append [_], digitsValue_concat, hbyte n hn]
      exact Nat.zero_add n
    · have hge : 10 ≤ n := Nat.not_lt.mp hn
      rw [Numeral.decimalNat_of_ge hge, digitsValue_concat, ih (n / 10) (by omega),
        hbyte _ (Nat.mod_lt n (by decide)), Nat.div_add_mod']

theorem stoull_decimalNat {n : Nat} (h : n < 2 ^ 64) : stoull (decimalNat n) = some n := by
  obtain ⟨b, rest, hcons, hlow, hhigh⟩ := Numeral.decimalNat_cons n
  have hdigits : ∀ c ∈ decimalNat n, Nlohmann.isDigit c = true := by
    intro c hc
    have hdigit := digit_of_mem_decimalNat hc
    simp only [Nlohmann.isDigit, Bool.and_eq_true, decide_eq_true_eq, UInt8.le_iff_toNat_le]
    exact hdigit
  have hplain : ∀ m < 58, 48 ≤ m →
      ((UInt8.ofNat m = 0x20 || (0x09 ≤ UInt8.ofNat m && UInt8.ofNat m ≤ 0x0d)) = false) ∧
      UInt8.ofNat m ≠ 0x2d ∧ UInt8.ofNat m ≠ 0x2b := by decide
  have hb := hplain b.toNat (by omega) hlow
  rw [UInt8.ofNat_toNat] at hb
  obtain ⟨hblank, hminus, hplus⟩ := hb
  have htake : (b :: rest).takeWhile Nlohmann.isDigit = b :: rest := by
    rw [← hcons]
    exact List.takeWhile_eq_self_iff.mpr hdigits
  have hvalue := digitsValue_decimalNat n
  rw [hcons] at hvalue ⊢
  unfold stoull
  rw [List.dropWhile_cons_of_neg (by simpa using hblank)]
  simp only [List.head?_cons, Option.some.injEq, hminus, hplus, or_self, if_false, htake, hvalue,
    ge_iff_le, Nat.not_le.mpr h]

theorem splitFirst_single {c : UInt8} {before after : Bytes} (h : c ∉ before) :
    splitFirst [c] (before ++ c :: after) = some (before, after) := by
  have hsplit : splitFirst [c] (before ++ [c] ++ after) = some (before, after) :=
    splitFirst_head h
  rwa [List.append_assoc] at hsplit

theorem notMem_decimalNat {n : Nat} {c : UInt8} (h : c.toNat < 48 ∨ 57 < c.toNat) :
    c ∉ decimalNat n := by
  intro hc
  have hdigit := digit_of_mem_decimalNat hc
  omega

/-- The length of the whole in a Content-Range, or a star. -/
def totalText (total : Option Nat) : Bytes := (total.map decimalNat).getD (ascii "*")

/-- The text of a Content-Range. -/
def rangeText (start stop : Nat) (total : Option Nat) : Bytes :=
  ascii "bytes " ++ (decimalNat start ++ 0x2d :: (decimalNat stop ++ 0x2f :: totalText total))

theorem totalText_last (total : Option Nat) :
    ∃ (text : Bytes) (b : UInt8), totalText total = text ++ [b] ∧
      trimAscii.isBlankByte b = false := by
  cases total with
  | none => exact ⟨[], 0x2a, rfl, rfl⟩
  | some n =>
    have hdigits : ∀ k < 58, 48 ≤ k → trimAscii.isBlankByte (UInt8.ofNat k) = false := by decide
    obtain ⟨b, rest, hcons, -⟩ := Numeral.decimalNat_cons n
    have hne : decimalNat n ≠ [] := by
      rw [hcons]
      exact List.cons_ne_nil _ _
    have hlast := digit_of_mem_decimalNat (List.getLast_mem hne)
    refine ⟨(decimalNat n).dropLast, (decimalNat n).getLast hne,
      (List.dropLast_append_getLast hne).symm, ?_⟩
    have hblank := hdigits ((decimalNat n).getLast hne).toNat (by omega) hlast.1
    rwa [UInt8.ofNat_toNat] at hblank

theorem trimAscii_rangeText (start stop : Nat) (total : Option Nat) :
    trimAscii (rangeText start stop total) = rangeText start stop total := by
  obtain ⟨text, b, htext, hblank⟩ := totalText_last total
  have hfirst : (rangeText start stop total).dropWhile trimAscii.isBlankByte =
      rangeText start stop total := List.dropWhile_cons_of_neg (by decide)
  have hsplit : rangeText start stop total = (ascii "bytes " ++ (decimalNat start ++ 0x2d ::
      (decimalNat stop ++ 0x2f :: text))) ++ [b] := by
    rw [rangeText, htext]
    simp only [List.append_assoc, List.cons_append]
  rw [trimAscii, hfirst, hsplit, List.rdropWhile_concat_neg _ _ _ (by simp [hblank])]

/-- **A Content-Range that keeps to its format is read.** -/
theorem parseContentRange_rangeText {start stop length : Nat} {total : Option Nat}
    (hstop : start ≤ stop) (hlength : stop < length) (htotal : ∀ n ∈ total, n = length)
    (hbound : length < 2 ^ 64) :
    parseContentRange (rangeText start stop total) = some ⟨start, stop, total.getD 0⟩ := by
  have hbegins : ascii "bytes " <+: rangeText start stop total := List.prefix_append _ _
  have hdrop : (rangeText start stop total).drop 6 =
      decimalNat start ++ 0x2d :: (decimalNat stop ++ 0x2f :: totalText total) :=
    List.drop_left' rfl
  have hdash : splitFirst (ascii "-") (decimalNat start ++ 0x2d :: (decimalNat stop ++ 0x2f ::
      totalText total)) = some (decimalNat start, decimalNat stop ++ 0x2f :: totalText total) :=
    splitFirst_single (notMem_decimalNat (by decide))
  have hslash : splitFirst (ascii "/") (decimalNat stop ++ 0x2f :: totalText total) =
      some (decimalNat stop, totalText total) :=
    splitFirst_single (notMem_decimalNat (by decide))
  unfold parseContentRange
  rw [trimAscii_rangeText, if_neg (not_not_intro hbegins), hdrop, hdash]
  dsimp only [Option.bind_eq_bind, Option.bind_some]
  rw [hslash]
  dsimp only [Option.bind_some]
  rw [stoull_decimalNat (by omega), Option.bind_some, stoull_decimalNat (by omega),
    Option.bind_some]
  cases total with
  | none =>
    rw [if_pos (show totalText none = ascii "*" from rfl), if_neg]
    · rfl
    · rintro (hlt | ⟨hne, -⟩)
      · exact absurd hstop (Nat.not_le.mpr hlt)
      · exact hne rfl
  | some n =>
    obtain rfl := htotal n rfl
    have hstar : decimalNat n ≠ ascii "*" := by
      intro h
      exact notMem_decimalNat (n := n) (c := 0x2a) (by decide) (h ▸ List.mem_singleton_self _)
    have htext : totalText (some n) = decimalNat n := rfl
    rw [htext, if_neg hstar, stoull_decimalNat hbound, Option.bind_some, if_neg]
    · rfl
    · rintro (hlt | ⟨-, hge⟩)
      · exact absurd hstop (Nat.not_le.mpr hlt)
      · exact absurd hlength (Nat.not_lt.mpr hge)

/-! ## A server that keeps to the range protocol -/

/-- The reads of a body give its bytes, in pieces that are not empty, and then its end. -/
structure Sends (answer : ResponseStream) (body : Bytes) : Prop where
  bytes : answer.chunks.flatten = body
  pieces : [] ∉ answer.chunks
  complete : answer.failure = none

/-- The Content-Length is absent or tells a length. -/
def Tells (header : Option Bytes) (length : Nat) : Prop :=
  header = none ∨ header = some (decimalNat length)

/-- The answer is a part of the artifact, from `start` to `stop`. -/
structure SendsRange (artifact : Bytes) (answer : ResponseStream) (start stop : Nat)
    (total : Option Nat) : Prop where
  order : start ≤ stop
  last : stop < artifact.length
  known : ∀ n ∈ total, n = artifact.length
  status : answer.statusCode = 206
  header : answer.contentRange = some (rangeText start stop total)
  length : Tells answer.contentLength (stop + 1 - start)
  body : Sends answer ((artifact.take (stop + 1)).drop start)

/-- An answer to a request for the artifact: the whole of it; a part of the range that
was asked for; or that the range begins at or past the end. -/
inductive Conforms (artifact : Bytes) (request : DownloadRequest) (answer : ResponseStream) : Prop
  | whole (status : answer.statusCode = 200) (length : Tells answer.contentLength artifact.length)
      (body : Sends answer artifact)
  | range (start stop : Nat) (total : Option Nat) (asked : 0 < request.rangeStart)
      (first : request.rangeStart ≤ start) (sent : SendsRange artifact answer start stop total)
  | unsatisfiable (asked : 0 < request.rangeStart) (past : artifact.length ≤ request.rangeStart)
      (status : answer.statusCode = 416) (complete : answer.failure = none)

/-- A server that holds an artifact, and the network to it does not fail. -/
structure RangeServer (artifact : Bytes) where
  respond : List DownloadRequest → DownloadRequest → ResponseStream
  conforms : ∀ requests request, Conforms artifact request (respond requests request)

/-- The server as the download sees it, over a network that does not fail. -/
def RangeServer.toServer {artifact : Bytes} (server : RangeServer artifact) : Server :=
  fun requests request => .ok (server.respond requests request)

/-- An update that can be downloaded, with the artifact that matches it. -/
structure Offer (crypto : Crypto) (options : TrustOptions) where
  update : UpdateInfo
  artifact : Bytes
  available : update.updateAvailable = true
  direct : update.openInBrowser = false
  ownUrl : validDownloadUrl update.downloadUrl options.baseUrl = true
  genuine : verifyDownload crypto update (crypto.sha256Hex artifact) = .ok ()
  /-- The length is one of a file. -/
  small : artifact.length < 2 ^ 63

/-- The call installed the artifact, or it failed and removed the partial file. -/
def Resumes (artifact : Bytes) (out : Except Failure Unit × DownloadState) : Prop :=
  (out.1 = .ok () ∧ out.2.destination = some artifact) ∨
    ((∃ failure, out.1 = .error failure) ∧ out.2.partialFile = none)

/-- A progress function that returns. -/
def quiet (progress : Option (Nat → Nat → Unit)) : Progress :=
  progress.map fun f => fun written expected => .ok (f written expected)

theorem receive_quiet (progress : Option (Nat → Nat → Unit)) (expected written : Nat)
    (chunks : List Bytes) (h : [] ∉ chunks) :
    receive (quiet progress) expected none written chunks =
      (.ok (written + chunks.flatten.length), chunks.flatten) := by
  induction chunks generalizing written with
  | nil => rfl
  | cons chunk chunks ih =>
    have hchunk : chunk ≠ [] := fun hnil => h (hnil ▸ List.mem_cons_self ..)
    have hrest : [] ∉ chunks := fun hmem => h (List.mem_cons_of_mem _ hmem)
    have hmore := ih (written + chunk.length) hrest
    have hsum : (chunk :: chunks).flatten.length = chunk.length + chunks.flatten.length := by
      rw [List.flatten_cons, List.length_append]
    unfold receive
    rw [if_neg hchunk, hmore, hsum, ← Nat.add_assoc]
    cases progress with
    | none => rfl
    | some f => rfl

/-- The file that is written from a plan. -/
def Plan.file (plan : Plan) (partialFile : Option Bytes) (body : Bytes) : Bytes :=
  (if plan.append then partialFile.getD [] else []) ++ body

/-- **Storing a body** keeps to the promise unless a file of the announced length passes the
check and is not the artifact. -/
theorem store_resumes_iff {crypto : Crypto} {update : UpdateInfo} {artifact body : Bytes}
    {state : DownloadState} {plan : Plan} (progress : Option (Nat → Nat → Unit))
    (hsends : Sends plan.stream body) :
    Resumes artifact (store crypto workingDisk (quiet progress) update state plan) ↔
      (plan.expected = 0 ∨ plan.existing + body.length = plan.expected) →
      verifyDownload crypto update (crypto.sha256Hex (plan.file state.partialFile body)) = .ok () →
      plan.file state.partialFile body = artifact := by
  have hreceive := receive_quiet progress plan.expected plan.existing _ hsends.pieces
  rw [hsends.bytes] at hreceive
  have hfile : (if plan.append then state.partialFile.getD [] else []) ++ body =
      plan.file state.partialFile body := rfl
  unfold store
  rw [if_neg (by decide), hsends.complete, hreceive]
  dsimp only [workingDisk, id]
  rw [hfile]
  split
  · rename_i hlength
    refine iff_of_true (.inr ⟨⟨_, rfl⟩, rfl⟩) ?_
    rintro (hzero | hwritten)
    · omega
    · exact absurd hwritten hlength.2
  · rename_i hlength
    have hannounced : plan.expected = 0 ∨ plan.existing + body.length = plan.expected := by omega
    unfold checkFile
    rw [if_neg (by decide)]
    cases hverify : verifyDownload crypto update (crypto.sha256Hex
      (plan.file state.partialFile body)) with
    | error e =>
      refine iff_of_true (.inr ⟨⟨_, rfl⟩, rfl⟩) ?_
      intro _ hok
      cases hok
    | ok u =>
      refine ⟨?_, fun h => .inl ⟨rfl, congrArg some (h hannounced rfl)⟩⟩
      rintro (⟨-, hinstalled⟩ | ⟨⟨e, herror⟩, -⟩) _ _
      · exact Option.some.inj hinstalled
      · cases herror

/-! ## The first answer -/

section Answer
variable {server : Server} {url : Bytes} {existing : Nat} {requests : List DownloadRequest}
  {answer again : ResponseStream}

theorem matchRange_whole (hstatus : answer.statusCode = 200) :
    matchRange existing answer = .ok (some ⟨answer, false, 0, 0⟩) := by
  unfold matchRange
  rw [hstatus, if_neg (by decide), if_neg (by decide)]

theorem matchRange_range {text : Bytes} {range : ContentRange}
    (hstatus : answer.statusCode = 206) (hheader : answer.contentRange = some text)
    (hrange : parseContentRange text = some range) :
    matchRange existing answer = .ok (if range.start ≠ existing then none
      else some ⟨answer, existing > 0, existing, range.total⟩) := by
  unfold matchRange
  rw [if_pos hstatus, hheader]
  dsimp only
  rw [hrange]
  dsimp only
  split
  · rfl
  · rfl

/-- A first answer that is no redirect and no error decides what is written. -/
theorem fetch_of_plan {plan : Plan} (hanswer : server requests ⟨url, existing, true⟩ = .ok answer)
    (hstatus : answer.statusCode < 300) (hplan : matchRange existing answer = .ok (some plan)) :
    fetch server url existing requests =
      (withLength plan, requests ++ [⟨url, existing, true⟩]) := by
  unfold fetch
  rw [followRedirects, hanswer]
  dsimp only
  rw [if_pos (.inl hstatus)]
  dsimp only
  rw [if_neg (by omega), hplan]

/-- A range that does not continue the file is asked for again from the start. -/
theorem fetch_of_restart {plan : Plan}
    (hanswer : server requests ⟨url, existing, true⟩ = .ok answer)
    (hstatus : answer.statusCode < 300) (hrestart : matchRange existing answer = .ok none)
    (hagain : server (requests ++ [⟨url, existing, true⟩]) ⟨url, 0, true⟩ = .ok again)
    (hplan : matchRange 0 again = .ok (some plan)) :
    fetch server url existing requests =
      (withLength plan, requests ++ [⟨url, existing, true⟩] ++ [⟨url, 0, true⟩]) := by
  unfold fetch
  rw [followRedirects, hanswer]
  dsimp only
  rw [if_pos (.inl hstatus)]
  dsimp only
  rw [if_neg (by omega), hrestart]
  dsimp only
  rw [hagain]
  dsimp only
  rw [hplan]

/-- An error of the server is thrown. -/
theorem fetch_of_error (hanswer : server requests ⟨url, existing, true⟩ = .ok answer)
    (hstatus : answer.statusCode ≥ 400) :
    ∃ failure, fetch server url existing requests =
      (.error failure, requests ++ [⟨url, existing, true⟩]) := by
  unfold fetch
  rw [followRedirects, hanswer]
  dsimp only
  rw [if_pos (.inr hstatus)]
  dsimp only
  rw [if_pos hstatus]
  cases firstRead answer with
  | error e => exact ⟨e, rfl⟩
  | ok body => exact ⟨_, rfl⟩

end Answer

/-- The length that a plan without one gets from its Content-Length. -/
theorem withLength_tells {plan : Plan} {length : Nat} (hzero : plan.expected = 0)
    (htells : Tells plan.stream.contentLength length) (hbound : length + plan.existing < 2 ^ 64) :
    withLength plan = .ok { plan with
      expected := if plan.stream.contentLength.isSome then length + plan.existing
        else plan.existing } := by
  unfold withLength
  rw [if_neg (not_not_intro hzero)]
  rcases htells with hnone | hsome
  · rw [hnone]
    dsimp only
    rw [Nat.mod_eq_of_lt (by omega)]
    rfl
  · rw [hsome]
    dsimp only
    rw [stoull_decimalNat (by omega)]
    dsimp only
    rw [Nat.mod_eq_of_lt hbound]
    rfl

section Resume
variable {crypto : Crypto} {options : TrustOptions} (offer : Offer crypto options)
  (server : RangeServer offer.artifact) (progress : Option (Nat → Nat → Unit))

/-- **The whole artifact is installed**, whatever was there before. -/
theorem whole_resumes {answer : ResponseStream}
    (hlength : Tells answer.contentLength offer.artifact.length)
    (hbody : Sends answer offer.artifact) :
    ∃ plan, withLength ⟨answer, false, 0, 0⟩ = .ok plan ∧
      ∀ state, Resumes offer.artifact
        (store crypto workingDisk (quiet progress) offer.update state plan) := by
  have hsmall := offer.small
  refine ⟨_, withLength_tells rfl hlength (by dsimp only; omega), ?_⟩
  intro state
  exact (store_resumes_iff progress hbody).mpr fun _ _ => rfl

/-- The bytes of the partial file. -/
def DownloadState.part (state : DownloadState) : Bytes := state.partialFile.getD []

theorem DownloadState.part_length (state : DownloadState) :
    (state.partialFile.map List.length).getD 0 = state.part.length := by
  unfold DownloadState.part
  cases state.partialFile with
  | none => rfl
  | some file => rfl

/-- The answer continues the partial file, to the length it announces, and the result is
another file than the artifact with the digest of the artifact. -/
structure Collides (crypto : Crypto) (artifact part : Bytes) (answer : ResponseStream) : Prop where
  status : answer.statusCode = 206
  continues : ∃ range, answer.contentRange.bind parseContentRange = some range ∧
    range.start = part.length ∧
    (range.total = (part ++ answer.chunks.flatten).length ∨
      (range.total = 0 ∧ answer.contentLength.isSome = true))
  digest : crypto.sha256 (part ++ answer.chunks.flatten) = crypto.sha256 artifact
  other : part ++ answer.chunks.flatten ≠ artifact

/-- The request of a call, and the answer of the server to it. -/
def firstAnswer (state : DownloadState) : ResponseStream :=
  server.respond state.requests ⟨offer.update.downloadUrl, state.part.length, true⟩

/-- A download of an offer, after its guards. -/
theorem downloadUpdate_offer (state : DownloadState) :
    downloadUpdate crypto options server.toServer workingDisk (quiet progress) offer.update state =
      match fetch server.toServer offer.update.downloadUrl state.part.length state.requests with
      | (.error e, requests) => (.error e, { state with requests := requests })
      | (.ok plan, requests) => store crypto workingDisk (quiet progress) offer.update
          { state with requests := requests } plan := by
  have hguard : ¬ (¬ offer.update.updateAvailable = true ∨ offer.update.openInBrowser = true ∨
      ¬ validDownloadUrl offer.update.downloadUrl options.baseUrl = true) := by
    simp [offer.available, offer.direct, offer.ownUrl]
  unfold downloadUpdate
  rw [if_neg hguard, DownloadState.part_length]
  rfl

/-- A file passes the check of the update as soon as it has the digest of the artifact. -/
theorem verifyDownload_iff_sha256 {file : Bytes} :
    verifyDownload crypto offer.update (crypto.sha256Hex file) = .ok () ↔
      crypto.sha256 file = crypto.sha256 offer.artifact := by
  obtain ⟨hdigest, hmanifest⟩ := verifyDownload_ok.mp offer.genuine
  rw [verifyDownload_ok, hdigest]
  constructor
  · rintro ⟨hhex, -⟩
    have hbytes := congrArg unhex hhex
    rw [Crypto.sha256Hex, Crypto.sha256Hex, unhex_hex, unhex_hex] at hbytes
    exact (Option.some.inj hbytes).symm
  · intro hsha
    exact ⟨by rw [Crypto.sha256Hex, Crypto.sha256Hex, hsha], hmanifest⟩

/-- The whole artifact is in the answer to a request without a range. -/
theorem conforms_start {url : Bytes} {authenticated : Bool} {answer : ResponseStream}
    (h : Conforms offer.artifact ⟨url, 0, authenticated⟩ answer) :
    answer.statusCode = 200 ∧ Tells answer.contentLength offer.artifact.length ∧
      Sends answer offer.artifact := by
  cases h with
  | whole status length body => exact ⟨status, length, body⟩
  | range start stop total asked => exact absurd asked (Nat.lt_irrefl 0)
  | unsatisfiable asked => exact absurd asked (Nat.lt_irrefl 0)

/-- A range that starts elsewhere, or no range: the artifact is written from its start. -/
theorem resumes_of_fetch {state : DownloadState} {answer : ResponseStream}
    {requests : List DownloadRequest}
    (hlength : Tells answer.contentLength offer.artifact.length)
    (hbody : Sends answer offer.artifact)
    (hfetch : fetch server.toServer offer.update.downloadUrl state.part.length state.requests =
      (withLength ⟨answer, false, 0, 0⟩, requests)) :
    Resumes offer.artifact (downloadUpdate crypto options server.toServer workingDisk
      (quiet progress) offer.update state) := by
  obtain ⟨plan, hplan, hresumes⟩ := whole_resumes offer progress hlength hbody
  rw [downloadUpdate_offer, hfetch, hplan]
  exact hresumes _

/-- The length that is expected of a file a range continues: it is met when the range tells
the end of the file as its total, or tells no total and the answer has a length. -/
theorem SendsRange.withLength {artifact : Bytes} {answer : ResponseStream} {start stop : Nat}
    {total : Option Nat} (h : SendsRange artifact answer start stop total) (hstart : 0 < start)
    (hbound : artifact.length < 2 ^ 63) :
    ∃ expected, withLength ⟨answer, true, start, total.getD 0⟩ =
        .ok ⟨answer, true, start, expected⟩ ∧
      (expected = 0 ∨ stop + 1 = expected ↔
        total.getD 0 = stop + 1 ∨ (total.getD 0 = 0 ∧ answer.contentLength.isSome = true)) := by
  have horder := h.order
  have hlast := h.last
  cases total with
  | none =>
    refine ⟨_, withLength_tells rfl h.length (by dsimp only; omega), ?_⟩
    cases answer.contentLength with
    | none =>
      simp only [Option.isSome_none, Option.getD_none]
      grind
    | some text =>
      simp only [Option.isSome_some, Option.getD_none]
      grind
  | some n =>
    obtain rfl := h.known n rfl
    refine ⟨artifact.length, ?_, ?_⟩
    · exact if_pos (show artifact.length ≠ 0 by omega)
    · rw [Option.getD_some]
      omega

theorem SendsRange.length_body {artifact : Bytes} {answer : ResponseStream} {start stop : Nat}
    {total : Option Nat} (h : SendsRange artifact answer start stop total) :
    start + answer.chunks.flatten.length = stop + 1 := by
  have horder := h.order
  have hlast := h.last
  rw [h.body.bytes, List.length_drop, List.length_take]
  omega

/-- A range that continues the partial file: all depends on the digest of the result. -/
theorem resumes_of_range {state : DownloadState} {stop : Nat} {total : Option Nat}
    (hasked : 0 < state.part.length)
    (hsent : SendsRange offer.artifact (firstAnswer offer server state) state.part.length stop
      total) :
    Resumes offer.artifact (downloadUpdate crypto options server.toServer workingDisk
      (quiet progress) offer.update state) ↔
      ¬ Collides crypto offer.artifact state.part (firstAnswer offer server state) := by
  have hlast := hsent.last
  have hsmall := offer.small
  have hread := parseContentRange_rangeText hsent.order hsent.last hsent.known (by omega)
  obtain ⟨expected, hplan, hexpected⟩ := hsent.withLength hasked hsmall
  have hmatch : matchRange state.part.length (firstAnswer offer server state) =
      .ok (some ⟨firstAnswer offer server state, true, state.part.length, total.getD 0⟩) := by
    rw [matchRange_range hsent.status hsent.header hread, if_neg (not_not_intro rfl)]
    simp [hasked]
  have hfetch : fetch server.toServer offer.update.downloadUrl state.part.length state.requests =
      (Cpp.withLength ⟨firstAnswer offer server state, true, state.part.length, total.getD 0⟩, _) :=
    fetch_of_plan rfl
      (show (firstAnswer offer server state).statusCode < 300 by rw [hsent.status]; decide) hmatch
  have hlength := hsent.length_body
  rw [downloadUpdate_offer, hfetch, hplan]
  dsimp only
  rw [store_resumes_iff progress hsent.body, verifyDownload_iff_sha256, ← hsent.body.bytes]
  change (expected = 0 ∨
      state.part.length + (firstAnswer offer server state).chunks.flatten.length = expected →
      crypto.sha256 (state.part ++ (firstAnswer offer server state).chunks.flatten) = _ →
      state.part ++ (firstAnswer offer server state).chunks.flatten = offer.artifact) ↔ _
  rw [hlength, hexpected]
  -- what is announced is the end of the range, here and in `Collides`
  constructor
  · intro h hcollides
    obtain ⟨range, hrange, -, htotal⟩ := hcollides.continues
    rw [hsent.header, Option.bind_some, hread] at hrange
    obtain rfl := Option.some.inj hrange
    rw [List.length_append, hlength] at htotal
    exact hcollides.other (h htotal hcollides.digest)
  · intro h htotal hdigest
    by_contra hother
    refine h ⟨hsent.status, ⟨⟨state.part.length, stop, total.getD 0⟩, ?_, rfl, ?_⟩, hdigest,
      hother⟩
    · rw [hsent.header, Option.bind_some, hread]
    · rw [List.length_append, hlength]
      exact htotal

/-- A refused range is thrown, and the partial file stays: the next call asks for the same
range. -/
theorem downloadUpdate_refused {state : DownloadState}
    (hstatus : (firstAnswer offer server state).statusCode = 416) :
    ∃ failure, downloadUpdate crypto options server.toServer workingDisk (quiet progress)
      offer.update state = (.error failure, { state with requests :=
        state.requests ++ [⟨offer.update.downloadUrl, state.part.length, true⟩] }) := by
  obtain ⟨failure, hfetch⟩ : ∃ failure, fetch server.toServer offer.update.downloadUrl
      state.part.length state.requests = (.error failure, _) :=
    fetch_of_error rfl (show (firstAnswer offer server state).statusCode ≥ 400 by
      rw [hstatus]; decide)
  refine ⟨failure, ?_⟩
  rw [downloadUpdate_offer, hfetch]

/-- **A call installs the artifact or removes the partial file, exactly unless the server refuses
the range** or the digest collides.  A refused range leaves the partial file as it is. -/
theorem resume_iff (state : DownloadState) :
    Resumes offer.artifact (downloadUpdate crypto options server.toServer workingDisk
      (quiet progress) offer.update state) ↔
      (firstAnswer offer server state).statusCode ≠ 416 ∧
      ¬ Collides crypto offer.artifact state.part (firstAnswer offer server state) := by
  have hfirst := server.conforms state.requests
    ⟨offer.update.downloadUrl, state.part.length, true⟩
  cases hfirst with
  | whole status length body =>
    have hstatus : (firstAnswer offer server state).statusCode = 200 := status
    refine iff_of_true ?_ ⟨?_, ?_⟩
    · exact resumes_of_fetch offer server progress length body
        (fetch_of_plan rfl (by rw [status]; decide) (matchRange_whole status))
    · rw [hstatus]
      decide
    · intro hcollides
      rw [hcollides.status] at hstatus
      cases hstatus
  | range start stop total asked first sent =>
    have hstatus : (firstAnswer offer server state).statusCode = 206 := sent.status
    by_cases hstart : start = state.part.length
    · subst hstart
      rw [resumes_of_range offer server progress asked sent, hstatus]
      exact ⟨fun h => ⟨by decide, h⟩, fun h => h.2⟩
    · -- the range starts elsewhere: the artifact is asked for again, from its start
      have hsmall := offer.small
      have hlast := sent.last
      have hread := parseContentRange_rangeText sent.order sent.last sent.known (by omega)
      obtain ⟨hagain, length, body⟩ := conforms_start offer (server.conforms _
        ⟨offer.update.downloadUrl, 0, true⟩)
      refine iff_of_true ?_ ⟨?_, ?_⟩
      · refine resumes_of_fetch offer server progress length body (fetch_of_restart rfl
          (by rw [sent.status]; decide) ?_ rfl (matchRange_whole hagain))
        rw [matchRange_range sent.status sent.header hread, if_pos hstart]
      · rw [hstatus]
        decide
      · intro hcollides
        obtain ⟨range, hrange, hbegin, -⟩ := hcollides.continues
        have hheader : (firstAnswer offer server state).contentRange =
            some (rangeText start stop total) := sent.header
        rw [hheader, Option.bind_some, hread] at hrange
        obtain rfl := Option.some.inj hrange
        exact hstart hbegin
  | unsatisfiable asked past status complete =>
    obtain ⟨failure, hrefused⟩ := downloadUpdate_refused offer server progress status
    refine iff_of_false ?_ fun h => h.1 status
    rw [hrefused]
    rintro (⟨hok, -⟩ | ⟨-, hnone⟩)
    · cases hok
    · -- a range was asked for, so there is a partial file
      have hpart : state.part = [] := by
        rw [DownloadState.part, show state.partialFile = none from hnone]
        rfl
      rw [hpart] at asked
      exact absurd asked (Nat.lt_irrefl 0)

end Resume

/-! ## A complete partial file -/

/-- A body in one piece. -/
def pieces (body : Bytes) : List Bytes := if body = [] then [] else [body]

/-- A server that sends the rest of its artifact. -/
def restOf (artifact : Bytes) (request : DownloadRequest) : ResponseStream :=
  if request.rangeStart = 0 then
    ⟨200, none, none, some (decimalNat artifact.length), pieces artifact, none⟩
  else if artifact.length ≤ request.rangeStart then ⟨416, none, none, none, [], none⟩
  else
    ⟨206, none,
      some (rangeText request.rangeStart (artifact.length - 1) (some artifact.length)),
      some (decimalNat (artifact.length - request.rangeStart)),
      pieces (artifact.drop request.rangeStart), none⟩

theorem sends_pieces {answer : ResponseStream} {body : Bytes}
    (hchunks : answer.chunks = pieces body) (hfailure : answer.failure = none) :
    Sends answer body := by
  refine ⟨?_, ?_, hfailure⟩
  · rw [hchunks, pieces]
    split
    · rename_i hempty
      rw [hempty]
      rfl
    · exact List.flatten_singleton
  · rw [hchunks, pieces]
    split
    · exact List.not_mem_nil
    · rename_i hbody
      exact fun hmem => hbody (List.mem_singleton.mp hmem).symm

/-- A server that answers a range request with the rest of the artifact. -/
def restServer (artifact : Bytes) : RangeServer artifact where
  respond _ request := restOf artifact request
  conforms _ request := by
    unfold restOf
    split
    · exact .whole rfl (.inr rfl) (sends_pieces rfl rfl)
    · rename_i hrange
      split
      · rename_i hpast
        exact .unsatisfiable (Nat.pos_of_ne_zero hrange) hpast rfl rfl
      · rename_i hinside
        have hstop : artifact.length - 1 + 1 = artifact.length := by omega
        refine .range request.rangeStart (artifact.length - 1) (some artifact.length)
          (Nat.pos_of_ne_zero hrange) (Nat.le_refl _) ⟨by omega, by omega, ?_, rfl, rfl, ?_, ?_⟩
        · intro n hn
          exact (Option.some.inj hn).symm
        · rw [hstop]
          exact .inr rfl
        · rw [hstop, List.take_length]
          exact sends_pieces rfl rfl

/-- The certified update, with its artifact. -/
def certifiedOffer :
    Offer (SampleUpdate.certified.crypto [rootCertificate]) SampleUpdate.options where
  update := SampleUpdate.certified.update
  artifact := ascii "app"
  available := by decide
  direct := by decide
  ownUrl := by decide +kernel
  genuine := by decide +kernel
  small := by decide

/-- A partial file that is complete is refused as a range by the server, and the call neither
installs nor removes it. -/
theorem complete_part_stays :
    ¬ ∀ (crypto : Crypto) (options : TrustOptions) (offer : Offer crypto options)
      (server : RangeServer offer.artifact) (progress : Option (Nat → Nat → Unit))
      (state : DownloadState),
      Resumes offer.artifact (downloadUpdate crypto options server.toServer workingDisk
        (quiet progress) offer.update state) := by
  intro h
  have hstatus : (firstAnswer certifiedOffer (restServer _)
      ⟨some (ascii "app"), none, []⟩).statusCode = 416 := by decide
  obtain ⟨failure, hrefused⟩ := downloadUpdate_refused certifiedOffer (restServer _) none hstatus
  have hresumes := h _ _ certifiedOffer (restServer _) none ⟨some (ascii "app"), none, []⟩
  rw [hrefused] at hresumes
  rcases hresumes with ⟨hok, -⟩ | ⟨-, hnone⟩
  · cases hok
  · cases hnone

end Cpp
end SwmSdk
