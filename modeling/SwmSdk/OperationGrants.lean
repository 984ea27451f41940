import SwmSdk.JsonParsed
import SwmSdk.SealedRequests
import SwmSdk.SignedIntegers

/-! # The use of an operation grant

`authorize_operation` reads a grant from verified data, and `consume_operation_authorization`
gives it back to the server: as a JSON text, in an encrypted body.  The server that opens the body
finds the members it signed, and no others (`consumption_returnsGrant`).
-/
namespace SwmSdk
open ByteText Numeral Outcome

namespace Cpp
open Nlohmann

/-! ## The call -/

/-- `validate_operation_grant`. -/
def validateOperationGrant (grant : OperationGrant) : Except Error Unit :=
  if (grant.schema ≠ ascii "operation_grant_v3_host" ∧
        grant.schema ≠ ascii "operation_grant_v3_unbound") ∨
      grant.grantId = [] ∨ grant.operation = [] ∨ grant.planSha256 = [] ∨
      grant.consumerModule = [] ∨ grant.consumerChallenge = [] ∨ grant.stepCount = 0 ∨
      grant.issuedAt ≤ 0 ∨ grant.expiresAt ≤ grant.issuedAt then
    .error (configurationError "operation grant is incomplete or invalid")
  else .ok ()

/-- A digest that is sent if the grant has it. -/
def digestMember (name : String) (digest : Bytes) : List (Bytes × Json) :=
  if digest = [] then [] else [(ascii name, .string digest)]

/-- The members of the request that consumes a grant. -/
def consumptionMembers (grant : OperationGrant) : List (Bytes × Json) := [
    (ascii "schema", .string (ascii "operation_grant_consume_v2")),
    (ascii "grant_id", .string grant.grantId),
    (ascii "operation", .string grant.operation),
    (ascii "plan_sha256", .string grant.planSha256),
    (ascii "step_count", .unsigned grant.stepCount.toNat),
    (ascii "total_bytes", .unsigned grant.totalBytes.toNat),
    (ascii "consumer_challenge", .string grant.consumerChallenge),
    (ascii "issued_at", .integer grant.issuedAt),
    (ascii "expires_at", .integer grant.expiresAt),
    (ascii "consumer_module", .string grant.consumerModule)] ++
  (digestMember "integrity_manifest_sha256" grant.integrityManifestSha256 ++
    (digestMember "host_exe_sha256" grant.hostExeSha256 ++
      digestMember "consumer_module_sha256" grant.consumerModuleSha256))

/-- The request of `consume_operation_authorization`. -/
def consumptionRequest (grant : OperationGrant) : ClientRequest :=
  postRequest "/api/client/operation-authorizations/consume" .operationGrantConsume
    (consumptionMembers grant)

/-- `consume_operation_authorization` up to its request. -/
def consumeOperationAuthorization (locked : Bool) (grant : OperationGrant) :
    Except Failure ClientRequest :=
  if locked then .error (.swm offlineBudgetExceeded)
  else
    match validateOperationGrant grant with
    | .error e => .error (.swm e)
    | .ok () => .ok (consumptionRequest grant)

section Send
variable (toChars : Binary64 → Bytes)

/-- The request as the pipeline gets it: the body is written. -/
def protocolRequest (request : ClientRequest) : Except Failure ProtocolRequest := do
  let body ← jsonText toChars request.body
  .ok {
    method := request.method
    path := request.path
    body := body
    encryptBody := request.encryptBody
    requireSession := request.requireSession
    requireTrustedTime := request.requireTrustedTime
    requireOnlineKey := request.requireOnlineKey }

/-- One attempt of a call to send the request it has made. -/
def sendCall (crypto : Crypto) (sealing : Sealing) (pipeline : Pipeline) (platform : Platform)
    (call : Except Failure ClientRequest) : Except Failure HttpRequest := do
  let request ← call
  let request ← protocolRequest toChars request
  lift (sendAttempt crypto pipeline (platform.sealed crypto sealing pipeline) request)

end Send

/-! ## What the server finds -/

section Opened
variable {toChars : Binary64 → Bytes} {crypto : Crypto} {sealing : Sealing} {pipeline : Pipeline}
variable {platform : Platform} {online : ProtocolKey} {http : HttpRequest}

/-- The length of what the body of a request is sealed for, and that of the body. -/
structure Sealable (toChars : Binary64 → Bytes) (pipeline : Pipeline) (platform : Platform)
    (online : ProtocolKey) (request : ClientRequest) : Prop where
  aad : ∀ sent, protocolRequest toChars request = .ok sent →
    (sealedRequest pipeline platform sent online).aad.length < 2 ^ 32
  body : ∀ sent, protocolRequest toChars request = .ok sent → sent.body.length < 2 ^ 32

/-- **The server reads the value that a call has sent**, and the proof of possession is for the
text it reads. -/
theorem sendCall_opened {key : Ed25519Key} {request : ClientRequest}
    (hsuite : sealing.suite.Lawful) (holder : Holder sealing.suite key)
    (hcurrent : pipeline.ring.currentKey = some online)
    (htext : KeyText key.bytes online.publicKey) (hnow : InInt64 pipeline.now)
    (hencrypt : request.encryptBody = true) (honline : request.requireOnlineKey = true)
    (htime : request.requireTrustedTime = true) (hpath : 0x3f ∉ request.path)
    (hstored : Stored toChars request.body)
    (hlength : Sealable toChars pipeline platform online request)
    (h : sendCall toChars crypto sealing pipeline platform (.ok request) = .ok http)
    (what : Bytes → Bytes) (context : Bytes) :
    ∃ body, openedBody crypto sealing.suite key.bytes holder.privateKey (baseOf pipeline.baseUrl)
        http = some body ∧
      parseJson what body context = .ok (reread request.body) ∧
      ∃ token payload, http.header "X-SWM-DPoP" = some token ∧ ProofOf false token payload ∧
        DpopBound crypto body http payload := by
  obtain ⟨request, hrequest, h⟩ := bind_eq_ok.mp h
  obtain rfl := Except.ok.inj hrequest
  obtain ⟨sent, hsent, h⟩ := bind_eq_ok.mp h
  have haad := hlength.aad sent hsent
  have hbody := hlength.body sent hsent
  obtain ⟨text, hwritten, hsent⟩ := bind_eq_ok.mp hsent
  obtain rfl := Except.ok.inj hsent
  have hopened := sendAttempt_opened hsuite holder hcurrent htext hencrypt honline htime rfl hpath
    hnow haad hbody (lift_eq_ok.mp h)
  exact ⟨text, hopened.1, (parseJson_jsonText hstored what context).2 text hwritten, hopened.2⟩

end Opened

/-! ## The grant that comes back -/

/-- The texts of a grant that its use repeats. -/
def returnedTexts : List Bytes := [
  ascii "grant_id", ascii "operation", ascii "plan_sha256", ascii "consumer_challenge",
  ascii "consumer_module"]

/-- The digests that its use repeats if the grant has them. -/
def returnedDigests : List Bytes := [
  ascii "integrity_manifest_sha256", ascii "host_exe_sha256", ascii "consumer_module_sha256"]

/-- The members of an authorization that are numbers. -/
def returnedNumbers : List Bytes := [
  ascii "step_count", ascii "total_bytes", ascii "issued_at", ascii "expires_at"]

/-- The body of a use has what the data of its grant says, and nothing else. -/
structure ReturnsGrant (data body : Json) : Prop where
  schema : body.find (ascii "schema") = some (.string (ascii "operation_grant_consume_v2"))
  texts : ∀ key ∈ returnedTexts, body.find key = some (.string (textOf data key))
  digests : ∀ key ∈ returnedDigests, body.find key =
    if textOf data key = [] then none else some (.string (textOf data key))
  stepCount : body.find (ascii "step_count") =
    some (.unsigned (uint64Of data (ascii "step_count") % 2 ^ 32))
  totalBytes : body.find (ascii "total_bytes") =
    some (.unsigned (uint64Of data (ascii "total_bytes")))
  issuedAt : body.find (ascii "issued_at") =
    some (.unsigned (int64Of data (ascii "issued_at")).toNat)
  expiresAt : body.find (ascii "expires_at") =
    some (.unsigned (int64Of data (ascii "expires_at")).toNat)
  only : ∀ key, body.find key ≠ none →
    key ∈ ascii "schema" :: (returnedTexts ++ returnedDigests ++ returnedNumbers)

/-- The server gets the number it signed. -/
def NumberReturned (data body : Json) (key : Bytes) : Prop :=
  ∀ v, field data key = some v → ∃ n u, v.Denotes n ∧ field body key = some u ∧ u.Denotes n

/-- A grant that is valid, in the words of its data. -/
structure ValidGrant (data : Json) : Prop where
  schema : textOf data (ascii "schema") = ascii "operation_grant_v3_host" ∨
    textOf data (ascii "schema") = ascii "operation_grant_v3_unbound"
  texts : ∀ key ∈ returnedTexts, textOf data key ≠ []
  stepCount : uint64Of data (ascii "step_count") % 2 ^ 32 ≠ 0
  issuedAt : 0 < int64Of data (ascii "issued_at")
  expiresAt : int64Of data (ascii "issued_at") < int64Of data (ascii "expires_at")

theorem validateOperationGrant_eq_ok {data : Json} :
    validateOperationGrant (grantOf data) = .ok () ↔ ValidGrant data := by
  unfold validateOperationGrant
  rw [ite_eq_iff]
  simp only [reduceCtorEq, and_false, and_true, false_or, grantOf, not_or, not_and_or, not_not,
    not_le]
  constructor
  · rintro ⟨hschema, hid, hoperation, hplan, hmodule, hchallenge, hsteps, hissued, hexpires⟩
    refine ⟨hschema, ?_, by exact_mod_cast hsteps, hissued, hexpires⟩
    simp only [returnedTexts, List.forall_mem_cons]
    exact ⟨hid, hoperation, hplan, hchallenge, hmodule, List.forall_mem_nil _⟩
  · rintro ⟨hschema, htexts, hsteps, hissued, hexpires⟩
    simp only [returnedTexts, List.forall_mem_cons] at htexts
    obtain ⟨hid, hoperation, hplan, hchallenge, hmodule, -⟩ := htexts
    exact ⟨hschema, hid, hoperation, hplan, hmodule, hchallenge, by exact_mod_cast hsteps, hissued,
      hexpires⟩

/-! ## Members -/

section Members
variable {members : List (Bytes × Json)} {key : Bytes}

/-- A member of an object whose names differ. -/
theorem find_of_mem (hnames : (members.map Prod.fst).Nodup) {v : Json} (h : (key, v) ∈ members) :
    (Json.object (Json.fromMembers members)).find key = some v := by
  have hvalues : Json.valuesOf key members = [v] := by
    induction members with
    | nil => cases h
    | cons member members ih =>
      obtain ⟨k, u⟩ := member
      rw [List.map_cons, List.nodup_cons] at hnames
      obtain ⟨hk, hnames⟩ := hnames
      rw [Json.valuesOf_cons]
      rcases List.mem_cons.mp h with heq | hmem
      · obtain ⟨rfl, rfl⟩ := Prod.mk.inj heq
        rw [if_pos rfl, Json.valuesOf, List.filter_eq_nil_iff.mpr fun other hother => ?_]
        · rfl
        · rw [decide_eq_true_iff]
          rintro rfl
          exact hk (List.mem_map.mpr ⟨_, hother, rfl⟩)
      · have hne : k ≠ key := by
          rintro rfl
          exact hk (List.mem_map.mpr ⟨_, hmem, rfl⟩)
        rw [if_neg hne, ih hnames hmem]
  rw [Json.find, Json.lookup_fromMembers, hvalues]
  rfl

theorem find_of_not_mem (h : key ∉ members.map Prod.fst) :
    (Json.object (Json.fromMembers members)).find key = none := by
  have hvalues : Json.valuesOf key members = [] := by
    rw [Json.valuesOf, List.filter_eq_nil_iff.mpr fun other hother => ?_]
    · rfl
    · rw [decide_eq_true_iff]
      rintro rfl
      exact h (List.mem_map.mpr ⟨_, hother, rfl⟩)
  rw [Json.find, Json.lookup_fromMembers, hvalues]
  rfl

end Members

/-- The names of a use of a grant that has all digests. -/
def consumptionNames : List Bytes := [
  ascii "schema", ascii "grant_id", ascii "operation", ascii "plan_sha256", ascii "step_count",
  ascii "total_bytes", ascii "consumer_challenge", ascii "issued_at", ascii "expires_at",
  ascii "consumer_module", ascii "integrity_manifest_sha256", ascii "host_exe_sha256",
  ascii "consumer_module_sha256"]

theorem digestMember_names (name : String) (digest : Bytes) :
    ((digestMember name digest).map Prod.fst).Sublist [ascii name] := by
  unfold digestMember
  split
  · exact List.nil_sublist _
  · exact List.Sublist.refl _

theorem consumptionMembers_names (grant : OperationGrant) :
    ((consumptionMembers grant).map Prod.fst).Sublist consumptionNames := by
  rw [consumptionMembers, List.map_append, List.map_append, List.map_append]
  exact (List.Sublist.refl _).append ((digestMember_names _ _).append
    ((digestMember_names _ _).append (digestMember_names _ _)))

theorem consumptionMembers_nodup (grant : OperationGrant) :
    ((consumptionMembers grant).map Prod.fst).Nodup :=
  (consumptionMembers_names grant).nodup (by decide)

/-! ## What the server signed and what it finds -/

section Ranges
variable {data : Json} {key : Bytes} (hdata : data.Stored)
include hdata

theorem uint64Of_lt : uint64Of data key < 2 ^ 64 := by
  unfold uint64Of jsonGetUint64
  split
  · rw [valueOr_ok]
    exact Nat.two_pow_pos 64
  · rename_i n hfield
    cases stored_field hdata hfield with
    | unsigned h => rwa [valueOr_ok]
  · rw [valueOr_ok]
    omega
  · exact Nat.two_pow_pos 64

theorem int64Of_range : -2 ^ 63 ≤ int64Of data key ∧ int64Of data key < 2 ^ 63 := by
  unfold int64Of jsonGetInt64
  split
  · rw [valueOr_ok]
    decide
  · rename_i n _
    have hlow := @Int.le_bmod n (2 ^ 64) (Nat.two_pow_pos 64)
    have hhigh := @Int.bmod_lt n (2 ^ 64) (Nat.two_pow_pos 64)
    rw [valueOr_ok]
    omega
  · rename_i n hfield
    cases stored_field hdata hfield with
    | integer hlow hhigh =>
      rw [valueOr_ok]
      exact ⟨hlow, hhigh⟩
  · have hzero : -2 ^ 63 ≤ (0 : Int) ∧ (0 : Int) < 2 ^ 63 := by decide
    exact hzero

/-- The value that a use sends is one the library can hold. -/
theorem consumption_stored (toChars : Binary64 → Bytes) :
    Stored toChars (consumptionRequest (grantOf data)).body := by
  have hsteps : (grantOf data).stepCount.toNat < 2 ^ 64 := by
    simp only [grantOf]
    omega
  have htotal : (grantOf data).totalBytes.toNat < 2 ^ 64 := by
    simp only [grantOf, Int.toNat_natCast]
    exact uint64Of_lt hdata
  have hdigest : ∀ name digest, ∀ member ∈ digestMember name digest, Stored toChars member.2 := by
    intro name digest member hmem
    unfold digestMember at hmem
    split at hmem
    · cases hmem
    · obtain rfl := List.mem_singleton.mp hmem
      exact trivial
  refine Nlohmann.Stored.fromMembers ?_
  simp only [consumptionMembers, List.forall_mem_append, List.forall_mem_cons]
  exact ⟨⟨trivial, trivial, trivial, trivial, hsteps, htotal, trivial, int64Of_range hdata,
    int64Of_range hdata, trivial, List.forall_mem_nil _⟩, hdigest _ _, hdigest _ _, hdigest _ _⟩

end Ranges

section Body
variable (grant : OperationGrant)

/-- The value that the server reads. -/
def consumptionBody : Json := reread (consumptionRequest grant).body

variable {grant} {key : Bytes} {v : Json}

theorem find_consumption (h : (key, v) ∈ consumptionMembers grant) :
    (consumptionBody grant).find key = some (reread v) := by
  rw [consumptionBody, find_reread, consumptionRequest, postRequest,
    find_of_mem (consumptionMembers_nodup grant) h, Option.map_some]

theorem find_consumption_none (h : key ∉ (consumptionMembers grant).map Prod.fst) :
    (consumptionBody grant).find key = none := by
  rw [consumptionBody, find_reread, consumptionRequest, postRequest, find_of_not_mem h,
    Option.map_none]

/-- A member that every use has. -/
theorem find_always (h : (key, v) ∈ (consumptionMembers grant).take 10) :
    (consumptionBody grant).find key = some (reread v) :=
  find_consumption (List.mem_of_mem_take h)

theorem digestMember_mem {name : String} {digest : Bytes} (h : digest ≠ []) :
    (ascii name, .string digest) ∈ digestMember name digest := by
  rw [digestMember, if_neg h]
  exact List.mem_singleton_self _

theorem not_mem_digestMember {name other : String} {digest : Bytes}
    (h : ascii name ≠ ascii other) : ascii name ∉ (digestMember other digest).map Prod.fst :=
  fun hmem => h (List.mem_singleton.mp ((digestMember_names other digest).subset hmem))

theorem consumptionMembers_fst : (consumptionMembers grant).map Prod.fst =
    consumptionNames.take 10 ++
      ((digestMember "integrity_manifest_sha256" grant.integrityManifestSha256).map Prod.fst ++
        ((digestMember "host_exe_sha256" grant.hostExeSha256).map Prod.fst ++
          (digestMember "consumer_module_sha256" grant.consumerModuleSha256).map Prod.fst)) := by
  rw [consumptionMembers, List.map_append, List.map_append, List.map_append]
  rfl

/-- A digest that the grant does not have is not sent, if it is the only one of its name. -/
theorem find_digest {name : String} {digest : Bytes}
    (hin : digestMember name digest ⊆ consumptionMembers grant)
    (hout : digest = [] → ascii name ∉ (consumptionMembers grant).map Prod.fst) :
    (consumptionBody grant).find (ascii name) =
      if digest = [] then none else some (.string digest) := by
  split
  · rename_i hempty
    exact find_consumption_none (hout hempty)
  · rename_i hdigest
    exact @find_consumption _ _ (.string digest) (hin (digestMember_mem hdigest))

theorem find_manifest : (consumptionBody grant).find (ascii "integrity_manifest_sha256") =
    if grant.integrityManifestSha256 = [] then none
    else some (.string grant.integrityManifestSha256) := by
  refine find_digest ?_ fun hempty => ?_
  · exact List.subset_append_of_subset_right _ (List.subset_append_left _ _)
  · rw [consumptionMembers_fst, hempty]
    simp only [List.mem_append, not_or]
    exact ⟨by decide, by decide, not_mem_digestMember (by decide),
      not_mem_digestMember (by decide)⟩

theorem find_host : (consumptionBody grant).find (ascii "host_exe_sha256") =
    if grant.hostExeSha256 = [] then none else some (.string grant.hostExeSha256) := by
  refine find_digest ?_ fun hempty => ?_
  · exact List.subset_append_of_subset_right _ (List.subset_append_of_subset_right _
      (List.subset_append_left _ _))
  · rw [consumptionMembers_fst, hempty]
    simp only [List.mem_append, not_or]
    exact ⟨by decide, not_mem_digestMember (by decide), by decide,
      not_mem_digestMember (by decide)⟩

theorem find_module : (consumptionBody grant).find (ascii "consumer_module_sha256") =
    if grant.consumerModuleSha256 = [] then none
    else some (.string grant.consumerModuleSha256) := by
  refine find_digest ?_ fun hempty => ?_
  · exact List.subset_append_of_subset_right _ (List.subset_append_of_subset_right _
      (List.subset_append_right _ _))
  · rw [consumptionMembers_fst, hempty]
    simp only [List.mem_append, not_or]
    exact ⟨by decide, not_mem_digestMember (by decide), not_mem_digestMember (by decide),
      by decide⟩

end Body

/-- **The body of a use has what the data of its grant says.** -/
theorem consumptionBody_returns {data : Json} (hvalid : ValidGrant data) :
    ReturnsGrant data (consumptionBody (grantOf data)) := by
  have hexpires := hvalid.issuedAt.trans hvalid.expiresAt
  refine ⟨?_, ?_, ?_, ?_, ?_, ?_, ?_, ?_⟩
  · exact @find_always _ _ (.string _) (List.mem_cons_self ..)
  · simp only [returnedTexts, List.forall_mem_cons]
    refine ⟨?_, ?_, ?_, ?_, ?_, List.forall_mem_nil _⟩
    all_goals exact @find_always _ _ (.string _) (by simp [consumptionMembers, grantOf])
  · simp only [returnedDigests, List.forall_mem_cons]
    exact ⟨find_manifest, find_host, find_module, List.forall_mem_nil _⟩
  · have hsteps : (grantOf data).stepCount.toNat = uint64Of data (ascii "step_count") % 2 ^ 32 := by
      simp only [grantOf]
      omega
    rw [← hsteps]
    exact @find_always _ _ (.unsigned _) (by simp [consumptionMembers])
  · exact @find_always _ _ (.unsigned _) (by simp [consumptionMembers, grantOf])
  · have hissued : reread (.integer (int64Of data (ascii "issued_at"))) =
        .unsigned (int64Of data (ascii "issued_at")).toNat := if_pos (le_of_lt hvalid.issuedAt)
    rw [← hissued]
    exact find_always (by simp [consumptionMembers, grantOf])
  · have hdue : reread (.integer (int64Of data (ascii "expires_at"))) =
        .unsigned (int64Of data (ascii "expires_at")).toNat := if_pos (le_of_lt hexpires)
    rw [← hdue]
    exact find_always (by simp [consumptionMembers, grantOf])
  · intro key hkey
    by_contra hout
    refine hkey (find_consumption_none fun hmem => hout ?_)
    have hnames : ∀ name ∈ consumptionNames,
        name ∈ ascii "schema" :: (returnedTexts ++ returnedDigests ++ returnedNumbers) := by
      decide
    exact hnames key ((consumptionMembers_names _).subset hmem)

theorem denotes_unsigned {n : Nat} {m : Int} : (Json.unsigned n).Denotes m ↔ (n : Int) = m :=
  Iff.rfl

/-- A number comes back exactly when the grant has kept it. -/
theorem numberReturned_iff {data body : Json} {key : Bytes} {n : Nat} {kept : Int}
    (hbody : body.find key = some (.unsigned n)) (hn : (n : Int) = kept) :
    NumberReturned data body key ↔ FieldKept data key (some kept) := by
  have hfield : field body key = some (.unsigned n) := by
    rw [field, hbody]
  unfold NumberReturned FieldKept
  refine forall₂_congr fun v hv => ?_
  constructor
  · rintro ⟨m, u, hm, hu, hdenotes⟩
    obtain rfl := Option.some.inj (hfield.symm.trans hu)
    exact ⟨kept, rfl, (denotes_unsigned.mp hdenotes).symm.trans hn ▸ hm⟩
  · rintro ⟨m, hkept, hm⟩
    exact ⟨m, .unsigned n, hm, hfield, denotes_unsigned.mpr (hn.trans (Option.some.inj hkept))⟩

/-- **The server gets all the numbers it signed exactly when they fit the grant.** -/
theorem numbersReturned_iff {data body : Json} (hdata : data.Stored) (hread : GrantReadable data)
    (hvalid : ValidGrant data) (h : ReturnsGrant data body) :
    (∀ key ∈ returnedNumbers, NumberReturned data body key) ↔ GrantFits data := by
  have hissued := hvalid.issuedAt
  have hexpires := hvalid.issuedAt.trans hvalid.expiresAt
  rw [← grantKept_iff hdata hread]
  simp only [returnedNumbers, List.forall_mem_cons, List.not_mem_nil, false_imp_iff, implies_true,
    and_true]
  rw [numberReturned_iff h.stepCount (Int.natCast_emod _ _),
    numberReturned_iff h.totalBytes rfl,
    numberReturned_iff h.issuedAt (Int.toNat_of_nonneg (le_of_lt hissued)),
    numberReturned_iff h.expiresAt (Int.toNat_of_nonneg (le_of_lt hexpires))]
  constructor
  · rintro ⟨h₁, h₂, h₃, h₄⟩
    exact ⟨h₁, h₂, h₃, h₄⟩
  · rintro ⟨h₁, h₂, h₃, h₄⟩
    exact ⟨h₁, h₂, h₃, h₄⟩

/-! ## The round trip -/

theorem utf8_find {v u : Json} {key : Bytes} (h : Utf8 v) (hfind : v.find key = some u) :
    Utf8 u := by
  cases v with
  | object members =>
    rw [Json.find, Json.lookup, Option.map_eq_some_iff] at hfind
    obtain ⟨member, hmember, rfl⟩ := hfind
    exact (utf8Members_iff.mp h member (List.mem_of_find?_eq_some hmember)).2
  | _ => cases hfind

section Verified
variable {crypto : Crypto} {what : Bytes → Bytes} {turn : CheckTurn Error}
variable {response : ProtocolResponse} {data : Json}

theorem verifiedData_utf8 (h : verifiedData crypto what turn response = .ok data) : Utf8 data := by
  obtain ⟨authz, hcarrier⟩ := verifyAuthz_ok h
  obtain ⟨carrier, rawData, key, hv⟩ := verifiedCarrier_ok hcarrier
  exact utf8_find (parse_inherits utf8_inherited hv.parsed) hv.member

end Verified

theorem textOf_utf8 {data : Json} (h : Utf8 data) (key : Bytes) :
    validUtf8 (textOf data key) = true := by
  unfold textOf jsonGetString
  split
  · rfl
  · rename_i text hfield
    rw [valueOr_ok]
    unfold field at hfield
    split at hfield
    · cases hfield
    · exact utf8_find h hfield
  · rfl

/-- The texts of a grant can be written. -/
theorem consumption_utf8 {data : Json} (h : Utf8 data) :
    Utf8 (consumptionRequest (grantOf data)).body := by
  have hdigest : ∀ name key, validUtf8 (ascii name) = true →
      ∀ member ∈ digestMember name (textOf data key),
        validUtf8 member.1 = true ∧ Utf8 member.2 := by
    intro name key hname member hmem
    unfold digestMember at hmem
    split at hmem
    · cases hmem
    · obtain rfl := List.mem_singleton.mp hmem
      exact ⟨hname, textOf_utf8 h key⟩
  have hmembers : ∀ member ∈ consumptionMembers (grantOf data),
      validUtf8 member.1 = true ∧ Utf8 member.2 := by
    have hconsume : validUtf8 (ascii "operation_grant_consume_v2") = true := by decide
    simp only [consumptionMembers, List.forall_mem_append, List.forall_mem_cons]
    refine ⟨⟨⟨?_, hconsume⟩, ⟨?_, textOf_utf8 h _⟩, ⟨?_, textOf_utf8 h _⟩, ⟨?_, textOf_utf8 h _⟩,
      ⟨?_, trivial⟩, ⟨?_, trivial⟩, ⟨?_, textOf_utf8 h _⟩, ⟨?_, trivial⟩, ⟨?_, trivial⟩,
      ⟨?_, textOf_utf8 h _⟩, List.forall_mem_nil _⟩, hdigest _ _ ?_, hdigest _ _ ?_,
      hdigest _ _ ?_⟩
    all_goals decide
  exact utf8Members_iff.mpr fun member hmem => hmembers member (Json.mem_fromMembers hmem)

theorem consumeOperationAuthorization_eq_ok {locked : Bool} {data : Json}
    {request : ClientRequest} :
    consumeOperationAuthorization locked (grantOf data) = .ok request ↔
      locked = false ∧ ValidGrant data ∧ consumptionRequest (grantOf data) = request := by
  unfold consumeOperationAuthorization
  cases locked with
  | true => simp
  | false =>
    rw [if_neg Bool.false_ne_true, ← validateOperationGrant_eq_ok]
    cases validateOperationGrant (grantOf data) with
    | error e => simp
    | ok => simp

section RoundTrip
variable {toChars : Binary64 → Bytes} {crypto : Crypto} {sealing : Sealing} {pipeline : Pipeline}
variable {platform : Platform} {online : ProtocolKey} {http : HttpRequest} {key : Ed25519Key}
variable {what : Bytes → Bytes} {turn : CheckTurn Error} {response : ProtocolResponse}
variable {grant : OperationGrant}

/-- **A use is written exactly when the client is not locked and the grant is valid.** -/
theorem consumption_written_iff {data : Json} {locked : Bool} (hutf8 : Utf8 data)
    (hdata : data.Stored) :
    (∃ sent, (consumeOperationAuthorization locked (grantOf data) >>=
      protocolRequest toChars) = .ok sent) ↔ locked = false ∧ ValidGrant data := by
  simp only [bind_eq_ok, consumeOperationAuthorization_eq_ok]
  constructor
  · rintro ⟨_, _, ⟨hlocked, hvalid, -⟩, -⟩
    exact ⟨hlocked, hvalid⟩
  · rintro ⟨hlocked, hvalid⟩
    have hwritten := (parseJson_jsonText (consumption_stored hdata toChars) id []).1
    obtain ⟨text, htext⟩ := hwritten.mpr (consumption_utf8 hutf8)
    exact ⟨_, _, ⟨hlocked, hvalid, rfl⟩, bind_eq_ok.mpr ⟨text, htext, rfl⟩⟩

/-- **A grant comes back as it was signed.**  The client uses the grant of verified data exactly
when it is valid and the client is not locked; the server that opens the request finds the members
of the data, and gets the numbers it signed exactly when they fit the fields of a grant. -/
theorem consumption_returnsGrant (hsuite : sealing.suite.Lawful)
    (holder : Holder sealing.suite key) (hcurrent : pipeline.ring.currentKey = some online)
    (htext : KeyText key.bytes online.publicKey) (hnow : InInt64 pipeline.now)
    (hlength : Sealable toChars pipeline platform online (consumptionRequest grant))
    (hgrant : finishAuthorization crypto what turn response = .ok grant) (context : Bytes) :
    ∃ data, verifiedData crypto what turn response = .ok data ∧
      (∀ locked, (∃ sent, (consumeOperationAuthorization locked grant >>=
        protocolRequest toChars) = .ok sent) ↔ locked = false ∧ ValidGrant data) ∧
      ∀ locked http, sendCall toChars crypto sealing pipeline platform
          (consumeOperationAuthorization locked grant) = .ok http →
        ∃ body value, openedBody crypto sealing.suite key.bytes holder.privateKey
            (baseOf pipeline.baseUrl) http = some body ∧
          parseJson what body context = .ok value ∧ ReturnsGrant data value ∧
          ((∀ key ∈ returnedNumbers, NumberReturned data value key) ↔ GrantFits data) ∧
          ∃ token payload, http.header "X-SWM-DPoP" = some token ∧ ProofOf false token payload ∧
            DpopBound crypto body http payload := by
  obtain ⟨data, hverified, hgrant⟩ := bind_eq_ok.mp hgrant
  obtain ⟨hread, rfl⟩ := grantFromJson_eq_ok.mp hgrant
  have hdata := verifiedData_stored hverified
  refine ⟨data, hverified,
    fun locked => @consumption_written_iff toChars data locked (verifiedData_utf8 hverified)
      hdata, fun locked http h => ?_⟩
  obtain ⟨request, hrequest, hsent⟩ := bind_eq_ok.mp h
  obtain ⟨-, hvalid, rfl⟩ := consumeOperationAuthorization_eq_ok.mp hrequest
  have hstored := consumption_stored hdata toChars
  have hpath : 0x3f ∉ ascii "/api/client/operation-authorizations/consume" := by decide
  obtain ⟨body, hopened, hparsed, hproof⟩ := @sendCall_opened toChars crypto sealing pipeline
    platform online http key _ hsuite holder hcurrent htext hnow rfl rfl rfl hpath
    hstored hlength hsent what context
  have hreturns := consumptionBody_returns hvalid
  exact ⟨body, _, hopened, hparsed, hreturns, numbersReturned_iff hdata hread hvalid hreturns,
    hproof⟩

end RoundTrip

/-! ## One grant -/

namespace GrantCheck
open SwmSdk.SealedCheck

/-- The data of a signed response. -/
def data : Bytes :=
  ascii "\x7b\"schema\":\"operation_grant_v3_unbound\",\"app_id\":\"app\"," ++
  ascii "\"release_id\":\"release\"," ++
  ascii "\"device_id\":\"device\",\"device_key_id\":\"kid\",\"key_thumbprint\":\"thumb\"," ++
  ascii "\"device_public_key\":\"device-key\",\"authz_public_key\":\"authz-key\"," ++
  ascii "\"authz_key_id\":\"k1\",\"authz_root_trust_key_id\":\"root\"," ++
  ascii "\"authz_root_trust_signature\":\"sig\",\"session\":\"session\",\"grant_id\":\"g1\"," ++
  ascii "\"operation\":\"install\",\"plan_sha256\":\"ab\",\"step_count\":2,\"total_bytes\":5," ++
  ascii "\"issued_at\":990,\"expires_at\":1200,\"consumer_challenge\":\"cd\"," ++
  ascii "\"consumer_module\":\"module\"\x7d"

def dataDigest : Bytes :=
  hexBytes "2a69de29d3ffc756120bdf610884c8acc0e3d54982d41971944c46f3e83297e4"

def authzSignature : Bytes := ascii
  "XDvaY489HfwZ55yq26yWZeelQ03y4cg0Zi8ykucimC7ICe-7amwVqbsfDMh9vBXtl_ZU1X3zFgZBFbHLVds9CQ"

def authz : AuthzEnvelope :=
  { sampleEnvelope [] [] authzSignature with dataSha256 := hex dataDigest }

def response : ProtocolResponse where
  statusCode := 200
  body := ascii "\x7b\"data\":" ++ data ++
    ascii ",\"authz\":\x7b\"version\":\"authz_v3\",\"decision\":\"allow\"," ++
    ascii "\"release_id\":\"release\",\"device_id\":\"device\",\"nonce\":\"nonce\"," ++
    ascii "\"data_sha256\":\"" ++ hex dataDigest ++ ascii "\",\"key_id\":\"k1\"," ++
    ascii "\"issued_at\":990,\"expires_at\":1200,\"signature\":\"" ++ authzSignature ++
    ascii "\"\x7d\x7d"

def turn : CheckTurn Error where
  response := .ok response
  context := signedContext
  note := .ok ()
  deviceAuth := .ok ()
  storePolicy := .ok ()

/-- What the client sends for the grant, and its box. -/
def consumption : Bytes :=
  ascii "\x7b\"consumer_challenge\":\"cd\",\"consumer_module\":\"module\",\"expires_at\":1200," ++
  ascii "\"grant_id\":\"g1\",\"issued_at\":990,\"operation\":\"install\",\"plan_sha256\":\"ab\"," ++
  ascii "\"schema\":\"operation_grant_consume_v2\",\"step_count\":2,\"total_bytes\":5\x7d"

/-- The sealed body of the sample request. -/
def consumptionBox : Bytes := hexBytes
  ("d400aa3f82769895a05035d84c640037b80ae5ddbf0fef4213c103c0bff98ff71eeb045cbcf5164d91da0c91" ++
    "bf6ca7dee097086c17eee81d794a63a4f1dab0abbd818b60b70db465cc6e62cc0bc0e35d96efd33ccd411bdc" ++
    "1f6678ff5b9b2a5002771950b01dbf84222cb91e2539d239d660da37fd7663be87d8f6206316583ebee66996" ++
    "e5adcd256622e54df36442f16dcc5fc19984320153ddfbc2c61c7d5264aa5f6d326381d9c41683ba9812e30d" ++
    "6d546e4d4c12df29af2d79e267d4b0ab374ec1aefb9728271f8e67199a9669d9ab46306a805b0bf8194d114b" ++
    "7a647efedef3eeb024bb")

/-- The client of the samples, with a session. -/
def pipeline : Pipeline :=
  { SealedCheck.pipeline with session := some (ascii "session"), sessionExpiresAt := 1234568000 }

/-- The request that consumes the sample grant. -/
def request : SealedRequest :=
  { sealedCheck with path := ascii "/api/client/operation-authorizations/consume" }

def suite : SealedBox.Suite := suiteOf request.aad consumption consumptionBox

/-- SHA-256 of the six texts that are hashed; the last is what the proof signs. -/
def sha256 (value : Bytes) : Bytes :=
  if value = [] then emptyDigest
  else if value = sealedCheck.context onlineKey then salt
  else if value = data then dataDigest
  else if value = consumption then
    hexBytes "2183ef9145e46cf3ceb645a73843d8630865498291741390a2a8eac2f00c1440"
  else if value = ascii "session" then
    hexBytes "3f3af1ecebbd1410ab417ec0d27bbfcb5d340e177ae159b59fc8626c2dfd9175"
  else hexBytes "be156002fd066388e8573b87b22826dcc908e4745e74926b80a0c57c3fa5c17b"

theorem sha256_length (value : Bytes) : (sha256 value).length = 32 := by
  unfold sha256
  split_ifs
  all_goals rfl

def crypto : Crypto where
  sha256 := sha256
  sha256_length := sha256_length
  ed25519Verify publicKey message signature :=
    .ok ([(signedKey.publicKey, canonical signedContext authz, authzSignature)].contains
      (publicKey, message, signature))

end GrantCheck

namespace GrantCheck

/-- The client takes the response, and its use of the grant is this text. -/
def reads : Bool :=
  match finishAuthorization crypto id turn response with
  | .error _ => false
  | .ok grant =>
      let body := (consumptionRequest grant).body
      match validateOperationGrant grant, jsonText (fun _ => []) body with
      | .ok (), .ok text => text = consumption
      | _, _ => false

theorem of_reads (h : reads = true) : ∃ grant,
    finishAuthorization crypto id turn response = .ok grant ∧
    validateOperationGrant grant = .ok () ∧
    jsonText (fun _ => []) (consumptionRequest grant).body = .ok consumption := by
  unfold reads at h
  split at h
  · cases h
  · rename_i grant hgrant
    dsimp only at h
    split at h
    · rename_i text hvalid htext
      exact ⟨grant, hgrant, hvalid, of_decide_eq_true h ▸ htext⟩
    · cases h

/-- The request with this text. -/
def sent : ProtocolRequest where
  method := ascii "POST"
  path := ascii "/api/client/operation-authorizations/consume"
  body := consumption
  requireSession := true

theorem suite_lawful : suite.Lawful :=
  SwmSdk.SealedCheck.suiteOf_lawful (by decide +kernel)

def holder : Holder suite SwmSdk.SealedCheck.key :=
  SwmSdk.SealedCheck.holderOf request.aad consumption consumptionBox

theorem sent_ok : ∃ http, sendAttempt crypto pipeline (SealedCheck.platform.sealed crypto
    (SwmSdk.SealedCheck.sealingOf suite) pipeline) sent = .ok http := by
  have hsealed := @bodyEncryption_eq crypto (SwmSdk.SealedCheck.sealingOf suite) pipeline
    SealedCheck.platform sent SealedCheck.online SwmSdk.SealedCheck.key suite_lawful holder .hex
    (by decide) (by decide) (by decide +kernel) (by decide +kernel)
  unfold sendAttempt
  exact ⟨_, bind_eq_ok.mpr ⟨_, rfl, bind_eq_ok.mpr ⟨_, rfl, bind_eq_ok.mpr ⟨_, rfl,
    bind_eq_ok.mpr ⟨_, rfl, bind_eq_ok.mpr ⟨_, hsealed, rfl⟩⟩⟩⟩⟩⟩

end GrantCheck

theorem consumption_returnsGrant_check : ∃ grant data http body value,
    finishAuthorization GrantCheck.crypto id GrantCheck.turn GrantCheck.response = .ok grant ∧
    verifiedData GrantCheck.crypto id GrantCheck.turn GrantCheck.response = .ok data ∧
    sendCall (fun _ => []) GrantCheck.crypto (SwmSdk.SealedCheck.sealingOf GrantCheck.suite)
      GrantCheck.pipeline SealedCheck.platform (consumeOperationAuthorization false grant) =
        .ok http ∧
    openedBody GrantCheck.crypto GrantCheck.suite SwmSdk.SealedCheck.key.bytes
      GrantCheck.holder.privateKey (baseOf GrantCheck.pipeline.baseUrl) http = some body ∧
    parseJson id body [] = .ok value ∧ ReturnsGrant data value ∧
    ((∀ key ∈ returnedNumbers, NumberReturned data value key) ↔ GrantFits data) := by
  obtain ⟨grant, hgrant, hvalid, htext⟩ := GrantCheck.of_reads (by decide +kernel)
  have hwritten : protocolRequest (fun _ => []) (consumptionRequest grant) =
      .ok GrantCheck.sent := bind_eq_ok.mpr ⟨_, htext, rfl⟩
  have hlength : Sealable (fun _ => []) GrantCheck.pipeline SealedCheck.platform
      SealedCheck.online (consumptionRequest grant) := by
    constructor
    · intro sent hsent
      obtain rfl := Except.ok.inj (hwritten.symm.trans hsent)
      decide +kernel
    · intro sent hsent
      obtain rfl := Except.ok.inj (hwritten.symm.trans hsent)
      decide +kernel
  have hcall : consumeOperationAuthorization false grant = .ok (consumptionRequest grant) := by
    rw [consumeOperationAuthorization, if_neg Bool.false_ne_true, hvalid]
  obtain ⟨http, hsent⟩ := GrantCheck.sent_ok
  have hsend : sendCall (fun _ => []) GrantCheck.crypto
      (SwmSdk.SealedCheck.sealingOf GrantCheck.suite) GrantCheck.pipeline SealedCheck.platform
        (consumeOperationAuthorization false grant) = .ok http := by
    exact bind_eq_ok.mpr ⟨_, hcall, bind_eq_ok.mpr ⟨_, hwritten, lift_eq_ok.mpr hsent⟩⟩
  obtain ⟨data, hverified, -, hreturns⟩ := @consumption_returnsGrant (fun _ => [])
    GrantCheck.crypto (SwmSdk.SealedCheck.sealingOf GrantCheck.suite) GrantCheck.pipeline
    SealedCheck.platform SealedCheck.online SwmSdk.SealedCheck.key id GrantCheck.turn
    GrantCheck.response grant GrantCheck.suite_lawful GrantCheck.holder rfl .hex (by decide)
    hlength hgrant []
  obtain ⟨body, value, hopened, hparsed, hdata, hnumbers, -⟩ := hreturns false http hsend
  exact ⟨grant, data, http, body, value, hgrant, hverified, hsend, hopened, hparsed, hdata,
    hnumbers⟩

end Cpp
end SwmSdk
