import SwmSdk.Authz
import SwmSdk.Jackson
import SwmSdk.KeyRingPorts
import SwmSdk.MemberText

/-! # The data of a response and the bytes that were signed

Both SDKs hash one slice of the response and return a value that was parsed from
the whole of it.  The slice is the first `data` member that a scanner finds; the
value is the last one, because a later member of the same name replaces an
earlier one.  So the returned data is covered by the signature exactly when the
first and the last `data` member have one value (`data_bound_iff`).  In C++ the parser
skips comments, and the scanner takes them for text: there the first member is one of the
body without regard to comments (`DocumentMember`).
-/
namespace SwmSdk
open ByteText Outcome

/-- The data of a response is bound to its signature: it is what is read from the
hashed slice of the body alone, the digest of that slice stands in the envelope,
and a retained key signed the envelope. -/
def DataBound {Value : Type} (crypto : Crypto) (context : AuthzContext) (body : Bytes)
    (hashed : Option Bytes) (read : Bytes → Option Value) (data : Value) : Prop :=
  ∃ rawData authz key, hashed = some rawData ∧ rawData <:+: body ∧
    lower authz.dataSha256 = crypto.sha256Hex rawData ∧
    context.ring.retained.find? (fun key => key.keyId = authz.keyId) = some key ∧
    crypto.ed25519Verify key.publicKey (Cpp.canonical context authz) authz.signature = .ok true ∧
    read rawData = some data

/-- The first and the last member of a name have one value. -/
def SameMember {Value : Type} (key : Bytes) (members : List (Bytes × Value)) : Prop :=
  (Json.valuesOf key members).head? = (Json.valuesOf key members).getLast?

/-! ## C++ -/

namespace Cpp

theorem checkEnvelope_digest {crypto : Crypto} {context : AuthzContext} {rawData : Bytes}
    {authz : AuthzEnvelope} {key : ProtocolKey}
    (h : checkEnvelope crypto context rawData authz = .ok key) :
    lower authz.dataSha256 = crypto.sha256Hex rawData ∧
      context.ring.retained.find? (fun key => key.keyId = authz.keyId) = some key := by
  unfold checkEnvelope at h
  split at h
  · cases h
  · split at h
    · cases h
    · rename_i hdata
      split at h
      · cases h
      · rename_i found hfound
        obtain rfl := Except.ok.inj h
        refine ⟨?_, by rw [← hfound, findKey_eq]⟩
        rw [← not_not.mp hdata, Crypto.sha256Hex, lower_hex]

/-- A text the scanner walks over has no byte order mark. -/
theorem skipBom_of_extract {document member slice : Bytes}
    (h : extractJsonMemberRaw document member = some slice) :
    Nlohmann.skipBom document = some document := by
  cases document with
  | nil => rfl
  | cons b rest =>
    have hb : b ≠ 0xef := by
      rintro rfl
      cases h
    exact Nlohmann.skipBom_of_head hb

/-- The first `data` member, where comments count as text, and the last one, where they are
skipped, have one value. -/
def SameData (body : Bytes) : Prop :=
  ∃ text first members, DocumentMember (ascii "data") body text ∧
    Nlohmann.parse true text = some first ∧ Nlohmann.topMembers true body = some members ∧
    (Json.valuesOf (ascii "data") members).getLast? = some first

/-- The body is JSON without comments, and its first and last `data` members have one
value. -/
def PlainSameData (body : Bytes) : Prop :=
  ∃ members, Nlohmann.topMembers false body = some members ∧ SameMember (ascii "data") members

/-- **Without comments** the first and the last are two of the same members. -/
theorem sameData_iff_plain {body : Bytes} {v x : Json} (hbom : Nlohmann.skipBom body = some body)
    (h : Nlohmann.parse false body = some v) (hx : v.find (ascii "data") = some x) :
    SameData body ↔ PlainSameData body := by
  obtain ⟨members, htop, hv, hlayout⟩ := Nlohmann.parse_object hbom h hx
  obtain ⟨⟨members', htop', hv'⟩, -⟩ :=
    Nlohmann.parse_find hbom (Nlohmann.parse_comments h) hx
  have hlast : (Json.valuesOf (ascii "data") members).getLast? = some x := by
    rw [← Json.lookup_fromMembers, ← hx, hv]
    rfl
  have hlast' : (Json.valuesOf (ascii "data") members').getLast? = some x := by
    rw [← Json.lookup_fromMembers, ← hx, hv']
    rfl
  obtain ⟨slice, first, hfirst, hread, hslice⟩ :
      ∃ slice first, (Json.valuesOf (ascii "data") members).head? = some first ∧
        Nlohmann.Reads slice first ∧ DocumentMember (ascii "data") body slice := by
    rcases extractJsonMemberRaw_layout hlayout (ascii "data") with
      ⟨slice, first, hfirst, hread, hslice⟩ | ⟨hnone, -⟩
    · exact ⟨slice, first, hfirst, hread, extractJsonMemberRaw_eq_some_iff.mp hslice⟩
    · rw [List.head?_eq_none_iff.mp hnone] at hlast
      cases hlast
  constructor
  · rintro ⟨text, value, found, htext, hvalue, hfound, hsame⟩
    obtain rfl : found = members' := Option.some.inj (hfound.symm.trans htop')
    obtain rfl : text = slice := Option.some.inj
      ((extractJsonMemberRaw_eq_some_iff.mpr htext).symm.trans
        (extractJsonMemberRaw_eq_some_iff.mpr hslice))
    obtain rfl : value = first := Option.some.inj (hvalue.symm.trans (hread.parse true))
    exact ⟨members, htop, by rw [SameMember, hfirst, hlast, ← hlast', hsame]⟩
  · rintro ⟨found, hfound, hsame⟩
    obtain rfl : found = members := Option.some.inj (hfound.symm.trans htop)
    rw [SameMember, hfirst, hlast] at hsame
    exact ⟨slice, first, members', hslice, hread.parse true, htop', by rw [hlast', hsame]⟩

section Binding
variable {crypto : Crypto} {what : Bytes → Bytes} {note : Except Error Unit}
  {context : AuthzContext} {session : Session} {response : ProtocolResponse} {data : Json}

/-- **The data is bound to the signature exactly when the first and the last `data` member have
one value.** -/
theorem verifyAuthz_bound_iff
    (h : (verifyAuthz crypto what note context session response).1 = .ok data) :
    DataBound crypto context response.body (extractJsonMemberRaw response.body (ascii "data"))
      (Nlohmann.parse true) data ↔ SameData response.body := by
  obtain ⟨authz, hcarrier⟩ := verifyAuthz_ok h
  obtain ⟨carrier, rawData, key, hv⟩ := verifiedCarrier_ok hcarrier
  obtain ⟨⟨members, htop, rfl⟩, -⟩ :=
    Nlohmann.parse_find (skipBom_of_extract hv.sliced) hv.parsed hv.member
  have hlast : (Json.valuesOf (ascii "data") members).getLast? = some data := by
    rw [← Json.lookup_fromMembers]
    exact hv.member
  constructor
  · rintro ⟨raw, -, -, hraw, -, -, -, -, hdata⟩
    exact ⟨raw, data, members, extractJsonMemberRaw_eq_some_iff.mp hraw, hdata, htop, hlast⟩
  · rintro ⟨text, first, members', htext, hfirst, htop', hsame⟩
    obtain rfl : members' = members := Option.some.inj (htop'.symm.trans htop)
    obtain rfl : data = first := Option.some.inj (hlast.symm.trans hsame)
    have hslice := extractJsonMemberRaw_eq_some_iff.mpr htext
    obtain rfl : rawData = text := Option.some.inj (hv.sliced.symm.trans hslice)
    obtain ⟨hdigest, hkey⟩ := checkEnvelope_digest hv.checked
    exact ⟨rawData, authz, key, hslice, extractJsonMemberRaw_isInfix hslice, hdigest, hkey,
      hv.signed, hfirst⟩

end Binding
end Cpp

/-! ## Java -/

namespace Java

section Verify
variable (J : Jackson)

/-- The code and the message of an error response; a field that cannot be read leaves
what was there before. -/
def serviceText (body : Bytes) : Bytes × Bytes :=
  let fields (node : J.Node) : Bytes × Bytes :=
    match text J node (ascii "code") false with
    | .error _ => ([], utf8String body)
    | .ok code =>
        match text J node (ascii "message") false with
        | .error _ => (code, utf8String body)
        | .ok message => (code, message)
  match J.readTree body with
  | .error _ => ([], utf8String body)
  | .ok root =>
      match J.get root (ascii "error") with
      | none => fields root
      | some error =>
          if J.isObject error then fields error
          else
            match J.textual error with
            | some message => (message, message)
            | none => fields root

/-- `throwIfError`. -/
def throwIfError (response : ProtocolResponse) : Except Thrown Unit :=
  if 200 ≤ response.statusCode ∧ response.statusCode < 300 then .ok ()
  else
    let code := (serviceText J response.body).1
    let error (kind : ErrorKind) (body : Bytes) : Except Thrown Unit :=
      .error (.swm { kind := kind, statusCode := response.statusCode, serviceCode := code
                     message := (serviceText J response.body).2, responseBody := body })
    let body := utf8String response.body
    if code = ascii "device_blocked" then error .deviceBlocked body
    else if code = ascii "client_version_unsupported" then error .unsupportedVersion body
    else if code = ascii "update_region_blocked" then error .updateRegionBlocked body
    else if code = ascii "feedback_disabled" then error .feedbackDisabled body
    else if ascii "release_integrity_" <+: code then error .integrity body
    else if ascii "operation_auth_" <+: code ∨ ascii "operation_grant_" <+: code then
      error .operationAuthorization []
    else if response.statusCode = 401 then error .session []
    else if response.statusCode = 403 then error .unauthorized body
    else if response.statusCode = 429 then error .rateLimit body
    else if 500 ≤ response.statusCode then error .api body
    else error .validation body

/-- The fields of `authz`, in the order they are read. -/
def readEnvelope (authz : J.Node) : Except Thrown AuthzEnvelope := do
  let version ← text J authz (ascii "version") true
  let decision ← text J authz (ascii "decision") true
  let release ← text J authz (ascii "release_id") true
  let device ← text J authz (ascii "device_id") true
  let nonce ← text J authz (ascii "nonce") true
  let dataHash ← text J authz (ascii "data_sha256") true
  let keyId ← text J authz (ascii "key_id") true
  let reason ← text J authz (ascii "reason") false
  let session ← text J authz (ascii "session") false
  let signature ← text J authz (ascii "signature") true
  let issuedAt ← longValue J authz (ascii "issued_at") 0
  let expiresAt ← longValue J authz (ascii "expires_at") 0
  .ok {
    version := version, decision := decision, releaseId := release, deviceId := device
    nonce := nonce, dataSha256 := dataHash, keyId := keyId, reason := reason
    session := session, signature := signature, issuedAt := issuedAt, expiresAt := expiresAt }

/-- What `verifyAuthz` throws for an envelope that is not for this client or not from a known key.
-/
def authzInvalid (message : String) : Thrown :=
  .swm { kind := .session, statusCode := 403, serviceCode := ascii "authz_invalid"
         message := ascii message }

/-- The integrity errors of `verifyAuthz`. -/
def integrity (code message : String) : Thrown :=
  .swm { kind := .integrity, statusCode := 403, serviceCode := ascii code
         message := ascii message }

/-- The checks of `verifyAuthz` before the signature. -/
def checkEnvelope (crypto : Crypto) (context : AuthzContext) (rawData : Bytes)
    (authz : AuthzEnvelope) : Except Thrown ProtocolKey :=
  if ¬ authz.Current context then
    .error (authzInvalid "Authz v3 response identity or lifetime is invalid")
  else if ¬ equalsIgnoreCase authz.dataSha256 (crypto.sha256Hex rawData) then
    .error (integrity "authz_data_mismatch" "Authz v3 response data hash is invalid")
  else
    match findKey context.ring authz.keyId with
    | none => .error (authzInvalid "Authz v3 response key is unknown")
    | some key => .ok key

/-- `CryptoUtil.verifyEd25519`. -/
def verifyEd25519 (crypto : Crypto) (publicKey message signature : Bytes) : Except Thrown Bool :=
  match crypto.ed25519Verify publicKey message signature with
  | .ok valid => .ok valid
  | .error e => .error (.swm e)

/-- The checks of `verifyAuthz`: the data of the carrier, and its envelope. -/
def verifiedCarrier (crypto : Crypto) (context : AuthzContext) (response : ProtocolResponse) :
    Except Thrown (Option J.Node × AuthzEnvelope) := do
  throwIfError J response
  let rawData ← rawMember J response.body (ascii "data")
  let carrier ← parse J response.body (ascii "Authz v3 carrier")
  match rawData, (J.get carrier (ascii "authz")).filter J.isObject with
  | some rawData, some node => do
      let authz ← readEnvelope J node
      let key ← checkEnvelope crypto context rawData authz
      let valid ← verifyEd25519 crypto key.publicKey (Cpp.canonical context authz) authz.signature
      if ¬ valid then
        .error (integrity "authz_signature_invalid" "Authz v3 response signature is invalid")
      else .ok (J.get carrier (ascii "data"), authz)
  | _, _ => .error (protocol (ascii "Authz v3 carrier is incomplete"))

/-- `verifyAuthz`: the data, which may be `null`, and the session after the call.  `note`
is the outcome of `noteVerifiedInteraction`. -/
def verifyAuthz (crypto : Crypto) (note : Except Thrown Unit) (context : AuthzContext)
    (session : Session) (response : ProtocolResponse) :
    Except Thrown (Option J.Node) × Session :=
  match verifiedCarrier J crypto context response with
  | .error e => (.error e, session)
  | .ok (data, authz) =>
      let session := if isBlank authz.session then session else ⟨authz.session, authz.expiresAt⟩
      match note with
      | .error e => (.error e, session)
      | .ok () => (.ok data, session)

end Verify

/-- The hashed slice. -/
def hashedSlice (J : Jackson) (body : Bytes) : Option Bytes :=
  match rawMember J body (ascii "data") with
  | .ok slice => slice
  | .error _ => none

/-- `readTree`, without the message of a failure. -/
def tree (J : Jackson) (bytes : Bytes) : Option J.Node := (J.readTree bytes).toOption

/-- The first and the last `data` member that Jackson sees have one value. -/
def SameData (J : Jackson) (body : Bytes) : Prop :=
  ∃ root members, J.readTree body = .ok root ∧ J.Layout body root members ∧
    SameMember (ascii "data") members

theorem checkEnvelope_digest {crypto : Crypto} {context : AuthzContext} {rawData : Bytes}
    {authz : AuthzEnvelope} {key : ProtocolKey}
    (h : checkEnvelope crypto context rawData authz = .ok key) :
    lower authz.dataSha256 = crypto.sha256Hex rawData ∧
      context.ring.retained.find? (fun key => key.keyId = authz.keyId) = some key := by
  unfold checkEnvelope at h
  obtain ⟨-, h⟩ := guard_eq_ok.mp h
  obtain ⟨hdata, h⟩ := guard_eq_ok.mp h
  split at h
  · cases h
  · rename_i found hfound
    obtain rfl := Except.ok.inj h
    exact ⟨equalsIgnoreCase_hex.mp (not_not.mp hdata), by rw [← hfound, findKey_eq]⟩

/-- What is known of a response that `verifyAuthz` accepted. -/
structure Verified (J : Jackson) (crypto : Crypto) (context : AuthzContext)
    (response : ProtocolResponse) (data : Option J.Node) (authz : AuthzEnvelope)
    (carrier : J.Node) (rawData : Bytes) (key : ProtocolKey) : Prop where
  sliced : rawMember J response.body (ascii "data") = .ok (some rawData)
  parsed : J.readTree response.body = .ok carrier
  member : J.get carrier (ascii "data") = data
  checked : checkEnvelope crypto context rawData authz = .ok key
  signed : crypto.ed25519Verify key.publicKey (Cpp.canonical context authz) authz.signature =
    .ok true

/-- **Every check was made.** -/
theorem verifiedCarrier_ok {J : Jackson} {crypto : Crypto} {context : AuthzContext}
    {response : ProtocolResponse} {data : Option J.Node} {authz : AuthzEnvelope}
    (h : verifiedCarrier J crypto context response = .ok (data, authz)) :
    ∃ carrier rawData key, Verified J crypto context response data authz carrier rawData key := by
  unfold verifiedCarrier at h
  obtain ⟨⟨⟩, -, h⟩ := bind_eq_ok.mp h
  obtain ⟨rawData, hraw, h⟩ := bind_eq_ok.mp h
  obtain ⟨carrier, hcarrier, h⟩ := bind_eq_ok.mp h
  have hparsed : J.readTree response.body = .ok carrier := by
    unfold parse at hcarrier
    split at hcarrier
    · rename_i node hnode
      rw [hnode, Except.ok.inj hcarrier]
    · cases hcarrier
  split at h
  · rename_i slice node _ hnode
    obtain ⟨authz', -, h⟩ := bind_eq_ok.mp h
    obtain ⟨key, hkey, h⟩ := bind_eq_ok.mp h
    obtain ⟨valid, hvalid, h⟩ := bind_eq_ok.mp h
    obtain ⟨hv, h⟩ := guard_eq_ok.mp h
    obtain ⟨rfl, rfl⟩ := Prod.mk.inj (Except.ok.inj h)
    obtain rfl : valid = true := by simpa using hv
    refine ⟨carrier, slice, key, hraw, hparsed, rfl, hkey, ?_⟩
    unfold verifyEd25519 at hvalid
    split at hvalid
    · rename_i valid hcrypto
      rw [hcrypto, Except.ok.inj hvalid]
    · cases hvalid
  · cases h

/-- A slice is cut out only of a document whose first field is located. -/
theorem rawMember_located {J : Jackson} {document member slice : Bytes}
    (h : rawMember J document member = .ok (some slice)) :
    ∃ name offset fields ending,
      J.tokens document = .object (⟨name, some ((offset : Nat) : Int)⟩ :: fields) ending := by
  unfold rawMember at h
  split at h
  · cases h
  · cases h
  · rename_i fields ending htokens
    cases fields with
    | nil => cases ending <;> cases h
    | cons field fields =>
      obtain ⟨name, location⟩ := field
      cases location with
      | none => cases h
      | some offset =>
        by_cases hneg : offset < 0
        · simp only [rawFields, if_pos hneg] at h
          cases h
        · refine ⟨name, offset.toNat, fields, ending, ?_⟩
          rw [htokens, Int.toNat_of_nonneg (by omega)]

theorem verifyAuthz_ok {J : Jackson} {crypto : Crypto} {note : Except Thrown Unit}
    {context : AuthzContext} {session : Session} {response : ProtocolResponse}
    {data : Option J.Node}
    (h : (verifyAuthz J crypto note context session response).1 = .ok data) :
    ∃ authz, verifiedCarrier J crypto context response = .ok (data, authz) := by
  unfold verifyAuthz at h
  split at h
  · cases h
  · rename_i data' authz hcarrier
    cases note with
    | error e => cases h
    | ok u =>
      obtain rfl := Except.ok.inj h
      exact ⟨authz, hcarrier⟩

/-- **The data is bound to the signature exactly when the first and the last `data`
member have one value.** -/
theorem verifyAuthz_bound_iff {J : Jackson} (hJ : J.Lawful) {crypto : Crypto}
    {note : Except Thrown Unit} {context : AuthzContext} {session : Session}
    {response : ProtocolResponse} {data : Option J.Node}
    (h : (verifyAuthz J crypto note context session response).1 = .ok data) :
    (∃ node, data = some node ∧ DataBound crypto context response.body
      (hashedSlice J response.body) (tree J) node) ↔ SameData J response.body := by
  obtain ⟨authz, hcarrier⟩ := verifyAuthz_ok h
  obtain ⟨carrier, rawData, key, hv⟩ := verifiedCarrier_ok hcarrier
  obtain ⟨name, offset, fields, ending, htokens⟩ := rawMember_located hv.sliced
  have hashed : hashedSlice J response.body = some rawData := by
    rw [hashedSlice, hv.sliced]
  -- what is hashed is the first member of that name, what is given out the last
  have found : ∀ {root members}, J.readTree response.body = .ok root →
      J.Layout response.body root members →
      ∃ first, (Json.valuesOf (ascii "data") members).head? = some first ∧
        tree J rawData = some first ∧ rawData <:+: response.body ∧
        (Json.valuesOf (ascii "data") members).getLast? = data := by
    rintro root members hroot ⟨⟨fields', ps, rest, htokens', hshows⟩, hget⟩
    obtain rfl : root = carrier := Except.ok.inj (hroot.symm.trans hv.parsed)
    rcases rawFields_shows hshows (ascii "data") with
      ⟨slice, first, hfirst, hread, hinfix, hslice⟩ | ⟨-, hnone⟩
    · have hraw := hv.sliced
      rw [rawMember, htokens'] at hraw
      obtain rfl : rawData = slice := by
        have := hraw.symm.trans hslice
        exact Option.some.inj (Except.ok.inj this)
      refine ⟨first, hfirst, ?_, hinfix, ?_⟩
      · rw [tree, hread]
        rfl
      · rw [← hget, hv.member]
    · have hraw := hv.sliced
      rw [rawMember, htokens'] at hraw
      cases hraw.symm.trans hnone
  constructor
  · rintro ⟨node, rfl, raw, -, -, hraw, -, -, -, -, hread⟩
    obtain ⟨members, hlayout⟩ := hJ.layout hv.parsed htokens
    obtain ⟨first, hfirst, htree, -, hlast⟩ := found hv.parsed hlayout
    obtain rfl : raw = rawData := Option.some.inj (hraw.symm.trans hashed)
    refine ⟨carrier, members, hv.parsed, hlayout, ?_⟩
    rw [SameMember, hfirst, hlast, ← htree, hread]
  · rintro ⟨root, members, hroot, hlayout, hsame⟩
    obtain ⟨first, hfirst, htree, hinfix, hlast⟩ := found hroot hlayout
    obtain ⟨hdigest, hkey⟩ := checkEnvelope_digest hv.checked
    rw [SameMember, hfirst, hlast] at hsame
    exact ⟨first, hsame.symm, rawData, authz, key, hashed, hinfix, hdigest, hkey, hv.signed, htree⟩

/-! ## A reader that satisfies the assumptions

The strict parser of the C++ SDK, with the offsets of the values it reads. -/

/-- The fields of an object from a key that was read on, with the offsets of their
values. -/
def locate (document : Bytes) : Nat → Bytes → Bytes → Option (List Field)
  | 0, _, _ => none
  | fuel + 1, key, s =>
      match Nlohmann.scan false s with
      | some (.nameSeparator, rest) =>
          let field : Field := ⟨key, some ((document.length - rest.length : Nat) : Int)⟩
          (Nlohmann.value false fuel rest).bind fun (_, after) =>
            match Nlohmann.scan false after with
            | some (.valueSeparator, after) =>
                match Nlohmann.scan false after with
                | some (.string next, after) => (locate document fuel next after).map (field :: ·)
                | _ => none
            | some (.endObject, _) => some [field]
            | _ => none
      | _ => none

/-- The tokens of a document. -/
def strictTokens (document : Bytes) : Tokens :=
  match Nlohmann.scan false document with
  | some (.beginObject, rest) =>
      match Nlohmann.scan false rest with
      | some (.endObject, _) => .object [] .endObject
      | some (.string key, rest) =>
          match locate document (document.length + 1) key rest with
          | some fields => .object fields .endObject
          | none => .broken
      | _ => .broken
  | none => .broken
  | _ => .notObject

/-- A Jackson that reads JSON without comments and without anything after it. -/
def strictJackson : Jackson where
  Node := Json
  readTree bytes :=
    match Nlohmann.parse false bytes with
    | some v => .ok v
    | none => .error []
  get := Json.find
  isNull
    | .null => true
    | _ => false
  isObject := Cpp.isObject
  textual
    | .string value => some value
    | _ => none
  integral
    | .unsigned n => some (Int.bmod n (2 ^ 64))
    | .integer n => some n
    | _ => none
  boolean
    | .boolean b => some b
    | _ => none
  intValue
    | .unsigned n => Int.bmod n (2 ^ 32)
    | .integer n => Int.bmod n (2 ^ 32)
    | .float x => Int.bmod x.truncate (2 ^ 32)
    | _ => 0
  tokens := strictTokens

theorem strictJackson_readTree {bytes : Bytes} {v : Json} :
    strictJackson.readTree bytes = .ok v ↔ Nlohmann.parse false bytes = some v := by
  unfold strictJackson
  dsimp only
  cases Nlohmann.parse false bytes with
  | none => simp
  | some u => simp

section Strict
open JsonText Nlohmann

theorem scan_text {w t : Bytes} {b : UInt8} (hw : Spaces w) (hb : isSpace b = false)
    (hslash : b ≠ 0x2f) : scan false (w ++ b :: t) = scanToken (b :: t) := by
  rw [scan, skipGap_text _ _ hw hb hslash, Option.bind_some]

/-- The offset of a suffix of the document points at it. -/
theorem drop_suffix {document s : Bytes} (h : s <:+ document) :
    document.drop (document.length - s.length) = s :=
  (List.suffix_iff_eq_drop.mp h).symm

/-- One member: its field is located, and the walk goes on after its value. -/
theorem locate_step {document rest key : Bytes} {ps : List Piece} {p : Piece} {m : Bytes × Json}
    (h : ReadsMember p m) {fuel : Nat} (hfuel : p.value.length < fuel) :
    locate document (fuel + 1) key (p.tail ++ renderRest ps rest) =
      match scan false (p.trail ++ renderRest ps rest) with
      | some (.valueSeparator, after) =>
          match scan false after with
          | some (.string next, after) =>
              (locate document fuel next after).map
                (⟨key, some ((document.length - (p.beforeValue ++ (p.value ++
                  (p.trail ++ renderRest ps rest))).length : Nat) : Int)⟩ :: ·)
          | _ => none
      | some (.endObject, _) =>
          some [⟨key, some ((document.length - (p.beforeValue ++ (p.value ++
            (p.trail ++ renderRest ps rest))).length : Nat) : Int)⟩]
      | _ => none := by
  have hcolon : scan false (p.tail ++ renderRest ps rest) =
      some (.nameSeparator, p.beforeValue ++ (p.value ++ (p.trail ++ renderRest ps rest))) := by
    rw [Piece.tail, List.append_assoc, List.cons_append, scan_text h.afterKey rfl (by decide)]
    simp only [List.append_assoc]
    rfl
  have hvalue := h.value.again false fuel p.beforeValue (p.trail ++ renderRest ps rest)
    h.beforeValue (.space h.trail (follow_renderRest ps rest)) hfuel
  rw [locate, hcolon]
  dsimp only
  rw [hvalue, Option.bind_some]

/-- The field of a member shows it. -/
theorem shows_cons {document rest : Bytes} {ps : List Piece} {p : Piece} {m : Bytes × Json}
    {fields : List Field} {ms : List (Bytes × Json)} (h : ReadsMember p m)
    (hsuffix : p.tail ++ renderRest ps rest <:+ document)
    (htail : strictJackson.Shows document rest fields ps ms) :
    strictJackson.Shows document rest
      (⟨m.1, some ((document.length - (p.beforeValue ++ (p.value ++
        (p.trail ++ renderRest ps rest))).length : Nat) : Int)⟩ :: fields) (p :: ps) (m :: ms) := by
  have hvalue : p.beforeValue ++ (p.value ++ (p.trail ++ renderRest ps rest)) <:+ document := by
    refine List.IsSuffix.trans ⟨p.afterKey ++ [0x3a], ?_⟩ hsuffix
    simp only [Piece.tail, List.append_assoc, List.cons_append, List.nil_append]
  refine .cons h.wellFormed (fun b hb => ?_) (drop_suffix hvalue)
    (strictJackson_readTree.mpr (h.value.parse false)) htail
  rw [isGap, h.beforeValue b hb, Bool.true_or]

/-- **The fields that are located show the members of the object.** -/
theorem locate_shows {document rest : Bytes} {ps : List Piece} {p : Piece} {m : Bytes × Json}
    {ms : List (Bytes × Json)} (h : List.Forall₂ ReadsMember (p :: ps) (m :: ms)) :
    ∀ fuel, (p.tail ++ renderRest ps rest).length < fuel →
      p.tail ++ renderRest ps rest <:+ document →
      ∃ fields, locate document fuel m.1 (p.tail ++ renderRest ps rest) = some fields ∧
        strictJackson.Shows document rest fields (p :: ps) (m :: ms) := by
  induction ps generalizing p m ms with
  | nil =>
    intro fuel hfuel hsuffix
    obtain ⟨fuel, rfl⟩ := Nat.exists_eq_succ_of_ne_zero (Nat.ne_of_gt (Nat.zero_lt_of_lt hfuel))
    cases h with
    | cons hread htail =>
      cases htail
      simp only [Piece.tail, List.length_append, List.length_cons] at hfuel
      rw [Nat.succ_eq_add_one, locate_step hread (by omega)]
      rw [renderRest, scan_text hread.trail rfl (by decide)]
      exact ⟨_, rfl, shows_cons hread hsuffix .nil⟩
  | cons q ps ih =>
    intro fuel hfuel hsuffix
    obtain ⟨fuel, rfl⟩ := Nat.exists_eq_succ_of_ne_zero (Nat.ne_of_gt (Nat.zero_lt_of_lt hfuel))
    cases h with
    | cons hread htail =>
      obtain ⟨n, ns, rfl⟩ : ∃ n ns, ms = n :: ns := by
        cases htail with
        | cons _ _ => exact ⟨_, _, rfl⟩
      have hq : q.tail ++ renderRest ps rest <:+ p.tail ++ renderRest (q :: ps) rest := by
        refine ⟨p.tail ++ 0x2c :: (q.lead ++ q.key), ?_⟩
        simp only [renderRest, Piece.text, List.append_assoc, List.cons_append]
      have hnext : ReadsMember q n := by
        cases htail with
        | cons hq _ => exact hq
      simp only [Piece.tail, renderRest, Piece.text, List.length_append, List.length_cons] at hfuel
      obtain ⟨fields, hlocate, hshows⟩ := ih htail fuel
        (by simp only [Piece.tail, List.length_append, List.length_cons]; omega) (hq.trans hsuffix)
      rw [Nat.succ_eq_add_one, locate_step hread (by omega)]
      -- behind the value stands the comma, and then the next name
      have hcomma : scan false (p.trail ++ renderRest (q :: ps) rest) =
          some (.valueSeparator, q.lead ++ (q.key ++ (q.tail ++ renderRest ps rest))) := by
        rw [renderRest, scan_text hread.trail rfl (by decide)]
        simp only [Piece.text, List.append_assoc]
        rfl
      rw [hcomma]
      dsimp only
      rw [hnext.key.again false q.lead _ hnext.lead]
      dsimp only
      rw [hlocate]
      exact ⟨_, rfl, shows_cons hread hsuffix hshows⟩

/-- A document that is laid out as an object is so for the strict reader. -/
theorem strictJackson_layout {document : Bytes} {ms : List (Bytes × Json)}
    (h : Nlohmann.Layout document ms) :
    strictJackson.Layout document (.object (Json.fromMembers ms)) ms := by
  obtain ⟨w, p, ps, rest, hdoc, hw, hforall⟩ := h
  obtain ⟨m, ms, rfl⟩ : ∃ m ms', ms = m :: ms' := by
    cases hforall with
    | cons _ _ => exact ⟨_, _, rfl⟩
  have hread : ReadsMember p m := by
    cases hforall with
    | cons hread _ => exact hread
  have hopen : scan false document = some (.beginObject, p.text ++ renderRest ps rest) := by
    rw [hdoc, scan_text hw rfl (by decide)]
    rfl
  have hfirst : scan false (p.text ++ renderRest ps rest) =
      some (.string m.1, p.tail ++ renderRest ps rest) := by
    rw [Piece.text, List.append_assoc, List.append_assoc,
      hread.key.again false p.lead _ hread.lead]
  have hsuffix : p.tail ++ renderRest ps rest <:+ document := by
    refine ⟨w ++ 0x7b :: (p.lead ++ p.key), ?_⟩
    rw [hdoc]
    simp only [Piece.text, List.append_assoc, List.cons_append]
  obtain ⟨located, hlocate, hshows⟩ := locate_shows hforall (document.length + 1)
    (Nat.lt_succ_of_le hsuffix.length_le) hsuffix
  refine ⟨⟨located, p :: ps, rest, ?_, hshows⟩, fun key => ?_⟩
  · change strictTokens document = _
    simp only [strictTokens, hopen, hfirst, hlocate]
  · exact Json.lookup_fromMembers key (m :: ms)

/-- **The strict reader is lawful.** -/
theorem strictJackson_lawful : strictJackson.Lawful where
  layout := by
    intro document root name offset fields ending hroot htokens
    have hparse := strictJackson_readTree.mp hroot
    change strictTokens document = _ at htokens
    unfold strictTokens at htokens
    split at htokens
    · rename_i r₁ hopen
      have hbom : skipBom document = some document := by
        obtain ⟨w, rfl, hw, -⟩ := scan_openBrace hopen
        cases w with
        | nil => exact skipBom_of_head (by decide)
        | cons b w =>
          refine skipBom_of_head ?_
          rintro rfl
          exact absurd (hw 0xef (List.mem_cons_self ..)) (by decide)
      split at htokens
      · cases htokens
      · rename_i key r₂ hfirst
        obtain ⟨ms, -, rfl, hlayout⟩ := parse_members hopen hfirst hbom hparse
        exact ⟨ms, strictJackson_layout hlayout⟩
      · cases htokens
    · cases htokens
    · cases htokens

/-- For the strict reader the condition is that of the C++ SDK on a body without comments. -/
theorem sameData_of_plain {body : Bytes} {v x : Json} {key : Bytes}
    (hbom : skipBom body = some body) (h : Nlohmann.parse false body = some v)
    (hx : v.find key = some x) (hsame : Cpp.PlainSameData body) : SameData strictJackson body := by
  obtain ⟨ms, htop, rfl, hlayout⟩ := parse_object hbom h hx
  obtain ⟨ms', htop', hms⟩ := hsame
  obtain rfl : ms' = ms := Option.some.inj (htop'.symm.trans htop)
  exact ⟨_, ms', strictJackson_readTree.mpr h, strictJackson_layout hlayout, hms⟩

end Strict

end Java

/-! ## Both SDKs -/

/-- **The returned data is covered by the signature exactly when the first and the last
`data` member of the response have one value**, for every body: in C++ the first is that of
the body with comments as text, and the last that of the body without them. -/
theorem data_bound_iff (crypto : Crypto) (context : AuthzContext) (session : Session)
    (response : ProtocolResponse) :
    (∀ what note data, (Cpp.verifyAuthz crypto what note context session response).1 = .ok data →
      (DataBound crypto context response.body
        (Cpp.extractJsonMemberRaw response.body (ascii "data")) (Nlohmann.parse true) data ↔
          Cpp.SameData response.body)) ∧
    (∀ (J : Java.Jackson) note data, J.Lawful →
      (Java.verifyAuthz J crypto note context session response).1 = .ok data →
      ((∃ node, data = some node ∧ DataBound crypto context response.body
        (Java.hashedSlice J response.body) (Java.tree J) node) ↔
          Java.SameData J response.body)) :=
  ⟨fun _ _ _ h => Cpp.verifyAuthz_bound_iff h,
    fun _ _ _ hJ h => Java.verifyAuthz_bound_iff hJ h⟩

/-! The signed envelope for the data `1`, in three bodies. -/

/-- The Java client takes the response and returns this number. -/
def Java.returns (members : Bytes) (n : Nat) : Bool :=
  match (verifyAuthz strictJackson signedCrypto (.ok ()) signedContext ⟨[], 0⟩
    (signedResponse members)).1 with
  | .ok (some v) => isUnsigned n v
  | _ => false

theorem Java.of_returns {members : Bytes} {n : Nat} (h : returns members n = true) :
    (verifyAuthz strictJackson signedCrypto (.ok ()) signedContext ⟨[], 0⟩
      (signedResponse members)).1 = .ok (some (Json.unsigned n)) := by
  unfold returns at h
  split at h
  · rename_i v hv
    rw [hv, eq_of_isUnsigned h]
  · cases h

/-- One `data` member is the first and the last. -/
theorem plainSameData_of_length {body : Bytes}
    (h : (Nlohmann.topMembers false body).map
      (fun members => (Json.valuesOf (ascii "data") members).length) = some 1) :
    Cpp.PlainSameData body := by
  obtain ⟨members, htop, hlength⟩ := Option.map_eq_some_iff.mp h
  obtain ⟨v, hv⟩ := List.length_eq_one_iff.mp hlength
  exact ⟨members, htop, by rw [SameMember, hv]; rfl⟩

/-- A response with one `data` member: what is returned is what was signed. -/
theorem data_bound_single :
    DataBound signedCrypto signedContext (signedResponse (ascii "\"data\":1")).body
      (Cpp.extractJsonMemberRaw (signedResponse (ascii "\"data\":1")).body (ascii "data"))
      (Nlohmann.parse true) (Json.unsigned 1) ∧
    ∃ node, some (Json.unsigned 1) = some node ∧
      DataBound signedCrypto signedContext (signedResponse (ascii "\"data\":1")).body
        (Java.hashedSlice Java.strictJackson (signedResponse (ascii "\"data\":1")).body)
        (Java.tree Java.strictJackson) node := by
  have hdata : ((Nlohmann.parse false (signedResponse (ascii "\"data\":1")).body).bind
      (·.find (ascii "data"))).isSome = true := by decide +kernel
  obtain ⟨x, hx⟩ := Option.isSome_iff_exists.mp hdata
  obtain ⟨v, hv, hx⟩ := Option.bind_eq_some_iff.mp hx
  have hsame : Cpp.PlainSameData (signedResponse (ascii "\"data\":1")).body :=
    plainSameData_of_length (by decide +kernel)
  have main := data_bound_iff signedCrypto signedContext ⟨[], 0⟩
    (signedResponse (ascii "\"data\":1"))
  constructor
  · exact (main.1 id (.ok ()) _ (Cpp.of_returns (by decide +kernel))).mpr
      ((Cpp.sameData_iff_plain (by decide +kernel) hv hx).mpr hsame)
  · exact (main.2 Java.strictJackson (.ok ()) _ Java.strictJackson_lawful
      (Java.of_returns (by decide +kernel))).mpr
        (Java.sameData_of_plain (by decide +kernel) hv hx hsame)

/-- The slice that is hashed says `1`, and the data is `2`. -/
theorem not_dataBound {crypto : Crypto} {context : AuthzContext} {body : Bytes}
    {hashed : Option Bytes} {read : Bytes → Option Json} (hashed_eq : hashed = some (ascii "1"))
    (read_eq : read (ascii "1") = some (.unsigned 1)) :
    ¬ DataBound crypto context body hashed read (Json.unsigned 2) := by
  rintro ⟨raw, -, -, hraw, -, -, -, -, hread⟩
  obtain rfl : raw = ascii "1" := Option.some.inj (hraw.symm.trans hashed_eq)
  cases read_eq.symm.trans hread

/-- A second `data` member that nobody signed is returned, in both SDKs; and in C++ a
signed one that stands in a comment is hashed for another one that is returned. -/
theorem data_unbound :
    (∃ data, (Cpp.verifyAuthz signedCrypto id (.ok ()) signedContext ⟨[], 0⟩
      (signedResponse (ascii "\"data\":1,\"data\":2"))).1 = .ok data ∧
      ¬ DataBound signedCrypto signedContext (signedResponse (ascii "\"data\":1,\"data\":2")).body
        (Cpp.extractJsonMemberRaw (signedResponse (ascii "\"data\":1,\"data\":2")).body
          (ascii "data")) (Nlohmann.parse true) data) ∧
    (∃ data, (Cpp.verifyAuthz signedCrypto id (.ok ()) signedContext ⟨[], 0⟩
      (signedResponse (ascii "\"n\":/*,\"data\":1,\"x\":*/0,\"data\":2"))).1 = .ok data ∧
      ¬ DataBound signedCrypto signedContext
        (signedResponse (ascii "\"n\":/*,\"data\":1,\"x\":*/0,\"data\":2")).body
        (Cpp.extractJsonMemberRaw
          (signedResponse (ascii "\"n\":/*,\"data\":1,\"x\":*/0,\"data\":2")).body
          (ascii "data")) (Nlohmann.parse true) data) ∧
    (∃ data : Json, (Java.verifyAuthz Java.strictJackson signedCrypto (.ok ()) signedContext ⟨[], 0⟩
      (signedResponse (ascii "\"data\":1,\"data\":2"))).1 = .ok (some data) ∧
      ¬ DataBound signedCrypto signedContext (signedResponse (ascii "\"data\":1,\"data\":2")).body
        (Java.hashedSlice Java.strictJackson
          (signedResponse (ascii "\"data\":1,\"data\":2")).body)
        (Java.tree Java.strictJackson) data) := by
  refine ⟨⟨_, Cpp.of_returns (by decide +kernel), not_dataBound (by decide +kernel) rfl⟩,
    ⟨_, Cpp.of_returns (by decide +kernel), not_dataBound (by decide +kernel) rfl⟩,
    ⟨_, Java.of_returns (by decide +kernel), not_dataBound (by decide +kernel) rfl⟩⟩

end SwmSdk
