import SwmSdk.FieldLines
import SwmSdk.KeyRing
import SwmSdk.Types

/-! # The Authz v3 envelope

A signed response carries its data and an envelope: who may use the data, for how
long, the digest of the data and the key that signed.  `checkEnvelope` is every
check that is not the signature; the signature itself covers the canonical text,
one `name:value` line for each field.

The values are not escaped.  `reason`, `session` and `key_id` are free text, so a
value may itself spell the lines that follow it, and one canonical text then
belongs to two envelopes.  The line boundaries can be recovered, and the text
determines the envelope, as soon as two of the three values do not spell the line
boundary they are delimited by (`Delimits`).
-/
namespace SwmSdk
open ByteText FieldLines

/-- The fields of `authz`. -/
structure AuthzEnvelope where
  version : Bytes
  decision : Bytes
  releaseId : Bytes
  deviceId : Bytes
  nonce : Bytes
  dataSha256 : Bytes
  keyId : Bytes
  reason : Bytes
  session : Bytes
  signature : Bytes
  issuedAt : Int
  expiresAt : Int
  deriving DecidableEq, Repr

/-- What a check of an envelope reads of the client: its options, its device, the
nonce it sent, the trusted time and the key ring. -/
structure AuthzContext where
  appId : Bytes
  releaseId : Bytes
  deviceId : Bytes
  requestNonce : Bytes
  now : Int
  ring : KeyRing

namespace AuthzEnvelope

/-- The identity and lifetime test that every SDK makes. -/
def Current (context : AuthzContext) (authz : AuthzEnvelope) : Prop :=
  authz.version = ascii "authz_v3" ∧ authz.decision = ascii "allow" ∧
    authz.releaseId = context.releaseId ∧ authz.deviceId = context.deviceId ∧
    authz.nonce = context.requestNonce ∧ ¬ authz.issuedAt ≤ 0 ∧
    ¬ authz.expiresAt ≤ authz.issuedAt ∧ ¬ authz.expiresAt - authz.issuedAt > 900 ∧
    ¬ authz.issuedAt > context.now + 120 ∧ ¬ authz.expiresAt < context.now - 120

instance (context : AuthzContext) (authz : AuthzEnvelope) : Decidable (authz.Current context) := by
  unfold Current
  infer_instance

end AuthzEnvelope

/-! ## C++ -/

namespace Cpp

/-- What `verify_authz` throws for an envelope that is not for this client or not from a known key.
-/
def authzInvalid (message : String) : Error where
  kind := .unauthorized
  statusCode := 403
  serviceCode := ascii "authz_invalid"
  message := ascii message

/-- What `verify_authz` throws for data of another digest. -/
def authzDataMismatch : Error where
  kind := .integrity
  statusCode := 403
  serviceCode := ascii "authz_data_mismatch"
  message := ascii "Authz v3 response data hash is invalid"

/-- The checks of `verify_authz` before the signature, in their order. -/
def checkEnvelope (crypto : Crypto) (context : AuthzContext) (rawData : Bytes)
    (authz : AuthzEnvelope) : Except Error ProtocolKey :=
  if ¬ authz.Current context then
    .error (authzInvalid "Authz v3 response identity or lifetime is invalid")
  else if lower (crypto.sha256Hex rawData) ≠ lower authz.dataSha256 then
    .error authzDataMismatch
  else
    match findKey context.ring authz.keyId with
    | none => .error (authzInvalid "Authz v3 response key is unknown")
    | some key => .ok key

/-- The signed text. -/
def canonical (context : AuthzContext) (authz : AuthzEnvelope) : Bytes :=
  ascii "authz_v3\napp_id:" ++ context.appId ++ ascii "\nrelease_id:" ++ authz.releaseId ++
    ascii "\ndevice_id:" ++ authz.deviceId ++ ascii "\nnonce:" ++ authz.nonce ++
    ascii "\ndecision:" ++ authz.decision ++ ascii "\nreason:" ++ authz.reason ++
    ascii "\ndata_sha256:" ++ authz.dataSha256 ++ ascii "\nsession:" ++ authz.session ++
    ascii "\nissued_at:" ++ decimal authz.issuedAt ++
    ascii "\nexpires_at:" ++ decimal authz.expiresAt ++ ascii "\nkey_id:" ++ authz.keyId

end Cpp

/-! ## Go -/

namespace Go

/-- `newError`: an error of the client itself, with no response status. -/
def newError (kind : ErrorKind) (code message : String) : Error where
  kind := kind
  statusCode := 0
  serviceCode := ascii code
  message := ascii message

/-- One rune of `strings.EqualFold` against ASCII: letters fold to lower case,
and the Kelvin sign and the long s fold to the letters they look like. -/
def fold : Bytes → Bytes
  | 0xe2 :: 0x84 :: 0xaa :: rest => 0x6b :: fold rest
  | 0xc5 :: 0xbf :: rest => 0x73 :: fold rest
  | b :: rest => lowerByte b :: fold rest
  | [] => []

/-- `strings.EqualFold`, for a text that is compared with an ASCII one. -/
def equalFold (value asciiText : Bytes) : Prop := fold value = fold asciiText

instance (value asciiText : Bytes) : Decidable (equalFold value asciiText) := by
  unfold equalFold
  infer_instance

/-- The checks of `verifyAuthz` before the signature.  The key is looked up before
the data is hashed, and an empty key id is refused outright. -/
def checkEnvelope (crypto : Crypto) (context : AuthzContext) (data : Bytes)
    (envelope : AuthzEnvelope) : Except Error ProtocolKey :=
  if ¬ envelope.Current context ∨ envelope.keyId = [] then
    .error (newError .unauthorized "authz_invalid"
      "Authz v3 response identity or lifetime is invalid")
  else
    match findKey context.ring envelope.keyId with
    | none => .error (newError .unauthorized "authz_invalid" "Authz v3 response key is unknown")
    | some key =>
        if ¬ equalFold envelope.dataSha256 (crypto.sha256Hex data) then
          .error (newError .integrity "authz_data_mismatch"
            "Authz v3 response data hash is invalid")
        else .ok key

/-- `strings.Join`. -/
def join (separator : Bytes) : List Bytes → Bytes
  | [] => []
  | [line] => line
  | line :: lines => line ++ separator ++ join separator lines

theorem join_singleton (separator line : Bytes) : join separator [line] = line := rfl

theorem join_cons_cons (separator line next : Bytes) (lines : List Bytes) :
    join separator (line :: next :: lines) = line ++ separator ++ join separator (next :: lines) :=
  rfl

/-- The signed text, joined from its lines. -/
def canonical (context : AuthzContext) (envelope : AuthzEnvelope) : Bytes :=
  join [newline] [
    ascii "authz_v3",
    ascii "app_id:" ++ context.appId,
    ascii "release_id:" ++ envelope.releaseId,
    ascii "device_id:" ++ envelope.deviceId,
    ascii "nonce:" ++ envelope.nonce,
    ascii "decision:" ++ envelope.decision,
    ascii "reason:" ++ envelope.reason,
    ascii "data_sha256:" ++ envelope.dataSha256,
    ascii "session:" ++ envelope.session,
    ascii "issued_at:" ++ decimal envelope.issuedAt,
    ascii "expires_at:" ++ decimal envelope.expiresAt,
    ascii "key_id:" ++ envelope.keyId]

/-- **Both SDKs sign the same text.** -/
theorem canonical_eq (context : AuthzContext) (envelope : AuthzEnvelope) :
    canonical context envelope = Cpp.canonical context envelope := by
  have app : ascii "authz_v3\napp_id:" = ascii "authz_v3" ++ newline :: ascii "app_id:" := rfl
  have release : ascii "\nrelease_id:" = newline :: ascii "release_id:" := rfl
  have device : ascii "\ndevice_id:" = newline :: ascii "device_id:" := rfl
  have nonce : ascii "\nnonce:" = newline :: ascii "nonce:" := rfl
  have decision : ascii "\ndecision:" = newline :: ascii "decision:" := rfl
  have reason : ascii "\nreason:" = newline :: ascii "reason:" := rfl
  have data : ascii "\ndata_sha256:" = newline :: ascii "data_sha256:" := rfl
  have session : ascii "\nsession:" = newline :: ascii "session:" := rfl
  have issued : ascii "\nissued_at:" = newline :: ascii "issued_at:" := rfl
  have expires : ascii "\nexpires_at:" = newline :: ascii "expires_at:" := rfl
  have key : ascii "\nkey_id:" = newline :: ascii "key_id:" := rfl
  unfold canonical Cpp.canonical
  simp only [join_singleton, join_cons_cons, app, release, device, nonce, decision, reason, data,
    session, issued, expires, key, List.append_assoc, List.cons_append, List.nil_append]

end Go

/-! ## Reading the envelope back from its text -/

namespace AuthzEnvelope

def dataLine : Separator UInt8 := ⟨newline, ascii "data_sha256:", by decide⟩
def sessionLine : Separator UInt8 := ⟨newline, ascii "session:", by decide⟩
def issuedLine : Separator UInt8 := ⟨newline, ascii "issued_at:", by decide⟩
def expiresLine : Separator UInt8 := ⟨newline, ascii "expires_at:", by decide⟩
def keyLine : Separator UInt8 := ⟨newline, ascii "key_id:", by decide⟩

/-- The part of the canonical text that is the same for all envelopes that are
current in one context. -/
def head (context : AuthzContext) (authz : AuthzEnvelope) : Bytes :=
  ascii "authz_v3\napp_id:" ++ context.appId ++ ascii "\nrelease_id:" ++ authz.releaseId ++
    ascii "\ndevice_id:" ++ authz.deviceId ++ ascii "\nnonce:" ++ authz.nonce ++
    ascii "\ndecision:" ++ authz.decision ++ ascii "\nreason:"

/-- The rest of the canonical text, from the reason on. -/
def body (authz : AuthzEnvelope) : Bytes :=
  authz.reason ++ (dataLine.text ++ (authz.dataSha256 ++ (sessionLine.text ++ (authz.session ++
    (issuedLine.text ++ (decimal authz.issuedAt ++ (expiresLine.text ++
      (decimal authz.expiresAt ++ (keyLine.text ++ authz.keyId)))))))))

theorem canonical_split (context : AuthzContext) (authz : AuthzEnvelope) :
    Cpp.canonical context authz = head context authz ++ body authz := by
  have data : ascii "\ndata_sha256:" = dataLine.text := rfl
  have session : ascii "\nsession:" = sessionLine.text := rfl
  have issued : ascii "\nissued_at:" = issuedLine.text := rfl
  have expires : ascii "\nexpires_at:" = expiresLine.text := rfl
  have key : ascii "\nkey_id:" = keyLine.text := rfl
  unfold Cpp.canonical head body
  simp only [data, session, issued, expires, key, List.append_assoc]

theorem head_eq {context : AuthzContext} {first second : AuthzEnvelope}
    (h₁ : first.Current context) (h₂ : second.Current context) :
    head context first = head context second := by
  obtain ⟨-, hd₁, hr₁, hdev₁, hn₁, -⟩ := h₁
  obtain ⟨-, hd₂, hr₂, hdev₂, hn₂, -⟩ := h₂
  unfold head
  rw [hr₁, hr₂, hdev₁, hdev₂, hn₁, hn₂, hd₁, hd₂]

/-- The two envelopes agree on everything the signature is there to bind. -/
structure Agrees (first second : AuthzEnvelope) : Prop where
  reason : first.reason = second.reason
  dataSha256 : first.dataSha256 = second.dataSha256
  session : first.session = second.session
  issuedAt : first.issuedAt = second.issuedAt
  expiresAt : first.expiresAt = second.expiresAt
  keyId : first.keyId = second.keyId

/-- Neither envelope spells the line in this field. -/
def Spares (line : Separator UInt8) (field : AuthzEnvelope → Bytes)
    (first second : AuthzEnvelope) : Prop :=
  ¬ line.text <:+: field first ∧ ¬ line.text <:+: field second

/-- Two of the three free-text fields do not spell a line that delimits them:
`reason` is read up to the digest; `session` up to the issue time, or back to its
own line; `key_id` back to its own line. -/
def Delimits (first second : AuthzEnvelope) : Prop :=
  (Spares dataLine reason first second ∧ Spares issuedLine session first second) ∨
  (Spares dataLine reason first second ∧ Spares keyLine keyId first second) ∨
  (Spares sessionLine session first second ∧ Spares keyLine keyId first second)

theorem Spares.of_newline {line : Separator UInt8} (hline : line.head = newline)
    {field : AuthzEnvelope → Bytes} {first second : AuthzEnvelope}
    (h₁ : newline ∉ field first) (h₂ : newline ∉ field second) :
    Spares line field first second :=
  ⟨line.not_infix_of_head (hline ▸ h₁), line.not_infix_of_head (hline ▸ h₂)⟩

/-- A numeral spells no line. -/
theorem decimal_spares {line : Separator UInt8} (hline : line.head = newline) (n : Int) :
    ¬ line.text <:+: decimal n :=
  line.not_infix_of_head (hline ▸ newline_notMem_decimal n)

section Reading
variable {first second : AuthzEnvelope}

/-- The times and the key, read from the end of the text. -/
theorem read_back {a b : Bytes} (hkey : Spares keyLine keyId first second)
    (h : a ++ (issuedLine.text ++ (decimal first.issuedAt ++ (expiresLine.text ++
        (decimal first.expiresAt ++ (keyLine.text ++ first.keyId))))) =
      b ++ (issuedLine.text ++ (decimal second.issuedAt ++ (expiresLine.text ++
        (decimal second.expiresAt ++ (keyLine.text ++ second.keyId)))))) :
    a = b ∧ first.issuedAt = second.issuedAt ∧ first.expiresAt = second.expiresAt ∧
      first.keyId = second.keyId := by
  simp only [← List.append_assoc] at h
  simp only [List.append_assoc _ keyLine.text] at h
  obtain ⟨h, hid⟩ := keyLine.split_last hkey.1 hkey.2 h
  rw [List.append_assoc _ expiresLine.text, List.append_assoc _ expiresLine.text] at h
  obtain ⟨h, hexp⟩ := expiresLine.split_last (decimal_spares rfl _) (decimal_spares rfl _) h
  rw [List.append_assoc _ issuedLine.text, List.append_assoc _ issuedLine.text] at h
  obtain ⟨h, hiss⟩ := issuedLine.split_last (decimal_spares rfl _) (decimal_spares rfl _) h
  exact ⟨h, decimal_inj hiss, decimal_inj hexp, hid⟩

/-- The times and the key, read from the front once the session is known. -/
theorem read_front
    (h : decimal first.issuedAt ++ (expiresLine.text ++
        (decimal first.expiresAt ++ (keyLine.text ++ first.keyId))) =
      decimal second.issuedAt ++ (expiresLine.text ++
        (decimal second.expiresAt ++ (keyLine.text ++ second.keyId)))) :
    first.issuedAt = second.issuedAt ∧ first.expiresAt = second.expiresAt ∧
      first.keyId = second.keyId := by
  obtain ⟨hiss, h⟩ := expiresLine.split_first (decimal_spares rfl _) (decimal_spares rfl _) h
  obtain ⟨hexp, hid⟩ := keyLine.split_first (decimal_spares rfl _) (decimal_spares rfl _) h
  exact ⟨decimal_inj hiss, decimal_inj hexp, hid⟩

/-- **The body of the text determines the envelope**, for digests of one length
and fields that are delimited. -/
theorem agrees_of_body (hd : Delimits first second)
    (hlen : first.dataSha256.length = second.dataSha256.length)
    (h : body first = body second) : Agrees first second := by
  unfold body at h
  rcases hd with ⟨hr, hs⟩ | ⟨hr, hk⟩ | ⟨hs, hk⟩
  · obtain ⟨hreason, h⟩ := dataLine.split_first hr.1 hr.2 h
    obtain ⟨hdata, h⟩ := List.append_inj h hlen
    obtain ⟨hsession, h⟩ := issuedLine.split_first hs.1 hs.2 (List.append_cancel_left h)
    obtain ⟨hiss, hexp, hid⟩ := read_front h
    exact ⟨hreason, hdata, hsession, hiss, hexp, hid⟩
  · obtain ⟨hreason, h⟩ := dataLine.split_first hr.1 hr.2 h
    obtain ⟨hdata, h⟩ := List.append_inj h hlen
    obtain ⟨hsession, hiss, hexp, hid⟩ := read_back hk (List.append_cancel_left h)
    exact ⟨hreason, hdata, hsession, hiss, hexp, hid⟩
  · have regroup : ∀ r d s t : Bytes, r ++ (dataLine.text ++ (d ++ (sessionLine.text ++ (s ++ t)))) =
        (r ++ (dataLine.text ++ (d ++ (sessionLine.text ++ s)))) ++ t := by
      intro r d s t
      simp only [List.append_assoc]
    rw [regroup, regroup] at h
    obtain ⟨h, hiss, hexp, hid⟩ := read_back hk h
    simp only [← List.append_assoc] at h
    rw [List.append_assoc _ sessionLine.text, List.append_assoc _ sessionLine.text] at h
    obtain ⟨h, hsession⟩ := sessionLine.split_last hs.1 hs.2 h
    obtain ⟨h, hdata⟩ := List.append_inj' h hlen
    exact ⟨List.append_cancel_right h, hdata, hsession, hiss, hexp, hid⟩

end Reading
end AuthzEnvelope

/-! ## One text, one envelope -/

/-- What the checks before the signature leave to be determined by the text. -/
theorem Cpp.checkEnvelope_ok {crypto : Crypto} {context : AuthzContext} {rawData : Bytes}
    {authz : AuthzEnvelope} {key : ProtocolKey}
    (h : checkEnvelope crypto context rawData authz = .ok key) :
    authz.Current context ∧ authz.dataSha256.length = 64 := by
  unfold checkEnvelope at h
  split at h
  · cases h
  · rename_i hcurrent
    split at h
    · cases h
    · rename_i hdata
      refine ⟨not_not.mp hcurrent, ?_⟩
      have hlen := congrArg List.length (not_not.mp hdata)
      rw [lower_length, lower_length, crypto.sha256Hex_length] at hlen
      exact hlen.symm

namespace Go

/-- Against a text without `k` and `s`, folding changes letters only. -/
theorem fold_length {value : Bytes} (hk : 0x6b ∉ fold value) (hs : 0x73 ∉ fold value) :
    (fold value).length = value.length := by
  fun_induction fold value with
  | case1 rest ih => exact absurd (List.mem_cons_self ..) hk
  | case2 rest ih => exact absurd (List.mem_cons_self ..) hs
  | case3 b rest h₁ h₂ ih =>
    rw [List.length_cons, List.length_cons, ih (fun h => hk (List.mem_cons_of_mem _ h))
      (fun h => hs (List.mem_cons_of_mem _ h))]
  | case4 => rfl

theorem fold_hex {value : Bytes}
    (h : ∀ d ∈ value, (48 ≤ d ∧ d ≤ 57) ∨ ((97 : UInt8) ≤ d ∧ d ≤ 102)) : fold value = value := by
  fun_induction fold value with
  | case1 rest ih => exact absurd (h 0xe2 (List.mem_cons_self ..)) (by decide)
  | case2 rest ih => exact absurd (h 0xc5 (List.mem_cons_self ..)) (by decide)
  | case3 b rest h₁ h₂ ih =>
    rw [lowerByte_hex (h b (List.mem_cons_self ..)),
      ih (fun d hd => h d (List.mem_cons_of_mem _ hd))]
  | case4 => rfl

theorem checkEnvelope_ok {crypto : Crypto} {context : AuthzContext} {data : Bytes}
    {envelope : AuthzEnvelope} {key : ProtocolKey}
    (h : checkEnvelope crypto context data envelope = .ok key) :
    envelope.Current context ∧ envelope.dataSha256.length = 64 := by
  unfold checkEnvelope at h
  split at h
  · cases h
  · rename_i hcurrent
    split at h
    · cases h
    · split at h
      · cases h
      · rename_i hdata
        have hfold : fold envelope.dataSha256 = crypto.sha256Hex data := by
          rw [not_not, equalFold] at hdata
          exact hdata.trans (fold_hex fun d hd => mem_hex hd)
        have hlen : (fold envelope.dataSha256).length = envelope.dataSha256.length := by
          refine fold_length ?_ ?_ <;>
          · rw [hfold]
            intro hm
            exact absurd (mem_hex hm) (by decide)
        refine ⟨by_contra fun hc => hcurrent (.inl hc), ?_⟩
        rw [← hlen, hfold, crypto.sha256Hex_length]

end Go

/-- **The canonical text determines the envelope**, in both SDKs, for envelopes
that pass every check but the signature and whose free text is delimited. -/
theorem canonical_agrees (crypto : Crypto) (context : AuthzContext) (data₁ data₂ : Bytes)
    (first second : AuthzEnvelope) (hd : first.Delimits second) :
    (∀ key₁ key₂, Cpp.checkEnvelope crypto context data₁ first = .ok key₁ →
      Cpp.checkEnvelope crypto context data₂ second = .ok key₂ →
      Cpp.canonical context first = Cpp.canonical context second → first.Agrees second) ∧
    (∀ key₁ key₂, Go.checkEnvelope crypto context data₁ first = .ok key₁ →
      Go.checkEnvelope crypto context data₂ second = .ok key₂ →
      Go.canonical context first = Go.canonical context second → first.Agrees second) := by
  have read : first.Current context ∧ first.dataSha256.length = 64 →
      second.Current context ∧ second.dataSha256.length = 64 →
      Cpp.canonical context first = Cpp.canonical context second → first.Agrees second := by
    rintro ⟨hc₁, hl₁⟩ ⟨hc₂, hl₂⟩ h
    rw [AuthzEnvelope.canonical_split, AuthzEnvelope.canonical_split,
      AuthzEnvelope.head_eq hc₁ hc₂] at h
    exact AuthzEnvelope.agrees_of_body hd (hl₁.trans hl₂.symm) (List.append_cancel_left h)
  refine ⟨fun key₁ key₂ h₁ h₂ h => ?_, fun key₁ key₂ h₁ h₂ h => ?_⟩
  · exact read (Cpp.checkEnvelope_ok h₁) (Cpp.checkEnvelope_ok h₂) h
  · rw [Go.canonical_eq, Go.canonical_eq] at h
    exact read (Go.checkEnvelope_ok h₁) (Go.checkEnvelope_ok h₂) h

/-! The texts below are those of one release, device and request; the digest is
that of the empty data. -/

/-- A crypto library that takes every signature, for the samples. -/
def sampleCrypto : Crypto where
  sha256 _ := emptyDigest
  sha256_length _ := rfl
  ed25519Verify _ _ _ := .ok true

/-- The only key of the sample ring. -/
def sampleOnlineKey : ProtocolKey := ⟨ascii "k1", ascii "key", 1, 2000⟩

/-- The client and the time of the samples. -/
def sampleContext : AuthzContext where
  appId := ascii "app"
  releaseId := ascii "release"
  deviceId := ascii "device"
  requestNonce := ascii "nonce"
  now := 1000
  ring := ⟨some sampleOnlineKey, []⟩

/-- An envelope that is current for the samples, with a given reason, session and signature. -/
def sampleEnvelope (reason session signature : Bytes) : AuthzEnvelope where
  version := ascii "authz_v3"
  decision := ascii "allow"
  releaseId := ascii "release"
  deviceId := ascii "device"
  nonce := ascii "nonce"
  dataSha256 := hex emptyDigest
  keyId := ascii "k1"
  reason := reason
  session := session
  signature := signature
  issuedAt := 990
  expiresAt := 1200

/-- Two signatures over one text: the envelopes agree. -/
theorem canonical_agrees_sample :
    (sampleEnvelope (ascii "ok") (ascii "s") (ascii "sig1")).Agrees
      (sampleEnvelope (ascii "ok") (ascii "s") (ascii "sig2")) := by
  have delimits : (sampleEnvelope (ascii "ok") (ascii "s") (ascii "sig1")).Delimits
      (sampleEnvelope (ascii "ok") (ascii "s") (ascii "sig2")) :=
    .inl ⟨AuthzEnvelope.Spares.of_newline rfl (by decide) (by decide),
      AuthzEnvelope.Spares.of_newline rfl (by decide) (by decide)⟩
  exact (canonical_agrees sampleCrypto sampleContext [] [] _ _ delimits).1 sampleOnlineKey
    sampleOnlineKey (by decide +kernel) (by decide +kernel) (by decide +kernel)

/-- The line break between `reason` and `session` can stand in two places. -/
theorem canonical_ambiguous :
    ¬ ∀ (crypto : Crypto) (context : AuthzContext) (data₁ data₂ : Bytes)
      (first second : AuthzEnvelope) (key₁ key₂ : ProtocolKey),
      Cpp.checkEnvelope crypto context data₁ first = .ok key₁ →
      Cpp.checkEnvelope crypto context data₂ second = .ok key₂ →
      Cpp.canonical context first = Cpp.canonical context second → first.Agrees second := by
  intro h
  have hagrees := h sampleCrypto sampleContext [] []
    (sampleEnvelope (ascii "x")
      (ascii "a\ndata_sha256:" ++ hex emptyDigest ++ ascii "\nsession:b") [])
    (sampleEnvelope
      (ascii "x\ndata_sha256:" ++ hex emptyDigest ++ ascii "\nsession:a") (ascii "b") [])
    sampleOnlineKey sampleOnlineKey (by decide +kernel) (by decide +kernel) (by decide +kernel)
  exact absurd hagrees.reason (by decide)

end SwmSdk
