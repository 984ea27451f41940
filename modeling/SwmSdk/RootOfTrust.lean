import SwmSdk.DownloadJava

/-! # Downloads and the root key

A file that a download installs should have the digest of a manifest whose key the
root key of the options certified (`RootTrusted`).  The certificate is checked by
`verify_artifact_manifest` alone, which returns early for an update that is delivered
by an external link; `download_update` does not look at the delivery and checks
the file under the manifest key that the update names itself.

So the updates that `check_update` returns are downloaded under the root of trust
exactly when they are not external links that `download_update` takes
(`download_trusted_iff`), in both SDKs.
-/
namespace SwmSdk
open ByteText Outcome

/-- The file has the digest of a signed manifest, under a manifest key that the root key
of the options certified. -/
def RootTrusted (crypto : Crypto) (options : TrustOptions) (file : Bytes) : Prop :=
  ∃ (manifest : ArtifactManifest) (publicKey signature rootSignature : Bytes),
    crypto.ed25519Verify options.rootTrustPublicKey (options.rootText manifest.keyId publicKey)
      rootSignature = .ok true ∧
    crypto.ed25519Verify publicKey manifest.text signature = .ok true ∧
    manifest.sha256 = crypto.sha256Hex file

/-- The checksum is the text of a SHA-256 digest. -/
def IsDigest (checksum : Bytes) : Prop :=
  ∃ digest : Bytes, digest.length = 32 ∧ lower checksum = hex digest

/-! ## Oracles without a root -/

/-- The text of a root certificate. -/
def IsRootText (message : Bytes) : Prop := ascii "root_trust_manifest_v1" <+: message

instance (message : Bytes) : Decidable (IsRootText message) := by
  unfold IsRootText
  infer_instance

theorem isRootText_rootText (options : TrustOptions) (keyId publicKey : Bytes) :
    IsRootText (options.rootText keyId publicKey) := by
  simp only [IsRootText, TrustOptions.rootText, List.append_assoc]
  exact List.IsPrefix.trans (by decide) (List.prefix_append ..)

/-- Oracles under which no root certificate is valid, every other signature is, and one
file has a given digest. -/
def Crypto.rootless (crypto : Crypto) (file digest : Bytes) (h : digest.length = 32) : Crypto where
  sha256 value := if value = file then digest else crypto.sha256 value
  sha256_length value := by
    split
    · exact h
    · exact crypto.sha256_length value
  ed25519Verify _ message _ := .ok (¬ IsRootText message)

section Rootless
variable {crypto : Crypto} {options : TrustOptions} {file digest : Bytes}
  {h : digest.length = 32}

theorem rootless_sha256Hex : (crypto.rootless file digest h).sha256Hex file = hex digest :=
  congrArg hex (if_pos rfl)

theorem rootless_sha256Hex_ne {value : Bytes} (hne : value ≠ file) :
    (crypto.rootless file digest h).sha256Hex value = crypto.sha256Hex value :=
  congrArg hex (if_neg hne)

theorem rootless_verify {publicKey message signature : Bytes} (hmessage : ¬ IsRootText message) :
    (crypto.rootless file digest h).ed25519Verify publicKey message signature = .ok true :=
  congrArg Except.ok (decide_eq_true hmessage)

theorem not_rootTrusted_rootless {other : Bytes} :
    ¬ RootTrusted (crypto.rootless file digest h) options other := by
  rintro ⟨manifest, publicKey, signature, rootSignature, hroot, -, -⟩
  have hfalse : decide (¬ IsRootText (options.rootText manifest.keyId publicKey)) = true :=
    Except.ok.inj hroot
  exact of_decide_eq_true hfalse (isRootText_rootText options manifest.keyId publicKey)

end Rootless

theorem not_isRootText_of_start {start message : Bytes} (hstart : start <+: message)
    (hhead : start.head? = some 0x61) : ¬ IsRootText message := by
  obtain ⟨rest, rfl⟩ := hstart
  rintro ⟨rest', heq⟩
  have hroot : (ascii "root_trust_manifest_v1").head? = some 0x72 := by decide
  have hheads := congrArg List.head? heq
  rw [List.head?_append, List.head?_append, hroot, hhead] at hheads
  exact absurd (Option.some.inj hheads) (by decide)

theorem not_isRootText_canonical (context : AuthzContext) (authz : AuthzEnvelope) :
    ¬ IsRootText (Cpp.canonical context authz) := by
  have hstart : ascii "authz_v3\napp_id:" <+: Cpp.canonical context authz := by
    unfold Cpp.canonical
    simp only [List.append_assoc]
    exact List.prefix_append ..
  exact not_isRootText_of_start hstart (by decide)

theorem not_isRootText_manifest (manifest : ArtifactManifest) : ¬ IsRootText manifest.text := by
  have hstart : ascii "artifact_manifest_v1\nrelease_id:" <+: manifest.text := by
    unfold ArtifactManifest.text
    simp only [List.append_assoc]
    exact List.prefix_append ..
  exact not_isRootText_of_start hstart (by decide)

/-! ## C++ -/

namespace Cpp

/-- The update is an external link that `download_update` takes. -/
def LinkTaken (options : TrustOptions) (update : UpdateInfo) : Prop :=
  ExternalLink update ∧ update.updateAvailable = true ∧ update.openInBrowser = false ∧
    validDownloadUrl update.downloadUrl options.baseUrl = true ∧ IsDigest update.checksumSha256

section Transfer
variable {crypto : Crypto} {what : Bytes → Bytes} {options : TrustOptions}

/-- A response stays verified when the oracles change off its data and keep
accepting signatures that are not of the root. -/
theorem verifiedCarrier_transfer {context : AuthzContext} {response : ProtocolResponse}
    {data : Json} {authz : AuthzEnvelope}
    (h : verifiedCarrier crypto what context response = .ok (data, authz)) :
    ∃ rawData, ∀ file digest hlength, rawData ≠ file →
      verifiedCarrier (crypto.rootless file digest hlength) what context response =
        .ok (data, authz) := by
  obtain ⟨carrier, rawData, key, hv⟩ := verifiedCarrier_ok h
  refine ⟨rawData, fun file digest hlength hne => ?_⟩
  obtain ⟨fields, hauthz, hread⟩ := hv.envelope
  unfold verifiedCarrier
  refine bind_eq_ok.mpr ⟨(), throwIfError_eq_ok.mpr hv.status, ?_⟩
  refine bind_eq_ok.mpr ⟨carrier, parseJson_eq_ok.mpr hv.parsed, ?_⟩
  rw [hv.member, hauthz]
  dsimp only
  rw [hv.sliced]
  refine bind_eq_ok.mpr ⟨authz, hread, ?_⟩
  refine bind_eq_ok.mpr ⟨key, ?_, ?_⟩
  · rw [← hv.checked]
    unfold checkEnvelope
    rw [rootless_sha256Hex_ne hne]
  · refine bind_eq_ok.mpr ⟨true, rootless_verify (not_isRootText_canonical context authz), ?_⟩
    exact guard_eq_ok.mpr ⟨by simp, rfl⟩

theorem verifyAuthz_transfer {note : Except Error Unit} {context : AuthzContext}
    {session : Session} {response : ProtocolResponse} {data : Json}
    (h : (verifyAuthz crypto what note context session response).1 = .ok data) :
    ∃ rawData, ∀ file digest hlength, rawData ≠ file →
      (verifyAuthz (crypto.rootless file digest hlength) what note context session response).1 =
        .ok data := by
  obtain ⟨authz, hcarrier⟩ := verifyAuthz_ok h
  obtain ⟨rawData, htransfer⟩ := verifiedCarrier_transfer hcarrier
  refine ⟨rawData, fun file digest hlength hne => ?_⟩
  rw [verifyAuthz, hcarrier] at h
  rw [verifyAuthz, htransfer file digest hlength hne]
  exact h

/-- An external link stays accepted: no signature of it is looked at. -/
theorem finishCheck_transfer {turn : CheckTurn Error} {response : ProtocolResponse}
    {update : UpdateInfo} (hlink : ExternalLink update)
    (h : finishCheck crypto what options turn response = .ok update) :
    ∃ rawData, ∀ file digest hlength, rawData ≠ file →
      finishCheck (crypto.rootless file digest hlength) what options turn response =
        .ok update := by
  unfold finishCheck at h
  obtain ⟨data, hdata, h⟩ := bind_eq_ok.mp h
  obtain ⟨update', hread, h⟩ := bind_eq_ok.mp h
  obtain ⟨⟨⟩, hpolicy, h⟩ := bind_eq_ok.mp h
  obtain ⟨⟨⟩, -, h⟩ := bind_eq_ok.mp h
  obtain rfl := Except.ok.inj h
  obtain ⟨rawData, htransfer⟩ := verifyAuthz_transfer (lift_eq_ok.mp hdata)
  refine ⟨rawData, fun file digest hlength hne => ?_⟩
  refine bind_eq_ok.mpr ⟨data, lift_eq_ok.mpr (htransfer file digest hlength hne), ?_⟩
  refine bind_eq_ok.mpr ⟨update', hread, bind_eq_ok.mpr ⟨(), hpolicy, ?_⟩⟩
  refine bind_eq_ok.mpr ⟨(), lift_eq_ok.mpr ?_, rfl⟩
  rw [verifyArtifactManifest, if_pos (.inr (.inr hlink))]

/-- An update that is returned was read at the end of a turn. -/
theorem checkUpdate_ok {first second : CheckTurn Error} {update : UpdateInfo}
    (h : checkUpdate crypto what options first second = .ok update) :
    ∃ turn response, finishCheck crypto what options turn response = .ok update ∧
      ∀ other, finishCheck other what options turn response = .ok update →
        checkUpdate other what options first second = .ok update := by
  unfold checkUpdate at h
  obtain ⟨response, hresponse, h⟩ := bind_eq_ok.mp h
  split at h
  · rename_i hstatus
    obtain ⟨⟨⟩, hchallenge, h⟩ := bind_eq_ok.mp h
    obtain ⟨answer, hanswer, h⟩ := bind_eq_ok.mp h
    refine ⟨second, answer, h, fun other hother => ?_⟩
    refine bind_eq_ok.mpr ⟨response, hresponse, ?_⟩
    rw [if_pos hstatus]
    exact bind_eq_ok.mpr ⟨(), hchallenge, bind_eq_ok.mpr ⟨answer, hanswer, hother⟩⟩
  · rename_i hstatus
    refine ⟨first, response, h, fun other hother => ?_⟩
    refine bind_eq_ok.mpr ⟨response, hresponse, ?_⟩
    rw [if_neg hstatus]
    exact hother

end Transfer

theorem checkManifest_ok {crypto : Crypto} {update : UpdateInfo}
    (h : checkManifest crypto update = .ok ()) :
    crypto.ed25519Verify update.manifestPublicKey (manifestOf update).text update.signature =
      .ok true := by
  obtain ⟨valid, hvalid, h⟩ := bind_eq_ok.mp h
  obtain ⟨hv, -⟩ := guard_eq_ok.mp h
  rw [hvalid, not_not.mp hv]

theorem checkRoot_ok {crypto : Crypto} {options : TrustOptions} {update : UpdateInfo}
    (h : checkRoot crypto options update = .ok ()) :
    crypto.ed25519Verify options.rootTrustPublicKey
      (options.rootText update.manifestKeyId update.manifestPublicKey)
      update.rootTrustSignature = .ok true := by
  obtain ⟨valid, hvalid, h⟩ := bind_eq_ok.mp h
  obtain ⟨hv, -⟩ := guard_eq_ok.mp h
  rw [hvalid, not_not.mp hv]

/-- An update to download that is no external link was certified by the root. -/
theorem finishCheck_root {crypto : Crypto} {what : Bytes → Bytes} {options : TrustOptions}
    {turn : CheckTurn Error} {response : ProtocolResponse} {update : UpdateInfo}
    (h : finishCheck crypto what options turn response = .ok update)
    (havailable : update.updateAvailable = true) (hbrowser : update.openInBrowser = false)
    (hlink : ¬ ExternalLink update) : checkRoot crypto options update = .ok () := by
  unfold finishCheck at h
  obtain ⟨data, -, h⟩ := bind_eq_ok.mp h
  obtain ⟨update', -, h⟩ := bind_eq_ok.mp h
  obtain ⟨⟨⟩, -, h⟩ := bind_eq_ok.mp h
  obtain ⟨⟨⟩, hverify, h⟩ := bind_eq_ok.mp h
  obtain rfl := Except.ok.inj h
  have hverify := lift_eq_ok.mp hverify
  rw [verifyArtifactManifest, if_neg (by simp [havailable, hbrowser, hlink])] at hverify
  obtain ⟨-, hverify⟩ := guard_eq_ok.mp hverify
  obtain ⟨-, hverify⟩ := guard_eq_ok.mp hverify
  obtain ⟨⟨⟩, hroot, -⟩ := bind_eq_ok.mp hverify
  exact hroot

/-- What `verify_download` checks of a file. -/
theorem verifyDownload_ok {crypto : Crypto} {update : UpdateInfo} {file : Bytes} :
    verifyDownload crypto update (crypto.sha256Hex file) = .ok () ↔
      lower update.checksumSha256 = crypto.sha256Hex file ∧
        checkManifest crypto update = .ok () := by
  unfold verifyDownload
  rw [guard_eq_ok, not_not, Crypto.sha256Hex, lower_hex, eq_comm]

/-- Every download of an update that `check_update` returns installs a file under the root
of trust. -/
def Trusted (what : Bytes → Bytes) (options : TrustOptions) (first second : CheckTurn Error)
    (update : UpdateInfo) : Prop :=
  ∀ crypto server disk progress state final,
    checkUpdate crypto what options first second = .ok update →
    downloadUpdate crypto options server disk progress update state = (.ok (), final) →
    ∃ file, final.destination = some file ∧ RootTrusted crypto options file

/-- **An update is downloaded under the root of trust exactly when it is no external link
that is downloaded.** -/
theorem trusted_iff {what : Bytes → Bytes} {options : TrustOptions}
    {first second : CheckTurn Error} {update : UpdateInfo}
    (returned : ∃ crypto, checkUpdate crypto what options first second = .ok update) :
    Trusted what options first second update ↔ ¬ LinkTaken options update := by
  constructor
  · rintro htrusted ⟨hlink, havailable, hbrowser, hurl, digest, hlength, hdigest⟩
    obtain ⟨crypto, hcheck⟩ := returned
    obtain ⟨turn, response, hfinish, hback⟩ := checkUpdate_ok hcheck
    obtain ⟨rawData, htransfer⟩ := finishCheck_transfer hlink hfinish
    -- any file but the data of the response can be given the digest
    have hne : rawData ≠ rawData ++ [0] := by simp
    have hverify : verifyDownload (crypto.rootless (rawData ++ [0]) digest hlength) update
        ((crypto.rootless (rawData ++ [0]) digest hlength).sha256Hex (rawData ++ [0])) =
          .ok () := by
      refine verifyDownload_ok.mpr ⟨hdigest.trans rootless_sha256Hex.symm, ?_⟩
      exact bind_eq_ok.mpr ⟨true, rootless_verify (not_isRootText_manifest _),
        guard_eq_ok.mpr ⟨by simp, rfl⟩⟩
    obtain ⟨final, hdownload, -⟩ := downloadUpdate_sends havailable hbrowser hurl (by simp) hverify
    obtain ⟨file, -, hroot⟩ := htrusted _ _ _ _ _ final
      (hback _ (htransfer _ _ hlength hne)) hdownload
    exact not_rootTrusted_rootless hroot
  · intro hnot crypto server disk progress state final hcheck hdownload
    obtain ⟨havailable, hbrowser, hurl, file, hfile, hverify⟩ := downloadUpdate_ok hdownload
    obtain ⟨hdigest, hmanifest⟩ := verifyDownload_ok.mp hverify
    have hlink : ¬ ExternalLink update := fun hlink => hnot
      ⟨hlink, havailable, hbrowser, hurl, crypto.sha256 file, crypto.sha256_length file, hdigest⟩
    obtain ⟨turn, response, hfinish, -⟩ := checkUpdate_ok hcheck
    have hroot := finishCheck_root hfinish havailable hbrowser hlink
    exact ⟨file, hfile, manifestOf update, update.manifestPublicKey, update.signature,
      update.rootTrustSignature, checkRoot_ok hroot, checkManifest_ok hmanifest, hdigest⟩

end Cpp

/-! ## Java -/

namespace Java

/-- The update is an external link that `downloadUpdate` takes. -/
def LinkTaken (client : Client) (update : UpdateInfo) : Prop :=
  client.closed = false ∧ ExternalLink update ∧ update.updateAvailable = true ∧
    update.openInBrowser = false ∧
    validDownloadUrl client.uris client.baseUri update.downloadUrl = true ∧
    IsDigest update.checksumSha256

section Transfer
variable {J : Jackson} {locale : RootLocale} {crypto : Crypto} {options : TrustOptions}

theorem verifyEd25519_ok {publicKey message signature : Bytes} :
    verifyEd25519 crypto publicKey message signature = .ok true ↔
      crypto.ed25519Verify publicKey message signature = .ok true := by
  unfold verifyEd25519
  cases crypto.ed25519Verify publicKey message signature with
  | error e => simp
  | ok valid => simp

/-- A response stays verified when the oracles change off its data and keep
accepting signatures that are not of the root. -/
theorem verifiedCarrier_transfer {context : AuthzContext} {response : ProtocolResponse}
    {data : Option J.Node} {authz : AuthzEnvelope}
    (h : verifiedCarrier J crypto context response = .ok (data, authz)) :
    ∃ rawData, ∀ file digest hlength, rawData ≠ file →
      verifiedCarrier J (crypto.rootless file digest hlength) context response =
        .ok (data, authz) := by
  unfold verifiedCarrier at h
  obtain ⟨⟨⟩, hstatus, hrest⟩ := bind_eq_ok.mp h
  obtain ⟨sliced, hraw, htree⟩ := bind_eq_ok.mp hrest
  obtain ⟨carrier, hcarrier, hmatch⟩ := bind_eq_ok.mp htree
  split at hmatch
  · rename_i rawData node hnode
    obtain ⟨authz', hread, h⟩ := bind_eq_ok.mp hmatch
    obtain ⟨key, hchecked, h⟩ := bind_eq_ok.mp h
    obtain ⟨valid, -, h⟩ := bind_eq_ok.mp h
    obtain ⟨-, h⟩ := guard_eq_ok.mp h
    obtain ⟨rfl, rfl⟩ := Prod.mk.inj (Except.ok.inj h)
    refine ⟨rawData, fun file digest hlength hne => ?_⟩
    refine bind_eq_ok.mpr ⟨(), hstatus, bind_eq_ok.mpr ⟨some rawData, hraw, ?_⟩⟩
    refine bind_eq_ok.mpr ⟨carrier, hcarrier, ?_⟩
    rw [hnode]
    refine bind_eq_ok.mpr ⟨authz', hread, bind_eq_ok.mpr ⟨key, ?_, ?_⟩⟩
    · rw [← hchecked]
      unfold checkEnvelope
      rw [rootless_sha256Hex_ne hne]
    · refine bind_eq_ok.mpr ⟨true, ?_, guard_eq_ok.mpr ⟨by simp, rfl⟩⟩
      exact verifyEd25519_ok.mpr (rootless_verify (not_isRootText_canonical context authz'))
  · cases hmatch

theorem verifyAuthz_transfer {note : Except Thrown Unit} {context : AuthzContext}
    {session : Session} {response : ProtocolResponse} {data : Option J.Node}
    (h : (verifyAuthz J crypto note context session response).1 = .ok data) :
    ∃ rawData, ∀ file digest hlength, rawData ≠ file →
      (verifyAuthz J (crypto.rootless file digest hlength) note context session response).1 =
        .ok data := by
  obtain ⟨authz, hcarrier⟩ := verifyAuthz_ok h
  obtain ⟨rawData, htransfer⟩ := verifiedCarrier_transfer hcarrier
  refine ⟨rawData, fun file digest hlength hne => ?_⟩
  rw [verifyAuthz, hcarrier] at h
  rw [verifyAuthz, htransfer file digest hlength hne]
  exact h

/-- Of an external link no signature is looked at. -/
theorem verifyArtifactManifest_link {update : UpdateInfo} (hlink : ExternalLink update) :
    verifyArtifactManifest locale crypto options update = .ok () := by
  rw [verifyArtifactManifest, if_pos (.inr (.inr hlink))]

theorem finishCheck_transfer {turn : CheckTurn Thrown} {response : ProtocolResponse}
    {update : UpdateInfo} (hlink : ExternalLink update)
    (h : finishCheck J locale crypto options turn response = .ok update) :
    ∃ rawData, ∀ file digest hlength, rawData ≠ file →
      finishCheck J locale (crypto.rootless file digest hlength) options turn response =
        .ok update := by
  unfold finishCheck at h
  obtain ⟨data, hdata, h⟩ := bind_eq_ok.mp h
  obtain ⟨update', hread, h⟩ := bind_eq_ok.mp h
  obtain ⟨⟨⟩, hpolicy, h⟩ := bind_eq_ok.mp h
  obtain ⟨⟨⟩, -, h⟩ := bind_eq_ok.mp h
  obtain rfl := Except.ok.inj h
  obtain ⟨rawData, htransfer⟩ := verifyAuthz_transfer hdata
  refine ⟨rawData, fun file digest hlength hne => ?_⟩
  refine bind_eq_ok.mpr ⟨data, htransfer file digest hlength hne, ?_⟩
  refine bind_eq_ok.mpr ⟨update', hread, bind_eq_ok.mpr ⟨(), hpolicy, ?_⟩⟩
  exact bind_eq_ok.mpr ⟨(), verifyArtifactManifest_link hlink, rfl⟩

/-- An update that is returned was read at the end of a turn. -/
theorem checkUpdate_ok {first second : CheckTurn Thrown} {update : UpdateInfo}
    (h : checkUpdate J locale crypto options first second = .ok update) :
    ∃ turn response, finishCheck J locale crypto options turn response = .ok update ∧
      ∀ other, finishCheck J locale other options turn response = .ok update →
        checkUpdate J locale other options first second = .ok update := by
  unfold checkUpdate at h
  obtain ⟨response, hresponse, h⟩ := bind_eq_ok.mp h
  split at h
  · rename_i hstatus
    obtain ⟨⟨⟩, hchallenge, h⟩ := bind_eq_ok.mp h
    obtain ⟨answer, hanswer, h⟩ := bind_eq_ok.mp h
    refine ⟨second, answer, h, fun other hother => ?_⟩
    refine bind_eq_ok.mpr ⟨response, hresponse, ?_⟩
    rw [if_pos hstatus]
    exact bind_eq_ok.mpr ⟨(), hchallenge, bind_eq_ok.mpr ⟨answer, hanswer, hother⟩⟩
  · rename_i hstatus
    refine ⟨first, response, h, fun other hother => ?_⟩
    refine bind_eq_ok.mpr ⟨response, hresponse, ?_⟩
    rw [if_neg hstatus]
    exact hother

/-- What `verifyDownload` checks of a file. -/
theorem verifyDownload_ok {update : UpdateInfo} {file : Bytes} :
    verifyDownload locale crypto options update file = .ok () ↔
      lower update.checksumSha256 = crypto.sha256Hex file ∧
        verifyArtifactManifest locale crypto options update = .ok () := by
  unfold verifyDownload
  rw [guard_eq_ok, not_not, Crypto.sha256Hex, equalsIgnoreCase_hex]

/-- An update to download that is no external link has both signatures. -/
theorem verifyArtifactManifest_signed {update : UpdateInfo}
    (h : verifyArtifactManifest locale crypto options update = .ok ())
    (havailable : update.updateAvailable = true) (hbrowser : update.openInBrowser = false)
    (hlink : ¬ ExternalLink update) :
    crypto.ed25519Verify options.rootTrustPublicKey
      (options.rootText update.manifestKeyId update.manifestPublicKey)
      update.rootTrustSignature = .ok true ∧
    crypto.ed25519Verify update.manifestPublicKey (manifestOf locale update).text
      update.signature = .ok true := by
  rw [verifyArtifactManifest, if_neg (by simp [havailable, hbrowser, hlink])] at h
  obtain ⟨-, h⟩ := guard_eq_ok.mp h
  obtain ⟨-, h⟩ := guard_eq_ok.mp h
  obtain ⟨certified, hroot, h⟩ := bind_eq_ok.mp h
  obtain ⟨hcertified, h⟩ := guard_eq_ok.mp h
  obtain ⟨signed, hmanifest, h⟩ := bind_eq_ok.mp h
  obtain ⟨hsigned, -⟩ := guard_eq_ok.mp h
  rw [not_not.mp hcertified] at hroot
  rw [not_not.mp hsigned] at hmanifest
  exact ⟨verifyEd25519_ok.mp hroot, verifyEd25519_ok.mp hmanifest⟩

end Transfer

/-- Every download of an update that `checkUpdate` returns installs a file under the root
of trust. -/
def Trusted (J : Jackson) (client : Client) (options : TrustOptions)
    (first second : CheckTurn Thrown) (update : UpdateInfo) : Prop :=
  ∀ crypto server disk progress state final,
    checkUpdate J client.locale crypto options first second = .ok update →
    downloadUpdate client crypto options server disk progress update state = (.ok (), final) →
    ∃ file, final.destination = some file ∧ RootTrusted crypto options file

/-- **An update is downloaded under the root of trust exactly when it is no external link
that is downloaded.** -/
theorem trusted_iff {J : Jackson} {client : Client} {options : TrustOptions}
    {first second : CheckTurn Thrown} {update : UpdateInfo}
    (returned : ∃ crypto, checkUpdate J client.locale crypto options first second = .ok update) :
    Trusted J client options first second update ↔ ¬ LinkTaken client update := by
  constructor
  · rintro htrusted ⟨hopen, hlink, havailable, hbrowser, hurl, digest, hlength, hdigest⟩
    obtain ⟨crypto, hcheck⟩ := returned
    obtain ⟨turn, response, hfinish, hback⟩ := checkUpdate_ok hcheck
    obtain ⟨rawData, htransfer⟩ := finishCheck_transfer hlink hfinish
    -- any file but the data of the response can be given the digest
    have hne : rawData ≠ rawData ++ [0] := by simp
    have hverify : verifyDownload client.locale (crypto.rootless (rawData ++ [0]) digest hlength)
        options update (rawData ++ [0]) = .ok () :=
      verifyDownload_ok.mpr ⟨hdigest.trans rootless_sha256Hex.symm,
        verifyArtifactManifest_link hlink⟩
    obtain ⟨final, hdownload, -⟩ := downloadUpdate_sends hopen havailable hbrowser hurl
      (verifyArtifactManifest_link hlink) hverify
    obtain ⟨file, -, hroot⟩ := htrusted _ _ _ _ _ final
      (hback _ (htransfer _ _ hlength hne)) hdownload
    exact not_rootTrusted_rootless hroot
  · intro hnot crypto server disk progress state final hcheck hdownload
    obtain ⟨hopen, havailable, hbrowser, hurl, file, hfile, hverify⟩ := downloadUpdate_ok hdownload
    obtain ⟨hdigest, hmanifest⟩ := verifyDownload_ok.mp hverify
    have hlink : ¬ ExternalLink update := fun hlink => hnot
      ⟨hopen, hlink, havailable, hbrowser, hurl, crypto.sha256 file, crypto.sha256_length file,
        hdigest⟩
    obtain ⟨hroot, hsigned⟩ := verifyArtifactManifest_signed hmanifest havailable hbrowser hlink
    refine ⟨file, hfile, manifestOf client.locale update, update.manifestPublicKey,
      update.signature, update.rootTrustSignature, hroot, hsigned, ?_⟩
    rw [← hdigest]
    exact client.locale.toLowerCase_ascii _ (ascii_of_lower hdigest)

end Java

/-- **Downloads and the root of trust.**  In both SDKs, for every update that the check
returns, every download installs a file under the root of trust exactly when the
update is not an external link that the download takes. -/
theorem download_trusted_iff (options : TrustOptions) (update : UpdateInfo) :
    (∀ what first second,
      (∃ crypto, Cpp.checkUpdate crypto what options first second = .ok update) →
      (Cpp.Trusted what options first second update ↔ ¬ Cpp.LinkTaken options update)) ∧
    (∀ (J : Java.Jackson) (client : Java.Client) first second,
      (∃ crypto, Java.checkUpdate J client.locale crypto options first second = .ok update) →
      (Java.Trusted J client options first second update ↔ ¬ Java.LinkTaken client update)) :=
  ⟨fun _ _ _ returned => Cpp.trusted_iff returned,
    fun _ _ _ _ returned => Java.trusted_iff returned⟩

/-! ## Two updates

Both are signed responses with real signatures: one whose manifest key the root
certified, and an external link under a key that nobody certified. -/

/-- What differs between the two updates. -/
structure SampleUpdate where
  update : UpdateInfo
  /-- The members of the data after those of the manifest. -/
  members : Bytes
  dataDigest : Bytes
  authzSignature : Bytes

namespace SampleUpdate

def info (keyId publicKey signature : String) : UpdateInfo where
  updateAvailable := true
  mandatory := false
  heartbeatIntervalSeconds := 0
  openInBrowser := false
  deliveryMethod := []
  releaseId := ascii "r2"
  version := ascii "2"
  versionCode := none
  notes := []
  downloadUrl := ascii "https://h/api/client/artifacts/a/download?ticket=t"
  checksumSha256 := hex appDigest
  signature := ascii signature
  manifestKeyId := ascii keyId
  manifestPublicKey := ascii publicKey
  rootTrustKeyId := []
  rootTrustSignature := []
  artifactFileName := []
  artifactPlatform := []
  artifactArch := []
  authzProtocol := []
  hostIntegrityRequired := false
  size := 3
  rollbackAllowed := false
  maintenance := none

/-- An update whose manifest key is certified by the root. -/
def certified : SampleUpdate where
  update := { info "m1" "PUAXw-hDiVqStwqnTRt-vJyYLM8uxJaMwM1V8Sr0Zgw"
      "Q6gayyINp8M9Yj3N0UN0yWKCLMChvVUcQo3frzokeMbIuHHqbHnYgQ1y0hEmjfKag-eO4WKbOwk_I9WPLpnhCA" with
    rootTrustKeyId := ascii "root"
    rootTrustSignature := ascii
      "TXdYxNVfsR6BOVgSYuuE8uTcVd-E26wUam8xoPWR7WJLtWQK2UJi-LgNC3kAWr6ZYweZ5ceHg7tRky2_U2FRDA"
    artifactFileName := ascii "f" }
  members := ascii "\"root_trust_key_id\":\"root\",\"root_trust_signature\":\"" ++ ascii
      "TXdYxNVfsR6BOVgSYuuE8uTcVd-E26wUam8xoPWR7WJLtWQK2UJi-LgNC3kAWr6ZYweZ5ceHg7tRky2_U2FRDA" ++
    ascii "\",\"artifact_file_name\":\"f\""
  dataDigest :=
    [0x93, 0xe9, 0x8b, 0xd4, 0xab, 0x66, 0x15, 0xc2, 0x4b, 0x78, 0xed, 0x25, 0x81, 0x63, 0xdc, 0xf6,
     0x95, 0xd2, 0xcb, 0xb6, 0xd9, 0xd4, 0x2c, 0x8a, 0x7a, 0x70, 0xcf, 0x0a, 0x04, 0x90, 0x24, 0x84]
  authzSignature := ascii
    "okEecobAcd4zHiDxMm4hvixhIN68Mt9XapcmzQYn3MDFiDJ5HmPrSK812rkk8o9VnklfuwZm0vKuNRlvO_PSDA"

/-- An update that is an external link, with a key that nobody certified. -/
def link : SampleUpdate where
  update := { info "m2" "7Bcrk61eVjv0kyxw4SRQNMNUZ-8u_U1k6_gZaDRn4r8"
      "1R8dUOc_t4VW7mjB2PlKFfrKOPJjFnFrWLRJGXWZD0fCGQ6LZlgzlgAJO5BXOTsIsWjG2Wojc5MK1plio5oCDg" with
    deliveryMethod := ascii "external_link" }
  members := ascii "\"delivery_method\":\"external_link\""
  dataDigest :=
    [0x8b, 0x56, 0x0e, 0x2e, 0x6a, 0xb4, 0xa1, 0xdf, 0xfe, 0x7a, 0x8d, 0x55, 0x72, 0x9c, 0x59, 0xca,
     0x6e, 0xc0, 0x12, 0x3c, 0x1d, 0x3d, 0x82, 0x40, 0xd1, 0x66, 0x80, 0xf7, 0x27, 0xe3, 0x67, 0xbc]
  authzSignature := ascii
    "QejiEB7fkXrx8tyiConY1DTSUtJ3d_9LjUCLluCOEkxSAwQxThTpI1tA2FmydBRYnuwP6VtU4Sd_0vrdqg-kBw"

def options : TrustOptions where
  appId := ascii "app"
  baseUrl := ascii "https://h/"
  rootTrustKeyId := ascii "root"
  rootTrustPublicKey := ascii "_FHNjmIYoaONpH7QAjDwWAgW7RO6MwOsXeuRFUiQgCU"

/-- The signed data of the sample. -/
def data (sample : SampleUpdate) : Bytes :=
  ascii "\x7b\"update_available\":true,\"release_id\":\"r2\",\"version\":\"2\",\"size\":3," ++
    ascii "\"download_url\":\"https://h/api/client/artifacts/a/download?ticket=t\"," ++
    ascii "\"checksum_sha256\":\"" ++ hex appDigest ++ ascii "\",\"signature\":\"" ++
    sample.update.signature ++ ascii "\",\"manifest_key_id\":\"" ++ sample.update.manifestKeyId ++
    ascii "\",\"manifest_public_key\":\"" ++ sample.update.manifestPublicKey ++ ascii "\"," ++
    sample.members ++ ascii "\x7d"

/-- The envelope of the sample. -/
def authz (sample : SampleUpdate) : AuthzEnvelope :=
  { sampleEnvelope [] [] sample.authzSignature with dataSha256 := hex sample.dataDigest }

/-- The response that carries the sample. -/
def body (sample : SampleUpdate) : Bytes :=
  ascii "\x7b\"data\":" ++ sample.data ++
    ascii ",\"authz\":\x7b\"version\":\"authz_v3\",\"decision\":\"allow\"," ++
    ascii "\"release_id\":\"release\",\"device_id\":\"device\",\"nonce\":\"nonce\"," ++
    ascii "\"data_sha256\":\"" ++ hex sample.dataDigest ++ ascii "\",\"key_id\":\"k1\"," ++
    ascii "\"issued_at\":990,\"expires_at\":1200,\"signature\":\"" ++ sample.authzSignature ++
    ascii "\"\x7d\x7d"

def crypto (sample : SampleUpdate) (root : List (Bytes × Bytes × Bytes)) : Crypto :=
  listedCrypto [(ascii "app", appDigest), (sample.data, sample.dataDigest)]
    ([(signedKey.publicKey, Cpp.canonical signedContext sample.authz, sample.authzSignature),
      (sample.update.manifestPublicKey, (Cpp.manifestOf sample.update).text,
        sample.update.signature)] ++ root)

/-- The update check that the sample answers. -/
def turn {Thrown : Type} (sample : SampleUpdate) : CheckTurn Thrown where
  response := .ok ⟨200, sample.body⟩
  context := signedContext
  note := .ok ()
  deviceAuth := .ok ()
  storePolicy := .ok ()

end SampleUpdate

theorem lower_proper (text : Bytes) (_ : ∀ b ∈ text, b < 0x80) : lower text = lower text := rfl

/-- A client for the samples; of a URI it reads the scheme, the host and the path. -/
def sampleClient : Java.Client where
  closed := false
  baseUri := ⟨some (ascii "https"), some (ascii "h"), -1, some (ascii "/")⟩
  uris := {
    create := fun raw => (Cpp.splitFirst (ascii "://") raw).map fun (scheme, rest) =>
      let path := (rest.takeWhile (· ≠ 0x3f)).dropWhile (· ≠ 0x2f)
      ⟨some scheme, some (rest.takeWhile (· ≠ 0x2f)), -1, some path⟩
    resolve := fun _ _ => none }
  locale := ⟨lower, lower_proper⟩

/-- The root certificate of the first update. -/
def rootCertificate : Bytes × Bytes × Bytes :=
  (SampleUpdate.options.rootTrustPublicKey,
    SampleUpdate.options.rootText SampleUpdate.certified.update.manifestKeyId
      SampleUpdate.certified.update.manifestPublicKey,
    SampleUpdate.certified.update.rootTrustSignature)

/-- Both SDKs return an update whose key the root certified, and it is downloaded under
the root of trust. -/
theorem download_trusted_certified :
    Cpp.Trusted id SampleUpdate.options SampleUpdate.certified.turn SampleUpdate.certified.turn
      SampleUpdate.certified.update ∧
    Java.Trusted Java.strictJackson sampleClient SampleUpdate.options SampleUpdate.certified.turn
      SampleUpdate.certified.turn SampleUpdate.certified.update := by
  constructor
  · refine ((download_trusted_iff _ _).1 _ _ _
      ⟨SampleUpdate.certified.crypto [rootCertificate], by decide +kernel⟩).mpr ?_
    rintro ⟨hlink, -⟩
    exact absurd hlink (by decide)
  · refine ((download_trusted_iff _ _).2 _ _ _ _
      ⟨SampleUpdate.certified.crypto [rootCertificate], by decide +kernel⟩).mpr ?_
    rintro ⟨-, hlink, -⟩
    exact absurd hlink (by decide)

/-- Oracles that list no root certificate trust no file. -/
theorem not_rootTrusted_listed {digests : List (Bytes × Bytes)}
    {signatures : List (Bytes × Bytes × Bytes)} {options : TrustOptions} {file : Bytes}
    (hlist : ∀ entry ∈ signatures, ¬ IsRootText entry.2.1) :
    ¬ RootTrusted (listedCrypto digests signatures) options file := by
  rintro ⟨manifest, publicKey, signature, rootSignature, hroot, -, -⟩
  have hmem : (options.rootTrustPublicKey, options.rootText manifest.keyId publicKey,
      rootSignature) ∈ signatures := of_decide_eq_true (Except.ok.inj hroot)
  exact hlist _ hmem (isRootText_rootText options manifest.keyId publicKey)

/-- The external link is returned, and a file is installed that no root certificate
stands behind, in both SDKs. -/
theorem link_downloaded :
    ¬ Cpp.Trusted id SampleUpdate.options SampleUpdate.link.turn SampleUpdate.link.turn
      SampleUpdate.link.update ∧
    ¬ Java.Trusted Java.strictJackson sampleClient SampleUpdate.options SampleUpdate.link.turn
      SampleUpdate.link.turn SampleUpdate.link.update := by
  have hlist : ∀ entry ∈ [(signedKey.publicKey,
      Cpp.canonical signedContext SampleUpdate.link.authz, SampleUpdate.link.authzSignature),
      (SampleUpdate.link.update.manifestPublicKey,
        (Cpp.manifestOf SampleUpdate.link.update).text, SampleUpdate.link.update.signature)] ++ [],
      ¬ IsRootText entry.2.1 := by
    intro entry hentry
    simp only [List.append_nil, List.mem_cons, List.not_mem_nil, or_false] at hentry
    rcases hentry with rfl | rfl
    · exact not_isRootText_canonical _ _
    · exact not_isRootText_manifest _
  constructor
  · intro htrusted
    obtain ⟨final, hdownload, -⟩ := @Cpp.downloadUpdate_sends (SampleUpdate.link.crypto [])
      SampleUpdate.options SampleUpdate.link.update (ascii "app") (by decide) (by decide)
      (by decide) (by decide) (by decide)
    obtain ⟨file, -, hroot⟩ := htrusted _ _ _ _ _ final (by decide +kernel) hdownload
    exact not_rootTrusted_listed hlist hroot
  · intro htrusted
    obtain ⟨final, hdownload, -⟩ := @Java.downloadUpdate_sends sampleClient
      (SampleUpdate.link.crypto []) SampleUpdate.options SampleUpdate.link.update (ascii "app")
      rfl (by decide) (by decide) (by decide) (by decide) (by decide)
    obtain ⟨file, -, hroot⟩ := htrusted _ _ _ _ _ final (by decide +kernel) hdownload
    exact not_rootTrusted_listed hlist hroot

end SwmSdk
