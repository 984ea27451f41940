import SwmSdk.Base64Url
import SwmSdk.ByteCodec
import SwmSdk.Types

/-! # Release integrity manifests

The binary format RIM2: a header, a body that names a release and its files, and a
trailer with a certified key and two signatures.  `Rim2.encode` writes a manifest;
`parse_rim2` of the C++ SDK reads it.

What the parser accepts is exactly the encodings of well-formed manifests of the release that
is expected, with valid signatures (`parseRim2_eq_ok`), and a text is the encoding of
at most one of them.
-/
namespace SwmSdk
open ByteText ByteCodec Outcome

/-! ## The format -/

/-- A file that the manifest lists, with its size and digest. -/
structure Rim2File where
  path : Bytes
  size : Nat
  sha256 : Bytes
  deriving DecidableEq, Repr

/-- The body of a manifest. -/
structure Rim2Body where
  app : Bytes
  release : Bytes
  versionCode : Nat
  platform : Nat
  arch : Nat
  version : Bytes
  files : List Rim2File
  deriving DecidableEq, Repr

/-- The trailer of a manifest. -/
structure Rim2Trailer where
  rootKeyId : Bytes
  signerKeyId : Bytes
  signerPublic : Bytes
  rootSignature : Bytes
  manifestSignature : Bytes
  deriving DecidableEq, Repr

/-- A manifest: what it says about a release, and who signed it. -/
structure Rim2 where
  body : Rim2Body
  trailer : Rim2Trailer
  deriving DecidableEq, Repr

/-- The first bytes of a manifest. -/
def rim2Magic : Bytes := ascii "OPLUSRIM"

/-- The bytes of a file entry: the counted path, the size and the digest. -/
def Rim2File.encode (file : Rim2File) : Bytes :=
  frame 2 file.path ++ (bigEndian 8 file.size ++ file.sha256)

/-- The bytes that are signed. -/
def Rim2Body.encode (body : Rim2Body) : Bytes :=
  body.app ++ (body.release ++ (bigEndian 8 body.versionCode ++ (bigEndian 1 body.platform ++
    (bigEndian 1 body.arch ++ (frame 2 body.version ++ (bigEndian 2 body.files.length ++
      body.files.flatMap Rim2File.encode))))))

/-- The bytes behind the body: both key ids, the signer's key and the two signatures. -/
def Rim2Trailer.encode (trailer : Rim2Trailer) : Bytes :=
  frame 1 trailer.rootKeyId ++ (frame 1 trailer.signerKeyId ++ (trailer.signerPublic ++
    (trailer.rootSignature ++ trailer.manifestSignature)))

/-- The bytes of a manifest: the magic, the format version, the counted body and the trailer. -/
def Rim2.encode (m : Rim2) : Bytes :=
  rim2Magic ++ (bigEndian 2 2 ++ (frame 4 m.body.encode ++ m.trailer.encode))

/-- A path without a root, an empty part, a dot part or a character that a file system
would read differently. -/
def safePath (value : Bytes) : Bool :=
  value ≠ [] && value.length ≤ 255 && value.head? ≠ some 0x2f && value.getLast? ≠ some 0x2f &&
    ¬ value.contains 0x5c && ¬ value.contains 0x3a && ¬ value.contains 0 &&
    (value.splitOn 0x2f).all fun part =>
      part ≠ [] && part ≠ ascii "." && part ≠ ascii ".." &&
        part.all fun b => 0x20 ≤ b && b ≠ 0x7f

/-- An entry fits its fields. -/
structure Rim2File.Fits (file : Rim2File) : Prop where
  path : file.path.length < 256 ^ 2
  size : file.size < 256 ^ 8
  sha256 : file.sha256.length = 32

/-- An entry names a file. -/
structure Rim2File.Valid (file : Rim2File) : Prop where
  path : safePath file.path = true
  size : file.size ≠ 0
  sha256 : ¬ ∀ b ∈ file.sha256, b = 0

/-- A well-formed body; two paths that differ in case only are one. -/
structure Rim2Body.WellFormed (body : Rim2Body) : Prop where
  app : body.app.length = 16
  release : body.release.length = 16
  versionCode : body.versionCode < 256 ^ 8
  platform : body.platform < 256 ^ 1
  arch : body.arch < 256 ^ 1
  version : body.version ≠ [] ∧ body.version.length ≤ 100
  count : body.files ≠ [] ∧ body.files.length ≤ 255
  files : ∀ file ∈ body.files, file.Fits ∧ file.Valid
  distinct : (body.files.map fun file => lower file.path).Nodup

/-- What the parser asks of a trailer. -/
structure Rim2Trailer.WellFormed (trailer : Rim2Trailer) : Prop where
  rootKeyId : trailer.rootKeyId ≠ [] ∧ trailer.rootKeyId.length ≤ 64
  signerKeyId : trailer.signerKeyId ≠ [] ∧ trailer.signerKeyId.length ≤ 64
  signerPublic : trailer.signerPublic.length = 32
  rootSignature : trailer.rootSignature.length = 64
  manifestSignature : trailer.manifestSignature.length = 64

/-- A well-formed manifest, which has at most 64 KiB. -/
structure Rim2.WellFormed (m : Rim2) : Prop where
  body : m.body.WellFormed
  trailer : m.trailer.WellFormed
  size : m.encode.length ≤ 64 * 1024

/-- What the root key signs. -/
def Rim2.keyMessage (m : Rim2) : Bytes :=
  ascii "OPLUS_RELEASE_KEY_V2" ++ [0] ++ m.body.app ++ frame 1 m.trailer.rootKeyId ++
    frame 1 m.trailer.signerKeyId ++ m.trailer.signerPublic

/-- What the signer signs. -/
def Rim2.manifestMessage (m : Rim2) : Bytes :=
  ascii "OPLUS_RELEASE_MANIFEST_V2" ++ [0] ++ m.body.encode

/-- What a client expects of a manifest. -/
structure Rim2Expected where
  appId : Bytes
  releaseId : Bytes
  version : Bytes
  versionCode : Option Int
  arch : Bytes
  rootKeyId : Bytes
  rootTrustPublicKey : Bytes

/-- The lower-case text of a UUID. -/
def guidText (bytes : Bytes) : Bytes :=
  let digits := hex bytes
  digits.take 8 ++ ascii "-" ++ (digits.drop 8).take 4 ++ ascii "-" ++ (digits.drop 12).take 4 ++
    ascii "-" ++ (digits.drop 16).take 4 ++ ascii "-" ++ digits.drop 20

/-- An expected version code as an unsigned number of 64 bits. -/
def unsignedCode (code : Int) : Nat := (code % 2 ^ 64).toNat

/-- `arch_text`. -/
def archText (value : Nat) : Bytes :=
  if value = 1 then ascii "x86" else if value = 2 then ascii "x64" else []

/-! ## C++ -/

namespace Cpp

/-- `Rim2Manifest`. -/
structure Rim2Manifest where
  raw : Bytes
  manifestSha256 : Bytes
  appId : Bytes
  releaseId : Bytes
  versionCode : Nat
  version : Bytes
  arch : Bytes
  rootKeyId : Bytes
  signerKeyId : Bytes
  files : List Rim2File
  deriving DecidableEq, Repr

/-- The errors of the parser, which carry no status. -/
def rim2Error (code message : String) : Error where
  kind := .integrity
  statusCode := 0
  serviceCode := ascii code
  message := ascii message

/-- The errors of a manifest that cannot be read. -/
def rim2Invalid (message : String) : Error := rim2Error "host_manifest_invalid" message

def rim2Truncated : Error := rim2Invalid "RIM2 manifest is truncated"

/-- `arch_byte`. -/
def archByte (arch : Bytes) : Nat :=
  let value := lower arch
  if value = ascii "x86" ∨ value = ascii "i386" ∨ value = ascii "win-x86" then 1
  else if value = ascii "x64" ∨ value = ascii "amd64" ∨ value = ascii "win-x64" then 2
  else 0

/-- The fields of an entry. -/
def readRim2File (data : Bytes) : Except Error (Rim2File × Bytes) := do
  let (path, rest) ← counted 2 rim2Truncated data
  let (size, rest) ← number 8 rim2Truncated rest
  let (sha256, rest) ← take 32 rim2Truncated rest
  .ok (⟨path, size, sha256⟩, rest)

/-- The test of an entry beside those before it. -/
def admitRim2File (before : List Rim2File) (file : Rim2File) : Except Error Unit :=
  if ¬ safePath file.path ∨ file.size = 0 ∨ (file.sha256.all (· = 0)) ∨
      (before.map fun old => lower old.path).contains (lower file.path) then
    .error (rim2Invalid "RIM2 contains an invalid file entry")
  else .ok ()

/-- The body and the bytes after it. -/
def readRim2Header (manifest : Bytes) : Except Error (Bytes × Bytes) := do
  let (header, rest) ← take 8 rim2Truncated manifest
  if header ≠ rim2Magic then .error (rim2Invalid "RIM2 manifest header is invalid")
  else do
    let (version, rest) ← number 2 rim2Truncated rest
    if version ≠ 2 then .error (rim2Invalid "RIM2 manifest header is invalid")
    else do
      let (bodySize, rest) ← number 4 rim2Truncated rest
      if bodySize = 0 ∨ bodySize > rest.length then
        .error (rim2Invalid "RIM2 body size is invalid")
      else .ok (rest.take bodySize, rest.drop bodySize)

/-- The body of a manifest: the fields of the release, and then its files. -/
def readRim2Body (data : Bytes) : Except Error Rim2Body := do
  let (app, rest) ← take 16 rim2Truncated data
  let (release, rest) ← take 16 rim2Truncated rest
  let (versionCode, rest) ← number 8 rim2Truncated rest
  let (platform, rest) ← number 1 rim2Truncated rest
  let (arch, rest) ← number 1 rim2Truncated rest
  let (version, rest) ← counted 2 rim2Truncated rest
  let (fileCount, rest) ← number 2 rim2Truncated rest
  if fileCount = 0 ∨ fileCount > 255 ∨ version = [] ∨ version.length > 100 then
    .error (rim2Invalid "RIM2 identity fields are invalid")
  else do
    let (files, rest) ← entries readRim2File admitRim2File fileCount [] rest
    if rest ≠ [] then .error (rim2Invalid "RIM2 body has trailing bytes")
    else .ok ⟨app, release, versionCode, platform, arch, version, files⟩

/-- The trailer of a manifest, whose key ids have between 1 and 64 bytes. -/
def readRim2Trailer (data : Bytes) : Except Error Rim2Trailer := do
  let (rootKeyId, rest) ← counted 1 rim2Truncated data
  let (signerKeyId, rest) ← counted 1 rim2Truncated rest
  let (signerPublic, rest) ← take 32 rim2Truncated rest
  let (rootSignature, rest) ← take 64 rim2Truncated rest
  let (manifestSignature, rest) ← take 64 rim2Truncated rest
  if rest ≠ [] ∨ rootKeyId = [] ∨ rootKeyId.length > 64 ∨ signerKeyId = [] ∨
      signerKeyId.length > 64 then .error (rim2Invalid "RIM2 trailer is invalid")
  else .ok ⟨rootKeyId, signerKeyId, signerPublic, rootSignature, manifestSignature⟩

/-- The manifest is for another release. -/
def rim2Mismatch (expected : Rim2Expected) (m : Rim2) : Prop :=
  guidText m.body.app ≠ expected.appId ∨ guidText m.body.release ≠ expected.releaseId ∨
    m.body.platform ≠ 1 ∨ m.body.arch ≠ archByte expected.arch ∨
    m.body.version ≠ expected.version ∨
    (∃ code ∈ expected.versionCode, m.body.versionCode ≠ unsignedCode code) ∨
    m.trailer.rootKeyId ≠ expected.rootKeyId

instance (expected : Rim2Expected) (m : Rim2) : Decidable (rim2Mismatch expected m) := by
  unfold rim2Mismatch
  infer_instance

/-- The manifest that is read, before its identity and signatures are checked. -/
def readRim2 (manifest : Bytes) : Except Error Rim2 :=
  if manifest = [] ∨ manifest.length > 64 * 1024 then
    .error (rim2Invalid "RIM2 manifest size is invalid")
  else do
    let (body, trailer) ← readRim2Header manifest
    let body ← readRim2Body body
    let trailer ← readRim2Trailer trailer
    .ok ⟨body, trailer⟩

/-- What `parse_rim2` returns of a manifest. -/
def rim2Result (crypto : Crypto) (raw : Bytes) (m : Rim2) : Rim2Manifest where
  raw := raw
  manifestSha256 := crypto.sha256Hex raw
  appId := guidText m.body.app
  releaseId := guidText m.body.release
  versionCode := m.body.versionCode
  version := m.body.version
  arch := archText m.body.arch
  rootKeyId := m.trailer.rootKeyId
  signerKeyId := m.trailer.signerKeyId
  files := m.body.files

/-- `parse_rim2`. -/
def parseRim2 (crypto : Crypto) (expected : Rim2Expected) (manifest : Bytes) :
    Except Error Rim2Manifest := do
  let m ← readRim2 manifest
  if rim2Mismatch expected m then
    .error (rim2Error "host_release_mismatch" "RIM2 identity does not match this release")
  else do
    let certified ← crypto.ed25519Verify expected.rootTrustPublicKey m.keyMessage
      (Base64Url.encode m.trailer.rootSignature)
    if ¬ certified then
      .error (rim2Error "host_root_signature_invalid" "RIM2 root certificate signature is invalid")
    else do
      let signed ← crypto.ed25519Verify (Base64Url.encode m.trailer.signerPublic)
        m.manifestMessage (Base64Url.encode m.trailer.manifestSignature)
      if ¬ signed then
        .error (rim2Error "host_manifest_signature_invalid" "RIM2 manifest signature is invalid")
      else .ok (rim2Result crypto manifest m)

/-! ## What the readers accept -/

theorem readRim2File_eq_ok {data rest : Bytes} {file : Rim2File} :
    readRim2File data = .ok (file, rest) ↔ data = file.encode ++ rest ∧ file.Fits := by
  unfold readRim2File Rim2File.encode
  constructor
  · intro h
    obtain ⟨⟨path, rest₁⟩, hpath, h⟩ := bind_eq_ok.mp h
    obtain ⟨⟨size, rest₂⟩, hsize, h⟩ := bind_eq_ok.mp h
    obtain ⟨⟨sha256, rest₃⟩, hsha, h⟩ := bind_eq_ok.mp h
    obtain ⟨rfl, rfl⟩ := Prod.mk.inj (Except.ok.inj h)
    obtain ⟨rfl, hpathLength⟩ := counted_eq_ok.mp hpath
    obtain ⟨rfl, hsizeBound⟩ := number_eq_ok.mp hsize
    obtain ⟨rfl, hshaLength⟩ := take_eq_ok.mp hsha
    exact ⟨by simp only [List.append_assoc], hpathLength, hsizeBound, hshaLength⟩
  · rintro ⟨rfl, hfits⟩
    simp only [List.append_assoc]
    refine bind_eq_ok.mpr ⟨_, counted_eq_ok.mpr ⟨rfl, hfits.path⟩, ?_⟩
    refine bind_eq_ok.mpr ⟨_, number_eq_ok.mpr ⟨rfl, hfits.size⟩, ?_⟩
    exact bind_eq_ok.mpr ⟨_, take_eq_ok.mpr ⟨rfl, hfits.sha256⟩, rfl⟩

theorem admitRim2File_eq_ok {before : List Rim2File} {file : Rim2File} :
    admitRim2File before file = .ok () ↔
      file.Valid ∧ lower file.path ∉ before.map fun old => lower old.path := by
  unfold admitRim2File
  rw [guard_eq_ok, not_or, not_or, not_or, not_not]
  simp only [List.all_eq_true, decide_eq_true_eq, List.contains_iff_mem, and_true]
  constructor
  · rintro ⟨hpath, hsize, hsha, hnew⟩
    exact ⟨⟨hpath, hsize, hsha⟩, hnew⟩
  · rintro ⟨hvalid, hnew⟩
    exact ⟨hvalid.path, hvalid.size, hvalid.sha256, hnew⟩

/-- **A body is accepted exactly when it is the encoding of a well-formed one.** -/
theorem readRim2Body_eq_ok {data : Bytes} {body : Rim2Body} :
    readRim2Body data = .ok body ↔ data = body.encode ∧ body.WellFormed := by
  unfold readRim2Body Rim2Body.encode
  constructor
  · intro h
    obtain ⟨⟨app, rest₁⟩, happ, h⟩ := bind_eq_ok.mp h
    obtain ⟨⟨release, rest₂⟩, hrelease, h⟩ := bind_eq_ok.mp h
    obtain ⟨⟨code, rest₃⟩, hcode, h⟩ := bind_eq_ok.mp h
    obtain ⟨⟨platform, rest₄⟩, hplatform, h⟩ := bind_eq_ok.mp h
    obtain ⟨⟨arch, rest₅⟩, harch, h⟩ := bind_eq_ok.mp h
    obtain ⟨⟨version, rest₆⟩, hversion, h⟩ := bind_eq_ok.mp h
    obtain ⟨⟨count, rest₇⟩, hcount, h⟩ := bind_eq_ok.mp h
    obtain ⟨hfields, h⟩ := guard_eq_ok.mp h
    obtain ⟨⟨files, rest₈⟩, hfiles, h⟩ := bind_eq_ok.mp h
    obtain ⟨hrest, h⟩ := guard_eq_ok.mp h
    obtain rfl := Except.ok.inj h
    obtain rfl := not_not.mp hrest
    obtain ⟨rfl, happLength⟩ := take_eq_ok.mp happ
    obtain ⟨rfl, hreleaseLength⟩ := take_eq_ok.mp hrelease
    obtain ⟨rfl, hcodeBound⟩ := number_eq_ok.mp hcode
    obtain ⟨rfl, hplatformBound⟩ := number_eq_ok.mp hplatform
    obtain ⟨rfl, harchBound⟩ := number_eq_ok.mp harch
    obtain ⟨rfl, -⟩ := counted_eq_ok.mp hversion
    obtain ⟨rfl, -⟩ := number_eq_ok.mp hcount
    obtain ⟨rfl, rfl, hall, hdistinct, -⟩ :=
      (entries_eq_ok readRim2File_eq_ok admitRim2File_eq_ok).mp hfiles
    -- the count that was checked is the number of the entries
    have hnonempty : files ≠ [] := by
      rintro rfl
      simp at hfields
    have hshort : version.length ≤ 100 := by omega
    have hfew : files.length ≤ 255 := by omega
    refine ⟨by rw [List.append_nil], happLength, hreleaseLength, hcodeBound, hplatformBound,
      harchBound, ⟨fun hnil => ?_, hshort⟩, ⟨hnonempty, hfew⟩, hall, hdistinct⟩
    exact hfields (.inr (.inr (.inl hnil)))
  · rintro ⟨rfl, hw⟩
    have hcount : body.files.length ≠ 0 := fun hzero =>
      hw.count.1 (List.length_eq_zero_iff.mp hzero)
    have hfew := hw.count.2
    have hshort := hw.version.2
    refine bind_eq_ok.mpr ⟨_, take_eq_ok.mpr ⟨rfl, hw.app⟩, ?_⟩
    refine bind_eq_ok.mpr ⟨_, take_eq_ok.mpr ⟨rfl, hw.release⟩, ?_⟩
    refine bind_eq_ok.mpr ⟨_, number_eq_ok.mpr ⟨rfl, hw.versionCode⟩, ?_⟩
    refine bind_eq_ok.mpr ⟨_, number_eq_ok.mpr ⟨rfl, hw.platform⟩, ?_⟩
    refine bind_eq_ok.mpr ⟨_, number_eq_ok.mpr ⟨rfl, hw.arch⟩, ?_⟩
    refine bind_eq_ok.mpr ⟨_, counted_eq_ok.mpr ⟨rfl, by omega⟩, ?_⟩
    refine bind_eq_ok.mpr ⟨_, number_eq_ok.mpr ⟨rfl, by omega⟩, ?_⟩
    refine guard_eq_ok.mpr ⟨?_, ?_⟩
    · rintro (hzero | hmany | hnil | hlong)
      · exact hcount hzero
      · omega
      · exact hw.version.1 hnil
      · omega
    · refine bind_eq_ok.mpr ⟨(body.files, []), ?_, guard_eq_ok.mpr ⟨by simp, rfl⟩⟩
      exact (entries_eq_ok readRim2File_eq_ok admitRim2File_eq_ok).mpr
        ⟨by rw [List.append_nil], rfl, hw.files, hw.distinct, by simp⟩

theorem readRim2Trailer_eq_ok {data : Bytes} {trailer : Rim2Trailer} :
    readRim2Trailer data = .ok trailer ↔ data = trailer.encode ∧ trailer.WellFormed := by
  unfold readRim2Trailer Rim2Trailer.encode
  constructor
  · intro h
    obtain ⟨⟨rootKeyId, rest₁⟩, hroot, h⟩ := bind_eq_ok.mp h
    obtain ⟨⟨signerKeyId, rest₂⟩, hsigner, h⟩ := bind_eq_ok.mp h
    obtain ⟨⟨signerPublic, rest₃⟩, hpublic, h⟩ := bind_eq_ok.mp h
    obtain ⟨⟨rootSignature, rest₄⟩, hrootSig, h⟩ := bind_eq_ok.mp h
    obtain ⟨⟨manifestSignature, rest₅⟩, hsig, h⟩ := bind_eq_ok.mp h
    obtain ⟨hfields, h⟩ := guard_eq_ok.mp h
    obtain rfl := Except.ok.inj h
    simp only [not_or, not_not] at hfields
    obtain ⟨rfl, hroot₁, hroot₂, hsigner₁, hsigner₂⟩ := hfields
    obtain ⟨rfl, -⟩ := counted_eq_ok.mp hroot
    obtain ⟨rfl, -⟩ := counted_eq_ok.mp hsigner
    obtain ⟨rfl, hpublicLength⟩ := take_eq_ok.mp hpublic
    obtain ⟨rfl, hrootLength⟩ := take_eq_ok.mp hrootSig
    obtain ⟨rfl, hsigLength⟩ := take_eq_ok.mp hsig
    exact ⟨by rw [List.append_nil], ⟨hroot₁, Nat.not_lt.mp hroot₂⟩,
      ⟨hsigner₁, Nat.not_lt.mp hsigner₂⟩, hpublicLength, hrootLength, hsigLength⟩
  · rintro ⟨rfl, hw⟩
    have hroot := hw.rootKeyId.2
    have hsigner := hw.signerKeyId.2
    refine bind_eq_ok.mpr ⟨_, counted_eq_ok.mpr ⟨rfl, by omega⟩, ?_⟩
    refine bind_eq_ok.mpr ⟨_, counted_eq_ok.mpr ⟨rfl, by omega⟩, ?_⟩
    refine bind_eq_ok.mpr ⟨_, take_eq_ok.mpr ⟨rfl, hw.signerPublic⟩, ?_⟩
    refine bind_eq_ok.mpr ⟨_, take_eq_ok.mpr ⟨rfl, hw.rootSignature⟩, ?_⟩
    refine bind_eq_ok.mpr ⟨(trailer.manifestSignature, []),
      take_eq_ok.mpr ⟨by rw [List.append_nil], hw.manifestSignature⟩, ?_⟩
    refine guard_eq_ok.mpr ⟨?_, rfl⟩
    rintro (hrest | hnil | hlong | hnil | hlong)
    · exact hrest rfl
    · exact hw.rootKeyId.1 hnil
    · omega
    · exact hw.signerKeyId.1 hnil
    · omega

theorem readRim2Header_eq_ok {manifest body trailer : Bytes} :
    readRim2Header manifest = .ok (body, trailer) ↔
      manifest = rim2Magic ++ (bigEndian 2 2 ++ (frame 4 body ++ trailer)) ∧ body ≠ [] ∧
        body.length < 256 ^ 4 := by
  unfold readRim2Header
  constructor
  · intro h
    obtain ⟨⟨header, rest₁⟩, hheader, h⟩ := bind_eq_ok.mp h
    obtain ⟨hmagic, h⟩ := guard_eq_ok.mp h
    obtain ⟨⟨version, rest₂⟩, hversion, h⟩ := bind_eq_ok.mp h
    obtain ⟨htwo, h⟩ := guard_eq_ok.mp h
    obtain ⟨⟨size, rest₃⟩, hsize, h⟩ := bind_eq_ok.mp h
    obtain ⟨hfits, h⟩ := guard_eq_ok.mp h
    obtain ⟨rfl, rfl⟩ := Prod.mk.inj (Except.ok.inj h)
    obtain ⟨rfl, -⟩ := take_eq_ok.mp hheader
    obtain ⟨rfl, -⟩ := number_eq_ok.mp hversion
    obtain ⟨rfl, hlt⟩ := number_eq_ok.mp hsize
    obtain rfl := not_not.mp hmagic
    obtain rfl := not_not.mp htwo
    have hlength : (rest₃.take size).length = size := by
      rw [List.length_take]
      omega
    refine ⟨?_, ?_, by rw [hlength]; exact hlt⟩
    · rw [frame, hlength, List.append_assoc, List.take_append_drop]
    · intro hnil
      rw [hnil] at hlength
      exact hfits (.inl hlength.symm)
  · rintro ⟨rfl, hne, hlt⟩
    have hpos : body.length ≠ 0 := fun hzero => hne (List.length_eq_zero_iff.mp hzero)
    refine bind_eq_ok.mpr ⟨_, take_eq_ok.mpr ⟨rfl, by decide⟩, guard_eq_ok.mpr ⟨by simp, ?_⟩⟩
    refine bind_eq_ok.mpr ⟨_, number_eq_ok.mpr ⟨rfl, by decide⟩, guard_eq_ok.mpr ⟨by simp, ?_⟩⟩
    refine bind_eq_ok.mpr ⟨(body.length, body ++ trailer),
      number_eq_ok.mpr ⟨by rw [frame, List.append_assoc], hlt⟩, guard_eq_ok.mpr ⟨?_, ?_⟩⟩
    · rw [List.length_append]
      omega
    · rw [List.take_left, List.drop_left]

theorem Rim2Body.encode_ne_nil_of {body : Rim2Body} (hw : body.WellFormed) : body.encode ≠ [] := by
  intro hnil
  have hlength := congrArg List.length hnil
  rw [Rim2Body.encode, List.length_append, hw.app, List.length_nil] at hlength
  omega

theorem body_length_lt (m : Rim2) (h : m.encode.length ≤ 64 * 1024) :
    m.body.encode.length < 256 ^ 4 := by
  have hlength : m.body.encode.length ≤ m.encode.length := by
    simp only [Rim2.encode, frame, List.length_append]
    omega
  omega

/-- **A text is read exactly when it is the encoding of a well-formed manifest.** -/
theorem readRim2_eq_ok {manifest : Bytes} {m : Rim2} :
    readRim2 manifest = .ok m ↔ manifest = m.encode ∧ m.WellFormed := by
  unfold readRim2
  rw [guard_eq_ok]
  constructor
  · rintro ⟨hsize, h⟩
    obtain ⟨⟨body, trailer⟩, hheader, h⟩ := bind_eq_ok.mp h
    obtain ⟨body', hbody, h⟩ := bind_eq_ok.mp h
    obtain ⟨trailer', htrailer, h⟩ := bind_eq_ok.mp h
    obtain rfl := Except.ok.inj h
    obtain ⟨rfl, -, -⟩ := readRim2Header_eq_ok.mp hheader
    obtain ⟨rfl, hwellBody⟩ := readRim2Body_eq_ok.mp hbody
    obtain ⟨rfl, hwellTrailer⟩ := readRim2Trailer_eq_ok.mp htrailer
    exact ⟨rfl, hwellBody, hwellTrailer, Nat.not_lt.mp fun hlong => hsize (.inr hlong)⟩
  · rintro ⟨rfl, hw⟩
    refine ⟨?_, bind_eq_ok.mpr ⟨(m.body.encode, m.trailer.encode), ?_, ?_⟩⟩
    · rintro (hnil | hlong)
      · have hlength := congrArg List.length hnil
        simp [Rim2.encode, rim2Magic, bigEndian_length] at hlength
      · exact absurd hw.size (Nat.not_le.mpr hlong)
    · exact readRim2Header_eq_ok.mpr ⟨rfl, Rim2Body.encode_ne_nil_of hw.body,
        body_length_lt m hw.size⟩
    · refine bind_eq_ok.mpr ⟨m.body, readRim2Body_eq_ok.mpr ⟨rfl, hw.body⟩, ?_⟩
      exact bind_eq_ok.mpr ⟨m.trailer, readRim2Trailer_eq_ok.mpr ⟨rfl, hw.trailer⟩, rfl⟩

/-- **An encoding tells the manifest.** -/
theorem encode_unique {first second : Rim2} (hfirst : first.WellFormed)
    (hsecond : second.WellFormed) (h : first.encode = second.encode) : first = second := by
  have hread := readRim2_eq_ok.mpr ⟨rfl, hfirst⟩
  rw [h, readRim2_eq_ok.mpr ⟨rfl, hsecond⟩] at hread
  exact (Except.ok.inj hread).symm

/-- A manifest of the release that is expected, signed by a key that the root key
certified. -/
structure Rim2Admissible (crypto : Crypto) (expected : Rim2Expected) (m : Rim2) : Prop where
  wellFormed : m.WellFormed
  identity : ¬ rim2Mismatch expected m
  certified : crypto.ed25519Verify expected.rootTrustPublicKey m.keyMessage
    (Base64Url.encode m.trailer.rootSignature) = .ok true
  signed : crypto.ed25519Verify (Base64Url.encode m.trailer.signerPublic) m.manifestMessage
    (Base64Url.encode m.trailer.manifestSignature) = .ok true

/-- **What `parse_rim2` accepts, and what it returns.** -/
theorem parseRim2_eq_ok {crypto : Crypto} {expected : Rim2Expected} {manifest : Bytes}
    {result : Rim2Manifest} :
    parseRim2 crypto expected manifest = .ok result ↔
      ∃ m, manifest = m.encode ∧ Rim2Admissible crypto expected m ∧
        result = rim2Result crypto manifest m := by
  unfold parseRim2
  rw [bind_eq_ok]
  refine exists_congr fun m => ?_
  constructor
  · rintro ⟨hread, h⟩
    obtain ⟨hencode, hwell⟩ := readRim2_eq_ok.mp hread
    obtain ⟨hidentity, h⟩ := guard_eq_ok.mp h
    obtain ⟨certified, hcertified, h⟩ := bind_eq_ok.mp h
    obtain ⟨hroot, h⟩ := guard_eq_ok.mp h
    obtain ⟨signed, hsigned, h⟩ := bind_eq_ok.mp h
    obtain ⟨hmanifest, h⟩ := guard_eq_ok.mp h
    rw [not_not.mp hroot] at hcertified
    rw [not_not.mp hmanifest] at hsigned
    exact ⟨hencode, ⟨hwell, hidentity, hcertified, hsigned⟩, (Except.ok.inj h).symm⟩
  · rintro ⟨hencode, hm, rfl⟩
    refine ⟨readRim2_eq_ok.mpr ⟨hencode, hm.wellFormed⟩, guard_eq_ok.mpr ⟨hm.identity, ?_⟩⟩
    refine bind_eq_ok.mpr ⟨true, hm.certified, guard_eq_ok.mpr ⟨by simp, ?_⟩⟩
    exact bind_eq_ok.mpr ⟨true, hm.signed, guard_eq_ok.mpr ⟨by simp, rfl⟩⟩

/-- **The format has one reading.**  Every admissible manifest is read back from its encoding
with its own fields and files; and every text that is accepted is the encoding of
exactly one admissible manifest. -/
theorem parseRim2_encode (crypto : Crypto) (expected : Rim2Expected) :
    (∀ m, Rim2Admissible crypto expected m →
      parseRim2 crypto expected m.encode = .ok {
        raw := m.encode
        manifestSha256 := crypto.sha256Hex m.encode
        appId := guidText m.body.app
        releaseId := guidText m.body.release
        versionCode := m.body.versionCode
        version := m.body.version
        arch := archText m.body.arch
        rootKeyId := m.trailer.rootKeyId
        signerKeyId := m.trailer.signerKeyId
        files := m.body.files }) ∧
    ∀ manifest result, parseRim2 crypto expected manifest = .ok result →
      ∃! m, Rim2Admissible crypto expected m ∧ manifest = m.encode := by
  constructor
  · intro m hm
    exact parseRim2_eq_ok.mpr ⟨m, rfl, hm, rfl⟩
  · intro manifest result h
    obtain ⟨m, rfl, hm, -⟩ := parseRim2_eq_ok.mp h
    refine ⟨m, ⟨hm, rfl⟩, ?_⟩
    rintro other ⟨hother, hencode⟩
    exact encode_unique hother.wellFormed hm.wellFormed hencode.symm

end Cpp

/-! A signed manifest of one file, with real signatures. -/

/-- A manifest with one file. -/
def sampleRim2 : Rim2 where
  body := {
    app := (List.range 16).map fun n => UInt8.ofNat (n + 1)
    release := (List.range 16).map fun n => UInt8.ofNat (n + 17)
    versionCode := 7
    platform := 1
    arch := 2
    version := ascii "1.2.0"
    files := [⟨ascii "app.exe", 3, appDigest⟩] }
  trailer := {
    rootKeyId := ascii "root"
    signerKeyId := ascii "m1"
    signerPublic :=
     [0x3d, 0x40, 0x17, 0xc3, 0xe8, 0x43, 0x89, 0x5a, 0x92, 0xb7, 0x0a, 0xa7, 0x4d, 0x1b, 0x7e, 0xbc,
     0x9c, 0x98, 0x2c, 0xcf, 0x2e, 0xc4, 0x96, 0x8c, 0xc0, 0xcd, 0x55, 0xf1, 0x2a, 0xf4, 0x66, 0x0c]
    rootSignature :=
     [0x74, 0x53, 0xac, 0xe5, 0x70, 0x30, 0xf4, 0x27, 0xd0, 0xf2, 0x87, 0xcb, 0x32, 0x54, 0xaa, 0x7e,
     0x42, 0x9b, 0xb2, 0x2d, 0xc6, 0x17, 0xdc, 0x7d, 0x29, 0xfa, 0x83, 0xb7, 0xe6, 0x92, 0xee, 0x59,
     0x4f, 0x62, 0xb6, 0xc1, 0xcc, 0x07, 0x93, 0x25, 0xf3, 0x6e, 0x2e, 0xc5, 0x28, 0xb4, 0xe4, 0x6e,
     0x4b, 0x99, 0x6c, 0xa8, 0x66, 0x1c, 0x9d, 0xfd, 0xce, 0xa4, 0xa7, 0x9b, 0x60, 0xec, 0xd8, 0x0e]
    manifestSignature :=
     [0x5c, 0x2b, 0x03, 0x56, 0x76, 0xcb, 0xe1, 0x19, 0x4c, 0x86, 0x4b, 0x6d, 0x34, 0xe6, 0x58, 0x20,
     0xfa, 0x71, 0x20, 0x2e, 0x94, 0x9a, 0x1b, 0xab, 0x67, 0xce, 0xb4, 0x41, 0x6a, 0xe1, 0x92, 0x84,
     0x9d, 0x6a, 0x45, 0x57, 0x50, 0x78, 0xb6, 0xdb, 0x13, 0x90, 0x36, 0x33, 0x36, 0xfa, 0x91, 0x61,
     0xbd, 0x29, 0x1e, 0x3c, 0xdb, 0x5f, 0x4a, 0x18, 0xd4, 0x8d, 0xbc, 0x58, 0x4d, 0xbe, 0xc2, 0x01] }

def sampleRootKey : Bytes := ascii "_FHNjmIYoaONpH7QAjDwWAgW7RO6MwOsXeuRFUiQgCU"

/-- The signatures of the sample manifest hold. -/
def sampleRim2Crypto : Crypto :=
  listedCrypto [] [
    (sampleRootKey, sampleRim2.keyMessage, Base64Url.encode sampleRim2.trailer.rootSignature),
    (Base64Url.encode sampleRim2.trailer.signerPublic, sampleRim2.manifestMessage,
      Base64Url.encode sampleRim2.trailer.manifestSignature)]

/-- The release that the sample manifest is for. -/
def sampleExpected : Rim2Expected where
  appId := ascii "01020304-0506-0708-090a-0b0c0d0e0f10"
  releaseId := ascii "11121314-1516-1718-191a-1b1c1d1e1f20"
  version := ascii "1.2.0"
  versionCode := some 7
  arch := ascii "x64"
  rootKeyId := ascii "root"
  rootTrustPublicKey := sampleRootKey

theorem sampleRim2_wellFormed : sampleRim2.WellFormed where
  body := ⟨rfl, rfl, by decide, by decide, by decide, by decide, by decide, by
    intro file hfile
    obtain rfl := List.mem_singleton.mp hfile
    exact ⟨⟨by decide, by decide, by decide⟩, ⟨by decide, by decide, by decide⟩⟩, by decide⟩
  trailer := ⟨by decide, by decide, rfl, rfl, rfl⟩
  size := by decide +kernel

namespace Cpp

/-- The sample is read back. -/
theorem parseRim2_encode_sample :
    Rim2Admissible sampleRim2Crypto sampleExpected sampleRim2 ∧
      parseRim2 sampleRim2Crypto sampleExpected sampleRim2.encode =
        .ok (rim2Result sampleRim2Crypto sampleRim2.encode sampleRim2) := by
  have hsample : Rim2Admissible sampleRim2Crypto sampleExpected sampleRim2 :=
    ⟨sampleRim2_wellFormed, by decide, by decide +kernel, by decide +kernel⟩
  exact ⟨hsample, (parseRim2_encode sampleRim2Crypto sampleExpected).1 sampleRim2 hsample⟩

end Cpp
end SwmSdk
