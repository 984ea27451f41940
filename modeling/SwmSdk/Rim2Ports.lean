import SwmSdk.CSharpText
import SwmSdk.Rim2

/-! # Release integrity manifests in Go, C# and Rust

The other parsers of RIM2 have one shape (`Dialect`): they check a version before they
count the files, and texts must be UTF-8.  They differ in their errors, in what they take as the
length of a text, a safe path and the same path, and in how they compare a UUID.

On manifests whose texts are ASCII the dialects accept the same encodings, up to the
identity of the release: C++ and C# compare the UUID in the byte order of its text, Go and
Rust in the mixed order that .NET writes.  When the four agree on a text is `rim2_agree_iff`.
-/
namespace SwmSdk
open ByteText ByteCodec Outcome

/-! ## The shape of the other parsers -/

/-- What one of the other parsers does its own way. -/
structure Dialect (ε κ : Type) where
  sizeInvalid : ε
  /-- The shortest text whose magic is looked at. -/
  minimum : Nat
  minimum_le : minimum ≤ 14
  magicInvalid : ε
  headerInvalid : ε
  truncated : ε
  notUtf8 : ε
  idsTruncated : ε
  marksTruncated : ε
  versionInvalid : ε
  countInvalid : ε
  hashTruncated : ε
  unsafeFile : ε
  duplicateFile : ε
  bodyTrailing : ε
  keyIdInvalid : ε
  trailerTruncated : ε
  trailerInvalid : ε
  length : Bytes → Nat
  safe : Bytes → Bool
  key : Bytes → κ

namespace Dialect
variable {ε κ : Type} [DecidableEq κ] (d : Dialect ε κ)

/-- A text behind its length, which must be UTF-8. -/
def readText (width : Nat) (data : Bytes) : Except ε (Bytes × Bytes) := do
  let (text, rest) ← counted width d.truncated data
  if ¬ validUtf8 text then .error d.notUtf8 else .ok (text, rest)

/-- A file entry, as it stands in the body. -/
def readFile (data : Bytes) : Except ε (Rim2File × Bytes) := do
  let (path, rest) ← d.readText 2 data
  let (size, rest) ← number 8 d.truncated rest
  let (sha256, rest) ← take 32 d.hashTruncated rest
  .ok (⟨path, size, sha256⟩, rest)

/-- The checks of an entry against those before it. -/
def admitFile (before : List Rim2File) (file : Rim2File) : Except ε Unit :=
  if ¬ d.safe file.path ∨ file.size = 0 ∨ file.sha256.all (· = 0) then .error d.unsafeFile
  else if (before.map fun old => d.key old.path).contains (d.key file.path) then
    .error d.duplicateFile
  else .ok ()

/-- The magic, the format version and the length of the body: the body and the trailer. -/
def readHeader (raw : Bytes) : Except ε (Bytes × Bytes) :=
  if raw.length < d.minimum ∨ raw.take 8 ≠ rim2Magic then .error d.magicInvalid
  else do
    let (version, rest) ← number 2 d.truncated (raw.drop 8)
    let (bodySize, rest) ← number 4 d.truncated rest
    if version ≠ 2 ∨ bodySize = 0 ∨ bodySize > rest.length then .error d.headerInvalid
    else .ok (rest.take bodySize, rest.drop bodySize)

/-- The body of a manifest: the fields of the release, and then its files. -/
def readBody (data : Bytes) : Except ε Rim2Body := do
  let (app, rest) ← take 16 d.idsTruncated data
  let (release, rest) ← take 16 d.idsTruncated rest
  let (versionCode, rest) ← number 8 d.truncated rest
  let (platform, rest) ← number 1 d.marksTruncated rest
  let (arch, rest) ← number 1 d.marksTruncated rest
  let (version, rest) ← d.readText 2 rest
  if d.length version = 0 ∨ d.length version > 100 then .error d.versionInvalid
  else do
    let (fileCount, rest) ← number 2 d.truncated rest
    if fileCount = 0 ∨ fileCount > 255 then .error d.countInvalid
    else do
      let (files, rest) ← entries d.readFile d.admitFile fileCount [] rest
      if rest ≠ [] then .error d.bodyTrailing
      else .ok ⟨app, release, versionCode, platform, arch, version, files⟩

/-- The trailer of a manifest, whose key ids are texts of length 1 to 64. -/
def readTrailer (data : Bytes) : Except ε Rim2Trailer := do
  let (rootKeyId, rest) ← d.readText 1 data
  let (signerKeyId, rest) ← d.readText 1 rest
  if d.length rootKeyId = 0 ∨ d.length rootKeyId > 64 ∨ d.length signerKeyId = 0 ∨
      d.length signerKeyId > 64 then .error d.keyIdInvalid
  else do
    let (signerPublic, rest) ← take 32 d.trailerTruncated rest
    let (rootSignature, rest) ← take 64 d.trailerTruncated rest
    let (manifestSignature, rest) ← take 64 d.trailerTruncated rest
    if rest ≠ [] then .error d.trailerInvalid
    else .ok ⟨rootKeyId, signerKeyId, signerPublic, rootSignature, manifestSignature⟩

/-- The manifest that is read, before its identity and signatures are checked. -/
def read (raw : Bytes) : Except ε Rim2 :=
  if raw = [] ∨ raw.length > 64 * 1024 then .error d.sizeInvalid
  else do
    let (body, trailer) ← d.readHeader raw
    let body ← d.readBody body
    let trailer ← d.readTrailer trailer
    .ok ⟨body, trailer⟩

end Dialect

/-- The Ed25519 check as the other SDKs call it: under the root key, which is a text of the
options, and under a key of the manifest. -/
structure SignatureCheck where
  root : Bytes → Bytes → Bytes → Except Error Bool
  signer : Bytes → Bytes → Bytes → Except Error Bool

/-- The check that C++ calls, on the bytes that the texts it passes stand for. -/
def Crypto.signatureCheck (crypto : Crypto) : SignatureCheck where
  root key message signature := crypto.ed25519Verify key message (Base64Url.encode signature)
  signer key message signature :=
    crypto.ed25519Verify (Base64Url.encode key) message (Base64Url.encode signature)

/-- The order in which .NET writes the bytes of a UUID, from the order of its text, and back. -/
def swapGuid (bytes : Bytes) : Bytes :=
  (bytes.take 4).reverse ++ ((bytes.drop 4).take 2).reverse ++ ((bytes.drop 6).take 2).reverse ++
    bytes.drop 8

/-! ## Go -/

namespace Go

/-- `rim2.Error`. -/
structure Rim2Error where
  code : Bytes
  message : Bytes
  deriving DecidableEq, Repr

/-- `fail`. -/
def rim2Fail (code message : String) : Rim2Error := ⟨ascii code, ascii message⟩

/-- The errors of a manifest that cannot be read. -/
def rim2Invalid (message : String) : Rim2Error := rim2Fail "host_manifest_invalid" message

/-- `strings.ToLower`, of which only its action on ASCII is fixed here. -/
structure Casing where
  toLower : Bytes → Bytes
  toLower_ascii : ∀ text, (∀ b ∈ text, b < 0x80) → toLower text = lower text

/-- The white space that `strings.TrimSpace` takes off the start. -/
def trimStart : Bytes → Bytes
  | 0xc2 :: 0x85 :: rest => trimStart rest
  | 0xc2 :: 0xa0 :: rest => trimStart rest
  | 0xe1 :: 0x9a :: 0x80 :: rest => trimStart rest
  | 0xe2 :: 0x80 :: b :: rest =>
      if (0x80 ≤ b ∧ b ≤ 0x8a) ∨ b = 0xa8 ∨ b = 0xa9 ∨ b = 0xaf then trimStart rest
      else 0xe2 :: 0x80 :: b :: rest
  | 0xe2 :: 0x81 :: 0x9f :: rest => trimStart rest
  | 0xe3 :: 0x80 :: 0x80 :: rest => trimStart rest
  | b :: rest => if (0x09 ≤ b ∧ b ≤ 0x0d) ∨ b = 0x20 then trimStart rest else b :: rest
  | [] => []

/-- The same, from the end of a text that is given from its end. -/
def trimEnd : Bytes → Bytes
  | 0x85 :: 0xc2 :: rest => trimEnd rest
  | 0xa0 :: 0xc2 :: rest => trimEnd rest
  | 0x80 :: 0x9a :: 0xe1 :: rest => trimEnd rest
  | 0x80 :: 0x80 :: 0xe3 :: rest => trimEnd rest
  | 0x9f :: 0x81 :: 0xe2 :: rest => trimEnd rest
  | b :: 0x80 :: 0xe2 :: rest =>
      if (0x80 ≤ b ∧ b ≤ 0x8a) ∨ b = 0xa8 ∨ b = 0xa9 ∨ b = 0xaf then trimEnd rest
      else b :: 0x80 :: 0xe2 :: rest
  | b :: rest => if (0x09 ≤ b ∧ b ≤ 0x0d) ∨ b = 0x20 then trimEnd rest else b :: rest
  | [] => []

/-- `strings.TrimSpace`. -/
def trimSpace (text : Bytes) : Bytes := (trimEnd (trimStart text).reverse).reverse

theorem trimStart_suffix (text : Bytes) : trimStart text <:+ text := by
  fun_induction trimStart text with
  | case1 rest ih => exact ih.trans (List.suffix_append [_, _] rest)
  | case2 rest ih => exact ih.trans (List.suffix_append [_, _] rest)
  | case3 rest ih => exact ih.trans (List.suffix_append [_, _, _] rest)
  | case4 b rest _ ih => exact ih.trans (List.suffix_append [_, _, b] rest)
  | case5 => exact List.suffix_rfl
  | case6 rest ih => exact ih.trans (List.suffix_append [_, _, _] rest)
  | case7 rest ih => exact ih.trans (List.suffix_append [_, _, _] rest)
  | case8 b rest _ _ _ _ _ _ _ ih => exact ih.trans (List.suffix_cons b rest)
  | case9 => exact List.suffix_rfl
  | case10 => exact List.suffix_rfl

theorem trimEnd_suffix (text : Bytes) : trimEnd text <:+ text := by
  fun_induction trimEnd text with
  | case1 rest ih => exact ih.trans (List.suffix_append [_, _] rest)
  | case2 rest ih => exact ih.trans (List.suffix_append [_, _] rest)
  | case3 rest ih => exact ih.trans (List.suffix_append [_, _, _] rest)
  | case4 rest ih => exact ih.trans (List.suffix_append [_, _, _] rest)
  | case5 rest ih => exact ih.trans (List.suffix_append [_, _, _] rest)
  | case6 b rest _ ih => exact ih.trans (List.suffix_append [b, _, _] rest)
  | case7 => exact List.suffix_rfl
  | case8 b rest _ _ _ _ _ _ _ ih => exact ih.trans (List.suffix_cons b rest)
  | case9 => exact List.suffix_rfl
  | case10 => exact List.suffix_rfl

theorem mem_trimSpace {text : Bytes} {b : UInt8} (h : b ∈ trimSpace text) : b ∈ text := by
  have hstart := (trimEnd_suffix _).mem (List.mem_reverse.mp h)
  exact (trimStart_suffix text).mem (List.mem_reverse.mp hstart)

/-- An ASCII byte that is no white space. -/
def VisibleByte (b : UInt8) : Prop := 0x20 < b ∧ b < 0x80

instance (b : UInt8) : Decidable (VisibleByte b) := inferInstanceAs (Decidable (_ ∧ _))

theorem VisibleByte.of_mem_cons {b c : UInt8} (hb : VisibleByte b) (hc : ¬ VisibleByte c)
    {text : Bytes} (h : b ∈ c :: text) : b ∈ text := by
  rcases List.mem_cons.mp h with rfl | h
  · exact absurd hb hc
  · exact h

theorem not_visible_of_blank {b : UInt8}
    (h : (0x80 ≤ b ∧ b ≤ 0x8a) ∨ b = 0xa8 ∨ b = 0xa9 ∨ b = 0xaf) : ¬ VisibleByte b := by
  rintro ⟨-, hb⟩
  rcases h with ⟨h, -⟩ | rfl | rfl | rfl
  · exact absurd (UInt8.lt_of_lt_of_le hb h) (UInt8.lt_irrefl b)
  · exact absurd hb (by decide)
  · exact absurd hb (by decide)
  · exact absurd hb (by decide)

theorem not_visible_of_space {b : UInt8} (h : (0x09 ≤ b ∧ b ≤ 0x0d) ∨ b = 0x20) :
    ¬ VisibleByte b := by
  rintro ⟨hb, -⟩
  rcases h with ⟨-, h⟩ | rfl
  · exact absurd (UInt8.lt_of_lt_of_le hb h) (by decide)
  · exact absurd hb (by decide)

/-- Trimming keeps what is no white space. -/
theorem VisibleByte.mem_trimStart {b : UInt8} (hb : VisibleByte b) {text : Bytes} (h : b ∈ text) :
    b ∈ trimStart text := by
  fun_induction trimStart text with
  | case1 rest ih => exact ih (hb.of_mem_cons (by decide) (hb.of_mem_cons (by decide) h))
  | case2 rest ih => exact ih (hb.of_mem_cons (by decide) (hb.of_mem_cons (by decide) h))
  | case3 rest ih =>
    exact ih (hb.of_mem_cons (by decide) (hb.of_mem_cons (by decide)
      (hb.of_mem_cons (by decide) h)))
  | case4 c rest hblank ih =>
    exact ih (hb.of_mem_cons (not_visible_of_blank hblank) (hb.of_mem_cons (by decide)
      (hb.of_mem_cons (by decide) h)))
  | case5 => exact h
  | case6 rest ih =>
    exact ih (hb.of_mem_cons (by decide) (hb.of_mem_cons (by decide)
      (hb.of_mem_cons (by decide) h)))
  | case7 rest ih =>
    exact ih (hb.of_mem_cons (by decide) (hb.of_mem_cons (by decide)
      (hb.of_mem_cons (by decide) h)))
  | case8 c rest _ _ _ _ _ _ hblank ih => exact ih (hb.of_mem_cons (not_visible_of_space hblank) h)
  | case9 => exact h
  | case10 => exact h

theorem VisibleByte.mem_trimEnd {b : UInt8} (hb : VisibleByte b) {text : Bytes} (h : b ∈ text) :
    b ∈ trimEnd text := by
  fun_induction trimEnd text with
  | case1 rest ih => exact ih (hb.of_mem_cons (by decide) (hb.of_mem_cons (by decide) h))
  | case2 rest ih => exact ih (hb.of_mem_cons (by decide) (hb.of_mem_cons (by decide) h))
  | case3 rest ih =>
    exact ih (hb.of_mem_cons (by decide) (hb.of_mem_cons (by decide)
      (hb.of_mem_cons (by decide) h)))
  | case4 rest ih =>
    exact ih (hb.of_mem_cons (by decide) (hb.of_mem_cons (by decide)
      (hb.of_mem_cons (by decide) h)))
  | case5 rest ih =>
    exact ih (hb.of_mem_cons (by decide) (hb.of_mem_cons (by decide)
      (hb.of_mem_cons (by decide) h)))
  | case6 c rest hblank ih =>
    exact ih (hb.of_mem_cons (by decide) (hb.of_mem_cons (by decide)
      (hb.of_mem_cons (not_visible_of_blank hblank) h)))
  | case7 => exact h
  | case8 c rest _ _ _ _ _ _ hblank ih => exact ih (hb.of_mem_cons (not_visible_of_space hblank) h)
  | case9 => exact h
  | case10 => exact h

theorem VisibleByte.mem_trimSpace {b : UInt8} (hb : VisibleByte b) {text : Bytes} (h : b ∈ text) :
    b ∈ trimSpace text :=
  List.mem_reverse.mpr (hb.mem_trimEnd (List.mem_reverse.mpr (hb.mem_trimStart h)))

/-- `archByte`. -/
def archByte (casing : Casing) (arch : Bytes) : Nat :=
  let value := casing.toLower (trimSpace arch)
  if value = ascii "x86" ∨ value = ascii "386" ∨ value = ascii "i386" ∨ value = ascii "win-x86" then
    1
  else if value = ascii "x64" ∨ value = ascii "amd64" ∨ value = ascii "win-x64" then 2
  else 0

/-- `uuidBytes`. -/
def uuidBytes (value : Bytes) : Option Bytes :=
  let clean := value.filter (· ≠ 0x2d)
  if clean.length ≠ 32 then none else (unhex clean).map swapGuid

/-- What the Go parser does in its own way, with its messages. -/
def rim2Dialect (casing : Casing) : Dialect Rim2Error Bytes where
  sizeInvalid := rim2Invalid "RIM2 manifest size is invalid"
  minimum := 8
  minimum_le := by decide
  magicInvalid := rim2Invalid "RIM2 manifest magic is invalid"
  headerInvalid := rim2Invalid "RIM2 manifest header is invalid"
  truncated := rim2Invalid "RIM2 manifest is truncated"
  notUtf8 := rim2Invalid "RIM2 manifest contains invalid UTF-8"
  idsTruncated := rim2Invalid "RIM2 manifest body is truncated"
  marksTruncated := rim2Invalid "RIM2 manifest body is truncated"
  versionInvalid := rim2Invalid "RIM2 release version is invalid"
  countInvalid := rim2Invalid "RIM2 manifest file count is invalid"
  hashTruncated := rim2Invalid "RIM2 manifest file hash is truncated"
  unsafeFile := rim2Invalid "RIM2 manifest contains an unsafe or empty file"
  duplicateFile := rim2Invalid "RIM2 manifest contains a duplicate file path"
  bodyTrailing := rim2Invalid "RIM2 manifest body contains trailing bytes"
  keyIdInvalid := rim2Invalid "RIM2 signing key id is invalid"
  trailerTruncated := rim2Invalid "RIM2 manifest trailer is truncated"
  trailerInvalid := rim2Invalid "RIM2 manifest trailer is invalid"
  length := List.length
  safe := safePath
  key := casing.toLower

/-- The manifest is for another release. -/
def rim2Mismatch (casing : Casing) (expected : Rim2Expected) (app release : Bytes) (m : Rim2) :
    Prop :=
  m.body.app ≠ app ∨ m.body.release ≠ release ∨ m.body.platform ≠ 1 ∨
    m.body.arch ≠ archByte casing expected.arch ∨ m.body.version ≠ expected.version ∨
    (∃ code ∈ expected.versionCode, m.body.versionCode ≠ unsignedCode code) ∨
    m.trailer.rootKeyId ≠ expected.rootKeyId

instance (casing : Casing) (expected : Rim2Expected) (app release : Bytes) (m : Rim2) :
    Decidable (rim2Mismatch casing expected app release m) := by
  unfold rim2Mismatch
  infer_instance

/-- The check of the root signature; the root key is a text of the options, which may be no key. -/
def checkRoot (check : Except Error Bool) : Except Rim2Error Unit :=
  match check with
  | .error _ => .error (rim2Fail "host_root_signature_invalid" "RIM2 root trust key is invalid")
  | .ok valid =>
      if valid then .ok ()
      else
        .error (rim2Fail "host_root_signature_invalid"
          "RIM2 root certificate signature is invalid")

/-- The check of the manifest's signature, under a key of its own: one that fails, whether it throws
or not, is reported as an invalid signature. -/
def holds (check : Except Error Bool) : Bool :=
  match check with
  | .ok valid => valid
  | .error _ => false

/-- `rim2.ParseAndVerify`; of the manifest it returns, the fields beside the raw bytes and their
digest. -/
def parseAndVerify (casing : Casing) (check : SignatureCheck) (expected : Rim2Expected)
    (raw : Bytes) : Except Rim2Error Rim2 := do
  let m ← (rim2Dialect casing).read raw
  match uuidBytes expected.appId, uuidBytes expected.releaseId with
  | none, _ => .error (rim2Invalid "expected app id is invalid")
  | some _, none => .error (rim2Invalid "expected release id is invalid")
  | some app, some release =>
      if rim2Mismatch casing expected app release m then
        .error (rim2Fail "host_release_mismatch"
          "RIM2 manifest identity does not match this release")
      else do
        checkRoot (check.root expected.rootTrustPublicKey m.keyMessage m.trailer.rootSignature)
        if ¬ holds (check.signer m.trailer.signerPublic m.manifestMessage
            m.trailer.manifestSignature) then
          .error (rim2Fail "host_manifest_signature_invalid" "RIM2 manifest signature is invalid")
        else .ok m

end Go

/-! ## Rust -/

namespace Rust

/-- `Error::integrity`. -/
def rim2Error (code message : String) : Error where
  kind := .integrity
  statusCode := 0
  serviceCode := ascii code
  message := ascii message

def rim2Invalid (message : String) : Error := rim2Error "host_manifest_invalid" message

/-- `arch_byte`. -/
def archByte (arch : Bytes) : Nat :=
  let value := lower arch
  if value = ascii "x86" ∨ value = ascii "386" ∨ value = ascii "i386" ∨ value = ascii "win-x86" then
    1
  else if value = ascii "x64" ∨ value = ascii "amd64" ∨ value = ascii "win-x64" then 2
  else 0

/-- `uuid_bytes`. -/
def uuidBytes (value : Bytes) : Except Error Bytes :=
  match unhex (value.filter (· ≠ 0x2d)) with
  | none => .error (rim2Invalid "expected UUID is invalid")
  | some bytes =>
      if bytes.length ≠ 16 then .error (rim2Invalid "expected UUID is invalid")
      else .ok (swapGuid bytes)

/-- What the Rust parser does in its own way, with its messages. -/
def rim2Dialect : Dialect Error Bytes where
  sizeInvalid := rim2Invalid "RIM2 manifest size is invalid"
  minimum := 8
  minimum_le := by decide
  magicInvalid := rim2Invalid "RIM2 manifest magic is invalid"
  headerInvalid := rim2Invalid "RIM2 manifest header is invalid"
  truncated := rim2Invalid "RIM2 manifest is truncated"
  notUtf8 := rim2Invalid "RIM2 manifest contains invalid UTF-8"
  idsTruncated := rim2Invalid "RIM2 manifest body is truncated"
  marksTruncated := rim2Invalid "RIM2 manifest body is truncated"
  versionInvalid := rim2Invalid "RIM2 release version is invalid"
  countInvalid := rim2Invalid "RIM2 manifest file count is invalid"
  hashTruncated := rim2Invalid "RIM2 manifest file hash is truncated"
  unsafeFile := rim2Invalid "RIM2 manifest contains an unsafe file"
  duplicateFile := rim2Invalid "RIM2 manifest contains a duplicate file path"
  bodyTrailing := rim2Invalid "RIM2 manifest body contains trailing bytes"
  keyIdInvalid := rim2Invalid "RIM2 signing key id or trailer is invalid"
  trailerTruncated := rim2Invalid "RIM2 signing key id or trailer is invalid"
  trailerInvalid := rim2Invalid "RIM2 manifest trailer is invalid"
  length := List.length
  safe := safePath
  key := lower

/-- The manifest is for another release; a negative version code fits none. -/
def rim2Mismatch (expected : Rim2Expected) (app release : Bytes) (m : Rim2) : Prop :=
  m.body.app ≠ app ∨ m.body.release ≠ release ∨ m.body.platform ≠ 1 ∨
    m.body.arch ≠ archByte expected.arch ∨ m.body.version ≠ expected.version ∨
    (∃ code ∈ expected.versionCode, ¬ (0 ≤ code ∧ m.body.versionCode = unsignedCode code)) ∨
    m.trailer.rootKeyId ≠ expected.rootKeyId

instance (expected : Rim2Expected) (app release : Bytes) (m : Rim2) :
    Decidable (rim2Mismatch expected app release m) := by
  unfold rim2Mismatch
  infer_instance

/-- `parse_and_verify`; of the manifest it returns, the fields beside the digest. -/
def parseAndVerify (check : SignatureCheck) (expected : Rim2Expected) (raw : Bytes) :
    Except Error Rim2 := do
  let m ← rim2Dialect.read raw
  let app ← uuidBytes expected.appId
  let release ← uuidBytes expected.releaseId
  if rim2Mismatch expected app release m then
    .error (rim2Error "host_release_mismatch" "RIM2 manifest identity does not match this release")
  else do
    let certified ← check.root expected.rootTrustPublicKey m.keyMessage m.trailer.rootSignature
    if ¬ certified then
      .error (rim2Error "host_root_signature_invalid" "RIM2 root certificate signature is invalid")
    else do
      let signed ← check.signer m.trailer.signerPublic m.manifestMessage
        m.trailer.manifestSignature
      if ¬ signed then
        .error (rim2Error "host_manifest_signature_invalid" "RIM2 manifest signature is invalid")
      else .ok m

end Rust

/-! ## C# -/

namespace CSharp

/-- What a C# call may throw: an exception of the SDK, or one of the runtime that it does
not catch. -/
inductive Thrown where
  | swm (error : Error)
  | argumentOutOfRange
  | indexOutOfRange
  | format
  deriving DecidableEq, Repr

/-- The exceptions of the parser. -/
def rim2Error (code message : String) : Thrown :=
  .swm { kind := .integrity, statusCode := 0, serviceCode := ascii code, message := ascii message }

def rim2Invalid (message : String) : Thrown := rim2Error "host_manifest_invalid" message

/-- What the parser uses of .NET: `Guid.Parse`, with the bytes of `ToByteArray`, and the texts
that `StringComparer.OrdinalIgnoreCase` takes as one. -/
structure Runtime where
  guidParse : Bytes → Option Bytes
  guidParse_text : ∀ bytes : Bytes, bytes.length = 16 →
    guidParse (guidText bytes) = some (swapGuid bytes)
  ignoreCase : Text → Text
  ignoreCase_ascii : ∀ first second : Bytes, (∀ b ∈ first, b < 0x80) → (∀ b ∈ second, b < 0x80) →
    (ignoreCase (units first) = ignoreCase (units second) ↔ lower first = lower second)

/-- `IsSafePath`, of a text that is given by its UTF-8 bytes. -/
def isSafePath (path : Bytes) : Bool :=
  let value := getString path
  ¬ isNullOrWhiteSpace value && value.length ≤ 255 && ¬ value.contains 0x5c &&
    value.head? ≠ some 0x2f && value.getLast? ≠ some 0x2f && ¬ value.contains 0x3a &&
    ¬ value.contains 0 &&
    (value.splitOn 0x2f).all (fun part => part ≠ [] && part ≠ [0x2e] && part ≠ [0x2e, 0x2e]) &&
    value.all fun c => 0x20 ≤ c && c ≠ 0x7f

/-- `Trim`. -/
def trim (text : Text) : Text := (text.dropWhile isWhiteSpace).rdropWhile isWhiteSpace

/-- `ArchitectureByte`. -/
def architectureByte (arch : Bytes) : Nat :=
  let value := toLowerInvariant (trim (getString arch))
  if value = units (ascii "x86") ∨ value = units (ascii "i386") ∨
      value = units (ascii "win-x86") then 1
  else if value = units (ascii "x64") ∨ value = units (ascii "amd64") ∨
      value = units (ascii "win-x64") then 2
  else 0

/-- `GuidToRfc4122`. -/
def guidToRfc4122 (guid : Bytes) : Bytes := swapGuid guid

/-- What the C# parser does in its own way, with its messages; it looks for a whole header first. -/
def rim2Dialect (runtime : Runtime) : Dialect Thrown Text where
  sizeInvalid := rim2Invalid "RIM2 manifest size is invalid"
  minimum := 14
  minimum_le := by decide
  magicInvalid := rim2Invalid "RIM2 manifest magic is invalid"
  headerInvalid := rim2Invalid "RIM2 manifest header is invalid"
  truncated := rim2Invalid "RIM2 manifest is truncated"
  notUtf8 := rim2Invalid "RIM2 manifest contains invalid UTF-8"
  idsTruncated := .argumentOutOfRange
  marksTruncated := .indexOutOfRange
  versionInvalid := rim2Invalid "RIM2 release version is invalid"
  countInvalid := rim2Invalid "RIM2 manifest file count is invalid"
  hashTruncated := .argumentOutOfRange
  unsafeFile := rim2Invalid "RIM2 manifest contains an unsafe or duplicate file path"
  duplicateFile := rim2Invalid "RIM2 manifest contains an unsafe or duplicate file path"
  bodyTrailing := rim2Invalid "RIM2 manifest body contains trailing bytes"
  keyIdInvalid := rim2Invalid "RIM2 signing key id is invalid"
  trailerTruncated := .argumentOutOfRange
  trailerInvalid := rim2Invalid "RIM2 manifest trailer is invalid"
  length text := (getString text).length
  safe := isSafePath
  key path := runtime.ignoreCase (getString path)

/-- The manifest is for another release. -/
def rim2Mismatch (expected : Rim2Expected) (app release : Bytes) (m : Rim2) : Prop :=
  m.body.app ≠ guidToRfc4122 app ∨ m.body.release ≠ guidToRfc4122 release ∨
    m.body.platform ≠ 1 ∨ m.body.arch ≠ architectureByte expected.arch ∨
    m.body.version ≠ expected.version ∨
    (∃ code ∈ expected.versionCode, m.body.versionCode ≠ unsignedCode code) ∨
    m.trailer.rootKeyId ≠ expected.rootKeyId

instance (expected : Rim2Expected) (app release : Bytes) (m : Rim2) :
    Decidable (rim2Mismatch expected app release m) := by
  unfold rim2Mismatch
  infer_instance

/-- What `CryptoUtil.VerifyEd25519` answers or throws. -/
def verifyEd25519 (check : Except Error Bool) : Except Thrown Bool :=
  match check with
  | .ok valid => .ok valid
  | .error e => .error (.swm e)

/-- `Rim2Parser.ParseAndVerify`; of the manifest it returns, the fields beside the raw bytes and
their digest.  Texts are given by their UTF-8 bytes. -/
def parseAndVerify (runtime : Runtime) (check : SignatureCheck) (expected : Rim2Expected)
    (raw : Bytes) : Except Thrown Rim2 := do
  let m ← (rim2Dialect runtime).read raw
  match runtime.guidParse expected.appId, runtime.guidParse expected.releaseId with
  | some app, some release =>
      if rim2Mismatch expected app release m then
        .error (rim2Error "host_release_mismatch"
          "RIM2 manifest identity does not match this release")
      else do
        let certified ← verifyEd25519
          (check.root expected.rootTrustPublicKey m.keyMessage m.trailer.rootSignature)
        if ¬ certified then
          .error (rim2Error "host_root_signature_invalid"
            "RIM2 root certificate signature is invalid")
        else do
          let signed ← verifyEd25519 (check.signer m.trailer.signerPublic m.manifestMessage
            m.trailer.manifestSignature)
          if ¬ signed then
            .error (rim2Error "host_manifest_signature_invalid"
              "RIM2 manifest signature is invalid")
          else .ok m
  | _, _ => .error .format

end CSharp

/-! ## What the dialects read -/

namespace Dialect
variable {ε κ : Type} (d : Dialect ε κ)

/-- An entry that a dialect reads. -/
structure FileFits (file : Rim2File) : Prop extends file.Fits where
  utf8 : validUtf8 file.path = true

/-- An entry that a dialect admits. -/
structure FileValid (file : Rim2File) : Prop where
  path : d.safe file.path = true
  size : file.size ≠ 0
  sha256 : ¬ ∀ b ∈ file.sha256, b = 0

/-- A text with a length between one and a bound. -/
structure TextFits (width bound : Nat) (text : Bytes) : Prop where
  frame : text.length < 256 ^ width
  utf8 : validUtf8 text = true
  nonempty : d.length text ≠ 0
  short : d.length text ≤ bound

/-- A body that a dialect reads. -/
structure BodyFits (body : Rim2Body) : Prop where
  app : body.app.length = 16
  release : body.release.length = 16
  versionCode : body.versionCode < 256 ^ 8
  platform : body.platform < 256 ^ 1
  arch : body.arch < 256 ^ 1
  version : d.TextFits 2 100 body.version
  count : body.files ≠ [] ∧ body.files.length ≤ 255
  files : ∀ file ∈ body.files, FileFits file ∧ d.FileValid file
  distinct : (body.files.map fun file => d.key file.path).Nodup

/-- A trailer that a dialect reads. -/
structure TrailerFits (trailer : Rim2Trailer) : Prop where
  rootKeyId : d.TextFits 1 64 trailer.rootKeyId
  signerKeyId : d.TextFits 1 64 trailer.signerKeyId
  signerPublic : trailer.signerPublic.length = 32
  rootSignature : trailer.rootSignature.length = 64
  manifestSignature : trailer.manifestSignature.length = 64

/-- A manifest that a dialect reads. -/
structure Fits (m : Rim2) : Prop where
  body : d.BodyFits m.body
  trailer : d.TrailerFits m.trailer
  size : m.encode.length ≤ 64 * 1024

variable {d}

theorem readText_eq_ok {width : Nat} {data text rest : Bytes} :
    d.readText width data = .ok (text, rest) ↔
      data = frame width text ++ rest ∧ text.length < 256 ^ width ∧ validUtf8 text = true := by
  unfold readText
  rw [bind_eq_ok]
  constructor
  · rintro ⟨⟨text', rest'⟩, hcounted, h⟩
    obtain ⟨hutf8, h⟩ := guard_eq_ok.mp h
    obtain ⟨rfl, rfl⟩ := Prod.mk.inj (Except.ok.inj h)
    obtain ⟨hdata, hlength⟩ := counted_eq_ok.mp hcounted
    exact ⟨hdata, hlength, not_not.mp hutf8⟩
  · rintro ⟨hdata, hlength, hutf8⟩
    refine ⟨(text, rest), counted_eq_ok.mpr ⟨hdata, hlength⟩, guard_eq_ok.mpr ⟨?_, rfl⟩⟩
    exact not_not.mpr hutf8

theorem readFile_eq_ok {data rest : Bytes} {file : Rim2File} :
    d.readFile data = .ok (file, rest) ↔ data = file.encode ++ rest ∧ FileFits file := by
  unfold readFile Rim2File.encode
  constructor
  · intro h
    obtain ⟨⟨path, rest₁⟩, hpath, h⟩ := bind_eq_ok.mp h
    obtain ⟨⟨size, rest₂⟩, hsize, h⟩ := bind_eq_ok.mp h
    obtain ⟨⟨sha256, rest₃⟩, hsha, h⟩ := bind_eq_ok.mp h
    obtain ⟨rfl, rfl⟩ := Prod.mk.inj (Except.ok.inj h)
    obtain ⟨rfl, hpathLength, hutf8⟩ := readText_eq_ok.mp hpath
    obtain ⟨rfl, hsizeBound⟩ := number_eq_ok.mp hsize
    obtain ⟨rfl, hshaLength⟩ := take_eq_ok.mp hsha
    exact ⟨by simp only [List.append_assoc], ⟨hpathLength, hsizeBound, hshaLength⟩, hutf8⟩
  · rintro ⟨rfl, hfits⟩
    simp only [List.append_assoc]
    refine bind_eq_ok.mpr ⟨_, readText_eq_ok.mpr ⟨rfl, hfits.path, hfits.utf8⟩, ?_⟩
    refine bind_eq_ok.mpr ⟨_, number_eq_ok.mpr ⟨rfl, hfits.size⟩, ?_⟩
    exact bind_eq_ok.mpr ⟨_, take_eq_ok.mpr ⟨rfl, hfits.sha256⟩, rfl⟩

theorem readHeader_eq_ok {raw body trailer : Bytes} :
    d.readHeader raw = .ok (body, trailer) ↔
      raw = rim2Magic ++ (bigEndian 2 2 ++ (frame 4 body ++ trailer)) ∧ body ≠ [] ∧
        body.length < 256 ^ 4 := by
  unfold readHeader
  rw [guard_eq_ok, not_or, not_not]
  constructor
  · rintro ⟨⟨-, hmagic⟩, h⟩
    obtain ⟨⟨version, rest₂⟩, hversion, h⟩ := bind_eq_ok.mp h
    obtain ⟨⟨size, rest₃⟩, hsize, h⟩ := bind_eq_ok.mp h
    obtain ⟨hfits, h⟩ := guard_eq_ok.mp h
    obtain ⟨rfl, rfl⟩ := Prod.mk.inj (Except.ok.inj h)
    obtain ⟨hdrop, -⟩ := number_eq_ok.mp hversion
    obtain ⟨rfl, hlt⟩ := number_eq_ok.mp hsize
    simp only [not_or, not_not] at hfits
    obtain ⟨rfl, hpos, hshort⟩ := hfits
    -- the body is not cut short, as the size was compared with what is left
    have hlength : (rest₃.take size).length = size := by
      rw [List.length_take]
      omega
    refine ⟨?_, ?_, by rw [hlength]; exact hlt⟩
    · rw [frame, hlength, List.append_assoc, List.take_append_drop, ← hdrop, ← hmagic,
        List.take_append_drop]
    · intro hnil
      rw [hnil] at hlength
      exact hpos hlength.symm
  · rintro ⟨rfl, hne, hlt⟩
    have hpos : body.length ≠ 0 := fun hzero => hne (List.length_eq_zero_iff.mp hzero)
    have hmagic : rim2Magic.length = 8 := by decide
    have hminimum := d.minimum_le
    refine ⟨⟨?_, List.take_left' hmagic⟩, ?_⟩
    · simp only [frame, List.length_append, bigEndian_length, hmagic]
      omega
    · rw [List.drop_left' hmagic]
      refine bind_eq_ok.mpr ⟨_, number_eq_ok.mpr ⟨rfl, by decide⟩, ?_⟩
      refine bind_eq_ok.mpr ⟨(body.length, body ++ trailer),
        number_eq_ok.mpr ⟨by rw [frame, List.append_assoc], hlt⟩, guard_eq_ok.mpr ⟨?_, ?_⟩⟩
      · rw [List.length_append]
        omega
      · rw [List.take_left, List.drop_left]

theorem readTrailer_eq_ok {data : Bytes} {trailer : Rim2Trailer} :
    d.readTrailer data = .ok trailer ↔ data = trailer.encode ∧ d.TrailerFits trailer := by
  unfold readTrailer Rim2Trailer.encode
  constructor
  · intro h
    obtain ⟨⟨rootKeyId, rest₁⟩, hroot, h⟩ := bind_eq_ok.mp h
    obtain ⟨⟨signerKeyId, rest₂⟩, hsigner, h⟩ := bind_eq_ok.mp h
    obtain ⟨hids, h⟩ := guard_eq_ok.mp h
    obtain ⟨⟨signerPublic, rest₃⟩, hpublic, h⟩ := bind_eq_ok.mp h
    obtain ⟨⟨rootSignature, rest₄⟩, hrootSig, h⟩ := bind_eq_ok.mp h
    obtain ⟨⟨manifestSignature, rest₅⟩, hsig, h⟩ := bind_eq_ok.mp h
    obtain ⟨hrest, h⟩ := guard_eq_ok.mp h
    obtain rfl := Except.ok.inj h
    obtain rfl := not_not.mp hrest
    simp only [not_or] at hids
    obtain ⟨hroot₁, hroot₂, hsigner₁, hsigner₂⟩ := hids
    obtain ⟨rfl, hrootFrame, hrootUtf8⟩ := readText_eq_ok.mp hroot
    obtain ⟨rfl, hsignerFrame, hsignerUtf8⟩ := readText_eq_ok.mp hsigner
    obtain ⟨rfl, hpublicLength⟩ := take_eq_ok.mp hpublic
    obtain ⟨rfl, hrootLength⟩ := take_eq_ok.mp hrootSig
    obtain ⟨rfl, hsigLength⟩ := take_eq_ok.mp hsig
    exact ⟨by rw [List.append_nil], ⟨hrootFrame, hrootUtf8, hroot₁, Nat.not_lt.mp hroot₂⟩,
      ⟨hsignerFrame, hsignerUtf8, hsigner₁, Nat.not_lt.mp hsigner₂⟩, hpublicLength, hrootLength,
      hsigLength⟩
  · rintro ⟨rfl, hw⟩
    have hroot := hw.rootKeyId
    have hsigner := hw.signerKeyId
    refine bind_eq_ok.mpr ⟨_, readText_eq_ok.mpr ⟨rfl, hroot.frame, hroot.utf8⟩, ?_⟩
    refine bind_eq_ok.mpr ⟨_, readText_eq_ok.mpr ⟨rfl, hsigner.frame, hsigner.utf8⟩, ?_⟩
    refine guard_eq_ok.mpr ⟨?_, ?_⟩
    · rintro (hzero | hlong | hzero | hlong)
      · exact hroot.nonempty hzero
      · exact absurd hroot.short (Nat.not_le.mpr hlong)
      · exact hsigner.nonempty hzero
      · exact absurd hsigner.short (Nat.not_le.mpr hlong)
    · refine bind_eq_ok.mpr ⟨_, take_eq_ok.mpr ⟨rfl, hw.signerPublic⟩, ?_⟩
      refine bind_eq_ok.mpr ⟨_, take_eq_ok.mpr ⟨rfl, hw.rootSignature⟩, ?_⟩
      refine bind_eq_ok.mpr ⟨(trailer.manifestSignature, []),
        take_eq_ok.mpr ⟨by rw [List.append_nil], hw.manifestSignature⟩, ?_⟩
      exact guard_eq_ok.mpr ⟨by simp, rfl⟩

variable [DecidableEq κ]

theorem admitFile_eq_ok {before : List Rim2File} {file : Rim2File} :
    d.admitFile before file = .ok () ↔
      d.FileValid file ∧ d.key file.path ∉ before.map fun old => d.key old.path := by
  unfold admitFile
  rw [guard_eq_ok, guard_eq_ok, not_or, not_or, not_not]
  simp only [List.all_eq_true, decide_eq_true_eq, List.contains_iff_mem, and_true]
  constructor
  · rintro ⟨⟨hpath, hsize, hsha⟩, hnew⟩
    exact ⟨⟨hpath, hsize, hsha⟩, hnew⟩
  · rintro ⟨hvalid, hnew⟩
    exact ⟨⟨hvalid.path, hvalid.size, hvalid.sha256⟩, hnew⟩

/-- **A dialect reads a body exactly when it is the encoding of one that fits.** -/
theorem readBody_eq_ok {data : Bytes} {body : Rim2Body} :
    d.readBody data = .ok body ↔ data = body.encode ∧ d.BodyFits body := by
  unfold readBody Rim2Body.encode
  constructor
  · intro h
    obtain ⟨⟨app, rest₁⟩, happ, h⟩ := bind_eq_ok.mp h
    obtain ⟨⟨release, rest₂⟩, hrelease, h⟩ := bind_eq_ok.mp h
    obtain ⟨⟨code, rest₃⟩, hcode, h⟩ := bind_eq_ok.mp h
    obtain ⟨⟨platform, rest₄⟩, hplatform, h⟩ := bind_eq_ok.mp h
    obtain ⟨⟨arch, rest₅⟩, harch, h⟩ := bind_eq_ok.mp h
    obtain ⟨⟨version, rest₆⟩, hversion, h⟩ := bind_eq_ok.mp h
    obtain ⟨hlength, h⟩ := guard_eq_ok.mp h
    obtain ⟨⟨count, rest₇⟩, hcount, h⟩ := bind_eq_ok.mp h
    obtain ⟨hfew, h⟩ := guard_eq_ok.mp h
    obtain ⟨⟨files, rest₈⟩, hfiles, h⟩ := bind_eq_ok.mp h
    obtain ⟨hrest, h⟩ := guard_eq_ok.mp h
    obtain rfl := Except.ok.inj h
    obtain rfl := not_not.mp hrest
    obtain ⟨rfl, happLength⟩ := take_eq_ok.mp happ
    obtain ⟨rfl, hreleaseLength⟩ := take_eq_ok.mp hrelease
    obtain ⟨rfl, hcodeBound⟩ := number_eq_ok.mp hcode
    obtain ⟨rfl, hplatformBound⟩ := number_eq_ok.mp hplatform
    obtain ⟨rfl, harchBound⟩ := number_eq_ok.mp harch
    obtain ⟨rfl, hframe, hutf8⟩ := readText_eq_ok.mp hversion
    obtain ⟨rfl, -⟩ := number_eq_ok.mp hcount
    obtain ⟨rfl, rfl, hall, hdistinct, -⟩ :=
      (entries_eq_ok readFile_eq_ok admitFile_eq_ok).mp hfiles
    have hnonempty : files ≠ [] := by
      rintro rfl
      simp at hfew
    have hmany : files.length ≤ 255 := by omega
    have hversionFits : d.TextFits 2 100 version :=
      ⟨hframe, hutf8, fun hzero => hlength (.inl hzero),
        Nat.not_lt.mp fun hlong => hlength (.inr hlong)⟩
    exact ⟨by rw [List.append_nil], happLength, hreleaseLength, hcodeBound, hplatformBound,
      harchBound, hversionFits, ⟨hnonempty, hmany⟩, hall, hdistinct⟩
  · rintro ⟨rfl, hw⟩
    have hcount : body.files.length ≠ 0 := fun hzero =>
      hw.count.1 (List.length_eq_zero_iff.mp hzero)
    have hfew := hw.count.2
    have hversion := hw.version
    refine bind_eq_ok.mpr ⟨_, take_eq_ok.mpr ⟨rfl, hw.app⟩, ?_⟩
    refine bind_eq_ok.mpr ⟨_, take_eq_ok.mpr ⟨rfl, hw.release⟩, ?_⟩
    refine bind_eq_ok.mpr ⟨_, number_eq_ok.mpr ⟨rfl, hw.versionCode⟩, ?_⟩
    refine bind_eq_ok.mpr ⟨_, number_eq_ok.mpr ⟨rfl, hw.platform⟩, ?_⟩
    refine bind_eq_ok.mpr ⟨_, number_eq_ok.mpr ⟨rfl, hw.arch⟩, ?_⟩
    refine bind_eq_ok.mpr ⟨_, readText_eq_ok.mpr ⟨rfl, hversion.frame, hversion.utf8⟩, ?_⟩
    refine guard_eq_ok.mpr ⟨?_, ?_⟩
    · rintro (hzero | hlong)
      · exact hversion.nonempty hzero
      · exact absurd hversion.short (Nat.not_le.mpr hlong)
    · refine bind_eq_ok.mpr ⟨_, number_eq_ok.mpr ⟨rfl, by omega⟩, ?_⟩
      refine guard_eq_ok.mpr ⟨by omega, ?_⟩
      refine bind_eq_ok.mpr ⟨(body.files, []), ?_, guard_eq_ok.mpr ⟨by simp, rfl⟩⟩
      exact (entries_eq_ok readFile_eq_ok admitFile_eq_ok).mpr
        ⟨by rw [List.append_nil], rfl, hw.files, hw.distinct, by simp⟩

theorem read_eq_ok {raw : Bytes} {m : Rim2} :
    d.read raw = .ok m ↔ raw = m.encode ∧ d.Fits m := by
  unfold read
  rw [guard_eq_ok]
  constructor
  · rintro ⟨hsize, h⟩
    obtain ⟨⟨body, trailer⟩, hheader, h⟩ := bind_eq_ok.mp h
    obtain ⟨body', hbody, h⟩ := bind_eq_ok.mp h
    obtain ⟨trailer', htrailer, h⟩ := bind_eq_ok.mp h
    obtain rfl := Except.ok.inj h
    obtain ⟨rfl, -, -⟩ := readHeader_eq_ok.mp hheader
    obtain ⟨rfl, hbodyFits⟩ := readBody_eq_ok.mp hbody
    obtain ⟨rfl, htrailerFits⟩ := readTrailer_eq_ok.mp htrailer
    exact ⟨rfl, hbodyFits, htrailerFits, Nat.not_lt.mp fun hlong => hsize (.inr hlong)⟩
  · rintro ⟨rfl, hm⟩
    have hlength : 16 ≤ m.body.encode.length := by
      rw [Rim2Body.encode, List.length_append, hm.body.app]
      exact Nat.le_add_right ..
    have hnonempty : m.body.encode ≠ [] := by
      intro hnil
      rw [hnil] at hlength
      cases hlength
    refine ⟨?_, bind_eq_ok.mpr ⟨(m.body.encode, m.trailer.encode), ?_, ?_⟩⟩
    · rintro (hnil | hlong)
      · have hzero := congrArg List.length hnil
        simp [Rim2.encode, rim2Magic, bigEndian_length] at hzero
      · exact absurd hm.size (Nat.not_le.mpr hlong)
    · exact readHeader_eq_ok.mpr ⟨rfl, hnonempty, Cpp.body_length_lt m hm.size⟩
    · refine bind_eq_ok.mpr ⟨m.body, readBody_eq_ok.mpr ⟨rfl, hm.body⟩, ?_⟩
      exact bind_eq_ok.mpr ⟨m.trailer, readTrailer_eq_ok.mpr ⟨rfl, hm.trailer⟩, rfl⟩

end Dialect

/-! ## Paths -/

/-- A path without a root, an empty part, a dot part, or a byte below the space. -/
structure PathParts (value : Bytes) : Prop where
  short : value.length ≤ 255
  relative : value.head? ≠ some 0x2f ∧ value.getLast? ≠ some 0x2f
  plain : 0x5c ∉ value ∧ 0x3a ∉ value ∧ 0 ∉ value
  parts : ∀ part ∈ value.splitOn 0x2f, part ≠ [] ∧ part ≠ ascii "." ∧ part ≠ ascii ".."
  printable : ∀ b ∈ value, 0x20 ≤ b ∧ b ≠ 0x7f

theorem safePath_iff {value : Bytes} : safePath value = true ↔ value ≠ [] ∧ PathParts value := by
  have hslash : ∀ b ∈ value, b = 0x2f → 0x20 ≤ b ∧ b ≠ 0x7f := by
    rintro b - rfl
    decide
  simp only [safePath, Bool.and_eq_true, decide_eq_true_eq, List.all_eq_true,
    List.contains_eq_mem, and_assoc]
  constructor
  · rintro ⟨hne, hshort, hhead, hlast, hback, hcolon, hzero, hparts⟩
    refine ⟨hne, hshort, ⟨hhead, hlast⟩, ⟨hback, hcolon, hzero⟩, ?_, ?_⟩
    · exact fun part hpart =>
        ⟨(hparts part hpart).1, (hparts part hpart).2.1, (hparts part hpart).2.2.1⟩
    · intro b hb
      by_cases hsep : b = 0x2f
      · exact hslash b hb hsep
      · exact (forall_mem_splitOn (p := fun b => 0x20 ≤ b ∧ b ≠ 0x7f) value 0x2f).mp
          (fun part hpart => (hparts part hpart).2.2.2) b hb hsep
  · rintro ⟨hne, hpath⟩
    refine ⟨hne, hpath.short, hpath.relative.1, hpath.relative.2, hpath.plain.1, hpath.plain.2.1,
      hpath.plain.2.2, ?_⟩
    intro part hpart
    obtain ⟨h₁, h₂, h₃⟩ := hpath.parts part hpart
    refine ⟨h₁, h₂, h₃, ?_⟩
    exact (forall_mem_splitOn (p := fun b => 0x20 ≤ b ∧ b ≠ 0x7f) value 0x2f).mpr
      (fun b hb _ => hpath.printable b hb) part hpart

namespace CSharp

theorem isSafePath_iff {path : Bytes} (h : ∀ b ∈ path, b < 0x80) :
    isSafePath path = true ↔ (¬ ∀ b ∈ path, b = 0x20) ∧ PathParts path := by
  have hback : (0x5c : UInt16) ∈ units path ↔ 0x5c ∈ path := mem_units (b := 0x5c)
  have hcolon : (0x3a : UInt16) ∈ units path ↔ 0x3a ∈ path := mem_units (b := 0x3a)
  have hzero : (0 : UInt16) ∈ units path ↔ 0 ∈ path := mem_units (b := 0)
  have hsome : ∀ (o : Option UInt8) (b : UInt8),
      o.map UInt8.toUInt16 = some b.toUInt16 ↔ o = some b := by
    intro o b
    cases o with
    | none => simp
    | some c => simp [toUInt16_inj]
  have hhead : (units path).head? = some 0x2f ↔ path.head? = some 0x2f := by
    rw [units, List.head?_map]
    exact hsome _ 0x2f
  have hlast : (units path).getLast? = some 0x2f ↔ path.getLast? = some 0x2f := by
    rw [units, List.getLast?_map]
    exact hsome _ 0x2f
  have hparts : (∀ part ∈ (units path).splitOn 0x2f,
      part ≠ [] ∧ part ≠ [0x2e] ∧ part ≠ [0x2e, 0x2e]) ↔
      ∀ part ∈ path.splitOn 0x2f, part ≠ [] ∧ part ≠ ascii "." ∧ part ≠ ascii ".." := by
    have hsame : ∀ first second : Bytes, units first = units second ↔ first = second :=
      fun _ _ => ⟨units_injective, congrArg _⟩
    rw [show (0x2f : UInt16) = (0x2f : UInt8).toUInt16 from rfl, units_splitOn, List.forall_mem_map]
    refine forall₂_congr fun part _ => ?_
    exact and_congr (not_congr (hsame part [])) (and_congr (not_congr (hsame part [0x2e]))
      (not_congr (hsame part [0x2e, 0x2e])))
  have hprintable : (∀ c ∈ units path, 0x20 ≤ c ∧ c ≠ 0x7f) ↔
      ∀ b ∈ path, 0x20 ≤ b ∧ b ≠ 0x7f := by
    rw [units, List.forall_mem_map]
    refine forall₂_congr fun b _ => and_congr ?_ (not_congr (toUInt16_inj (c := 0x7f)))
    simp only [UInt16.le_iff_toNat_le, UInt8.le_iff_toNat_le, UInt8.toNat_toUInt16]
    rfl
  simp only [isSafePath, getString_ascii h, Bool.and_eq_true, decide_eq_true_eq,
    List.all_eq_true, List.contains_eq_mem, and_assoc, isNullOrWhiteSpace]
  rw [hback, hcolon, hzero, ne_eq, hhead, ne_eq, hlast, hparts, hprintable, units,
    List.forall_mem_map, List.length_map]
  constructor
  · rintro ⟨hblank, hshort, hback, hhead, hlast, hcolon, hzero, hparts, hprint⟩
    refine ⟨fun hspace => hblank fun b hb => ?_, hshort, ⟨hhead, hlast⟩, ⟨hback, hcolon, hzero⟩,
      hparts, hprint⟩
    exact (isWhiteSpace_iff (h b hb) (hprint b hb).1).mpr (hspace b hb)
  · rintro ⟨hblank, hpath⟩
    refine ⟨fun hwhite => hblank fun b hb => ?_, hpath.short, hpath.plain.1, hpath.relative.1,
      hpath.relative.2, hpath.plain.2.1, hpath.plain.2.2, hpath.parts, hpath.printable⟩
    exact (isWhiteSpace_iff (h b hb) (hpath.printable b hb).1).mp (hwhite b hb)

end CSharp

/-! ## ASCII manifests -/

/-- The texts and files of a manifest. -/
structure Rim2Content where
  version : Bytes
  rootKeyId : Bytes
  signerKeyId : Bytes
  files : List Rim2File

/-- What a manifest says about the release. -/
def Rim2.content (m : Rim2) : Rim2Content :=
  ⟨m.body.version, m.trailer.rootKeyId, m.trailer.signerKeyId, m.body.files⟩

/-- What the result of the C++ parser says about the release. -/
def Cpp.Rim2Manifest.content (m : Cpp.Rim2Manifest) : Rim2Content :=
  ⟨m.version, m.rootKeyId, m.signerKeyId, m.files⟩

/-- All texts are ASCII. -/
structure Rim2Content.Ascii (content : Rim2Content) : Prop where
  version : ∀ b ∈ content.version, b < 0x80
  rootKeyId : ∀ b ∈ content.rootKeyId, b < 0x80
  signerKeyId : ∀ b ∈ content.signerKeyId, b < 0x80
  paths : ∀ file ∈ content.files, ∀ b ∈ file.path, b < 0x80

/-- A path that is not made of spaces only. -/
def Visible (path : Bytes) : Prop := ¬ ∀ b ∈ path, b = 0x20

namespace Dialect
variable {ε κ : Type}

/-- On ASCII a dialect goes by the bytes of a text, up to a further demand on paths. -/
structure Plain (d : Dialect ε κ) (further : Bytes → Prop) : Prop where
  length : ∀ text : Bytes, (∀ b ∈ text, b < 0x80) → d.length text = text.length
  safe : ∀ text : Bytes, (∀ b ∈ text, b < 0x80) →
    (d.safe text = true ↔ safePath text = true ∧ further text)
  key : ∀ first second : Bytes, (∀ b ∈ first, b < 0x80) → (∀ b ∈ second, b < 0x80) →
    (d.key first = d.key second ↔ lower first = lower second)

variable {d : Dialect ε κ} {further : Bytes → Prop} (hd : d.Plain further)
include hd

theorem Plain.textFits_iff {width bound : Nat} {text : Bytes} (h : ∀ b ∈ text, b < 0x80)
    (hbound : bound < 256 ^ width) :
    d.TextFits width bound text ↔ text ≠ [] ∧ text.length ≤ bound := by
  constructor
  · intro hfits
    have hnonempty := hfits.nonempty
    have hshort := hfits.short
    rw [hd.length text h] at hnonempty hshort
    exact ⟨fun hnil => hnonempty (List.length_eq_zero_iff.mpr hnil), hshort⟩
  · rintro ⟨hnonempty, hshort⟩
    refine ⟨Nat.lt_of_le_of_lt hshort hbound, validUtf8_ascii h, ?_, ?_⟩
    · rw [hd.length text h]
      exact fun hzero => hnonempty (List.length_eq_zero_iff.mp hzero)
    · rw [hd.length text h]
      exact hshort

theorem Plain.nodup_iff {files : List Rim2File} (h : ∀ file ∈ files, ∀ b ∈ file.path, b < 0x80) :
    (files.map fun file => d.key file.path).Nodup ↔
      (files.map fun file => lower file.path).Nodup := by
  simp only [List.Nodup, List.pairwise_map]
  refine List.Pairwise.iff_of_mem fun {first second} hfirst hsecond => ?_
  exact not_congr (hd.key _ _ (h first hfirst) (h second hsecond))

/-- **A dialect reads the well-formed ASCII manifests whose paths meet its demand.** -/
theorem Plain.fits_iff {m : Rim2} (h : m.content.Ascii) :
    d.Fits m ↔ m.WellFormed ∧ ∀ file ∈ m.body.files, further file.path := by
  have hversion : d.TextFits 2 100 m.body.version ↔ _ := hd.textFits_iff h.version (by decide)
  have hroot : d.TextFits 1 64 m.trailer.rootKeyId ↔ _ :=
    hd.textFits_iff h.rootKeyId (by decide)
  have hsigner : d.TextFits 1 64 m.trailer.signerKeyId ↔ _ :=
    hd.textFits_iff h.signerKeyId (by decide)
  constructor
  · intro hfits
    have hsafe : ∀ file ∈ m.body.files, safePath file.path = true ∧ further file.path :=
      fun file hfile => (hd.safe _ (h.paths file hfile)).mp (hfits.body.files file hfile).2.path
    refine ⟨⟨⟨hfits.body.app, hfits.body.release, hfits.body.versionCode, hfits.body.platform,
      hfits.body.arch, hversion.mp hfits.body.version, hfits.body.count, fun file hfile => ?_,
      (hd.nodup_iff h.paths).mp hfits.body.distinct⟩, ⟨hroot.mp hfits.trailer.rootKeyId,
      hsigner.mp hfits.trailer.signerKeyId, hfits.trailer.signerPublic,
      hfits.trailer.rootSignature, hfits.trailer.manifestSignature⟩, hfits.size⟩,
      fun file hfile => (hsafe file hfile).2⟩
    obtain ⟨hfile₁, hfile₂⟩ := hfits.body.files file hfile
    exact ⟨hfile₁.toFits, (hsafe file hfile).1, hfile₂.size, hfile₂.sha256⟩
  · rintro ⟨hw, hfurther⟩
    refine ⟨⟨hw.body.app, hw.body.release, hw.body.versionCode, hw.body.platform, hw.body.arch,
      hversion.mpr hw.body.version, hw.body.count, fun file hfile => ?_,
      (hd.nodup_iff h.paths).mpr hw.body.distinct⟩, ⟨hroot.mpr hw.trailer.rootKeyId,
      hsigner.mpr hw.trailer.signerKeyId, hw.trailer.signerPublic, hw.trailer.rootSignature,
      hw.trailer.manifestSignature⟩, hw.size⟩
    obtain ⟨hfile₁, hfile₂⟩ := hw.body.files file hfile
    have hascii := h.paths file hfile
    refine ⟨⟨hfile₁, validUtf8_ascii hascii⟩, ?_, hfile₂.size, hfile₂.sha256⟩
    exact (hd.safe _ hascii).mpr ⟨hfile₂.path, hfurther file hfile⟩

end Dialect

theorem Go.rim2Dialect_plain (casing : Go.Casing) :
    (Go.rim2Dialect casing).Plain fun _ => True where
  length _ _ := rfl
  safe _ _ := (iff_of_eq (and_true _)).symm
  key first second hfirst hsecond := by
    show casing.toLower first = casing.toLower second ↔ _
    rw [casing.toLower_ascii first hfirst, casing.toLower_ascii second hsecond]

theorem Rust.rim2Dialect_plain : Rust.rim2Dialect.Plain fun _ => True where
  length _ _ := rfl
  safe _ _ := (iff_of_eq (and_true _)).symm
  key _ _ _ _ := Iff.rfl

theorem CSharp.rim2Dialect_plain (runtime : CSharp.Runtime) :
    (CSharp.rim2Dialect runtime).Plain Visible where
  length text htext := by
    show (CSharp.getString text).length = text.length
    rw [CSharp.getString_ascii htext, CSharp.units, List.length_map]
  safe text htext := by
    show CSharp.isSafePath text = true ↔ _
    rw [CSharp.isSafePath_iff htext, safePath_iff]
    constructor
    · rintro ⟨hvisible, hpath⟩
      refine ⟨⟨?_, hpath⟩, hvisible⟩
      rintro rfl
      simp at hvisible
    · rintro ⟨⟨-, hpath⟩, hvisible⟩
      exact ⟨hvisible, hpath⟩
  key first second hfirst hsecond := by
    show runtime.ignoreCase (CSharp.getString first) =
      runtime.ignoreCase (CSharp.getString second) ↔ _
    rw [CSharp.getString_ascii hfirst, CSharp.getString_ascii hsecond]
    exact runtime.ignoreCase_ascii first second hfirst hsecond

/-! ## The identity of a release -/

/-- A UUID, by its bytes in the order of its text. -/
structure Uuid where
  bytes : Bytes
  length : bytes.length = 16

/-- The id as text, in the order in which .NET writes it. -/
def Uuid.text (id : Uuid) : Bytes := guidText id.bytes

/-- The digits of a UUID. -/
theorem filter_guidText (bytes : Bytes) : (guidText bytes).filter (· ≠ 0x2d) = hex bytes := by
  have hdigits : ∀ part : Bytes, (∀ d ∈ part, d ∈ hex bytes) → part.filter (· ≠ 0x2d) = part := by
    intro part hpart
    refine List.filter_eq_self.mpr fun d hd => decide_eq_true ?_
    rintro rfl
    rcases mem_hex (hpart _ hd) with ⟨hlow, -⟩ | ⟨hlow, -⟩
    · exact absurd hlow (by decide)
    · exact absurd hlow (by decide)
  have htake : ∀ k n, ∀ d ∈ ((hex bytes).drop k).take n, d ∈ hex bytes :=
    fun k n d hd => List.mem_of_mem_drop (List.mem_of_mem_take hd)
  have hhyphen : (ascii "-").filter (· ≠ 0x2d) = [] := by decide
  have hjoin : ∀ k, ((hex bytes).drop k).take 4 ++ (hex bytes).drop (k + 4) = (hex bytes).drop k := by
    intro k
    rw [← List.drop_drop, List.take_append_drop]
  unfold guidText
  dsimp only
  simp only [List.filter_append, hhyphen, List.append_nil]
  rw [hdigits _ (fun d hd => List.mem_of_mem_take hd), hdigits _ (htake 8 4),
    hdigits _ (htake 12 4), hdigits _ (htake 16 4), hdigits _ fun d hd => List.mem_of_mem_drop hd]
  simp only [List.append_assoc]
  rw [hjoin 16, hjoin 12, hjoin 8, List.take_append_drop]

theorem guidText_injective {first second : Bytes} (h : guidText first = guidText second) :
    first = second := by
  have hhex : hex first = hex second := by rw [← filter_guidText, h, filter_guidText]
  have hsome : some first = some second := by rw [← unhex_hex, hhex, unhex_hex]
  exact Option.some.inj hsome

theorem swapGuid_swapGuid {bytes : Bytes} (h : bytes.length = 16) :
    swapGuid (swapGuid bytes) = bytes := by
  match bytes, h with
  | [_, _, _, _, _, _, _, _, _, _, _, _, _, _, _, _], _ => rfl

namespace Uuid
variable (id : Uuid)

theorem go_bytes : Go.uuidBytes id.text = some (swapGuid id.bytes) := by
  unfold Go.uuidBytes text
  rw [filter_guidText]
  simp [unhex_hex, hex_length, id.length]

theorem rust_bytes : Rust.uuidBytes id.text = .ok (swapGuid id.bytes) := by
  unfold Rust.uuidBytes text
  rw [filter_guidText, unhex_hex]
  simp [id.length]

theorem csharp_bytes (runtime : CSharp.Runtime) :
    runtime.guidParse id.text = some (swapGuid id.bytes) :=
  runtime.guidParse_text id.bytes id.length

theorem text_eq_iff {bytes : Bytes} : guidText bytes = id.text ↔ bytes = id.bytes :=
  ⟨guidText_injective, congrArg _⟩

end Uuid

/-- The architectures of a release. -/
inductive Arch where
  | x86
  | x64
  deriving DecidableEq, Repr

/-- The name of the architecture in the options. -/
def Arch.text : Arch → Bytes
  | .x86 => ascii "x86"
  | .x64 => ascii "x64"

/-- Its number in a manifest. -/
def Arch.byte : Arch → Nat
  | .x86 => 1
  | .x64 => 2

namespace Arch
variable (arch : Arch)

theorem cpp_byte : Cpp.archByte arch.text = arch.byte := by
  cases arch with
  | x86 => decide
  | x64 => decide

theorem rust_byte : Rust.archByte arch.text = arch.byte := by
  cases arch with
  | x86 => decide
  | x64 => decide

theorem go_byte (casing : Go.Casing) : Go.archByte casing arch.text = arch.byte := by
  have hlower : casing.toLower (Go.trimSpace arch.text) = arch.text := by
    cases arch with
    | x86 => exact casing.toLower_ascii (ascii "x86") (ascii_of_all (by decide))
    | x64 => exact casing.toLower_ascii (ascii "x64") (ascii_of_all (by decide))
  unfold Go.archByte
  rw [hlower]
  cases arch with
  | x86 => decide
  | x64 => decide

theorem csharp_byte : CSharp.architectureByte arch.text = arch.byte := by
  cases arch with
  | x86 => decide
  | x64 => decide

end Arch

/-- The release that a client expects. -/
structure Release where
  app : Uuid
  release : Uuid
  version : Bytes
  versionCode : Option Int
  arch : Arch
  rootKeyId : Bytes
  rootTrustPublicKey : Bytes

/-- The release as the parsers are asked for it. -/
def Release.expected (r : Release) : Rim2Expected where
  appId := r.app.text
  releaseId := r.release.text
  version := r.version
  versionCode := r.versionCode
  arch := r.arch.text
  rootKeyId := r.rootKeyId
  rootTrustPublicKey := r.rootTrustPublicKey

/-- A signed manifest for the release, but for its identifiers. -/
structure Release.Describes (r : Release) (crypto : Crypto) (m : Rim2) : Prop where
  platform : m.body.platform = 1
  arch : m.body.arch = r.arch.byte
  version : m.body.version = r.version
  versionCode : ∀ code ∈ r.versionCode, m.body.versionCode = unsignedCode code
  rootKeyId : m.trailer.rootKeyId = r.rootKeyId
  certified : crypto.signatureCheck.root r.rootTrustPublicKey m.keyMessage
    m.trailer.rootSignature = .ok true
  signed : crypto.signatureCheck.signer m.trailer.signerPublic m.manifestMessage
    m.trailer.manifestSignature = .ok true

/-- The identifiers of a manifest in the order of their texts. -/
def Release.InTextOrder (r : Release) (m : Rim2) : Prop :=
  m.body.app = r.app.bytes ∧ m.body.release = r.release.bytes

/-- The identifiers of a manifest in the order that .NET writes. -/
def Release.InMixedOrder (r : Release) (m : Rim2) : Prop :=
  m.body.app = swapGuid r.app.bytes ∧ m.body.release = swapGuid r.release.bytes

section Acceptance
variable (crypto : Crypto) (casing : Go.Casing) (runtime : CSharp.Runtime) (r : Release)
variable (raw : Bytes) (content : Rim2Content)

/-- C++ accepts the bytes as a manifest of this content. -/
def Cpp.Accepts : Prop :=
  ∃ result, Cpp.parseRim2 crypto r.expected raw = .ok result ∧ result.content = content

/-- C# accepts the bytes as a manifest of this content. -/
def CSharp.Accepts : Prop :=
  ∃ m, CSharp.parseAndVerify runtime crypto.signatureCheck r.expected raw = .ok m ∧
    m.content = content

/-- Go accepts the bytes as a manifest of this content. -/
def Go.Accepts : Prop :=
  ∃ m, Go.parseAndVerify casing crypto.signatureCheck r.expected raw = .ok m ∧ m.content = content

/-- Rust accepts the bytes as a manifest of this content. -/
def Rust.Accepts : Prop :=
  ∃ m, Rust.parseAndVerify crypto.signatureCheck r.expected raw = .ok m ∧ m.content = content

variable {crypto casing runtime r raw content}

theorem Cpp.accepts_iff :
    Cpp.Accepts crypto r raw content ↔
      ∃ m : Rim2, raw = m.encode ∧ m.content = content ∧ m.WellFormed ∧ r.Describes crypto m ∧
        r.InTextOrder m := by
  have hsame : ∀ m : Rim2, ¬ Cpp.rim2Mismatch r.expected m ↔
      r.InTextOrder m ∧ m.body.platform = 1 ∧ m.body.arch = r.arch.byte ∧
        m.body.version = r.version ∧
        (∀ code ∈ r.versionCode, m.body.versionCode = unsignedCode code) ∧
        m.trailer.rootKeyId = r.rootKeyId := by
    intro m
    unfold Cpp.rim2Mismatch Release.InTextOrder
    simp only [Release.expected, Arch.cpp_byte, not_or, not_not, not_exists, not_and, ne_eq,
      Uuid.text_eq_iff, and_assoc]
  constructor
  · rintro ⟨result, h, rfl⟩
    obtain ⟨m, hencode, hm, rfl⟩ := Cpp.parseRim2_eq_ok.mp h
    obtain ⟨hids, hplatform, harch, hversion, hcode, hroot⟩ := (hsame m).mp hm.identity
    exact ⟨m, hencode, rfl, hm.wellFormed,
      ⟨hplatform, harch, hversion, hcode, hroot, hm.certified, hm.signed⟩, hids⟩
  · rintro ⟨m, hencode, rfl, hw, hm, hids⟩
    refine ⟨_, Cpp.parseRim2_eq_ok.mpr ⟨m, hencode, ⟨hw, ?_, hm.certified, hm.signed⟩, rfl⟩, rfl⟩
    exact (hsame m).mpr ⟨hids, hm.platform, hm.arch, hm.version, hm.versionCode, hm.rootKeyId⟩

theorem Go.checkRoot_eq_ok {check : Except Error Bool} :
    Go.checkRoot check = .ok () ↔ check = .ok true := by
  cases check with
  | error e => simp [Go.checkRoot]
  | ok valid => cases valid <;> simp [Go.checkRoot]

theorem Go.accepts_iff (h : content.Ascii) :
    Go.Accepts crypto casing r raw content ↔
      ∃ m : Rim2, raw = m.encode ∧ m.content = content ∧ m.WellFormed ∧ r.Describes crypto m ∧
        r.InMixedOrder m := by
  have hholds : ∀ check, Go.holds check = true ↔ check = .ok true := by
    intro check
    cases check with
    | error e => simp [Go.holds]
    | ok valid => simp [Go.holds]
  unfold Go.Accepts Go.parseAndVerify
  constructor
  · rintro ⟨m, hparse, rfl⟩
    obtain ⟨m', hread, hparse⟩ := bind_eq_ok.mp hparse
    simp only [Release.expected, Uuid.go_bytes] at hparse
    obtain ⟨hids, hparse⟩ := guard_eq_ok.mp hparse
    obtain ⟨⟨⟩, hcertified, hparse⟩ := bind_eq_ok.mp hparse
    obtain ⟨hsigned, hparse⟩ := guard_eq_ok.mp hparse
    obtain rfl := Except.ok.inj hparse
    obtain ⟨hencode, hfits⟩ := Dialect.read_eq_ok.mp hread
    simp only [Go.rim2Mismatch, Arch.go_byte, not_or, not_not, not_exists, not_and, ne_eq] at hids
    obtain ⟨happ, hrelease, hplatform, harch, hversion, hcode, hroot⟩ := hids
    refine ⟨m', hencode, rfl, (((Go.rim2Dialect_plain casing).fits_iff h).mp hfits).1, ?_,
      happ, hrelease⟩
    exact ⟨hplatform, harch, hversion, hcode, hroot, Go.checkRoot_eq_ok.mp hcertified,
      (hholds _).mp (not_not.mp hsigned)⟩
  · rintro ⟨m, hencode, rfl, hw, hm, happ, hrelease⟩
    have hfits := ((Go.rim2Dialect_plain casing).fits_iff h).mpr ⟨hw, fun _ _ => trivial⟩
    refine ⟨m, bind_eq_ok.mpr ⟨m, Dialect.read_eq_ok.mpr ⟨hencode, hfits⟩, ?_⟩, rfl⟩
    simp only [Release.expected, Uuid.go_bytes]
    refine guard_eq_ok.mpr ⟨?_, bind_eq_ok.mpr ⟨(), Go.checkRoot_eq_ok.mpr hm.certified,
      guard_eq_ok.mpr ⟨not_not.mpr ((hholds _).mpr hm.signed), rfl⟩⟩⟩
    simp only [Go.rim2Mismatch, Arch.go_byte, not_or, not_not, not_exists, not_and, ne_eq]
    exact ⟨happ, hrelease, hm.platform, hm.arch, hm.version, hm.versionCode, hm.rootKeyId⟩

theorem Rust.accepts_iff (h : content.Ascii) :
    Rust.Accepts crypto r raw content ↔
      ∃ m : Rim2, raw = m.encode ∧ m.content = content ∧ m.WellFormed ∧ r.Describes crypto m ∧
        r.InMixedOrder m ∧ ∀ code ∈ r.versionCode, 0 ≤ code := by
  unfold Rust.Accepts Rust.parseAndVerify
  constructor
  · rintro ⟨m, hparse, rfl⟩
    obtain ⟨m', hread, hparse⟩ := bind_eq_ok.mp hparse
    obtain ⟨app, happId, hparse⟩ := bind_eq_ok.mp hparse
    obtain ⟨release, hreleaseId, hparse⟩ := bind_eq_ok.mp hparse
    obtain rfl := Except.ok.inj (r.app.rust_bytes.symm.trans happId)
    obtain rfl := Except.ok.inj (r.release.rust_bytes.symm.trans hreleaseId)
    obtain ⟨hids, hparse⟩ := guard_eq_ok.mp hparse
    obtain ⟨certified, hcertified, hparse⟩ := bind_eq_ok.mp hparse
    obtain ⟨hroot, hparse⟩ := guard_eq_ok.mp hparse
    obtain ⟨signed, hsigned, hparse⟩ := bind_eq_ok.mp hparse
    obtain ⟨hsigner, hparse⟩ := guard_eq_ok.mp hparse
    obtain rfl := Except.ok.inj hparse
    rw [not_not.mp hroot] at hcertified
    rw [not_not.mp hsigner] at hsigned
    obtain ⟨hencode, hfits⟩ := Dialect.read_eq_ok.mp hread
    simp only [Rust.rim2Mismatch, Release.expected, Arch.rust_byte, not_or, not_not, not_exists,
      not_and_not_right, ne_eq] at hids
    obtain ⟨happ, hrelease, hplatform, harch, hversion, hcode, hrootId⟩ := hids
    refine ⟨m', hencode, rfl, ((Rust.rim2Dialect_plain.fits_iff h).mp hfits).1, ?_,
      ⟨happ, hrelease⟩, fun code hmem => (hcode code hmem).1⟩
    exact ⟨hplatform, harch, hversion, fun code hmem => (hcode code hmem).2, hrootId, hcertified,
      hsigned⟩
  · rintro ⟨m, hencode, rfl, hw, hm, ⟨happ, hrelease⟩, hcode⟩
    have hfits := (Rust.rim2Dialect_plain.fits_iff h).mpr ⟨hw, fun _ _ => trivial⟩
    refine ⟨m, bind_eq_ok.mpr ⟨m, Dialect.read_eq_ok.mpr ⟨hencode, hfits⟩, ?_⟩, rfl⟩
    refine bind_eq_ok.mpr ⟨_, r.app.rust_bytes, bind_eq_ok.mpr ⟨_, r.release.rust_bytes, ?_⟩⟩
    refine guard_eq_ok.mpr ⟨?_, bind_eq_ok.mpr ⟨true, hm.certified, guard_eq_ok.mpr ⟨by simp, ?_⟩⟩⟩
    · simp only [Rust.rim2Mismatch, Release.expected, Arch.rust_byte, not_or, not_not, not_exists,
        not_and_not_right, ne_eq]
      exact ⟨happ, hrelease, hm.platform, hm.arch, hm.version,
        fun code hmem => ⟨hcode code hmem, hm.versionCode code hmem⟩, hm.rootKeyId⟩
    · exact bind_eq_ok.mpr ⟨true, hm.signed, guard_eq_ok.mpr ⟨by simp, rfl⟩⟩

theorem CSharp.accepts_iff (h : content.Ascii) :
    CSharp.Accepts crypto runtime r raw content ↔
      ∃ m : Rim2, raw = m.encode ∧ m.content = content ∧ m.WellFormed ∧ r.Describes crypto m ∧
        r.InTextOrder m ∧ ∀ file ∈ m.body.files, Visible file.path := by
  -- C# only wraps the error of a check, so it succeeds when the check does
  have hverify : ∀ check, CSharp.verifyEd25519 check = .ok true ↔ check = .ok true := by
    intro check
    cases check with
    | error e => simp [CSharp.verifyEd25519]
    | ok valid => simp [CSharp.verifyEd25519]
  unfold CSharp.Accepts CSharp.parseAndVerify
  constructor
  · rintro ⟨m, hparse, rfl⟩
    obtain ⟨m', hread, hparse⟩ := bind_eq_ok.mp hparse
    simp only [Release.expected, Uuid.csharp_bytes] at hparse
    obtain ⟨hids, hparse⟩ := guard_eq_ok.mp hparse
    obtain ⟨certified, hcertified, hparse⟩ := bind_eq_ok.mp hparse
    obtain ⟨hroot, hparse⟩ := guard_eq_ok.mp hparse
    obtain ⟨signed, hsigned, hparse⟩ := bind_eq_ok.mp hparse
    obtain ⟨hsigner, hparse⟩ := guard_eq_ok.mp hparse
    obtain rfl := Except.ok.inj hparse
    rw [not_not.mp hroot, hverify] at hcertified
    rw [not_not.mp hsigner, hverify] at hsigned
    obtain ⟨hencode, hfits⟩ := Dialect.read_eq_ok.mp hread
    obtain ⟨hw, hvisible⟩ := ((CSharp.rim2Dialect_plain runtime).fits_iff h).mp hfits
    simp only [CSharp.rim2Mismatch, CSharp.guidToRfc4122, swapGuid_swapGuid r.app.length,
      swapGuid_swapGuid r.release.length, Arch.csharp_byte, not_or, not_not, not_exists, not_and,
      ne_eq] at hids
    obtain ⟨happ, hrelease, hplatform, harch, hversion, hcode, hrootId⟩ := hids
    exact ⟨m', hencode, rfl, hw,
      ⟨hplatform, harch, hversion, hcode, hrootId, hcertified, hsigned⟩, ⟨happ, hrelease⟩, hvisible⟩
  · rintro ⟨m, hencode, rfl, hw, hm, ⟨happ, hrelease⟩, hvisible⟩
    have hfits := ((CSharp.rim2Dialect_plain runtime).fits_iff h).mpr ⟨hw, hvisible⟩
    refine ⟨m, bind_eq_ok.mpr ⟨m, Dialect.read_eq_ok.mpr ⟨hencode, hfits⟩, ?_⟩, rfl⟩
    simp only [Release.expected, Uuid.csharp_bytes]
    refine guard_eq_ok.mpr ⟨?_, bind_eq_ok.mpr
      ⟨true, (hverify _).mpr hm.certified, guard_eq_ok.mpr ⟨by simp, ?_⟩⟩⟩
    · simp only [CSharp.rim2Mismatch, CSharp.guidToRfc4122, swapGuid_swapGuid r.app.length,
        swapGuid_swapGuid r.release.length, Arch.csharp_byte, not_or, not_not, not_exists, not_and,
        ne_eq]
      exact ⟨happ, hrelease, hm.platform, hm.arch, hm.version, hm.versionCode, hm.rootKeyId⟩
    · exact bind_eq_ok.mpr ⟨true, (hverify _).mpr hm.signed, guard_eq_ok.mpr ⟨by simp, rfl⟩⟩

end Acceptance

/-! ## When the parsers agree -/

/-- The four parsers take the text alike, with the same texts and files, as far as those are
ASCII. -/
def Rim2Agree (crypto : Crypto) (casing : Go.Casing) (runtime : CSharp.Runtime) (r : Release)
    (raw : Bytes) : Prop :=
  ∀ content : Rim2Content, content.Ascii →
    (Cpp.Accepts crypto r raw content ∨ CSharp.Accepts crypto runtime r raw content →
      Go.Accepts crypto casing r raw content ∧ Rust.Accepts crypto r raw content) ∧
    (Go.Accepts crypto casing r raw content ∨ Rust.Accepts crypto r raw content →
      Cpp.Accepts crypto r raw content ∧ CSharp.Accepts crypto runtime r raw content)

/-- The identifiers read alike in both orders, the version code is no negative number, and no
path is made of spaces. -/
structure Release.Portable (r : Release) (m : Rim2) : Prop where
  app : swapGuid r.app.bytes = r.app.bytes
  release : swapGuid r.release.bytes = r.release.bytes
  versionCode : ∀ code ∈ r.versionCode, 0 ≤ code
  paths : ∀ file ∈ m.body.files, Visible file.path

theorem Release.Portable.orders_iff {r : Release} {m : Rim2} (h : r.Portable m) :
    r.InMixedOrder m ↔ r.InTextOrder m := by
  rw [InMixedOrder, h.app, h.release, InTextOrder]

/-- **When the SDKs agree on a text**: exactly when, if it encodes a signed ASCII
manifest of the release with the identifiers in one of the two orders, the release and the
manifest are portable. -/
theorem rim2_agree_iff (crypto : Crypto) (casing : Go.Casing) (runtime : CSharp.Runtime)
    (r : Release) (raw : Bytes) :
    Rim2Agree crypto casing runtime r raw ↔
      ∀ m : Rim2, raw = m.encode → m.content.Ascii → m.WellFormed → r.Describes crypto m →
        r.InTextOrder m ∨ r.InMixedOrder m → r.Portable m := by
  constructor
  · intro hagree m hencode hascii hw hm horder
    obtain ⟨hforth, hback⟩ := hagree m.content hascii
    -- whichever side accepts, all four do, and each of them reads this manifest
    have hall : Cpp.Accepts crypto r raw m.content ∧
        CSharp.Accepts crypto runtime r raw m.content ∧ Rust.Accepts crypto r raw m.content := by
      rcases horder with htext | hmixed
      · have hcpp := Cpp.accepts_iff.mpr ⟨m, hencode, rfl, hw, hm, htext⟩
        obtain ⟨hgo, hrust⟩ := hforth (.inl hcpp)
        exact ⟨hcpp, (hback (.inl hgo)).2, hrust⟩
      · have hgo : Go.Accepts crypto casing r raw m.content :=
          (Go.accepts_iff hascii).mpr ⟨m, hencode, rfl, hw, hm, hmixed⟩
        obtain ⟨hcpp, hcsharp⟩ := hback (.inl hgo)
        exact ⟨hcpp, hcsharp, (hforth (.inl hcpp)).2⟩
    obtain ⟨hcpp, hcsharp, hrust⟩ := hall
    obtain ⟨m₁, h₁, -, hw₁, -, htext⟩ := Cpp.accepts_iff.mp hcpp
    obtain ⟨m₂, h₂, -, hw₂, -, -, hvisible⟩ := (CSharp.accepts_iff hascii).mp hcsharp
    obtain ⟨m₃, h₃, -, hw₃, -, hmixed, hcode⟩ := (Rust.accepts_iff hascii).mp hrust
    obtain rfl := Cpp.encode_unique hw hw₁ (hencode.symm.trans h₁)
    obtain rfl := Cpp.encode_unique hw hw₂ (hencode.symm.trans h₂)
    obtain rfl := Cpp.encode_unique hw hw₃ (hencode.symm.trans h₃)
    exact ⟨hmixed.1.symm.trans htext.1, hmixed.2.symm.trans htext.2, hcode, hvisible⟩
  · intro hportable content hascii
    constructor
    · intro haccepts
      obtain ⟨m, hencode, rfl, hw, hm, htext⟩ : ∃ m : Rim2, raw = m.encode ∧
          m.content = content ∧ m.WellFormed ∧ r.Describes crypto m ∧ r.InTextOrder m := by
        rcases haccepts with hcpp | hcsharp
        · exact Cpp.accepts_iff.mp hcpp
        · obtain ⟨m, hencode, hcontent, hw, hm, htext, -⟩ := (CSharp.accepts_iff hascii).mp hcsharp
          exact ⟨m, hencode, hcontent, hw, hm, htext⟩
      have hp := hportable m hencode hascii hw hm (.inl htext)
      have hmixed := hp.orders_iff.mpr htext
      exact ⟨(Go.accepts_iff hascii).mpr ⟨m, hencode, rfl, hw, hm, hmixed⟩,
        (Rust.accepts_iff hascii).mpr ⟨m, hencode, rfl, hw, hm, hmixed, hp.versionCode⟩⟩
    · intro haccepts
      obtain ⟨m, hencode, rfl, hw, hm, hmixed⟩ : ∃ m : Rim2, raw = m.encode ∧
          m.content = content ∧ m.WellFormed ∧ r.Describes crypto m ∧ r.InMixedOrder m := by
        rcases haccepts with hgo | hrust
        · exact (Go.accepts_iff hascii).mp hgo
        · obtain ⟨m, hencode, hcontent, hw, hm, hmixed, -⟩ := (Rust.accepts_iff hascii).mp hrust
          exact ⟨m, hencode, hcontent, hw, hm, hmixed⟩
      have hp := hportable m hencode hascii hw hm (.inr hmixed)
      have htext := hp.orders_iff.mp hmixed
      exact ⟨Cpp.accepts_iff.mpr ⟨m, hencode, rfl, hw, hm, htext⟩,
        (CSharp.accepts_iff hascii).mpr ⟨m, hencode, rfl, hw, hm, htext, hp.paths⟩⟩

/-- The release of the sample manifest. -/
def sampleRelease : Release where
  app := ⟨sampleRim2.body.app, rfl⟩
  release := ⟨sampleRim2.body.release, rfl⟩
  version := ascii "1.2.0"
  versionCode := some 7
  arch := .x64
  rootKeyId := ascii "root"
  rootTrustPublicKey := sampleRootKey

/-- A lower-case mapping and a comparison of texts that go by ASCII. -/
def asciiCasing : Go.Casing := ⟨lower, fun _ _ => rfl⟩

def asciiRuntime : CSharp.Runtime where
  guidParse text := (unhex (text.filter (· ≠ 0x2d))).map swapGuid
  guidParse_text bytes _ := by rw [filter_guidText, unhex_hex, Option.map_some]
  ignoreCase := CSharp.toLowerInvariant
  ignoreCase_ascii first second hfirst hsecond := by
    rw [CSharp.toLowerInvariant_units hfirst, CSharp.toLowerInvariant_units hsecond]
    exact ⟨CSharp.units_injective, congrArg _⟩

/-- **The four parsers differ.**  The sample manifest, of the app
01020304-0506-0708-090a-0b0c0d0e0f10, is accepted by C++ and C#; Go and Rust look for
the bytes 04030201-0605-0807 and reject it. -/
theorem sampleRim2_apart :
    ¬ ∀ (crypto : Crypto) (casing : Go.Casing) (runtime : CSharp.Runtime) (r : Release)
      (raw : Bytes), Rim2Agree crypto casing runtime r raw := by
  intro h
  have hascii : sampleRim2.content.Ascii := by
    refine ⟨ascii_of_all (by decide), ascii_of_all (by decide), ascii_of_all (by decide), ?_⟩
    intro file hfile
    obtain rfl := List.mem_singleton.mp hfile
    exact ascii_of_all (by decide)
  have hcpp : Cpp.Accepts sampleRim2Crypto sampleRelease sampleRim2.encode sampleRim2.content := by
    refine Cpp.accepts_iff.mpr ⟨sampleRim2, rfl, rfl, sampleRim2_wellFormed, ?_, rfl, rfl⟩
    exact ⟨rfl, rfl, rfl, by decide, rfl, by decide +kernel, by decide +kernel⟩
  have hgo := ((h sampleRim2Crypto asciiCasing asciiRuntime sampleRelease sampleRim2.encode
    sampleRim2.content hascii).1 (.inl hcpp)).1
  obtain ⟨m, hencode, -, hw, -, happ, -⟩ := (Go.accepts_iff hascii).mp hgo
  obtain rfl := Cpp.encode_unique sampleRim2_wellFormed hw hencode
  exact absurd happ (by decide)

end SwmSdk
