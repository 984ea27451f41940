import SwmSdk.KeyTexts
import SwmSdk.Rim2Cut

/-! # Evidence of the integrity of the host in C#

`HostIntegrityManager` of the C# client.  What `GetEvidenceAsync` turns into failed evidence is
`SwmIntegrityException` and what the file system throws; other exceptions of the parser reach
the caller (`parser_total_iff`).  With the signature checks of `CryptoUtil`, which throws for a key
that is no point, these are the texts that are cut short and the keys that are none (`sound_iff`).
-/
namespace SwmSdk
namespace CSharp
open ByteText ByteCodec Outcome

/-- What the file system throws for a valid path: kinds of `IOException`, or
`UnauthorizedAccessException`. -/
inductive FileFault where
  | fileNotFound
  | directoryNotFound
  | other
  | unauthorizedAccess
  deriving DecidableEq, Repr

/-- What a call of the manager may throw. -/
inductive Raised where
  | thrown (exception : Thrown)
  | file (fault : FileFault)
  deriving DecidableEq, Repr

/-- `IntegrityEvidence`. -/
structure IntegrityEvidence where
  integrityState : Bytes
  integrityFailureCode : Bytes
  evidenceVersion : Option Nat
  manifestSha256 : Bytes
  files : List (Text × Bytes)
  deriving DecidableEq, Repr

namespace IntegrityEvidence

/-- The evidence of a check that succeeded. -/
def verified (manifestSha256 : Bytes) (files : List (Text × Bytes)) : IntegrityEvidence :=
  ⟨ascii "verified", [], some 2, manifestSha256, files⟩

/-- The evidence of a check that failed, with its code. -/
def failed (code : Bytes) : IntegrityEvidence := ⟨ascii "failed", code, none, [], []⟩

end IntegrityEvidence

/-- `IntegrityEvidenceContext`, with the release as the options have it. -/
structure IntegrityEvidenceContext where
  release : Rim2Expected
  packageRoot : Text
  manifestPath : Text

/-- `HostIntegrityOptions`; a root that is null is empty here. -/
structure HostIntegrityOptions where
  enabled : Bool
  packageRoot : Text
  manifestPath : Text
  evidenceProvider : Option (IntegrityEvidenceContext → Except Raised IntegrityEvidence)

/-- What the manager uses of the file system. -/
structure HostSystem where
  /-- `Path.GetFullPath`. -/
  fullPath : Text → Except FileFault Text
  /-- `AppContext.BaseDirectory`. -/
  baseDirectory : Text
  /-- `File.ReadAllBytesAsync`. -/
  readAllBytes : Text → Except FileFault Bytes
  /-- `File.GetAttributes`. -/
  getAttributes : Text → Except FileFault Unit
  /-- The bytes of a file that is opened and read. -/
  content : Text → Except FileFault Bytes

/-- A manifest that is kept, with the root it was read for. -/
structure Kept where
  manifest : Rim2
  manifestSha256 : Bytes
  packageRoot : Text

def integrityError (code message : String) : Raised := .thrown (rim2Error code message)

/-- `NormalizeRelativePath`. -/
def normalizeRelativePath (value : Text) : Except Raised Text :=
  let normalized := (trim value).map fun c => if c = 0x5c then 0x2f else c
  if normalized = [] ∨ normalized.head? = some 0x2f ∨ normalized.contains 0x3a ∨
      (normalized.splitOn 0x2f).any (fun part => part = [] || part = [0x2e] ||
        part = [0x2e, 0x2e]) then
    .error (integrityError "host_unsafe_path" "integrity path is unsafe")
  else .ok normalized

section Manager
variable (runtime : Runtime) (check : SignatureCheck) (crypto : Crypto) (expected : Rim2Expected)
  (options : HostIntegrityOptions) (system : HostSystem)

/-- A call of the file system. -/
def call {α : Type} (result : Except FileFault α) : Except Raised α :=
  match result with
  | .ok value => .ok value
  | .error fault => .error (.file fault)

/-- `GetPackageRoot`. -/
def getPackageRoot : Except Raised Text :=
  if ¬ isNullOrWhiteSpace options.packageRoot then call (system.fullPath options.packageRoot)
  else .ok system.baseDirectory

/-- `ResolveSafePath`; the root ends with a separator when it is combined. -/
def resolveSafePath (root relativePath : Text) : Except Raised Text := do
  let normalized ← normalizeRelativePath relativePath
  let full ← call (system.fullPath root)
  let rootFull := (full.rdropWhile fun c => c = 0x5c || c = 0x2f) ++ [0x5c]
  let path ← call (system.fullPath
    (rootFull ++ normalized.map fun c => if c = 0x2f then 0x5c else c))
  if path.length < rootFull.length ∨
      runtime.ignoreCase (path.take rootFull.length) ≠ runtime.ignoreCase rootFull then
    .error (integrityError "host_unsafe_path" "integrity path escapes the package root")
  else .ok path

/-- The manifest that is kept for the root. -/
def keptFor (kept : Option Kept) (root : Text) : Option Kept :=
  kept.filter fun k => runtime.ignoreCase k.packageRoot = runtime.ignoreCase root

/-- The bytes that are parsed, if none is kept for the root. -/
def readManifest (kept : Option Kept) : Except Raised (Kept ⊕ Bytes × Text) := do
  let root ← getPackageRoot options system
  let path ← resolveSafePath runtime system root options.manifestPath
  match keptFor runtime kept root with
  | some k => .ok (.inl k)
  | none => do
      let raw ← call (system.readAllBytes path)
      .ok (.inr (raw, root))

/-- `LoadManifestAsync`. -/
def loadManifest (kept : Option Kept) : Except Raised Kept × Option Kept :=
  match readManifest runtime options system kept with
  | .error e => (.error e, kept)
  | .ok (.inl k) => (.ok k, kept)
  | .ok (.inr (raw, root)) =>
      match parseAndVerify runtime check expected raw with
      | .error e => (.error (.thrown e), kept)
      | .ok manifest =>
          let k : Kept := ⟨manifest, crypto.sha256Hex raw, root⟩
          (.ok k, some k)

/-- `files[path] = hash`, in a dictionary that ignores case. -/
def insertFile (path : Text) (hash : Bytes) : List (Text × Bytes) → List (Text × Bytes)
  | [] => [(path, hash)]
  | (p, h) :: rest =>
      if runtime.ignoreCase p = runtime.ignoreCase path then (p, hash) :: rest
      else (p, h) :: insertFile path hash rest

/-- The loop over the files of the manifest. -/
def collectFiles : List Rim2File → List (Text × Bytes) → Except Raised (List (Text × Bytes))
  | [], files => .ok files
  | file :: rest, files => do
      let root ← getPackageRoot options system
      let path ← resolveSafePath runtime system root (getString file.path)
      match system.getAttributes path with
      | .error .fileNotFound => collectFiles rest files
      | .error .directoryNotFound => collectFiles rest files
      | .error fault => .error (.file fault)
      | .ok () => do
          let bytes ← call (system.content path)
          let key ← normalizeRelativePath (getString file.path)
          collectFiles rest (insertFile runtime key (hex (crypto.sha256 bytes)) files)

/-- The evidence of the manifest and the files it lists, before exceptions are caught. -/
def manifestEvidence (kept : Option Kept) : Except Raised IntegrityEvidence × Option Kept :=
  let loaded := loadManifest runtime check crypto expected options system kept
  let evidence : Except Raised IntegrityEvidence := do
    let k ← loaded.1
    let files ← collectFiles runtime crypto options system k.manifest.body.files []
    .ok (.verified k.manifestSha256 files)
  (evidence, loaded.2)

/-- `GetEvidenceAsync`. -/
def getEvidence (kept : Option Kept) :
    Except Raised (Option IntegrityEvidence) × Option Kept :=
  match options.evidenceProvider with
  | some provider =>
      let evidence : Except Raised (Option IntegrityEvidence) := do
        let root ← getPackageRoot options system
        let evidence ← provider ⟨expected, root, options.manifestPath⟩
        .ok (some evidence)
      (evidence, kept)
  | none =>
      if ¬ options.enabled then (.ok none, kept)
      else
        let out := manifestEvidence runtime check crypto expected options system kept
        match out.1 with
        | .ok evidence => (.ok (some evidence), out.2)
        | .error (.thrown (.swm error)) =>
            if error.kind = .integrity then (.ok (some (.failed error.serviceCode)), out.2)
            else (.error (.thrown (.swm error)), out.2)
        | .error (.file _) => (.ok (some (.failed (ascii "host_file_io_failed"))), out.2)
        | .error e => (.error e, out.2)

/-! ## What is caught -/

/-- The exceptions that make failed evidence. -/
def Raised.Caught : Raised → Prop
  | .thrown exception => exception.Integrity
  | .file _ => True

theorem not_fails_call {α : Type} (result : Except FileFault α) :
    ¬ Fails (fun e => ¬ Raised.Caught e) (call result) := by
  unfold call
  cases result with
  | ok value => exact not_fails_ok _
  | error fault => exact fun h => fails_error.mp h trivial

theorem not_fails_normalizeRelativePath (value : Text) :
    ¬ Fails (fun e => ¬ Raised.Caught e) (normalizeRelativePath value) := by
  unfold normalizeRelativePath
  dsimp only
  rw [fails_guard]
  rintro (h | h)
  · exact h.2 rfl
  · exact not_fails_ok _ h.2

theorem not_fails_getPackageRoot :
    ¬ Fails (fun e => ¬ Raised.Caught e) (getPackageRoot options system) := by
  unfold getPackageRoot
  split
  · exact not_fails_call _
  · exact not_fails_ok _

theorem not_fails_resolveSafePath (root relativePath : Text) :
    ¬ Fails (fun e => ¬ Raised.Caught e)
      (resolveSafePath runtime system root relativePath) := by
  unfold resolveSafePath
  intro hfails
  rcases fails_bind.mp hfails with hcut | ⟨normalized, -, hfails₁⟩
  · exact not_fails_normalizeRelativePath _ hcut
  rcases fails_bind.mp hfails₁ with hcut | ⟨full, -, hfails₂⟩
  · exact not_fails_call _ hcut
  rcases fails_bind.mp hfails₂ with hcut | ⟨path, -, hfails₃⟩
  · exact not_fails_call _ hcut
  rcases fails_guard.mp hfails₃ with hcut | hdone
  · exact hcut.2 rfl
  · exact not_fails_ok _ hdone.2

theorem not_fails_readManifest (kept : Option Kept) :
    ¬ Fails (fun e => ¬ Raised.Caught e) (readManifest runtime options system kept) := by
  unfold readManifest
  intro hfails
  rcases fails_bind.mp hfails with hcut | ⟨root, -, hfails₁⟩
  · exact not_fails_getPackageRoot options system hcut
  rcases fails_bind.mp hfails₁ with hcut | ⟨path, -, hfails₂⟩
  · exact not_fails_resolveSafePath runtime system _ _ hcut
  split at hfails₂
  · exact not_fails_ok _ hfails₂
  · rcases fails_bind.mp hfails₂ with hcut | ⟨raw, -, hdone⟩
    · exact not_fails_call _ hcut
    · exact not_fails_ok _ hdone

/-- Whatever a file of the manifest throws is caught. -/
theorem not_fails_collectFiles (list : List Rim2File) (files : List (Text × Bytes)) :
    ¬ Fails (fun e => ¬ Raised.Caught e)
      (collectFiles runtime crypto options system list files) := by
  induction list generalizing files with
  | nil => exact not_fails_ok _
  | cons file rest ih =>
    rw [collectFiles]
    intro hfails
    rcases fails_bind.mp hfails with hcut | ⟨root, -, hfails₁⟩
    · exact not_fails_getPackageRoot options system hcut
    rcases fails_bind.mp hfails₁ with hcut | ⟨path, -, hfails₂⟩
    · exact not_fails_resolveSafePath runtime system _ _ hcut
    split at hfails₂
    · exact ih _ hfails₂
    · exact ih _ hfails₂
    · exact fails_error.mp hfails₂ trivial
    · rcases fails_bind.mp hfails₂ with hcut | ⟨bytes, -, hfails₃⟩
      · exact not_fails_call _ hcut
      rcases fails_bind.mp hfails₃ with hcut | ⟨key, -, hfails₄⟩
      · exact not_fails_normalizeRelativePath _ hcut
      · exact ih _ hfails₄

/-- Only the parser throws what is not caught, from the bytes that it is given. -/
theorem fails_manifestEvidence (kept : Option Kept) :
    Fails (fun e => ¬ Raised.Caught e)
        (manifestEvidence runtime check crypto expected options system kept).1 ↔
      ∃ raw root, readManifest runtime options system kept = .ok (.inr (raw, root)) ∧
        Fails (fun e => ¬ e.Integrity) (parseAndVerify runtime check expected raw) := by
  have hread := not_fails_readManifest runtime options system kept
  unfold manifestEvidence
  dsimp only
  rw [fails_bind, or_iff_left]
  · unfold loadManifest
    cases hmanifest : readManifest runtime options system kept with
    | error e =>
      rw [hmanifest, fails_error] at hread
      dsimp only
      rw [fails_error]
      exact iff_of_false hread (by simp)
    | ok found =>
      cases found with
      | inl k => exact iff_of_false (not_fails_ok _) (by simp)
      | inr found =>
        obtain ⟨raw, root⟩ := found
        have hparse : (∃ raw' root', (Except.ok (.inr (raw, root)) :
              Except Raised (Kept ⊕ Bytes × Text)) = .ok (.inr (raw', root')) ∧
              Fails (fun e => ¬ e.Integrity) (parseAndVerify runtime check expected raw')) ↔
            Fails (fun e => ¬ e.Integrity) (parseAndVerify runtime check expected raw) := by
          simp
        rw [hparse]
        dsimp only
        cases parseAndVerify runtime check expected raw with
        | error e =>
          rw [fails_error, fails_error]
          rfl
        | ok m => exact iff_of_false (not_fails_ok _) (not_fails_ok _)
  · rintro ⟨k, -, hfails⟩
    rcases fails_bind.mp hfails with hcut | ⟨files, -, hdone⟩
    · exact not_fails_collectFiles runtime crypto options system _ _ hcut
    · exact not_fails_ok _ hdone

theorem manifestEvidence_verified {kept : Option Kept} {evidence : IntegrityEvidence}
    (h : (manifestEvidence runtime check crypto expected options system kept).1 = .ok evidence) :
    evidence.integrityState = ascii "verified" := by
  obtain ⟨k, -, h⟩ := bind_eq_ok.mp h
  obtain ⟨files, -, h⟩ := bind_eq_ok.mp h
  obtain rfl := Except.ok.inj h
  rfl

/-- Evidence is returned unless something is thrown that is not caught. -/
theorem getEvidence_decided_iff {kept : Option Kept} (hprovider : options.evidenceProvider = none)
    (henabled : options.enabled = true) :
    (∃ evidence, (getEvidence runtime check crypto expected options system kept).1 =
        .ok (some evidence) ∧ (evidence.integrityState = ascii "verified" ∨
          evidence.integrityState = ascii "failed")) ↔
      ¬ Fails (fun e => ¬ Raised.Caught e)
        (manifestEvidence runtime check crypto expected options system kept).1 := by
  unfold getEvidence
  rw [hprovider]
  dsimp only
  rw [if_neg (not_not_intro henabled)]
  cases hevidence : (manifestEvidence runtime check crypto expected options system kept).1 with
  | ok evidence =>
    have hverified :=
      manifestEvidence_verified runtime check crypto expected options system hevidence
    exact iff_of_true ⟨evidence, rfl, .inl hverified⟩ (not_fails_ok _)
  | error e =>
    rw [fails_error, not_not]
    match e with
    | .file fault => exact iff_of_true ⟨_, rfl, .inr rfl⟩ trivial
    | .thrown (.swm error) =>
      by_cases hkind : error.kind = .integrity
      · simp only [if_pos hkind]
        exact iff_of_true ⟨_, rfl, .inr rfl⟩ hkind
      · simp only [if_neg hkind]
        refine iff_of_false ?_ hkind
        rintro ⟨evidence, h, -⟩
        cases h
    | .thrown .argumentOutOfRange | .thrown .indexOutOfRange | .thrown .format =>
      refine iff_of_false ?_ id
      rintro ⟨evidence, h, -⟩
      cases h

end Manager

/-- **When the parser and the evidence are total up to their error.**  The parser returns a
manifest or throws `SwmIntegrityException` exactly for sound texts: those that do not end in a
field that is sliced without a test, and whose signatures are checked without an exception.  And
evidence is returned exactly if the manifest file, when it is read, is sound. -/
theorem parser_total_iff (runtime : Runtime) (check : SignatureCheck) (crypto : Crypto)
    {expected : Rim2Expected} {app release : Bytes}
    (happ : runtime.guidParse expected.appId = some app)
    (hrelease : runtime.guidParse expected.releaseId = some release) :
    (∀ raw, ((∃ m, parseAndVerify runtime check expected raw = .ok m) ∨
        ∃ e, parseAndVerify runtime check expected raw = .error e ∧ e.Integrity) ↔
      Sound runtime check expected app release raw) ∧
    ∀ (options : HostIntegrityOptions) (system : HostSystem) (kept : Option Kept),
      options.evidenceProvider = none → options.enabled = true →
      ((∃ evidence, (getEvidence runtime check crypto expected options system kept).1 =
          .ok (some evidence) ∧ (evidence.integrityState = ascii "verified" ∨
            evidence.integrityState = ascii "failed")) ↔
        ∀ raw root, readManifest runtime options system kept = .ok (.inr (raw, root)) →
          Sound runtime check expected app release raw) := by
  have hparse := fails_parseAndVerify runtime check happ hrelease
  constructor
  · intro raw
    have hraw := not_congr (hparse raw)
    rw [not_not] at hraw
    rw [← hraw]
    cases parseAndVerify runtime check expected raw with
    | ok m => exact iff_of_true (.inl ⟨m, rfl⟩) (not_fails_ok _)
    | error e => simp [fails_error]
  · intro options system kept hprovider henabled
    rw [getEvidence_decided_iff runtime check crypto expected options system hprovider henabled,
      fails_manifestEvidence]
    simp only [hparse, not_exists, not_and, not_not]

/-- A package that has a manifest and none of the files. -/
def bareFolder (raw : Bytes) : HostSystem where
  fullPath path := .ok path
  baseDirectory := units (ascii "C:\\app\\")
  readAllBytes _ := .ok raw
  getAttributes _ := .error .fileNotFound
  content _ := .error .fileNotFound

/-- Options that name a manifest and no package folder. -/
def manifestOptions : HostIntegrityOptions := ⟨true, [], units (ascii "release-integrity.v2"), none⟩

/-- The sample manifest without its last byte. -/
def cutManifest : Bytes := sampleRim2.encode.dropLast

theorem readManifest_bareFolder (raw : Bytes) :
    readManifest asciiRuntime manifestOptions (bareFolder raw) none =
      .ok (.inr (raw, units (ascii "C:\\app\\"))) := by
  rfl

theorem sampleRim2_read :
    (rim2Dialect asciiRuntime).read sampleRim2.encode = .ok sampleRim2 := by
  decide +kernel

theorem cutManifest_cut : (rim2Dialect asciiRuntime).CutShort cutManifest := by
  have hthrown : (rim2Dialect asciiRuntime).read cutManifest = .error .argumentOutOfRange := by
    decide +kernel
  exact (Dialect.fails_read (rim2Dialect_untested asciiRuntime)).mp ⟨_, hthrown, id⟩

theorem sampleRim2_sound :
    Sound asciiRuntime sampleRim2Crypto.signatureCheck sampleExpected (swapGuid sampleRim2.body.app)
      (swapGuid sampleRim2.body.release) sampleRim2.encode where
  whole hcut := by
    have hfails := (Dialect.fails_read (rim2Dialect_untested asciiRuntime)).mpr hcut
    rw [sampleRim2_read] at hfails
    exact not_fails_ok _ hfails
  checks m _ _ := by
    refine fun _ => ⟨fun e he => ?_, fun _ e he => ?_⟩
    · cases he
    · cases he

/-- A package with the sample manifest has evidence; with one that lacks the last byte, the
exception reaches the caller. -/
theorem parser_total_sample :
    (∃ evidence, (getEvidence asciiRuntime sampleRim2Crypto.signatureCheck sampleRim2Crypto
        sampleExpected manifestOptions (bareFolder sampleRim2.encode) none).1 =
          .ok (some evidence) ∧ (evidence.integrityState = ascii "verified" ∨
            evidence.integrityState = ascii "failed")) ∧
      ¬ ∃ evidence, (getEvidence asciiRuntime sampleRim2Crypto.signatureCheck sampleRim2Crypto
        sampleExpected manifestOptions (bareFolder cutManifest) none).1 =
          .ok (some evidence) ∧ (evidence.integrityState = ascii "verified" ∨
            evidence.integrityState = ascii "failed") := by
  have happ : asciiRuntime.guidParse sampleExpected.appId =
      some (swapGuid sampleRim2.body.app) := by
    decide
  have hrelease : asciiRuntime.guidParse sampleExpected.releaseId =
      some (swapGuid sampleRim2.body.release) := by
    decide
  have htotal := (parser_total_iff asciiRuntime sampleRim2Crypto.signatureCheck sampleRim2Crypto
    happ hrelease).2 manifestOptions
  rw [htotal _ none rfl rfl, htotal _ none rfl rfl]
  constructor
  · intro raw root hraw
    rw [readManifest_bareFolder] at hraw
    obtain ⟨rfl, -⟩ := Prod.mk.inj (Sum.inr.inj (Except.ok.inj hraw))
    exact sampleRim2_sound
  · intro hall
    exact (hall _ _ (readManifest_bareFolder cutManifest)).whole cutManifest_cut

/-- The parser slices the last signature past the end, and the exception is not caught. -/
theorem cutManifest_thrown :
    parseAndVerify asciiRuntime sampleRim2Crypto.signatureCheck sampleExpected cutManifest =
        .error .argumentOutOfRange ∧
      (getEvidence asciiRuntime sampleRim2Crypto.signatureCheck sampleRim2Crypto sampleExpected
        manifestOptions (bareFolder cutManifest) none).1 =
          .error (.thrown .argumentOutOfRange) := by
  constructor
  · decide +kernel
  · decide +kernel

/-! ## The checks of `CryptoUtil` -/

/-- `CryptoUtil.VerifyEd25519` as the parser calls it, on the root key as the options have it and on
texts that the parser writes itself.  None of its exceptions is an `SwmIntegrityException`, and
they are not told apart here. -/
def signatureChecks (library : Ed25519) : SignatureCheck where
  root key message signature :=
    answer (verifyEd25519Texts library key message (Base64Text.encodeStandard signature))
  signer key message signature :=
    answer (verifyEd25519Texts library (Base64Text.encodeStandard key) message
      (Base64Text.encodeStandard signature))
where
  answer : Option Bool → Except Error Bool
    | some valid => .ok valid
    | none => .error {
        kind := .cryptographic
        statusCode := 0
        serviceCode := []
        message := ascii "Ed25519 key or signature has an invalid length" }

/-- The text is that of a key that is a point. -/
def PointText (library : Ed25519) (text key : Bytes) : Prop :=
  decodeKeyMaterial text = .ok key ∧ key.length = 32 ∧ library.validKey key = true

section Checks
variable {library : Ed25519} {keyText message signature : Bytes} (hlength : signature.length = 64)
include hlength

theorem answer_eq_ok {valid : Bool} :
    signatureChecks.answer (verifyEd25519Texts library keyText message
        (Base64Text.encodeStandard signature)) = .ok valid ↔
      ∃ key, PointText library keyText key ∧ library.check signature key message = valid := by
  rw [verifyEd25519Texts, verifyTexts, decodeKeyMaterial_standard (by omega)]
  unfold PointText
  cases decodeKeyMaterial keyText with
  | error e => simp [Except.toOption, signatureChecks.answer]
  | ok key =>
    by_cases hkey : key.length = 32
    · cases hvalid : library.validKey key with
      | true => simp [Except.toOption, hkey, hlength, hvalid, signatureChecks.answer]
      | false => simp [Except.toOption, hkey, hlength, hvalid, signatureChecks.answer]
    · simp [Except.toOption, hkey, signatureChecks.answer]

theorem answered_iff :
    Answered (signatureChecks.answer (verifyEd25519Texts library keyText message
      (Base64Text.encodeStandard signature))) ↔ ∃ key, PointText library keyText key := by
  have hanswered : ∀ answer, Answered (signatureChecks.answer answer) ↔
      ∃ valid, signatureChecks.answer answer = .ok valid := by
    intro answer
    cases answer with
    | none => simp [signatureChecks.answer, Answered]
    | some valid => simp [signatureChecks.answer, Answered]
  rw [hanswered]
  constructor
  · rintro ⟨valid, hvalid⟩
    obtain ⟨key, hkey, -⟩ := (answer_eq_ok hlength).mp hvalid
    exact ⟨key, hkey⟩
  · rintro ⟨key, hkey⟩
    exact ⟨_, (answer_eq_ok hlength).mpr ⟨key, hkey, rfl⟩⟩

end Checks

/-- **Which keys let the parser down**: a root key that is no point, or, under a certificate that
holds, a signer's key that is none. -/
theorem checksAnswered_iff {runtime : Runtime} {library : Ed25519} {expected : Rim2Expected}
    {app release : Bytes} {m : Rim2} (hm : (rim2Dialect runtime).Fits m) :
    ChecksAnswered (signatureChecks library) expected app release m ↔
      (¬ rim2Mismatch expected app release m →
        ∃ key, PointText library expected.rootTrustPublicKey key ∧
          (library.check m.trailer.rootSignature key m.keyMessage = true →
            library.validKey m.trailer.signerPublic = true)) := by
  have hroot := hm.trailer.rootSignature
  have hsigner : (∃ key, PointText library
      (Base64Text.encodeStandard m.trailer.signerPublic) key) ↔
        library.validKey m.trailer.signerPublic = true := by
    have hpublic := hm.trailer.signerPublic
    unfold PointText
    rw [decodeKeyMaterial_standard (by omega)]
    simp [hpublic]
  refine imp_congr_right fun _ => ?_
  refine (and_congr (answered_iff hroot) (imp_congr (answer_eq_ok hroot)
    ((answered_iff hm.trailer.manifestSignature).trans hsigner))).trans ?_
  constructor
  · rintro ⟨⟨key, hkey⟩, hvalid⟩
    exact ⟨key, hkey, fun hcheck => hvalid ⟨key, hkey, hcheck⟩⟩
  · rintro ⟨key, hkey, hvalid⟩
    refine ⟨⟨key, hkey⟩, ?_⟩
    rintro ⟨other, hother, hcheck⟩
    obtain rfl := Except.ok.inj (hkey.1.symm.trans hother.1)
    exact hvalid hcheck

/-- **What the parser throws with these checks**, for every text. -/
theorem sound_iff {runtime : Runtime} {library : Ed25519} {expected : Rim2Expected}
    {app release : Bytes} {raw : Bytes} :
    Sound runtime (signatureChecks library) expected app release raw ↔
      ¬ (rim2Dialect runtime).CutShort raw ∧
        ∀ m : Rim2, raw = m.encode → (rim2Dialect runtime).Fits m →
          ¬ rim2Mismatch expected app release m →
            ∃ key, PointText library expected.rootTrustPublicKey key ∧
              (library.check m.trailer.rootSignature key m.keyMessage = true →
                library.validKey m.trailer.signerPublic = true) := by
  constructor
  · intro h
    exact ⟨h.whole, fun m hraw hfits => (checksAnswered_iff hfits).mp (h.checks m hraw hfits)⟩
  · intro h
    exact ⟨h.1, fun m hraw hfits => (checksAnswered_iff hfits).mpr (h.2 m hraw hfits)⟩

end CSharp
end SwmSdk
