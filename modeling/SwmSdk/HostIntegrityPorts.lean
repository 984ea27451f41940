import SwmSdk.HostIntegrityJava
import SwmSdk.Rim2Ports

/-! # Evidence of the integrity of the host in Go and in Rust

The managers of these SDKs.  Both put the digests of the files under their paths in lower case,
and both leave out a file that cannot be opened: Go only if it does not exist, Rust for whatever
reason, as every error of the file system has the kind that its loop goes on after
(`Rust.verified_hidden_iff`).
-/
namespace SwmSdk
open ByteText ByteCodec Outcome

/-! ## Go -/

namespace Go

/-- The errors of the file system that are told apart. -/
inductive FileError where
  | notExist
  | permission
  | eof
  | other
  deriving DecidableEq, Repr

/-- What the manager uses of the system; texts are UTF-8. -/
structure HostSystem where
  /-- `os.Executable`. -/
  executable : Except FileError Bytes
  /-- `filepath.Dir`. -/
  dir : Bytes → Bytes
  /-- `filepath.Abs`. -/
  abs : Bytes → Except FileError Bytes
  /-- `filepath.Clean`. -/
  clean : Bytes → Bytes
  /-- `filepath.Join`, of two paths. -/
  join : Bytes → Bytes → Bytes
  /-- `filepath.Rel`. -/
  rel : Bytes → Bytes → Except FileError Bytes
  /-- `filepath.Separator`. -/
  separator : UInt8
  /-- `os.ReadFile`. -/
  readFile : Bytes → Except FileError Bytes
  /-- `os.Open`, with what is read to the end, within the time that the context leaves. -/
  openFile : Bytes → Except FileError (Except FileError Bytes)

/-- What fails a step of the manager. -/
inductive HostFault where
  | sdk (error : Error)
  | rim2 (error : Rim2Error)
  | file (error : FileError)
  deriving DecidableEq, Repr

/-- `IntegrityEvidenceContext`, with the release as the options have it. -/
structure IntegrityEvidenceContext where
  release : Rim2Expected
  packageRoot : Bytes
  manifestPath : Bytes

/-- `HostIntegrityOptions`. -/
structure HostIntegrityOptions where
  enabled : Bool
  packageRoot : Bytes
  manifestPath : Bytes
  evidenceProvider : Option (IntegrityEvidenceContext → Except HostFault IntegrityEvidence)

/-- The fault of a path that leaves the package folder. -/
def unsafePath (message : String) : HostFault :=
  .sdk { kind := .integrity, statusCode := 0, serviceCode := ascii "host_unsafe_path"
         message := ascii message }

/-- `safeRelativePath`. -/
def safeRelativePath (value : Bytes) : Except HostFault Bytes :=
  let normalized := trimSpace (value.map fun b => if b = 0x5c then 0x2f else b)
  if normalized = [] ∨ normalized.head? = some 0x2f ∨ normalized.contains 0x3a ∨
      normalized.contains 0 then
    .error (unsafePath "integrity path is unsafe")
  else if (normalized.splitOn 0x2f).any fun part =>
      part = [] || part = ascii "." || part = ascii ".." then
    .error (unsafePath "integrity path is unsafe")
  else .ok normalized

section Manager
variable (casing : Casing) (check : SignatureCheck) (crypto : Crypto) (expected : Rim2Expected)
  (options : HostIntegrityOptions) (system : HostSystem)

/-- A manifest that is kept; it was parsed for the options. -/
structure KeptManifest where
  manifest : Rim2
  manifestSha256 : Bytes
  root : Bytes
  parsed : ∃ raw, parseAndVerify casing check expected raw = .ok manifest

/-- A call of the file system. -/
def call {α : Type} (result : Except FileError α) : Except HostFault α :=
  match result with
  | .ok value => .ok value
  | .error e => .error (.file e)

/-- `packageRoot`. -/
def packageRoot : Except HostFault Bytes := do
  let root ← if trimSpace options.packageRoot = [] then
      call (system.executable.map system.dir)
    else .ok options.packageRoot
  let absolute ← call (system.abs root)
  .ok (system.clean absolute)

/-- `resolvePackagePath`. -/
def resolvePackagePath (root relative : Bytes) : Except HostFault Bytes := do
  let normalized ← safeRelativePath relative
  let rootAbsolute ← call (system.abs root)
  let path := system.join rootAbsolute
    (normalized.map fun b => if b = 0x2f then system.separator else b)
  match system.rel rootAbsolute path with
  | .error _ => .error (unsafePath "integrity path escapes the package root")
  | .ok relativeToRoot =>
      if relativeToRoot = ascii ".." ∨ ascii ".." ++ [system.separator] <+: relativeToRoot then
        .error (unsafePath "integrity path escapes the package root")
      else .ok path

/-- `hashFile`. -/
def hashFile (path : Bytes) : Except FileError Bytes := do
  let content ← system.openFile path
  let bytes ← content
  .ok (crypto.sha256 bytes)

/-- `loadManifest`. -/
def loadManifest (kept : Option (KeptManifest casing check expected)) :
    Except HostFault (KeptManifest casing check expected) ×
      Option (KeptManifest casing check expected) :=
  match packageRoot options system with
  | .error e => (.error e, kept)
  | .ok root =>
      match kept.filter fun k => k.root = root with
      | some k => (.ok k, kept)
      | none =>
          let read : Except HostFault (KeptManifest casing check expected) := do
            let path ← resolvePackagePath system root options.manifestPath
            let raw ← call (system.readFile path)
            match h : parseAndVerify casing check expected raw with
            | .error e => .error (.rim2 e)
            | .ok manifest => .ok ⟨manifest, crypto.sha256Hex raw, root, raw, h⟩
          match read with
          | .error e => (.error e, kept)
          | .ok k => (.ok k, some k)

/-- The code of a manifest that was not loaded. -/
def failureCode : HostFault → Bytes
  | .rim2 e => if e.code = [] then ascii "host_integrity_internal_error" else e.code
  | .file .permission => ascii "host_file_io_failed"
  | .file .eof => ascii "host_file_io_failed"
  | _ => ascii "host_integrity_internal_error"

/-- The loop over the files of the manifest; the code of the failure if it stops. -/
def collectFiles (root : Bytes) : List Rim2File → List (Bytes × Bytes) →
    Except Bytes (List (Bytes × Bytes))
  | [], files => .ok files
  | file :: rest, files =>
      match resolvePackagePath system root file.path with
      | .error _ => .error (ascii "host_unsafe_path")
      | .ok path =>
          match hashFile crypto system path with
          | .error .notExist => collectFiles root rest files
          | .error _ => .error (ascii "host_file_io_failed")
          | .ok hash =>
              collectFiles root rest (Java.putFile (casing.toLower file.path) (hex hash) files)

/-- `getEvidence`; a text that is left empty is absent. -/
def getEvidence (kept : Option (KeptManifest casing check expected)) :
    Except HostFault IntegrityEvidence × Option (KeptManifest casing check expected) :=
  match options.evidenceProvider with
  | some provider =>
      let evidence : Except HostFault IntegrityEvidence := do
        let root ← packageRoot options system
        provider ⟨expected, root, options.manifestPath⟩
      (evidence, kept)
  | none =>
      if ¬ options.enabled then (.ok .empty, kept)
      else
        let loaded := loadManifest casing check crypto expected options system kept
        match loaded.1 with
        | .error e => (.ok (.failed (failureCode e)), loaded.2)
        | .ok k =>
            match packageRoot options system with
            | .error _ => (.ok (.failed (ascii "host_file_io_failed")), loaded.2)
            | .ok root =>
                match collectFiles casing crypto system root k.manifest.body.files [] with
                | .error code => (.ok (.failed code), loaded.2)
                | .ok files =>
                    (.ok ⟨ascii "verified", [], some 2, k.manifestSha256, files⟩, loaded.2)

end Manager
end Go

/-! ## Rust -/

namespace Rust

/-- An absolute path as its components, from the root on. -/
abbrev PathBuf := List Bytes

/-- `std::io::Error`. -/
structure IoError where
  message : Bytes
  deriving DecidableEq, Repr

/-- What the manager uses of the system. -/
structure HostSystem where
  /-- `std::env::current_exe`. -/
  currentExe : Except IoError PathBuf
  /-- `tokio::fs::read`. -/
  read : PathBuf → Except IoError Bytes
  /-- `File::open`, with what is read to the end. -/
  openFile : PathBuf → Except IoError (Except IoError Bytes)

/-- `IntegrityEvidenceRequest`, with the release as the options have it. -/
structure IntegrityEvidenceRequest where
  release : Rim2Expected
  packageRoot : PathBuf
  manifestPath : Bytes

/-- `HostIntegrityOptions`. -/
structure HostIntegrityOptions where
  enabled : Bool
  packageRoot : Option PathBuf
  manifestPath : Bytes
  evidenceProvider : Option (IntegrityEvidenceRequest → Except Error IntegrityEvidence)

/-- `Error::new`. -/
def newError (kind : ErrorKind) (message : Bytes) : Error where
  kind := kind
  statusCode := 0
  serviceCode := []
  message := message

/-- `From<std::io::Error>`. -/
def ofIo (e : IoError) : Error := newError .validation e.message

/-- The `?` of a call of the file system. -/
def tryIo {α : Type} (result : Except IoError α) : Except Error α :=
  match result with
  | .ok value => .ok value
  | .error e => .error (ofIo e)

/-- `resolve_package_path`. -/
def resolvePackagePath (root : PathBuf) (relative : Bytes) : Except Error PathBuf :=
  let normalized := relative.map fun b => if b = 0x5c then 0x2f else b
  if normalized = [] ∨ normalized.head? = some 0x2f ∨ normalized.contains 0x3a ∨
      (normalized.splitOn 0x2f).any (fun part =>
        part = [] || part = ascii "." || part = ascii "..") then
    .error (newError .integrity (ascii "integrity path is unsafe"))
  else
    let path := root ++ normalized.splitOn 0x2f
    if ¬ root <+: path then
      .error (newError .integrity (ascii "integrity path escapes package root"))
    else .ok path

section Manager
variable (check : SignatureCheck) (crypto : Crypto) (expected : Rim2Expected)
  (options : HostIntegrityOptions) (system : HostSystem)

/-- A manifest that is kept; it was parsed for the options. -/
structure KeptManifest where
  manifest : Rim2
  manifestSha256 : Bytes
  root : PathBuf
  parsed : ∃ raw, parseAndVerify check expected raw = .ok manifest

/-- `package_root`. -/
def packageRoot : Except Error PathBuf :=
  match options.packageRoot with
  | some root => .ok root
  | none => do
      let executable ← tryIo system.currentExe
      if executable.length ≤ 1 then
        .error (newError .integrity (ascii "executable path has no parent"))
      else .ok executable.dropLast

/-- `hash_file`; that the file cannot be opened has the kind that `?` gives the other errors. -/
def hashFile (path : PathBuf) : Except Error Bytes := do
  let content ← match system.openFile path with
    | .ok content => .ok content
    | .error e => .error (newError .validation e.message)
  let bytes ← tryIo content
  .ok (crypto.sha256 bytes)

/-- `load_manifest`. -/
def loadManifest (kept : Option (KeptManifest check expected)) :
    Except Error (KeptManifest check expected) × Option (KeptManifest check expected) :=
  match packageRoot options system with
  | .error e => (.error e, kept)
  | .ok root =>
      match kept.filter fun k => k.root = root with
      | some k => (.ok k, kept)
      | none =>
          let read : Except Error (KeptManifest check expected) := do
            let path ← resolvePackagePath root options.manifestPath
            let raw ← tryIo (system.read path)
            match h : parseAndVerify check expected raw with
            | .error e => .error e
            | .ok manifest => .ok ⟨manifest, crypto.sha256Hex raw, root, raw, h⟩
          match read with
          | .error e => (.error e, kept)
          | .ok k => (.ok k, some k)

/-- The loop over the files of the manifest; none if it stops with a failure. -/
def collectFiles (root : PathBuf) : List Rim2File → List (Bytes × Bytes) →
    Except Error (Option (List (Bytes × Bytes)))
  | [], files => .ok (some files)
  | file :: rest, files => do
      let path ← resolvePackagePath root file.path
      match hashFile crypto system path with
      | .ok hash => collectFiles root rest (Java.putFile (lower file.path) (hex hash) files)
      | .error e => if e.kind = .validation then collectFiles root rest files else .ok none

/-- `get_evidence`; a text that is left empty is absent. -/
def getEvidence (kept : Option (KeptManifest check expected)) :
    Except Error IntegrityEvidence × Option (KeptManifest check expected) :=
  match options.evidenceProvider with
  | some provider =>
      let evidence : Except Error IntegrityEvidence := do
        let root ← packageRoot options system
        provider ⟨expected, root, options.manifestPath⟩
      (evidence, kept)
  | none =>
      if ¬ options.enabled then (.ok .empty, kept)
      else
        let loaded := loadManifest check crypto expected options system kept
        match loaded.1 with
        | .error e =>
            (.ok (.failed (if e.serviceCode = [] then ascii "host_integrity_internal_error"
              else e.serviceCode)), loaded.2)
        | .ok k =>
            let evidence : Except Error IntegrityEvidence := do
              let root ← packageRoot options system
              match ← collectFiles crypto system root k.manifest.body.files [] with
              | none => .ok (.failed (ascii "host_file_io_failed"))
              | some files => .ok ⟨ascii "verified", [], some 2, k.manifestSha256, files⟩
            (evidence, loaded.2)

/-! ## What the loop leaves out -/

/-- A listed path is resolved below the root. -/
theorem resolvePackagePath_safe {path : Bytes} (hsafe : safePath path = true) (root : PathBuf) :
    resolvePackagePath root path = .ok (root ++ path.splitOn 0x2f) := by
  simp only [safePath, Bool.and_eq_true, List.all_eq_true, decide_eq_true_eq,
    List.contains_iff_mem, decide_not, Bool.not_eq_true', decide_eq_false_iff_not] at hsafe
  obtain ⟨⟨⟨⟨⟨⟨⟨hne, -⟩, hhead⟩, -⟩, hback⟩, hcolon⟩, -⟩, hparts⟩ := hsafe
  have hslashes : (path.map fun b => if b = 0x5c then 0x2f else b) = path := by
    refine (List.map_congr_left fun b hb => if_neg ?_).trans (List.map_id path)
    rintro rfl
    exact hback hb
  have hpass : ¬ (path = [] ∨ path.head? = some 0x2f ∨ path.contains 0x3a = true ∨
      (path.splitOn 0x2f).any (fun part =>
        part = [] || part = ascii "." || part = ascii "..") = true) := by
    rintro (h | h | h | h)
    · exact hne h
    · exact hhead h
    · exact hcolon (List.contains_iff_mem.mp h)
    · obtain ⟨part, hpart, h⟩ := List.any_eq_true.mp h
      simp only [Bool.or_eq_true, decide_eq_true_eq] at h
      obtain ⟨⟨⟨hnil, hone⟩, htwo⟩, -⟩ := hparts part hpart
      rcases h with (h | h) | h
      · exact hnil h
      · exact hone h
      · exact htwo h
  unfold resolvePackagePath
  dsimp only
  rw [hslashes, if_neg hpass, if_neg (not_not_intro (List.prefix_append _ _))]

/-- Every failure of a file has the kind after which the loop goes on. -/
theorem hashFile_error {path : PathBuf} {e : Error} (h : hashFile crypto system path = .error e) :
    e.kind = .validation := by
  unfold hashFile at h
  cases hopen : system.openFile path with
  | error failure =>
    rw [hopen] at h
    obtain rfl := Except.error.inj h
    rfl
  | ok content =>
    rw [hopen] at h
    cases content with
    | error failure =>
      obtain rfl := Except.error.inj h
      rfl
    | ok bytes => cases h

/-- What the loop makes of its first file is decided by whether it has a hash. -/
theorem collectFiles_cons {root : PathBuf} {file : Rim2File} {rest : List Rim2File}
    (hsafe : safePath file.path = true) (files : List (Bytes × Bytes)) :
    collectFiles crypto system root (file :: rest) files =
      match hashFile crypto system (root ++ file.path.splitOn 0x2f) with
      | .ok hash =>
          collectFiles crypto system root rest (Java.putFile (lower file.path) (hex hash) files)
      | .error e =>
          if e.kind = .validation then collectFiles crypto system root rest files
          else .ok none := by
  rw [collectFiles, resolvePackagePath_safe hsafe]
  rfl

/-- The loop comes to its end, whatever happens to the files. -/
theorem collectFiles_some {root : PathBuf} {list : List Rim2File}
    (hsafe : ∀ file ∈ list, safePath file.path = true) (files : List (Bytes × Bytes)) :
    ∃ found, collectFiles crypto system root list files = .ok (some found) := by
  induction list generalizing files with
  | nil => exact ⟨files, rfl⟩
  | cons file rest ih =>
    obtain ⟨hfile, hrest⟩ := List.forall_mem_cons.mp hsafe
    rw [collectFiles_cons crypto system hfile]
    cases hhash : hashFile crypto system (root ++ file.path.splitOn 0x2f) with
    | ok hash => exact ih hrest _
    | error e =>
      dsimp only
      rw [if_pos (hashFile_error crypto system hhash)]
      exact ih hrest _

variable {check expected}

theorem parseAndVerify_fits {raw : Bytes} {m : Rim2}
    (h : parseAndVerify check expected raw = .ok m) : rim2Dialect.Fits m := by
  obtain ⟨read, hread, h⟩ := bind_eq_ok.mp h
  obtain ⟨app, -, h⟩ := bind_eq_ok.mp h
  obtain ⟨release, -, h⟩ := bind_eq_ok.mp h
  obtain ⟨-, h⟩ := guard_eq_ok.mp h
  obtain ⟨certified, -, h⟩ := bind_eq_ok.mp h
  obtain ⟨-, h⟩ := guard_eq_ok.mp h
  obtain ⟨signed, -, h⟩ := bind_eq_ok.mp h
  obtain ⟨-, h⟩ := guard_eq_ok.mp h
  obtain rfl := Except.ok.inj h
  exact (Dialect.read_eq_ok.mp hread).2

/-- The paths of a manifest that is kept are safe. -/
theorem KeptManifest.safe (k : KeptManifest check expected) :
    ∀ file ∈ k.manifest.body.files, safePath file.path = true := by
  obtain ⟨raw, hraw⟩ := k.parsed
  exact fun file hfile => ((parseAndVerify_fits hraw).body.files file hfile).2.path

/-- With a manifest loaded, the evidence has what the loop found. -/
theorem getEvidence_loaded {kept : Option (KeptManifest check expected)}
    {k : KeptManifest check expected} {root : PathBuf}
    (hprovider : options.evidenceProvider = none) (henabled : options.enabled = true)
    (hroot : packageRoot options system = .ok root)
    (hload : (loadManifest check crypto expected options system kept).1 = .ok k)
    {found : List (Bytes × Bytes)}
    (hfound : collectFiles crypto system root k.manifest.body.files [] = .ok (some found)) :
    (getEvidence check crypto expected options system kept).1 =
      .ok ⟨ascii "verified", [], some 2, k.manifestSha256, found⟩ := by
  unfold getEvidence
  rw [hprovider]
  dsimp only
  rw [if_neg (not_not_intro henabled), hload, hroot]
  dsimp only [bind, Except.bind]
  rw [hfound]

/-- With a manifest loaded, the evidence says verified. -/
theorem getEvidence_verified {kept : Option (KeptManifest check expected)}
    {k : KeptManifest check expected} {root : PathBuf}
    (hprovider : options.evidenceProvider = none) (henabled : options.enabled = true)
    (hroot : packageRoot options system = .ok root)
    (hload : (loadManifest check crypto expected options system kept).1 = .ok k) :
    ∃ evidence, (getEvidence check crypto expected options system kept).1 = .ok evidence ∧
      evidence.state = ascii "verified" := by
  obtain ⟨found, hfound⟩ := @collectFiles_some crypto system root _ k.safe []
  exact ⟨_, getEvidence_loaded crypto options system hprovider henabled hroot hload hfound, rfl⟩

/-- The file can be opened and read to its end. -/
def Readable (system : HostSystem) (path : PathBuf) : Prop :=
  ∃ bytes, system.openFile path = .ok (.ok bytes)

end Manager

/-- **The evidence hides every file that cannot be read.**  It keeps from saying verified for a
listed file that is there and cannot be opened or read only if there is no such file. -/
theorem verified_hidden_iff (check : SignatureCheck) (crypto : Crypto) (expected : Rim2Expected)
    {options : HostIntegrityOptions} {system : HostSystem}
    {kept : Option (KeptManifest check expected)} {k : KeptManifest check expected}
    {root : PathBuf} (hprovider : options.evidenceProvider = none)
    (henabled : options.enabled = true) (hroot : packageRoot options system = .ok root)
    (hload : (loadManifest check crypto expected options system kept).1 = .ok k)
    (present : PathBuf → Prop) :
    ((∃ file ∈ k.manifest.body.files, present (root ++ file.path.splitOn 0x2f) ∧
        ¬ Readable system (root ++ file.path.splitOn 0x2f)) →
      ¬ ∃ evidence, (getEvidence check crypto expected options system kept).1 = .ok evidence ∧
        evidence.state = ascii "verified") ↔
      ∀ file ∈ k.manifest.body.files, present (root ++ file.path.splitOn 0x2f) →
        Readable system (root ++ file.path.splitOn 0x2f) := by
  have hverified := getEvidence_verified crypto options system hprovider henabled hroot hload
  constructor
  · intro h file hfile hpresent
    by_contra hhidden
    exact h ⟨file, hfile, hpresent, hhidden⟩ hverified
  · rintro h ⟨file, hfile, hpresent, hhidden⟩
    exact absurd (h file hfile hpresent) hhidden

/-- The sample release, with its ids in the order that this parser looks for. -/
def mixedExpected : Rim2Expected :=
  { sampleExpected with
    appId := guidText (swapGuid sampleRim2.body.app)
    releaseId := guidText (swapGuid sampleRim2.body.release) }

theorem sampleRim2_mixed :
    parseAndVerify sampleRim2Crypto.signatureCheck mixedExpected sampleRim2.encode =
      .ok sampleRim2 := by
  decide +kernel

/-- The sample manifest, kept for a root. -/
def sampleKept : KeptManifest sampleRim2Crypto.signatureCheck mixedExpected :=
  ⟨sampleRim2, sampleRim2Crypto.sha256Hex sampleRim2.encode, [ascii "/", ascii "pkg"],
    sampleRim2.encode, sampleRim2_mixed⟩

def packageOptions : HostIntegrityOptions :=
  ⟨true, some [ascii "/", ascii "pkg"], ascii "release-integrity.v2", none⟩

/-- A system on which no file may be opened. -/
def lockedSystem : HostSystem where
  currentExe := .error ⟨ascii "unknown"⟩
  read _ := .error ⟨ascii "Permission denied"⟩
  openFile _ := .error ⟨ascii "Permission denied"⟩

/-- With the listed file locked, the evidence does not keep from saying verified. -/
theorem verified_hidden_locked :
    ¬ ((∃ file ∈ sampleRim2.body.files, True ∧
          ¬ Readable lockedSystem ([ascii "/", ascii "pkg"] ++ file.path.splitOn 0x2f)) →
        ¬ ∃ evidence, (getEvidence sampleRim2Crypto.signatureCheck sampleRim2Crypto mixedExpected
          packageOptions lockedSystem (some sampleKept)).1 = .ok evidence ∧
          evidence.state = ascii "verified") := by
  have hload : (loadManifest sampleRim2Crypto.signatureCheck sampleRim2Crypto mixedExpected
      packageOptions lockedSystem (some sampleKept)).1 = .ok sampleKept := rfl
  have hroot : packageRoot packageOptions lockedSystem = .ok [ascii "/", ascii "pkg"] := rfl
  have hiff := verified_hidden_iff sampleRim2Crypto.signatureCheck sampleRim2Crypto mixedExpected
    rfl rfl hroot hload fun _ => True
  intro h
  obtain ⟨bytes, hbytes⟩ :=
    hiff.mp h ⟨ascii "app.exe", 3, appDigest⟩ (List.mem_cons_self ..) trivial
  cases hbytes

/-- `app.exe` is there and may not be opened, and the evidence says verified, with no files. -/
theorem locked_hidden :
    (∃ file ∈ sampleRim2.body.files, file.path = ascii "app.exe" ∧
      ¬ Readable lockedSystem ([ascii "/", ascii "pkg"] ++ file.path.splitOn 0x2f)) ∧
    (getEvidence sampleRim2Crypto.signatureCheck sampleRim2Crypto mixedExpected packageOptions
        lockedSystem (some sampleKept)).1 =
      .ok ⟨ascii "verified", [], some 2, sampleKept.manifestSha256, []⟩ := by
  refine ⟨⟨_, List.mem_cons_self .., rfl, ?_⟩, by decide⟩
  rintro ⟨bytes, hbytes⟩
  cases hbytes

end Rust
end SwmSdk
