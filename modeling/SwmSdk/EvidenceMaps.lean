import SwmSdk.HostIntegrityPorts
import SwmSdk.KeyedMap
import SwmSdk.PackagePaths

/-! # The files that evidence reports

The C++, the Go and the Rust client report the files of one manifest on one file tree.  C++
reports a file under its path as listed, the others under the path in lower case; and Go looks
for the file without the white space around its path.  So the three report the same map exactly
if each listed file that is there is listed in lower case and is what Go finds in its place
(`evidenceMaps_agree_iff`).
-/
namespace SwmSdk
open ByteText ByteCodec Outcome KeyedMap

/-- What is found at a path: no file, one that can be read, or one that cannot. -/
inductive Entry where
  | absent
  | file (bytes : Bytes)
  | locked
  deriving DecidableEq, Repr

/-- What is found at every path below the root of the package. -/
abbrev FileTree := Bytes → Entry

/-- The digest that is reported of a file. -/
def Entry.digest (crypto : Crypto) : Entry → Option Bytes
  | .file bytes => some (hex (crypto.sha256 bytes))
  | _ => none

theorem Entry.digest_eq_none {crypto : Crypto} {entry : Entry} (h : entry ≠ .locked) :
    entry.digest crypto = none ↔ entry = .absent := by
  cases entry with
  | absent => exact iff_of_true rfl rfl
  | file bytes => exact iff_of_false (Option.some_ne_none _) (by simp)
  | locked => exact absurd rfl h

theorem overwrites_insertFile : Overwrites Cpp.insertFile := by
  intro k v map key
  induction map with
  | nil => exact lookup_entry k v [] key
  | cons entry rest ih =>
    obtain ⟨p, d⟩ := entry
    rw [Cpp.insertFile]
    split
    · rename_i hp
      subst hp
      exact lookup_replaced k v d rest key
    · rename_i hp
      split
      · exact lookup_entry k v _ key
      · exact lookup_passed hp ih d

theorem overwrites_putFile : Overwrites Java.putFile := by
  intro k v map key
  induction map with
  | nil => exact lookup_entry k v [] key
  | cons entry rest ih =>
    obtain ⟨p, d⟩ := entry
    rw [Java.putFile]
    split
    · rename_i hp
      subst hp
      exact lookup_replaced k v d rest key
    · rename_i hp
      exact lookup_passed hp ih d

/-! ## C++ -/

namespace Cpp
variable {crypto : Crypto} {options : ClientOptions} {system : HostSystem}
  {host : HostState crypto options} {files : List Rim2File} {tree : FileTree}

/-- What is found at a full path. -/
def found (system : HostSystem) (full : List UInt16) : Entry :=
  match system.existsFile full, system.content full with
  | .ok false, _ => .absent
  | .ok true, some bytes => .file bytes
  | _, _ => .locked

/-- The manager has a manifest with the files, joins their paths, and finds the tree there. -/
structure Views (system : HostSystem) (host : HostState crypto options) (files : List Rim2File)
    (tree : FileTree) : Prop where
  provider : options.hostIntegrity.evidenceProvider = none
  enabled : options.hostIntegrity.enabled = true
  loaded : ∃ manifest, (loadManifest system host).1 = .ok manifest ∧ manifest.files = files
  shown : ∃ root, packageRoot options system = .ok root ∧ ∀ file ∈ files, ∃ full,
    safeJoin system root file.path = .ok full ∧ found system full = tree file.path

theorem collectFiles_views {root : List UInt16} {list : List Rim2File}
    (hroot : packageRoot options system = .ok root)
    (hshown : ∀ file ∈ list, ∃ full,
      safeJoin system root file.path = .ok full ∧ found system full = tree file.path)
    (hlisted : ∀ file ∈ list, tree file.path ≠ .locked) (map : List (Bytes × Bytes)) :
    collectFiles crypto options system list map = .ok (some (putAll insertFile
      (entriesOf Rim2File.path (fun file => (tree file.path).digest crypto) list) map)) := by
  induction list generalizing map with
  | nil => rfl
  | cons file rest ih =>
    obtain ⟨⟨full, hjoin, hfound⟩, hrest⟩ := List.forall_mem_cons.mp hshown
    obtain ⟨hfile, hothers⟩ := List.forall_mem_cons.mp hlisted
    have hrun := ih hrest hothers
    rw [collectFiles_joined hroot hjoin, entriesOf, List.filterMap_cons]
    unfold found at hfound
    split at hfound
    · rename_i hexists
      rw [hexists, ← hfound]
      exact hrun map
    · rename_i bytes hexists hcontent
      rw [hexists, ← hfound]
      simp only [hashFile, hcontent, Except.bind, Entry.digest, Option.map_some]
      exact hrun _
    · exact absurd hfound.symm hfile

/-- The map of the C++ client. -/
theorem evidence_views (h : Views system host files tree)
    (hlisted : ∀ file ∈ files, tree file.path ≠ .locked) :
    ∃ manifestSha256, (evidence system host).1 = .ok (some ⟨ascii "verified", [], some 2,
      manifestSha256, putAll insertFile
        (entriesOf Rim2File.path (fun file => (tree file.path).digest crypto) files) []⟩) := by
  obtain ⟨manifest, hmanifest, rfl⟩ := h.loaded
  obtain ⟨root, hroot, hshown⟩ := h.shown
  refine ⟨manifest.manifestSha256, ?_⟩
  unfold evidence
  rw [h.provider]
  dsimp only
  rw [if_neg (not_not_intro h.enabled)]
  unfold manifestEvidence
  dsimp only
  rw [hmanifest]
  dsimp only [bind, Except.bind]
  rw [collectFiles_views hroot hshown hlisted]
  rfl

/-- The paths of a manifest that is accepted differ in more than case, and are safe. -/
theorem Views.accepted (h : Views system host files tree) :
    (files.map fun file => lower file.path).Nodup ∧
      ∀ file ∈ files, safePath file.path = true := by
  obtain ⟨manifest, hmanifest, rfl⟩ := h.loaded
  obtain ⟨raw, hraw⟩ := loadManifest_parsed system hmanifest
  obtain ⟨m, -, hm, rfl⟩ := parseRim2_eq_ok.mp hraw
  exact ⟨hm.wellFormed.body.distinct, fun file hfile =>
    (hm.wellFormed.body.files file hfile).2.path⟩

end Cpp

/-! ## Go -/

namespace Go
variable {casing : Casing} {check : SignatureCheck} {crypto : Crypto} {expected : Rim2Expected}
  {options : HostIntegrityOptions} {system : HostSystem}
  {kept : Option (KeptManifest casing check expected)} {files : List Rim2File} {tree : FileTree}

/-- What is found by opening a path and reading what is there. -/
def found (system : HostSystem) (path : Bytes) : Entry :=
  match system.openFile path with
  | .ok (.ok bytes) => .file bytes
  | .error .notExist => .absent
  | .ok (.error .notExist) => .absent
  | _ => .locked

/-- The manager has a manifest with the files, resolves their paths, and finds the tree there. -/
structure Views (casing : Casing) (check : SignatureCheck) (crypto : Crypto)
    (expected : Rim2Expected) (options : HostIntegrityOptions) (system : HostSystem)
    (kept : Option (KeptManifest casing check expected)) (files : List Rim2File)
    (tree : FileTree) : Prop where
  provider : options.evidenceProvider = none
  enabled : options.enabled = true
  loaded : ∃ k, (loadManifest casing check crypto expected options system kept).1 = .ok k ∧
    k.manifest.body.files = files
  shown : ∃ root base, packageRoot options system = .ok root ∧ system.abs root = .ok base ∧
    (∀ file ∈ files, ∃ full, resolvePackagePath system root file.path = .ok full) ∧
    ∀ path, 0x5c ∉ path → found system (system.join base
      (path.map fun b => if b = 0x2f then system.separator else b)) = tree path

/-- A path is resolved without the white space around it. -/
theorem resolvePackagePath_trimmed {root base path full : Bytes} (hback : 0x5c ∉ path)
    (hbase : system.abs root = .ok base) (h : resolvePackagePath system root path = .ok full) :
    full = system.join base
      ((trimSpace path).map fun b => if b = 0x2f then system.separator else b) := by
  have hslashes : (path.map fun b => if b = 0x5c then 0x2f else b) = path := by
    refine (List.map_congr_left fun b hb => if_neg ?_).trans (List.map_id path)
    rintro rfl
    exact hback hb
  obtain ⟨normalized, hnormalized, h⟩ := bind_eq_ok.mp h
  obtain ⟨absolute, habsolute, h⟩ := bind_eq_ok.mp h
  rw [hbase] at habsolute
  obtain rfl := Except.ok.inj habsolute
  obtain rfl : trimSpace path = normalized := by
    unfold safeRelativePath at hnormalized
    dsimp only at hnormalized
    rw [hslashes] at hnormalized
    split at hnormalized
    · cases hnormalized
    · split at hnormalized
      · cases hnormalized
      · exact Except.ok.inj hnormalized
  dsimp only at h
  split at h
  · cases h
  · split at h
    · cases h
    · exact (Except.ok.inj h).symm

/-- The entries of the map of Go. -/
def entries (casing : Casing) (crypto : Crypto) (tree : FileTree) (files : List Rim2File) :
    List (Bytes × Bytes) :=
  entriesOf (fun file => casing.toLower file.path)
    (fun file => (tree (trimSpace file.path)).digest crypto) files

theorem entries_ascii (hascii : ∀ file ∈ files, ∀ b ∈ file.path, b < 0x80) :
    entries casing crypto tree files = entriesOf (fun file => lower file.path)
      (fun file => (tree (trimSpace file.path)).digest crypto) files := by
  refine List.filterMap_congr fun file hfile => ?_
  dsimp only
  rw [casing.toLower_ascii _ (hascii file hfile)]

section Loop
variable {root base : Bytes} {list : List Rim2File}
  (hbase : system.abs root = .ok base)
  (hview : ∀ path, 0x5c ∉ path → found system (system.join base
    (path.map fun b => if b = 0x2f then system.separator else b)) = tree path)
include hbase hview

/-- What the loop makes of its first file is decided by what the tree has for it. -/
theorem collectFiles_cons {file : Rim2File} {rest : List Rim2File} (hback : 0x5c ∉ file.path)
    (hresolved : ∃ full, resolvePackagePath system root file.path = .ok full)
    (map : List (Bytes × Bytes)) :
    collectFiles casing crypto system root (file :: rest) map =
      match tree (trimSpace file.path) with
      | .absent => collectFiles casing crypto system root rest map
      | .locked => .error (ascii "host_file_io_failed")
      | .file bytes => collectFiles casing crypto system root rest
          (Java.putFile (casing.toLower file.path) (hex (crypto.sha256 bytes)) map) := by
  obtain ⟨full, hfull⟩ := hresolved
  have htrimmed : 0x5c ∉ trimSpace file.path := fun h => hback (mem_trimSpace h)
  have hfound := hview _ htrimmed
  rw [← resolvePackagePath_trimmed hback hbase hfull] at hfound
  rw [collectFiles, hfull, ← hfound]
  dsimp only
  unfold found hashFile
  cases system.openFile full with
  | error e => cases e <;> rfl
  | ok content =>
    cases content with
    | error e => cases e <;> rfl
    | ok bytes => rfl

theorem collectFiles_views (hback : ∀ file ∈ list, 0x5c ∉ file.path)
    (hresolved : ∀ file ∈ list, ∃ full, resolvePackagePath system root file.path = .ok full)
    (hopen : ∀ file ∈ list, tree (trimSpace file.path) ≠ .locked) (map : List (Bytes × Bytes)) :
    collectFiles casing crypto system root list map =
      .ok (putAll Java.putFile (entries casing crypto tree list) map) := by
  induction list generalizing map with
  | nil => rfl
  | cons file rest ih =>
    obtain ⟨hfile, hrest⟩ := List.forall_mem_cons.mp hopen
    obtain ⟨hfull, hothers⟩ := List.forall_mem_cons.mp hresolved
    obtain ⟨hslash, hslashes⟩ := List.forall_mem_cons.mp hback
    have hrun := ih hslashes hothers hrest
    rw [collectFiles_cons hbase hview hslash hfull, entries, entriesOf, List.filterMap_cons]
    cases htree : tree (trimSpace file.path) with
    | absent => exact hrun map
    | locked => exact absurd htree hfile
    | file bytes => exact hrun _

/-- The loop fails at a file that cannot be read in the place of a listed one. -/
theorem collectFiles_locked (hback : ∀ file ∈ list, 0x5c ∉ file.path)
    (hresolved : ∀ file ∈ list, ∃ full, resolvePackagePath system root file.path = .ok full)
    (hlocked : ∃ file ∈ list, tree (trimSpace file.path) = .locked) (map : List (Bytes × Bytes)) :
    collectFiles casing crypto system root list map = .error (ascii "host_file_io_failed") := by
  induction list generalizing map with
  | nil =>
    obtain ⟨_, hfile, -⟩ := hlocked
    cases hfile
  | cons file rest ih =>
    obtain ⟨hfull, hothers⟩ := List.forall_mem_cons.mp hresolved
    obtain ⟨hslash, hslashes⟩ := List.forall_mem_cons.mp hback
    have hlater (h : tree (trimSpace file.path) ≠ .locked) (map : List (Bytes × Bytes)) :
        collectFiles casing crypto system root rest map =
          .error (ascii "host_file_io_failed") := by
      obtain ⟨other, hother, hentry⟩ := hlocked
      rcases List.mem_cons.mp hother with rfl | hother
      · exact absurd hentry h
      · exact ih hslashes hothers ⟨other, hother, hentry⟩ map
    rw [collectFiles_cons hbase hview hslash hfull]
    cases htree : tree (trimSpace file.path) with
    | absent => exact hlater (by rw [htree]; simp) map
    | locked => rfl
    | file bytes => exact hlater (by rw [htree]; simp) _

end Loop

/-- The map of the Go client, which fails if it cannot read a file. -/
theorem getEvidence_views (hback : ∀ file ∈ files, 0x5c ∉ file.path)
    (h : Views casing check crypto expected options system kept files tree) :
    ((∀ file ∈ files, tree (trimSpace file.path) ≠ .locked) → ∃ manifestSha256,
      (getEvidence casing check crypto expected options system kept).1 =
        .ok ⟨ascii "verified", [], some 2, manifestSha256,
          putAll Java.putFile (entries casing crypto tree files) []⟩) ∧
    ((∃ file ∈ files, tree (trimSpace file.path) = .locked) →
      (getEvidence casing check crypto expected options system kept).1 =
        .ok (.failed (ascii "host_file_io_failed"))) := by
  obtain ⟨k, hload, rfl⟩ := h.loaded
  obtain ⟨root, base, hroot, hbase, hresolved, hview⟩ := h.shown
  unfold getEvidence
  rw [h.provider]
  dsimp only
  rw [if_neg (not_not_intro h.enabled), hload, hroot]
  dsimp only
  constructor
  · intro hopen
    rw [collectFiles_views hbase hview hback hresolved hopen]
    exact ⟨_, rfl⟩
  · intro hlocked
    rw [collectFiles_locked hbase hview hback hresolved hlocked]

end Go

/-! ## Rust -/

namespace Rust
variable {check : SignatureCheck} {crypto : Crypto} {expected : Rim2Expected}
  {options : HostIntegrityOptions} {system : HostSystem}
  {kept : Option (KeptManifest check expected)} {files : List Rim2File} {tree : FileTree}

/-- A path is found as the entry; errors do not tell whether there is a file. -/
def Found (system : HostSystem) (path : PathBuf) : Entry → Prop
  | .absent => ∃ e, system.openFile path = .error e
  | .file bytes => system.openFile path = .ok (.ok bytes)
  | .locked => ∃ e, system.openFile path = .error e ∨ system.openFile path = .ok (.error e)

/-- The manager has a manifest with the files, and finds the tree at their paths. -/
structure Views (check : SignatureCheck) (crypto : Crypto) (expected : Rim2Expected)
    (options : HostIntegrityOptions) (system : HostSystem)
    (kept : Option (KeptManifest check expected)) (files : List Rim2File) (tree : FileTree) :
    Prop where
  provider : options.evidenceProvider = none
  enabled : options.enabled = true
  loaded : ∃ k, (loadManifest check crypto expected options system kept).1 = .ok k ∧
    k.manifest.body.files = files
  shown : ∃ root, packageRoot options system = .ok root ∧
    ∀ file ∈ files, Found system (root ++ file.path.splitOn 0x2f) (tree file.path)

theorem collectFiles_views {root : PathBuf} {list : List Rim2File}
    (hsafe : ∀ file ∈ list, safePath file.path = true)
    (hfound : ∀ file ∈ list, Found system (root ++ file.path.splitOn 0x2f) (tree file.path))
    (hlisted : ∀ file ∈ list, tree file.path ≠ .locked) (map : List (Bytes × Bytes)) :
    collectFiles crypto system root list map = .ok (some (putAll Java.putFile
      (entriesOf (fun file => lower file.path) (fun file => (tree file.path).digest crypto) list)
      map)) := by
  induction list generalizing map with
  | nil => rfl
  | cons file rest ih =>
    obtain ⟨hfile, hfiles⟩ := List.forall_mem_cons.mp hsafe
    obtain ⟨hentry, hentries⟩ := List.forall_mem_cons.mp hfound
    obtain ⟨hopen, hothers⟩ := List.forall_mem_cons.mp hlisted
    have hrun := ih hfiles hentries hothers
    rw [collectFiles_cons crypto system hfile, entriesOf, List.filterMap_cons]
    cases htree : tree file.path with
    | absent =>
      rw [htree] at hentry
      obtain ⟨e, he⟩ := hentry
      simp only [hashFile, he]
      exact hrun map
    | locked => exact absurd htree hopen
    | file bytes =>
      rw [htree] at hentry
      have hbytes : system.openFile (root ++ file.path.splitOn 0x2f) = .ok (.ok bytes) := hentry
      simp only [hashFile, hbytes]
      exact hrun _

/-- The map of the Rust client. -/
theorem getEvidence_views (h : Views check crypto expected options system kept files tree)
    (hlisted : ∀ file ∈ files, tree file.path ≠ .locked) :
    ∃ manifestSha256, (getEvidence check crypto expected options system kept).1 =
      .ok ⟨ascii "verified", [], some 2, manifestSha256, putAll Java.putFile
        (entriesOf (fun file => lower file.path) (fun file => (tree file.path).digest crypto)
          files) []⟩ := by
  obtain ⟨k, hload, rfl⟩ := h.loaded
  obtain ⟨root, hroot, hfound⟩ := h.shown
  exact ⟨k.manifestSha256, getEvidence_loaded crypto options system h.provider h.enabled hroot
    hload (collectFiles_views k.safe hfound hlisted [])⟩

end Rust

/-! ## The three maps -/

/-- Two evidences report the same map. -/
def SameMap (first second : IntegrityEvidence) : Prop :=
  first.state = ascii "verified" ∧ second.state = ascii "verified" ∧ Same first.files second.files

theorem lower_lower (text : Bytes) : lower (lower text) = lower text := by
  rw [lower, lower, List.map_map]
  refine List.map_congr_left fun b _ => ?_
  unfold Function.comp lowerByte
  by_cases hb : 65 ≤ b ∧ b ≤ 90
  · rw [if_pos hb, if_neg]
    rintro ⟨-, hhigh⟩
    simp only [UInt8.le_iff_toNat_le, UInt8.toNat_add] at hb hhigh
    simp at hb hhigh
    omega
  · rw [if_neg hb, if_neg hb]

/-- **The maps of the three clients are the same** exactly if every listed file that is there is
listed in lower case, and Go finds the same in the place of each file, without the white space
around its path. -/
theorem evidenceMaps_agree_iff {crypto : Crypto} {clientOptions : Cpp.ClientOptions}
    {wideSystem : Cpp.HostSystem} {host : Cpp.HostState crypto clientOptions} {casing : Go.Casing}
    {goCheck : SignatureCheck} {goExpected : Rim2Expected} {goOptions : Go.HostIntegrityOptions}
    {goSystem : Go.HostSystem} {goKept : Option (Go.KeptManifest casing goCheck goExpected)}
    {rustCheck : SignatureCheck} {rustExpected : Rim2Expected}
    {rustOptions : Rust.HostIntegrityOptions} {rustSystem : Rust.HostSystem}
    {rustKept : Option (Rust.KeptManifest rustCheck rustExpected)} {files : List Rim2File}
    {tree : FileTree} (hcpp : Cpp.Views wideSystem host files tree)
    (hgo : Go.Views casing goCheck crypto goExpected goOptions goSystem goKept files tree)
    (hrust : Rust.Views rustCheck crypto rustExpected rustOptions rustSystem rustKept files tree)
    (hascii : ∀ file ∈ files, ∀ b ∈ file.path, b < 0x80)
    (hlisted : ∀ file ∈ files, tree file.path ≠ .locked) :
    (∃ cpp go rust, (Cpp.evidence wideSystem host).1 = .ok (some cpp) ∧
      (Go.getEvidence casing goCheck crypto goExpected goOptions goSystem goKept).1 = .ok go ∧
      (Rust.getEvidence rustCheck crypto rustExpected rustOptions rustSystem rustKept).1 =
        .ok rust ∧ SameMap cpp go ∧ SameMap cpp rust) ↔
      ∀ file ∈ files, (tree file.path ≠ .absent → lower file.path = file.path) ∧
        tree (Go.trimSpace file.path) ≠ .locked ∧
        (tree (Go.trimSpace file.path)).digest crypto = (tree file.path).digest crypto := by
  obtain ⟨cppSha256, hcppMap⟩ := Cpp.evidence_views hcpp hlisted
  obtain ⟨rustSha256, hrustMap⟩ := Rust.getEvidence_views hrust hlisted
  obtain ⟨hdistinct, hsafe⟩ := hcpp.accepted
  obtain ⟨hopen, hlocked⟩ := Go.getEvidence_views
    (fun file hfile => (Cpp.safePath_parts (hsafe file hfile)).2.2.1) hgo
  rw [Go.entries_ascii hascii] at hopen
  have hagree := fun value => same_putAll_iff overwrites_insertFile overwrites_putFile lower_lower
    hdistinct (fun file => (tree file.path).digest crypto) value
  constructor
  · rintro ⟨cpp, go, rust, hc, hg, -, ⟨-, hverified, hsame⟩, -⟩ file hfile
    obtain rfl := Option.some.inj (Except.ok.inj (hcppMap.symm.trans hc))
    have hread : ∀ file ∈ files, tree (Go.trimSpace file.path) ≠ .locked := by
      intro file hfile hentry
      obtain rfl := Except.ok.inj ((hlocked ⟨file, hfile, hentry⟩).symm.trans hg)
      exact absurd hverified (by decide)
    obtain ⟨goSha256, hgoMap⟩ := hopen hread
    obtain rfl := Except.ok.inj (hgoMap.symm.trans hg)
    obtain ⟨hdigest, hname⟩ := (hagree _).mp hsame file hfile
    exact ⟨fun hthere => hname ((Entry.digest_eq_none (hlisted file hfile)).not.mpr hthere),
      hread file hfile, hdigest.symm⟩
  · intro h
    obtain ⟨goSha256, hgoMap⟩ := hopen fun file hfile => (h file hfile).2.1
    have hname : ∀ file ∈ files, (tree file.path).digest crypto ≠ none →
        lower file.path = file.path := fun file hfile hdigest =>
      (h file hfile).1 ((Entry.digest_eq_none (hlisted file hfile)).not.mp hdigest)
    exact ⟨_, _, _, hcppMap, hgoMap, hrustMap,
      ⟨rfl, rfl, (hagree _).mpr fun file hfile => ⟨(h file hfile).2.2.symm, hname file hfile⟩⟩,
      ⟨rfl, rfl, (hagree _).mpr fun file hfile => ⟨rfl, hname file hfile⟩⟩⟩

/-! ## A name with a capital letter -/

/-- A signed manifest of two files, with ids that read the same in any order of their bytes. -/
def namedRim2 : Rim2 where
  body := { sampleRim2.body with
    app := List.replicate 16 0x11
    release := List.replicate 16 0x22
    files := [⟨ascii "App.exe", 3, appDigest⟩, ⟨ascii "lib/a.dll", 3, appDigest⟩] }
  trailer := { sampleRim2.trailer with
    rootSignature :=
     [0x87, 0xae, 0x98, 0xe6, 0xe2, 0xde, 0xb7, 0x50, 0xf1, 0xa2, 0x83, 0x5c, 0x48, 0xd2, 0xbb, 0x96,
     0x6d, 0x59, 0x62, 0x30, 0xf7, 0x4f, 0xe6, 0xc4, 0x6a, 0xed, 0x84, 0xff, 0x0d, 0x55, 0x5d, 0xf6,
     0xdd, 0xb5, 0x8c, 0x16, 0xc9, 0xe8, 0x52, 0x44, 0x0b, 0x5c, 0x97, 0xc8, 0x85, 0xdd, 0x08, 0x93,
     0x0f, 0x45, 0x56, 0x27, 0x8d, 0x24, 0xf4, 0x42, 0xf9, 0x91, 0xa8, 0xa9, 0xef, 0xb7, 0xe2, 0x02]
    manifestSignature :=
     [0xa1, 0xee, 0x9a, 0x65, 0x4f, 0x88, 0xf7, 0x4a, 0xe7, 0x63, 0x6c, 0xd2, 0x45, 0x6d, 0xf0, 0x24,
     0x0a, 0x82, 0x1d, 0xfa, 0x64, 0xcd, 0xb0, 0x8b, 0x4a, 0x91, 0x22, 0xe2, 0x0e, 0x18, 0x06, 0x7f,
     0xf7, 0x12, 0xe0, 0xc6, 0xc0, 0x48, 0x50, 0x41, 0xde, 0x44, 0x52, 0xa9, 0x39, 0x8e, 0x87, 0xd7,
     0xec, 0x08, 0xf0, 0xbe, 0x56, 0xd8, 0x58, 0xab, 0x6d, 0x14, 0x9d, 0x4b, 0xa8, 0xf9, 0x58, 0x00] }

/-- The digests of the sample files, and the signatures of the sample manifest. -/
def namedCrypto : Crypto :=
  listedCrypto [(ascii "app", appDigest)] [
    (sampleRootKey, namedRim2.keyMessage, Base64Url.encode namedRim2.trailer.rootSignature),
    (Base64Url.encode namedRim2.trailer.signerPublic, namedRim2.manifestMessage,
      Base64Url.encode namedRim2.trailer.manifestSignature)]

/-- The options of the clients of that release. -/
def namedOptions : Cpp.ClientOptions :=
  { Cpp.packageOptions with
    appId := ascii "11111111-1111-1111-1111-111111111111"
    releaseId := ascii "22222222-2222-2222-2222-222222222222" }

abbrev namedExpected : Rim2Expected := Cpp.hostExpected namedOptions

theorem namedRim2_parsed :
    Cpp.parseRim2 namedCrypto namedExpected namedRim2.encode =
      .ok (Cpp.rim2Result namedCrypto namedRim2.encode namedRim2) := by
  refine Cpp.parseRim2_eq_ok.mpr ⟨namedRim2, rfl, ⟨⟨?_, ?_, by decide +kernel⟩, by decide,
    by decide, by decide⟩, rfl⟩
  · exact ⟨rfl, rfl, by decide, by decide, by decide, by decide, by decide, by
      intro file hfile
      rcases List.mem_pair.mp hfile with rfl | rfl
      · exact ⟨⟨by decide, by decide, by decide⟩, ⟨by decide, by decide, by decide⟩⟩
      · exact ⟨⟨by decide, by decide, by decide⟩, ⟨by decide, by decide, by decide⟩⟩, by decide⟩
  · exact ⟨by decide, by decide, rfl, rfl, rfl⟩

/-- The path below `C:\pkg` that a full path ends with. -/
def belowFolder (full : Bytes) : Bytes :=
  (full.drop 7).map fun b => if b = 0x5c then 0x2f else b

section Disk
variable (tree : FileTree)

/-- A disk with the tree in `C:\pkg`. -/
def wideDisk : Cpp.HostSystem :=
  { Cpp.emptyDisk with
    existsFile := fun full => .ok (tree (belowFolder (full.map UInt16.toUInt8)) ≠ .absent)
    content := fun full =>
      match tree (belowFolder (full.map UInt16.toUInt8)) with
      | .file bytes => some bytes
      | _ => none }

/-- The same disk, as Go has it. -/
def goDisk : Go.HostSystem where
  executable := .error .other
  dir path := path
  abs path := .ok path
  clean path := path
  join root path := root ++ 0x5c :: path
  rel root path := .ok (path.drop (root.length + 1))
  separator := 0x5c
  readFile _ := .error .notExist
  openFile full :=
    match tree (belowFolder full) with
    | .absent => .error .notExist
    | .file bytes => .ok (.ok bytes)
    | .locked => .error .permission

/-- The same disk, as Rust has it. -/
def rustDisk : Rust.HostSystem where
  currentExe := .error ⟨ascii "unknown"⟩
  read _ := .error ⟨ascii "not found"⟩
  openFile path :=
    match tree (List.intercalate [0x2f] (path.drop 2)) with
    | .absent => .error ⟨ascii "not found"⟩
    | .file bytes => .ok (.ok bytes)
    | .locked => .error ⟨ascii "Permission denied"⟩

end Disk

/-- The C++ manager after it read the manifest. -/
def wideHost : Cpp.HostState namedCrypto namedOptions where
  manifest := some (Cpp.rim2Result namedCrypto namedRim2.encode namedRim2)
  parsed m hm := by
    obtain rfl := Option.some.inj hm
    exact ⟨_, namedRim2_parsed⟩

def goOptions : Go.HostIntegrityOptions :=
  ⟨true, ascii "C:\\pkg", ascii "release-integrity.v2", none⟩

/-- The manifest as the Go SDK keeps it. -/
def goKept : Go.KeptManifest asciiCasing namedCrypto.signatureCheck namedExpected :=
  ⟨namedRim2, namedCrypto.sha256Hex namedRim2.encode, ascii "C:\\pkg", namedRim2.encode,
    by decide +kernel⟩

def rustOptions : Rust.HostIntegrityOptions :=
  ⟨true, some [ascii "C:\\", ascii "pkg"], ascii "release-integrity.v2", none⟩

/-- The manifest as the Rust SDK keeps it. -/
def rustKept : Rust.KeptManifest namedCrypto.signatureCheck namedExpected :=
  ⟨namedRim2, namedCrypto.sha256Hex namedRim2.encode, [ascii "C:\\", ascii "pkg"],
    namedRim2.encode, by decide +kernel⟩

theorem wideDisk_found (tree : FileTree) (full : List UInt16) :
    Cpp.found (wideDisk tree) full = tree (belowFolder (full.map UInt16.toUInt8)) := by
  unfold Cpp.found wideDisk
  dsimp only
  cases tree (belowFolder (full.map UInt16.toUInt8)) <;> rfl

theorem belowFolder_join {path : Bytes} (hback : 0x5c ∉ path) :
    belowFolder (ascii "C:\\pkg" ++ 0x5c :: path.map fun b => if b = 0x2f then 0x5c else b) =
      path := by
  have hfolder : ascii "C:\\pkg" = [0x43, 0x3a, 0x5c, 0x70, 0x6b, 0x67] := rfl
  have hdrop (rest : Bytes) : (ascii "C:\\pkg" ++ 0x5c :: rest).drop 7 = rest := by
    rw [hfolder]
    rfl
  rw [belowFolder, hdrop, List.map_map]
  refine (List.map_congr_left fun b hb => ?_).trans (List.map_id path)
  have hne : b ≠ 0x5c := by
    rintro rfl
    exact hback hb
  by_cases hslash : b = 0x2f
  · simp [hslash]
  · simp [hslash, hne]

theorem goDisk_found (tree : FileTree) {path : Bytes} (hback : 0x5c ∉ path) :
    Go.found (goDisk tree)
      (ascii "C:\\pkg" ++ 0x5c :: path.map fun b => if b = 0x2f then 0x5c else b) = tree path := by
  unfold Go.found goDisk
  dsimp only
  rw [belowFolder_join hback]
  cases tree path <;> rfl

theorem rustDisk_found (tree : FileTree) (drive folder path : Bytes) :
    Rust.Found (rustDisk tree) ([drive, folder] ++ path.splitOn 0x2f) (tree path) := by
  have hopen : (rustDisk tree).openFile ([drive, folder] ++ path.splitOn 0x2f) =
      match tree path with
      | .absent => .error ⟨ascii "not found"⟩
      | .file bytes => .ok (.ok bytes)
      | .locked => .error ⟨ascii "Permission denied"⟩ := by
    have hparts : ([drive, folder] ++ path.splitOn 0x2f).drop 2 = path.splitOn 0x2f := rfl
    unfold rustDisk
    dsimp only
    rw [hparts, List.intercalate_splitOn]
  cases htree : tree path with
  | absent => exact ⟨_, by rw [hopen, htree]⟩
  | file bytes =>
    rw [Rust.Found, hopen, htree]
  | locked => exact ⟨_, .inl (by rw [hopen, htree])⟩

/-- The disk shows its tree to the three clients. -/
theorem disk_views (tree : FileTree) :
    Cpp.Views (wideDisk tree) wideHost namedRim2.body.files tree ∧
      Go.Views asciiCasing namedCrypto.signatureCheck namedCrypto namedExpected goOptions
        (goDisk tree) (some goKept) namedRim2.body.files tree ∧
      Rust.Views namedCrypto.signatureCheck namedCrypto namedExpected rustOptions
        (rustDisk tree) (some rustKept) namedRim2.body.files tree := by
  refine ⟨⟨rfl, rfl, ⟨_, rfl, rfl⟩, Cpp.packageFolder, by rfl, ?_⟩,
    ⟨rfl, rfl, ⟨_, rfl, rfl⟩, _, _, rfl, rfl, ?_, fun path hback => goDisk_found tree hback⟩,
    ⟨rfl, rfl, ⟨_, rfl, rfl⟩, _, rfl, fun file _ => rustDisk_found tree _ _ file.path⟩⟩
  · intro file hfile
    have hjoin : Cpp.safeJoin (wideDisk tree) Cpp.packageFolder file.path =
        Cpp.safeJoin Cpp.emptyDisk Cpp.packageFolder file.path := rfl
    simp only [hjoin, wideDisk_found]
    rcases List.mem_pair.mp hfile with rfl | rfl
    · exact ⟨_, rfl, congrArg tree (by decide)⟩
    · exact ⟨_, rfl, congrArg tree (by decide)⟩
  · intro file hfile
    rcases List.mem_pair.mp hfile with rfl | rfl
    · exact ⟨_, rfl⟩
    · exact ⟨_, rfl⟩

theorem namedRim2_ascii : ∀ file ∈ namedRim2.body.files, ∀ b ∈ file.path, b < 0x80 := by
  intro file hfile
  rcases List.mem_pair.mp hfile with rfl | rfl
  · exact ascii_of_all (by decide)
  · exact ascii_of_all (by decide)

/-- Without the file that has a capital letter, the three maps are the same. -/
theorem evidenceMaps_agree_absent :
    ∃ cpp go rust,
      (Cpp.evidence (wideDisk fun path => if path = ascii "App.exe" then .absent
        else .file (ascii "app")) wideHost).1 = .ok (some cpp) ∧
      (Go.getEvidence asciiCasing namedCrypto.signatureCheck namedCrypto namedExpected goOptions
        (goDisk fun path => if path = ascii "App.exe" then .absent else .file (ascii "app"))
        (some goKept)).1 = .ok go ∧
      (Rust.getEvidence namedCrypto.signatureCheck namedCrypto namedExpected rustOptions
        (rustDisk fun path => if path = ascii "App.exe" then .absent else .file (ascii "app"))
        (some rustKept)).1 = .ok rust ∧ SameMap cpp go ∧ SameMap cpp rust := by
  obtain ⟨hcpp, hgo, hrust⟩ := disk_views fun path =>
    if path = ascii "App.exe" then .absent else .file (ascii "app")
  refine (evidenceMaps_agree_iff hcpp hgo hrust namedRim2_ascii ?_).mpr ?_
  · decide
  · decide

/-- With it, C++ reports it under another name than Go and Rust. -/
theorem capital_apart :
    (Cpp.Views (wideDisk fun _ => .file (ascii "app")) wideHost namedRim2.body.files
        (fun _ => .file (ascii "app")) ∧
      Go.Views asciiCasing namedCrypto.signatureCheck namedCrypto namedExpected goOptions
        (goDisk fun _ => .file (ascii "app")) (some goKept) namedRim2.body.files
        (fun _ => .file (ascii "app")) ∧
      Rust.Views namedCrypto.signatureCheck namedCrypto namedExpected rustOptions
        (rustDisk fun _ => .file (ascii "app")) (some rustKept) namedRim2.body.files
        (fun _ => .file (ascii "app"))) ∧
    (∀ file ∈ namedRim2.body.files, ∀ b ∈ file.path, b < 0x80) ∧
    (Cpp.evidence (wideDisk fun _ => .file (ascii "app")) wideHost).1 =
      .ok (some ⟨ascii "verified", [], some 2, namedCrypto.sha256Hex namedRim2.encode,
        [(ascii "App.exe", hex appDigest), (ascii "lib/a.dll", hex appDigest)]⟩) ∧
    (Go.getEvidence asciiCasing namedCrypto.signatureCheck namedCrypto namedExpected goOptions
        (goDisk fun _ => .file (ascii "app")) (some goKept)).1 =
      .ok ⟨ascii "verified", [], some 2, namedCrypto.sha256Hex namedRim2.encode,
        [(ascii "app.exe", hex appDigest), (ascii "lib/a.dll", hex appDigest)]⟩ ∧
    (Rust.getEvidence namedCrypto.signatureCheck namedCrypto namedExpected rustOptions
        (rustDisk fun _ => .file (ascii "app")) (some rustKept)).1 =
      .ok ⟨ascii "verified", [], some 2, namedCrypto.sha256Hex namedRim2.encode,
        [(ascii "app.exe", hex appDigest), (ascii "lib/a.dll", hex appDigest)]⟩ ∧
    ¬ Same [(ascii "App.exe", hex appDigest), (ascii "lib/a.dll", hex appDigest)]
      [(ascii "app.exe", hex appDigest), (ascii "lib/a.dll", hex appDigest)] := by
  refine ⟨disk_views _, namedRim2_ascii, by decide, by decide, by decide,
    fun h => ?_⟩
  exact absurd (h (ascii "App.exe")) (by decide)

end SwmSdk
