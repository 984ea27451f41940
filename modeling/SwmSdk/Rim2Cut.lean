import SwmSdk.Rim2Ports

/-! # Manifests that are cut short

Where a parser of RIM2 reads past the end of a manifest without its test for truncation:
at the UUIDs and the two marks of the body, at the hash of a file, and at the key and the
signatures of the trailer.  A dialect reports these with errors of its own; the texts on which
it comes to one of them are exactly the ones that end there (`Dialect.CutShort`), everything
before being as it should.

In C# these errors are exceptions of the runtime (`CSharp.fails_parseAndVerify`).
-/
namespace SwmSdk
open ByteText ByteCodec Outcome

namespace Dialect
variable {ε κ : Type} (d : Dialect ε κ)

/-- The errors of the reads that are not tested are of one kind, and all others are not. -/
structure Untested (p : ε → Prop) : Prop where
  ids : p d.idsTruncated
  marks : p d.marksTruncated
  hash : p d.hashTruncated
  trailer : p d.trailerTruncated
  tested : ¬ p d.sizeInvalid ∧ ¬ p d.magicInvalid ∧ ¬ p d.headerInvalid ∧ ¬ p d.truncated ∧
    ¬ p d.notUtf8 ∧ ¬ p d.versionInvalid ∧ ¬ p d.countInvalid ∧ ¬ p d.unsafeFile ∧
    ¬ p d.duplicateFile ∧ ¬ p d.bodyTrailing ∧ ¬ p d.keyIdInvalid ∧ ¬ p d.trailerInvalid

/-- An entry that ends in its hash. -/
def CutFile (data : Bytes) : Prop :=
  ∃ path size rest, data = frame 2 path ++ (bigEndian 8 size ++ rest) ∧
    (path.length < 256 ^ 2 ∧ validUtf8 path = true) ∧ size < 256 ^ 8 ∧ rest.length < 32

/-- The fields of a body up to an entry that is cut, with the entries before it. -/
structure CutEntries (body : Rim2Body) (count : Nat) (rest : Bytes) : Prop where
  app : body.app.length = 16
  release : body.release.length = 16
  versionCode : body.versionCode < 256 ^ 8
  platform : body.platform < 256 ^ 1
  arch : body.arch < 256 ^ 1
  version : d.TextFits 2 100 body.version
  count : body.files.length < count ∧ count ≤ 255
  files : ∀ file ∈ body.files, FileFits file ∧ d.FileValid file
  distinct : (body.files.map fun file => d.key file.path).Nodup
  rest : CutFile rest

/-- A body that ends in a UUID, in the marks or in the hash of a file. -/
def CutBody (data : Bytes) : Prop :=
  data.length < 32 ∨ (40 ≤ data.length ∧ data.length < 42) ∨
    ∃ (body : Rim2Body) (count : Nat) (rest : Bytes),
      data = body.app ++ (body.release ++ (bigEndian 8 body.versionCode ++
        (bigEndian 1 body.platform ++ (bigEndian 1 body.arch ++ (frame 2 body.version ++
          (bigEndian 2 count ++ (body.files.flatMap Rim2File.encode ++ rest))))))) ∧
      d.CutEntries body count rest

/-- A trailer that ends in the key or the signatures. -/
def CutTrailer (data : Bytes) : Prop :=
  ∃ rootKeyId signerKeyId rest, data = frame 1 rootKeyId ++ (frame 1 signerKeyId ++ rest) ∧
    d.TextFits 1 64 rootKeyId ∧ d.TextFits 1 64 signerKeyId ∧ rest.length < 160

/-- A manifest of at most 64 KiB with such a body, or with a body that can be read and such a
trailer. -/
def CutShort (raw : Bytes) : Prop :=
  raw.length ≤ 64 * 1024 ∧ ∃ body trailer,
    raw = rim2Magic ++ (bigEndian 2 2 ++ (frame 4 body ++ trailer)) ∧ body ≠ [] ∧
      (d.CutBody body ∨ (∃ fields : Rim2Body, body = fields.encode ∧ d.BodyFits fields) ∧
        d.CutTrailer trailer)

variable {d} {p : ε → Prop} (h : d.Untested p)
include h

theorem not_fails_readText (width : Nat) (data : Bytes) :
    ¬ Fails p (d.readText width data) := by
  obtain ⟨-, -, -, htruncated, hutf8, -⟩ := h.tested
  unfold readText
  rw [fails_bind, or_iff_right (not_fails_counted htruncated data)]
  rintro ⟨⟨text, rest⟩, -, hfails⟩
  rcases fails_guard.mp hfails with hfails | hfails
  · exact hutf8 hfails.2
  · exact not_fails_ok _ hfails.2

theorem not_fails_number (width : Nat) (data : Bytes) :
    ¬ Fails p (number width d.truncated data) :=
  fun hfails => h.tested.2.2.2.1 (fails_number.mp hfails).2

theorem fails_readFile {data : Bytes} : Fails p (d.readFile data) ↔ CutFile data := by
  unfold readFile
  constructor
  · intro hfails
    rcases fails_bind.mp hfails with hcut | ⟨⟨path, rest₁⟩, hpath, hfails₁⟩
    · exact absurd hcut (not_fails_readText h _ _)
    rcases fails_bind.mp hfails₁ with hcut | ⟨⟨size, rest₂⟩, hsize, hfails₂⟩
    · exact absurd hcut (not_fails_number h _ _)
    rcases fails_bind.mp hfails₂ with hcut | ⟨hash, -, hfails₃⟩
    · obtain ⟨rfl, hframe⟩ := readText_eq_ok.mp hpath
      obtain ⟨rfl, hbound⟩ := number_eq_ok.mp hsize
      exact ⟨path, size, rest₂, rfl, hframe, hbound, (fails_take.mp hcut).1⟩
    · exact absurd hfails₃ (not_fails_ok _)
  · rintro ⟨path, size, rest, rfl, hframe, hbound, hrest⟩
    refine fails_bind.mpr (.inr ⟨_, readText_eq_ok.mpr ⟨rfl, hframe⟩, ?_⟩)
    refine fails_bind.mpr (.inr ⟨_, number_eq_ok.mpr ⟨rfl, hbound⟩, ?_⟩)
    exact fails_bind.mpr (.inl (fails_take.mpr ⟨hrest, h.hash⟩))

theorem fails_readTrailer {data : Bytes} : Fails p (d.readTrailer data) ↔ d.CutTrailer data := by
  obtain ⟨-, -, -, -, -, -, -, -, -, -, hkeyId, htrailer⟩ := h.tested
  unfold readTrailer
  constructor
  · intro hfails
    rcases fails_bind.mp hfails with hcut | ⟨⟨rootKeyId, rest₁⟩, hroot, hfails₁⟩
    · exact absurd hcut (not_fails_readText h _ _)
    rcases fails_bind.mp hfails₁ with hcut | ⟨⟨signerKeyId, rest₂⟩, hsigner, hfails₂⟩
    · exact absurd hcut (not_fails_readText h _ _)
    rcases fails_guard.mp hfails₂ with hcut | ⟨hids, hfails₃⟩
    · exact absurd hcut.2 hkeyId
    -- each of the three reads fails only if what is left is too short for it
    have hrest : rest₂.length < 160 := by
      rcases fails_bind.mp hfails₃ with hcut | ⟨⟨key, rest₃⟩, hkey, hfails₄⟩
      · have hshort := (fails_take.mp hcut).1
        omega
      have hkeyLength := congrArg List.length (take_eq_ok.mp hkey).1
      rw [List.length_append, (take_eq_ok.mp hkey).2] at hkeyLength
      rcases fails_bind.mp hfails₄ with hcut | ⟨⟨rootSignature, rest₄⟩, hrootSig, hfails₅⟩
      · have hshort := (fails_take.mp hcut).1
        omega
      have hrootLength := congrArg List.length (take_eq_ok.mp hrootSig).1
      rw [List.length_append, (take_eq_ok.mp hrootSig).2] at hrootLength
      rcases fails_bind.mp hfails₅ with hcut | ⟨last, -, hfails₆⟩
      · have hshort := (fails_take.mp hcut).1
        omega
      rcases fails_guard.mp hfails₆ with hcut | hdone
      · exact absurd hcut.2 htrailer
      · exact absurd hdone.2 (not_fails_ok _)
    obtain ⟨rfl, hrootFrame, hrootUtf8⟩ := readText_eq_ok.mp hroot
    obtain ⟨rfl, hsignerFrame, hsignerUtf8⟩ := readText_eq_ok.mp hsigner
    simp only [not_or] at hids
    obtain ⟨hroot₁, hroot₂, hsigner₁, hsigner₂⟩ := hids
    exact ⟨rootKeyId, signerKeyId, rest₂, rfl,
      ⟨hrootFrame, hrootUtf8, hroot₁, Nat.not_lt.mp hroot₂⟩,
      ⟨hsignerFrame, hsignerUtf8, hsigner₁, Nat.not_lt.mp hsigner₂⟩, hrest⟩
  · rintro ⟨rootKeyId, signerKeyId, rest, rfl, hroot, hsigner, hrest⟩
    refine fails_bind.mpr (.inr ⟨_, readText_eq_ok.mpr ⟨rfl, hroot.frame, hroot.utf8⟩, ?_⟩)
    refine fails_bind.mpr (.inr ⟨_, readText_eq_ok.mpr ⟨rfl, hsigner.frame, hsigner.utf8⟩, ?_⟩)
    refine fails_guard.mpr (.inr ⟨?_, ?_⟩)
    · rintro (hzero | hlong | hzero | hlong)
      · exact hroot.nonempty hzero
      · exact absurd hroot.short (Nat.not_le.mpr hlong)
      · exact hsigner.nonempty hzero
      · exact absurd hsigner.short (Nat.not_le.mpr hlong)
    by_cases hkey : rest.length < 32
    · exact fails_bind.mpr (.inl (fails_take.mpr ⟨hkey, h.trailer⟩))
    obtain ⟨key, rest₃, rfl, hkeyLength⟩ := exists_append_of_le (Nat.not_lt.mp hkey)
    rw [List.length_append] at hrest
    refine fails_bind.mpr (.inr ⟨_, take_eq_ok.mpr ⟨rfl, hkeyLength⟩, ?_⟩)
    by_cases hrootSig : rest₃.length < 64
    · exact fails_bind.mpr (.inl (fails_take.mpr ⟨hrootSig, h.trailer⟩))
    obtain ⟨rootSignature, rest₄, rfl, hrootLength⟩ :=
      exists_append_of_le (Nat.not_lt.mp hrootSig)
    rw [List.length_append] at hrest
    refine fails_bind.mpr (.inr ⟨_, take_eq_ok.mpr ⟨rfl, hrootLength⟩, ?_⟩)
    exact fails_bind.mpr (.inl (fails_take.mpr ⟨by omega, h.trailer⟩))

theorem not_fails_readHeader (raw : Bytes) : ¬ Fails p (d.readHeader raw) := by
  obtain ⟨-, hmagic, hheader, -⟩ := h.tested
  unfold readHeader
  intro hfails
  rcases fails_guard.mp hfails with hcut | ⟨-, hfails₁⟩
  · exact hmagic hcut.2
  rcases fails_bind.mp hfails₁ with hcut | ⟨⟨version, rest₁⟩, -, hfails₂⟩
  · exact not_fails_number h _ _ hcut
  rcases fails_bind.mp hfails₂ with hcut | ⟨⟨size, rest₂⟩, -, hfails₃⟩
  · exact not_fails_number h _ _ hcut
  rcases fails_guard.mp hfails₃ with hcut | hdone
  · exact hheader hcut.2
  · exact not_fails_ok _ hdone.2

variable [DecidableEq κ]

theorem not_fails_admitFile (before : List Rim2File) (file : Rim2File) :
    ¬ Fails p (d.admitFile before file) := by
  obtain ⟨-, -, -, -, -, -, -, hunsafe, hduplicate, -⟩ := h.tested
  unfold admitFile
  rw [fails_guard, fails_guard]
  rintro (hfails | ⟨-, hfails | hfails⟩)
  · exact hunsafe hfails.2
  · exact hduplicate hfails.2
  · exact not_fails_ok _ hfails.2

theorem fails_files {count : Nat} {data : Bytes} :
    Fails p (entries d.readFile d.admitFile count [] data) ↔
      ∃ (files : List Rim2File) (rest : Bytes), data = files.flatMap Rim2File.encode ++ rest ∧
        files.length < count ∧ (∀ file ∈ files, FileFits file ∧ d.FileValid file) ∧
        (files.map fun file => d.key file.path).Nodup ∧ CutFile rest := by
  rw [fails_entries readFile_eq_ok admitFile_eq_ok (not_fails_admitFile h)]
  simp only [fails_readFile h, List.map_nil, List.not_mem_nil, not_false_eq_true, implies_true,
    true_and]

theorem fails_readBody {data : Bytes} : Fails p (d.readBody data) ↔ d.CutBody data := by
  obtain ⟨-, -, -, -, -, hversionInvalid, hcountInvalid, -, -, htrailing, -⟩ := h.tested
  unfold readBody
  constructor
  · intro hfails
    rcases fails_bind.mp hfails with hcut | ⟨⟨app, rest₁⟩, happ, hfails₁⟩
    · exact .inl (Nat.lt_of_lt_of_le (fails_take.mp hcut).1 (by decide))
    obtain ⟨hdata, happLength⟩ := take_eq_ok.mp happ
    have hlength₁ := congrArg List.length hdata
    rw [List.length_append, happLength] at hlength₁
    rcases fails_bind.mp hfails₁ with hcut | ⟨⟨release, rest₂⟩, hrelease, hfails₂⟩
    · have hshort := (fails_take.mp hcut).1
      exact .inl (by omega)
    obtain ⟨hrest₁, hreleaseLength⟩ := take_eq_ok.mp hrelease
    have hlength₂ := congrArg List.length hrest₁
    rw [List.length_append, hreleaseLength] at hlength₂
    rcases fails_bind.mp hfails₂ with hcut | ⟨⟨code, rest₃⟩, hcode, hfails₃⟩
    · exact absurd hcut (not_fails_number h _ _)
    obtain ⟨hrest₂, hcodeBound⟩ := number_eq_ok.mp hcode
    have hlength₃ := congrArg List.length hrest₂
    rw [List.length_append, bigEndian_length] at hlength₃
    rcases fails_bind.mp hfails₃ with hcut | ⟨⟨platform, rest₄⟩, hplatform, hfails₄⟩
    · have hshort := (fails_number.mp hcut).1
      exact .inr (.inl (by omega))
    obtain ⟨hrest₃, hplatformBound⟩ := number_eq_ok.mp hplatform
    have hlength₄ := congrArg List.length hrest₃
    rw [List.length_append, bigEndian_length] at hlength₄
    rcases fails_bind.mp hfails₄ with hcut | ⟨⟨arch, rest₅⟩, harch, hfails₅⟩
    · have hshort := (fails_number.mp hcut).1
      exact .inr (.inl (by omega))
    obtain ⟨hrest₄, harchBound⟩ := number_eq_ok.mp harch
    rcases fails_bind.mp hfails₅ with hcut | ⟨⟨version, rest₆⟩, hversion, hfails₆⟩
    · exact absurd hcut (not_fails_readText h _ _)
    obtain ⟨hrest₅, hframe, hutf8⟩ := readText_eq_ok.mp hversion
    rcases fails_guard.mp hfails₆ with hcut | ⟨hbounds, hfails₇⟩
    · exact absurd hcut.2 hversionInvalid
    rcases fails_bind.mp hfails₇ with hcut | ⟨⟨count, rest₇⟩, hcount, hfails₈⟩
    · exact absurd hcut (not_fails_number h _ _)
    obtain ⟨hrest₆, -⟩ := number_eq_ok.mp hcount
    rcases fails_guard.mp hfails₈ with hcut | ⟨hfew, hfails₉⟩
    · exact absurd hcut.2 hcountInvalid
    rcases fails_bind.mp hfails₉ with hcut | ⟨⟨files, rest₈⟩, -, hfails₁₀⟩
    · obtain ⟨files, rest, hrest₇, hlength, hfiles, hdistinct, hlast⟩ := (fails_files h).mp hcut
      refine .inr (.inr ⟨⟨app, release, code, platform, arch, version, files⟩, count, rest, ?_, ?_⟩)
      · rw [hdata, hrest₁, hrest₂, hrest₃, hrest₄, hrest₅, hrest₆, hrest₇]
      · exact ⟨happLength, hreleaseLength, hcodeBound, hplatformBound, harchBound,
          ⟨hframe, hutf8, fun hzero => hbounds (.inl hzero),
            Nat.not_lt.mp fun hlong => hbounds (.inr hlong)⟩, ⟨hlength, by omega⟩, hfiles,
          hdistinct, hlast⟩
    · rcases fails_guard.mp hfails₁₀ with hcut | hdone
      · exact absurd hcut.2 htrailing
      · exact absurd hdone.2 (not_fails_ok _)
  · rintro (hids | ⟨hlow, hhigh⟩ | ⟨body, count, rest, rfl, hcut⟩)
    · by_cases happ : data.length < 16
      · exact fails_bind.mpr (.inl (fails_take.mpr ⟨happ, h.ids⟩))
      obtain ⟨app, rest, rfl, happLength⟩ := exists_append_of_le (Nat.not_lt.mp happ)
      rw [List.length_append] at hids
      refine fails_bind.mpr (.inr ⟨_, take_eq_ok.mpr ⟨rfl, happLength⟩, ?_⟩)
      exact fails_bind.mpr (.inl (fails_take.mpr ⟨by omega, h.ids⟩))
    · obtain ⟨app, rest₁, rfl, happLength⟩ :=
        exists_append_of_le (Nat.le_trans (by decide : 16 ≤ 40) hlow)
      rw [List.length_append] at hlow hhigh
      obtain ⟨release, rest₂, rfl, hreleaseLength⟩ :=
        exists_append_of_le (by omega : 16 ≤ rest₁.length)
      rw [List.length_append] at hlow hhigh
      obtain ⟨code, rest₃, rfl, hcodeLength⟩ := exists_append_of_le (by omega : 8 ≤ rest₂.length)
      rw [List.length_append] at hlow hhigh
      refine fails_bind.mpr (.inr ⟨_, take_eq_ok.mpr ⟨rfl, happLength⟩, ?_⟩)
      refine fails_bind.mpr (.inr ⟨_, take_eq_ok.mpr ⟨rfl, hreleaseLength⟩, ?_⟩)
      refine fails_bind.mpr (.inr ⟨_, number_append hcodeLength rest₃, ?_⟩)
      by_cases hplatform : rest₃.length < 1
      · exact fails_bind.mpr (.inl (fails_number.mpr ⟨hplatform, h.marks⟩))
      obtain ⟨platform, rest₄, rfl, hplatformLength⟩ :=
        exists_append_of_le (Nat.not_lt.mp hplatform)
      rw [List.length_append] at hlow hhigh
      refine fails_bind.mpr (.inr ⟨_, number_append hplatformLength rest₄, ?_⟩)
      exact fails_bind.mpr (.inl (fails_number.mpr ⟨by omega, h.marks⟩))
    · have hversion := hcut.version
      have hcount := hcut.count
      refine fails_bind.mpr (.inr ⟨_, take_eq_ok.mpr ⟨rfl, hcut.app⟩, ?_⟩)
      refine fails_bind.mpr (.inr ⟨_, take_eq_ok.mpr ⟨rfl, hcut.release⟩, ?_⟩)
      refine fails_bind.mpr (.inr ⟨_, number_eq_ok.mpr ⟨rfl, hcut.versionCode⟩, ?_⟩)
      refine fails_bind.mpr (.inr ⟨_, number_eq_ok.mpr ⟨rfl, hcut.platform⟩, ?_⟩)
      refine fails_bind.mpr (.inr ⟨_, number_eq_ok.mpr ⟨rfl, hcut.arch⟩, ?_⟩)
      refine fails_bind.mpr
        (.inr ⟨_, readText_eq_ok.mpr ⟨rfl, hversion.frame, hversion.utf8⟩, ?_⟩)
      refine fails_guard.mpr (.inr ⟨?_, ?_⟩)
      · rintro (hzero | hlong)
        · exact hversion.nonempty hzero
        · exact absurd hversion.short (Nat.not_le.mpr hlong)
      refine fails_bind.mpr (.inr ⟨_, number_eq_ok.mpr ⟨rfl, by omega⟩, ?_⟩)
      refine fails_guard.mpr (.inr ⟨by omega, ?_⟩)
      exact fails_bind.mpr (.inl ((fails_files h).mpr
        ⟨body.files, rest, rfl, hcount.1, hcut.files, hcut.distinct, hcut.rest⟩))

/-- **A dialect comes to a read that is not tested** exactly in the manifests that are cut
short there. -/
theorem fails_read {raw : Bytes} : Fails p (d.read raw) ↔ d.CutShort raw := by
  unfold read
  constructor
  · intro hfails
    rcases fails_guard.mp hfails with hcut | ⟨hsize, hfails₁⟩
    · exact absurd hcut.2 h.tested.1
    refine ⟨Nat.not_lt.mp fun hlong => hsize (.inr hlong), ?_⟩
    rcases fails_bind.mp hfails₁ with hcut | ⟨⟨body, trailer⟩, hheader, hfails₂⟩
    · exact absurd hcut (not_fails_readHeader h raw)
    obtain ⟨hraw, hbody, -⟩ := readHeader_eq_ok.mp hheader
    refine ⟨body, trailer, hraw, hbody, ?_⟩
    rcases fails_bind.mp hfails₂ with hcut | ⟨fields, hfields, hfails₃⟩
    · exact .inl ((fails_readBody h).mp hcut)
    rcases fails_bind.mp hfails₃ with hcut | ⟨last, -, hfails₄⟩
    · exact .inr ⟨⟨fields, readBody_eq_ok.mp hfields⟩, (fails_readTrailer h).mp hcut⟩
    · exact absurd hfails₄ (not_fails_ok _)
  · rintro ⟨hsize, body, trailer, hraw, hbody, hcut⟩
    have hlength : body.length < 256 ^ 4 := by
      rw [hraw] at hsize
      simp only [frame, List.length_append] at hsize
      omega
    refine fails_guard.mpr (.inr ⟨?_, ?_⟩)
    · rintro (hnil | hlong)
      · rw [hnil] at hraw
        cases hraw
      · exact absurd hsize (Nat.not_le.mpr hlong)
    refine fails_bind.mpr (.inr ⟨_, readHeader_eq_ok.mpr ⟨hraw, hbody, hlength⟩, ?_⟩)
    rcases hcut with hcut | ⟨⟨fields, hfields⟩, hcut⟩
    · exact fails_bind.mpr (.inl ((fails_readBody h).mpr hcut))
    · refine fails_bind.mpr (.inr ⟨fields, readBody_eq_ok.mpr hfields, ?_⟩)
      exact fails_bind.mpr (.inl ((fails_readTrailer h).mpr hcut))

end Dialect

/-! ## C# -/

namespace CSharp

/-- `SwmIntegrityException`. -/
def Thrown.Integrity : Thrown → Prop
  | .swm error => error.kind = .integrity
  | _ => False

theorem rim2Invalid_integrity (message : String) : (rim2Invalid message).Integrity := rfl

theorem rim2Dialect_untested (runtime : Runtime) :
    (rim2Dialect runtime).Untested fun e => ¬ e.Integrity where
  ids := id
  marks := id
  hash := id
  trailer := id
  tested := by
    refine ⟨?_, ?_, ?_, ?_, ?_, ?_, ?_, ?_, ?_, ?_, ?_, ?_⟩ <;>
      exact not_not_intro (rim2Invalid_integrity _)

/-- A check of a signature throws nothing, or `SwmIntegrityException`. -/
def Answered (check : Except Error Bool) : Prop := ∀ e, check = .error e → e.kind = .integrity

theorem fails_verifyEd25519 {check : Except Error Bool} :
    Fails (fun e : Thrown => ¬ e.Integrity) (verifyEd25519 check) ↔ ¬ Answered check := by
  unfold verifyEd25519 Answered
  cases check with
  | ok valid => exact iff_of_false (not_fails_ok _) (by simp)
  | error e => rw [fails_error]; simp [Thrown.Integrity]

/-- The checks that are made of a manifest that was read. -/
def ChecksAnswered (check : SignatureCheck) (expected : Rim2Expected) (app release : Bytes)
    (m : Rim2) : Prop :=
  ¬ rim2Mismatch expected app release m →
    Answered (check.root expected.rootTrustPublicKey m.keyMessage m.trailer.rootSignature) ∧
      (check.root expected.rootTrustPublicKey m.keyMessage m.trailer.rootSignature = .ok true →
        Answered (check.signer m.trailer.signerPublic m.manifestMessage
          m.trailer.manifestSignature))

/-- A manifest that is not cut short, and whose signatures are checked without an exception. -/
structure Sound (runtime : Runtime) (check : SignatureCheck) (expected : Rim2Expected)
    (app release : Bytes) (raw : Bytes) : Prop where
  whole : ¬ (rim2Dialect runtime).CutShort raw
  checks : ∀ m : Rim2, raw = m.encode → (rim2Dialect runtime).Fits m →
    ChecksAnswered check expected app release m

/-- What the parser does with a manifest that was read. -/
def checkRim2 (check : SignatureCheck) (expected : Rim2Expected) (app release : Bytes)
    (m : Rim2) : Except Thrown Rim2 :=
  if rim2Mismatch expected app release m then
    .error (rim2Error "host_release_mismatch"
      "RIM2 manifest identity does not match this release")
  else do
    let certified ← verifyEd25519
      (check.root expected.rootTrustPublicKey m.keyMessage m.trailer.rootSignature)
    if ¬ certified then
      .error (rim2Error "host_root_signature_invalid"
        "RIM2 root certificate signature is invalid")
    else do
      let signed ← verifyEd25519 (check.signer m.trailer.signerPublic m.manifestMessage
        m.trailer.manifestSignature)
      if ¬ signed then
        .error (rim2Error "host_manifest_signature_invalid"
          "RIM2 manifest signature is invalid")
      else .ok m

theorem verifyEd25519_eq_ok {check : Except Error Bool} {valid : Bool} :
    verifyEd25519 check = .ok valid ↔ check = .ok valid := by
  unfold verifyEd25519
  cases check with
  | ok answer => simp
  | error e => simp

theorem fails_checkRim2 {check : SignatureCheck} {expected : Rim2Expected}
    {app release : Bytes} {m : Rim2} :
    Fails (fun e => ¬ e.Integrity) (checkRim2 check expected app release m) ↔
      ¬ ChecksAnswered check expected app release m := by
  have hrefused : ∀ code message, ¬ ¬ (rim2Error code message).Integrity :=
    fun _ _ => not_not_intro rfl
  unfold checkRim2 ChecksAnswered
  constructor
  · intro hfails hanswered
    rcases fails_guard.mp hfails with hcut | ⟨hmatch, hfails₁⟩
    · exact hrefused _ _ hcut.2
    obtain ⟨hroot, hsigner⟩ := hanswered hmatch
    rcases fails_bind.mp hfails₁ with hcut | ⟨certified, hcertified, hfails₂⟩
    · exact fails_verifyEd25519.mp hcut hroot
    rcases fails_guard.mp hfails₂ with hcut | ⟨htrue, hfails₃⟩
    · exact hrefused _ _ hcut.2
    rw [not_not] at htrue
    rw [verifyEd25519_eq_ok, htrue] at hcertified
    rcases fails_bind.mp hfails₃ with hcut | ⟨signed, -, hfails₄⟩
    · exact fails_verifyEd25519.mp hcut (hsigner hcertified)
    rcases fails_guard.mp hfails₄ with hcut | hdone
    · exact hrefused _ _ hcut.2
    · exact not_fails_ok _ hdone.2
  · intro hanswered
    rw [Classical.not_imp, not_and_or, Classical.not_imp] at hanswered
    obtain ⟨hmatch, hanswered⟩ := hanswered
    refine fails_guard.mpr (.inr ⟨hmatch, ?_⟩)
    rcases hanswered with hroot | ⟨hcertified, hsigner⟩
    · exact fails_bind.mpr (.inl (fails_verifyEd25519.mpr hroot))
    · refine fails_bind.mpr (.inr ⟨true, verifyEd25519_eq_ok.mpr hcertified, ?_⟩)
      refine fails_guard.mpr (.inr ⟨by simp, ?_⟩)
      exact fails_bind.mpr (.inl (fails_verifyEd25519.mpr hsigner))

/-- **What the parser throws.**  It throws something other than `SwmIntegrityException` exactly
for the texts that are cut short, or whose signatures are checked with an exception. -/
theorem fails_parseAndVerify (runtime : Runtime) (check : SignatureCheck)
    {expected : Rim2Expected} {app release : Bytes}
    (happ : runtime.guidParse expected.appId = some app)
    (hrelease : runtime.guidParse expected.releaseId = some release) (raw : Bytes) :
    Fails (fun e => ¬ e.Integrity) (parseAndVerify runtime check expected raw) ↔
      ¬ Sound runtime check expected app release raw := by
  have hparse : parseAndVerify runtime check expected raw =
      (rim2Dialect runtime).read raw >>= checkRim2 check expected app release := by
    unfold parseAndVerify
    rw [happ, hrelease]
    rfl
  rw [hparse, fails_bind, Dialect.fails_read (rim2Dialect_untested runtime)]
  simp only [fails_checkRim2, Dialect.read_eq_ok]
  constructor
  · rintro (hcut | ⟨m, ⟨hraw, hfits⟩, hchecks⟩) hsound
    · exact hsound.whole hcut
    · exact hchecks (hsound.checks m hraw hfits)
  · intro hsound
    by_cases hcut : (rim2Dialect runtime).CutShort raw
    · exact .inl hcut
    · refine .inr (Classical.byContradiction fun hnone => hsound ⟨hcut, fun m hraw hfits => ?_⟩)
      exact Classical.byContradiction fun hchecks => hnone ⟨m, ⟨hraw, hfits⟩, hchecks⟩

end CSharp
end SwmSdk
