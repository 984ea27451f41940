import SwmSdk.BodyAadPython
import SwmSdk.HostIntegrityJava
import SwmSdk.Rim2Ports

/-! # Release integrity manifests in Java and Python

Python has the shape of the other parsers: it reads the UUID as Rust does, and takes the mixed order
of its bytes.  Java does not: it decodes texts without a check, compares the UUID by its text as C++
does, and sets no bound to the release version and the signing key ids, which may also be empty.

All six SDKs take a text alike exactly when it says so little that these differences do not show
(`rim2_sixAgree_iff`).
-/
namespace SwmSdk
open ByteText ByteCodec Outcome

/-! ## Python -/

namespace Python

/-- `str.lower`, of which only its action on ASCII is fixed here. -/
structure LowerCase where
  lower : Bytes → Bytes
  lower_ascii : ∀ text, (∀ b ∈ text, b < 0x80) → lower text = ByteText.lower text

/-- `_error`. -/
def rim2Error (code message : String) : Raised :=
  .swm { kind := .integrity, statusCode := 0, serviceCode := ascii code, message := ascii message }

/-- The errors of a manifest that cannot be read. -/
def rim2Invalid (message : String) : Raised := rim2Error "host_manifest_invalid" message

/-- `_arch_byte`. -/
def archByte (casing : LowerCase) (arch : Bytes) : Nat :=
  let value := casing.lower arch
  if value = ascii "x86" ∨ value = ascii "386" ∨ value = ascii "i386" ∨ value = ascii "win-x86" then
    1
  else if value = ascii "x64" ∨ value = ascii "amd64" ∨ value = ascii "win-x64" then 2
  else 0

/-- `bytes.fromhex`, which skips white space before a byte. -/
def fromHex : Bytes → Option Bytes
  | [] => some []
  | a :: rest =>
      if (0x09 ≤ a ∧ a ≤ 0x0d) ∨ a = 0x20 then fromHex rest
      else
        match rest with
        | [] => none
        | b :: rest =>
            match hexValue a, hexValue b, fromHex rest with
            | some high, some low, some bytes => some (UInt8.ofNat (16 * high + low) :: bytes)
            | _, _, _ => none

/-- `_uuid_bytes`; what it raises for another text is no error of the SDK. -/
def uuidBytes (value : Bytes) : Except Raised Bytes :=
  match fromHex (value.filter (· ≠ 0x2d)) with
  | none => .error .other
  | some raw => if raw.length < 16 then .error .other else .ok (swapGuid (raw.take 16))

/-- What the Python parser does in its own way, with its messages. -/
def rim2Dialect (casing : LowerCase) : Dialect Raised Bytes where
  sizeInvalid := rim2Invalid "RIM2 manifest size is invalid"
  minimum := 8
  minimum_le := Nat.le_add_right 8 6
  magicInvalid := rim2Invalid "RIM2 manifest magic is invalid"
  headerInvalid := rim2Invalid "RIM2 manifest header is invalid"
  truncated := rim2Invalid "RIM2 manifest is truncated"
  notUtf8 := rim2Invalid "RIM2 manifest contains invalid UTF-8"
  idsTruncated := rim2Invalid "RIM2 manifest body is truncated"
  marksTruncated := .other
  versionInvalid := rim2Invalid "RIM2 release version is invalid"
  countInvalid := rim2Invalid "RIM2 manifest file count is invalid"
  hashTruncated := rim2Invalid "RIM2 manifest file hash is truncated"
  unsafeFile := rim2Invalid "RIM2 manifest contains an unsafe or duplicate file"
  duplicateFile := rim2Invalid "RIM2 manifest contains an unsafe or duplicate file"
  bodyTrailing := rim2Invalid "RIM2 manifest body contains trailing bytes"
  keyIdInvalid := rim2Invalid "RIM2 signing key id or trailer is invalid"
  trailerTruncated := rim2Invalid "RIM2 signing key id or trailer is invalid"
  trailerInvalid := rim2Invalid "RIM2 manifest trailer is invalid"
  length := List.length
  safe := safePath
  key := casing.lower

/-- The manifest is for another release. -/
def rim2Mismatch (casing : LowerCase) (expected : Rim2Expected) (app release : Bytes) (m : Rim2) :
    Prop :=
  m.body.app ≠ app ∨ m.body.release ≠ release ∨ m.body.platform ≠ 1 ∨
    m.body.arch ≠ archByte casing expected.arch ∨ m.body.version ≠ expected.version ∨
    (∃ code ∈ expected.versionCode, (m.body.versionCode : Int) ≠ code) ∨
    m.trailer.rootKeyId ≠ expected.rootKeyId

instance (casing : LowerCase) (expected : Rim2Expected) (app release : Bytes) (m : Rim2) :
    Decidable (rim2Mismatch casing expected app release m) := by
  unfold rim2Mismatch
  infer_instance

/-- `verify_ed25519`. -/
def verifyEd25519 (check : Except Error Bool) : Except Raised Bool :=
  match check with
  | .ok valid => .ok valid
  | .error e => .error (.swm e)

/-- `parse_and_verify`; of the manifest it returns, the fields beside the digest. -/
def parseAndVerify (casing : LowerCase) (check : SignatureCheck) (expected : Rim2Expected)
    (raw : Bytes) : Except Raised Rim2 := do
  let m ← (rim2Dialect casing).read raw
  let app ← uuidBytes expected.appId
  let release ← uuidBytes expected.releaseId
  if rim2Mismatch casing expected app release m then
    .error (rim2Error "host_release_mismatch" "RIM2 manifest identity does not match this release")
  else do
    let certified ← verifyEd25519
      (check.root expected.rootTrustPublicKey m.keyMessage m.trailer.rootSignature)
    if ¬ certified then
      .error (rim2Error "host_root_signature_invalid" "RIM2 root certificate signature is invalid")
    else do
      let signed ← verifyEd25519 (check.signer m.trailer.signerPublic m.manifestMessage
        m.trailer.manifestSignature)
      if ¬ signed then
        .error (rim2Error "host_manifest_signature_invalid" "RIM2 manifest signature is invalid")
      else .ok m

theorem fromHex_hex (bytes : Bytes) : fromHex (hex bytes) = some bytes := by
  have hdigit : ∀ n < 16, ¬ ((0x09 ≤ hexDigit n ∧ hexDigit n ≤ 0x0d) ∨ hexDigit n = 0x20) := by
    decide
  induction bytes with
  | nil => rfl
  | cons b bytes ih =>
    have hb : b.toNat < 256 := b.toNat_lt
    have hbyte : UInt8.ofNat (16 * (b.toNat / 16) + b.toNat % 16) = b := by
      rw [Nat.div_add_mod, UInt8.ofNat_toNat]
    rw [hex, List.flatMap_cons, List.cons_append, List.cons_append, List.nil_append, ← hex,
      fromHex, if_neg (hdigit _ (by omega)), hexValue_hexDigit _ (by omega),
      hexValue_hexDigit _ (by omega), ih]
    dsimp only
    rw [hbyte]

theorem rim2Dialect_plain (casing : LowerCase) : (rim2Dialect casing).Plain fun _ => True where
  length _ _ := rfl
  safe _ _ := (iff_of_eq (and_true _)).symm
  key first second hfirst hsecond := by
    show casing.lower first = casing.lower second ↔ _
    rw [casing.lower_ascii first hfirst, casing.lower_ascii second hsecond]

end Python

theorem Uuid.python_bytes (id : Uuid) : Python.uuidBytes id.text = .ok (swapGuid id.bytes) := by
  unfold Python.uuidBytes Uuid.text
  rw [filter_guidText, Python.fromHex_hex]
  have hlength := id.length
  have htake : id.bytes.take 16 = id.bytes := List.take_of_length_le (Nat.le_of_eq hlength)
  simp [hlength, htake]

theorem Arch.python_byte (casing : Python.LowerCase) (arch : Arch) :
    Python.archByte casing arch.text = arch.byte := by
  have hlower : casing.lower arch.text = arch.text := by
    cases arch with
    | x86 => exact casing.lower_ascii (ascii "x86") (ascii_of_all (by decide))
    | x64 => exact casing.lower_ascii (ascii "x64") (ascii_of_all (by decide))
  unfold Python.archByte
  rw [hlower]
  cases arch with
  | x86 => decide
  | x64 => decide

/-- A number of 64 bits is the version code itself, and so the same modulo `2 ^ 64`. -/
theorem unsignedCode_of_eq {code : Int} {n : Nat} (hn : n < 256 ^ 8) (h : (n : Int) = code) :
    n = unsignedCode code := by
  subst h
  unfold unsignedCode
  omega

/-! ## Java -/

/-- A byte string that decodes to ASCII is that ASCII text. -/
theorem ascii_of_lossyUtf8 {fuel : Nat} {bytes : Bytes} (hfuel : bytes.length ≤ fuel)
    (h : ∀ b ∈ lossyUtf8 fuel bytes, b < 0x80) : ∀ b ∈ bytes, b < 0x80 := by
  induction fuel generalizing bytes with
  | zero =>
    obtain rfl := List.length_eq_zero_iff.mp (Nat.le_zero.mp hfuel)
    simp
  | succ fuel ih =>
    cases bytes with
    | nil => simp
    | cons b rest =>
      rw [lossyUtf8] at h
      by_cases hb : b < 0x80
      · rw [if_pos hb] at h
        intro c hc
        rcases List.mem_cons.mp hc with rfl | hc
        · exact hb
        · exact ih (Nat.le_of_succ_le_succ hfuel) (fun d hd => h d (List.mem_cons_of_mem _ hd)) c hc
      · -- a byte of another character leaves a byte outside ASCII
        rw [if_neg hb] at h
        have hreplaced : ¬ (0xef : UInt8) < 0x80 := by decide
        split at h
        · exact absurd (h 0xef (by simp)) hreplaced
        · dsimp only at h
          split at h
          · exact absurd (h b (by simp)) hb
          · exact absurd (h 0xef (by simp)) hreplaced

namespace Java

theorem utf8String_eq_iff {bytes text : Bytes} (h : ∀ b ∈ text, b < 0x80) :
    utf8String bytes = text ↔ bytes = text := by
  constructor
  · rintro rfl
    have hbytes := ascii_of_lossyUtf8 (Nat.le_succ _) h
    exact (lossyUtf8_ascii hbytes (Nat.le_succ _)).symm
  · rintro rfl
    exact lossyUtf8_ascii h (Nat.le_succ _)

theorem length_ascii {text : Bytes} (h : ∀ b ∈ text, b < 0x80) : length text = text.length := by
  have hall : (text.filter fun b => b < 0x80 || 0xc0 ≤ b) = text :=
    List.filter_eq_self.mpr fun b hb => by simp [h b hb]
  have hnone : (text.filter fun b => 0xf0 ≤ b) = [] := by
    refine List.filter_eq_nil_iff.mpr fun b hb hlarge => ?_
    have hsmall := UInt8.lt_of_le_of_lt (of_decide_eq_true hlarge) (h b hb)
    exact absurd hsmall (by decide)
  rw [length, hall, hnone, List.length_nil, Nat.add_zero]

theorem safePath_ascii {value : Bytes} (h : ∀ b ∈ value, b < 0x80) :
    safePath value = SwmSdk.safePath value := by
  unfold safePath SwmSdk.safePath
  rw [length_ascii h]

end Java

/-- An entry whose path is ASCII. -/
def Rim2File.AsciiPath (file : Rim2File) : Prop := ∀ b ∈ file.path, b < 0x80

instance (file : Rim2File) : Decidable file.AsciiPath :=
  inferInstanceAs (Decidable (∀ b ∈ file.path, b < 0x80))

/-- A body that Java reads: the version may be long. -/
structure Rim2Body.Readable (body : Rim2Body) : Prop where
  app : body.app.length = 16
  release : body.release.length = 16
  versionCode : body.versionCode < 256 ^ 8
  arch : body.arch < 256 ^ 1
  version : body.version ≠ [] ∧ body.version.length < 256 ^ 2
  count : body.files ≠ [] ∧ body.files.length ≤ 255
  files : ∀ file ∈ body.files, file.Fits ∧ file.Valid
  distinct : (body.files.map fun file => lower file.path).Nodup

/-- A trailer that Java reads: the key ids may be long or empty. -/
structure Rim2Trailer.Readable (trailer : Rim2Trailer) : Prop where
  rootKeyId : trailer.rootKeyId.length < 256 ^ 1
  signerKeyId : trailer.signerKeyId.length < 256 ^ 1
  signerPublic : trailer.signerPublic.length = 32
  rootSignature : trailer.rootSignature.length = 64
  manifestSignature : trailer.manifestSignature.length = 64

/-- A manifest that Java reads. -/
structure Rim2.Readable (m : Rim2) : Prop where
  body : m.body.Readable
  trailer : m.trailer.Readable
  size : m.encode.length ≤ 64 * 1024

theorem Rim2.WellFormed.readable {m : Rim2} (h : m.WellFormed) : m.Readable where
  body := by
    have hversion := h.body.version.2
    exact ⟨h.body.app, h.body.release, h.body.versionCode, h.body.arch,
      ⟨h.body.version.1, by omega⟩, h.body.count, h.body.files, h.body.distinct⟩
  trailer := by
    have hroot := h.trailer.rootKeyId.2
    have hsigner := h.trailer.signerKeyId.2
    exact ⟨by omega, by omega, h.trailer.signerPublic, h.trailer.rootSignature,
      h.trailer.manifestSignature⟩
  size := h.size

namespace Java

theorem readText_eq_ok {width : Nat} {data text rest : Bytes} (h : ∀ b ∈ text, b < 0x80) :
    readText width data = .ok (text, rest) ↔
      data = frame width text ++ rest ∧ text.length < 256 ^ width := by
  unfold readText
  rw [bind_eq_ok]
  constructor
  · rintro ⟨⟨bytes, rest'⟩, hcounted, hread⟩
    obtain ⟨htext, rfl⟩ := Prod.mk.inj (Except.ok.inj hread)
    obtain rfl := (utf8String_eq_iff h).mp htext
    exact counted_eq_ok.mp hcounted
  · rintro hdata
    refine ⟨(text, rest), counted_eq_ok.mpr hdata, ?_⟩
    exact congrArg (fun value => Except.ok (value, rest)) ((utf8String_eq_iff h).mpr rfl)

theorem readRim2File_eq_ok {data rest : Bytes} {file : Rim2File} (h : file.AsciiPath) :
    readRim2File data = .ok (file, rest) ↔ data = file.encode ++ rest ∧ file.Fits := by
  unfold readRim2File Rim2File.encode
  constructor
  · intro hread
    obtain ⟨⟨path, rest₁⟩, hpath, hread⟩ := bind_eq_ok.mp hread
    obtain ⟨⟨size, rest₂⟩, hsize, hread⟩ := bind_eq_ok.mp hread
    obtain ⟨⟨sha256, rest₃⟩, hsha, hread⟩ := bind_eq_ok.mp hread
    obtain ⟨rfl, rfl⟩ := Prod.mk.inj (Except.ok.inj hread)
    obtain ⟨rfl, hpathLength⟩ := (readText_eq_ok h).mp hpath
    obtain ⟨rfl, hsizeBound⟩ := number_eq_ok.mp hsize
    obtain ⟨rfl, hshaLength⟩ := take_eq_ok.mp hsha
    exact ⟨by simp only [List.append_assoc], hpathLength, hsizeBound, hshaLength⟩
  · rintro ⟨rfl, hfits⟩
    simp only [List.append_assoc]
    refine bind_eq_ok.mpr ⟨_, (readText_eq_ok h).mpr ⟨rfl, hfits.path⟩, ?_⟩
    refine bind_eq_ok.mpr ⟨_, number_eq_ok.mpr ⟨rfl, hfits.size⟩, ?_⟩
    exact bind_eq_ok.mpr ⟨_, take_eq_ok.mpr ⟨rfl, hfits.sha256⟩, rfl⟩

variable {locale : RootLocale}

theorem acceptRim2File_eq_ok {before : List Rim2File} {file : Rim2File} :
    acceptRim2File locale before file = .ok () ↔
      (safePath file.path = true ∧ file.size ≠ 0 ∧ ¬ ∀ b ∈ file.sha256, b = 0) ∧
        locale.toLowerCase file.path ∉ before.map fun old => locale.toLowerCase old.path := by
  unfold acceptRim2File
  rw [guard_eq_ok, not_or, not_or, not_or, not_not]
  simp only [List.all_eq_true, decide_eq_true_eq, List.contains_iff_mem, and_true, and_assoc]

theorem nodup_iff {files : List Rim2File} (h : ∀ file ∈ files, file.AsciiPath) :
    (files.map fun file => locale.toLowerCase file.path).Nodup ↔
      (files.map fun file => lower file.path).Nodup := by
  have hsame : (files.map fun file => locale.toLowerCase file.path) =
      files.map fun file => lower file.path :=
    List.map_congr_left fun file hfile => locale.toLowerCase_ascii _ (h file hfile)
  rw [hsame]

/-- **The files that Java reads**, when their paths are ASCII. -/
theorem readFiles_eq_ok {n : Nat} {files : List Rim2File} {data rest : Bytes}
    (h : ∀ file ∈ files, file.AsciiPath) :
    entries readRim2File (acceptRim2File locale) n [] data = .ok (files, rest) ↔
      data = files.flatMap Rim2File.encode ++ rest ∧ files.length = n ∧
        (∀ file ∈ files, file.Fits ∧ file.Valid) ∧
        (files.map fun file => lower file.path).Nodup := by
  -- a reader that fails on other paths reads these files alike, and describes them
  have hguarded : ∀ {data rest : Bytes} {file : Rim2File},
      ((readRim2File data).bind fun out =>
        if ¬ out.1.AsciiPath then .error rim2Truncated else .ok out) = .ok (file, rest) ↔
      data = file.encode ++ rest ∧ file.Fits ∧ file.AsciiPath := by
    intro data rest file
    constructor
    · intro hread
      obtain ⟨⟨file', rest'⟩, hfile, hread⟩ := bind_eq_ok.mp hread
      obtain ⟨hascii, hread⟩ := guard_eq_ok.mp hread
      obtain ⟨rfl, rfl⟩ := Prod.mk.inj (Except.ok.inj hread)
      obtain ⟨hdata, hfits⟩ := (readRim2File_eq_ok (not_not.mp hascii)).mp hfile
      exact ⟨hdata, hfits, not_not.mp hascii⟩
    · rintro ⟨hdata, hfits, hascii⟩
      refine bind_eq_ok.mpr ⟨(file, rest), (readRim2File_eq_ok hascii).mpr ⟨hdata, hfits⟩, ?_⟩
      exact guard_eq_ok.mpr ⟨not_not.mpr hascii, rfl⟩
  have hentries := @entries_guarded _ _ readRim2File (acceptRim2File locale) Rim2File.AsciiPath _
    rim2Truncated n [] files data rest
  have hread : entries readRim2File (acceptRim2File locale) n [] data = .ok (files, rest) ↔ _ :=
    (and_iff_left h).symm.trans hentries.symm
  rw [hread, entries_eq_ok hguarded acceptRim2File_eq_ok, nodup_iff h]
  refine and_congr_right fun _ => and_congr_right fun _ => ?_
  constructor
  · rintro ⟨hall, hdistinct, -⟩
    refine ⟨fun file hfile => ?_, hdistinct⟩
    obtain ⟨⟨hfits, hascii⟩, hpath, hsize, hsha⟩ := hall file hfile
    exact ⟨hfits, (safePath_ascii hascii).symm.trans hpath, hsize, hsha⟩
  · rintro ⟨hall, hdistinct⟩
    refine ⟨fun file hfile => ?_, hdistinct, by simp⟩
    obtain ⟨hfits, hvalid⟩ := hall file hfile
    have hascii := h file hfile
    exact ⟨⟨hfits, hascii⟩, (safePath_ascii hascii).trans hvalid.path, hvalid.size, hvalid.sha256⟩

theorem readRim2Body_eq_ok {data : Bytes} {body : Rim2Body}
    (hversion : ∀ b ∈ body.version, b < 0x80) (hpaths : ∀ file ∈ body.files, file.AsciiPath) :
    readRim2Body locale data = .ok body ↔
      data = body.encode ∧ body.Readable ∧ body.platform = 1 := by
  unfold readRim2Body Rim2Body.encode
  constructor
  · intro h
    obtain ⟨⟨app, rest₁⟩, happ, h⟩ := bind_eq_ok.mp h
    obtain ⟨⟨release, rest₂⟩, hrelease, h⟩ := bind_eq_ok.mp h
    obtain ⟨⟨code, rest₃⟩, hcode, h⟩ := bind_eq_ok.mp h
    obtain ⟨⟨platform, rest₄⟩, hplatform, h⟩ := bind_eq_ok.mp h
    obtain ⟨⟨arch, rest₅⟩, harch, h⟩ := bind_eq_ok.mp h
    obtain ⟨⟨version, rest₆⟩, hread, h⟩ := bind_eq_ok.mp h
    obtain ⟨⟨count, rest₇⟩, hcount, h⟩ := bind_eq_ok.mp h
    obtain ⟨hfields, h⟩ := guard_eq_ok.mp h
    obtain ⟨⟨files, rest₈⟩, hfiles, h⟩ := bind_eq_ok.mp h
    obtain ⟨hrest, h⟩ := guard_eq_ok.mp h
    obtain rfl := Except.ok.inj h
    obtain rfl := not_not.mp hrest
    obtain ⟨rfl, happLength⟩ := take_eq_ok.mp happ
    obtain ⟨rfl, hreleaseLength⟩ := take_eq_ok.mp hrelease
    obtain ⟨rfl, hcodeBound⟩ := number_eq_ok.mp hcode
    obtain ⟨rfl, -⟩ := number_eq_ok.mp hplatform
    obtain ⟨rfl, harchBound⟩ := number_eq_ok.mp harch
    obtain ⟨rfl, hshort⟩ := (readText_eq_ok hversion).mp hread
    obtain ⟨rfl, -⟩ := number_eq_ok.mp hcount
    obtain ⟨rfl, rfl, hall, hdistinct⟩ := (readFiles_eq_ok hpaths).mp hfiles
    simp only [not_or, not_not] at hfields
    obtain ⟨rfl, hsome, hfew, hnonempty⟩ := hfields
    refine ⟨by rw [List.append_nil], ⟨happLength, hreleaseLength, hcodeBound, harchBound,
      ⟨hnonempty, hshort⟩, ⟨?_, Nat.not_lt.mp hfew⟩, hall, hdistinct⟩, rfl⟩
    exact fun hnil => hsome (congrArg List.length hnil)
  · rintro ⟨rfl, hw, hplatform⟩
    have hcount : body.files.length ≠ 0 := fun hzero =>
      hw.count.1 (List.length_eq_zero_iff.mp hzero)
    have hfew := hw.count.2
    refine bind_eq_ok.mpr ⟨_, take_eq_ok.mpr ⟨rfl, hw.app⟩, ?_⟩
    refine bind_eq_ok.mpr ⟨_, take_eq_ok.mpr ⟨rfl, hw.release⟩, ?_⟩
    refine bind_eq_ok.mpr ⟨_, number_eq_ok.mpr ⟨rfl, hw.versionCode⟩, ?_⟩
    refine bind_eq_ok.mpr ⟨_, number_eq_ok.mpr ⟨rfl, by rw [hplatform]; decide⟩, ?_⟩
    refine bind_eq_ok.mpr ⟨_, number_eq_ok.mpr ⟨rfl, hw.arch⟩, ?_⟩
    refine bind_eq_ok.mpr ⟨_, (readText_eq_ok hversion).mpr ⟨rfl, hw.version.2⟩, ?_⟩
    refine bind_eq_ok.mpr ⟨_, number_eq_ok.mpr ⟨rfl, by omega⟩, ?_⟩
    refine guard_eq_ok.mpr ⟨?_, ?_⟩
    · rintro (hother | hzero | hmany | hnil)
      · exact hother hplatform
      · exact hcount hzero
      · exact absurd hfew (Nat.not_le.mpr hmany)
      · exact hw.version.1 hnil
    · refine bind_eq_ok.mpr ⟨(body.files, []), ?_, guard_eq_ok.mpr ⟨by simp, rfl⟩⟩
      exact (readFiles_eq_ok hpaths).mpr
        ⟨by rw [List.append_nil], rfl, hw.files, hw.distinct⟩

theorem readRim2Header_eq_ok {raw body trailer : Bytes} :
    readRim2Header raw = .ok (body, trailer) ↔
      raw = rim2Magic ++ (bigEndian 2 2 ++ (frame 4 body ++ trailer)) ∧ body ≠ [] ∧
        body.length < 256 ^ 4 ∧ raw.length ≤ 64 * 1024 := by
  unfold readRim2Header
  rw [guard_eq_ok]
  constructor
  · rintro ⟨hraw, h⟩
    obtain ⟨⟨magic, rest₁⟩, hmagic, h⟩ := bind_eq_ok.mp h
    obtain ⟨⟨version, rest₂⟩, hversion, h⟩ := bind_eq_ok.mp h
    obtain ⟨htwo, h⟩ := guard_eq_ok.mp h
    obtain ⟨⟨size, rest₃⟩, hsize, h⟩ := bind_eq_ok.mp h
    obtain ⟨hfits, h⟩ := guard_eq_ok.mp h
    obtain ⟨rfl, rfl⟩ := Prod.mk.inj (Except.ok.inj h)
    obtain ⟨rfl, hmagicLength⟩ := take_eq_ok.mp hmagic
    obtain ⟨rfl, -⟩ := number_eq_ok.mp hversion
    obtain ⟨rfl, hlt⟩ := number_eq_ok.mp hsize
    simp only [not_or, not_not, Nat.not_lt] at hraw htwo hfits
    obtain ⟨-, hshort, hprefix⟩ := hraw
    obtain rfl := htwo
    obtain rfl : rim2Magic = magic := List.append_inj_left
      (List.prefix_iff_eq_append.mp hprefix) (by rw [hmagicLength]; rfl)
    have hlength : (rest₃.take size).length = size := by
      rw [List.length_take]
      omega
    refine ⟨?_, ?_, by rw [hlength]; exact hlt, hshort⟩
    · rw [frame, hlength, List.append_assoc, List.take_append_drop]
    · intro hnil
      rw [hnil] at hlength
      exact hfits.1 hlength.symm
  · rintro ⟨rfl, hne, hlt, hshort⟩
    have hpos : body.length ≠ 0 := fun hzero => hne (List.length_eq_zero_iff.mp hzero)
    refine ⟨?_, bind_eq_ok.mpr ⟨_, take_eq_ok.mpr ⟨rfl, by decide⟩, ?_⟩⟩
    · rintro (hnil | hlong | hother)
      · have hzero := congrArg List.length hnil
        simp [rim2Magic, bigEndian_length] at hzero
      · exact absurd hshort (Nat.not_le.mpr hlong)
      · exact hother (List.prefix_append _ _)
    · refine bind_eq_ok.mpr ⟨_, number_eq_ok.mpr ⟨rfl, by decide⟩, guard_eq_ok.mpr ⟨by simp, ?_⟩⟩
      refine bind_eq_ok.mpr ⟨(body.length, body ++ trailer),
        number_eq_ok.mpr ⟨by rw [frame, List.append_assoc], hlt⟩, guard_eq_ok.mpr ⟨?_, ?_⟩⟩
      · rw [List.length_append]
        omega
      · rw [List.take_left, List.drop_left]

theorem readRim2Trailer_eq_ok {data rest : Bytes} {trailer : Rim2Trailer}
    (hroot : ∀ b ∈ trailer.rootKeyId, b < 0x80) (hsigner : ∀ b ∈ trailer.signerKeyId, b < 0x80) :
    readRim2Trailer data = .ok (trailer, rest) ↔
      data = trailer.encode ++ rest ∧ trailer.Readable := by
  unfold readRim2Trailer Rim2Trailer.encode
  constructor
  · intro h
    obtain ⟨⟨rootKeyId, rest₁⟩, hrootRead, h⟩ := bind_eq_ok.mp h
    obtain ⟨⟨signerKeyId, rest₂⟩, hsignerRead, h⟩ := bind_eq_ok.mp h
    obtain ⟨⟨signerPublic, rest₃⟩, hpublic, h⟩ := bind_eq_ok.mp h
    obtain ⟨⟨rootSignature, rest₄⟩, hrootSig, h⟩ := bind_eq_ok.mp h
    obtain ⟨⟨manifestSignature, rest₅⟩, hsig, h⟩ := bind_eq_ok.mp h
    obtain ⟨rfl, rfl⟩ := Prod.mk.inj (Except.ok.inj h)
    obtain ⟨rfl, hrootLength⟩ := (readText_eq_ok hroot).mp hrootRead
    obtain ⟨rfl, hsignerLength⟩ := (readText_eq_ok hsigner).mp hsignerRead
    obtain ⟨rfl, hpublicLength⟩ := take_eq_ok.mp hpublic
    obtain ⟨rfl, hrootSigLength⟩ := take_eq_ok.mp hrootSig
    obtain ⟨rfl, hsigLength⟩ := take_eq_ok.mp hsig
    exact ⟨by simp only [List.append_assoc], hrootLength, hsignerLength, hpublicLength,
      hrootSigLength, hsigLength⟩
  · rintro ⟨rfl, hw⟩
    simp only [List.append_assoc]
    refine bind_eq_ok.mpr ⟨_, (readText_eq_ok hroot).mpr ⟨rfl, hw.rootKeyId⟩, ?_⟩
    refine bind_eq_ok.mpr ⟨_, (readText_eq_ok hsigner).mpr ⟨rfl, hw.signerKeyId⟩, ?_⟩
    refine bind_eq_ok.mpr ⟨_, take_eq_ok.mpr ⟨rfl, hw.signerPublic⟩, ?_⟩
    refine bind_eq_ok.mpr ⟨_, take_eq_ok.mpr ⟨rfl, hw.rootSignature⟩, ?_⟩
    exact bind_eq_ok.mpr ⟨_, take_eq_ok.mpr ⟨rfl, hw.manifestSignature⟩, rfl⟩

end Java

/-- The parts of a manifest that Java reads, one by one. -/
theorem Java.read_encode {m : Rim2} (locale : RootLocale) (hm : m.Readable)
    (hascii : m.content.Ascii) (hplatform : m.body.platform = 1) :
    Java.readRim2Header m.encode = .ok (m.body.encode, m.trailer.encode) ∧
      Java.readRim2Body locale m.body.encode = .ok m.body ∧
      Java.readRim2Trailer m.trailer.encode = .ok (m.trailer, []) := by
  have hlength : 16 ≤ m.body.encode.length := by
    rw [Rim2Body.encode, List.length_append, hm.body.app]
    exact Nat.le_add_right ..
  refine ⟨?_, ?_, ?_⟩
  · refine readRim2Header_eq_ok.mpr ⟨rfl, ?_, Cpp.body_length_lt m hm.size, hm.size⟩
    intro hnil
    rw [hnil] at hlength
    cases hlength
  · exact (readRim2Body_eq_ok hascii.version hascii.paths).mpr ⟨rfl, hm.body, hplatform⟩
  · exact (readRim2Trailer_eq_ok hascii.rootKeyId hascii.signerKeyId).mpr
      ⟨by rw [List.append_nil], hm.trailer⟩

/-- **An encoding tells the manifest**, also one that only Java reads. -/
theorem Rim2.Readable.encode_unique {first second : Rim2} (hfirst : first.Readable)
    (hsecond : second.Readable) (hascii : first.content.Ascii) (hascii' : second.content.Ascii)
    (hplatform : first.body.platform = 1) (hplatform' : second.body.platform = 1)
    (h : first.encode = second.encode) : first = second := by
  obtain ⟨hheader, hbody, htrailer⟩ :=
    Java.read_encode ⟨lower, fun _ _ => rfl⟩ hfirst hascii hplatform
  obtain ⟨hheader', hbody', htrailer'⟩ :=
    Java.read_encode ⟨lower, fun _ _ => rfl⟩ hsecond hascii' hplatform'
  rw [h, hheader'] at hheader
  obtain ⟨hbodySame, htrailerSame⟩ := Prod.mk.inj (Except.ok.inj hheader)
  rw [← hbodySame, hbody'] at hbody
  rw [← htrailerSame, htrailer'] at htrailer
  have hbodies := Except.ok.inj hbody
  have htrailers := (Prod.mk.inj (Except.ok.inj htrailer)).1
  cases first
  cases second
  exact (congrArg₂ Rim2.mk hbodies htrailers).symm

theorem Arch.java_text (arch : Arch) {n : Nat} :
    Java.equalsIgnoreCase arch.text (archText n) = true ↔ n = arch.byte := by
  unfold archText
  by_cases hone : n = 1
  · subst hone
    cases arch with
    | x86 => decide
    | x64 => decide
  · by_cases htwo : n = 2
    · subst htwo
      cases arch with
      | x86 => decide
      | x64 => decide
    · rw [if_neg hone, if_neg htwo]
      cases arch with
      | x86 => exact iff_of_false (by decide) hone
      | x64 => exact iff_of_false (by decide) htwo

/-! ## What they accept -/

section Acceptance
variable {crypto : Crypto} {casing : Python.LowerCase} {locale : Java.RootLocale} {r : Release}
  {raw : Bytes} {content : Rim2Content}

/-- Java accepts the bytes as a manifest of this content. -/
def Java.Accepts (crypto : Crypto) (locale : RootLocale) (r : Release) (raw : Bytes)
    (content : Rim2Content) : Prop :=
  ∃ result, Java.parseAndVerify locale crypto r.expected raw = .ok result ∧
    result.content = content

/-- Python accepts the bytes as a manifest of this content. -/
def Python.Accepts (crypto : Crypto) (casing : LowerCase) (r : Release) (raw : Bytes)
    (content : Rim2Content) : Prop :=
  ∃ m, Python.parseAndVerify casing crypto.signatureCheck r.expected raw = .ok m ∧
    m.content = content

/-- Java asks for the text of the identifiers, and for a manifest that it reads. -/
theorem Java.accepts_iff (h : content.Ascii) :
    Java.Accepts crypto locale r raw content ↔
      ∃ m : Rim2, raw = m.encode ∧ m.content = content ∧ m.Readable ∧ r.Describes crypto m ∧
        r.InTextOrder m := by
  have hverify : ∀ key message signature,
      verifyEd25519 crypto key message signature = .ok true ↔
        crypto.ed25519Verify key message signature = .ok true := by
    intro key message signature
    unfold verifyEd25519
    cases crypto.ed25519Verify key message signature with
    | error e => simp
    | ok valid => simp
  have hsame : ∀ (m : Rim2) (rest : Bytes), ¬ rim2Mismatch r.expected m rest ↔
      rest = [] ∧ r.InTextOrder m ∧ m.body.version = r.version ∧
        (∀ code ∈ r.versionCode, m.body.versionCode = unsignedCode code) ∧
        m.body.arch = r.arch.byte ∧ m.trailer.rootKeyId = r.rootKeyId := by
    intro m rest
    unfold rim2Mismatch Release.InTextOrder
    simp only [Release.expected, not_or, not_not, not_exists, not_and, ne_eq, Uuid.text_eq_iff,
      Arch.java_text, and_assoc]
  unfold Java.Accepts parseAndVerify
  constructor
  · rintro ⟨result, hparse, hcontent⟩
    obtain ⟨⟨bodyBytes, trailerBytes⟩, hheader, hparse⟩ := bind_eq_ok.mp hparse
    obtain ⟨body, hbody, hparse⟩ := bind_eq_ok.mp hparse
    obtain ⟨⟨trailer, rest⟩, htrailer, hparse⟩ := bind_eq_ok.mp hparse
    obtain ⟨hids, hparse⟩ := guard_eq_ok.mp hparse
    obtain ⟨certified, hcertified, hparse⟩ := bind_eq_ok.mp hparse
    obtain ⟨hroot, hparse⟩ := guard_eq_ok.mp hparse
    obtain ⟨signed, hsigned, hparse⟩ := bind_eq_ok.mp hparse
    obtain ⟨hsigner, hparse⟩ := guard_eq_ok.mp hparse
    obtain rfl := Except.ok.inj hparse
    rw [not_not.mp hroot, hverify] at hcertified
    rw [not_not.mp hsigner, hverify] at hsigned
    obtain ⟨rfl, horder, hversion, hcode, harch, hrootId⟩ := (hsame _ _).mp hids
    have hm : (⟨body, trailer⟩ : Rim2).content = content := hcontent
    rw [← hm] at h
    obtain ⟨rfl, hbodyReads, hplatform⟩ := (readRim2Body_eq_ok h.version h.paths).mp hbody
    obtain ⟨htrailerBytes, htrailerReads⟩ :=
      (readRim2Trailer_eq_ok h.rootKeyId h.signerKeyId).mp htrailer
    rw [List.append_nil] at htrailerBytes
    subst htrailerBytes
    obtain ⟨hraw, -, -, hsize⟩ := readRim2Header_eq_ok.mp hheader
    subst hraw
    exact ⟨⟨body, trailer⟩, rfl, hm, ⟨hbodyReads, htrailerReads, hsize⟩,
      ⟨hplatform, harch, hversion, hcode, hrootId, hcertified, hsigned⟩, horder⟩
  · rintro ⟨m, rfl, rfl, hw, hm, horder⟩
    obtain ⟨hheader, hbody, htrailer⟩ := read_encode locale hw h hm.platform
    let result : Cpp.Rim2Manifest := {
      raw := m.encode, manifestSha256 := crypto.sha256Hex m.encode, appId := r.expected.appId
      releaseId := r.expected.releaseId, versionCode := m.body.versionCode
      version := m.body.version, arch := archText m.body.arch, rootKeyId := m.trailer.rootKeyId
      signerKeyId := m.trailer.signerKeyId, files := m.body.files }
    refine ⟨result, bind_eq_ok.mpr ⟨_, hheader, bind_eq_ok.mpr ⟨_, hbody, bind_eq_ok.mpr
      ⟨_, htrailer, guard_eq_ok.mpr ⟨?_, ?_⟩⟩⟩⟩, rfl⟩
    · exact (hsame m []).mpr ⟨rfl, horder, hm.version, hm.versionCode, hm.arch, hm.rootKeyId⟩
    · exact bind_eq_ok.mpr ⟨true, (hverify _ _ _).mpr hm.certified, guard_eq_ok.mpr ⟨by simp,
        bind_eq_ok.mpr ⟨true, (hverify _ _ _).mpr hm.signed, guard_eq_ok.mpr ⟨by simp, rfl⟩⟩⟩⟩

/-- Python asks for the mixed order, and for the very number of the version code. -/
theorem Python.accepts_iff (h : content.Ascii) :
    Python.Accepts crypto casing r raw content ↔
      ∃ m : Rim2, raw = m.encode ∧ m.content = content ∧ m.WellFormed ∧ r.Describes crypto m ∧
        r.InMixedOrder m ∧ ∀ code ∈ r.versionCode, (m.body.versionCode : Int) = code := by
  have hverify : ∀ check, verifyEd25519 check = .ok true ↔ check = .ok true := by
    intro check
    cases check with
    | error e => simp [verifyEd25519]
    | ok valid => simp [verifyEd25519]
  unfold Python.Accepts parseAndVerify
  constructor
  · rintro ⟨m, hparse, rfl⟩
    obtain ⟨m', hread, hparse⟩ := bind_eq_ok.mp hparse
    obtain ⟨app, happId, hparse⟩ := bind_eq_ok.mp hparse
    obtain ⟨release, hreleaseId, hparse⟩ := bind_eq_ok.mp hparse
    obtain rfl := Except.ok.inj (r.app.python_bytes.symm.trans happId)
    obtain rfl := Except.ok.inj (r.release.python_bytes.symm.trans hreleaseId)
    obtain ⟨hids, hparse⟩ := guard_eq_ok.mp hparse
    obtain ⟨certified, hcertified, hparse⟩ := bind_eq_ok.mp hparse
    obtain ⟨hroot, hparse⟩ := guard_eq_ok.mp hparse
    obtain ⟨signed, hsigned, hparse⟩ := bind_eq_ok.mp hparse
    obtain ⟨hsigner, hparse⟩ := guard_eq_ok.mp hparse
    obtain rfl := Except.ok.inj hparse
    rw [not_not.mp hroot, hverify] at hcertified
    rw [not_not.mp hsigner, hverify] at hsigned
    obtain ⟨hencode, hfits⟩ := Dialect.read_eq_ok.mp hread
    have hw := (((rim2Dialect_plain casing).fits_iff h).mp hfits).1
    simp only [rim2Mismatch, Release.expected, Arch.python_byte, not_or, not_not, not_exists,
      not_and, ne_eq] at hids
    obtain ⟨happ, hrelease, hplatform, harch, hversion, hcode, hrootId⟩ := hids
    refine ⟨m', hencode, rfl, hw, ⟨hplatform, harch, hversion, fun code hmem => ?_, hrootId,
      hcertified, hsigned⟩, ⟨happ, hrelease⟩, hcode⟩
    exact unsignedCode_of_eq hw.body.versionCode (hcode code hmem)
  · rintro ⟨m, hencode, rfl, hw, hm, ⟨happ, hrelease⟩, hcode⟩
    have hfits := ((rim2Dialect_plain casing).fits_iff h).mpr ⟨hw, fun _ _ => trivial⟩
    refine ⟨m, bind_eq_ok.mpr ⟨m, Dialect.read_eq_ok.mpr ⟨hencode, hfits⟩, ?_⟩, rfl⟩
    refine bind_eq_ok.mpr ⟨_, r.app.python_bytes, bind_eq_ok.mpr ⟨_, r.release.python_bytes, ?_⟩⟩
    refine guard_eq_ok.mpr ⟨?_, bind_eq_ok.mpr ⟨true, (hverify _).mpr hm.certified,
      guard_eq_ok.mpr ⟨by simp, ?_⟩⟩⟩
    · simp only [rim2Mismatch, Release.expected, Arch.python_byte, not_or, not_not, not_exists,
        not_and, ne_eq]
      exact ⟨happ, hrelease, hm.platform, hm.arch, hm.version, hcode, hm.rootKeyId⟩
    · exact bind_eq_ok.mpr ⟨true, (hverify _).mpr hm.signed, guard_eq_ok.mpr ⟨by simp, rfl⟩⟩

end Acceptance

/-! ## When all six agree -/

/-- The SDKs. -/
inductive Sdk where
  | cpp | csharp | java | go | rust | python
  deriving DecidableEq, Repr

/-- What the SDKs use of their platforms. -/
structure TextPlatforms where
  casing : Go.Casing
  runtime : CSharp.Runtime
  locale : Java.RootLocale
  lowerCase : Python.LowerCase

/-- An SDK takes the text for the release, with this content. -/
def Sdk.Accepts (crypto : Crypto) (platforms : TextPlatforms) (r : Release) (raw : Bytes)
    (content : Rim2Content) : Sdk → Prop
  | .cpp => Cpp.Accepts crypto r raw content
  | .csharp => CSharp.Accepts crypto platforms.runtime r raw content
  | .java => Java.Accepts crypto platforms.locale r raw content
  | .go => Go.Accepts crypto platforms.casing r raw content
  | .rust => Rust.Accepts crypto r raw content
  | .python => Python.Accepts crypto platforms.lowerCase r raw content

/-- The six parsers take the text alike, as far as its texts are ASCII. -/
def Rim2SixAgree (crypto : Crypto) (platforms : TextPlatforms) (r : Release) (raw : Bytes) : Prop :=
  ∀ content : Rim2Content, content.Ascii → ∀ first second : Sdk,
    first.Accepts crypto platforms r raw content → second.Accepts crypto platforms r raw content

/-- What the parsers ask of a manifest one or the other. -/
structure Release.Common (r : Release) (m : Rim2) : Prop where
  wellFormed : m.WellFormed
  app : swapGuid r.app.bytes = r.app.bytes
  release : swapGuid r.release.bytes = r.release.bytes
  versionCode : ∀ code ∈ r.versionCode, (m.body.versionCode : Int) = code
  paths : ∀ file ∈ m.body.files, Visible file.path

/-- A manifest that some parser may take: Java reads more, in the order of the text. -/
def Release.Offers (r : Release) (m : Rim2) : Prop :=
  m.Readable ∧ r.InTextOrder m ∨ m.WellFormed ∧ r.InMixedOrder m

section Agreement
variable {crypto : Crypto} {platforms : TextPlatforms} {r : Release} {raw : Bytes}
  {content : Rim2Content}

theorem Release.Common.orders_iff {m : Rim2} (h : r.Common m) :
    r.InMixedOrder m ↔ r.InTextOrder m := by
  rw [InMixedOrder, h.app, h.release, InTextOrder]

/-- What some parser takes. -/
theorem Sdk.accepts_offered (h : content.Ascii) {sdk : Sdk}
    (haccepts : sdk.Accepts crypto platforms r raw content) :
    ∃ m : Rim2, raw = m.encode ∧ m.content = content ∧ r.Describes crypto m ∧ r.Offers m := by
  cases sdk with
  | cpp =>
    obtain ⟨m, hencode, hcontent, hw, hm, horder⟩ := Cpp.accepts_iff.mp haccepts
    exact ⟨m, hencode, hcontent, hm, .inl ⟨hw.readable, horder⟩⟩
  | csharp =>
    obtain ⟨m, hencode, hcontent, hw, hm, horder, -⟩ := (CSharp.accepts_iff h).mp haccepts
    exact ⟨m, hencode, hcontent, hm, .inl ⟨hw.readable, horder⟩⟩
  | java =>
    obtain ⟨m, hencode, hcontent, hw, hm, horder⟩ := (Java.accepts_iff h).mp haccepts
    exact ⟨m, hencode, hcontent, hm, .inl ⟨hw, horder⟩⟩
  | go =>
    obtain ⟨m, hencode, hcontent, hw, hm, horder⟩ := (Go.accepts_iff h).mp haccepts
    exact ⟨m, hencode, hcontent, hm, .inr ⟨hw, horder⟩⟩
  | rust =>
    obtain ⟨m, hencode, hcontent, hw, hm, horder, -⟩ := (Rust.accepts_iff h).mp haccepts
    exact ⟨m, hencode, hcontent, hm, .inr ⟨hw, horder⟩⟩
  | python =>
    obtain ⟨m, hencode, hcontent, hw, hm, horder, -⟩ := (Python.accepts_iff h).mp haccepts
    exact ⟨m, hencode, hcontent, hm, .inr ⟨hw, horder⟩⟩

/-- What every parser takes. -/
theorem Sdk.accepts_common {m : Rim2} (h : m.content.Ascii) (hencode : raw = m.encode)
    (hm : r.Describes crypto m) (hcommon : r.Common m) (horder : r.InTextOrder m) (sdk : Sdk) :
    sdk.Accepts crypto platforms r raw m.content := by
  have hw := hcommon.wellFormed
  have hmixed := hcommon.orders_iff.mpr horder
  have hpositive : ∀ code ∈ r.versionCode, 0 ≤ code := fun code hmem =>
    hcommon.versionCode code hmem ▸ Int.natCast_nonneg _
  cases sdk with
  | cpp => exact Cpp.accepts_iff.mpr ⟨m, hencode, rfl, hw, hm, horder⟩
  | csharp =>
    exact (CSharp.accepts_iff h).mpr ⟨m, hencode, rfl, hw, hm, horder, hcommon.paths⟩
  | java => exact (Java.accepts_iff h).mpr ⟨m, hencode, rfl, hw.readable, hm, horder⟩
  | go => exact (Go.accepts_iff h).mpr ⟨m, hencode, rfl, hw, hm, hmixed⟩
  | rust => exact (Rust.accepts_iff h).mpr ⟨m, hencode, rfl, hw, hm, hmixed, hpositive⟩
  | python =>
    exact (Python.accepts_iff h).mpr ⟨m, hencode, rfl, hw, hm, hmixed, hcommon.versionCode⟩

/-- A manifest whose text all parsers take is common. -/
theorem Sdk.common_of_accepts {m : Rim2} (h : m.content.Ascii) (hencode : raw = m.encode)
    (hm : r.Describes crypto m) (hreadable : m.Readable)
    (haccepts : ∀ sdk : Sdk, sdk.Accepts crypto platforms r raw m.content) : r.Common m := by
  have hunique : ∀ m' : Rim2, raw = m'.encode → m'.content = m.content → m'.Readable →
      r.Describes crypto m' → m' = m := by
    intro m' hencode' hcontent' hreadable' hm'
    exact hreadable'.encode_unique hreadable (hcontent' ▸ h) h hm'.platform hm.platform
      (hencode'.symm.trans hencode)
  obtain ⟨m₁, h₁, hcontent₁, hw₁, hm₁, htext, hvisible⟩ :=
    (CSharp.accepts_iff h).mp (haccepts .csharp)
  obtain ⟨m₂, h₂, hcontent₂, hw₂, hm₂, hmixed, hcode⟩ :=
    (Python.accepts_iff h).mp (haccepts .python)
  obtain rfl := hunique m₁ h₁ hcontent₁ hw₁.readable hm₁
  obtain rfl := hunique m₂ h₂ hcontent₂ hw₂.readable hm₂
  exact ⟨hw₁, hmixed.1.symm.trans htext.1, hmixed.2.symm.trans htext.2, hcode, hvisible⟩

end Agreement

/-- **When all six SDKs agree on a text**: exactly when every ASCII manifest of the release
that it encodes, and that one of them may take, is common. -/
theorem rim2_sixAgree_iff (crypto : Crypto) (platforms : TextPlatforms) (r : Release)
    (raw : Bytes) :
    Rim2SixAgree crypto platforms r raw ↔
      ∀ m : Rim2, raw = m.encode → m.content.Ascii → r.Describes crypto m → r.Offers m →
        r.Common m := by
  constructor
  · intro hagree m hencode hascii hm hoffers
    -- one parser takes the text, and so do the others
    rcases hoffers with ⟨hw, horder⟩ | ⟨hw, horder⟩
    · have hjava : Sdk.java.Accepts crypto platforms r raw m.content :=
        (Java.accepts_iff hascii).mpr ⟨m, hencode, rfl, hw, hm, horder⟩
      exact Sdk.common_of_accepts hascii hencode hm hw fun sdk =>
        hagree m.content hascii .java sdk hjava
    · have hgo : Sdk.go.Accepts crypto platforms r raw m.content :=
        (Go.accepts_iff hascii).mpr ⟨m, hencode, rfl, hw, hm, horder⟩
      exact Sdk.common_of_accepts hascii hencode hm hw.readable fun sdk =>
        hagree m.content hascii .go sdk hgo
  · intro hcommon content hascii first second haccepts
    obtain ⟨m, hencode, rfl, hm, hoffers⟩ := Sdk.accepts_offered hascii haccepts
    have hshared := hcommon m hencode hascii hm hoffers
    refine Sdk.accepts_common hascii hencode hm hshared ?_ second
    rcases hoffers with ⟨-, horder⟩ | ⟨-, horder⟩
    · exact horder
    · exact hshared.orders_iff.mp horder

end SwmSdk
