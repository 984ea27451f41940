import SwmSdk.JsonGrammar
import SwmSdk.KeyRotation
import SwmSdk.OptionalLines
import SwmSdk.Rim2Ports

/-! # The evidence of the hardware

`build_hardware_evidence` writes the app id and a line for each component that is not blank, and
hashes the text.  The four SDKs do so alike (`EvidencePort`) but for their strings and for what
they take as the normal form of a component: C++ and Rust drop the blanks and then lower the case,
C# does so unit by unit, and Go lowers the case first.

Whatever the normal form is, as long as it holds no line feed, the text tells the app id and the
normal forms (`canonical_iff`); and for ASCII the normal forms are the same.
-/
namespace SwmSdk
open ByteText

/-! ## The components -/

/-- The fingerprint and the machine GUID, as strings of an SDK. -/
structure HardwareComponents (Text : Type) where
  cpu : Text
  motherboard : Text
  bios : Text
  disk : Text
  mac : Text
  machineGuid : Text
  deriving DecidableEq, Repr

namespace HardwareComponents
variable {Text Text' : Type}

/-- The components, each mapped. -/
def map (f : Text → Text') (c : HardwareComponents Text) : HardwareComponents Text' where
  cpu := f c.cpu
  motherboard := f c.motherboard
  bios := f c.bios
  disk := f c.disk
  mac := f c.mac
  machineGuid := f c.machineGuid

/-- The components in the order of their bits. -/
def toList (c : HardwareComponents Text) : List Text :=
  [c.cpu, c.motherboard, c.bios, c.disk, c.mac, c.machineGuid]

theorem toList_map (f : Text → Text') (c : HardwareComponents Text) :
    (c.map f).toList = c.toList.map f := rfl

theorem toList_injective {c c' : HardwareComponents Text} (h : c.toList = c'.toList) : c = c' := by
  simp only [toList, List.cons.injEq, and_true] at h
  obtain ⟨hcpu, hmotherboard, hbios, hdisk, hmac, hguid⟩ := h
  cases c
  cases c'
  simp_all

end HardwareComponents

/-! ## The shape of the four -/

/-- What an SDK does its own way: the letters of its strings, the normal form of a component, and
the bytes of a string that are hashed. -/
structure EvidencePort (α : Type) where
  letter : UInt8 → α
  letter_injective : Function.Injective letter
  normalize : List α → List α
  normalize_line : ∀ value, letter 0x0a ∉ normalize value
  utf8 : List α → Bytes

namespace EvidencePort
variable {α : Type} (p : EvidencePort α)

/-- A literal of the source. -/
def literal (text : String) : List α := (ascii text).map p.letter

/-- The bit, the name and the value of each component. -/
def fields (c : HardwareComponents (List α)) : List (UInt32 × List α × List α) :=
  [(0x01, p.literal "cpu", c.cpu), (0x02, p.literal "motherboard", c.motherboard),
    (0x04, p.literal "smbios", c.bios), (0x08, p.literal "disk", c.disk),
    (0x10, p.literal "mac", c.mac), (0x20, p.literal "machine_guid", c.machineGuid)]

/-- A round of the loop, on the mask and the text so far. -/
def append (state : UInt32 × List α) (field : UInt32 × List α × List α) : UInt32 × List α :=
  let (bit, name, value) := field
  let normalized := p.normalize value
  if normalized = [] then state
  else
    (state.1 ||| bit, state.2 ++ name ++ p.literal ":" ++ normalized ++ p.literal "\n")

/-- The mask and the text after the loop. -/
def canonical (appId : List α) (c : HardwareComponents (List α)) : UInt32 × List α :=
  (p.fields c).foldl p.append
    (0, p.literal "device_hardware_evidence_v2\napp_id:" ++ appId ++ p.literal "\n")

/-- `build_hardware_evidence`, with the error of the SDK. -/
def build {ε : Type} (failed : ε) (crypto : Crypto) (appId : List α)
    (c : HardwareComponents (List α)) : Except ε Cpp.HardwareEvidence :=
  let (mask, text) := p.canonical appId c
  if mask = 0 then .error failed
  else .ok { version := 2, componentMask := mask, aggregateHash := crypto.sha256Hex (p.utf8 text) }

/-- The colon and the line feed of the strings. -/
def marks : OptionalLines.Marks α := ⟨p.letter 0x3a, p.letter 0x0a⟩

/-- The names of the components. -/
def names : List (List α) :=
  [p.literal "cpu", p.literal "motherboard", p.literal "smbios", p.literal "disk", p.literal "mac",
    p.literal "machine_guid"]

/-- The heading and the app id before the first line. -/
def heading (appId : List α) : List α :=
  p.literal "device_hardware_evidence_v2\napp_id:" ++ appId ++ p.literal "\n"

/-- A mask with the bits of the fields that have a value. -/
def maskOf (mask : UInt32) (fields : List (UInt32 × List α × List α)) : UInt32 :=
  fields.foldl (fun mask field =>
    if p.normalize field.2.2 = [] then mask else mask ||| field.1) mask

/-- What the loop makes of any fields. -/
theorem foldl_append (fields : List (UInt32 × List α × List α)) (mask : UInt32) (text : List α) :
    fields.foldl p.append (mask, text) =
      (p.maskOf mask fields,
        text ++ p.marks.lines (fields.map fun field => (field.2.1, p.normalize field.2.2))) := by
  induction fields generalizing mask text with
  | nil => simp [maskOf, OptionalLines.Marks.lines]
  | cons field fields ih =>
    obtain ⟨bit, name, value⟩ := field
    have hround : p.append (mask, text) (bit, name, value) =
        (if p.normalize value = [] then mask else mask ||| bit,
          if p.normalize value = [] then text
          else text ++ name ++ p.literal ":" ++ p.normalize value ++ p.literal "\n") := by
      unfold append
      dsimp only
      split <;> rfl
    rw [List.foldl_cons, hround, ih]
    refine Prod.ext rfl ?_
    dsimp only
    rw [List.map_cons, OptionalLines.Marks.lines]
    split
    · rfl
    · simp only [List.append_assoc]
      rfl

theorem canonical_text (appId : List α) (c : HardwareComponents (List α)) :
    (p.canonical appId c).2 =
      p.heading appId ++ p.marks.lines (p.names.zip (c.map p.normalize).toList) := by
  rw [canonical, foldl_append]
  rfl

theorem canonical_mask (appId : List α) (c : HardwareComponents (List α)) :
    (p.canonical appId c).1 = p.maskOf 0 (p.fields c) := by
  rw [canonical, foldl_append]

/-! ## What the mask and the text tell -/

theorem maskOf_testBit (fields : List (UInt32 × List α × List α)) (mask : UInt32) (i : Nat) :
    (p.maskOf mask fields).toNat.testBit i = true ↔
      mask.toNat.testBit i = true ∨
        ∃ field ∈ fields, p.normalize field.2.2 ≠ [] ∧ field.1.toNat.testBit i = true := by
  induction fields generalizing mask with
  | nil => simp [maskOf]
  | cons field fields ih =>
    have hround : p.maskOf mask (field :: fields) =
        p.maskOf (if p.normalize field.2.2 = [] then mask else mask ||| field.1) fields := rfl
    rw [hround, ih, List.exists_mem_cons_iff, ← or_assoc]
    refine or_congr_left ?_
    by_cases hblank : p.normalize field.2.2 = []
    · rw [if_pos hblank]
      simp [hblank]
    · rw [if_neg hblank, UInt32.toNat_or, Nat.testBit_or, Bool.or_eq_true]
      simp [hblank]

/-- The bits are those of the components in order. -/
theorem bit_iff (appId : List α) (c : HardwareComponents (List α)) (i : Nat) :
    (p.canonical appId c).1.toNat.testBit i = true ↔
      ∃ value ∈ c.toList[i]?, p.normalize value ≠ [] := by
  have hone : (0x01 : UInt32).toNat.testBit i = decide (0 = i) := Nat.testBit_two_pow (n := 0)
  have htwo : (0x02 : UInt32).toNat.testBit i = decide (1 = i) := Nat.testBit_two_pow (n := 1)
  have hfour : (0x04 : UInt32).toNat.testBit i = decide (2 = i) := Nat.testBit_two_pow (n := 2)
  have height : (0x08 : UInt32).toNat.testBit i = decide (3 = i) := Nat.testBit_two_pow (n := 3)
  have hsixteen : (0x10 : UInt32).toNat.testBit i = decide (4 = i) :=
    Nat.testBit_two_pow (n := 4)
  have hlast : (0x20 : UInt32).toNat.testBit i = decide (5 = i) := Nat.testBit_two_pow (n := 5)
  rw [canonical_mask, maskOf_testBit, UInt32.toNat_zero, Nat.zero_testBit]
  simp only [fields, List.exists_mem_cons_iff, List.not_mem_nil, false_and, exists_false, or_false,
    hone, htwo, hfour, height, hsixteen, hlast, decide_eq_true_eq, Bool.false_eq_true, false_or]
  rcases i with _ | _ | _ | _ | _ | _ | i <;> simp [HardwareComponents.toList]

theorem mask_eq_zero_iff (appId : List α) (c : HardwareComponents (List α)) :
    (p.canonical appId c).1 = 0 ↔ ∀ value ∈ c.toList, p.normalize value = [] := by
  constructor
  · intro hzero value hvalue
    by_contra hne
    obtain ⟨i, hi⟩ := List.mem_iff_getElem?.mp hvalue
    have hbit := (p.bit_iff appId c i).mpr ⟨value, hi, hne⟩
    rw [hzero, UInt32.toNat_zero, Nat.zero_testBit] at hbit
    cases hbit
  · intro hblank
    apply UInt32.toNat_inj.mp
    refine Nat.eq_of_testBit_eq fun i => ?_
    rw [UInt32.toNat_zero, Nat.zero_testBit, Bool.eq_false_iff]
    intro hbit
    obtain ⟨value, hvalue, hne⟩ := (p.bit_iff appId c i).mp hbit
    exact hne (hblank value (List.mem_of_getElem? hvalue))

theorem build_eq {ε : Type} (failed : ε) (crypto : Crypto) (appId : List α)
    (c : HardwareComponents (List α)) :
    p.build failed crypto appId c =
      if (p.canonical appId c).1 = 0 then .error failed
      else .ok {
        version := 2
        componentMask := (p.canonical appId c).1
        aggregateHash := crypto.sha256Hex (p.utf8 (p.canonical appId c).2) } := rfl

theorem names_plain : ∀ name ∈ p.names, p.marks.colon ∉ name := by
  have hliteral : ∀ text : String, (0x3a : UInt8) ∉ ascii text →
      p.marks.colon ∉ p.literal text := by
    intro text htext hmem
    obtain ⟨b, hb, heq⟩ := List.mem_map.mp hmem
    exact htext (p.letter_injective heq ▸ hb)
  simp only [names, List.forall_mem_cons, List.not_mem_nil, false_implies, implies_true, and_true]
  refine ⟨hliteral _ ?_, hliteral _ ?_, hliteral _ ?_, hliteral _ ?_, hliteral _ ?_,
    hliteral _ ?_⟩ <;> decide

theorem names_distinct : p.names.Nodup := by
  have hnames : p.names = [ascii "cpu", ascii "motherboard", ascii "smbios", ascii "disk",
    ascii "mac", ascii "machine_guid"].map (List.map p.letter) := rfl
  rw [hnames]
  exact List.Nodup.map (List.map_injective_iff.mpr p.letter_injective) (by decide)

/-- **The text tells the app id and the normal forms.** -/
theorem canonical_iff {appId appId' : List α} (happ : p.letter 0x0a ∉ appId)
    (happ' : p.letter 0x0a ∉ appId') (c c' : HardwareComponents (List α)) :
    (p.canonical appId c).2 = (p.canonical appId' c').2 ↔
      appId = appId' ∧ c.map p.normalize = c'.map p.normalize := by
  rw [canonical_text, canonical_text]
  constructor
  · intro h
    simp only [heading, List.append_assoc] at h
    obtain ⟨rfl, hlines⟩ := p.marks.line_unique happ happ' (List.append_cancel_left h)
    have hplain : ∀ c : HardwareComponents (List α), ∀ value ∈ (c.map p.normalize).toList,
        p.marks.lineFeed ∉ value := by
      intro c value hvalue
      rw [HardwareComponents.toList_map] at hvalue
      obtain ⟨raw, -, rfl⟩ := List.mem_map.mp hvalue
      exact p.normalize_line raw
    have hlength : ∀ c : HardwareComponents (List α),
        (c.map p.normalize).toList.length = p.names.length := fun _ => rfl
    have hvalues := p.marks.lines_injective p.names_plain p.names_distinct (hlength c)
      (hlength c') (hplain c) (hplain c') hlines
    exact ⟨rfl, HardwareComponents.toList_injective hvalues⟩
  · rintro ⟨rfl, h⟩
    rw [h]

/-- What the evidence of an SDK tells: the text tells the app id and the normal forms, the mask
which of them are not empty, the hash is that of the text, and there is none if all are empty. -/
structure Canonical {ε : Type}
    (build : Crypto → List α → HardwareComponents (List α) → Except ε Cpp.HardwareEvidence) :
    Prop where
  tells : ∀ appId appId' c c', p.letter 0x0a ∉ appId → p.letter 0x0a ∉ appId' →
    ((p.canonical appId c).2 = (p.canonical appId' c').2 ↔
      appId = appId' ∧ c.map p.normalize = c'.map p.normalize)
  bits : ∀ crypto appId c evidence, build crypto appId c = .ok evidence →
    ∀ i, evidence.componentMask.toNat.testBit i = true ↔
      ∃ value ∈ c.toList[i]?, p.normalize value ≠ []
  hashes : ∀ crypto appId c evidence, build crypto appId c = .ok evidence →
    evidence.aggregateHash = crypto.sha256Hex (p.utf8 (p.canonical appId c).2)
  fails : ∀ crypto appId c, (∃ e, build crypto appId c = .error e) ↔
    ∀ value ∈ c.toList, p.normalize value = []

theorem build_canonical {ε : Type} (failed : ε) : p.Canonical (p.build failed) where
  tells appId appId' c c' happ happ' := p.canonical_iff happ happ' c c'
  bits crypto appId c evidence h i := by
    rw [build_eq] at h
    obtain ⟨-, h⟩ := Outcome.guard_eq_ok.mp h
    obtain rfl := Except.ok.inj h
    exact p.bit_iff appId c i
  hashes crypto appId c evidence h := by
    rw [build_eq] at h
    obtain ⟨-, h⟩ := Outcome.guard_eq_ok.mp h
    obtain rfl := Except.ok.inj h
    rfl
  fails crypto appId c := by
    rw [← p.mask_eq_zero_iff appId c, build_eq]
    by_cases hzero : (p.canonical appId c).1 = 0
    · exact iff_of_true ⟨failed, if_pos hzero⟩ hzero
    · refine iff_of_false ?_ hzero
      rintro ⟨e, h⟩
      rw [if_neg hzero] at h
      cases h

end EvidencePort

/-! ## The four -/

namespace Cpp

/-- A byte that `append` leaves out. -/
def isBlankEvidence (byte : UInt8) : Bool := byte ≤ 0x20 || byte = 0x7f

/-- The value that `append` makes of a component. -/
def normalizeEvidence (raw : Bytes) : Bytes :=
  (raw.filter fun byte => ¬ isBlankEvidence byte).map lowerByte

theorem lowerByte_lt {b : UInt8} (h : b < 0x80) : lowerByte b < 0x80 := by
  rw [lowerByte]
  split
  · rename_i hletter
    simp only [UInt8.le_iff_toNat_le, UInt8.lt_iff_toNat_lt, UInt8.toNat_add] at h hletter ⊢
    simp at h hletter ⊢
    omega
  · exact h

theorem lowerByte_line {b : UInt8} (h : 0x0a = lowerByte b) : b = 0x0a := by
  rw [lowerByte] at h
  split at h
  · rename_i hletter
    simp only [UInt8.le_iff_toNat_le, ← UInt8.toNat_inj, UInt8.toNat_add] at h hletter
    simp at h hletter
    omega
  · exact h.symm

/-- The evidence of this SDK, as text of bytes. -/
def evidencePort : EvidencePort UInt8 where
  letter := id
  letter_injective := Function.injective_id
  normalize := normalizeEvidence
  normalize_line value hmem := by
    obtain ⟨b, hb, hline⟩ := List.mem_map.mp hmem
    have hkept := (List.mem_filter.mp hb).2
    rw [lowerByte_line hline.symm] at hkept
    revert hkept
    decide
  utf8 := id

/-- `build_hardware_evidence`. -/
def buildHardwareEvidence (crypto : Crypto) (appId : Bytes) (c : HardwareComponents Bytes) :
    Except Error HardwareEvidence :=
  evidencePort.build {
    kind := .identity
    statusCode := 0
    serviceCode := []
    message := ascii "device hardware evidence collection failed" } crypto appId c

end Cpp

namespace Go

/-- `normalizeEvidenceValue`. -/
def normalizeEvidenceValue (casing : Casing) (value : Bytes) : Bytes :=
  (casing.toLower value).filter fun byte => ¬ Cpp.isBlankEvidence byte

/-- The evidence of this SDK, as text of bytes. -/
def evidencePort (casing : Casing) : EvidencePort UInt8 where
  letter := id
  letter_injective := Function.injective_id
  normalize := normalizeEvidenceValue casing
  normalize_line value hmem := by
    have hkept := (List.mem_filter.mp hmem).2
    revert hkept
    decide
  utf8 := id

/-- `buildHardwareEvidence`. -/
def buildHardwareEvidence (casing : Casing) (crypto : Crypto) (appId : Bytes)
    (c : HardwareComponents Bytes) : Except Bytes Cpp.HardwareEvidence :=
  (evidencePort casing).build (ascii "device hardware evidence collection failed") crypto appId c

end Go

namespace CSharp

/-- What `BuildEvidence` uses of .NET: `char.ToLowerInvariant`, of which the action on ASCII is
fixed and that it makes a line feed of nothing else, and `Encoding.UTF8.GetBytes`. -/
structure EvidenceRuntime where
  toLowerInvariant : UInt16 → UInt16
  toLowerInvariant_ascii : ∀ b : UInt8, b < 0x80 →
    toLowerInvariant b.toUInt16 = (lowerByte b).toUInt16
  toLowerInvariant_line : ∀ c, toLowerInvariant c = 0x0a → c = 0x0a
  getBytes : Text → Bytes
  getBytes_units : ∀ bytes : Bytes, (∀ b ∈ bytes, b < 0x80) → getBytes (units bytes) = bytes

/-- `NormalizeEvidenceValue`. -/
def normalizeEvidenceValue (runtime : EvidenceRuntime) (value : Text) : Text :=
  (value.filter fun character => ¬ (character ≤ 0x20 || character = 0x7f : Bool)).map
    runtime.toLowerInvariant

/-- The evidence of this SDK, as text of UTF-16 units. -/
def evidencePort (runtime : EvidenceRuntime) : EvidencePort UInt16 where
  letter := UInt8.toUInt16
  letter_injective _ _ h := toUInt16_inj.mp h
  normalize := normalizeEvidenceValue runtime
  normalize_line value hmem := by
    obtain ⟨c, hc, hline⟩ := List.mem_map.mp hmem
    have hkept := (List.mem_filter.mp hc).2
    rw [runtime.toLowerInvariant_line c hline] at hkept
    revert hkept
    decide
  utf8 := runtime.getBytes

/-- `BuildEvidence`. -/
def buildEvidence (runtime : EvidenceRuntime) (crypto : Crypto) (appId : Text)
    (c : HardwareComponents Text) : Except Thrown Cpp.HardwareEvidence :=
  (evidencePort runtime).build (.swm {
    kind := .identity
    statusCode := 0
    serviceCode := []
    message := ascii "device hardware evidence collection failed" }) crypto appId c

end CSharp

namespace Rust

/-- `char::to_lowercase`, of which the action on ASCII is fixed and that it makes a line feed of
nothing else. -/
structure EvidenceCasing where
  toLowercase : Char → List Char
  toLowercase_ascii : ∀ b : UInt8, b < 0x80 →
    toLowercase (Char.ofNat b.toNat) = [Char.ofNat (lowerByte b).toNat]
  toLowercase_line : ∀ c, '\n' ∈ toLowercase c → c = '\n'

/-- `normalize_evidence`. -/
def normalizeEvidence (casing : EvidenceCasing) (value : List Char) : List Char :=
  (value.filter fun character => '\u0020' < character && character ≠ '\u007f').flatMap
    casing.toLowercase

/-- An ASCII text as a `str`. -/
def chars (text : Bytes) : List Char := text.map fun b => Char.ofNat b.toNat

theorem toNat_letter (b : UInt8) : (Char.ofNat b.toNat).toNat = b.toNat := by
  have hb := b.toNat_lt
  have hvalid : b.toNat.isValidChar := .inl (by omega)
  rw [Char.ofNat, dif_pos hvalid]
  rfl

/-- The evidence of this SDK, as text of characters. -/
def evidencePort (casing : EvidenceCasing) : EvidencePort Char where
  letter b := Char.ofNat b.toNat
  letter_injective a b h := by
    have hchar := congrArg Char.toNat h
    dsimp only at hchar
    rw [toNat_letter, toNat_letter] at hchar
    exact UInt8.toNat_inj.mp hchar
  normalize := normalizeEvidence casing
  normalize_line value hmem := by
    obtain ⟨c, hc, hline⟩ := List.mem_flatMap.mp hmem
    have hkept := (List.mem_filter.mp hc).2
    rw [casing.toLowercase_line c hline] at hkept
    revert hkept
    decide
  utf8 text := text.flatMap String.utf8EncodeChar

/-- `build_hardware_evidence`. -/
def buildHardwareEvidence (casing : EvidenceCasing) (crypto : Crypto) (appId : List Char)
    (c : HardwareComponents (List Char)) : Except (ErrorKind × Bytes) Cpp.HardwareEvidence :=
  (evidencePort casing).build (.identity, ascii "device hardware evidence collection failed")
    crypto appId c

end Rust

/-! ## ASCII -/

/-- A text of ASCII characters. -/
def AsciiText (text : Bytes) : Prop := ∀ b ∈ text, b < 0x80

namespace EvidencePort
variable {α : Type} (p : EvidencePort α)

/-- A string of the SDK. -/
def string (text : Bytes) : List α := text.map p.letter

/-- An SDK that treats ASCII as C++ does. -/
structure Plain : Prop where
  normalize : ∀ value, AsciiText value →
    p.normalize (p.string value) = p.string (Cpp.normalizeEvidence value)
  utf8 : ∀ text, AsciiText text → p.utf8 (p.string text) = text

variable {p}

/-- The loop writes the same text, letter by letter. -/
theorem Plain.foldl_append (h : p.Plain) {fields : List (UInt32 × Bytes × Bytes)}
    (hfields : ∀ field ∈ fields, AsciiText field.2.2) (mask : UInt32) (text : Bytes) :
    (fields.map fun field => (field.1, p.string field.2.1, p.string field.2.2)).foldl p.append
        (mask, p.string text) =
      ((fields.foldl Cpp.evidencePort.append (mask, text)).1,
        p.string (fields.foldl Cpp.evidencePort.append (mask, text)).2) := by
  induction fields generalizing mask text with
  | nil => rfl
  | cons field fields ih =>
    obtain ⟨bit, name, value⟩ := field
    obtain ⟨hvalue, hfields⟩ := List.forall_mem_cons.mp hfields
    have hround : p.append (mask, p.string text) (bit, p.string name, p.string value) =
        ((Cpp.evidencePort.append (mask, text) (bit, name, value)).1,
          p.string (Cpp.evidencePort.append (mask, text) (bit, name, value)).2) := by
      have hsame : Cpp.evidencePort.normalize value = Cpp.normalizeEvidence value := rfl
      unfold append
      dsimp only
      rw [h.normalize value hvalue, hsame]
      by_cases hblank : Cpp.normalizeEvidence value = []
      · rw [hblank]
        rfl
      · rw [if_neg hblank, if_neg (by simpa [string] using hblank)]
        simp [string, literal, Cpp.evidencePort]
    rw [List.map_cons, List.foldl_cons, List.foldl_cons, hround]
    exact ih hfields _ _

theorem normalizeEvidence_ascii {value : Bytes} (h : AsciiText value) :
    AsciiText (Cpp.normalizeEvidence value) := by
  intro b hb
  obtain ⟨c, hc, rfl⟩ := List.mem_map.mp hb
  exact Cpp.lowerByte_lt (h c (List.mem_filter.mp hc).1)

/-- A literal of ASCII characters. -/
theorem literal_ascii {text : String} (h : (ascii text).all (· < 0x80) = true) :
    AsciiText (Cpp.evidencePort.literal text) := by
  have hid : Cpp.evidencePort.literal text = ascii text := List.map_id _
  rw [hid]
  exact ascii_of_all h

/-- The loop adds ASCII to ASCII. -/
theorem foldl_append_ascii {fields : List (UInt32 × Bytes × Bytes)}
    (hfields : ∀ field ∈ fields, AsciiText field.2.1 ∧ AsciiText field.2.2) (mask : UInt32)
    {text : Bytes} (htext : AsciiText text) :
    AsciiText (fields.foldl Cpp.evidencePort.append (mask, text)).2 := by
  induction fields generalizing mask text with
  | nil => exact htext
  | cons field fields ih =>
    obtain ⟨bit, name, value⟩ := field
    obtain ⟨⟨hname, hvalue⟩, hfields⟩ := List.forall_mem_cons.mp hfields
    rw [List.foldl_cons]
    have hround : AsciiText (Cpp.evidencePort.append (mask, text) (bit, name, value)).2 := by
      unfold append
      dsimp only
      split
      · exact htext
      · intro b hb
        simp only [List.mem_append] at hb
        rcases hb with (((hb | hb) | hb) | hb) | hb
        · exact htext b hb
        · exact hname b hb
        · exact @literal_ascii ":" (by decide) b hb
        · exact normalizeEvidence_ascii hvalue b hb
        · exact @literal_ascii "\n" (by decide) b hb
    exact ih hfields _ hround

theorem canonical_ascii {appId : Bytes} {c : HardwareComponents Bytes} (happ : AsciiText appId)
    (hc : ∀ value ∈ c.toList, AsciiText value) :
    AsciiText (Cpp.evidencePort.canonical appId c).2 := by
  have hheading := @literal_ascii "device_hardware_evidence_v2\napp_id:" (by decide)
  have hline := @literal_ascii "\n" (by decide)
  refine foldl_append_ascii ?_ 0 ?_
  · simp only [HardwareComponents.toList, List.forall_mem_cons] at hc
    obtain ⟨hcpu, hmotherboard, hbios, hdisk, hmac, hguid, -⟩ := hc
    simp only [fields, List.forall_mem_cons, List.not_mem_nil, false_implies, implies_true,
      and_true]
    exact ⟨⟨literal_ascii (by decide), hcpu⟩, ⟨literal_ascii (by decide), hmotherboard⟩,
      ⟨literal_ascii (by decide), hbios⟩, ⟨literal_ascii (by decide), hdisk⟩,
      ⟨literal_ascii (by decide), hmac⟩, ⟨literal_ascii (by decide), hguid⟩⟩
  · intro b hb
    simp only [List.mem_append] at hb
    rcases hb with (hb | hb) | hb
    · exact hheading b hb
    · exact happ b hb
    · exact hline b hb

/-- **For ASCII the text is that of C++.** -/
theorem Plain.canonical (h : p.Plain) (appId : Bytes) {c : HardwareComponents Bytes}
    (hc : ∀ value ∈ c.toList, AsciiText value) :
    p.canonical (p.string appId) (c.map p.string) =
      ((Cpp.evidencePort.canonical appId c).1,
        p.string (Cpp.evidencePort.canonical appId c).2) := by
  have hfields : ∀ field ∈ Cpp.evidencePort.fields c, AsciiText field.2.2 := by
    simp only [fields, List.forall_mem_cons]
    simp only [HardwareComponents.toList, List.forall_mem_cons] at hc
    simpa using hc
  have hfold := h.foldl_append hfields 0
    (Cpp.evidencePort.literal "device_hardware_evidence_v2\napp_id:" ++ appId ++
      Cpp.evidencePort.literal "\n")
  have hfieldsEq : (Cpp.evidencePort.fields c).map
      (fun field => (field.1, p.string field.2.1, p.string field.2.2)) =
        p.fields (c.map p.string) := rfl
  have hheading : p.string (Cpp.evidencePort.literal "device_hardware_evidence_v2\napp_id:" ++
      appId ++ Cpp.evidencePort.literal "\n") =
        p.literal "device_hardware_evidence_v2\napp_id:" ++ p.string appId ++ p.literal "\n" := by
    simp [string, literal, Cpp.evidencePort]
  rw [hfieldsEq, hheading] at hfold
  exact hfold

/-- The call has the same result, but for the error. -/
theorem Plain.build (h : p.Plain) {ε : Type} (failed : ε) (crypto : Crypto) {appId : Bytes}
    {c : HardwareComponents Bytes} (happ : AsciiText appId)
    (hc : ∀ value ∈ c.toList, AsciiText value) :
    (p.build failed crypto (p.string appId) (c.map p.string)).toOption =
      (Cpp.buildHardwareEvidence crypto appId c).toOption := by
  unfold Cpp.buildHardwareEvidence
  rw [build_eq, build_eq, h.canonical appId hc, h.utf8 _ (canonical_ascii happ hc)]
  by_cases hzero : (Cpp.evidencePort.canonical appId c).1 = 0
  · rw [if_pos hzero, if_pos hzero]
    rfl
  · rw [if_neg hzero, if_neg hzero]
    rfl

end EvidencePort

/-- Lower case makes no blank and takes none away. -/
theorem isBlankEvidence_lower (b : UInt8) :
    Cpp.isBlankEvidence (lowerByte b) = Cpp.isBlankEvidence b := by
  rw [lowerByte]
  split
  · rename_i hletter
    rw [Bool.eq_iff_iff]
    simp only [Cpp.isBlankEvidence, Bool.or_eq_true, decide_eq_true_eq, UInt8.le_iff_toNat_le,
      ← UInt8.toNat_inj, UInt8.toNat_add] at hletter ⊢
    simp at hletter ⊢
    omega
  · rfl

theorem Go.evidencePort_plain (casing : Go.Casing) : (Go.evidencePort casing).Plain where
  normalize value hvalue := by
    have hid : (Go.evidencePort casing).string value = value := List.map_id _
    have hid' : (Go.evidencePort casing).string (Cpp.normalizeEvidence value) =
        Cpp.normalizeEvidence value := List.map_id _
    have hnormalize : (Go.evidencePort casing).normalize value =
        (casing.toLower value).filter fun byte => ¬ Cpp.isBlankEvidence byte := rfl
    rw [hid, hid', hnormalize, casing.toLower_ascii value hvalue, lower, List.filter_map]
    refine congrArg (List.map lowerByte) (List.filter_congr fun b _ => ?_)
    simp only [Function.comp_apply, isBlankEvidence_lower]
  utf8 text htext := List.map_id _

theorem CSharp.evidencePort_plain (runtime : CSharp.EvidenceRuntime) :
    (CSharp.evidencePort runtime).Plain where
  normalize value hvalue := by
    have hnormalize : (CSharp.evidencePort runtime).normalize (CSharp.units value) =
        ((CSharp.units value).filter fun character =>
          ¬ (character ≤ 0x20 || character = 0x7f : Bool)).map runtime.toLowerInvariant := rfl
    have hkept : (fun character : UInt16 =>
        decide ¬ (character ≤ 0x20 || character = 0x7f : Bool)) ∘ UInt8.toUInt16 =
        fun b => decide ¬ Cpp.isBlankEvidence b := by
      funext b
      simp only [Function.comp_apply, Cpp.isBlankEvidence, UInt16.le_iff_toNat_le,
        UInt8.le_iff_toNat_le, ← UInt16.toNat_inj, ← UInt8.toNat_inj, UInt8.toNat_toUInt16]
      rfl
    change (CSharp.evidencePort runtime).normalize (CSharp.units value) =
      CSharp.units (Cpp.normalizeEvidence value)
    rw [hnormalize, CSharp.units, List.filter_map, hkept, List.map_map, CSharp.units,
      Cpp.normalizeEvidence, List.map_map]
    refine List.map_congr_left fun b hb => ?_
    exact runtime.toLowerInvariant_ascii b (hvalue b (List.mem_filter.mp hb).1)
  utf8 text htext := runtime.getBytes_units text htext

theorem Rust.evidencePort_plain (casing : Rust.EvidenceCasing) :
    (Rust.evidencePort casing).Plain where
  normalize value hvalue := by
    have hnormalize : (Rust.evidencePort casing).normalize (Rust.chars value) =
        ((Rust.chars value).filter fun character =>
          '\u0020' < character && character ≠ '\u007f').flatMap casing.toLowercase := rfl
    have hkept : (fun character : Char =>
        decide ('\u0020' < character) && decide (character ≠ '\u007f')) ∘
        (fun b : UInt8 => Char.ofNat b.toNat) = fun b => decide ¬ Cpp.isBlankEvidence b := by
      funext b
      have hlow : '\u0020' < Char.ofNat b.toNat ↔ 0x20 < b.toNat := by
        rw [Char.lt_def, UInt32.lt_iff_toNat_lt]
        exact (congrArg (0x20 < ·) (Rust.toNat_letter b)).to_iff
      have hdel : Char.ofNat b.toNat = '\u007f' ↔ b.toNat = 0x7f := by
        rw [← Char.toNat_inj, Rust.toNat_letter]
        rfl
      rw [Function.comp_apply, ← Bool.decide_and, decide_eq_decide, ne_eq, hlow, hdel]
      simp only [Cpp.isBlankEvidence, Bool.or_eq_true, decide_eq_true_eq, UInt8.le_iff_toNat_le,
        ← UInt8.toNat_inj]
      simp
    change (Rust.evidencePort casing).normalize (Rust.chars value) =
      Rust.chars (Cpp.normalizeEvidence value)
    rw [hnormalize, Rust.chars, List.filter_map, hkept, List.flatMap_map, Rust.chars,
      Cpp.normalizeEvidence, List.map_map, List.map_eq_flatMap]
    refine List.flatMap_congr fun b hb => ?_
    exact casing.toLowercase_ascii b (hvalue b (List.mem_filter.mp hb).1)
  utf8 text htext := by
    change (Rust.chars text).flatMap String.utf8EncodeChar = text
    rw [Rust.chars, List.flatMap_map]
    have hone : ∀ b ∈ text, String.utf8EncodeChar (Char.ofNat b.toNat) = [b] := by
      intro b hb
      have hsmall := UInt8.lt_iff_toNat_lt.mp (htext b hb)
      have hletter := Rust.toNat_letter b
      rcases JsonGrammar.utf8EncodeChar_cases (Char.ofNat b.toNat) with
        ⟨-, h⟩ | ⟨hlarge, -⟩ | ⟨hlarge, -⟩ | ⟨hlarge, -⟩
      · rw [h, hletter, UInt8.ofNat_toNat]
      all_goals
        rw [hletter] at hlarge
        simp at hsmall
        omega
    rw [List.flatMap_congr hone]
    exact (List.map_eq_flatMap (f := id)).symm.trans (List.map_id _)

/-- **The text is canonical in each SDK, and for ASCII it is one text**: the mask, the text and the
evidence are the same. -/
theorem hardwareEvidence_canonical (casing : Go.Casing) (runtime : CSharp.EvidenceRuntime)
    (lowercase : Rust.EvidenceCasing) :
    Cpp.evidencePort.Canonical Cpp.buildHardwareEvidence ∧
    (Go.evidencePort casing).Canonical (Go.buildHardwareEvidence casing) ∧
    (CSharp.evidencePort runtime).Canonical (CSharp.buildEvidence runtime) ∧
    (Rust.evidencePort lowercase).Canonical (Rust.buildHardwareEvidence lowercase) ∧
    ∀ crypto appId c, AsciiText appId → (∀ value ∈ c.toList, AsciiText value) →
      (Go.evidencePort casing).canonical appId c = Cpp.evidencePort.canonical appId c ∧
      (CSharp.evidencePort runtime).canonical (CSharp.units appId) (c.map CSharp.units) =
        ((Cpp.evidencePort.canonical appId c).1,
          CSharp.units (Cpp.evidencePort.canonical appId c).2) ∧
      (Rust.evidencePort lowercase).canonical (Rust.chars appId) (c.map Rust.chars) =
        ((Cpp.evidencePort.canonical appId c).1,
          Rust.chars (Cpp.evidencePort.canonical appId c).2) ∧
      (Go.buildHardwareEvidence casing crypto appId c).toOption =
        (Cpp.buildHardwareEvidence crypto appId c).toOption ∧
      (CSharp.buildEvidence runtime crypto (CSharp.units appId) (c.map CSharp.units)).toOption =
        (Cpp.buildHardwareEvidence crypto appId c).toOption ∧
      (Rust.buildHardwareEvidence lowercase crypto (Rust.chars appId)
          (c.map Rust.chars)).toOption =
        (Cpp.buildHardwareEvidence crypto appId c).toOption := by
  refine ⟨EvidencePort.build_canonical _ _, EvidencePort.build_canonical _ _,
    EvidencePort.build_canonical _ _, EvidencePort.build_canonical _ _, ?_⟩
  intro crypto appId c happ hc
  have hgo := Go.evidencePort_plain casing
  have hcsharp := CSharp.evidencePort_plain runtime
  have hrust := Rust.evidencePort_plain lowercase
  have hid : ∀ text : Bytes, (Go.evidencePort casing).string text = text := fun _ => List.map_id _
  have hids : c.map (Go.evidencePort casing).string = c := by
    rw [funext hid]
    rfl
  refine ⟨?_, hcsharp.canonical appId hc, hrust.canonical appId hc, ?_, ?_, ?_⟩
  · have hcanonical := hgo.canonical appId hc
    rw [hid, hid, hids] at hcanonical
    exact hcanonical
  · have hbuild := hgo.build (ascii "device hardware evidence collection failed") crypto happ hc
    rw [hid, hids] at hbuild
    exact hbuild
  · exact hcsharp.build _ crypto happ hc
  · exact hrust.build _ crypto happ hc

/-! Runtimes that know ASCII only. -/

/-- A runtime that changes the case of ASCII letters only. -/
def CSharp.asciiEvidenceRuntime : CSharp.EvidenceRuntime where
  toLowerInvariant c := if 0x41 ≤ c ∧ c ≤ 0x5a then c + 0x20 else c
  toLowerInvariant_ascii b hb := by
    have hall : ∀ n < 128, (if 0x41 ≤ (UInt8.ofNat n).toUInt16 ∧ (UInt8.ofNat n).toUInt16 ≤ 0x5a
        then (UInt8.ofNat n).toUInt16 + 0x20 else (UInt8.ofNat n).toUInt16) =
          (lowerByte (UInt8.ofNat n)).toUInt16 := by decide
    have hb' := hall b.toNat (UInt8.lt_iff_toNat_lt.mp hb)
    rwa [UInt8.ofNat_toNat] at hb'
  toLowerInvariant_line c h := by
    split at h
    · rename_i hletter
      simp only [UInt16.le_iff_toNat_le, ← UInt16.toNat_inj, UInt16.toNat_add] at h hletter
      simp at h hletter
      omega
    · exact h
  getBytes text := text.map UInt16.toUInt8
  getBytes_units bytes _ := by
    rw [CSharp.units, List.map_map]
    exact List.map_id'' (fun b => UInt8.toNat_inj.mp (by simp)) _

/-- A library that changes the case of ASCII letters only. -/
def Rust.asciiCasing : Rust.EvidenceCasing where
  toLowercase c :=
    if c.toNat < 0x80 then [Char.ofNat (lowerByte (UInt8.ofNat c.toNat)).toNat] else [c]
  toLowercase_ascii b hb := by
    have hsmall : b.toNat < 0x80 := UInt8.lt_iff_toNat_lt.mp hb
    rw [Rust.toNat_letter, if_pos hsmall, UInt8.ofNat_toNat]
  toLowercase_line c h := by
    split at h
    · rename_i hsmall
      have hline := congrArg Char.toNat (List.mem_singleton.mp h)
      rw [Rust.toNat_letter] at hline
      have hbyte := Cpp.lowerByte_line (UInt8.toNat_inj.mp hline)
      have hten := congrArg UInt8.toNat hbyte
      rw [UInt8.toNat_ofNat'] at hten
      refine Char.toNat_inj.mp ?_
      change c.toNat = 10
      have hten' : c.toNat % 256 = 10 := hten
      omega
    · exact (List.mem_singleton.mp h).symm

/-- A processor, a board that is blank, and a value that looks like another line. -/
def sampleComponents : HardwareComponents Bytes where
  cpu := ascii "Intel_Core i7"
  motherboard := ascii " \t"
  bios := ascii "SN:1"
  disk := ascii "mac:0"
  mac := []
  machineGuid := ascii "{9F}"

/-- The sample has the mask 0x2d in each SDK. -/
theorem hardwareEvidence_canonical_sample :
    (Rust.evidencePort Rust.asciiCasing).canonical (Rust.chars (ascii "app"))
        (sampleComponents.map Rust.chars) =
      (0x2d, Rust.chars (ascii ("device_hardware_evidence_v2\napp_id:app\ncpu:intel_corei7\n" ++
        "smbios:sn:1\ndisk:mac:0\nmachine_guid:\x7b9f\x7d\n"))) := by
  have happ : AsciiText (ascii "app") := ascii_of_all (by decide)
  have hsample : ∀ value ∈ sampleComponents.toList, AsciiText value := by
    intro value hvalue
    have hall : ∀ value ∈ sampleComponents.toList, value.all (· < 0x80) = true := by decide
    exact ascii_of_all (hall value hvalue)
  have hsame := (hardwareEvidence_canonical asciiCasing CSharp.asciiEvidenceRuntime
    Rust.asciiCasing).2.2.2.2 (listedCrypto [] []) (ascii "app") sampleComponents happ hsample
  rw [hsame.2.2.1]
  decide

end SwmSdk
