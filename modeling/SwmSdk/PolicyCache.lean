import SwmSdk.ClientOptions
import SwmSdk.OfflineBudget

/-! # The cached integrity policy

Whether host integrity is required is kept in the file `integrity-policy.bin`, which the SDKs
share: a few lines with the options that the value is for.  Go and C# leave the line of a missing
version code empty; C++ writes and expects a zero there.

A value that one SDK wrote is read back by another under the same options, and under no others,
after every run of writes, exactly when the C++ side of the pair does not take a missing version
code for a zero (`policy_interchange_iff`).
-/
namespace SwmSdk
open ByteText

/-- The options that a policy is cached for. -/
structure PolicyOptions where
  appId : Bytes
  releaseId : Bytes
  versionCode : Option Nat
  app_valid : Cpp.validUuid appId = true
  release_valid : Cpp.validUuid releaseId = true
  deriving DecidableEq

/-- The app and the release of two options are the same. -/
def PolicyOptions.SameRelease (first second : PolicyOptions) : Prop :=
  first.appId = second.appId ∧ first.releaseId = second.releaseId

instance (first second : PolicyOptions) : Decidable (first.SameRelease second) :=
  inferInstanceAs (Decidable (_ ∧ _))

theorem PolicyOptions.eq_iff {first second : PolicyOptions} :
    first = second ↔ first.SameRelease second ∧ first.versionCode = second.versionCode := by
  unfold SameRelease
  constructor
  · rintro rfl
    exact ⟨⟨rfl, rfl⟩, rfl⟩
  · cases first
    cases second
    rintro ⟨⟨rfl, rfl⟩, rfl⟩
    rfl

/-! ## The lines of the file -/

def policyHeader : Bytes := ascii "SwmSdkIntegrityPolicyV1"

/-- `required ? "1" : "0"`. -/
def flagText (required : Bool) : Bytes := if required then ascii "1" else ascii "0"

/-- `join_lines`. -/
def joinLines (lines : List Bytes) : Bytes := lines.flatMap (· ++ [newline])

/-- The value of a file for the options that are asked for, in the characters of the SDK. -/
def policyOf {α : Type} [DecidableEq α] (header app release versionCode one zero : α)
    (lines : List α) : Option Bool :=
  match lines with
  | first :: required :: second :: third :: fourth :: _ =>
      if first ≠ header ∨ second ≠ app ∨ third ≠ release ∨ fourth ≠ versionCode then none
      else if required = one then some true
      else if required = zero then some false
      else none
  | _ => none

namespace Cpp

/-- `std::to_string(options_.version_code.value_or(0))`. -/
def policyCodeText (versionCode : Option Nat) : Bytes := decimal (versionCode.getD 0 : Nat)

/-- The lines that `std::getline` reads: none after the last line break. -/
def getLines (text : Bytes) : List Bytes :=
  if (text.splitOn newline).getLast? = some [] then (text.splitOn newline).dropLast
  else text.splitOn newline

/-- `read_cached_policy`. -/
def readCachedPolicy (options : PolicyOptions) (file : Option Bytes) : Option Bool :=
  file.bind fun text =>
    policyOf policyHeader options.appId options.releaseId (policyCodeText options.versionCode)
      (ascii "1") (ascii "0") (getLines text)

/-- `store_policy`, at a tick of the system. -/
def storePolicy (options : PolicyOptions) (required : Bool) (tick : Int) (_ : Option Bytes) :
    Option Bytes :=
  some (joinLines [policyHeader, flagText required, options.appId, options.releaseId,
    policyCodeText options.versionCode, decimal tick])

end Cpp

namespace Go

/-- `versionCodeString`. -/
def versionCodeString : Option Nat → Bytes
  | none => []
  | some n => decimal n

/-- `readCachedPolicy`. -/
def readCachedPolicy (options : PolicyOptions) (file : Option Bytes) : Option Bool :=
  file.bind fun text =>
    policyOf policyHeader options.appId options.releaseId (versionCodeString options.versionCode)
      (ascii "1") (ascii "0") (text.splitOn newline)

/-- `storePolicy`, at a time of the system. -/
def storePolicy (options : PolicyOptions) (required : Bool) (now : Int) (file : Option Bytes) :
    Option Bytes :=
  if readCachedPolicy options file = some required then file
  else some ([newline].intercalate [policyHeader, flagText required, options.appId,
    options.releaseId, versionCodeString options.versionCode, decimal now] ++ [newline])

end Go

namespace CSharp

/-- `VersionCode?.ToString(CultureInfo.InvariantCulture) ?? string.Empty`. -/
def versionCodeText : Option Nat → Bytes
  | none => []
  | some n => decimal n

/-- `ReadCachedPolicy`. -/
def readCachedPolicy (options : PolicyOptions) (file : Option Bytes) : Option Bool :=
  file.bind fun text =>
    policyOf (units policyHeader) (units options.appId) (units options.releaseId)
      (units (versionCodeText options.versionCode)) (units (ascii "1")) (units (ascii "0"))
      ((getString text).splitOn 0x0a)

/-- `StorePolicy`; the text is ASCII, so that `Encoding.UTF8` gives a byte for each character. -/
def storePolicy (options : PolicyOptions) (required : Bool) (now : Int) (file : Option Bytes) :
    Option Bytes :=
  if readCachedPolicy options file = some required then file
  else some ([newline].intercalate [policyHeader, flagText required, options.appId,
    options.releaseId, versionCodeText options.versionCode, decimal now] ++ [newline])

end CSharp

/-! ## The SDKs that share the file -/

/-- The SDKs that share the policy file. -/
inductive PolicySdk where
  | cpp | go | csharp
  deriving DecidableEq, Repr

namespace PolicySdk

/-- How an SDK writes the version code. -/
def codeText : PolicySdk → Option Nat → Bytes
  | cpp => Cpp.policyCodeText
  | go => Go.versionCodeString
  | csharp => CSharp.versionCodeText

/-- What the SDK reads from the file. -/
def read : PolicySdk → PolicyOptions → Option Bytes → Option Bool
  | cpp => Cpp.readCachedPolicy
  | go => Go.readCachedPolicy
  | csharp => CSharp.readCachedPolicy

/-- The file after the SDK stored a policy. -/
def store : PolicySdk → PolicyOptions → Bool → Int → Option Bytes → Option Bytes
  | cpp => Cpp.storePolicy
  | go => Go.storePolicy
  | csharp => CSharp.storePolicy

end PolicySdk

/-- A call that stores the policy. -/
structure PolicyWrite where
  sdk : PolicySdk
  options : PolicyOptions
  required : Bool
  clock : Int

namespace PolicyWrite

/-- The file after a write. -/
def apply (file : Option Bytes) (write : PolicyWrite) : Option Bytes :=
  write.sdk.store write.options write.required write.clock file

/-- The file after a run of writes. -/
def run (writes : List PolicyWrite) : Option Bytes := writes.foldl apply none

theorem run_concat (writes : List PolicyWrite) (write : PolicyWrite) :
    run (writes ++ [write]) = apply (run writes) write := by
  rw [run, List.foldl_append]
  rfl

/-- The lines of a write. -/
def lines (write : PolicyWrite) : List Bytes :=
  [policyHeader, flagText write.required, write.options.appId, write.options.releaseId,
    write.sdk.codeText write.options.versionCode, decimal write.clock]

end PolicyWrite

/-! ## What is written is read back -/

/-- A byte that the lines of the file may hold. -/
def PlainByte (b : UInt8) : Prop := b < 0x80 ∧ b ≠ newline

theorem plain_decimal (n : Int) : ∀ b ∈ decimal n, PlainByte b := by
  intro b hb
  refine ⟨?_, fun h => newline_notMem_decimal n (h ▸ hb)⟩
  rw [UInt8.lt_iff_toNat_lt]
  rcases ascii_decimal _ b hb with hdigit | rfl
  · exact Nat.lt_of_le_of_lt hdigit.2 (by decide)
  · decide

theorem Cpp.plain_of_validUuid {value : Bytes} (h : validUuid value = true) :
    ∀ b ∈ value, PlainByte b := by
  have hdigit : ∀ d, (hexValue d).isSome = true → PlainByte d := by
    intro d hd
    have hrange : 48 ≤ d.toNat ∧ d.toNat ≤ 102 := by
      by_contra hout
      have hnone : hexValue d = none := by
        have h48 : (48 : UInt8).toNat = 48 := rfl
        have h57 : (57 : UInt8).toNat = 57 := rfl
        have h65 : (65 : UInt8).toNat = 65 := rfl
        have h70 : (70 : UInt8).toNat = 70 := rfl
        have h97 : (97 : UInt8).toNat = 97 := rfl
        have h102 : (102 : UInt8).toNat = 102 := rfl
        simp only [hexValue, UInt8.le_iff_toNat_le, h48, h57, h65, h70, h97, h102]
        rw [if_neg (by omega), if_neg (by omega), if_neg (by omega)]
      rw [hnone] at hd
      cases hd
    refine ⟨UInt8.lt_iff_toNat_lt.mpr (Nat.lt_of_le_of_lt hrange.2 (by decide)), ?_⟩
    rintro rfl
    exact absurd hrange.1 (by decide)
  have hdash : PlainByte 0x2d := by
    unfold PlainByte
    decide
  obtain ⟨first, second, third, fourth, fifth, rfl, -, -, -, -, -, hdigits⟩ := validUuid_groups h
  intro b hb
  simp only [List.mem_append, List.mem_cons] at hb hdigits
  rcases hb with hb | rfl | hb | rfl | hb | rfl | hb | rfl | hb
  · exact hdigit b (hdigits b (.inl hb))
  · exact hdash
  · exact hdigit b (hdigits b (.inr (.inl hb)))
  · exact hdash
  · exact hdigit b (hdigits b (.inr (.inr (.inl hb))))
  · exact hdash
  · exact hdigit b (hdigits b (.inr (.inr (.inr (.inl hb)))))
  · exact hdash
  · exact hdigit b (hdigits b (.inr (.inr (.inr (.inr hb)))))

theorem PolicySdk.plain_codeText (sdk : PolicySdk) (versionCode : Option Nat) :
    ∀ b ∈ sdk.codeText versionCode, PlainByte b := by
  have hmissing : ∀ b ∈ ([] : Bytes), PlainByte b := fun b hb => absurd hb List.not_mem_nil
  cases sdk with
  | cpp => exact plain_decimal (versionCode.getD 0 : Nat)
  | go =>
    cases versionCode with
    | none => exact hmissing
    | some n => exact plain_decimal n
  | csharp =>
    cases versionCode with
    | none => exact hmissing
    | some n => exact plain_decimal n

theorem PolicyWrite.plain_lines (write : PolicyWrite) :
    ∀ line ∈ write.lines, ∀ b ∈ line, PlainByte b := by
  have hheader : ∀ b ∈ policyHeader, PlainByte b := by
    have hall : policyHeader.all (fun b => b < 0x80 ∧ b ≠ newline) = true := by decide
    intro b hb
    simpa [PlainByte] using List.all_eq_true.mp hall b hb
  have hflag : ∀ b ∈ flagText write.required, PlainByte b := by
    have hall : ∀ required, (flagText required).all (fun b => b < 0x80 ∧ b ≠ newline) = true := by
      decide
    intro b hb
    simpa [PlainByte] using List.all_eq_true.mp (hall _) b hb
  intro line hline
  simp only [PolicyWrite.lines, List.mem_cons, List.not_mem_nil, or_false] at hline
  rcases hline with rfl | rfl | rfl | rfl | rfl | rfl
  · exact hheader
  · exact hflag
  · exact Cpp.plain_of_validUuid write.options.app_valid
  · exact Cpp.plain_of_validUuid write.options.release_valid
  · exact write.sdk.plain_codeText _
  · exact plain_decimal _

theorem joinLines_splitOn {lines : List Bytes} (h : ∀ line ∈ lines, newline ∉ line) :
    (joinLines lines).splitOn newline = lines ++ [[]] := by
  induction lines with
  | nil => rfl
  | cons line lines ih =>
    rw [joinLines, List.flatMap_cons, List.append_assoc, List.singleton_append,
      List.splitOn_append_cons_self_of_not_mem (h line (List.mem_cons_self ..)), ← joinLines,
      ih fun other hother => h other (List.mem_cons_of_mem _ hother)]
    rfl

/-- A separator between the lines and one more at the end: one after each line. -/
theorem intercalate_newline (line : Bytes) (lines : List Bytes) :
    [newline].intercalate (line :: lines) ++ [newline] = joinLines (line :: lines) := by
  induction lines generalizing line with
  | nil => simp [joinLines, List.intercalate]
  | cons next lines ih =>
    rw [List.intercalate_cons_cons, List.append_assoc, List.append_assoc, ih]
    simp [joinLines]

namespace PolicyWrite

/-- The text of a write. -/
def text (write : PolicyWrite) : Bytes := joinLines write.lines

theorem text_splitOn (write : PolicyWrite) : write.text.splitOn newline = write.lines ++ [[]] :=
  joinLines_splitOn fun line hline hnewline => (write.plain_lines line hline _ hnewline).2 rfl

theorem getLines_text (write : PolicyWrite) : Cpp.getLines write.text = write.lines := by
  rw [Cpp.getLines, text_splitOn, List.getLast?_concat, if_pos rfl, List.dropLast_concat]

theorem ascii_text (write : PolicyWrite) : ∀ b ∈ write.text, b < 0x80 := by
  intro b hb
  rw [text, joinLines, List.mem_flatMap] at hb
  obtain ⟨line, hline, hb⟩ := hb
  rcases List.mem_append.mp hb with hb | hb
  · exact (write.plain_lines line hline b hb).1
  · rw [List.mem_singleton.mp hb]
    decide

end PolicyWrite

/-- The flag decides the value. -/
theorem policyOf_lines {α : Type} [DecidableEq α]
    {header app release versionCode one zero app' release' versionCode' : α} {rest : List α}
    (hne : zero ≠ one) (required : Bool) :
    policyOf header app release versionCode one zero
        (header :: (if required then one else zero) :: app' :: release' :: versionCode' :: rest) =
      if app' = app ∧ release' = release ∧ versionCode' = versionCode then some required
      else none := by
  by_cases h : app' = app ∧ release' = release ∧ versionCode' = versionCode
  · obtain ⟨rfl, rfl, rfl⟩ := h
    cases required with
    | true => simp [policyOf]
    | false => simp [policyOf, hne]
  · rw [if_neg h, policyOf, if_pos]
    tauto

/-- **What an SDK reads of a write**: its value, when the app, the release and the line of the
version code are those that it expects. -/
theorem PolicySdk.read_text (sdk : PolicySdk) (options : PolicyOptions) (write : PolicyWrite) :
    sdk.read options (some write.text) =
      if write.options.SameRelease options ∧
          write.sdk.codeText write.options.versionCode = sdk.codeText options.versionCode then
        some write.required
      else none := by
  have hlines : ∀ rest, write.lines ++ rest = policyHeader ::
      (if write.required then ascii "1" else ascii "0") :: write.options.appId ::
      write.options.releaseId :: write.sdk.codeText write.options.versionCode ::
      (decimal write.clock :: rest) := fun _ => rfl
  have hread : ∀ rest, policyOf policyHeader options.appId options.releaseId
      (sdk.codeText options.versionCode) (ascii "1") (ascii "0") (write.lines ++ rest) =
        if write.options.SameRelease options ∧
            write.sdk.codeText write.options.versionCode = sdk.codeText options.versionCode then
          some write.required
        else none := by
    intro rest
    rw [hlines, policyOf_lines (by decide)]
    simp only [PolicyOptions.SameRelease, and_assoc]
  cases sdk with
  | cpp =>
    -- `getline` gives no line after the last newline, the other two an empty one
    rw [read, Cpp.readCachedPolicy, Option.bind_some, write.getLines_text,
      ← List.append_nil write.lines]
    exact hread []
  | go =>
    rw [read, Go.readCachedPolicy, Option.bind_some, write.text_splitOn]
    exact hread [[]]
  | csharp =>
    -- the lines are compared as UTF-16
    have hunits : (CSharp.getString write.text).splitOn 0x0a =
        (write.text.splitOn newline).map CSharp.units := by
      rw [CSharp.getString_ascii write.ascii_text]
      exact CSharp.units_splitOn write.text newline
    have hflag : CSharp.units (if write.required then ascii "1" else ascii "0") =
        if write.required then CSharp.units (ascii "1") else CSharp.units (ascii "0") :=
      apply_ite ..
    have hinj : ∀ first second : Bytes, CSharp.units first = CSharp.units second ↔
        first = second := fun first second => ⟨CSharp.units_injective, congrArg _⟩
    rw [read, CSharp.readCachedPolicy, Option.bind_some, hunits, write.text_splitOn, hlines]
    simp only [List.map_cons]
    rw [hflag, policyOf_lines (by decide)]
    simp only [hinj, PolicyOptions.SameRelease, and_assoc]
    rfl

/-- A write leaves its own text, or a file that it reads as its value already. -/
theorem PolicyWrite.apply_eq (file : Option Bytes) (write : PolicyWrite) :
    apply file write = some write.text ∨
      apply file write = file ∧ write.sdk.read write.options file = some write.required := by
  obtain ⟨sdk, options, required, clock⟩ := write
  cases sdk with
  | cpp => exact .inl rfl
  | go =>
    unfold apply PolicySdk.store Go.storePolicy
    dsimp only
    split
    · rename_i hcached
      exact .inr ⟨rfl, hcached⟩
    · exact .inl (congrArg some (intercalate_newline _ _))
  | csharp =>
    unfold apply PolicySdk.store CSharp.storePolicy
    dsimp only
    split
    · rename_i hcached
      exact .inr ⟨rfl, hcached⟩
    · exact .inl (congrArg some (intercalate_newline _ _))

/-- The file holds nothing or the text of some write. -/
theorem PolicyWrite.run_text (writes : List PolicyWrite) :
    run writes = none ∨ ∃ write : PolicyWrite, run writes = some write.text := by
  induction writes using List.reverseRecOn with
  | nil => exact .inl rfl
  | append_singleton writes write ih =>
    rw [run_concat]
    rcases apply_eq (run writes) write with htext | ⟨hsame, -⟩
    · exact .inr ⟨write, htext⟩
    · rw [hsame]
      exact ih

/-- **What an SDK reads after a write of another**, whatever was written before. -/
theorem PolicyWrite.read_run (sdk : PolicySdk) (options : PolicyOptions)
    (before : List PolicyWrite) (write : PolicyWrite) :
    sdk.read options (run (before ++ [write])) =
      if write.options.SameRelease options ∧
          write.sdk.codeText write.options.versionCode = sdk.codeText options.versionCode then
        some write.required
      else none := by
  rw [run_concat]
  rcases apply_eq (run before) write with htext | ⟨hsame, hcached⟩
  · rw [htext, sdk.read_text]
  · rw [hsame]
    rcases run_text before with hnone | ⟨first, hfirst⟩
    · -- no file is read as a value
      have hread : write.sdk.read write.options none = none := by
        cases write.sdk with
        | cpp => rfl
        | go => rfl
        | csharp => rfl
      rw [hnone, hread] at hcached
      cases hcached
    · rw [hfirst, PolicySdk.read_text] at hcached
      rw [hfirst, PolicySdk.read_text]
      split at hcached
      · rename_i hmatch
        obtain ⟨⟨happ, hrelease⟩, hcode⟩ := hmatch
        rw [hcached]
        refine if_congr ?_ rfl rfl
        unfold PolicyOptions.SameRelease
        rw [happ, hrelease, hcode]
      · cases hcached

/-! ## The interchange -/

/-- The C++ side of a pair takes the missing version code of one of the two options for a zero,
and the other option is a zero, or missing under an SDK that leaves the line empty. -/
def Confuses (writer reader : PolicySdk) (written asked : Option Nat) : Prop :=
  (writer = .cpp ∧ written = none ∧ (asked = some 0 ∨ reader ≠ .cpp ∧ asked = none)) ∨
    (reader = .cpp ∧ asked = none ∧ (written = some 0 ∨ writer ≠ .cpp ∧ written = none))

/-- The lines of two version codes are alike as the codes are, but for what C++ confuses. -/
theorem codeText_iff (writer reader : PolicySdk) (written asked : Option Nat) :
    (writer.codeText written = reader.codeText asked ↔ written = asked) ↔
      ¬ Confuses writer reader written asked := by
  -- of the texts of numbers it only matters that they differ, and that none is empty
  obtain ⟨number, hinj, hempty, hcpp, hsome⟩ : ∃ number : Nat → Bytes,
      (∀ m n, number m = number n ↔ m = n) ∧ (∀ n, number n ≠ []) ∧
      (∀ code, PolicySdk.cpp.codeText code = number (code.getD 0)) ∧
      ∀ (sdk : PolicySdk) n, sdk.codeText (some n) = number n := by
    refine ⟨fun n => decimal n, fun m n => ?_, fun n => decimal_ne_nil n, fun _ => rfl, ?_⟩
    · exact ⟨fun h => Int.ofNat_inj.mp (decimal_inj h), fun h => by rw [h]⟩
    · intro sdk n
      cases sdk with
      | cpp => rfl
      | go => rfl
      | csharp => rfl
  have hempty' : ∀ n, [] ≠ number n := fun n => (hempty n).symm
  have hnone : ∀ sdk : PolicySdk, sdk ≠ .cpp → sdk.codeText none = [] := by
    intro sdk hsdk
    cases sdk with
    | cpp => exact absurd rfl hsdk
    | go => rfl
    | csharp => rfl
  unfold Confuses
  by_cases hwriter : writer = .cpp
  · by_cases hreader : reader = .cpp
    · rw [hwriter, hreader]
      cases written <;> cases asked <;> simp [hcpp, hinj, eq_comm]
    · rw [hwriter]
      cases written <;> cases asked <;>
        simp [hcpp, hinj, hnone reader hreader, hsome, hempty, hreader, eq_comm]
  · by_cases hreader : reader = .cpp
    · rw [hreader]
      cases written <;> cases asked <;>
        simp [hcpp, hinj, hnone writer hwriter, hsome, hempty', hwriter]
    · cases written <;> cases asked <;>
        simp [hinj, hnone writer hwriter, hnone reader hreader, hsome, hempty, hempty', hwriter,
          hreader]

/-- **When two SDKs exchange the policy**: after every run of writes, a value of the writer is read
under the same options and under no others, exactly when the options are for different releases
or the pair does not confuse their version codes. -/
theorem policy_interchange_iff (writer reader : PolicySdk) (written asked : PolicyOptions) :
    (∀ (before : List PolicyWrite) (required : Bool) (clock : Int),
      reader.read asked (PolicyWrite.run (before ++ [⟨writer, written, required, clock⟩])) =
        if written = asked then some required else none) ↔
    (written.SameRelease asked →
      ¬ Confuses writer reader written.versionCode asked.versionCode) := by
  rw [← imp_congr_right fun _ => codeText_iff writer reader written.versionCode asked.versionCode]
  constructor
  · intro h hsame
    have hread := h [] true 0
    rw [PolicyWrite.read_run] at hread
    by_cases hcode : writer.codeText written.versionCode = reader.codeText asked.versionCode
    · rw [if_pos ⟨hsame, hcode⟩] at hread
      split at hread
      · rename_i heq
        exact iff_of_true hcode (PolicyOptions.eq_iff.mp heq).2
      · cases hread
    · rw [if_neg fun hmatch => hcode hmatch.2] at hread
      split at hread
      · cases hread
      · rename_i hne
        exact iff_of_false hcode fun hversion => hne (PolicyOptions.eq_iff.mpr ⟨hsame, hversion⟩)
  · intro h before required clock
    rw [PolicyWrite.read_run]
    refine if_congr ?_ rfl rfl
    rw [PolicyOptions.eq_iff]
    exact and_congr_right h

/-! The same options, without a version code, under C++ and Go. -/

/-- Options without a version code. -/
def samplePolicyOptions : PolicyOptions where
  appId := ascii "00000000-0000-0000-0000-000000000001"
  releaseId := ascii "00000000-0000-0000-0000-000000000002"
  versionCode := none
  app_valid := by decide
  release_valid := by decide

/-- A policy that C++ wrote is read by Go as no value. -/
theorem policy_lost :
    ¬ ∀ (writer reader : PolicySdk) (written asked : PolicyOptions) (before : List PolicyWrite)
      (required : Bool) (clock : Int),
      reader.read asked (PolicyWrite.run (before ++ [⟨writer, written, required, clock⟩])) =
        if written = asked then some required else none := by
  intro h
  have hread := h .cpp .go samplePolicyOptions samplePolicyOptions [] true 0
  rw [if_pos rfl] at hread
  exact absurd hread (by decide)

end SwmSdk
