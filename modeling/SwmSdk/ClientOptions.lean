import SwmSdk.Download
import SwmSdk.Json
import SwmSdk.Rim2Ports

/-! # The options of the C++ client

The constructor copies its options into the pipeline before it checks them and before it puts
the architecture of the process for an empty one; so a client has two copies (`Client`), which
agree exactly when an architecture was given (`create_arch_iff`).
-/
namespace SwmSdk
namespace Cpp
open ByteText Outcome

/-! ## Key material -/

/-- The error of options that are refused. -/
def configurationError (message : String) : Error where
  kind := .configuration
  statusCode := 0
  serviceCode := []
  message := ascii message

/-- `hex_decode`. -/
def hexDecode (value : Bytes) : Except Error Bytes :=
  match unhex value with
  | none => .error (configurationError "invalid hex value")
  | some bytes => .ok bytes

/-- The number of a digit of either alphabet. -/
def base64urlDigit (b : UInt8) : Option UInt32 :=
  if 65 ≤ b ∧ b ≤ 90 then some (b.toUInt32 - 65)
  else if 97 ≤ b ∧ b ≤ 122 then some (b.toUInt32 - 71)
  else if 48 ≤ b ∧ b ≤ 57 then some (b.toUInt32 + 4)
  else if b = 0x2d ∨ b = 0x2b then some 62
  else if b = 0x5f ∨ b = 0x2f then some 63
  else none

/-- The loop of `base64url_decode`, with its accumulator and the number of bits that wait. -/
def base64urlLoop (accumulator : UInt32) (bits : Nat) : Bytes → Except Error Bytes
  | [] => .ok []
  | c :: rest =>
      if c = 0x3d then .ok []
      else
        match base64urlDigit c with
        | none => .error (configurationError "invalid base64url value")
        | some decoded =>
            let accumulator := (accumulator <<< 6) ||| decoded
            let bits := bits + 6
            if bits ≥ 8 then do
              let output ← base64urlLoop accumulator (bits - 8) rest
              .ok ((accumulator >>> UInt32.ofNat (bits - 8)).toUInt8 :: output)
            else base64urlLoop accumulator bits rest

/-- `base64url_decode`. -/
def base64urlDecode (value : Bytes) : Except Error Bytes := base64urlLoop 0 0 value

/-- `decode_key_material`. -/
def decodeKeyMaterial (value : Bytes) : Except Error Bytes :=
  let cleaned := trimAscii value
  if cleaned = [] then .error (configurationError "empty key material")
  else if cleaned.length % 2 = 0 && cleaned.all fun b => (hexValue b).isSome then
    hexDecode cleaned
  else base64urlDecode cleaned

/-! ## The options -/

/-- `HostIntegrityOptions`: the root by its wide text, the path of the manifest by its narrow
one. -/
structure HostIntegrityOptions where
  enabled : Bool
  packageRoot : List UInt16
  manifestPath : Bytes
  evidenceProvider : Option (Json → Except Failure Json)

/-- `ClientOptions`, less the directory of the state and the address of the web console. -/
structure ClientOptions where
  baseUrl : Bytes
  appId : Bytes
  releaseId : Bytes
  version : Bytes
  versionCode : Option Int
  rootTrustKeyId : Bytes
  rootTrustPublicKey : Bytes
  channel : Bytes
  platform : Bytes
  arch : Bytes
  deviceId : Bytes
  allowInsecureHttp : Bool
  hostIntegrity : HostIntegrityOptions

/-- `valid_uuid`. -/
def validUuid (value : Bytes) : Bool :=
  value.length = 36 && value[8]? = some 0x2d && value[13]? = some 0x2d &&
    value[18]? = some 0x2d && value[23]? = some 0x2d &&
    (List.range 36).all fun index =>
      index = 8 || index = 13 || index = 18 || index = 23 ||
        ((value[index]?).bind hexValue).isSome

/-- A client: its own options, and the copy of its pipeline. -/
structure Client where
  options : ClientOptions
  pipelineOptions : ClientOptions

/-- The scheme of the base URL. -/
def urlScheme (baseUrl : Bytes) : Bytes :=
  match splitFirst (ascii "://") baseUrl with
  | none => []
  | some (scheme, _) => lower scheme

/-- The test of the root key. -/
def rootKeyValid (rootTrustPublicKey : Bytes) : Bool :=
  match decodeKeyMaterial rootTrustPublicKey with
  | .ok bytes => bytes.length = 32
  | .error _ => false

/-- `Client::Client`, in a process of the given architecture. -/
def Client.create (process : Arch) (options : ClientOptions) : Except Error Client :=
  if options.appId = [] ∨ options.releaseId = [] ∨ options.version = [] ∨
      options.rootTrustKeyId = [] ∨ options.rootTrustPublicKey = [] then
    .error (configurationError "required ClientOptions are missing")
  else if ¬ validUuid options.appId ∨ ¬ validUuid options.releaseId then
    .error (configurationError "app_id and release_id must be UUID values")
  else if options.baseUrl = [] then .error (configurationError "base_url is required")
  else if urlScheme options.baseUrl = [] ∨ (urlScheme options.baseUrl ≠ ascii "https" ∧
      ¬ (options.allowInsecureHttp ∧ urlScheme options.baseUrl = ascii "http")) then
    .error (configurationError "base_url must use HTTPS unless allow_insecure_http is enabled")
  else if ¬ rootKeyValid options.rootTrustPublicKey then
    .error (configurationError "root_trust_public_key is invalid")
  else if ∃ code ∈ options.versionCode, code < 0 then
    .error (configurationError "version_code cannot be negative")
  else
    -- the pipeline was given the options as they came
    .ok {
      options := if options.arch = [] then { options with arch := process.text } else options
      pipelineOptions := options }

/-! ## The UUIDs that are accepted -/

/-- The lower case of hexadecimal digits is what `hex` writes. -/
theorem lower_eq_hex {digits : Bytes} (h : ∀ d ∈ digits, (hexValue d).isSome = true)
    (heven : digits.length % 2 = 0) : ∃ bytes, hex bytes = lower digits := by
  have hall : ∀ k < 256, ∀ n ∈ hexValue (UInt8.ofNat k),
      n < 16 ∧ hexDigit n = lowerByte (UInt8.ofNat k) := by decide +kernel
  have hdigit : ∀ d : UInt8, (hexValue d).isSome = true →
      ∃ n < 16, hexDigit n = lowerByte d := by
    intro d hd
    obtain ⟨n, hn⟩ := Option.isSome_iff_exists.mp hd
    have hk := hall d.toNat d.toNat_lt n (by rw [UInt8.ofNat_toNat]; exact hn)
    rw [UInt8.ofNat_toNat] at hk
    exact ⟨n, hk⟩
  match digits with
  | [] => exact ⟨[], rfl⟩
  | [_] => exact absurd heven (by simp)
  | a :: b :: rest =>
    obtain ⟨high, hhigh, ha⟩ := hdigit a (h a (by simp))
    obtain ⟨low, hlow, hb⟩ := hdigit b (h b (by simp))
    have hrest : rest.length % 2 = 0 := by
      rw [List.length_cons, List.length_cons] at heven
      omega
    obtain ⟨bytes, hbytes⟩ := lower_eq_hex (fun d hd => h d (by simp [hd])) hrest
    have hbyte : (UInt8.ofNat (16 * high + low)).toNat = 16 * high + low := by
      rw [UInt8.toNat_ofNat']
      omega
    refine ⟨UInt8.ofNat (16 * high + low) :: bytes, ?_⟩
    rw [hex, List.flatMap_cons, ← hex, hbytes, hbyte, show (16 * high + low) / 16 = high by omega,
      show (16 * high + low) % 16 = low by omega, ha, hb]
    rfl

theorem drop_of_getElem? {text : Bytes} {n : Nat} {c : UInt8} (h : text[n]? = some c) :
    text.drop n = c :: text.drop (n + 1) := by
  obtain ⟨hn, rfl⟩ := List.getElem?_eq_some_iff.mp h
  exact List.drop_eq_getElem_cons hn

/-- The groups of a text that `valid_uuid` accepts. -/
theorem validUuid_groups {value : Bytes} (h : validUuid value = true) :
    ∃ first second third fourth fifth : Bytes,
      value = first ++ 0x2d :: (second ++ 0x2d :: (third ++ 0x2d :: (fourth ++ 0x2d :: fifth))) ∧
      first.length = 8 ∧ second.length = 4 ∧ third.length = 4 ∧ fourth.length = 4 ∧
      fifth.length = 12 ∧
      ∀ d ∈ first ++ (second ++ (third ++ (fourth ++ fifth))), (hexValue d).isSome = true := by
  simp only [validUuid, Bool.and_eq_true, decide_eq_true_eq, List.all_eq_true, List.mem_range,
    Bool.or_eq_true] at h
  obtain ⟨⟨⟨⟨⟨hlength, h8⟩, h13⟩, h18⟩, h23⟩, hdigits⟩ := h
  have hsplit : ∀ n m, value.drop n = (value.drop n).take m ++ value.drop (n + m) := by
    intro n m
    rw [← List.drop_drop, List.take_append_drop]
  -- between the four hyphens there are digits only
  have hgroup : ∀ n m, n + m ≤ 36 → (∀ i, n ≤ i → i < n + m → i ≠ 8 ∧ i ≠ 13 ∧ i ≠ 18 ∧ i ≠ 23) →
      ∀ d ∈ (value.drop n).take m, (hexValue d).isSome = true := by
    intro n m hbound hplain d hd
    obtain ⟨i, hi, rfl⟩ := List.getElem_of_mem hd
    have him : i < m := by
      rw [List.length_take] at hi
      omega
    rw [List.getElem_take, List.getElem_drop]
    have hnot := hplain (n + i) (by omega) (by omega)
    have hdigit := hdigits (n + i) (by omega)
    rw [List.getElem?_eq_getElem (by omega), Option.bind_some] at hdigit
    tauto
  refine ⟨(value.drop 0).take 8, (value.drop 9).take 4, (value.drop 14).take 4,
    (value.drop 19).take 4, (value.drop 24).take 12, ?_, ?_, ?_, ?_, ?_, ?_, ?_⟩
  · have hlast : (value.drop 24).take 12 = value.drop 24 := by
      rw [List.take_of_length_le]
      rw [List.length_drop, hlength]
    rw [hlast, ← drop_of_getElem? h23, ← hsplit 19 4, ← drop_of_getElem? h18, ← hsplit 14 4,
      ← drop_of_getElem? h13, ← hsplit 9 4, ← drop_of_getElem? h8, ← hsplit 0 8, List.drop_zero]
  · simp [hlength]
  · simp [hlength]
  · simp [hlength]
  · simp [hlength]
  · simp [hlength]
  · intro d hd
    simp only [List.mem_append] at hd
    rcases hd with hd | hd | hd | hd | hd
    · exact hgroup 0 8 (by omega) (by omega) d hd
    · exact hgroup 9 4 (by omega) (by omega) d hd
    · exact hgroup 14 4 (by omega) (by omega) d hd
    · exact hgroup 19 4 (by omega) (by omega) d hd
    · exact hgroup 24 12 (by omega) (by omega) d hd

/-- **A text that `valid_uuid` accepts** is a UUID, in some case. -/
theorem validUuid_text {value : Bytes} (h : validUuid value = true) :
    ∃ id : Uuid, id.text = lower value := by
  obtain ⟨first, second, third, fourth, fifth, rfl, h1, h2, h3, h4, h5, hdigits⟩ :=
    validUuid_groups h
  obtain ⟨bytes, hbytes⟩ := lower_eq_hex hdigits (by simp [h1, h2, h3, h4, h5])
  have hcount : bytes.length = 16 := by
    have hlength := congrArg List.length hbytes
    rw [hex_length, lower_length] at hlength
    simp only [List.length_append, h1, h2, h3, h4, h5] at hlength
    omega
  refine ⟨⟨bytes, hcount⟩, ?_⟩
  have hskip : ∀ {n m : Nat} {part rest : Bytes}, (hex bytes).drop n = part ++ rest →
      part.length = m → (hex bytes).drop (n + m) = rest := by
    intro n m part rest hdrop hm
    rw [← List.drop_drop, hdrop, List.drop_left' hm]
  have hlower : (hex bytes).drop 0 = lower first ++ (lower second ++ (lower third ++
      (lower fourth ++ lower fifth))) := by
    rw [List.drop_zero, hbytes]
    simp only [lower, List.map_append]
  have hd8 := hskip hlower ((lower_length _).trans h1)
  have hd12 := hskip hd8 ((lower_length _).trans h2)
  have hd16 := hskip hd12 ((lower_length _).trans h3)
  have hd20 := hskip hd16 ((lower_length _).trans h4)
  rw [Uuid.text, guidText]
  dsimp only
  rw [hd8, hd12, hd16, hd20, ← List.drop_zero (l := hex bytes), hlower,
    List.take_left' ((lower_length _).trans h1), List.take_left' ((lower_length _).trans h2),
    List.take_left' ((lower_length _).trans h3), List.take_left' ((lower_length _).trans h4)]
  have hjoin : ∀ part rest : Bytes,
      lower (part ++ 0x2d :: rest) = lower part ++ (ascii "-" ++ lower rest) := by
    intro part rest
    rw [lower, List.map_append]
    rfl
  rw [hjoin, hjoin, hjoin, hjoin]
  simp only [List.append_assoc]

/-- What the constructor accepts, and the two copies it makes. -/
structure Created (process : Arch) (options : ClientOptions) (client : Client) : Prop where
  version : options.version ≠ []
  rootTrustKeyId : options.rootTrustKeyId ≠ []
  appId : validUuid options.appId = true
  releaseId : validUuid options.releaseId = true
  versionCode : ∀ code ∈ options.versionCode, 0 ≤ code
  pipelineOptions : client.pipelineOptions = options
  options : client.options =
    if options.arch = [] then { options with arch := process.text } else options

theorem create_ok {process : Arch} {options : ClientOptions} {client : Client}
    (h : Client.create process options = .ok client) : Created process options client := by
  unfold Client.create at h
  obtain ⟨hpresent, h⟩ := guard_eq_ok.mp h
  obtain ⟨huuid, h⟩ := guard_eq_ok.mp h
  obtain ⟨-, h⟩ := guard_eq_ok.mp h
  obtain ⟨-, h⟩ := guard_eq_ok.mp h
  obtain ⟨-, h⟩ := guard_eq_ok.mp h
  obtain ⟨hcode, h⟩ := guard_eq_ok.mp h
  simp only [not_or, Bool.not_eq_true, Bool.not_eq_false] at hpresent huuid
  obtain ⟨-, -, hversion, hkey, -⟩ := hpresent
  obtain rfl := Except.ok.inj h
  refine ⟨hversion, hkey, huuid.1, huuid.2, ?_, rfl, rfl⟩
  intro code hmem
  by_contra hnegative
  exact hcode ⟨code, hmem, Int.not_le.mp hnegative⟩

/-- **The copies have one architecture** exactly when one was given. -/
theorem create_arch_iff {process : Arch} {options : ClientOptions} {client : Client}
    (h : Created process options client) :
    client.pipelineOptions.arch = client.options.arch ↔ options.arch ≠ [] := by
  have hprocess : process.text ≠ [] := by
    cases process with
    | x86 => decide
    | x64 => decide
  rw [h.pipelineOptions, h.options]
  split
  · rename_i hempty
    rw [hempty]
    exact ⟨fun harch => absurd harch.symm hprocess, fun hne => absurd rfl hne⟩
  · rename_i hgiven
    exact ⟨fun _ => hgiven, fun _ => rfl⟩

end Cpp
end SwmSdk
