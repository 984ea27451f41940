import SwmSdk.Authz
import SwmSdk.JsonDocument

/-! # The classes of service errors

`throw_if_error` of C++, Go and Rust read the code of an error response and give it a kind.  C++
takes no code from an error with a field of a wrong type; Rust looks at each field alone; Go takes
the names of fields and four of the codes in any case.

The three give the error one code and one kind exactly when they find the same code and it is not
one of the four in another case, or when none of them finds any (`serviceErrors_agree_iff`).
-/
namespace SwmSdk
open ByteText

/-! ## Go -/

namespace Go

/-- `looksLikeCode`. -/
def looksLikeCode (value : Bytes) : Bool :=
  value ≠ [] && value.all fun b => (0x61 ≤ b && b ≤ 0x7a) || (0x30 ≤ b && b ≤ 0x39) || b = 0x5f

/-- `http.StatusText` of the statuses of errors. -/
def statusTexts : List (Int × String) := [
  (400, "Bad Request"), (401, "Unauthorized"), (402, "Payment Required"), (403, "Forbidden"),
  (404, "Not Found"), (405, "Method Not Allowed"), (406, "Not Acceptable"),
  (407, "Proxy Authentication Required"), (408, "Request Timeout"), (409, "Conflict"),
  (410, "Gone"), (411, "Length Required"), (412, "Precondition Failed"),
  (413, "Request Entity Too Large"), (414, "Request URI Too Long"),
  (415, "Unsupported Media Type"), (416, "Requested Range Not Satisfiable"),
  (417, "Expectation Failed"), (418, "I'm a teapot"), (421, "Misdirected Request"),
  (422, "Unprocessable Entity"), (423, "Locked"), (424, "Failed Dependency"), (425, "Too Early"),
  (426, "Upgrade Required"), (428, "Precondition Required"), (429, "Too Many Requests"),
  (431, "Request Header Fields Too Large"), (451, "Unavailable For Legal Reasons"),
  (500, "Internal Server Error"), (501, "Not Implemented"), (502, "Bad Gateway"),
  (503, "Service Unavailable"), (504, "Gateway Timeout"), (505, "HTTP Version Not Supported"),
  (506, "Variant Also Negotiates"), (507, "Insufficient Storage"), (508, "Loop Detected"),
  (510, "Not Extended"), (511, "Network Authentication Required")]

/-- `http.StatusText`. -/
def statusText (status : Int) : Bytes := ((statusTexts.lookup status).map ascii).getD []

/-! `encoding/json` on a text in UTF-8. -/

/-- The document of a text; deeper nesting is an error. -/
def unmarshal (text : Bytes) : Option Document :=
  (Document.read text).filter fun document => document.depth ≤ 10000

/-- The values that are stored in the field of a name: those of its members in any case. -/
def stored (name : String) (members : List (Bytes × Document)) : List Document :=
  (members.filter fun m => equalFold m.1 (ascii name)).map Prod.snd

/-- A value is stored in a field of type `string`: null changes nothing. -/
def storeText (old : Bytes) : Document → Option Bytes
  | .null => some old
  | .string value => some value
  | _ => none

/-- A field of type `string`; a value of another type is an error of the whole. -/
def textField (name : String) (members : List (Bytes × Document)) : Option Bytes :=
  (stored name members).foldlM storeText []

/-- `serviceErrorEnvelope`; an absent `error` is an empty one. -/
structure ServiceErrorEnvelope where
  error : Option Document := none
  code : Bytes := []
  message : Bytes := []

/-- `serviceError`. -/
structure ServiceError where
  code : Bytes := []
  message : Bytes := []
  minimumSupportedVersion : Bytes := []
  failureAction : Bytes := []

/-- What `json.Unmarshal` reads of a rejected response, if it can. -/
def unmarshalEnvelope : Document → Option ServiceErrorEnvelope
  | .object members => do
      let code ← textField "code" members
      let message ← textField "message" members
      some ⟨(stored "error" members).getLast?, code, message⟩
  | .null => some {}
  | _ => none

/-- What it reads of the `error` member. -/
def unmarshalError : Document → Option ServiceError
  | .object members => do
      let code ← textField "code" members
      let message ← textField "message" members
      let minimum ← textField "minimum_supported_version" members
      let action ← textField "failure_action" members
      some ⟨code, message, minimum, action⟩
  | .null => some {}
  | _ => none

/-- What is taken from the body. -/
structure ServiceText where
  code : Bytes := []
  message : Bytes
  minimumVersion : Bytes := []
  failureAction : IntegrityFailureAction := .shutdownClient

/-- An `error` that is a text. -/
def flatText (message : Bytes) (error : Document) : ServiceText :=
  match storeText [] error with
  | none => { message := message }
  | some flat =>
      if flat = [] then { message := message }
      else { code := if looksLikeCode flat then flat else [], message := flat }

/-- An `error` that is there. -/
def nestedText (message : Bytes) (error : Document) : ServiceText :=
  match unmarshalError error with
  | none => flatText message error
  | some nested =>
      if nested.code = [] then flatText message error
      else {
        code := nested.code
        message := if nested.message = [] then message else nested.message
        minimumVersion := nested.minimumSupportedVersion
        failureAction :=
          if nested.failureAction = ascii "deny_operations" then .denyOperations
          else .shutdownClient }

/-- The fields that are read of a body. -/
def bodyText (message body : Bytes) : ServiceText :=
  match (unmarshal body).bind unmarshalEnvelope with
  | none => { message := message }
  | some root =>
      match root.error with
      | some error => nestedText message error
      | none =>
          if root.code = [] then { message := message }
          else { code := root.code, message := if root.message = [] then message else root.message }

/-- The code and the other fields, with a message that is a code. -/
def serviceText (response : ProtocolResponse) : ServiceText :=
  let found := bodyText (statusText response.statusCode) response.body
  if found.code = [] ∧ looksLikeCode found.message then { found with code := found.message }
  else found

/-- The error of a response that is not a success. -/
def serviceFailure (response : ProtocolResponse) (found : ServiceText) : Error :=
  let error (kind : ErrorKind) : Error :=
    { kind := kind, statusCode := response.statusCode, serviceCode := found.code
      message := found.message, responseBody := response.body }
  if equalFold found.code (ascii "device_blocked") then error .deviceBlocked
  else if equalFold found.code (ascii "client_version_unsupported") then
    { error .unsupportedVersion with minimumSupportedVersion := found.minimumVersion }
  else if equalFold found.code (ascii "update_region_blocked") then error .updateRegionBlocked
  else if equalFold found.code (ascii "feedback_disabled") then error .feedbackDisabled
  else if ascii "release_integrity_" <+: found.code then
    { error .integrity with failureAction := found.failureAction }
  else if ascii "operation_auth_" <+: found.code ∨ ascii "operation_grant_" <+: found.code then
    error .operationAuthorization
  else if response.statusCode = 429 then error .rateLimit
  else if response.statusCode = 401 then error .session
  else if response.statusCode = 403 then error .unauthorized
  else if 400 ≤ response.statusCode ∧ response.statusCode < 500 then error .validation
  else error .api

/-- `throwIfError`, less the header with the time to wait. -/
def throwIfError (response : ProtocolResponse) : Except Error Unit :=
  if 200 ≤ response.statusCode ∧ response.statusCode < 300 then .ok ()
  else .error (serviceFailure response (serviceText response))

end Go

/-! ## Rust -/

namespace Rust

/-- `Value::get` of an object. -/
def get (key : String) : Document → Option Document
  | .object members => Document.last (ascii key) members
  | _ => none

/-- `Value::as_str`. -/
def asStr : Document → Option Bytes
  | .string value => some value
  | _ => none

/-- What is taken from the body. -/
structure ServiceText where
  code : Bytes := []
  message : Bytes
  minimumVersion : Option Bytes := none

/-- The code and the message of an object. -/
def fieldTexts (message : Bytes) (object : Document) : ServiceText where
  code := ((get "code" object).bind asStr).getD []
  message := ((get "message" object).bind asStr).getD message

/-- The fields that are read of a value. -/
def valueText (message : Bytes) (root : Document) : ServiceText :=
  match get "error" root with
  | some (.object members) =>
      { fieldTexts message (.object members) with
        minimumVersion := (get "minimum_supported_version" (.object members)).bind asStr }
  | some (.string value) =>
      { code := if Go.looksLikeCode value then value else [], message := value }
  | some _ => { message := message }
  | none => fieldTexts message root

/-- `throw_if_error`.  `fromSlice` is `serde_json::from_slice`, and `canonicalReason` is the reason
of a status. -/
def throwIfError (fromSlice : Bytes → Option Document) (canonicalReason : Int → Option Bytes)
    (response : ProtocolResponse) : Except Error Unit :=
  if 200 ≤ response.statusCode ∧ response.statusCode < 300 then .ok ()
  else
    let message := (canonicalReason response.statusCode).getD (ascii "request failed")
    let found : ServiceText :=
      match fromSlice response.body with
      | none => { message := message }
      | some root => valueText message root
    let kind : ErrorKind :=
      if found.code = ascii "device_blocked" then .deviceBlocked
      else if found.code = ascii "client_version_unsupported" then .unsupportedVersion
      else if found.code = ascii "update_region_blocked" then .updateRegionBlocked
      else if found.code = ascii "feedback_disabled" then .feedbackDisabled
      else if ascii "release_integrity_" <+: found.code then .integrity
      else if ascii "operation_auth_" <+: found.code ∨ ascii "operation_grant_" <+: found.code then
        .operationAuthorization
      else if response.statusCode = 429 then .rateLimit
      else if response.statusCode = 401 then .session
      else if response.statusCode = 403 then .unauthorized
      else if 400 ≤ response.statusCode ∧ response.statusCode < 500 then .validation
      else .api
    .error {
      kind := kind, statusCode := response.statusCode, serviceCode := found.code
      message := found.message
      responseBody := lossyUtf8 (response.body.length + 1) response.body
      minimumSupportedVersion := found.minimumVersion.getD [] }

end Rust

/-! ## Kinds -/

/-- The codes with a kind of their own. -/
def namedCodes : List Bytes := [ascii "device_blocked", ascii "client_version_unsupported",
  ascii "update_region_blocked", ascii "feedback_disabled"]

/-- The kind of any other code. -/
def otherKind (code : Bytes) (status : Int) : ErrorKind :=
  if ascii "release_integrity_" <+: code then .integrity
  else if ascii "operation_auth_" <+: code ∨ ascii "operation_grant_" <+: code then
    .operationAuthorization
  else if status = 429 then .rateLimit
  else if status = 401 then .session
  else if status = 403 then .unauthorized
  else if status < 500 then .validation
  else .api

/-- The kind of a code, by the comparison of the named ones. -/
def kindOf (same : Bytes → Bytes → Bool) (code : Bytes) (status : Int) : ErrorKind :=
  if same code (ascii "device_blocked") then .deviceBlocked
  else if same code (ascii "client_version_unsupported") then .unsupportedVersion
  else if same code (ascii "update_region_blocked") then .updateRegionBlocked
  else if same code (ascii "feedback_disabled") then .feedbackDisabled
  else otherKind code status

/-- Two codes that are the same as they are. -/
def exactly (code name : Bytes) : Bool := code = name

/-- Two codes that are the same in some case. -/
def caseless (code name : Bytes) : Bool := Go.equalFold code name

theorem otherKind_unnamed (code : Bytes) (status : Int) :
    otherKind code status ∉ [ErrorKind.deviceBlocked, .unsupportedVersion, .updateRegionBlocked,
      .feedbackDisabled] := by
  unfold otherKind
  repeat' split
  all_goals decide

/-- At most one of the named codes is the same as a code, in any case. -/
theorem named_unique : ∀ a ∈ namedCodes, ∀ b ∈ namedCodes, Go.fold a = Go.fold b → a = b := by
  decide

/-- **The kinds are the same** exactly when the code is no named code in another case. -/
theorem kindOf_eq_iff {code : Bytes} {status : Int} :
    kindOf exactly code status = kindOf caseless code status ↔
      ∀ name ∈ namedCodes, Go.equalFold code name → code = name := by
  constructor
  · intro h name hname hfold
    by_contra hne
    have hexact : ∀ other ∈ namedCodes, exactly code other = false := by
      intro other hother
      refine decide_eq_false fun heq => hne ?_
      rw [heq]
      refine named_unique other hother name hname ?_
      rw [← heq]
      exact hfold
    have hcaseless : ∀ other ∈ namedCodes, other ≠ name → caseless code other = false := by
      intro other hother hdiffers
      refine decide_eq_false fun heq => hdiffers ?_
      exact named_unique other hother name hname (heq.symm.trans hfold)
    have hsame : caseless code name = true := decide_eq_true hfold
    have hother : kindOf exactly code status = otherKind code status := by
      rw [kindOf, hexact _ (by decide), hexact _ (by decide), hexact _ (by decide),
        hexact _ (by decide)]
      rfl
    refine otherKind_unnamed code status ?_
    rw [← hother, h, kindOf]
    simp only [namedCodes, List.mem_cons, List.not_mem_nil, or_false] at hname
    rcases hname with rfl | rfl | rfl | rfl
    · rw [hsame]
      simp
    · rw [hcaseless _ (by decide) (by decide), hsame]
      simp
    · rw [hcaseless _ (by decide) (by decide), hcaseless _ (by decide) (by decide), hsame]
      simp
    · rw [hcaseless _ (by decide) (by decide), hcaseless _ (by decide) (by decide),
        hcaseless _ (by decide) (by decide), hsame]
      simp
  · intro h
    have hsame : ∀ name ∈ namedCodes, exactly code name = caseless code name := by
      intro name hname
      refine decide_eq_decide.mpr ⟨fun heq => ?_, h name hname⟩
      rw [heq]
      exact rfl
    rw [kindOf, kindOf, hsame _ (by decide), hsame _ (by decide), hsame _ (by decide),
      hsame _ (by decide)]

/-! ## Codes -/

section Codes
variable {response : ProtocolResponse} {root es : List (Bytes × Document)}

/-- The error of a response has this code and the kind of it. -/
structure Classified (same : Bytes → Bytes → Bool) (status : Int) (outcome : Except Error Unit)
    (code : Bytes) : Prop where
  thrown : ∃ error, outcome = .error error ∧ error.serviceCode = code ∧
    error.kind = kindOf same code status

/-- A field of a value that matches. -/
theorem jsonGetString_matches {v : Json} (h : Document.Matches v (.object es)) (name : String) :
    (∀ item, Document.last (ascii name) es = some item → item.IsText) ∧
        Cpp.jsonGetString v (ascii name) false =
          .ok (Document.textOf (Document.last (ascii name) es)) ∨
      ¬ (∀ item, Document.last (ascii name) es = some item → item.IsText) ∧
        ∃ error, Cpp.jsonGetString v (ascii name) false = .error error := by
  rcases h.find (ascii name) with ⟨hfind, hlast⟩ | ⟨found, item, hfind, hlast, hmatch⟩
  · refine .inl ⟨fun item hitem => ?_, ?_⟩
    · rw [hlast] at hitem
      cases hitem
    · rw [Cpp.jsonGetString, Cpp.field, hfind, hlast]
      rfl
  · have hall : (∀ item', Document.last (ascii name) es = some item' → item'.IsText) ↔
        item.IsText := by
      rw [hlast]
      exact ⟨fun hall => hall item rfl, fun hitem item' h => Option.some.inj h ▸ hitem⟩
    rw [hall, hlast]
    rw [Cpp.jsonGetString, Cpp.field, hfind]
    cases hmatch with
    | null => exact .inl ⟨trivial, rfl⟩
    | string value => exact .inl ⟨trivial, rfl⟩
    | boolean b => exact .inr ⟨id, _, rfl⟩
    | array _ => exact .inr ⟨id, _, rfl⟩
    | object _ => exact .inr ⟨id, _, rfl⟩
    | number hnumber =>
      refine .inr ⟨id, ?_⟩
      cases found with
      | unsigned _ => exact ⟨_, rfl⟩
      | integer _ => exact ⟨_, rfl⟩
      | float _ => exact ⟨_, rfl⟩
      | _ => cases hnumber

theorem statusKind_eq {status : Int} :
    (if status = 401 then ErrorKind.session else if status = 403 then .unauthorized
      else if status = 429 then .rateLimit else if 500 ≤ status then .api else .validation) =
    (if status = 429 then .rateLimit else if status = 401 then .session
      else if status = 403 then .unauthorized else if status < 500 then .validation else .api) := by
  split_ifs <;> first | rfl | omega

theorem serviceFailure_kind (parsed : Cpp.ServiceError) (action : IntegrityFailureAction) :
    (Cpp.serviceFailure response parsed action).serviceCode = parsed.code ∧
      (Cpp.serviceFailure response parsed action).kind =
        kindOf exactly parsed.code response.statusCode := by
  rw [kindOf, otherKind, ← statusKind_eq]
  simp only [Cpp.serviceFailure, exactly, decide_eq_true_eq]
  split
  · exact ⟨rfl, rfl⟩
  split
  · exact ⟨rfl, rfl⟩
  split
  · exact ⟨rfl, rfl⟩
  split
  · exact ⟨rfl, rfl⟩
  split
  · exact ⟨rfl, rfl⟩
  split
  · exact ⟨rfl, rfl⟩
  split
  · exact ⟨rfl, rfl⟩
  split
  · exact ⟨rfl, rfl⟩
  split
  · exact ⟨rfl, rfl⟩
  split
  · exact ⟨rfl, rfl⟩
  · exact ⟨rfl, rfl⟩

/-- What C++ asks of a body and of its error: the library reads the one, and the fields of the
other are texts. -/
structure Cpp.Takes (body : Bytes) (es : List (Bytes × Document)) : Prop where
  read : (Nlohmann.parse true body).isSome = true
  texts : ∀ name ∈ ["code", "message", "minimum_supported_version"], ∀ item,
    Document.last (ascii name) es = some item → item.IsText

theorem cpp_class {what : Bytes → Bytes} (hlow : 400 ≤ response.statusCode)
    (hbody : Document.read response.body = some (.object root))
    (herror : Document.last (ascii "error") root = some (.object es)) :
    ∃ code, Classified exactly response.statusCode (Cpp.throwIfError what response) code ∧
      (Cpp.Takes response.body es → code = Document.textOf (Document.last (ascii "code") es)) ∧
      (¬ Cpp.Takes response.body es → code = []) := by
  have hfails : ∀ parsed action, Cpp.throwIfError what response =
      .error (Cpp.serviceFailure response parsed action) →
      Classified exactly response.statusCode (Cpp.throwIfError what response) parsed.code :=
    fun parsed action h => ⟨_, h, serviceFailure_kind parsed action⟩
  have hstatus : ¬ (200 ≤ response.statusCode ∧ response.statusCode < 300) := by omega
  cases hparse : Nlohmann.parse true response.body with
  | none =>
    refine ⟨[], hfails { message := response.body } .shutdownClient ?_, fun h => ?_, fun _ => rfl⟩
    · simp only [Cpp.throwIfError, if_neg hstatus, Cpp.parseJson, hparse]
      rfl
    · have hread := h.read
      rw [hparse] at hread
      cases hread
  | some v =>
    have hread : (Nlohmann.parse true response.body).isSome = true := by rw [hparse]; rfl
    have hmatch := Document.parse_document hparse hbody
    obtain ⟨found, hfind, hfound⟩ : ∃ found, v.find (ascii "error") = some found ∧
        Document.Matches found (.object es) := by
      rcases hmatch.find (ascii "error") with ⟨-, hnone⟩ | ⟨found, item, hfind, hlast, hitem⟩
      · cases herror.symm.trans hnone
      · obtain rfl := Option.some.inj (herror.symm.trans hlast)
        exact ⟨found, hfind, hitem⟩
    have hservice : Cpp.jsonServiceError v = (do
        let code ← Cpp.jsonGetString found (ascii "code") false
        let message ← Cpp.jsonGetString found (ascii "message") false
        let minimum ← Cpp.jsonGetString found (ascii "minimum_supported_version") false
        .ok {
          code := code
          message := if message = [] then code else message
          minimumSupportedVersion := minimum }) := by
      rw [Cpp.jsonServiceError, hfind]
      cases hfound with
      | object _ => rfl
    have hpassed : ∀ parsed, Cpp.jsonServiceError v = .ok parsed →
        Cpp.throwIfError what response =
          .error (Cpp.serviceFailure response parsed (Cpp.failureAction v)) := by
      intro parsed h
      simp only [Cpp.throwIfError, if_neg hstatus, Cpp.parseJson, hparse, bind, Except.bind, h]
    have hfailed : ∀ error, Cpp.jsonServiceError v = .error error →
        Cpp.throwIfError what response =
          .error (Cpp.serviceFailure response { message := response.body } .shutdownClient) := by
      intro error h
      simp only [Cpp.throwIfError, if_neg hstatus, Cpp.parseJson, hparse, bind, Except.bind, h]
    have hrejected : ∀ name ∈ ["code", "message", "minimum_supported_version"],
        (¬ ∀ item, Document.last (ascii name) es = some item → item.IsText) →
        ∀ error, Cpp.jsonServiceError v = .error error →
        ∃ code, Classified exactly response.statusCode (Cpp.throwIfError what response) code ∧
          (Cpp.Takes response.body es →
            code = Document.textOf (Document.last (ascii "code") es)) ∧
          (¬ Cpp.Takes response.body es → code = []) :=
      fun name hname hno error h => ⟨[], hfails _ _ (hfailed error h),
        fun htakes => absurd (htakes.texts name hname) hno, fun _ => rfl⟩
    rcases jsonGetString_matches hfound "code" with ⟨htext₁, h₁⟩ | ⟨hno, e, h₁⟩
    · rcases jsonGetString_matches hfound "message" with ⟨htext₂, h₂⟩ | ⟨hno, e, h₂⟩
      · rcases jsonGetString_matches hfound "minimum_supported_version" with
          ⟨htext₃, h₃⟩ | ⟨hno, e, h₃⟩
        · rw [h₁, h₂, h₃] at hservice
          have htakes : Cpp.Takes response.body es := ⟨hread,
            List.forall_mem_cons.mpr ⟨htext₁, List.forall_mem_cons.mpr ⟨htext₂,
              List.forall_mem_singleton.mpr htext₃⟩⟩⟩
          exact ⟨_, hfails _ _ (hpassed _ hservice), fun _ => rfl, fun h => absurd htakes h⟩
        · rw [h₁, h₂, h₃] at hservice
          exact hrejected _ (by simp) hno e hservice
      · rw [h₁, h₂] at hservice
        exact hrejected _ (by simp) hno e hservice
    · rw [h₁] at hservice
      exact hrejected _ (by simp) hno e hservice

theorem asStr_get (name : String) :
    ((Rust.get name (.object es)).bind Rust.asStr).getD [] =
      Document.textOf (Document.last (ascii name) es) := by
  rw [Rust.get]
  cases Document.last (ascii name) es with
  | none => rfl
  | some item =>
    cases item with
    | _ => rfl

theorem rust_class {fromSlice : Bytes → Option Document} {canonicalReason : Int → Option Bytes}
    (hlow : 400 ≤ response.statusCode)
    (hread : ∀ document, fromSlice response.body = some document → document = .object root)
    (herror : Document.last (ascii "error") root = some (.object es)) :
    ∃ code, Classified exactly response.statusCode
        (Rust.throwIfError fromSlice canonicalReason response) code ∧
      ((fromSlice response.body).isSome = true →
        code = Document.textOf (Document.last (ascii "code") es)) ∧
      (¬ (fromSlice response.body).isSome = true → code = []) := by
  have hstatus : ¬ (200 ≤ response.statusCode ∧ response.statusCode < 300) := by omega
  have hclient : (400 ≤ response.statusCode ∧ response.statusCode < 500) ↔
      response.statusCode < 500 := by omega
  cases hslice : fromSlice response.body with
  | none =>
    refine ⟨[], ⟨_, by rw [Rust.throwIfError, if_neg hstatus], ?_, ?_⟩, fun h => (nomatch h),
      fun _ => rfl⟩
    · simp only [hslice]
    · simp only [hslice, hclient, kindOf, otherKind, exactly, decide_eq_true_eq]
  | some document =>
    obtain rfl := hread document hslice
    have hget : Rust.get "error" (.object root) = some (.object es) := herror
    refine ⟨_, ⟨_, by rw [Rust.throwIfError, if_neg hstatus], rfl, ?_⟩, fun _ => ?_,
      fun h => absurd rfl h⟩
    · simp only [hclient, kindOf, otherKind, exactly, decide_eq_true_eq]
    · simp only [hslice, Rust.valueText, hget, Rust.fieldTexts]
      exact asStr_get "code"

end Codes

/-! ## The code that Go finds -/

namespace Go

/-- The members of these names, in any case, are texts. -/
def TakesTexts (names : List String) (members : List (Bytes × Document)) : Prop :=
  ∀ name ∈ names, ∀ item ∈ stored name members, item.IsText

instance (names : List String) (members : List (Bytes × Document)) :
    Decidable (TakesTexts names members) :=
  inferInstanceAs (Decidable (∀ name ∈ names, ∀ item ∈ stored name members, item.IsText))

/-- The last text among some values. -/
def lastText (items : List Document) : Bytes := (items.filterMap Rust.asStr).getLast?.getD []

theorem foldlM_storeText {items : List Document} {old text : Bytes} :
    items.foldlM storeText old = some text ↔
      (∀ item ∈ items, item.IsText) ∧ text = (items.filterMap Rust.asStr).getLast?.getD old := by
  induction items generalizing old with
  | nil => simp [eq_comm]
  | cons item items ih =>
    rw [List.foldlM_cons, List.forall_mem_cons]
    cases item with
    | null => exact ih.trans (by simp [Document.IsText, Rust.asStr])
    | string value =>
      refine (@ih value).trans ?_
      simp only [Document.IsText, true_and, List.filterMap_cons, Rust.asStr]
      rw [List.getLast?_cons]
      rfl
    | _ => simp [storeText, Document.IsText]

theorem textField_iff {name : String} {members : List (Bytes × Document)} {text : Bytes} :
    textField name members = some text ↔
      (∀ item ∈ stored name members, item.IsText) ∧ text = lastText (stored name members) :=
  foldlM_storeText

/-- The reading of Go finds a code: the texts of the body are texts, and its last error is an
object whose texts are texts and which has a code, or is a code itself. -/
inductive Finds (root : List (Bytes × Document)) (code : Bytes) : Prop
  | nested {es : List (Bytes × Document)} (hdepth : (Document.object root).depth ≤ 10000)
      (hroot : TakesTexts ["code", "message"] root)
      (herror : (stored "error" root).getLast? = some (.object es))
      (hes : TakesTexts ["code", "message", "minimum_supported_version", "failure_action"] es)
      (hcode : lastText (stored "code" es) = code) (hne : code ≠ [])
  | flat (hdepth : (Document.object root).depth ≤ 10000)
      (hroot : TakesTexts ["code", "message"] root)
      (herror : (stored "error" root).getLast? = some (.string code))
      (hlooks : looksLikeCode code = true)

theorem unmarshalEnvelope_object {members : List (Bytes × Document)}
    {envelope : ServiceErrorEnvelope} :
    unmarshalEnvelope (.object members) = some envelope ↔
      TakesTexts ["code", "message"] members ∧ envelope =
        ⟨(stored "error" members).getLast?, lastText (stored "code" members),
          lastText (stored "message" members)⟩ := by
  simp only [unmarshalEnvelope, Option.bind_eq_bind, Option.bind_eq_some_iff, textField_iff,
    TakesTexts, List.mem_cons, List.not_mem_nil, or_false, forall_eq_or_imp, forall_eq,
    Option.some.injEq]
  constructor
  · rintro ⟨_, ⟨hcode, rfl⟩, _, ⟨hmessage, rfl⟩, rfl⟩
    exact ⟨⟨hcode, hmessage⟩, rfl⟩
  · rintro ⟨⟨hcode, hmessage⟩, rfl⟩
    exact ⟨_, ⟨hcode, rfl⟩, _, ⟨hmessage, rfl⟩, rfl⟩

theorem unmarshalError_object {members : List (Bytes × Document)} {nested : ServiceError} :
    unmarshalError (.object members) = some nested ↔
      TakesTexts ["code", "message", "minimum_supported_version", "failure_action"] members ∧
      nested = ⟨lastText (stored "code" members), lastText (stored "message" members),
        lastText (stored "minimum_supported_version" members),
        lastText (stored "failure_action" members)⟩ := by
  simp only [unmarshalError, Option.bind_eq_bind, Option.bind_eq_some_iff, textField_iff,
    TakesTexts, List.mem_cons, List.not_mem_nil, or_false, forall_eq_or_imp, forall_eq,
    Option.some.injEq]
  constructor
  · rintro ⟨_, ⟨hcode, rfl⟩, _, ⟨hmessage, rfl⟩, _, ⟨hminimum, rfl⟩, _, ⟨haction, rfl⟩, rfl⟩
    exact ⟨⟨hcode, hmessage, hminimum, haction⟩, rfl⟩
  · rintro ⟨⟨hcode, hmessage, hminimum, haction⟩, rfl⟩
    exact ⟨_, ⟨hcode, rfl⟩, _, ⟨hmessage, rfl⟩, _, ⟨hminimum, rfl⟩, _, ⟨haction, rfl⟩, rfl⟩

theorem looksLikeCode_ne_nil {value : Bytes} (h : looksLikeCode value = true) : value ≠ [] := by
  rintro rfl
  cases h

/-- No text of a status looks like a code. -/
theorem statusText_no_code (status : Int) : looksLikeCode (statusText status) = false := by
  have hall : (statusTexts.all fun entry => !looksLikeCode (ascii entry.2)) = true := rfl
  rw [statusText]
  cases hlookup : statusTexts.lookup status with
  | none => rfl
  | some text =>
    obtain ⟨before, after, hmem, -⟩ := List.lookup_eq_some_iff.mp hlookup
    have hin : (status, text) ∈ statusTexts := by rw [hmem]; simp
    simpa using List.all_eq_true.mp hall _ hin

/-- A text that is taken for the message only does not look like a code. -/
theorem flatText_message {message : Bytes} {error : Document}
    (hmessage : looksLikeCode message = false) (h : (flatText message error).code = []) :
    looksLikeCode (flatText message error).message = false := by
  rw [flatText] at h ⊢
  cases hstored : storeText [] error with
  | none => exact hmessage
  | some flat =>
    rw [hstored] at h
    dsimp only at h ⊢
    split
    · exact hmessage
    · rename_i hne
      rw [if_neg hne] at h
      dsimp only at h
      split at h
      · exact absurd h hne
      · rename_i hlooks
        exact eq_false_of_ne_true hlooks

theorem nestedText_message {message : Bytes} {error : Document}
    (hmessage : looksLikeCode message = false) (h : (nestedText message error).code = []) :
    looksLikeCode (nestedText message error).message = false := by
  rw [nestedText] at h ⊢
  cases hnested : unmarshalError error with
  | none =>
    rw [hnested] at h
    exact flatText_message hmessage h
  | some nested =>
    rw [hnested] at h
    dsimp only at h ⊢
    split
    · rename_i hempty
      rw [if_pos hempty] at h
      exact flatText_message hmessage h
    · rename_i hne
      rw [if_neg hne] at h
      exact absurd h hne

/-- An error that is not decoded as an object is looked at as a text. -/
theorem flatText_code {message code : Bytes} {error : Document} :
    (flatText message error).code = code ∧ code ≠ [] ↔
      error = .string code ∧ looksLikeCode code = true := by
  cases error with
  | string flat =>
    rw [flatText, storeText]
    dsimp only
    by_cases hempty : flat = []
    · rw [if_pos hempty]
      constructor
      · rintro ⟨rfl, hne⟩
        exact absurd rfl hne
      · rintro ⟨heq, hlooks⟩
        exact absurd (Document.string.inj heq ▸ hempty) (looksLikeCode_ne_nil hlooks)
    · rw [if_neg hempty]
      dsimp only
      constructor
      · rintro ⟨hcode, hne⟩
        split at hcode
        · rename_i hlooks
          rw [← hcode]
          exact ⟨rfl, hlooks⟩
        · exact absurd hcode.symm hne
      · rintro ⟨heq, hlooks⟩
        rw [Document.string.inj heq, if_pos hlooks]
        exact ⟨rfl, looksLikeCode_ne_nil hlooks⟩
  | _ => exact ⟨fun h => absurd h.1.symm h.2, fun h => (nomatch h.1)⟩

theorem nestedText_code {message code : Bytes} {error : Document} :
    (nestedText message error).code = code ∧ code ≠ [] ↔
      (∃ es, error = .object es ∧
        TakesTexts ["code", "message", "minimum_supported_version", "failure_action"] es ∧
        lastText (stored "code" es) = code ∧ code ≠ []) ∨
      error = .string code ∧ looksLikeCode code = true := by
  rw [nestedText]
  cases hnested : unmarshalError error with
  | none =>
    refine flatText_code.trans (Iff.symm (or_iff_right ?_))
    rintro ⟨es, rfl, htakes, -⟩
    rw [unmarshalError_object.mpr ⟨htakes, rfl⟩] at hnested
    cases hnested
  | some nested =>
    dsimp only
    cases error with
    | object es =>
      obtain ⟨htakes, rfl⟩ := unmarshalError_object.mp hnested
      rw [or_iff_left (fun h => (nomatch h.1))]
      dsimp only
      split
      · rename_i hempty
        constructor
        · rintro ⟨hcode, hne⟩
          exact absurd hcode.symm hne
        · rintro ⟨_, heq, -, hcode, hne⟩
          cases heq
          exact absurd (hcode.symm.trans hempty) hne
      · constructor
        · rintro ⟨hcode, hne⟩
          exact ⟨es, rfl, htakes, hcode, hne⟩
        · rintro ⟨_, heq, -, hcode, hne⟩
          cases heq
          exact ⟨hcode, hne⟩
    | null =>
      cases hnested
      exact ⟨fun h => absurd h.1.symm h.2, fun h => by rcases h with ⟨_, h, -⟩ | ⟨h, -⟩ <;> cases h⟩
    | _ => cases hnested

/-- The message is never taken for the code in the end. -/
theorem serviceText_code {response : ProtocolResponse} :
    (serviceText response).code =
      (bodyText (statusText response.statusCode) response.body).code := by
  have hmessage : (bodyText (statusText response.statusCode) response.body).code = [] →
      looksLikeCode (bodyText (statusText response.statusCode) response.body).message = false := by
    intro h
    have hstatus := statusText_no_code response.statusCode
    rw [bodyText] at h ⊢
    cases hroot : (unmarshal response.body).bind unmarshalEnvelope with
    | none => exact hstatus
    | some root =>
      rw [hroot] at h
      dsimp only at h ⊢
      cases herror : root.error with
      | some error =>
        rw [herror] at h
        exact nestedText_message hstatus h
      | none =>
        rw [herror] at h
        dsimp only at h ⊢
        split
        · exact hstatus
        · rename_i hne
          rw [if_neg hne] at h
          exact absurd h hne
  rw [serviceText]
  split
  · rename_i h
    rw [hmessage h.1] at h
    exact absurd h.2 Bool.false_ne_true
  · rfl

/-- A member is stored in the field of its own name. -/
theorem exists_stored {name : String} {members : List (Bytes × Document)} {item : Document}
    (h : Document.last (ascii name) members = some item) :
    ∃ found, (stored name members).getLast? = some found := by
  have hmem := List.mem_of_getLast? h
  obtain ⟨⟨key, value⟩, hmember, -⟩ := List.mem_map.mp hmem
  obtain ⟨hmember, hkey⟩ := List.mem_filter.mp hmember
  have hname : equalFold key (ascii name) := by
    have hsame : key = ascii name := of_decide_eq_true hkey
    rw [hsame]
    exact rfl
  have hstored : value ∈ stored name members :=
    List.mem_map.mpr ⟨(key, value), List.mem_filter.mpr ⟨hmember, decide_eq_true hname⟩, rfl⟩
  cases hlast : (stored name members).getLast? with
  | none =>
    rw [List.getLast?_eq_none_iff.mp hlast] at hstored
    exact absurd hstored List.not_mem_nil
  | some found => exact ⟨found, rfl⟩

/-- **The code that Go takes** from a body with an error. -/
theorem bodyText_code {message body code : Bytes} {root : List (Bytes × Document)}
    {item : Document} (hbody : Document.read body = some (.object root))
    (herror : Document.last (ascii "error") root = some item) :
    (bodyText message body).code = code ∧ code ≠ [] ↔ Finds root code := by
  obtain ⟨found, hfound⟩ := exists_stored herror
  have hroot : ∀ {code}, Finds root code → (Document.object root).depth ≤ 10000 ∧
      TakesTexts ["code", "message"] root := by
    intro code h
    cases h with
    | nested hdepth hroot => exact ⟨hdepth, hroot⟩
    | flat hdepth hroot => exact ⟨hdepth, hroot⟩
  have hfinds : (Document.object root).depth ≤ 10000 → TakesTexts ["code", "message"] root →
      ((nestedText message found).code = code ∧ code ≠ [] ↔ Finds root code) := by
    intro hdepth htexts
    rw [nestedText_code]
    constructor
    · rintro (⟨es, rfl, htakes, hcode, hne⟩ | ⟨rfl, hlooks⟩)
      · exact .nested hdepth htexts hfound htakes hcode hne
      · exact .flat hdepth htexts hfound hlooks
    · intro h
      cases h with
      | nested _ _ hlast htakes hcode hne =>
        exact .inl ⟨_, Option.some.inj (hfound.symm.trans hlast), htakes, hcode, hne⟩
      | flat _ _ hlast hlooks =>
        exact .inr ⟨Option.some.inj (hfound.symm.trans hlast), hlooks⟩
  have hsilent : (unmarshal body).bind unmarshalEnvelope = none →
      ((bodyText message body).code = code ∧ code ≠ [] ↔ False) := by
    intro h
    rw [bodyText, h]
    exact iff_false_intro fun h => h.2 h.1.symm
  by_cases hdepth : (Document.object root).depth ≤ 10000
  · have hunmarshal : unmarshal body = some (.object root) := by
      rw [unmarshal, hbody, Option.filter_some, if_pos (decide_eq_true hdepth)]
    by_cases htexts : TakesTexts ["code", "message"] root
    · rw [bodyText, hunmarshal, Option.bind_some,
        unmarshalEnvelope_object.mpr ⟨htexts, rfl⟩]
      simp only [hfound]
      exact hfinds hdepth htexts
    · rw [hsilent]
      · exact ⟨False.elim, fun h => htexts (hroot h).2⟩
      · rw [hunmarshal, Option.bind_some]
        cases henvelope : unmarshalEnvelope (.object root) with
        | none => rfl
        | some envelope => exact absurd (unmarshalEnvelope_object.mp henvelope).1 htexts
  · rw [hsilent]
    · exact ⟨False.elim, fun h => hdepth (hroot h).1⟩
    · rw [unmarshal, hbody, Option.filter_some, if_neg (by simpa using hdepth)]
      rfl

end Go

theorem go_serviceFailure_kind {response : ProtocolResponse} (hlow : 400 ≤ response.statusCode)
    (found : Go.ServiceText) :
    (Go.serviceFailure response found).serviceCode = found.code ∧
      (Go.serviceFailure response found).kind =
        kindOf caseless found.code response.statusCode := by
  have hclient : (400 ≤ response.statusCode ∧ response.statusCode < 500) ↔
      response.statusCode < 500 := and_iff_right hlow
  simp only [Go.serviceFailure, kindOf, otherKind, caseless, decide_eq_true_eq, hclient]
  split
  · exact ⟨rfl, rfl⟩
  split
  · exact ⟨rfl, rfl⟩
  split
  · exact ⟨rfl, rfl⟩
  split
  · exact ⟨rfl, rfl⟩
  split
  · exact ⟨rfl, rfl⟩
  split
  · exact ⟨rfl, rfl⟩
  split
  · exact ⟨rfl, rfl⟩
  split
  · exact ⟨rfl, rfl⟩
  split
  · exact ⟨rfl, rfl⟩
  split
  · exact ⟨rfl, rfl⟩
  · exact ⟨rfl, rfl⟩

theorem go_class {response : ProtocolResponse} {root : List (Bytes × Document)} {item : Document}
    (hlow : 400 ≤ response.statusCode)
    (hbody : Document.read response.body = some (.object root))
    (herror : Document.last (ascii "error") root = some item) :
    ∃ code, Classified caseless response.statusCode (Go.throwIfError response) code ∧
      ∀ c, code = c ∧ c ≠ [] ↔ Go.Finds root c := by
  have hstatus : ¬ (200 ≤ response.statusCode ∧ response.statusCode < 300) := by omega
  refine ⟨(Go.serviceText response).code, ⟨_, by rw [Go.throwIfError, if_neg hstatus],
    go_serviceFailure_kind hlow _⟩, fun c => ?_⟩
  rw [Go.serviceText_code]
  exact Go.bodyText_code hbody herror

/-! ## The three clients -/

/-- The three clients give a response one code and one kind. -/
def SameClass (what : Bytes → Bytes) (fromSlice : Bytes → Option Document)
    (canonicalReason : Int → Option Bytes) (response : ProtocolResponse) : Prop :=
  ∃ cpp go rust, Cpp.throwIfError what response = .error cpp ∧
    Go.throwIfError response = .error go ∧
    Rust.throwIfError fromSlice canonicalReason response = .error rust ∧
    cpp.serviceCode = go.serviceCode ∧ cpp.serviceCode = rust.serviceCode ∧
    cpp.kind = go.kind ∧ cpp.kind = rust.kind

/-- All three find this code, and it is no named code in another case. -/
structure OneCode (response : ProtocolResponse) (fromSlice : Bytes → Option Document)
    (root es : List (Bytes × Document)) (code : Bytes) : Prop where
  nonempty : code ≠ []
  member : Document.last (ascii "code") es = some (.string code)
  cpp : Cpp.Takes response.body es
  rust : (fromSlice response.body).isSome = true
  go : Go.Finds root code
  case : ∀ name ∈ namedCodes, Go.equalFold code name → code = name

/-- None of the three finds a code. -/
structure NoCode (response : ProtocolResponse) (fromSlice : Bytes → Option Document)
    (root es : List (Bytes × Document)) : Prop where
  member : ∀ code, Document.last (ascii "code") es = some (.string code) → code ≠ [] →
    ¬ Cpp.Takes response.body es ∧ ¬ (fromSlice response.body).isSome = true
  go : ∀ code, ¬ Go.Finds root code

theorem textOf_eq {item : Option Document} {code : Bytes} (hne : code ≠ [])
    (h : Document.textOf item = code) : item = some (.string code) := by
  cases item with
  | none => exact absurd h.symm hne
  | some item =>
    cases item with
    | string value => rw [← h]; rfl
    | _ => exact absurd h.symm hne

/-- **When the three clients agree**: for every status of an error and every body with an object
for its error, exactly when all find one code which is no named code in another case, or none
finds any. -/
theorem serviceErrors_agree_iff {what : Bytes → Bytes} {fromSlice : Bytes → Option Document}
    {canonicalReason : Int → Option Bytes} {response : ProtocolResponse}
    (hstatus : 400 ≤ response.statusCode ∧ response.statusCode ≤ 599)
    {root es : List (Bytes × Document)}
    (hbody : Document.read response.body = some (.object root))
    (herror : Document.last (ascii "error") root = some (.object es))
    (hslice : ∀ document, fromSlice response.body = some document → document = .object root) :
    SameClass what fromSlice canonicalReason response ↔
      (∃ code, OneCode response fromSlice root es code) ∨ NoCode response fromSlice root es := by
  obtain ⟨_, ⟨cpp, hcpp, rfl, hkind₁⟩, htakes₁, hno₁⟩ :=
    @cpp_class response root es what hstatus.1 hbody herror
  obtain ⟨_, ⟨go, hgo, rfl, hkind₂⟩, hfinds⟩ := go_class hstatus.1 hbody herror
  obtain ⟨_, ⟨rust, hrust, rfl, hkind₃⟩, htakes₃, hno₃⟩ :=
    @rust_class response root es fromSlice canonicalReason hstatus.1 hslice herror
  have hsame : SameClass what fromSlice canonicalReason response ↔
      cpp.serviceCode = go.serviceCode ∧ cpp.serviceCode = rust.serviceCode ∧
        cpp.kind = go.kind ∧ cpp.kind = rust.kind := by
    constructor
    · rintro ⟨_, _, _, h₁, h₂, h₃, hall⟩
      obtain rfl := Except.error.inj (hcpp.symm.trans h₁)
      obtain rfl := Except.error.inj (hgo.symm.trans h₂)
      obtain rfl := Except.error.inj (hrust.symm.trans h₃)
      exact hall
    · exact fun hall => ⟨cpp, go, rust, hcpp, hgo, hrust, hall⟩
  rw [hsame]
  constructor
  · rintro ⟨hcode₂, hcode₃, hkind, -⟩
    by_cases hne : cpp.serviceCode = []
    · refine .inr ⟨fun code hmember hcode => ⟨fun htakes => ?_, fun hread => ?_⟩,
        fun code hfound => ?_⟩
      · have htext := htakes₁ htakes
        rw [hmember, hne] at htext
        exact hcode htext.symm
      · have htext := htakes₃ hread
        rw [hmember, ← hcode₃, hne] at htext
        exact hcode htext.symm
      · obtain ⟨hcode, hne'⟩ := (hfinds code).mpr hfound
        exact hne' (by rw [← hcode, ← hcode₂, hne])
    · have htakes : Cpp.Takes response.body es := by
        by_contra h
        exact hne (hno₁ h)
      have hread : (fromSlice response.body).isSome = true := by
        by_contra h
        exact hne (hcode₃.trans (hno₃ h))
      rw [hkind₁, hkind₂, ← hcode₂] at hkind
      exact .inl ⟨cpp.serviceCode, hne, textOf_eq hne (htakes₁ htakes).symm, htakes, hread,
        (hfinds _).mp ⟨hcode₂.symm, hne⟩, kindOf_eq_iff.mp hkind⟩
  · intro h
    have hall : ∃ code, cpp.serviceCode = code ∧ go.serviceCode = code ∧ rust.serviceCode = code ∧
        ∀ name ∈ namedCodes, Go.equalFold code name → code = name := by
      rcases h with ⟨code, hcode⟩ | hnone
      · have htext : Document.textOf (Document.last (ascii "code") es) = code := by
          rw [hcode.member]
          rfl
        exact ⟨code, (htakes₁ hcode.cpp).trans htext, ((hfinds code).mpr hcode.go).1,
          (htakes₃ hcode.rust).trans htext, hcode.case⟩
      · have hempty : ∀ {code}, code = Document.textOf (Document.last (ascii "code") es) →
            (Cpp.Takes response.body es ∨ (fromSlice response.body).isSome = true) →
            code = [] := by
          intro code htext htakes
          by_contra hne
          obtain ⟨hcpp, hrust⟩ := hnone.member code (textOf_eq hne htext.symm) hne
          exact htakes.elim hcpp hrust
        refine ⟨[], ?_, ?_, ?_, by decide⟩
        · by_cases htakes : Cpp.Takes response.body es
          · exact hempty (htakes₁ htakes) (.inl htakes)
          · exact hno₁ htakes
        · by_contra hne
          exact hnone.go _ ((hfinds _).mp ⟨rfl, hne⟩)
        · by_cases hread : (fromSlice response.body).isSome = true
          · exact hempty (htakes₃ hread) (.inr hread)
          · exact hno₃ hread
    obtain ⟨code, hcode₁, hcode₂, hcode₃, hcase⟩ := hall
    rw [hkind₁, hkind₂, hkind₃, hcode₁, hcode₂, hcode₃]
    exact ⟨rfl, rfl, kindOf_eq_iff.mpr hcase, rfl⟩

/-! Two answers that say that a device is blocked. -/

def blockedBody : Bytes := ascii "\x7b\"error\":\x7b\"code\":\"device_blocked\"\x7d\x7d"

theorem read_blockedBody : Document.read blockedBody = some (.object
    [(ascii "error", .object [(ascii "code", .string (ascii "device_blocked"))])]) := rfl

/-- A device that is blocked is blocked for all. -/
theorem blocked_sameClass :
    SameClass id Document.read (fun _ => none) ⟨403, blockedBody⟩ := by
  refine (serviceErrors_agree_iff (by decide) read_blockedBody rfl
    (fun document h => Option.some.inj (h.symm.trans read_blockedBody))).mpr (.inl
      ⟨ascii "device_blocked", by decide, rfl, ⟨rfl, ?_⟩, rfl, ?_, by decide⟩)
  · intro name hname item hitem
    simp only [List.mem_cons, List.not_mem_nil, or_false] at hname
    rcases hname with rfl | rfl | rfl
    · cases hitem
      trivial
    · cases hitem
    · cases hitem
  · exact .nested (by decide) (by decide) rfl (by decide) rfl (by decide)

def blockedText : Bytes :=
  ascii "\x7b\"error\":\x7b\"code\":\"device_blocked\",\"message\":5\x7d\x7d"

theorem read_blockedText : Document.read blockedText = some (.object [(ascii "error", .object
    [(ascii "code", .string (ascii "device_blocked")), (ascii "message", .number (ascii "5"))])]) :=
  rfl

/-- **A message that is a number** hides the code from C++ and Go; Rust has it blocked. -/
theorem blocked_differs : ¬ SameClass id Document.read (fun _ => none) ⟨403, blockedText⟩ := by
  rintro ⟨cpp, go, rust, hcpp, -, hrust, -, hcode, -⟩
  obtain ⟨_, ⟨cpp', hcpp', rfl, -⟩, -, hno⟩ :=
    @cpp_class ⟨403, blockedText⟩ _ _ id (by decide) read_blockedText rfl
  obtain ⟨_, ⟨rust', hrust', rfl, -⟩, htakes, -⟩ :=
    @rust_class ⟨403, blockedText⟩ _ _ Document.read (fun _ => none) (by decide)
      (fun document h => Option.some.inj (h.symm.trans read_blockedText)) rfl
  obtain rfl := Except.error.inj (hcpp.symm.trans hcpp')
  obtain rfl := Except.error.inj (hrust.symm.trans hrust')
  rw [hno, htakes rfl] at hcode
  · cases hcode
  · exact fun h => h.texts "message" (by decide) (.number (ascii "5")) rfl

end SwmSdk
