import SwmSdk.ClientOptions
import SwmSdk.JsonMember
import SwmSdk.Multipart

/-! # The body of a feedback request

`build_feedback_payload` puts the values of the fields and the files between delimiters as they are.
They are read back as long as none of them holds the boundary, whatever bytes they have
(`Multipart.readForm_encode`).

A file that is there but cannot be opened, or is not read to its end, is sent all the same: the
stream is never asked whether it failed, as `read_all` asks its own.  So the files arrive exactly if
each of them is empty or is read to its end.
-/
namespace SwmSdk
namespace Cpp
open ByteText Outcome Multipart

/-- `FeedbackRequest`: the text, the rating and the files that a user sends. -/
structure FeedbackRequest where
  content : Bytes
  rating : Option Int
  contact : Bytes
  appVersion : Bytes
  attachments : List (List UInt16)
  metadata : Json

/-- The body of a multipart request, and the content type that names its boundary. -/
structure MultipartPayload where
  body : Bytes
  contentType : Bytes
  deriving DecidableEq

/-- What the file system says of a file, and what a stream reads of it. -/
structure AttachmentFile where
  /-- `exists` and `file_size`. -/
  present : Except Failure Bool
  size : Except Failure Nat
  /-- `path.filename().string()`. -/
  name : Except Failure Bytes
  content : Bytes
  /-- The stream is open. -/
  opens : Bool
  /-- How many bytes of the content come before the end or a failure of an open stream, whose
  buffer may also throw. -/
  readable : Except Failure Nat

/-- What comes between the iterators of the stream. -/
def AttachmentFile.streamed (file : AttachmentFile) : Except Failure Bytes :=
  if file.opens then file.readable.map file.content.take else .ok []

/-- `escape_multipart_name`. -/
def escapeMultipartName : Bytes → Bytes
  | [] => []
  | b :: rest =>
      if b = 0x22 then ascii "%22" ++ escapeMultipartName rest
      else if b ≠ 0x0d ∧ b ≠ 0x0a then b :: escapeMultipartName rest
      else escapeMultipartName rest

/-- `value.empty()`. -/
def isEmpty : Json → Bool
  | .null => true
  | .array items => items.isEmpty
  | .object members => members.isEmpty
  | _ => false

/-- What `submit_feedback` throws for a request that it does not send. -/
def feedbackError (message : String) : Failure := .swm (configurationError message)

section Build
variable (dump : Json → Except Failure Bytes) (files : List UInt16 → AttachmentFile)

/-- What the lambda `field` appends. -/
def payloadField (boundary name value : Bytes) : Bytes :=
  (ascii "--" ++ boundary ++ ascii "\r\n") ++
    (ascii "Content-Disposition: form-data; name=\"" ++ escapeMultipartName name ++
      ascii "\"\r\n\r\n") ++ value ++ ascii "\r\n"

/-- A field that is left out if it is empty. -/
def optionalField (boundary name value : Bytes) : Bytes :=
  if value = [] then [] else payloadField boundary name value

/-- The metadata as JSON text, unless there is none. -/
def metadataField (boundary : Bytes) (metadata : Json) : Except Failure Bytes :=
  if isEmpty metadata then .ok []
  else (dump metadata).map (payloadField boundary (ascii "metadata"))

/-- The loop over the attachments. -/
def appendAttachments (boundary : Bytes) : List (List UInt16) → Bytes → Except Failure Bytes
  | [], body => .ok body
  | path :: rest, body =>
      if path = [] then appendAttachments boundary rest body
      else do
        let present ← (files path).present
        if ¬ present then .error (feedbackError "feedback attachment was not found")
        else do
          let size ← (files path).size
          if 5 * 1024 * 1024 < size then
            .error (feedbackError "feedback attachment exceeds 5 MiB")
          else do
            let name ← (files path).name
            let streamed ← (files path).streamed
            appendAttachments boundary rest (body ++
              ((ascii "--" ++ boundary ++ ascii "\r\n") ++
                (ascii "Content-Disposition: form-data; name=\"attachments\"; filename=\"" ++
                  escapeMultipartName name ++ ascii "\"\r\n") ++
                ascii "Content-Type: application/octet-stream\r\n\r\n" ++ streamed ++
                ascii "\r\n"))

/-- The boundary for what is drawn. -/
def payloadBoundary (random : {bytes : Bytes // bytes.length = 12}) : Boundary where
  text := ascii "----------------------------" ++ hex random.val
  plain := by
    rw [List.mem_append, not_or]
    refine ⟨by decide, fun hmem => ?_⟩
    rcases mem_hex hmem with ⟨hlow, -⟩ | ⟨hlow, -⟩ <;> exact absurd hlow (by decide)

/-- The version that is reported. -/
def FeedbackRequest.version (request : FeedbackRequest) (defaultVersion : Bytes) : Bytes :=
  if request.appVersion = [] then defaultVersion else request.appVersion

/-- `build_feedback_payload`, where `drawn` is what `random_bytes` gives. -/
def buildFeedbackPayload (drawn : Except Failure {bytes : Bytes // bytes.length = 12})
    (deviceId channel defaultVersion : Bytes) (request : FeedbackRequest) :
    Except Failure MultipartPayload :=
  if request.content = [] then .error (feedbackError "feedback content is required")
  else if ∃ rating ∈ request.rating, rating < 1 ∨ 5 < rating then
    .error (feedbackError "feedback rating must be between 1 and 5")
  else if 3 < (request.attachments.filter (· ≠ [])).length then
    .error (feedbackError "feedback supports at most 3 attachments")
  else if ¬ isObject request.metadata then
    .error (feedbackError "feedback metadata must be a JSON object")
  else do
    let random ← drawn
    let boundary := (payloadBoundary random).text
    let metadata ← metadataField dump boundary request.metadata
    let body ← appendAttachments files boundary request.attachments
      (payloadField boundary (ascii "device_id") deviceId ++
        optionalField boundary (ascii "channel_code") channel ++
        payloadField boundary (ascii "content") request.content ++
        (request.rating.elim [] fun rating =>
          payloadField boundary (ascii "rating") (decimal rating)) ++
        optionalField boundary (ascii "contact") request.contact ++
        optionalField boundary (ascii "app_version") (request.version defaultVersion) ++ metadata)
    let body := body ++ (ascii "--" ++ boundary ++ ascii "--\r\n")
    if 32 * 1024 * 1024 < body.length then
      .error (feedbackError "feedback payload exceeds 32 MiB")
    else .ok ⟨body, ascii "multipart/form-data; boundary=" ++ boundary⟩

end Build

/-! ## The form -/

/-- A file name without line breaks, its quotes written `%22`. -/
def attachmentName (name : Bytes) : Bytes :=
  (name.filter fun b => b ≠ 0x0d ∧ b ≠ 0x0a).flatMap fun b =>
    if b = 0x22 then ascii "%22" else [b]

theorem escapeMultipartName_eq (name : Bytes) : escapeMultipartName name = attachmentName name := by
  induction name with
  | nil => rfl
  | cons b name ih =>
    unfold escapeMultipartName
    by_cases hquote : b = 0x22
    · subst hquote
      rw [if_pos rfl, ih]
      rfl
    · rw [if_neg hquote, ih]
      by_cases hline : b ≠ 0x0d ∧ b ≠ 0x0a
      · rw [if_pos hline, attachmentName, attachmentName, List.filter_cons,
          if_pos (decide_eq_true hline), List.flatMap_cons, if_neg hquote]
        rfl
      · rw [if_neg hline, attachmentName, attachmentName, List.filter_cons,
          if_neg (by simpa using hline)]

theorem mem_attachmentName {name : Bytes} {b : UInt8} (h : b ∈ attachmentName name) :
    b ≠ 0x22 ∧ b ≠ 0x0d := by
  obtain ⟨c, hc, hb⟩ := List.mem_flatMap.mp h
  have hline := of_decide_eq_true (List.mem_filter.mp hc).2
  split at hb
  · have hescape : (ascii "%22").all (fun b => decide (b ≠ 0x22 ∧ b ≠ 0x0d)) = true := rfl
    exact of_decide_eq_true (List.all_eq_true.mp hescape b hb)
  · next hquote =>
    obtain rfl := List.mem_singleton.mp hb
    exact ⟨hquote, hline.1⟩

/-- A field without a file name. -/
def textField (name value : Bytes) : FormField := ⟨name, none, none, value⟩

/-- The field, unless it is empty. -/
def presentField (name value : Bytes) : List FormField :=
  if value = [] then [] else [textField name value]

/-- The fields that are present, where `metadata` is the text of the metadata. -/
def feedbackFields (deviceId channel defaultVersion : Bytes) (request : FeedbackRequest)
    (metadata : Bytes) : List FormField :=
  [textField (ascii "device_id") deviceId] ++ presentField (ascii "channel_code") channel ++
    [textField (ascii "content") request.content] ++
    (request.rating.elim [] fun rating => [textField (ascii "rating") (decimal rating)]) ++
    presentField (ascii "contact") request.contact ++
    presentField (ascii "app_version") (request.version defaultVersion) ++
    if isEmpty request.metadata then [] else [textField (ascii "metadata") metadata]

/-- The field of a file, with the name it is sent under. -/
def attachmentField (file : AttachmentFile) (content : Bytes) : FormField where
  name := ascii "attachments"
  filename := some (attachmentName (valueOr [] file.name))
  contentType := some (ascii "application/octet-stream")
  content := content

/-- The files whose paths are not empty. -/
def FeedbackRequest.sentFiles (files : List UInt16 → AttachmentFile) (request : FeedbackRequest) :
    List AttachmentFile := (request.attachments.filter (· ≠ [])).map files

/-- The fields, and the files with what `content` says of each. -/
def feedbackForm (content : AttachmentFile → Bytes) (dump : Json → Except Failure Bytes)
    (files : List UInt16 → AttachmentFile) (deviceId channel defaultVersion : Bytes)
    (request : FeedbackRequest) : List FormField :=
  feedbackFields deviceId channel defaultVersion request (valueOr [] (dump request.metadata)) ++
    (request.sentFiles files).map fun file => attachmentField file (content file)

/-- What the stream of a file gives; none if its buffer throws. -/
def AttachmentFile.sent (file : AttachmentFile) : Bytes := valueOr [] file.streamed

/-- The file is empty, or it is opened and read to its end. -/
def AttachmentFile.ReadWhole (file : AttachmentFile) : Prop :=
  file.content = [] ∨ file.opens = true ∧ ∃ n, file.readable = .ok n ∧ file.content.length ≤ n

/-! ## What is written for the form -/

section Written
variable {boundary : Boundary}

theorem payloadField_eq {name : Bytes} (hname : escapeMultipartName name = name) (value : Bytes) :
    payloadField boundary.text name value = encodePart boundary (textField name value).part := by
  simp only [payloadField, hname, encodePart, Part.segment, textField, FormField.part,
    FormField.disposition, FormField.parameter, Option.elim_none, List.flatMap_cons,
    List.flatMap_nil, List.append_nil, List.append_assoc]
  rfl

theorem optionalField_eq {name : Bytes} (hname : escapeMultipartName name = name) (value : Bytes) :
    optionalField boundary.text name value =
      (presentField name value).flatMap fun field => encodePart boundary field.part := by
  unfold optionalField presentField
  split
  · rfl
  · rw [payloadField_eq hname, List.flatMap_singleton]

theorem attachmentPart_eq {file : AttachmentFile} {name streamed : Bytes}
    (hname : file.name = .ok name) (hstreamed : file.streamed = .ok streamed) :
    encodePart boundary (attachmentField file file.sent).part =
      (ascii "--" ++ boundary.text ++ ascii "\r\n") ++
        (ascii "Content-Disposition: form-data; name=\"attachments\"; filename=\"" ++
          escapeMultipartName name ++ ascii "\"\r\n") ++
        ascii "Content-Type: application/octet-stream\r\n\r\n" ++ streamed ++ ascii "\r\n" := by
  simp only [AttachmentFile.sent, hname, hstreamed, valueOr_ok, escapeMultipartName_eq,
    encodePart, Part.segment, attachmentField, FormField.part, FormField.disposition,
    FormField.parameter, Option.elim_some, List.flatMap_cons, List.flatMap_nil, List.append_nil,
    List.append_assoc]
  rfl

/-- The loop appends the parts of the files that it is given paths of. -/
theorem appendAttachments_eq_ok {files : List UInt16 → AttachmentFile}
    {attachments : List (List UInt16)} {body final : Bytes}
    (h : appendAttachments files boundary.text attachments body = .ok final) :
    (∀ path ∈ attachments.filter (· ≠ []), Returns (files path).streamed) ∧
      final = body ++ ((attachments.filter (· ≠ [])).map files).flatMap fun file =>
        encodePart boundary (attachmentField file file.sent).part := by
  induction attachments generalizing body with
  | nil =>
    obtain rfl := Except.ok.inj h
    exact ⟨fun _ hpath => absurd hpath List.not_mem_nil, (List.append_nil _).symm⟩
  | cons path attachments ih =>
    rw [appendAttachments] at h
    by_cases hpath : path = []
    · rw [if_pos hpath] at h
      rw [List.filter_cons_of_neg (by simpa using hpath)]
      exact ih h
    · rw [if_neg hpath] at h
      obtain ⟨present, -, h⟩ := bind_eq_ok.mp h
      obtain ⟨-, h⟩ := guard_eq_ok.mp h
      obtain ⟨size, -, h⟩ := bind_eq_ok.mp h
      obtain ⟨-, h⟩ := guard_eq_ok.mp h
      obtain ⟨name, hname, h⟩ := bind_eq_ok.mp h
      obtain ⟨streamed, hstreamed, h⟩ := bind_eq_ok.mp h
      obtain ⟨hrest, rfl⟩ := ih h
      rw [List.filter_cons_of_pos (by simpa using hpath)]
      refine ⟨List.forall_mem_cons.mpr ⟨⟨streamed, hstreamed⟩, hrest⟩, ?_⟩
      rw [List.map_cons, List.flatMap_cons, attachmentPart_eq hname hstreamed]
      simp only [List.append_assoc]

theorem metadataField_eq_ok {dump : Json → Except Failure Bytes} {metadata : Json} {text : Bytes}
    (h : metadataField dump boundary.text metadata = .ok text) :
    text = (if isEmpty metadata then []
      else [textField (ascii "metadata") (valueOr [] (dump metadata))]).flatMap
        fun field => encodePart boundary field.part := by
  unfold metadataField at h
  split at h
  · next hempty =>
    obtain rfl := Except.ok.inj h
    rw [if_pos hempty]
    rfl
  · next hempty =>
    obtain ⟨dumped, hdump, rfl⟩ := map_eq_ok.mp h
    rw [if_neg hempty, hdump, valueOr_ok, payloadField_eq (by decide), List.flatMap_singleton]

theorem ratingField_eq (rating : Option Int) :
    (rating.elim [] fun rating =>
      payloadField boundary.text (ascii "rating") (decimal rating)) =
      (rating.elim [] fun rating => [textField (ascii "rating") (decimal rating)]).flatMap
        fun field => encodePart boundary field.part := by
  cases rating with
  | none => rfl
  | some rating => exact (payloadField_eq (by decide) _).trans (List.flatMap_singleton ..).symm

end Written

section Payload
variable {dump : Json → Except Failure Bytes} {files : List UInt16 → AttachmentFile}
variable {random : {bytes : Bytes // bytes.length = 12}} {deviceId channel defaultVersion : Bytes}
variable {request : FeedbackRequest} {payload : MultipartPayload}

/-- **What an accepted request is sent as**: a form with what the streams give. -/
theorem buildFeedbackPayload_eq_ok
    (h : buildFeedbackPayload dump files (.ok random) deviceId channel defaultVersion request =
      .ok payload) :
    payload.body = encode (payloadBoundary random)
        ((feedbackForm AttachmentFile.sent dump files deviceId channel defaultVersion request).map
          FormField.part) ∧
      payload.body.length ≤ 32 * 1024 * 1024 ∧ (request.sentFiles files).length ≤ 3 ∧
      ∀ file ∈ request.sentFiles files, Returns file.streamed := by
  unfold buildFeedbackPayload at h
  obtain ⟨-, h⟩ := guard_eq_ok.mp h
  obtain ⟨-, h⟩ := guard_eq_ok.mp h
  obtain ⟨hcount, h⟩ := guard_eq_ok.mp h
  obtain ⟨-, h⟩ := guard_eq_ok.mp h
  obtain ⟨drawn, hdrawn, h⟩ := bind_eq_ok.mp h
  obtain rfl := Except.ok.inj hdrawn
  obtain ⟨metadata, hmetadata, h⟩ := bind_eq_ok.mp h
  obtain ⟨body, hbody, h⟩ := bind_eq_ok.mp h
  obtain ⟨hsize, h⟩ := guard_eq_ok.mp h
  obtain rfl := Except.ok.inj h
  obtain ⟨hstreams, rfl⟩ := appendAttachments_eq_ok hbody
  refine ⟨?_, Nat.not_lt.mp hsize, ?_, ?_⟩
  · rw [metadataField_eq_ok hmetadata, payloadField_eq (by decide), payloadField_eq (by decide),
      optionalField_eq (by decide), optionalField_eq (by decide), optionalField_eq (by decide),
      ratingField_eq, encode, feedbackForm, feedbackFields, FeedbackRequest.sentFiles,
      List.flatMap_map]
    simp only [List.flatMap_append, List.flatMap_singleton, List.flatMap_map, List.append_assoc]
    rfl
  · rw [FeedbackRequest.sentFiles, List.length_map]
    exact Nat.not_lt.mp hcount
  · intro file hfile
    obtain ⟨path, hpath, rfl⟩ := List.mem_map.mp hfile
    exact hstreams path hpath

/-! ## What is read -/

theorem AttachmentFile.sent_prefix (file : AttachmentFile) : file.sent <+: file.content := by
  unfold AttachmentFile.sent AttachmentFile.streamed
  split
  · cases file.readable with
    | error e => exact List.nil_prefix
    | ok n => exact List.take_prefix n file.content
  · exact List.nil_prefix

theorem AttachmentFile.sent_eq_iff {file : AttachmentFile} (h : Returns file.streamed) :
    file.sent = file.content ↔ file.ReadWhole := by
  obtain ⟨streamed, hstreamed⟩ := h
  rw [AttachmentFile.sent, hstreamed, valueOr_ok, AttachmentFile.ReadWhole]
  unfold AttachmentFile.streamed at hstreamed
  by_cases hopens : file.opens = true
  · rw [if_pos hopens] at hstreamed
    obtain ⟨n, hn, rfl⟩ := map_eq_ok.mp hstreamed
    rw [List.take_eq_self_iff]
    constructor
    · exact fun hlength => .inr ⟨hopens, n, hn, hlength⟩
    · rintro (hnil | ⟨-, m, hm, hlength⟩)
      · rw [hnil]
        exact Nat.zero_le n
      · rw [hn] at hm
        rwa [Except.ok.inj hm]
  · rw [if_neg hopens] at hstreamed
    obtain rfl := Except.ok.inj hstreamed
    constructor
    · exact fun hnil => .inl hnil.symm
    · rintro (hnil | ⟨hopen, -⟩)
      · exact hnil.symm
      · exact absurd hopen hopens

theorem textField_fits {boundary : Boundary} {name value : Bytes}
    (hname : 0x22 ∉ name ∧ 0x0d ∉ name) (hvalue : ¬ boundary.text <:+: value) :
    (textField name value).Fits boundary where
  name := hname
  filename := fun _ h => nomatch h
  contentType := fun _ h => nomatch h
  content := hvalue

theorem attachmentField_fits {boundary : Boundary} (file : AttachmentFile) {content : Bytes}
    (hcontent : ¬ boundary.text <:+: content) : (attachmentField file content).Fits boundary where
  name := (by decide : 0x22 ∉ ascii "attachments" ∧ 0x0d ∉ ascii "attachments")
  filename := by
    rintro name hname
    obtain rfl := Option.mem_some_iff.mp hname
    exact ⟨fun hmem => (mem_attachmentName hmem).1 rfl, fun hmem => (mem_attachmentName hmem).2 rfl⟩
  contentType := by
    rintro type htype
    obtain rfl := Option.mem_some_iff.mp htype
    decide
  content := hcontent

theorem mem_presentField {name value : Bytes} {field : FormField}
    (h : field ∈ presentField name value) : field = textField name value := by
  unfold presentField at h
  split at h
  · exact absurd h List.not_mem_nil
  · exact List.mem_singleton.mp h

/-- The fields are texts with names that need no escape. -/
theorem feedbackFields_text {metadata : Bytes} {field : FormField}
    (h : field ∈ feedbackFields deviceId channel defaultVersion request metadata) :
    ∃ name value, (0x22 ∉ name ∧ 0x0d ∉ name) ∧ field = textField name value := by
  simp only [feedbackFields, List.mem_append] at h
  rcases h with (((((hdevice | hchannel) | hcontent) | hrating) | hcontact) | hversion) | hmetadata
  · exact ⟨_, _, by decide, List.mem_singleton.mp hdevice⟩
  · exact ⟨_, _, by decide, mem_presentField hchannel⟩
  · exact ⟨_, _, by decide, List.mem_singleton.mp hcontent⟩
  · cases hsome : request.rating with
    | none =>
      rw [hsome] at hrating
      exact absurd hrating List.not_mem_nil
    | some rating =>
      rw [hsome] at hrating
      exact ⟨_, _, by decide, List.mem_singleton.mp hrating⟩
  · exact ⟨_, _, by decide, mem_presentField hcontact⟩
  · exact ⟨_, _, by decide, mem_presentField hversion⟩
  · split at hmetadata
    · exact absurd hmetadata List.not_mem_nil
    · exact ⟨_, _, by decide, List.mem_singleton.mp hmetadata⟩

/-- **The form is read**, with what the streams gave. -/
theorem readForm_payload
    (h : buildFeedbackPayload dump files (.ok random) deviceId channel defaultVersion request =
      .ok payload)
    (hfree : ∀ field ∈ feedbackForm AttachmentFile.content dump files deviceId channel
      defaultVersion request, ¬ (payloadBoundary random).text <:+: field.content) :
    readForm (payloadBoundary random) payload.body = some ⟨[],
      feedbackForm AttachmentFile.sent dump files deviceId channel defaultVersion request,
      lineBreak.text⟩ := by
  rw [(buildFeedbackPayload_eq_ok h).1]
  refine readForm_encode fun field hfield => ?_
  rcases List.mem_append.mp hfield with htext | hfile
  · obtain ⟨name, value, hname, rfl⟩ := feedbackFields_text htext
    exact textField_fits hname (hfree _ (List.mem_append_left _ htext))
  · obtain ⟨file, hsent, rfl⟩ := List.mem_map.mp hfile
    have hcontent : ¬ (payloadBoundary random).text <:+: file.content :=
      hfree _ (List.mem_append_right _ (List.mem_map_of_mem hsent))
    exact attachmentField_fits file fun hin => hcontent (hin.trans file.sent_prefix.isInfix)

/-- The body is the form, with the files as they are, and keeps to the limits. -/
structure RoundTrips (boundary : Boundary) (form : List FormField)
    (sentFiles : List AttachmentFile) (body : Bytes) : Prop where
  form : readForm boundary body = some ⟨[], form, lineBreak.text⟩
  size : body.length ≤ 32 * 1024 * 1024
  attachments : sentFiles.length ≤ 3

/-- **The form arrives exactly if every file is empty or read to its end.** -/
theorem feedbackPayload_roundTrips_iff
    (h : buildFeedbackPayload dump files (.ok random) deviceId channel defaultVersion request =
      .ok payload)
    (hfree : ∀ field ∈ feedbackForm AttachmentFile.content dump files deviceId channel
      defaultVersion request, ¬ (payloadBoundary random).text <:+: field.content) :
    RoundTrips (payloadBoundary random) (feedbackForm AttachmentFile.content dump files deviceId
        channel defaultVersion request) (request.sentFiles files) payload.body ↔
      ∀ file ∈ request.sentFiles files, file.ReadWhole := by
  obtain ⟨-, hsize, hcount, hstreams⟩ := buildFeedbackPayload_eq_ok h
  have hsame : (∀ file ∈ request.sentFiles files, file.ReadWhole) ↔
      feedbackForm AttachmentFile.sent dump files deviceId channel defaultVersion request =
        feedbackForm AttachmentFile.content dump files deviceId channel defaultVersion request := by
    unfold feedbackForm
    rw [List.append_right_inj, List.map_inj_left]
    refine forall₂_congr fun file hfile => ?_
    rw [← AttachmentFile.sent_eq_iff (hstreams file hfile)]
    exact ⟨fun hcontent => by rw [hcontent], fun hfield => congrArg FormField.content hfield⟩
  rw [hsame]
  constructor
  · intro hround
    have hread := (readForm_payload h hfree).symm.trans hround.form
    exact congrArg Form.fields (Option.some.inj hread)
  · intro hforms
    refine ⟨?_, hsize, hcount⟩
    rw [readForm_payload h hfree, hforms]

end Payload

/-- The file `a` with the text `abc`, and whether it can be opened. -/
def sampleAttachment (opens : Bool) : AttachmentFile where
  present := .ok true
  size := .ok 3
  name := .ok (ascii "a")
  content := ascii "abc"
  opens := opens
  readable := .ok 3

/-- A request without files. -/
def sampleFeedback : FeedbackRequest where
  content := ascii "text"
  rating := some 5
  contact := []
  appVersion := []
  attachments := [[0x61]]
  metadata := .object []

/-- `build_feedback_payload` for that request and file. -/
def samplePayload (opens : Bool) : Except Failure MultipartPayload :=
  buildFeedbackPayload (fun _ => .ok []) (fun _ => sampleAttachment opens)
    (.ok ⟨List.replicate 12 0, rfl⟩) (ascii "d") [] (ascii "1.0") sampleFeedback

/-- The fields and the file of that request. -/
def sampleForm (opens : Bool) : List FormField :=
  feedbackForm AttachmentFile.content (fun _ => .ok []) (fun _ => sampleAttachment opens)
    (ascii "d") [] (ascii "1.0") sampleFeedback

def sampleBoundary : Boundary := payloadBoundary ⟨List.replicate 12 0, rfl⟩

theorem sampleForm_free (opens : Bool) :
    ∀ field ∈ sampleForm opens, ¬ sampleBoundary.text <:+: field.content := by
  cases opens <;> decide

set_option maxRecDepth 4000 in
theorem samplePayload_ok (opens : Bool) : ∃ payload, samplePayload opens = .ok payload := by
  cases opens <;> exact ⟨_, rfl⟩

theorem feedbackPayload_roundTrips_sample :
    ∃ payload, samplePayload true = .ok payload ∧
      RoundTrips sampleBoundary (sampleForm true) [sampleAttachment true] payload.body := by
  obtain ⟨payload, h⟩ := samplePayload_ok true
  refine ⟨payload, h, (feedbackPayload_roundTrips_iff h (sampleForm_free true)).mpr ?_⟩
  exact List.forall_mem_singleton.mpr (.inr ⟨rfl, 3, rfl, Nat.le_refl 3⟩)

/-- A file that is there and cannot be opened arrives empty. -/
theorem unopened_attachment_empty :
    ∃ payload, samplePayload false = .ok payload ∧
      (∀ field ∈ sampleForm false, ¬ sampleBoundary.text <:+: field.content) ∧
      ¬ RoundTrips sampleBoundary (sampleForm false) [sampleAttachment false] payload.body := by
  obtain ⟨payload, h⟩ := samplePayload_ok false
  refine ⟨payload, h, sampleForm_free false, fun hround => ?_⟩
  have hread := (readForm_payload h (sampleForm_free false)).symm.trans hround.form
  have hforms : feedbackForm AttachmentFile.sent (fun _ => .ok [])
      (fun _ => sampleAttachment false) (ascii "d") [] (ascii "1.0") sampleFeedback =
        sampleForm false := congrArg Form.fields (Option.some.inj hread)
  exact absurd hforms (by decide)

end Cpp
end SwmSdk
