import SwmSdk.ClientCalls
import SwmSdk.UriReference

/-! # The URL of a download

`valid_download_url` is to accept exactly the texts on the route of an artifact's ticket
(`ArtifactRoute`), under the scheme and authority of the base URL.  `validDownloadUrl_iff`
says what it accepts: nothing at all under a base URL without a slash at its end, and
otherwise every text of the route's shape (`ArtifactPath`) in which `ticket=` stands
anywhere.  `artifactRoute_iff` compares the two.
-/
namespace SwmSdk
namespace Cpp
open ByteText Outcome UriReference

/-! ## Texts inside a text -/

/-- A text without a byte stands on one side of that byte. -/
theorem infix_append_cons_iff {needle a b : Bytes} {c : UInt8} (h : c ∉ needle) :
    needle <:+: a ++ c :: b ↔ needle <:+: a ∨ needle <:+: b := by
  constructor
  · rintro ⟨before, after, hsplit⟩
    rw [List.append_assoc] at hsplit
    rcases List.append_eq_append_iff.mp hsplit with ⟨mid, ha, hmid⟩ | ⟨mid, hbefore, hmid⟩
    · rcases List.append_eq_append_iff.mp hmid with ⟨last, hlast, -⟩ | ⟨last, hneedle, hlast⟩
      · exact .inl ⟨before, last, by rw [ha, hlast, List.append_assoc]⟩
      · cases last with
        | nil =>
          refine .inl ⟨before, [], ?_⟩
          rw [ha, hneedle, List.append_nil, List.append_nil]
        | cons d last =>
          cases hlast
          exact absurd (hneedle ▸ List.mem_append_right _ (List.mem_cons_self ..)) h
    · cases mid with
      | nil =>
        rw [List.nil_append] at hmid
        cases needle with
        | nil => exact .inl List.nil_infix
        | cons d needle =>
          cases hmid
          exact absurd (List.mem_cons_self ..) h
      | cons d mid =>
        cases hmid
        exact .inr ⟨mid, after, List.append_assoc ..⟩
  · rintro (ha | hb)
    · exact List.infix_append_of_infix_left ha
    · exact (hb.trans (List.infix_cons List.infix_rfl)).trans List.infix_append_right

/-- The parts between slashes are those of the library. -/
theorem splitSlashes_eq (text : Bytes) : splitSlashes text = text.splitOn 0x2f := by
  induction text with
  | nil => rfl
  | cons b rest ih =>
    rw [splitSlashes, List.splitOn_cons_eq_if_modifyHead, ih]
    by_cases hb : b = 0x2f
    · rw [if_pos hb, if_pos (beq_iff_eq.mpr hb)]
    · rw [if_neg hb, if_neg (by simpa using hb)]
      cases hparts : rest.splitOn 0x2f with
      | nil => exact absurd hparts (List.splitOn_ne_nil _ _)
      | cons part parts => rfl

/-! ## The route of an artifact -/

/-- A query has a parameter of the name; names are compared as they are written. -/
def HasParameter (name query : Bytes) : Prop :=
  ∃ part ∈ query.splitOn 0x26, part.takeWhile (· ≠ 0x3d) = name

instance (name query : Bytes) : Decidable (HasParameter name query) := by
  unfold HasParameter
  infer_instance

/-- A base URL, with a slash at its end or without. -/
def baseUrl (scheme authority : Bytes) (slash : Bool) : Bytes :=
  scheme ++ ascii "://" ++ authority ++ (if slash then ascii "/" else [])

/-- The path of an artifact under a scheme and an authority, and what comes after it. -/
def artifactUrl (scheme authority id tail : Bytes) : Bytes :=
  scheme ++ ascii "://" ++ authority ++ ascii "/api/client/artifacts/" ++ id ++
    ascii "/download" ++ tail

/-- **The route of an artifact's ticket**: an identifier that is a segment of the path, and a
query with a ticket. -/
def ArtifactRoute (scheme authority raw : Bytes) : Prop :=
  ∃ id query, raw = artifactUrl scheme authority id (ascii "?" ++ query) ∧
    id ≠ [] ∧ 0x2f ∉ id ∧ 0x3f ∉ id ∧ 0x23 ∉ id ∧
    0x23 ∉ query ∧ HasParameter (ascii "ticket") query

/-- A text of the shape of the route: the identifier, and what comes after the path. -/
structure ArtifactPath (scheme authority raw id tail : Bytes) : Prop where
  raw_eq : raw = artifactUrl scheme authority id tail
  slash_notMem : 0x2f ∉ id
  question_notMem : 0x3f ∉ id
  tail_cases : tail = [] ∨ ∃ query, tail = 0x3f :: query

/-- The identifier and the query are those of a route. -/
def Ticketed (id tail : Bytes) : Prop :=
  id ≠ [] ∧ 0x23 ∉ id ∧
    ∃ query, tail = 0x3f :: query ∧ 0x23 ∉ query ∧ HasParameter (ascii "ticket") query

/-- The text that is looked for stands in the identifier or after the path. -/
def Mentions (id tail : Bytes) : Prop := ascii "ticket=" <:+: id ∨ ascii "ticket=" <:+: tail

theorem artifactRoute_iff_path {scheme authority raw : Bytes} :
    ArtifactRoute scheme authority raw ↔
      ∃ id tail, ArtifactPath scheme authority raw id tail ∧ Ticketed id tail := by
  constructor
  · rintro ⟨id, query, hraw, hne, hslash, hquestion, hhash, hquery, hticket⟩
    exact ⟨id, 0x3f :: query, ⟨hraw, hslash, hquestion, .inr ⟨query, rfl⟩⟩, hne, hhash, query, rfl,
      hquery, hticket⟩
  · rintro ⟨id, tail, hpath, hne, hhash, query, rfl, hquery, hticket⟩
    exact ⟨id, query, hpath.raw_eq, hne, hpath.slash_notMem, hpath.question_notMem, hhash, hquery,
      hticket⟩

/-- The identifier and what comes after the path are determined. -/
theorem ArtifactPath.unique {scheme authority raw id id' tail tail' : Bytes}
    (h : ArtifactPath scheme authority raw id tail)
    (h' : ArtifactPath scheme authority raw id' tail') : id = id' ∧ tail = tail' := by
  have hsame := h.raw_eq.symm.trans h'.raw_eq
  simp only [artifactUrl, List.append_assoc, List.append_cancel_left_eq] at hsame
  have hfirst : ∀ {id : Bytes} (tail : Bytes), 0x2f ∉ id →
      (id ++ (ascii "/download" ++ tail)).takeWhile (· ≠ 0x2f) = id := by
    intro id tail hid
    have hin : ∀ b ∈ id, decide (b ≠ 0x2f) = true := fun b hb =>
      decide_eq_true fun hb' : b = 0x2f => hid (hb' ▸ hb)
    rw [List.takeWhile_append_of_pos hin]
    exact List.append_nil _
  have hid : id = id' := by
    rw [← hfirst tail h.slash_notMem, hsame, hfirst tail' h'.slash_notMem]
  subst hid
  exact ⟨rfl, List.append_cancel_left (List.append_cancel_left hsame)⟩

/-- The text that is looked for is not in the fixed parts of the path. -/
theorem mentions_iff {id tail : Bytes} (htail : tail = [] ∨ ∃ query, tail = 0x3f :: query) :
    ascii "ticket=" <:+: ascii "/api/client/artifacts/" ++ id ++ ascii "/download" ++ tail ↔
      Mentions id tail := by
  have hdownload : ascii "ticket=" <:+: ascii "download" ++ tail ↔ ascii "ticket=" <:+: tail := by
    rcases htail with rfl | ⟨query, rfl⟩
    · rw [List.append_nil]
      exact iff_of_false (by decide) (by decide)
    · have hquery : ascii "ticket=" <:+: [] ++ 0x3f :: query ↔ _ :=
        infix_append_cons_iff (by decide)
      rw [List.nil_append] at hquery
      rw [infix_append_cons_iff (by decide), hquery]
      exact or_congr_left (iff_of_false (by decide) (by decide))
  rw [show ascii "/api/client/artifacts/" ++ id ++ ascii "/download" ++ tail =
    ascii "/api/client/artifacts" ++ 0x2f :: (id ++ 0x2f :: (ascii "download" ++ tail)) by
      rw [List.append_assoc, List.append_assoc]
      rfl]
  rw [infix_append_cons_iff (by decide), infix_append_cons_iff (by decide), hdownload]
  exact or_iff_right (by decide)

/-! ## What the code accepts -/

/-- The parts of a path are the five of the route. -/
theorem splitSlashes_route {path : Bytes} :
    (∃ id, splitSlashes path =
        [ascii "api", ascii "client", ascii "artifacts", id, ascii "download"]) ↔
      ∃ id, 0x2f ∉ id ∧ path = ascii "api/client/artifacts/" ++ id ++ ascii "/download" := by
  constructor
  · rintro ⟨id, hparts⟩
    rw [splitSlashes_eq] at hparts
    have hid : 0x2f ∉ id := by
      have hmem := (forall_mem_splitOn (p := (· ≠ 0x2f)) path 0x2f).mpr (fun c _ hc => hc) id
        (by simp [hparts])
      exact fun h => hmem 0x2f h rfl
    refine ⟨id, hid, ?_⟩
    calc path = [0x2f].intercalate (path.splitOn 0x2f) := (List.intercalate_splitOn 0x2f).symm
      _ = ascii "api/client/artifacts/" ++ (id ++ ascii "/download") := by
        rw [hparts]
        rfl
      _ = ascii "api/client/artifacts/" ++ id ++ ascii "/download" := (List.append_assoc ..).symm
  · rintro ⟨id, hid, rfl⟩
    refine ⟨id, ?_⟩
    rw [splitSlashes_eq]
    have hparts : ∀ part ∈ [ascii "api", ascii "client", ascii "artifacts", id, ascii "download"],
        0x2f ∉ part := by
      simp only [List.forall_mem_cons]
      exact ⟨by decide, by decide, by decide, hid, by decide, by simp⟩
    rw [← List.splitOn_intercalate 0x2f hparts (List.cons_ne_nil _ _), List.append_assoc]
    rfl

theorem splitFirst_base {scheme : Bytes} (hscheme : 0x3a ∉ scheme) (rest : Bytes) :
    splitFirst (ascii "://") (scheme ++ ascii "://" ++ rest) = some (scheme, rest) :=
  splitFirst_head hscheme

theorem splitFirst_slash {authority : Bytes} (hauthority : 0x2f ∉ authority) (rest : Bytes) :
    splitFirst (ascii "/") (authority ++ ascii "/" ++ rest) = some (authority, rest) :=
  splitFirst_head hauthority

/-- Under a base URL without a slash at its end nothing is accepted. -/
theorem validDownloadUrl_bare {scheme authority : Bytes} (hscheme : 0x3a ∉ scheme)
    (hauthority : 0x2f ∉ authority) (raw : Bytes) :
    validDownloadUrl raw (baseUrl scheme authority false) = false := by
  have hbase : splitFirst (ascii "://") (baseUrl scheme authority false) =
      some (scheme, authority) := by
    rw [baseUrl, List.append_assoc, splitFirst_base hscheme]
    simp
  have hnone : splitFirst (ascii "/") authority = none := by
    rw [← Option.not_isSome_iff_eq_none, splitFirst_isSome_iff]
    exact fun h => hauthority (h.subset (List.mem_singleton_self _))
  rw [validDownloadUrl, hbase]
  split
  · rename_i hraw hpair
    cases hpair
    rw [hnone]
    split
    · rename_i h
      cases h
    · rfl
  · rfl

/-- The path that is tested: a ticket, and the five segments. -/
theorem validDownloadUrl_slash {scheme authority : Bytes} (hscheme : 0x3a ∉ scheme)
    (hauthority : 0x2f ∉ authority) (raw : Bytes) :
    validDownloadUrl raw (baseUrl scheme authority true) = true ↔
      ∃ path, raw = scheme ++ ascii "://" ++ (authority ++ ascii "/" ++ path) ∧
        ascii "ticket=" <:+: ascii "/" ++ path ∧
        ∃ id, splitSlashes (path.takeWhile (· ≠ 0x3f)) =
          [ascii "api", ascii "client", ascii "artifacts", id, ascii "download"] := by
  have hbase : splitFirst (ascii "://") (baseUrl scheme authority true) =
      some (scheme, authority ++ ascii "/" ++ []) := by
    rw [baseUrl, List.append_assoc, splitFirst_base hscheme]
    simp
  rw [validDownloadUrl, hbase]
  constructor
  · intro h
    split at h
    · rename_i hraw hpair
      cases hpair
      rw [splitFirst_slash hauthority] at h
      split at h
      · rename_i hrest hpair
        cases hpair
        simp only [Bool.and_eq_true, decide_eq_true_eq] at h
        obtain ⟨⟨⟨rfl, rfl⟩, hticket⟩, hparts⟩ := h
        refine ⟨_, by rw [splitFirst_eq hraw, splitFirst_eq hrest],
          (splitFirst_isSome_iff ..).mp hticket, ?_⟩
        split at hparts
        · rename_i hsplit
          simp only [Bool.and_eq_true, decide_eq_true_eq] at hparts
          obtain ⟨⟨⟨rfl, rfl⟩, rfl⟩, rfl⟩ := hparts
          exact ⟨_, hsplit⟩
        · cases hparts
      · cases h
    · cases h
  · rintro ⟨path, rfl, hticket, id, hsplit⟩
    rw [splitFirst_base hscheme]
    dsimp only
    rw [splitFirst_slash hauthority, splitFirst_slash hauthority]
    dsimp only
    rw [(splitFirst_isSome_iff ..).mpr hticket, hsplit]
    simp

/-- The path of an artifact, up to what comes after it. -/
theorem takeWhile_route_iff {path id : Bytes} :
    path.takeWhile (· ≠ 0x3f) = ascii "api/client/artifacts/" ++ id ++ ascii "/download" ↔
      0x3f ∉ id ∧ ∃ tail, (tail = [] ∨ ∃ query, tail = 0x3f :: query) ∧
        path = ascii "api/client/artifacts/" ++ id ++ ascii "/download" ++ tail := by
  constructor
  · intro hpath
    refine ⟨fun h => ?_, path.dropWhile (· ≠ 0x3f), ?_, ?_⟩
    · have hmem : 0x3f ∈ path.takeWhile (· ≠ 0x3f) := by
        rw [hpath]
        exact List.mem_append_left _ (List.mem_append_right _ h)
      simpa using mem_takeWhile hmem
    · exact dropWhile_ne_cases 0x3f path
    · rw [← hpath, List.takeWhile_append_dropWhile]
  · rintro ⟨hquestion, tail, htail, rfl⟩
    refine takeWhile_append_stops (fun b hb => ?_) ?_
    · simp only [List.mem_append] at hb
      rcases hb with (hb | hb) | hb
      · have hfixed : (ascii "api/client/artifacts/").all (· ≠ 0x3f) = true := by decide
        exact List.all_eq_true.mp hfixed b hb
      · exact decide_eq_true fun hb' : b = 0x3f => hquestion (hb' ▸ hb)
      · have hfixed : (ascii "/download").all (· ≠ 0x3f) = true := by decide
        exact List.all_eq_true.mp hfixed b hb
    · rcases htail with rfl | ⟨query, rfl⟩
      · exact fun b hb => by cases hb
      · exact fun b hb => by cases hb; rfl

/-- **What the code accepts**: under a base URL with a slash at its end, every text of the shape of
the route that mentions a ticket. -/
theorem validDownloadUrl_iff {scheme authority : Bytes} (hscheme : 0x3a ∉ scheme)
    (hauthority : 0x2f ∉ authority) (slash : Bool) (raw : Bytes) :
    validDownloadUrl raw (baseUrl scheme authority slash) = true ↔
      slash = true ∧ ∃ id tail, ArtifactPath scheme authority raw id tail ∧ Mentions id tail := by
  cases slash with
  | false =>
    rw [validDownloadUrl_bare hscheme hauthority]
    exact iff_of_false (by decide) fun h => absurd h.1 (by decide)
  | true =>
    rw [validDownloadUrl_slash hscheme hauthority]
    constructor
    · rintro ⟨path, rfl, hticket, hparts⟩
      obtain ⟨id, hid, hpath⟩ := splitSlashes_route.mp hparts
      obtain ⟨hquestion, tail, htail, rfl⟩ := takeWhile_route_iff.mp hpath
      refine ⟨rfl, id, tail, ⟨?_, hid, hquestion, htail⟩, (mentions_iff htail).mp ?_⟩
      · simp only [artifactUrl, List.append_assoc]
        rfl
      · rw [List.append_assoc, List.append_assoc] at hticket ⊢
        exact hticket
    · rintro ⟨-, id, tail, ⟨rfl, hid, hquestion, htail⟩, hmentions⟩
      refine ⟨ascii "api/client/artifacts/" ++ id ++ ascii "/download" ++ tail, ?_, ?_,
        splitSlashes_route.mpr ⟨id, hid, takeWhile_route_iff.mpr ⟨hquestion, tail, htail, rfl⟩⟩⟩
      · simp only [artifactUrl, List.append_assoc]
        rfl
      · have h := (mentions_iff htail).mpr hmentions
        rw [List.append_assoc, List.append_assoc] at h ⊢
        exact h

/-- **When exactly the route of a ticket is accepted**, with `slash` for a slash at the end of the
base URL. -/
theorem route_iff {scheme authority : Bytes} (hscheme : 0x3a ∉ scheme)
    (hauthority : 0x2f ∉ authority) (slash : Bool) (raw : Bytes) :
    (validDownloadUrl raw (baseUrl scheme authority slash) = true ↔
        ArtifactRoute scheme authority raw) ↔
      ∀ id tail, ArtifactPath scheme authority raw id tail →
        (Ticketed id tail → slash = true ∧ Mentions id tail) ∧
        (slash = true → Mentions id tail → Ticketed id tail) := by
  rw [validDownloadUrl_iff hscheme hauthority, artifactRoute_iff_path]
  constructor
  · intro h id tail hpath
    refine ⟨fun hticket => ?_, fun hslash hmentions => ?_⟩
    · obtain ⟨hslash, id', tail', hpath', hmentions⟩ := h.mpr ⟨id, tail, hpath, hticket⟩
      obtain ⟨rfl, rfl⟩ := hpath.unique hpath'
      exact ⟨hslash, hmentions⟩
    · obtain ⟨id', tail', hpath', hticket⟩ := h.mp ⟨hslash, id, tail, hpath, hmentions⟩
      obtain ⟨rfl, rfl⟩ := hpath.unique hpath'
      exact hticket
  · intro h
    constructor
    · rintro ⟨hslash, id, tail, hpath, hmentions⟩
      exact ⟨id, tail, hpath, (h id tail hpath).2 hslash hmentions⟩
    · rintro ⟨id, tail, hpath, hticket⟩
      obtain ⟨hslash, hmentions⟩ := (h id tail hpath).1 hticket
      exact ⟨hslash, id, tail, hpath, hmentions⟩

/-! ## The base URL of a client -/

/-- The constructor keeps a base URL with one of two schemes. -/
theorem create_baseUrl {process : Arch} {options : ClientOptions} {client : Client}
    (h : Client.create process options = .ok client) :
    client.options.baseUrl = options.baseUrl ∧
      (urlScheme options.baseUrl = ascii "https" ∨ urlScheme options.baseUrl = ascii "http") := by
  have hcreated := create_ok h
  constructor
  · rw [hcreated.options]
    split <;> rfl
  · unfold Client.create at h
    obtain ⟨-, h⟩ := guard_eq_ok.mp h
    obtain ⟨-, h⟩ := guard_eq_ok.mp h
    obtain ⟨-, h⟩ := guard_eq_ok.mp h
    obtain ⟨hscheme, -⟩ := guard_eq_ok.mp h
    tauto

/-- The scheme of an accepted base URL has no colon. -/
theorem colon_notMem_scheme {scheme rest : Bytes} (hslash : 0x2f ∉ scheme)
    (haccepted : urlScheme (scheme ++ ascii "://" ++ rest) = ascii "https" ∨
      urlScheme (scheme ++ ascii "://" ++ rest) = ascii "http") : 0x3a ∉ scheme := by
  have hletters : ∀ {text : Bytes}, lower text = ascii "https" ∨ lower text = ascii "http" →
      ∀ b ∈ text, b ≠ 0x3a ∧ b ≠ 0x2f := by
    intro text h b hb
    have hmem : lowerByte b ∈ lower text := List.mem_map_of_mem hb
    refine ⟨?_, ?_⟩ <;> rintro rfl <;> rcases h with h | h <;> rw [h] at hmem <;>
      exact absurd hmem (by decide)
  cases hsplit : splitFirst (ascii "://") (scheme ++ ascii "://" ++ rest) with
  | none =>
    have hfound := (splitFirst_isSome_iff _ _).mpr (List.infix_append scheme (ascii "://") rest)
    rw [hsplit] at hfound
    cases hfound
  | some found =>
    obtain ⟨first, after⟩ := found
    rw [urlScheme, hsplit] at haccepted
    have hfirst := hletters haccepted
    -- both splits of the URL end with the colon in front of its first slash
    have hstop : ∀ {part : Bytes} (more : Bytes), 0x2f ∉ part →
        (part ++ ascii "://" ++ more).takeWhile (· ≠ 0x2f) = part ++ ascii ":" := by
      intro part more hpart
      have hin : ∀ b ∈ part ++ ascii ":", decide (b ≠ 0x2f) = true := by
        intro b hb
        rcases List.mem_append.mp hb with hb | hb
        · exact decide_eq_true fun hb' : b = 0x2f => hpart (hb' ▸ hb)
        · rw [List.mem_singleton.mp hb]
          decide
      have htext : part ++ ascii "://" ++ more = (part ++ ascii ":") ++ (ascii "//" ++ more) := by
        simp only [List.append_assoc]
        rfl
      rw [htext, takeWhile_append_stops hin]
      intro b hb
      cases hb
      rfl
    have hsame : scheme ++ ascii ":" = first ++ ascii ":" := by
      rw [← hstop rest hslash, splitFirst_eq hsplit, hstop after fun h => (hfirst _ h).2 rfl]
    rw [List.append_cancel_right hsame]
    exact fun h => (hfirst _ h).1 rfl

/-- **When exactly a client accepts the route of a ticket**, whose base URL is a scheme and an
authority, with or without a slash. -/
theorem validDownloadUrl_route_iff {process : Arch} {options : ClientOptions} {client : Client}
    (hcreate : Client.create process options = .ok client) {scheme authority : Bytes} {slash : Bool}
    (hbase : options.baseUrl = baseUrl scheme authority slash) (hscheme : 0x2f ∉ scheme)
    (hauthority : 0x2f ∉ authority) (raw : Bytes) :
    (validDownloadUrl raw client.options.baseUrl = true ↔ ArtifactRoute scheme authority raw) ↔
      ∀ id tail, ArtifactPath scheme authority raw id tail →
        (Ticketed id tail → slash = true ∧ Mentions id tail) ∧
        (slash = true → Mentions id tail → Ticketed id tail) := by
  obtain ⟨hsame, haccepted⟩ := create_baseUrl hcreate
  rw [hbase, baseUrl, List.append_assoc] at haccepted
  rw [hsame, hbase]
  exact route_iff (colon_notMem_scheme hscheme haccepted) hauthority slash raw

/-! A client of the host `h`. -/

/-- The options of the samples, with a base URL that ends in a slash or does not. -/
def hostOptions (slash : Bool) : ClientOptions :=
  { sampleOptions with baseUrl := baseUrl (ascii "https") (ascii "h") slash }

theorem hostOptions_accepted (slash : Bool) : Client.create .x64 (hostOptions slash) =
    .ok ⟨{ hostOptions slash with arch := ascii "x64" }, hostOptions slash⟩ := by
  cases slash <;> unfold Client.create <;>
    rw [if_neg (by decide), if_neg (by decide), if_neg (by decide),
      if_neg (by decide), if_neg (by decide), if_neg (by decide)] <;>
    rfl

/-- A download URL of the service. -/
def sampleArtifact : Bytes := ascii "https://h/api/client/artifacts/7/download?ticket=t"

theorem sampleArtifact_path :
    ArtifactPath (ascii "https") (ascii "h") sampleArtifact (ascii "7") (ascii "?ticket=t") :=
  ⟨rfl, by decide, by decide, .inr ⟨ascii "ticket=t", rfl⟩⟩

theorem sampleArtifact_ticketed : Ticketed (ascii "7") (ascii "?ticket=t") :=
  ⟨by decide, by decide, ascii "ticket=t", rfl, by decide, by decide⟩

/-- With the slash the sample URL is accepted. -/
theorem sampleArtifact_accepted :
    validDownloadUrl sampleArtifact (hostOptions true).baseUrl = true ↔
      ArtifactRoute (ascii "https") (ascii "h") sampleArtifact := by
  have hiff := @validDownloadUrl_route_iff .x64 _ _ (hostOptions_accepted true) (ascii "https")
    (ascii "h") true rfl (by decide) (by decide) sampleArtifact
  refine hiff.mpr ?_
  intro id tail hpath
  obtain ⟨rfl, rfl⟩ := hpath.unique sampleArtifact_path
  exact ⟨fun _ => ⟨rfl, .inr (by decide)⟩, fun _ _ => sampleArtifact_ticketed⟩

/-- The client of `https://h` does not accept the URL of its own artifact. -/
theorem route_refused :
    ¬ ∀ (process : Arch) (options : ClientOptions) (client : Client),
      Client.create process options = .ok client →
      ∀ (scheme authority : Bytes) (slash : Bool),
      options.baseUrl = baseUrl scheme authority slash → 0x2f ∉ scheme → 0x2f ∉ authority →
      ∀ raw, validDownloadUrl raw client.options.baseUrl = true ↔
        ArtifactRoute scheme authority raw := by
  intro h
  have hvalid := h .x64 (hostOptions false) _ (hostOptions_accepted false) (ascii "https")
    (ascii "h") false rfl (by decide) (by decide) sampleArtifact
  have hroute : ArtifactRoute (ascii "https") (ascii "h") sampleArtifact :=
    artifactRoute_iff_path.mpr ⟨_, _, sampleArtifact_path, sampleArtifact_ticketed⟩
  exact absurd (hvalid.mpr hroute) (by decide)

end Cpp
end SwmSdk
