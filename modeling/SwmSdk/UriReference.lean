import Mathlib.Data.List.DropRight
import SwmSdk.ByteText

/-! # References

The generic syntax of RFC 3986: a reference is its five components, `parse` finds them in
a text (appendix B) and `Reference.text` puts them together again (section 5.3), so that
no text is lost (`text_parse`).  `target` is the reference resolution of section 5.2.2
with `removeDots` for the dot segments of a path (section 5.2.4), which leaves a path
alone exactly when it has none (`removeDots_eq_self_iff`).
-/
namespace UriReference
open ByteText

/-! ## Components -/

/-- A reference by its components. -/
structure Reference where
  scheme : Option Bytes
  authority : Option Bytes
  path : Bytes
  query : Option Bytes
  fragment : Option Bytes
  deriving DecidableEq, Repr

/-- No `?` and no `#`. -/
def inPath (b : UInt8) : Bool := b ≠ 0x3f && b ≠ 0x23

/-- Nor a slash. -/
def inAuthority (b : UInt8) : Bool := b ≠ 0x2f && inPath b

/-- Nor a colon. -/
def inScheme (b : UInt8) : Bool := b ≠ 0x3a && inAuthority b

/-- The scheme, and what comes after its colon. -/
def splitScheme (text : Bytes) : Option Bytes × Bytes :=
  if text.takeWhile inScheme ≠ [] ∧ (text.dropWhile inScheme).head? = some 0x3a then
    (some (text.takeWhile inScheme), (text.dropWhile inScheme).tail)
  else (none, text)

/-- The authority after two slashes, and what comes after it. -/
def splitAuthority (text : Bytes) : Option Bytes × Bytes :=
  if ascii "//" <+: text then
    (some ((text.drop 2).takeWhile inAuthority), (text.drop 2).dropWhile inAuthority)
  else (none, text)

/-- The query after a `?`, and what comes after it. -/
def splitQuery (text : Bytes) : Option Bytes × Bytes :=
  if text.head? = some 0x3f then
    (some (text.tail.takeWhile (· ≠ 0x23)), text.tail.dropWhile (· ≠ 0x23))
  else (none, text)

/-- The fragment after a `#`. -/
def splitFragment (text : Bytes) : Option Bytes :=
  if text.head? = some 0x23 then some text.tail else none

/-- The components of a text that goes on after the authority. -/
def components (scheme authority : Option Bytes) (rest : Bytes) : Reference where
  scheme := scheme
  authority := authority
  path := rest.takeWhile inPath
  query := (splitQuery (rest.dropWhile inPath)).1
  fragment := splitFragment (splitQuery (rest.dropWhile inPath)).2

/-- The components of a text. -/
def parse (text : Bytes) : Reference :=
  components (splitScheme text).1 (splitAuthority (splitScheme text).2).1
    (splitAuthority (splitScheme text).2).2

/-- A component with its mark in front, if it is there. -/
def marked (mark : Bytes) : Option Bytes → Bytes
  | none => []
  | some value => mark ++ value

/-- A scheme with its colon, if it is there. -/
def named : Option Bytes → Bytes
  | none => []
  | some scheme => scheme ++ ascii ":"

/-- The text from the path on. -/
def Reference.rest (r : Reference) : Bytes :=
  r.path ++ marked (ascii "?") r.query ++ marked (ascii "#") r.fragment

/-- The text of a reference. -/
def Reference.text (r : Reference) : Bytes :=
  named r.scheme ++ marked (ascii "//") r.authority ++ r.rest

/-- A text ends or goes on with a delimiter. -/
def Stops (p : UInt8 → Bool) (text : Bytes) : Prop := ∀ b ∈ text.head?, p b = false

theorem stops_dropWhile (p : UInt8 → Bool) (text : Bytes) : Stops p (text.dropWhile p) := by
  intro b hb
  have h := List.head?_dropWhile_not p text
  rw [Option.mem_def.mp hb] at h
  exact h

theorem takeWhile_append_stops {p : UInt8 → Bool} {part rest : Bytes} (hpart : ∀ b ∈ part, p b)
    (hrest : Stops p rest) : (part ++ rest).takeWhile p = part := by
  rw [List.takeWhile_append_of_pos hpart]
  cases rest with
  | nil => simp
  | cons b rest => simp [hrest b rfl]

theorem dropWhile_append_stops {p : UInt8 → Bool} {part rest : Bytes} (hpart : ∀ b ∈ part, p b)
    (hrest : Stops p rest) : (part ++ rest).dropWhile p = rest := by
  rw [List.dropWhile_append_of_pos hpart]
  cases rest with
  | nil => rfl
  | cons b rest => simp [hrest b rfl]

theorem mem_takeWhile {p : UInt8 → Bool} {text : Bytes} {b : UInt8} (h : b ∈ text.takeWhile p) :
    p b = true := List.all_eq_true.mp List.all_takeWhile b h

/-! ## No text is lost -/

theorem splitQuery_text (text : Bytes) :
    marked (ascii "?") (splitQuery text).1 ++ (splitQuery text).2 = text := by
  unfold splitQuery
  split
  · rename_i h
    cases text with
    | nil => cases h
    | cons b text =>
      cases h
      change 0x3f :: (text.takeWhile (· ≠ 0x23) ++ text.dropWhile (· ≠ 0x23)) = _
      rw [List.takeWhile_append_dropWhile]
  · rfl

theorem splitFragment_text {text : Bytes} (h : Stops (· ≠ 0x23) text) :
    marked (ascii "#") (splitFragment text) = text := by
  cases text with
  | nil => rfl
  | cons b text =>
    have hb : b = 0x23 := by simpa using h b rfl
    subst hb
    rfl

theorem stops_splitQuery {text : Bytes} (h : Stops inPath text) :
    Stops (· ≠ 0x23) (splitQuery text).2 := by
  unfold splitQuery
  split
  · exact stops_dropWhile _ _
  · rename_i hquery
    intro b hb
    have hpath := h b hb
    have hne : b ≠ 0x3f := fun hb' => hquery (hb' ▸ hb)
    simpa [inPath, hne] using hpath

@[simp] theorem rest_components (scheme authority : Option Bytes) (rest : Bytes) :
    (components scheme authority rest).rest = rest := by
  have hstops := stops_splitQuery (stops_dropWhile inPath rest)
  rw [Reference.rest, components, List.append_assoc, splitFragment_text hstops, splitQuery_text,
    List.takeWhile_append_dropWhile]

theorem splitAuthority_text (text : Bytes) :
    marked (ascii "//") (splitAuthority text).1 ++ (splitAuthority text).2 = text := by
  unfold splitAuthority
  split
  · rename_i h
    obtain ⟨rest, rfl⟩ := h
    change ascii "//" ++ rest.takeWhile inAuthority ++ rest.dropWhile inAuthority = _
    rw [List.append_assoc, List.takeWhile_append_dropWhile]
  · rfl

theorem splitScheme_text (text : Bytes) :
    named (splitScheme text).1 ++ (splitScheme text).2 = text := by
  unfold splitScheme
  split
  · rename_i h
    have hsplit := List.takeWhile_append_dropWhile (p := inScheme) (l := text)
    cases hrest : text.dropWhile inScheme with
    | nil => rw [hrest] at h; cases h.2
    | cons b rest =>
      rw [hrest] at h hsplit
      cases h.2
      change text.takeWhile inScheme ++ ascii ":" ++ rest = text
      rw [List.append_assoc]
      exact hsplit
  · rfl

/-- **The components of a text make it up again.** -/
theorem text_parse (text : Bytes) : (parse text).text = text := by
  rw [Reference.text, parse, rest_components]
  change named (splitScheme text).1 ++
    marked (ascii "//") (splitAuthority (splitScheme text).2).1 ++ _ = text
  rw [List.append_assoc, splitAuthority_text, splitScheme_text]

/-! ## Texts with a scheme and an authority -/

/-- A text is split into scheme, authority and what comes after them. -/
structure Absolute (text scheme authority rest : Bytes) : Prop where
  text_eq : text = scheme ++ ascii "://" ++ authority ++ rest
  scheme_ne : scheme ≠ []
  scheme_in : ∀ b ∈ scheme, inScheme b = true
  authority_in : ∀ b ∈ authority, inAuthority b = true
  stops : Stops inAuthority rest

/-- **What an absolute text is parsed to.** -/
theorem Absolute.parse_eq {text scheme authority rest : Bytes}
    (h : Absolute text scheme authority rest) :
    parse text = components (some scheme) (some authority) rest := by
  have hcolon : Stops inScheme (ascii "://" ++ authority ++ rest) := by
    intro b hb
    cases hb
    decide
  have htext : text = scheme ++ (ascii "://" ++ authority ++ rest) := by
    rw [h.text_eq]
    simp only [List.append_assoc]
  have hscheme : splitScheme text = (some scheme, ascii "//" ++ (authority ++ rest)) := by
    rw [splitScheme, htext, takeWhile_append_stops h.scheme_in hcolon,
      dropWhile_append_stops h.scheme_in hcolon, if_pos ⟨h.scheme_ne, rfl⟩]
    rfl
  have hauthority : splitAuthority (ascii "//" ++ (authority ++ rest)) =
      (some authority, rest) := by
    rw [splitAuthority, if_pos ⟨_, rfl⟩]
    change (some ((authority ++ rest).takeWhile inAuthority),
      (authority ++ rest).dropWhile inAuthority) = _
    rw [takeWhile_append_stops h.authority_in h.stops,
      dropWhile_append_stops h.authority_in h.stops]
  rw [parse, hscheme, hauthority]

/-- An authority ends at a delimiter. -/
theorem splitAuthority_some {text authority : Bytes}
    (h : (splitAuthority text).1 = some authority) :
    (∀ b ∈ authority, inAuthority b = true) ∧ Stops inAuthority (splitAuthority text).2 := by
  rw [splitAuthority] at h ⊢
  split at h
  · rename_i hslashes
    cases h
    rw [if_pos hslashes]
    exact ⟨fun b hb => mem_takeWhile hb, stops_dropWhile _ _⟩
  · cases h

/-- A text that has both components is absolute. -/
theorem absolute_of_parse {text scheme authority : Bytes} (hscheme : (parse text).scheme =
    some scheme) (hauthority : (parse text).authority = some authority) :
    Absolute text scheme authority (parse text).rest := by
  have htext := (text_parse text).symm
  rw [Reference.text, hscheme, hauthority] at htext
  obtain ⟨hin, hstops⟩ := splitAuthority_some hauthority
  change (splitScheme text).1 = some scheme at hscheme
  rw [splitScheme] at hscheme
  split at hscheme
  · rename_i hname
    cases hscheme
    refine ⟨?_, hname.1, fun b hb => mem_takeWhile hb, hin, ?_⟩
    · refine htext.trans ?_
      simp only [named, marked, List.append_assoc]
      rfl
    · rw [parse, rest_components]
      exact hstops
  · cases hscheme

/-! ## Texts without a scheme -/

theorem parse_noScheme {text : Bytes} (h : (parse text).scheme = none) :
    parse text = components none (splitAuthority text).1 (splitAuthority text).2 := by
  change (splitScheme text).1 = none at h
  have hsplit : splitScheme text = (none, text) := by
    rw [splitScheme] at h ⊢
    split at h
    · cases h
    · rename_i hname
      rw [if_neg hname]
  rw [parse, hsplit]

/-- An authority is there exactly if the text starts with two slashes. -/
theorem authority_eq_none_iff {text : Bytes} (h : (parse text).scheme = none) :
    (parse text).authority = none ↔ ¬ ascii "//" <+: text := by
  rw [parse_noScheme h]
  change (splitAuthority text).1 = none ↔ _
  rw [splitAuthority]
  by_cases hslashes : ascii "//" <+: text
  · rw [if_pos hslashes]
    exact iff_of_false (Option.some_ne_none _) (not_not_intro hslashes)
  · rw [if_neg hslashes]
    exact iff_of_true rfl hslashes

/-- A text with an authority becomes absolute behind a scheme. -/
theorem absolute_of_network {text scheme authority : Bytes} (hne : scheme ≠ [])
    (hin : ∀ b ∈ scheme, inScheme b = true) (hscheme : (parse text).scheme = none)
    (hauthority : (parse text).authority = some authority) :
    Absolute (scheme ++ ascii ":" ++ text) scheme authority (parse text).rest := by
  have htext := (text_parse text).symm
  rw [Reference.text, hscheme, hauthority] at htext
  have hsplit := hauthority
  rw [parse_noScheme hscheme] at hsplit
  obtain ⟨hbytes, hstops⟩ := splitAuthority_some hsplit
  refine ⟨?_, hne, hin, hbytes, ?_⟩
  · refine (congrArg _ htext).trans ?_
    simp only [named, marked, List.append_assoc]
    rfl
  · rw [parse_noScheme hscheme, rest_components]
    exact hstops

/-- A text without both is a path and what comes after it. -/
theorem parse_path {text : Bytes} (hscheme : (parse text).scheme = none)
    (hauthority : (parse text).authority = none) : parse text = components none none text := by
  have hslashes := (authority_eq_none_iff hscheme).mp hauthority
  rw [parse_noScheme hscheme, splitAuthority, if_neg hslashes]

/-- A scheme is no slash. -/
theorem slash_of_scheme {text : Bytes} (h : (parse text).scheme ≠ none) :
    ¬ ascii "/" <+: text := by
  rintro ⟨rest, rfl⟩
  exact h rfl

/-! ## Dot segments -/

/-- A path has no segment `.` or `..`. -/
def NoDots (path : Bytes) : Prop :=
  ∀ segment ∈ path.splitOn 0x2f, segment ≠ ascii "." ∧ segment ≠ ascii ".."

instance (path : Bytes) : Decidable (NoDots path) := by unfold NoDots; infer_instance

/-- A path without its last segment and the slash before that. -/
def withoutLast (path : Bytes) : Bytes := (path.rdropWhile (· ≠ 0x2f)).dropLast

/-- The first segment of a path, with the slash before it. -/
def firstSegment : Bytes → Bytes
  | [] => []
  | b :: rest => b :: rest.takeWhile (· ≠ 0x2f)

/-- A path without its first segment. -/
def afterFirst : Bytes → Bytes
  | [] => []
  | _ :: rest => rest.dropWhile (· ≠ 0x2f)

/-- The loop over the segments, with the output so far. -/
def removeDotsLoop : Nat → Bytes → Bytes → Bytes
  | 0, _, output => output
  | fuel + 1, input, output =>
      if input = [] then output
      else if ascii "../" <+: input then removeDotsLoop fuel (input.drop 3) output
      else if ascii "./" <+: input then removeDotsLoop fuel (input.drop 2) output
      else if ascii "/./" <+: input then removeDotsLoop fuel (input.drop 2) output
      else if input = ascii "/." then removeDotsLoop fuel (ascii "/") output
      else if ascii "/../" <+: input then removeDotsLoop fuel (input.drop 3) (withoutLast output)
      else if input = ascii "/.." then removeDotsLoop fuel (ascii "/") (withoutLast output)
      else if input = ascii "." ∨ input = ascii ".." then output
      else removeDotsLoop fuel (afterFirst input) (output ++ firstSegment input)

/-- A path without its dot segments; every step of the loop makes the input shorter. -/
def removeDots (path : Bytes) : Bytes := removeDotsLoop path.length path []

theorem noDots_append_slash (a b : Bytes) : NoDots (a ++ 0x2f :: b) ↔ NoDots a ∧ NoDots b := by
  rw [NoDots, List.splitOn_append_cons_self, List.forall_mem_append]
  rfl

theorem noDots_segment {segment : Bytes} (h : 0x2f ∉ segment) :
    NoDots segment ↔ segment ≠ ascii "." ∧ segment ≠ ascii ".." := by
  rw [NoDots, List.splitOn_eq_singleton h, List.forall_mem_singleton]

theorem noDots_nil : NoDots [] := by decide

theorem getLast_directory {path : Bytes} (hne : path.rdropWhile (· ≠ 0x2f) ≠ []) :
    (path.rdropWhile (· ≠ 0x2f)).getLast hne = 0x2f := by
  have hlast := List.rdropWhile_last_not (fun b : UInt8 => decide (b ≠ 0x2f)) path hne
  simpa using hlast

/-- A directory ends with a slash, or is empty. -/
theorem noDots_directory_append (path more : Bytes) :
    NoDots (path.rdropWhile (· ≠ 0x2f) ++ more) ↔
      NoDots (path.rdropWhile (· ≠ 0x2f)) ∧ NoDots more := by
  by_cases hempty : path.rdropWhile (· ≠ 0x2f) = []
  · rw [hempty]
    exact ⟨fun h => ⟨noDots_nil, h⟩, fun h => h.2⟩
  · have hsplit := List.dropLast_append_getLast hempty
    rw [getLast_directory hempty] at hsplit
    rw [← hsplit, List.append_assoc]
    change NoDots (_ ++ 0x2f :: more) ↔ NoDots (_ ++ 0x2f :: []) ∧ _
    rw [noDots_append_slash, noDots_append_slash]
    exact ⟨fun h => ⟨⟨h.1, noDots_nil⟩, h.2⟩, fun h => ⟨h.1.1, h.2⟩⟩

theorem withoutLast_length (path : Bytes) : (withoutLast path).length ≤ path.length := by
  have hstarts := (List.rdropWhile_prefix (· ≠ 0x2f) path).length_le
  rw [withoutLast, List.length_dropLast]
  omega

/-- The loop only ever shortens. -/
theorem removeDotsLoop_length (fuel : Nat) (input output : Bytes) :
    (removeDotsLoop fuel input output).length ≤ input.length + output.length := by
  induction fuel generalizing input output with
  | zero => exact Nat.le_add_left ..
  | succ fuel ih =>
    have hlast := withoutLast_length output
    -- what is dropped of the input goes nowhere, and of the output only the last segment goes
    have hdropped : ∀ n last, last.length ≤ output.length →
        (removeDotsLoop fuel (input.drop n) last).length ≤ input.length + output.length := by
      intro n last hle
      refine (ih _ _).trans ?_
      rw [List.length_drop]
      omega
    rw [removeDotsLoop]
    split_ifs with h0 h1 h2 h3 h4 h5 h6 h7
    · exact Nat.le_add_left ..
    · exact hdropped 3 output (Nat.le_refl _)
    · exact hdropped 2 output (Nat.le_refl _)
    · exact hdropped 2 output (Nat.le_refl _)
    · subst h4
      exact (ih _ _).trans (Nat.add_le_add_right (by decide) _)
    · exact hdropped 3 _ hlast
    · subst h6
      exact (ih _ _).trans (Nat.add_le_add (by decide) hlast)
    · exact Nat.le_add_left ..
    · refine (ih _ _).trans ?_
      rw [List.length_append]
      cases input with
      | nil => exact absurd rfl h0
      | cons b rest =>
        have hrest := congrArg List.length
          (List.takeWhile_append_dropWhile (p := (· ≠ 0x2f)) (l := rest))
        rw [List.length_append] at hrest
        simp only [afterFirst, firstSegment, List.length_cons]
        omega

/-- A step that takes a dot segment away makes the path shorter. -/
theorem removeDotsLoop_ne {fuel : Nat} {input next output last : Bytes}
    (hnext : next.length < input.length) (hlast : last.length ≤ output.length) :
    removeDotsLoop fuel next last ≠ output ++ input := by
  intro h
  have hle := removeDotsLoop_length fuel next last
  rw [h, List.length_append] at hle
  omega

theorem drop_length_lt {needle text : Bytes} (h : needle <+: text) (hneedle : needle ≠ [])
    {n : Nat} (hn : 0 < n) : (text.drop n).length < text.length := by
  have hle := h.length_le
  have hpos := List.length_pos_iff.mpr hneedle
  rw [List.length_drop]
  omega

/-- The first segment of a path, with or without a slash before it, and what goes on with
a slash after it. -/
structure First (input start segment after : Bytes) : Prop where
  start_cases : start = [] ∨ start = ascii "/"
  segment_in : 0x2f ∉ segment
  after_cases : after = [] ∨ ∃ more, after = 0x2f :: more
  first_eq : firstSegment input = start ++ segment
  after_eq : afterFirst input = after
  input_eq : input = start ++ (segment ++ after)

theorem exists_first {input : Bytes} (h : input ≠ []) :
    ∃ start segment after, First input start segment after := by
  cases input with
  | nil => exact absurd rfl h
  | cons b rest =>
    have hin : 0x2f ∉ rest.takeWhile (· ≠ 0x2f) := fun h => by simpa using mem_takeWhile h
    have hsplit : rest.takeWhile (· ≠ 0x2f) ++ rest.dropWhile (· ≠ 0x2f) = rest :=
      List.takeWhile_append_dropWhile
    have hafter : rest.dropWhile (· ≠ 0x2f) = [] ∨
        ∃ more, rest.dropWhile (· ≠ 0x2f) = 0x2f :: more := dropWhile_ne_cases 0x2f rest
    by_cases hb : b = 0x2f
    · subst hb
      exact ⟨ascii "/", _, _, .inr rfl, hin, hafter, rfl, rfl, congrArg (0x2f :: ·) hsplit.symm⟩
    · refine ⟨[], b :: rest.takeWhile (· ≠ 0x2f), _, .inl rfl, ?_, hafter, rfl, rfl,
        congrArg (b :: ·) hsplit.symm⟩
      rw [List.mem_cons, not_or]
      exact ⟨fun h => hb h.symm, hin⟩

/-- The segments of a path are its first one and those of the rest. -/
theorem First.noDots_iff {input start segment after : Bytes} (h : First input start segment after) :
    NoDots input ↔ (segment ≠ ascii "." ∧ segment ≠ ascii "..") ∧ NoDots after := by
  have hsegment : NoDots (segment ++ after) ↔
      (segment ≠ ascii "." ∧ segment ≠ ascii "..") ∧ NoDots after := by
    rcases h.after_cases with rfl | ⟨more, rfl⟩
    · rw [List.append_nil, noDots_segment h.segment_in]
      exact ⟨fun hs => ⟨hs, noDots_nil⟩, fun hs => hs.1⟩
    · have hslash := noDots_append_slash [] more
      rw [List.nil_append] at hslash
      rw [noDots_append_slash, noDots_segment h.segment_in, hslash]
      exact and_congr_right fun _ => ⟨fun hs => ⟨noDots_nil, hs⟩, fun hs => hs.2⟩
  rw [h.input_eq, ← hsegment]
  rcases h.start_cases with rfl | rfl
  · rfl
  · have hslash := noDots_append_slash [] (segment ++ after)
    exact hslash.trans ⟨fun hs => hs.2, fun hs => ⟨noDots_nil, hs⟩⟩

/-- A segment is no dot segment if the path does not start with one. -/
theorem First.segment_ne {input start segment after dots : Bytes}
    (h : First input start segment after) (hwhole : input ≠ start ++ dots)
    (hstarts : ¬ start ++ dots ++ ascii "/" <+: input) : segment ≠ dots := by
  rintro rfl
  rcases h.after_cases with rfl | ⟨more, rfl⟩
  · exact hwhole (h.input_eq.trans (by rw [List.append_nil]))
  · refine hstarts ⟨more, ?_⟩
    rw [h.input_eq, List.append_assoc, List.append_assoc]
    rfl

/-- **The loop keeps the input exactly when that has no dot segment.** -/
theorem removeDotsLoop_eq_iff {fuel : Nat} {input : Bytes} (hfuel : input.length ≤ fuel)
    (output : Bytes) : removeDotsLoop fuel input output = output ++ input ↔ NoDots input := by
  induction fuel generalizing input output with
  | zero =>
    rw [List.length_eq_zero_iff.mp (Nat.le_zero.mp hfuel)]
    exact iff_of_true (List.append_nil _).symm noDots_nil
  | succ fuel ih =>
    have hlast := withoutLast_length output
    rw [removeDotsLoop]
    split_ifs with h0 h1 h2 h3 h4 h5 h6 h7
    · subst h0
      exact iff_of_true (List.append_nil _).symm noDots_nil
    · refine iff_of_false
        (removeDotsLoop_ne (drop_length_lt h1 (by decide) (by decide)) le_rfl) fun h => ?_
      obtain ⟨rest, rfl⟩ := h1
      exact absurd ((noDots_append_slash (ascii "..") rest).mp h).1 (by decide)
    · refine iff_of_false
        (removeDotsLoop_ne (drop_length_lt h2 (by decide) (by decide)) le_rfl) fun h => ?_
      obtain ⟨rest, rfl⟩ := h2
      exact absurd ((noDots_append_slash (ascii ".") rest).mp h).1 (by decide)
    · refine iff_of_false
        (removeDotsLoop_ne (drop_length_lt h3 (by decide) (by decide)) le_rfl) fun h => ?_
      obtain ⟨rest, rfl⟩ := h3
      exact absurd ((noDots_append_slash (ascii "/.") rest).mp h).1 (by decide)
    · subst h4
      exact iff_of_false (removeDotsLoop_ne (by decide) le_rfl) (by decide)
    · refine iff_of_false
        (removeDotsLoop_ne (drop_length_lt h5 (by decide) (by decide)) hlast) fun h => ?_
      obtain ⟨rest, rfl⟩ := h5
      exact absurd ((noDots_append_slash (ascii "/..") rest).mp h).1 (by decide)
    · subst h6
      exact iff_of_false (removeDotsLoop_ne (by decide) hlast) (by decide)
    · refine iff_of_false (fun h => h0 ?_) ?_
      · exact List.append_right_eq_self.mp h.symm
      · rcases h7 with rfl | rfl <;> decide
    · -- no dot segment comes first
      obtain ⟨start, segment, after, hfirst⟩ := exists_first h0
      have hshort : after.length ≤ fuel := by
        have hpos : 0 < (firstSegment input).length := by
          cases input with
          | nil => exact absurd rfl h0
          | cons b rest => exact Nat.succ_pos _
        have hlength := congrArg List.length hfirst.input_eq
        rw [hfirst.first_eq, List.length_append] at hpos
        simp only [List.length_append] at hlength
        omega
      have hnone : segment ≠ ascii "." ∧ segment ≠ ascii ".." := by
        rcases hfirst.start_cases with rfl | rfl
        · exact ⟨hfirst.segment_ne (fun h => h7 (.inl h)) h2,
            hfirst.segment_ne (fun h => h7 (.inr h)) h1⟩
        · exact ⟨hfirst.segment_ne h4 h3, hfirst.segment_ne h6 h5⟩
      rw [hfirst.noDots_iff, hfirst.first_eq, hfirst.after_eq,
        ← ih hshort (output ++ (start ++ segment)), hfirst.input_eq]
      simp only [List.append_assoc]
      exact ⟨fun h => ⟨hnone, h⟩, fun h => h.2⟩

/-- **A path is kept exactly when it has no dot segment.** -/
theorem removeDots_eq_self_iff (path : Bytes) : removeDots path = path ↔ NoDots path :=
  removeDotsLoop_eq_iff le_rfl []

example : removeDots (ascii "/a/b/c/./../../g") = ascii "/a/g" := by decide +kernel
example : removeDots (ascii "mid/content=5/../6") = ascii "mid/6" := by decide +kernel

/-! ## Resolution -/

/-- The path that a relative path is put behind. -/
def merge (base : Reference) (path : Bytes) : Bytes :=
  if base.authority.isSome ∧ base.path = [] then ascii "/" ++ path
  else base.path.rdropWhile (· ≠ 0x2f) ++ path

/-- **The target of a reference.** -/
def target (base r : Reference) : Reference :=
  if r.scheme.isSome then { r with path := removeDots r.path }
  else if r.authority.isSome then { r with scheme := base.scheme, path := removeDots r.path }
  else if r.path = [] then
    { r with
      scheme := base.scheme
      authority := base.authority
      path := base.path
      query := if r.query.isSome then r.query else base.query }
  else
    { r with
      scheme := base.scheme
      authority := base.authority
      path := removeDots (if r.path.head? = some 0x2f then r.path else merge base r.path) }

theorem target_of_scheme {r : Reference} (h : r.scheme ≠ none) (base : Reference) :
    target base r = { r with path := removeDots r.path } := by
  rw [target, if_pos (Option.isSome_iff_ne_none.mpr h)]

theorem target_of_authority {r : Reference} (hscheme : r.scheme = none) (h : r.authority ≠ none)
    (base : Reference) :
    target base r = { r with scheme := base.scheme, path := removeDots r.path } := by
  rw [target, if_neg (by rw [hscheme]; decide), if_pos (Option.isSome_iff_ne_none.mpr h)]

/-- A reference without scheme and authority takes those of the base. -/
theorem target_of_path {r : Reference} (hscheme : r.scheme = none) (hauthority : r.authority = none)
    (base : Reference) :
    (target base r).scheme = base.scheme ∧ (target base r).authority = base.authority ∧
      (target base r).rest =
        if r.path = [] then
          base.path ++ marked (ascii "?") (if r.query.isSome then r.query else base.query) ++
            marked (ascii "#") r.fragment
        else removeDots (if r.path.head? = some 0x2f then r.path else merge base r.path) ++
          marked (ascii "?") r.query ++ marked (ascii "#") r.fragment := by
  rw [target, if_neg (by rw [hscheme]; decide), if_neg (by rw [hauthority]; decide)]
  split <;> exact ⟨rfl, rfl, rfl⟩

example : (target (parse (ascii "http://a/b/c/d;p?q")) (parse (ascii "../g?y#s"))).text =
    ascii "http://a/b/g?y#s" := by decide +kernel

end UriReference
