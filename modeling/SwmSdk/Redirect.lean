import SwmSdk.DownloadUrl

/-! # Where a redirect leads

`resolve_redirect_url` is to find the target of the `Location` of a redirect as RFC 3986
does (`Resolves`): the scheme and the authority for every reference, and the whole URL for
those without dot segments.  It tells the kinds of references apart by `://` anywhere in
the text and by slashes at its beginning, and puts every other reference behind the
directory of the current URL.

`resolveRedirectUrl_iff` says for which references that is right (`Followed`).
-/
namespace SwmSdk
namespace Cpp
open ByteText UriReference

/-- **The redirect leads to the target of the reference.** -/
structure Resolves (url : Bytes) (base r : Reference) : Prop where
  scheme : (parse url).scheme = (target base r).scheme
  authority : (parse url).authority = (target base r).authority
  text : NoDots r.path → url = (target base r).text

/-- The base keeps nothing but its authority, or has a path. -/
def PathOrBare (base : Reference) : Prop :=
  base.path = [] → base.query = none ∧ base.fragment = none

/-- The text of a base up to the fragment ends with the directory that is kept of it. -/
def EndsInSlash (base : Reference) : Prop :=
  (base.path.getLast? = some 0x2f ∧ base.query = none) ∨
    base.path = [] ∧ ∃ query, base.query = some query ∧ query.getLast? = some 0x2f ∧
      0x3f ∉ query.dropWhile (· ≠ 0x2f)

/-- The references without a scheme and an authority that are resolved. -/
def FollowedPath (base r : Reference) : Prop :=
  if r.path ≠ [] then
    NoDots r.path → PathOrBare base ∧
      (r.path.head? = some 0x2f ∨ NoDots (base.path.rdropWhile (· ≠ 0x2f)))
  else if r.query ≠ none then base.path.getLast? = some 0x2f
  else EndsInSlash base

/-- **The references that are resolved.** -/
def Followed (base : Reference) (location : Bytes) : Prop :=
  if (parse location).scheme ≠ none then ascii "://" <:+: location
  else ¬ ascii "://" <:+: location ∧
    ((parse location).authority = none → FollowedPath base (parse location))

/-! ## What the code computes -/

/-- The directory of what comes after the authority. -/
def directory (rest : Bytes) : Bytes :=
  if rest.dropWhile (· ≠ 0x2f) = [] then rest ++ ascii "/"
  else rest.takeWhile (· ≠ 0x2f) ++
    ((rest.dropWhile (· ≠ 0x2f)).takeWhile inPath).rdropWhile (· ≠ 0x2f)

/-- What stands between the authority and a location. -/
def between (rest location : Bytes) : Bytes :=
  if ascii "/" <+: location then rest.takeWhile (· ≠ 0x2f) else directory rest

theorem splitFirst_absolute {current scheme authority rest : Bytes}
    (h : Absolute current scheme authority rest) :
    splitFirst (ascii "://") current = some (scheme, authority ++ rest) := by
  rw [h.text_eq, List.append_assoc]
  exact splitFirst_base (fun hcolon => absurd (h.scheme_in _ hcolon) (by decide)) _

theorem authority_slash {current scheme authority rest : Bytes}
    (h : Absolute current scheme authority rest) :
    ∀ b ∈ authority, decide (b ≠ 0x2f) = true := by
  intro b hb
  have hin := h.authority_in b hb
  rw [inAuthority, Bool.and_eq_true] at hin
  exact hin.1

/-- A location that has the mark of an absolute URL is taken as it is. -/
theorem resolveRedirectUrl_marked {raw : Bytes} (hne : trimAscii raw ≠ [])
    (hmark : ascii "://" <:+: trimAscii raw) (current : Bytes) :
    resolveRedirectUrl current raw = .ok (trimAscii raw) := by
  rw [resolveRedirectUrl, if_neg hne, if_pos ((splitFirst_isSome_iff _ _).mpr hmark)]

theorem resolveRedirectUrl_network {current scheme authority rest raw : Bytes}
    (h : Absolute current scheme authority rest) (hne : trimAscii raw ≠ [])
    (hmark : ¬ ascii "://" <:+: trimAscii raw) (hslashes : ascii "//" <+: trimAscii raw) :
    resolveRedirectUrl current raw = .ok (scheme ++ ascii ":" ++ trimAscii raw) := by
  rw [resolveRedirectUrl, if_neg hne, if_neg (mt (splitFirst_isSome_iff _ _).mp hmark),
    splitFirst_absolute h]
  dsimp only
  rw [if_pos hslashes]

/-- Every other location is put behind a part of the current URL. -/
theorem resolveRedirectUrl_between {current scheme authority rest raw : Bytes}
    (h : Absolute current scheme authority rest) (hne : trimAscii raw ≠ [])
    (hmark : ¬ ascii "://" <:+: trimAscii raw) (hslashes : ¬ ascii "//" <+: trimAscii raw) :
    resolveRedirectUrl current raw = .ok (scheme ++ ascii "://" ++ authority ++
      (between rest (trimAscii raw) ++ trimAscii raw)) := by
  have hin := authority_slash h
  rw [resolveRedirectUrl, if_neg hne, if_neg (mt (splitFirst_isSome_iff _ _).mp hmark),
    splitFirst_absolute h]
  dsimp only
  rw [if_neg hslashes, between, List.takeWhile_append_of_pos hin,
    List.dropWhile_append_of_pos hin]
  by_cases hslash : ascii "/" <+: trimAscii raw
  · rw [if_pos hslash, if_pos hslash]
    simp only [List.append_assoc]
  · rw [if_neg hslash, if_neg hslash, directory]
    by_cases hpath : rest.dropWhile (· ≠ 0x2f) = []
    · have hrest := List.takeWhile_append_dropWhile (p := (· ≠ 0x2f)) (l := rest)
      rw [hpath, List.append_nil] at hrest
      rw [if_pos hpath, if_pos hpath, hrest]
      simp only [List.append_assoc]
    · rw [if_neg hpath, if_neg hpath]
      simp only [List.append_assoc]
      rfl

/-! ## The directory -/

/-- What is kept starts as what comes after the authority. -/
theorem directory_cons (b : UInt8) (rest : Bytes) : ∃ more, directory (b :: rest) = b :: more := by
  rw [directory]
  by_cases hb : b = 0x2f
  · subst hb
    have hpath : ((0x2f :: rest).takeWhile inPath) = 0x2f :: rest.takeWhile inPath := rfl
    have hdrop : (0x2f :: rest).dropWhile (· ≠ 0x2f) = 0x2f :: rest := rfl
    have hne : (0x2f :: rest.takeWhile inPath).rdropWhile (· ≠ 0x2f) ≠ [] := by
      rw [Ne, List.rdropWhile_eq_nil_iff]
      exact fun h => absurd (h 0x2f (List.mem_cons_self ..)) (by decide)
    have hstarts := List.rdropWhile_prefix (· ≠ 0x2f) (0x2f :: rest.takeWhile inPath)
    rw [hdrop, if_neg (List.cons_ne_nil _ _), hpath]
    cases hkept : (0x2f :: rest.takeWhile inPath).rdropWhile (· ≠ 0x2f) with
    | nil => exact absurd hkept hne
    | cons c more =>
      rw [hkept, List.cons_prefix_cons] at hstarts
      exact ⟨more, by rw [hstarts.1]; rfl⟩
  · split
    · exact ⟨rest ++ ascii "/", rfl⟩
    · rw [List.takeWhile_cons, if_pos (decide_eq_true hb)]
      exact ⟨_, rfl⟩

/-- There is always a slash in it. -/
theorem slash_mem_directory (rest : Bytes) : 0x2f ∈ directory rest := by
  rw [directory]
  split
  · exact List.mem_append_right _ (List.mem_singleton_self _)
  · rename_i hne
    refine List.mem_append_right _ ?_
    rcases dropWhile_ne_cases 0x2f rest with hpath | ⟨more, hpath⟩
    · exact absurd hpath hne
    · rw [hpath]
      have hkept : ((0x2f :: more).takeWhile inPath).rdropWhile (· ≠ 0x2f) ≠ [] := by
        rw [Ne, List.rdropWhile_eq_nil_iff]
        exact fun h => absurd (h 0x2f (List.mem_cons_self ..)) (by decide)
      have hmem := List.getLast_mem hkept
      rwa [getLast_directory hkept] at hmem

/-- The authority of the current URL ends where it did. -/
theorem stops_between {rest : Bytes} (hrest : Stops inAuthority rest) (location : Bytes) :
    Stops inAuthority (between rest location ++ location) := by
  rw [between]
  by_cases hslash : ascii "/" <+: location
  · rw [if_pos hslash]
    cases htake : rest.takeWhile (· ≠ 0x2f) with
    | nil =>
      obtain ⟨more, rfl⟩ := hslash
      intro b hb
      cases hb
      rfl
    | cons c part =>
      cases rest with
      | nil => cases htake
      | cons b rest =>
        rw [List.takeWhile_cons] at htake
        split at htake
        · cases htake
          exact fun d hd => hrest d hd
        · cases htake
  · rw [if_neg hslash]
    cases rest with
    | nil =>
      intro b hb
      cases hb
      rfl
    | cons b rest =>
      obtain ⟨more, hmore⟩ := directory_cons b rest
      rw [hmore]
      exact fun d hd => hrest d hd

theorem absolute_between {current scheme authority rest : Bytes}
    (h : Absolute current scheme authority rest) (location : Bytes) :
    Absolute (scheme ++ ascii "://" ++ authority ++ (between rest location ++ location))
      scheme authority (between rest location ++ location) :=
  ⟨rfl, h.scheme_ne, h.scheme_in, h.authority_in, stops_between h.stops location⟩

/-! ## Locations with a scheme or an authority -/

theorem base_parse {current scheme authority rest : Bytes}
    (h : Absolute current scheme authority rest) :
    (parse current).scheme = some scheme ∧ (parse current).authority = some authority := by
  rw [h.parse_eq]
  exact ⟨rfl, rfl⟩

/-- A reference with a scheme is its own target but for dot segments. -/
theorem resolves_absolute {location : Bytes} (h : (parse location).scheme ≠ none)
    (base : Reference) : Resolves location base (parse location) := by
  refine ⟨by rw [target_of_scheme h], by rw [target_of_scheme h], fun hdots => ?_⟩
  rw [target_of_scheme h, (removeDots_eq_self_iff _).mpr hdots]
  exact (text_parse location).symm

/-- Without the mark it has no authority, and is given one. -/
theorem not_resolves_unmarked {current scheme authority rest location : Bytes}
    (h : Absolute current scheme authority rest) (hscheme : (parse location).scheme ≠ none)
    (hmark : ¬ ascii "://" <:+: location) :
    ¬ Resolves (scheme ++ ascii "://" ++ authority ++ (between rest location ++ location))
      (parse current) (parse location) := by
  intro hresolves
  have hnone : (parse location).authority = none := by
    by_contra hauthority
    obtain ⟨own, hown⟩ := Option.ne_none_iff_exists'.mp hscheme
    obtain ⟨host, hhost⟩ := Option.ne_none_iff_exists'.mp hauthority
    refine hmark ?_
    rw [(absolute_of_parse hown hhost).text_eq, List.append_assoc]
    exact List.infix_append ..
  have hsame := hresolves.authority
  rw [(base_parse (absolute_between h location)).2, target_of_scheme hscheme] at hsame
  exact Option.some_ne_none _ (hsame.trans hnone)

/-- A text without a scheme is no target. -/
theorem not_resolves_marked {current scheme authority rest location : Bytes}
    (h : Absolute current scheme authority rest) (hscheme : (parse location).scheme = none) :
    ¬ Resolves location (parse current) (parse location) := by
  intro hresolves
  have hsame := hresolves.scheme
  have hbase := (base_parse h).1
  by_cases hauthority : (parse location).authority = none
  · rw [(target_of_path hscheme hauthority _).1, hscheme, hbase] at hsame
    cases hsame
  · rw [target_of_authority hscheme hauthority, hscheme, hbase] at hsame
    cases hsame

/-- A reference with an authority is put behind the scheme. -/
theorem resolves_network {current scheme authority rest location : Bytes}
    (h : Absolute current scheme authority rest) (hscheme : (parse location).scheme = none)
    (hauthority : (parse location).authority ≠ none) :
    Resolves (scheme ++ ascii ":" ++ location) (parse current) (parse location) := by
  obtain ⟨host, hhost⟩ := Option.ne_none_iff_exists'.mp hauthority
  have habsolute := absolute_of_network h.scheme_ne h.scheme_in hscheme hhost
  obtain ⟨hown, howner⟩ := base_parse habsolute
  have htarget := target_of_authority hscheme hauthority (parse current)
  refine ⟨by rw [hown, htarget, (base_parse h).1], by rw [howner, htarget, hhost], fun hdots => ?_⟩
  have htext := (text_parse location).symm
  rw [Reference.text, hscheme] at htext
  rw [htarget, Reference.text, (removeDots_eq_self_iff _).mpr hdots, (base_parse h).1]
  refine (congrArg _ htext).trans ?_
  simp only [named, List.nil_append, List.append_assoc]
  rfl

/-! ## Paths, queries and fragments -/

/-- A reference without scheme and authority is resolved if what is kept makes up the target. -/
theorem resolves_path_iff {current scheme authority rest location : Bytes}
    (h : Absolute current scheme authority rest) (hscheme : (parse location).scheme = none)
    (hauthority : (parse location).authority = none) :
    Resolves (scheme ++ ascii "://" ++ authority ++ (between rest location ++ location))
        (parse current) (parse location) ↔
      (NoDots (parse location).path →
        between rest location ++ location = (target (parse current) (parse location)).rest) := by
  obtain ⟨htscheme, htauthority, -⟩ := target_of_path hscheme hauthority (parse current)
  obtain ⟨hown, howner⟩ := base_parse (absolute_between h location)
  obtain ⟨hbase, hbaseAuthority⟩ := base_parse h
  have htext : (target (parse current) (parse location)).text =
      scheme ++ ascii "://" ++ authority ++ (target (parse current) (parse location)).rest := by
    rw [Reference.text, htscheme, htauthority, hbase, hbaseAuthority]
    simp only [named, marked, List.append_assoc]
    rfl
  constructor
  · intro hresolves hdots
    have hsame := hresolves.text hdots
    rw [htext] at hsame
    exact List.append_cancel_left hsame
  · intro hrest
    refine ⟨by rw [hown, htscheme, hbase], by rw [howner, htauthority, hbaseAuthority],
      fun hdots => ?_⟩
    rw [htext, hrest hdots]

/-- What comes after an authority is empty, a path, or a query or a fragment. -/
theorem rest_cases {rest : Bytes} (h : Stops inAuthority rest) :
    rest = [] ∨ (∃ more, rest = 0x2f :: more) ∨
      ∃ b more, rest = b :: more ∧ b ≠ 0x2f ∧ inPath b = false := by
  cases rest with
  | nil => exact .inl rfl
  | cons b more =>
    by_cases hb : b = 0x2f
    · exact .inr (.inl ⟨more, by rw [hb]⟩)
    · refine .inr (.inr ⟨b, more, rfl, hb, ?_⟩)
      have hstop := h b rfl
      rw [inAuthority, decide_eq_true hb, Bool.true_and] at hstop
      exact hstop

/-- A query or a fragment has no path in front of it. -/
theorem path_bare (scheme authority : Option Bytes) {b : UInt8} (hb : inPath b = false)
    (more : Bytes) : (components scheme authority (b :: more)).path = [] := by
  change List.takeWhile inPath (b :: more) = []
  rw [List.takeWhile_cons, hb]
  rfl

theorem pathOrBare_iff {rest : Bytes} (h : Stops inAuthority rest)
    (scheme authority : Option Bytes) :
    PathOrBare (components scheme authority rest) ↔ rest.takeWhile (· ≠ 0x2f) = [] := by
  rcases rest_cases h with rfl | ⟨more, rfl⟩ | ⟨b, more, rfl, hb, hpath⟩
  · exact iff_of_true (fun _ => ⟨rfl, rfl⟩) rfl
  · exact iff_of_true (fun hempty => by cases hempty) rfl
  · rw [List.takeWhile_cons, if_pos (decide_eq_true hb)]
    refine iff_of_false (fun hbare => ?_) (List.cons_ne_nil _ _)
    have hempty := path_bare scheme authority hpath more
    obtain ⟨hquery, hfragment⟩ := hbare hempty
    have htext := rest_components scheme authority (b :: more)
    rw [Reference.rest, hempty, hquery, hfragment] at htext
    cases htext

/-- The path of a location starts with a slash if the location does. -/
theorem slash_prefix_iff (location : Bytes) :
    ascii "/" <+: location ↔ (location.takeWhile inPath).head? = some 0x2f := by
  cases location with
  | nil => exact iff_of_false (by decide) (by decide)
  | cons b rest =>
    change [0x2f] <+: b :: rest ↔ _
    rw [List.cons_prefix_cons, List.takeWhile_cons]
    by_cases hb : 0x2f = b
    · subst hb
      exact iff_of_true ⟨rfl, List.nil_prefix⟩ rfl
    · refine iff_of_false (fun h => hb h.1) ?_
      split
      · exact fun h => hb (Option.some.inj h).symm
      · exact fun h => by cases h

/-- A relative path behind the directory of the current URL. -/
theorem directory_path_iff {rest path : Bytes} (h : Stops inAuthority rest) (hdots : NoDots path)
    (scheme authority : Bytes) :
    directory rest ++ path =
        removeDots (merge (components (some scheme) (some authority) rest) path) ↔
      PathOrBare (components (some scheme) (some authority) rest) ∧
        NoDots ((components (some scheme) (some authority) rest).path.rdropWhile (· ≠ 0x2f)) := by
  have hbelow : NoDots (ascii "/" ++ path) :=
    (noDots_append_slash [] path).mpr ⟨noDots_nil, hdots⟩
  rw [pathOrBare_iff h]
  rcases rest_cases h with rfl | ⟨more, rfl⟩ | ⟨b, more, rfl, hb, hpath⟩
  · refine iff_of_true ?_ ⟨rfl, noDots_nil⟩
    exact ((removeDots_eq_self_iff _).mpr hbelow).symm
  · have hmerge : merge (components (some scheme) (some authority) (0x2f :: more)) path =
        directory (0x2f :: more) ++ path := rfl
    rw [hmerge, eq_comm, removeDots_eq_self_iff]
    exact (noDots_directory_append _ _).trans
      ⟨fun hboth => ⟨rfl, hboth.1⟩, fun hboth => ⟨hboth.2, hdots⟩⟩
  · obtain ⟨kept, hkept⟩ := directory_cons b more
    have hempty := path_bare (some scheme) (some authority) hpath more
    have hmerge : merge (components (some scheme) (some authority) (b :: more)) path =
        ascii "/" ++ path := by
      rw [merge, if_pos ⟨rfl, hempty⟩]
    rw [hmerge, (removeDots_eq_self_iff _).mpr hbelow, hkept, List.takeWhile_cons,
      if_pos (decide_eq_true hb)]
    exact iff_of_false (fun hsame => hb (List.cons.inj hsame).1)
      fun hboth => List.cons_ne_nil _ _ hboth.1

/-- A text that is its own directory ends with a slash. -/
theorem rdropWhile_eq_iff {text : Bytes} (hne : text ≠ []) :
    text.rdropWhile (· ≠ 0x2f) = text ↔ text.getLast? = some 0x2f := by
  rw [List.rdropWhile_eq_self_iff, List.getLast?_eq_some_getLast hne]
  constructor
  · intro h
    have hlast : text.getLast hne = 0x2f := by simpa using h hne
    rw [hlast]
  · intro h hl
    rw [Option.some.inj h]
    decide

/-- The directory is the whole path. -/
theorem directory_eq_path_iff {rest : Bytes} (h : Stops inAuthority rest) :
    directory rest = rest.takeWhile inPath ↔
      (rest.takeWhile inPath).getLast? = some 0x2f := by
  rcases rest_cases h with rfl | ⟨more, rfl⟩ | ⟨b, more, rfl, hb, hpath⟩
  · exact iff_of_false (by decide) (by decide)
  · exact rdropWhile_eq_iff (List.cons_ne_nil _ _)
  · obtain ⟨kept, hkept⟩ := directory_cons b more
    rw [hkept, List.takeWhile_cons, hpath]
    exact iff_of_false (List.cons_ne_nil _ _) fun hlast => by cases hlast

/-- The directory is the text up to a tail, when that stands in a query. -/
theorem directory_eq_part_iff {part tail : Bytes} (hne : part ≠ []) (hhash : 0x23 ∉ part)
    (htail : Stops inPath tail) :
    ((part ++ tail).takeWhile inPath).rdropWhile (· ≠ 0x2f) = part ↔
      part.getLast? = some 0x2f ∧ 0x3f ∉ part := by
  have hin : 0x3f ∉ part → ∀ b ∈ part, inPath b = true := by
    intro hquestion b hb
    have h1 : b ≠ 0x3f := fun hb' => hquestion (hb' ▸ hb)
    have h2 : b ≠ 0x23 := fun hb' => hhash (hb' ▸ hb)
    rw [inPath, decide_eq_true h1, decide_eq_true h2]
    rfl
  constructor
  · intro hsame
    have hquestion : 0x3f ∉ part := by
      intro hmem
      rw [← hsame] at hmem
      have hkept := (List.rdropWhile_prefix _ _).subset hmem
      exact absurd (mem_takeWhile hkept) (by decide)
    rw [takeWhile_append_stops (hin hquestion) htail] at hsame
    exact ⟨(rdropWhile_eq_iff hne).mp hsame, hquestion⟩
  · rintro ⟨hlast, hquestion⟩
    rw [takeWhile_append_stops (hin hquestion) htail]
    exact (rdropWhile_eq_iff hne).mpr hlast

/-- What is kept of a query without a path. -/
theorem directory_query_iff {query tail : Bytes} (hhash : 0x23 ∉ query)
    (htail : Stops inPath tail) :
    directory (0x3f :: (query ++ tail)) = 0x3f :: query ↔
      query.getLast? = some 0x2f ∧ 0x3f ∉ query.dropWhile (· ≠ 0x2f) := by
  have hsplit := List.takeWhile_append_dropWhile (p := (· ≠ 0x2f)) (l := query)
  have hpart : 0x23 ∉ query.dropWhile (· ≠ 0x2f) := fun h => hhash ((List.dropWhile_subset _) h)
  have hstops := stops_dropWhile (· ≠ 0x2f) query
  have hfirst : ∀ b ∈ query.takeWhile (· ≠ 0x2f), decide (b ≠ 0x2f) = true :=
    fun b hb => mem_takeWhile hb
  cases hrest : query.dropWhile (· ≠ 0x2f) with
  | nil =>
    have hnone : 0x2f ∉ query := by
      rw [← hsplit, hrest, List.append_nil]
      exact fun h => absurd (mem_takeWhile h) (by decide)
    refine iff_of_false (fun hsame => ?_) fun h => hnone (List.mem_of_getLast? h.1)
    have hmem := slash_mem_directory (0x3f :: (query ++ tail))
    rw [hsame, List.mem_cons] at hmem
    exact hnone (hmem.resolve_left (by decide))
  | cons c part =>
    rw [hrest] at hpart hstops hsplit
    have hlast : query.getLast? = (c :: part).getLast? := by
      rw [← hsplit, List.getLast?_append_of_ne_nil _ (List.cons_ne_nil c part)]
    have hrestStops : Stops (· ≠ 0x2f) (c :: part ++ tail) := fun b hb => hstops b hb
    have hwhole : query ++ tail = query.takeWhile (· ≠ 0x2f) ++ (c :: part ++ tail) := by
      rw [← List.append_assoc, hsplit]
    have hdrop : (0x3f :: (query ++ tail)).dropWhile (· ≠ 0x2f) = c :: part ++ tail := by
      rw [hwhole]
      exact dropWhile_append_stops hfirst hrestStops
    have htake : (0x3f :: (query ++ tail)).takeWhile (· ≠ 0x2f) =
        0x3f :: query.takeWhile (· ≠ 0x2f) := by
      rw [hwhole]
      exact congrArg (0x3f :: ·) (takeWhile_append_stops hfirst hrestStops)
    have hquery : 0x3f :: query = 0x3f :: query.takeWhile (· ≠ 0x2f) ++ (c :: part) :=
      congrArg (0x3f :: ·) hsplit.symm
    have hne : c :: part ++ tail ≠ [] := List.cons_ne_nil c (part ++ tail)
    rw [hlast, ← directory_eq_part_iff (List.cons_ne_nil c part) hpart htail, directory, hdrop,
      if_neg hne, htake, hquery, List.append_right_inj]

section DirectoryQuery
variable (scheme authority : Option Bytes) (more : Bytes)

/-- A path that is its directory has no query behind it. -/
theorem directory_path_query_iff (h : Stops inAuthority (0x2f :: more)) :
    directory (0x2f :: more) = (components scheme authority (0x2f :: more)).path ++
        marked (ascii "?") (components scheme authority (0x2f :: more)).query ↔
      (components scheme authority (0x2f :: more)).path.getLast? = some 0x2f ∧
        (components scheme authority (0x2f :: more)).query = none := by
  have hkept : directory (0x2f :: more) = ((0x2f :: more).takeWhile inPath).rdropWhile
      (· ≠ 0x2f) := rfl
  have hle := (List.rdropWhile_prefix (· ≠ 0x2f) ((0x2f :: more).takeWhile inPath)).length_le
  constructor
  · intro hsame
    -- the directory is no longer than the path
    have hlength := congrArg List.length hsame
    rw [hkept, List.length_append] at hlength
    change (((0x2f :: more).takeWhile inPath).rdropWhile (· ≠ 0x2f)).length =
      ((0x2f :: more).takeWhile inPath).length + _ at hlength
    have hnone : marked (ascii "?") (components scheme authority (0x2f :: more)).query = [] :=
      List.eq_nil_of_length_eq_zero (by omega)
    rw [hnone, List.append_nil] at hsame
    refine ⟨(directory_eq_path_iff h).mp hsame, ?_⟩
    cases hquery : (components scheme authority (0x2f :: more)).query with
    | none => rfl
    | some query =>
      rw [hquery] at hnone
      cases hnone
  · rintro ⟨hlast, hquery⟩
    rw [hquery, (directory_eq_path_iff h).mpr hlast]
    exact (List.append_nil _).symm

/-- A query without a path, up to the fragment. -/
theorem directory_bare_query_iff :
    directory (0x3f :: more) = marked (ascii "?") (some (more.takeWhile (· ≠ 0x23))) ↔
      (more.takeWhile (· ≠ 0x23)).getLast? = some 0x2f ∧
        0x3f ∉ (more.takeWhile (· ≠ 0x23)).dropWhile (· ≠ 0x2f) := by
  have hhash : 0x23 ∉ more.takeWhile (· ≠ 0x23) := fun h => absurd (mem_takeWhile h) (by decide)
  have htail : Stops inPath (more.dropWhile (· ≠ 0x23)) := by
    intro d hd
    have hstop := stops_dropWhile (· ≠ 0x23) more d hd
    have hd' : d = 0x23 := by simpa using hstop
    rw [hd']
    rfl
  have hkept := directory_query_iff hhash htail
  rwa [List.takeWhile_append_dropWhile] at hkept

/-- Where no query begins there is none. -/
theorem query_bare {b : UInt8} (hb : inPath b = false) (hmark : b ≠ 0x3f) :
    (components scheme authority (b :: more)).query = none := by
  change (splitQuery ((b :: more).dropWhile inPath)).1 = none
  rw [List.dropWhile_cons, hb]
  exact congrArg Prod.fst (if_neg fun h => hmark (Option.some.inj h))

end DirectoryQuery

/-- The directory is the path with the query. -/
theorem directory_eq_query_iff {rest : Bytes} (h : Stops inAuthority rest)
    (scheme authority : Option Bytes) :
    directory rest = (components scheme authority rest).path ++
        marked (ascii "?") (components scheme authority rest).query ↔
      EndsInSlash (components scheme authority rest) := by
  rcases rest_cases h with rfl | ⟨more, rfl⟩ | ⟨b, more, rfl, hb, hpath⟩
  · refine iff_of_false (fun h => by cases h) ?_
    rintro (⟨hlast, -⟩ | ⟨-, query, hquery, -⟩)
    · cases hlast
    · cases hquery
  · rw [directory_path_query_iff scheme authority more h]
    refine ⟨.inl, ?_⟩
    rintro (hboth | ⟨hpath, -⟩)
    · exact hboth
    · cases hpath
  · have hempty := path_bare scheme authority hpath more
    rw [EndsInSlash, hempty]
    by_cases hmark : b = 0x3f
    · subst hmark
      have hquery : (components scheme authority (0x3f :: more)).query =
          some (more.takeWhile (· ≠ 0x23)) := rfl
      rw [hquery]
      refine (directory_bare_query_iff more).trans ⟨fun hlast => .inr ⟨rfl, _, rfl, hlast⟩, ?_⟩
      rintro (⟨hlast, -⟩ | ⟨-, query, hsame, hlast⟩)
      · cases hlast
      · cases hsame
        exact hlast
    · obtain ⟨kept, hkept⟩ := directory_cons b more
      rw [query_bare scheme authority more hpath hmark, hkept]
      refine iff_of_false (List.cons_ne_nil _ _) ?_
      rintro (⟨hlast, -⟩ | ⟨-, query, hsame, -⟩)
      · cases hlast
      · cases hsame

/-- **The references without scheme and authority that are resolved.** -/
theorem followedPath_iff {current scheme authority rest location : Bytes}
    (h : Absolute current scheme authority rest)
    (hscheme : (parse location).scheme = none) (hauthority : (parse location).authority = none) :
    Resolves (scheme ++ ascii "://" ++ authority ++ (between rest location ++ location))
        (parse current) (parse location) ↔
      FollowedPath (parse current) (parse location) := by
  rw [resolves_path_iff h hscheme hauthority, (target_of_path hscheme hauthority _).2.2,
    FollowedPath, h.parse_eq]
  have htext : location = (parse location).path ++ marked (ascii "?") (parse location).query ++
      marked (ascii "#") (parse location).fragment := by
    have hown := text_parse location
    rw [Reference.text, hscheme, hauthority] at hown
    exact hown.symm
  have hslash : ascii "/" <+: location ↔ (parse location).path.head? = some 0x2f := by
    rw [parse_path hscheme hauthority]
    exact slash_prefix_iff location
  -- from here on the location is only its components
  generalize parse location = r at *
  by_cases hpath : r.path = []
  · have hkept : between rest location = directory rest := by
      rw [between, if_neg fun hstarts => ?_]
      rw [hslash, hpath] at hstarts
      cases hstarts
    rw [if_pos hpath, if_neg (not_not_intro hpath), hkept]
    refine (imp_iff_right (hpath ▸ noDots_nil)).trans ?_
    cases hquery : r.query with
    | none =>
      rw [hpath, hquery] at htext
      rw [htext, if_neg (not_not_intro rfl)]
      exact (List.append_left_inj _).trans (directory_eq_query_iff h.stops _ _)
    | some query =>
      rw [hpath, hquery] at htext
      rw [htext, if_pos (Option.some_ne_none query)]
      change directory rest ++ (marked (ascii "?") (some query) ++ marked (ascii "#") r.fragment) =
        rest.takeWhile inPath ++ marked (ascii "?") (some query) ++
          marked (ascii "#") r.fragment ↔ _
      rw [← List.append_assoc, List.append_left_inj, List.append_left_inj]
      exact directory_eq_path_iff h.stops
  · rw [if_neg hpath, if_pos hpath]
    refine forall_congr' fun hdots => ?_
    by_cases hhead : r.path.head? = some 0x2f
    · rw [if_pos hhead, (removeDots_eq_self_iff _).mpr hdots, ← htext, between,
        if_pos (hslash.mpr hhead), pathOrBare_iff h.stops]
      exact List.append_left_eq_self.trans ⟨fun hnone => ⟨hnone, .inl hhead⟩, fun hboth => hboth.1⟩
    · rw [if_neg hhead, between, if_neg (mt hslash.mp hhead), or_iff_right hhead,
        ← directory_path_iff h.stops hdots, htext, ← List.append_assoc, ← List.append_assoc,
        List.append_left_inj, List.append_left_inj]

/-- **When exactly a redirect leads to the target of its location**, for every absolute URL of the
download and every location that is more than white space. -/
theorem resolveRedirectUrl_iff {current scheme authority rest raw : Bytes}
    (h : Absolute current scheme authority rest) (hne : trimAscii raw ≠ []) :
    (∃ url, resolveRedirectUrl current raw = .ok url ∧
        Resolves url (parse current) (parse (trimAscii raw))) ↔
      Followed (parse current) (trimAscii raw) := by
  -- the code returns one URL, so the question is about that URL
  have honly : ∀ {result : Bytes}, resolveRedirectUrl current raw = .ok result →
      ((∃ url, resolveRedirectUrl current raw = .ok url ∧
          Resolves url (parse current) (parse (trimAscii raw))) ↔
        Resolves result (parse current) (parse (trimAscii raw))) := by
    intro result hresult
    constructor
    · rintro ⟨url, hurl, hresolves⟩
      rw [hresult] at hurl
      cases hurl
      exact hresolves
    · exact fun hresolves => ⟨result, hresult, hresolves⟩
  rw [Followed]
  by_cases hscheme : (parse (trimAscii raw)).scheme = none
  · rw [if_neg (not_not_intro hscheme)]
    by_cases hmark : ascii "://" <:+: trimAscii raw
    · rw [honly (resolveRedirectUrl_marked hne hmark current)]
      exact iff_of_false (not_resolves_marked h hscheme) fun hfollowed => hfollowed.1 hmark
    · by_cases hauthority : (parse (trimAscii raw)).authority = none
      · have hslashes := (authority_eq_none_iff hscheme).mp hauthority
        rw [honly (resolveRedirectUrl_between h hne hmark hslashes),
          followedPath_iff h hscheme hauthority]
        exact ⟨fun hfollowed => ⟨hmark, fun _ => hfollowed⟩, fun hboth => hboth.2 hauthority⟩
      · have hslashes := not_not.mp (mt (authority_eq_none_iff hscheme).mpr hauthority)
        rw [honly (resolveRedirectUrl_network h hne hmark hslashes)]
        exact iff_of_true (resolves_network h hscheme hauthority)
          ⟨hmark, fun hnone => absurd hnone hauthority⟩
  · rw [if_pos hscheme]
    by_cases hmark : ascii "://" <:+: trimAscii raw
    · rw [honly (resolveRedirectUrl_marked hne hmark current)]
      exact iff_of_true (resolves_absolute hscheme _) hmark
    · have hslashes : ¬ ascii "//" <+: trimAscii raw := by
        have hone : ascii "/" <+: ascii "//" := by decide
        exact fun hslashes => slash_of_scheme hscheme (hone.trans hslashes)
      rw [honly (resolveRedirectUrl_between h hne hmark hslashes)]
      exact iff_of_false (not_resolves_unmarked h hscheme hmark) hmark

/-! A login page that is given an URL to come back to. -/

theorem sample_absolute :
    Absolute (ascii "https://h/a/b") (ascii "https") (ascii "h") (ascii "/a/b") :=
  ⟨rfl, by decide, by decide +kernel, by decide +kernel, fun b hb => by cases hb; rfl⟩

/-- A sibling of the current URL is found. -/
theorem redirect_followed :
    ∃ url, resolveRedirectUrl (ascii "https://h/a/b") (ascii "c?x=1") = .ok url ∧
      Resolves url (parse (ascii "https://h/a/b")) (parse (trimAscii (ascii "c?x=1"))) := by
  refine (resolveRedirectUrl_iff sample_absolute (by decide)).mpr ?_
  rw [Followed, if_neg (by decide)]
  refine ⟨by decide, fun _ => ?_⟩
  rw [FollowedPath, if_pos (by decide)]
  exact fun _ => ⟨fun hempty => absurd hempty (by decide), .inr (by decide)⟩

/-- A path is taken for an absolute URL if its query mentions one. -/
theorem redirect_lost :
    ¬ ∀ (current scheme authority rest raw : Bytes), Absolute current scheme authority rest →
      lower scheme = ascii "https" ∨ lower scheme = ascii "http" → trimAscii raw ≠ [] →
      ∃ url, resolveRedirectUrl current raw = .ok url ∧
        Resolves url (parse current) (parse (trimAscii raw)) := by
  intro h
  obtain ⟨url, hurl, hresolves⟩ := h (ascii "https://h/a/b") (ascii "https") (ascii "h")
    (ascii "/a/b") (ascii "/login?next=https://h/a") sample_absolute (.inl (by decide)) (by decide)
  have hsame : url = ascii "/login?next=https://h/a" := by
    have hrun : (resolveRedirectUrl (ascii "https://h/a/b")
        (ascii "/login?next=https://h/a")).toOption = some (ascii "/login?next=https://h/a") := by
      decide
    rw [hurl] at hrun
    exact Option.some.inj hrun
  rw [hsame] at hresolves
  exact absurd hresolves.scheme (by decide)

end Cpp
end SwmSdk
