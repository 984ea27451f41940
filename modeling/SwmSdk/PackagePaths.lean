import Mathlib.Data.List.DropRight
import SwmSdk.ClientCalls
import SwmSdk.Utf16

/-! # The files of a package

A manifest is accepted with paths that pass `safe_path`, which looks at the parts of a path;
`safe_join` of the C++ client then looks for `..` anywhere in it, and compares the full
path with the root of the package.  The two disagree on a name such as `a..b`.

The full path of a file is what Windows makes of it (`FullPaths`): a period at the end of a
part goes, and the periods and spaces at the end of the path go, and some names are
devices.  So a path may also come to nothing, or to a place that is not below the root
(`Joinable`).
-/
namespace SwmSdk
namespace Cpp
open ByteText Outcome

/-! ## Full paths -/

/-- A relative path that no rule on empty parts, `.` or `..` applies to. -/
structure PlainPath (path : List UInt16) : Prop where
  parts : ∀ part ∈ path.splitOn 0x5c, part ≠ [] ∧ part ≠ [0x2e]
  dots : ¬ [0x2e, 0x2e] <:+: path
  units : 0 ∉ path ∧ 0x2f ∉ path ∧ 0x3a ∉ path

/-- The path without the period at the end of a part that has one there. -/
def closeParts : List UInt16 → List UInt16
  | [] => []
  | u :: rest =>
      if u = 0x2e ∧ rest.head? = some 0x5c then closeParts rest else u :: closeParts rest

/-- What is left of a plain path in a full one. -/
def normalPath (path : List UInt16) : List UInt16 :=
  (closeParts path).rdropWhile fun u => u = 0x20 || u = 0x2e

/-- `\\.\`: what the full path of a device starts with. -/
def deviceRoot : List UInt16 := [0x5c, 0x5c, 0x2e, 0x5c]

/-- A full path, from a drive or from a server. -/
structure AbsolutePath (system : HostSystem) (root : List UInt16) : Prop where
  full : system.absolute root = .ok root
  rooted : (∃ drive rest, root = drive :: 0x3a :: 0x5c :: rest) ∨
    ∃ first second rest, root = 0x5c :: 0x5c :: first :: second :: rest

/-- What is documented of full paths and of the comparison of names.  Which texts name a
device differs between the systems. -/
structure FullPaths (system : HostSystem) (device : List UInt16 → Option (List UInt16)) :
    Prop where
  join : ∀ root path, AbsolutePath system root → PlainPath path →
    device (joinPath root path) = none →
    system.absolute (joinPath root path) = .ok (joinPath root (normalPath path))
  reserved : ∀ path name, device path = some name → system.absolute path = .ok (deviceRoot ++ name)
  /-- A path that starts with `\\.\` is taken as it is. -/
  legacy : ∀ path name, device path = some name → ¬ deviceRoot <+: path
  /-- Names are compared without regard to case, which periods and separators do not have. -/
  fold : ∀ u v, v = 0x2e ∨ v = 0x5c → system.fold u = system.fold v → u = v

/-- The path lies below the root. -/
def Inside (root path : List UInt16) : Prop :=
  ∃ rest, rest ≠ [] ∧ rest.head? ≠ some 0x5c ∧ path = joinPath root rest

/-- The text of a listed path. -/
def wideText (path : Bytes) : List UInt16 :=
  CSharp.getString (path.map fun b => if b = 0x2f then 0x5c else b)

/-- The root ends with a separator. -/
def EndsOpen (root : List UInt16) : Prop :=
  root = [] ∨ root.getLast? = some 0x5c ∨ root.getLast? = some 0x2f ∨ root.getLast? = some 0x3a

instance (root : List UInt16) : Decidable (EndsOpen root) :=
  inferInstanceAs (Decidable (_ ∨ _ ∨ _ ∨ _))

/-- Spaces and periods only: nothing is left of such a path. -/
def Vanishing (path : Bytes) : Prop := ∀ b ∈ path, b = 0x20 ∨ b = 0x2e

instance (path : Bytes) : Decidable (Vanishing path) := inferInstanceAs (Decidable (∀ b ∈ path, _))

/-- The paths that are joined with a root to a path below it. -/
structure Joinable (device : List UInt16 → Option (List UInt16)) (root : List UInt16)
    (path : Bytes) : Prop where
  dots : ¬ ascii ".." <:+: path
  free : device (joinPath root (wideText path)) = none
  named : ¬ Vanishing path

/-- The paths that are refused for a root. -/
def Refused (device : List UInt16 → Option (List UInt16)) (root : List UInt16) (path : Bytes) :
    Prop :=
  ascii ".." <:+: path ∨ device (joinPath root (wideText path)) ≠ none ∨
    (Vanishing path ∧ EndsOpen root)

/-! ## The text of a path -/

theorem isUtf8_map {f : UInt8 → UInt8} (hlow : ∀ b, b < 0x80 → f b < 0x80)
    (hhigh : ∀ b, 0x80 ≤ b → f b = b) (fuel : Nat) (bytes : Bytes) :
    isUtf8 fuel (bytes.map f) = isUtf8 fuel bytes := by
  have taken : ∀ ranges : List (UInt8 × UInt8), (∀ r ∈ ranges, (0x80 : UInt8) ≤ r.1) →
      ∀ bytes, takeInRanges ranges (bytes.map f) = takeInRanges ranges bytes := by
    intro ranges
    induction ranges with
    | nil => intro _ bytes; rw [CSharp.takeInRanges_nil, CSharp.takeInRanges_nil]
    | cons range ranges ih =>
      obtain ⟨low, high⟩ := range
      intro hranges bytes
      cases bytes with
      | nil => rfl
      | cons b rest =>
        have hstart : (0x80 : UInt8) ≤ low := hranges (low, high) (List.mem_cons_self ..)
        rw [List.map_cons, takeInRanges, takeInRanges,
          ih (fun r hr => hranges r (List.mem_cons_of_mem _ hr))]
        by_cases hb : b < 0x80
        · rw [if_neg fun h => UInt8.not_lt.mpr (UInt8.le_trans hstart h.1) (hlow b hb),
            if_neg fun h => UInt8.not_lt.mpr (UInt8.le_trans hstart h.1) hb]
        · rw [hhigh b (UInt8.not_lt.mp hb)]
  induction fuel generalizing bytes with
  | zero => cases bytes <;> rfl
  | succ fuel ih =>
    cases bytes with
    | nil => rfl
    | cons b rest =>
      rw [List.map_cons, isUtf8, isUtf8]
      by_cases hb : b < 0x80
      · rw [if_pos (hlow b hb), if_pos hb, ih]
      · rw [hhigh b (UInt8.not_lt.mp hb), if_neg hb, if_neg hb]
        cases hranges : continuation b with
        | none => rfl
        | some ranges =>
          dsimp only
          rw [taken ranges (continuation_low hranges), ← List.map_drop, ih]

theorem validUtf8_slashes (path : Bytes) :
    validUtf8 (path.map fun b => if b = 0x2f then 0x5c else b) = validUtf8 path := by
  unfold validUtf8
  rw [List.length_map]
  apply isUtf8_map
  · intro b hb
    split
    · decide
    · exact hb
  · intro b hb
    rw [if_neg]
    rintro rfl
    exact absurd hb (by decide)

theorem splitOn_slashes {path : Bytes} (h : 0x5c ∉ path) :
    (path.map fun b => if b = 0x2f then 0x5c else b).splitOn 0x5c = path.splitOn 0x2f := by
  induction path with
  | nil => rfl
  | cons b rest ih =>
    have hb : b ≠ 0x5c := fun he => h (by rw [he]; exact List.mem_cons_self ..)
    rw [List.map_cons, List.splitOn_cons_eq_if_modifyHead, List.splitOn_cons_eq_if_modifyHead,
      ih fun hm => h (List.mem_cons_of_mem _ hm)]
    by_cases hslash : b = 0x2f
    · simp [hslash]
    · simp [hslash, hb]

theorem safePath_parts {path : Bytes} (hsafe : safePath path = true) :
    path ≠ [] ∧ path.head? ≠ some 0x2f ∧ 0x5c ∉ path ∧ 0x3a ∉ path ∧ 0 ∉ path ∧
      ∀ part ∈ path.splitOn 0x2f, part ≠ [] ∧ part ≠ [0x2e] := by
  have hdot : ascii "." = [0x2e] := by decide
  simp only [safePath, Bool.and_eq_true, List.all_eq_true, decide_eq_true_eq, hdot,
    List.contains_iff_mem, decide_not, Bool.not_eq_true', decide_eq_false_iff_not] at hsafe
  obtain ⟨⟨⟨⟨⟨⟨⟨hne, -⟩, hhead⟩, -⟩, hback⟩, hcolon⟩, hzero⟩, hparts⟩ := hsafe
  exact ⟨hne, hhead, hback, hcolon, hzero, fun part hpart =>
    ⟨(hparts part hpart).1.1.1, (hparts part hpart).1.1.2⟩⟩

theorem wideText_decoded {path : Bytes} (hutf8 : validUtf8 path = true) :
    CSharp.Decoded (path.map fun b => if b = 0x2f then 0x5c else b) (wideText path) :=
  CSharp.getString_decoded ((validUtf8_slashes path).trans hutf8)

/-- A safe path is plain unless there are two periods in a row in it. -/
theorem plain_wideText {path : Bytes} (hsafe : safePath path = true)
    (hutf8 : validUtf8 path = true) (hdots : ¬ ascii ".." <:+: path) :
    PlainPath (wideText path) := by
  obtain ⟨-, -, hback, hcolon, hzero, hparts⟩ := safePath_parts hsafe
  have htext := wideText_decoded hutf8
  have spare : ∀ b : UInt8, b < 0x80 → b ≠ 0x5c → (b = 0x2f ∨ b ∉ path) →
      b.toUInt16 ∉ wideText path := by
    intro b hb hne hspare hm
    obtain ⟨c, hc, hcb⟩ := List.mem_map.mp ((htext.mem hb).mp hm)
    split at hcb
    · exact hne hcb.symm
    · rename_i hslash
      subst hcb
      exact hspare.elim hslash fun h => h hc
  refine ⟨fun part hpart => ?_, fun hinside => hdots ?_,
    spare 0 (by decide) (by decide) (.inr hzero),
    spare 0x2f (by decide) (by decide) (.inl rfl), spare 0x3a (by decide) (by decide) (.inr hcolon)⟩
  · have hsplit := htext.splitOn (b := 0x5c) (by decide)
    rw [splitOn_slashes hback] at hsplit
    obtain ⟨bytes, hbytes, hdecoded⟩ := CSharp.forall₂_mem_right hsplit hpart
    refine ⟨?_, ?_⟩
    · rintro rfl
      exact (hparts bytes hbytes).1 (@CSharp.Decoded.eq_of_units _ [] hdecoded (by simp))
    · rintro rfl
      exact (hparts bytes hbytes).2 (@CSharp.Decoded.eq_of_units _ [0x2e] hdecoded (by simp))
  · have hbytes : [0x2e, 0x2e] <:+: path.map fun b => if b = 0x2f then 0x5c else b :=
      @CSharp.Decoded.occurs _ [0x2e, 0x2e] _ htext (by simp) hinside
    obtain ⟨dots, hin, hmap⟩ := List.infix_map_iff.mp hbytes
    have hsame : ∀ b : UInt8, 0x2e = (if b = 0x2f then 0x5c else b) → b = 0x2e := by
      intro b hb
      split at hb
      · cases hb
      · exact hb.symm
    obtain ⟨b, rest, rfl, hb, hrest⟩ := List.map_eq_cons_iff.mp hmap.symm
    obtain ⟨c, rest, rfl, hc, hnil⟩ := List.map_eq_cons_iff.mp hrest
    obtain rfl := List.map_eq_nil_iff.mp hnil
    rw [hsame b hb.symm, hsame c hc.symm] at hin
    exact hin

/-! ## What is left of a path -/

theorem forall_closeParts {p : UInt16 → Prop} (hp : p 0x2e) {path : List UInt16} :
    (∀ u ∈ closeParts path, p u) ↔ ∀ u ∈ path, p u := by
  induction path with
  | nil => rfl
  | cons u rest ih =>
    rw [closeParts, List.forall_mem_cons]
    split
    · rename_i hdot
      rw [ih, and_iff_right (by rw [hdot.1]; exact hp)]
    · rw [List.forall_mem_cons, ih]

theorem normalPath_eq_nil {path : List UInt16} :
    normalPath path = [] ↔ ∀ u ∈ path, u = 0x20 ∨ u = 0x2e := by
  rw [normalPath, List.rdropWhile_eq_nil_iff]
  simp only [Bool.or_eq_true, decide_eq_true_eq]
  exact forall_closeParts (p := fun u => u = 0x20 ∨ u = 0x2e) (.inr rfl)

theorem PlainPath.head_normalPath {path : List UInt16} (h : PlainPath path) :
    (normalPath path).head? ≠ some 0x5c := by
  cases path with
  | nil => simp [normalPath, closeParts]
  | cons u rest =>
    have hfirst : u ≠ 0x5c := by
      rintro rfl
      refine (h.parts [] ?_).1 rfl
      rw [List.splitOn_cons_eq_if_modifyHead]
      exact List.mem_cons_self ..
    have hdot : ¬ (u = 0x2e ∧ rest.head? = some 0x5c) := by
      rintro ⟨rfl, hrest⟩
      obtain ⟨tail, rfl⟩ := List.head?_eq_some_iff.mp hrest
      refine (h.parts [0x2e] ?_).2 rfl
      rw [List.splitOn_cons_eq_if_modifyHead, List.splitOn_cons_eq_if_modifyHead]
      exact List.mem_cons_self ..
    intro hhead
    have hstart : normalPath (u :: rest) <+: closeParts (u :: rest) := List.rdropWhile_prefix _ _
    rw [closeParts, if_neg hdot] at hstart
    obtain ⟨tail, htail⟩ := List.head?_eq_some_iff.mp hhead
    rw [htail] at hstart
    exact hfirst (List.cons_prefix_cons.mp hstart).1.symm

theorem blank_iff {path : Bytes} (hutf8 : validUtf8 path = true) :
    normalPath (wideText path) = [] ↔ Vanishing path := by
  have hblank : Vanishing (path.map fun b => if b = 0x2f then 0x5c else b) ↔ Vanishing path := by
    unfold Vanishing
    rw [List.forall_mem_map]
    refine forall₂_congr fun b _ => ?_
    by_cases hb : b = 0x2f
    · rw [if_pos hb, hb]
      decide
    · rw [if_neg hb]
  have hunit : ∀ u : UInt16, (u = 0x20 ∨ u = 0x2e) ↔
      ∃ b : UInt8, (b = 0x20 ∨ b = 0x2e) ∧ u = b.toUInt16 := by
    intro u
    constructor
    · rintro (rfl | rfl)
      · exact ⟨0x20, .inl rfl, rfl⟩
      · exact ⟨0x2e, .inr rfl, rfl⟩
    · rintro ⟨b, rfl | rfl, rfl⟩
      · exact .inl rfl
      · exact .inr rfl
  rw [normalPath_eq_nil, ← hblank]
  simp only [hunit]
  exact (wideText_decoded hutf8).forall_iff fun b hb => by rcases hb with rfl | rfl <;> decide

/-! ## What is joined -/

section Join
variable {system : HostSystem} {device : List UInt16 → Option (List UInt16)}
  (hpaths : FullPaths system device) {root : List UInt16} (hroot : AbsolutePath system root)

theorem joinPath_eq (root path : List UInt16) :
    joinPath root path = if EndsOpen root then root ++ path else root ++ 0x5c :: path := rfl

/-- The root is at the start of what is joined with it. -/
theorem joinPath_starts (root path : List UInt16) : root <+: joinPath root path := by
  rw [joinPath_eq]
  split
  · exact List.prefix_append _ _
  · exact List.prefix_append _ _

theorem length_joinPath (root path : List UInt16) :
    (joinPath root path).length ≤ root.length ↔ EndsOpen root ∧ path = [] := by
  rw [joinPath_eq]
  split
  · rename_i hopen
    rw [and_iff_right hopen, List.length_append, ← List.length_eq_zero_iff]
    omega
  · rename_i hopen
    rw [List.length_append, List.length_cons]
    exact iff_of_false (by omega) fun h => hopen h.1

theorem joinPath_injective {root first second : List UInt16}
    (h : joinPath root first = joinPath root second) : first = second := by
  rw [joinPath_eq, joinPath_eq] at h
  split at h
  · exact List.append_cancel_left h
  · exact (List.cons.inj (List.append_cancel_left h)).2

include hpaths hroot

/-- A device is not below the root. -/
theorem device_outside {path name : List UInt16}
    (h : device (joinPath root path) = some name) :
    ((deviceRoot ++ name).take root.length).map system.fold ≠ root.map system.fold := by
  intro hsame
  have at_index : ∀ (n : Nat) (u v : UInt16), (deviceRoot ++ name)[n]? = some v →
      root[n]? = some u → v = 0x2e ∨ v = 0x5c → u = v := by
    intro n u v hv hu hcase
    refine hpaths.fold u v hcase (Option.some.inj ?_)
    have hlt : n < root.length := (List.getElem?_eq_some_iff.mp hu).1
    have hunit := congrArg (fun units : List UInt16 => units[n]?) hsame
    simp only [List.getElem?_map, List.getElem?_take, if_pos hlt, hu, hv, Option.map_some] at hunit
    exact hunit.symm
  rcases hroot.rooted with ⟨drive, rest, rfl⟩ | ⟨first, second, rest, rfl⟩
  · exact absurd (at_index 1 0x3a 0x5c rfl rfl (.inr rfl)) (by decide)
  · obtain rfl : first = 0x2e := at_index 2 first 0x2e rfl rfl (.inl rfl)
    obtain rfl : second = 0x5c := at_index 3 second 0x5c rfl rfl (.inr rfl)
    exact hpaths.legacy _ name h ((List.prefix_append deviceRoot rest).trans (joinPath_starts _ _))

omit hpaths in
/-- What `safe_join` makes of a safe path, with its tests on the text of the path passed. -/
theorem safeJoin_eq {path : Bytes} (hsafe : safePath path = true) (hutf8 : validUtf8 path = true)
    (hdots : ¬ ascii ".." <:+: path) :
    safeJoin system root path = (system.absolute (joinPath root (wideText path))).bind fun full =>
      if full.length ≤ root.length ∨
          (full.take root.length).map system.fold ≠ root.map system.fold then
        .error (unsafePath "integrity path escapes package root")
      else .ok full := by
  obtain ⟨hne, hslash, hback, hcolon, -, -⟩ := safePath_parts hsafe
  have hfront : path.head? ≠ some 0x5c := fun h => hback (List.mem_of_mem_head? h)
  have hpass : ¬ (path = [] ∨ path.head? = some 0x2f ∨ path.head? = some 0x5c ∨
      path.contains 0x3a = true ∨ ascii ".." <:+: path) := by
    rw [List.contains_iff_mem]
    tauto
  have hwide : utf8ToWide (path.map fun b => if b = 0x2f then 0x5c else b) =
      .ok (wideText path) := by
    rw [utf8ToWide, if_pos ((validUtf8_slashes path).trans hutf8)]
    rfl
  unfold safeJoin
  rw [if_neg hpass]
  dsimp only
  rw [hwide, hroot.full]
  rfl

/-- A refused path is refused as unsafe. -/
theorem safeJoin_refused {path : Bytes} (hsafe : safePath path = true)
    (hutf8 : validUtf8 path = true) (h : Refused device root path) :
    ∃ message, safeJoin system root path = .error (unsafePath message) := by
  by_cases hdots : ascii ".." <:+: path
  · refine ⟨"integrity path is unsafe", ?_⟩
    unfold safeJoin
    rw [if_pos (by tauto)]
  refine ⟨"integrity path escapes package root", ?_⟩
  rw [safeJoin_eq hroot hsafe hutf8 hdots]
  cases hdevice : device (joinPath root (wideText path)) with
  | some name =>
    rw [hpaths.reserved _ name hdevice]
    exact if_pos (.inr (device_outside hpaths hroot hdevice))
  | none =>
    obtain ⟨hblank, hopen⟩ : Vanishing path ∧ EndsOpen root := by
      rcases h with h | h | h
      · exact absurd h hdots
      · exact absurd hdevice h
      · exact h
    rw [hpaths.join _ _ hroot (plain_wideText hsafe hutf8 hdots) hdevice]
    exact if_pos (.inl ((length_joinPath _ _).mpr ⟨hopen, (blank_iff hutf8).mpr hblank⟩))

/-- Any other is joined with the root. -/
theorem safeJoin_joined {path : Bytes} (hsafe : safePath path = true)
    (hutf8 : validUtf8 path = true) (h : ¬ Refused device root path) :
    safeJoin system root path = .ok (joinPath root (normalPath (wideText path))) := by
  simp only [Refused, not_or, not_not, not_and] at h
  obtain ⟨hdots, hdevice, hopen⟩ := h
  rw [safeJoin_eq hroot hsafe hutf8 hdots,
    hpaths.join _ _ hroot (plain_wideText hsafe hutf8 hdots) hdevice]
  refine if_neg ?_
  rw [length_joinPath, blank_iff hutf8, not_or, not_not]
  refine ⟨fun hboth => hopen hboth.2 hboth.1, ?_⟩
  rw [← List.prefix_iff_eq_take.mp (joinPath_starts _ _)]

/-- A safe path is joined to a path below the root exactly if it is joinable. -/
theorem safeJoin_inside_iff {path : Bytes} (hsafe : safePath path = true)
    (hutf8 : validUtf8 path = true) :
    (∃ full, safeJoin system root path = .ok full ∧ Inside root full) ↔
      Joinable device root path := by
  by_cases hrefused : Refused device root path
  · obtain ⟨message, hmessage⟩ := safeJoin_refused hpaths hroot hsafe hutf8 hrefused
    refine iff_of_false ?_ fun h => ?_
    · rintro ⟨full, hfull, -⟩
      rw [hmessage] at hfull
      cases hfull
    · rcases hrefused with hdots | hdevice | hblank
      · exact h.dots hdots
      · exact hdevice h.free
      · exact h.named hblank.1
  · rw [safeJoin_joined hpaths hroot hsafe hutf8 hrefused]
    simp only [Refused, not_or, not_not] at hrefused
    constructor
    · rintro ⟨full, hfull, rest, hne, -, heq⟩
      obtain rfl := Except.ok.inj hfull
      rw [← joinPath_injective heq, Ne, blank_iff hutf8] at hne
      exact ⟨hrefused.1, hrefused.2.1, hne⟩
    · intro h
      exact ⟨_, rfl, _, fun hnil => h.named ((blank_iff hutf8).mp hnil),
        (plain_wideText hsafe hutf8 h.dots).head_normalPath, rfl⟩

end Join

/-! ## The evidence -/

section Evidence
variable {crypto : Crypto} {options : ClientOptions} {system : HostSystem}
  {device : List UInt16 → Option (List UInt16)} {root : List UInt16}

/-- The loop goes on after the file: it is absent, or it is read. -/
def Passed (system : HostSystem) (device : List UInt16 → Option (List UInt16))
    (root : List UInt16) (path : Bytes) : Prop :=
  let full := joinPath root (normalPath (wideText path))
  ¬ Refused device root path ∧ (system.existsFile full = .ok false ∨
    system.existsFile full = .ok true ∧ system.content full ≠ none)

/-- The loop comes to a file that is refused. -/
def ReachesRefused (system : HostSystem) (device : List UInt16 → Option (List UInt16))
    (root : List UInt16) (files : List Rim2File) : Prop :=
  ∃ before file after, files = before ++ file :: after ∧
    (∀ passed ∈ before, Passed system device root passed.path) ∧ Refused device root file.path

theorem reachesRefused_nil : ¬ ReachesRefused system device root [] := by
  rintro ⟨before, file, after, hfiles, -⟩
  simp at hfiles

theorem reachesRefused_cons {file : Rim2File} {rest : List Rim2File} :
    ReachesRefused system device root (file :: rest) ↔ Refused device root file.path ∨
      Passed system device root file.path ∧ ReachesRefused system device root rest := by
  constructor
  · rintro ⟨before, refused, after, hfiles, hbefore, hrefused⟩
    cases before with
    | nil =>
      obtain ⟨rfl, -⟩ := List.cons.inj hfiles
      exact .inl hrefused
    | cons first before =>
      obtain ⟨rfl, hrest⟩ := List.cons.inj hfiles
      obtain ⟨hfirst, hbefore⟩ := List.forall_mem_cons.mp hbefore
      exact .inr ⟨hfirst, before, refused, after, hrest, hbefore, hrefused⟩
  · rintro (hrefused | ⟨hpassed, before, refused, after, rfl, hbefore, hrefused⟩)
    · exact ⟨[], file, rest, rfl, by simp, hrefused⟩
    · exact ⟨file :: before, refused, after, rfl, List.forall_mem_cons.mpr ⟨hpassed, hbefore⟩,
        hrefused⟩

theorem collectFiles_joined {file : Rim2File} {full : List UInt16}
    (hpackage : packageRoot options system = .ok root)
    (hjoin : safeJoin system root file.path = .ok full) (rest : List Rim2File)
    (taken : List (Bytes × Bytes)) :
    collectFiles crypto options system (file :: rest) taken =
      match system.existsFile full with
      | .error () => .ok none
      | .ok false => collectFiles crypto options system rest taken
      | .ok true => (hashFile crypto system full).bind fun digest =>
          collectFiles crypto options system rest (insertFile file.path (hex digest) taken) := by
  rw [collectFiles, hpackage]
  dsimp only [bind, Except.bind]
  rewrite [hjoin]
  rfl

/-- The loop fails with `host_unsafe_path` exactly if it comes to a file that is refused. -/
theorem collectFiles_refused (hpaths : FullPaths system device)
    (hpackage : packageRoot options system = .ok root) (hroot : AbsolutePath system root)
    {files : List Rim2File}
    (hfiles : ∀ file ∈ files, safePath file.path = true ∧ validUtf8 file.path = true)
    (taken : List (Bytes × Bytes)) :
    (∃ e, collectFiles crypto options system files taken = .error (.swm e) ∧
      e.serviceCode = ascii "host_unsafe_path") ↔ ReachesRefused system device root files := by
  induction files generalizing taken with
  | nil =>
    refine iff_of_false ?_ reachesRefused_nil
    rintro ⟨e, h, -⟩
    cases h
  | cons file rest ih =>
    obtain ⟨⟨hsafe, hutf8⟩, hrest⟩ := List.forall_mem_cons.mp hfiles
    rw [reachesRefused_cons]
    by_cases hrefused : Refused device root file.path
    · obtain ⟨message, hmessage⟩ := safeJoin_refused hpaths hroot hsafe hutf8 hrefused
      refine iff_of_true ⟨rim2Error "host_unsafe_path" message, ?_, rfl⟩ (.inl hrefused)
      rw [collectFiles, hpackage]
      dsimp only [bind, Except.bind]
      rw [hmessage]
      rfl
    have hjoin := safeJoin_joined hpaths hroot hsafe hutf8 hrefused
    rw [collectFiles_joined hpackage hjoin, or_iff_right hrefused, Passed, and_iff_right hrefused]
    generalize joinPath root (normalPath (wideText file.path)) = full
    cases hexists : system.existsFile full with
    | error e =>
      refine iff_of_false ?_ ?_
      · rintro ⟨e, h, -⟩
        cases h
      · rintro ⟨h | h, -⟩
        · cases h
        · cases h.1
    | ok found =>
      cases found with
      | false => simp [ih hrest]
      | true =>
        cases hcontent : system.content full with
        | none =>
          refine iff_of_false ?_ (by simp)
          rintro ⟨e, h, hcode⟩
          simp only [hashFile, hcontent, Except.bind] at h
          obtain rfl := Failure.swm.inj (Except.error.inj h)
          exact absurd hcode (by decide)
        | some bytes =>
          simp [hashFile, hcontent, Except.bind, ih hrest]

/-- The files of a manifest that was loaded have safe paths. -/
theorem loadManifest_safe {host : HostState crypto options} {manifest : Rim2Manifest}
    (h : (loadManifest system host).1 = .ok manifest) :
    ∀ file ∈ manifest.files, safePath file.path = true := by
  obtain ⟨raw, hraw⟩ := loadManifest_parsed system h
  obtain ⟨m, -, hadmissible, rfl⟩ := parseRim2_eq_ok.mp hraw
  exact fun file hfile => (hadmissible.wellFormed.body.files file hfile).2.path

/-- Evidence of a manifest fails as unsafe exactly if the loop over its files does. -/
theorem evidence_refused {host : HostState crypto options} {manifest : Rim2Manifest}
    (hprovider : options.hostIntegrity.evidenceProvider = none)
    (henabled : options.hostIntegrity.enabled = true)
    (hmanifest : (loadManifest system host).1 = .ok manifest) :
    (evidence system host).1 = .ok (some (.failed (ascii "host_unsafe_path"))) ↔
      ∃ e, collectFiles crypto options system manifest.files [] = .error (.swm e) ∧
        e.serviceCode = ascii "host_unsafe_path" := by
  have hevidence : (evidence system host).1 = (manifestEvidence system host).1.map some := by
    unfold evidence
    rw [hprovider]
    dsimp only
    rw [if_neg (not_not_intro henabled)]
  have hfailed : ∀ code, some (IntegrityEvidence.failed code) =
      some (.failed (ascii "host_unsafe_path")) ↔ code = ascii "host_unsafe_path" := by
    intro code
    refine ⟨fun h => ?_, fun h => by rw [h]⟩
    exact congrArg IntegrityEvidence.failureCode (Option.some.inj h)
  rw [hevidence, manifestEvidence, hmanifest]
  simp only [bind, Except.bind]
  cases collectFiles crypto options system manifest.files [] with
  | error failure =>
    cases failure with
    | other what => simp [Except.map]
    | swm e =>
      simp only [Except.map, Except.ok.injEq, hfailed, Except.error.injEq, Failure.swm.injEq,
        exists_eq_left']
      by_cases hcode : e.serviceCode = []
      · rw [if_pos hcode, hcode]
        decide
      · rw [if_neg hcode]
  | ok found =>
    refine iff_of_false ?_ ?_
    · cases found with
      | none =>
        simp only [Except.map, Except.ok.injEq, hfailed]
        decide
      | some files =>
        intro h
        have hstate := congrArg IntegrityEvidence.state (Option.some.inj (Except.ok.inj h))
        have hstates : ascii "verified" ≠ ascii "failed" := by decide
        exact hstates hstate
    · rintro ⟨e, h, -⟩
      cases h

/-- **What `safe_path` and `safe_join` agree on.**  A safe path is joined to a path below the
package exactly if it has no two periods in a row, names no device and is more than spaces and
periods; and a manifest that was accepted makes the evidence fail as unsafe exactly if the loop
over its files comes to a path that is refused. -/
theorem packagePaths_agree_iff (hpaths : FullPaths system device)
    (hpackage : packageRoot options system = .ok root) (hroot : AbsolutePath system root) :
    (∀ path, safePath path = true → validUtf8 path = true →
      ((∃ full, safeJoin system root path = .ok full ∧ Inside root full) ↔
        Joinable device root path)) ∧
    ∀ (host : HostState crypto options) (manifest : Rim2Manifest),
      options.hostIntegrity.evidenceProvider = none → options.hostIntegrity.enabled = true →
      (loadManifest system host).1 = .ok manifest →
      (∀ file ∈ manifest.files, validUtf8 file.path = true) →
      ((evidence system host).1 = .ok (some (.failed (ascii "host_unsafe_path"))) ↔
        ReachesRefused system device root manifest.files) := by
  refine ⟨fun path hsafe hutf8 => safeJoin_inside_iff hpaths hroot hsafe hutf8, ?_⟩
  intro host manifest hprovider henabled hmanifest hutf8
  rw [evidence_refused hprovider henabled hmanifest]
  exact collectFiles_refused hpaths hpackage hroot
    (fun file hfile => ⟨loadManifest_safe hmanifest file hfile, hutf8 file hfile⟩) []

end Evidence

/-! ## A name with two periods -/

theorem closeParts_sublist (path : List UInt16) : (closeParts path).Sublist path := by
  induction path with
  | nil => exact .slnil
  | cons u rest ih =>
    rw [closeParts]
    split
    · exact ih.cons u
    · exact ih.cons_cons u

theorem closeParts_append {root : List UInt16} (h : root.getLast? ≠ some 0x2e)
    (path : List UInt16) : closeParts (root ++ path) = closeParts root ++ closeParts path := by
  induction root with
  | nil => rfl
  | cons u rest ih =>
    cases rest with
    | nil =>
      have hu : u ≠ 0x2e := fun he => h (by rw [he]; rfl)
      simp [closeParts, hu]
    | cons v rest =>
      rw [List.getLast?_cons_cons] at h
      have hnext : ∀ path, closeParts (u :: v :: path) =
          if u = 0x2e ∧ some v = some 0x5c then closeParts (v :: path)
          else u :: closeParts (v :: path) := fun _ => rfl
      rw [List.cons_append, List.cons_append, hnext, hnext, ← List.cons_append, ih h]
      by_cases hdrop : u = 0x2e ∧ some v = some 0x5c
      · rw [if_pos hdrop, if_pos hdrop]
      · rw [if_neg hdrop, if_neg hdrop, List.cons_append]

/-- A path in its normal form stays as it is before another. -/
theorem normalPath_append {root : List UInt16} (h : normalPath root = root)
    (path : List UInt16) : normalPath (root ++ path) = root ++ normalPath path := by
  -- neither step takes anything from the root
  have hclosed : closeParts root = root := by
    refine (closeParts_sublist root).eq_of_length_le ?_
    have hstart : normalPath root <+: closeParts root := List.rdropWhile_prefix _ _
    rw [h] at hstart
    exact hstart.length_le
  have hkept : (root.rdropWhile fun u => u = 0x20 || u = 0x2e) = root := by
    rwa [normalPath, hclosed] at h
  have hperiod : root.getLast? ≠ some 0x2e := by
    intro hlast
    obtain ⟨front, rfl⟩ := List.getLast?_eq_some_iff.mp hlast
    rw [List.rdropWhile_concat_pos _ _ _ (by decide)] at hkept
    have hlength :=
      (List.rdropWhile_prefix (fun u : UInt16 => u = 0x20 || u = 0x2e) front).length_le
    rw [hkept, List.length_append, List.length_singleton] at hlength
    omega
  rw [normalPath, closeParts_append hperiod, hclosed, normalPath, List.rdropWhile,
    List.reverse_append, List.dropWhile_append]
  split
  · rename_i hempty
    rw [List.isEmpty_iff] at hempty
    rw [List.rdropWhile, hempty, List.reverse_nil, List.append_nil]
    exact hkept
  · rw [List.reverse_append, List.reverse_reverse]
    rfl

theorem normalPath_joinPath {root : List UInt16} (h : normalPath root = root)
    (path : List UInt16) : normalPath (joinPath root path) = joinPath root (normalPath path) := by
  rw [joinPath_eq, joinPath_eq]
  split
  · exact normalPath_append h path
  · have hopen : normalPath (root ++ [0x5c]) = root ++ [0x5c] := by
      rw [normalPath_append h]
      rfl
    rw [List.append_cons, normalPath_append hopen, ← List.append_cons]

/-- A disk on which no name is a device and nothing is found. -/
def emptyDisk : HostSystem where
  absolute path := .ok (normalPath path)
  currentPath := .error (.other [])
  narrow _ := .error (.other [])
  fold u := if 0x41 ≤ u ∧ u ≤ 0x5a then u + 0x20 else u
  existsFile _ := .ok false
  content _ := none
  size _ := 0

theorem emptyDisk_fullPaths : FullPaths emptyDisk fun _ => none where
  join root path hroot _ _ :=
    congrArg Except.ok (normalPath_joinPath (Except.ok.inj hroot.full) path)
  reserved _ _ h := by cases h
  legacy _ _ h := by cases h
  fold u v hv h := by
    have hlower : emptyDisk.fold v = v := by rcases hv with rfl | rfl <;> decide
    rw [hlower] at h
    have hnat := congrArg UInt16.toNat h
    simp only [emptyDisk, UInt16.le_iff_toNat_le] at hnat
    split at hnat
    · rename_i hupper
      rw [UInt16.toNat_add] at hnat
      rcases hv with rfl | rfl <;> simp at hupper hnat <;> omega
    · exact UInt16.toNat_inj.mp hnat

/-- `C:\pkg`. -/
def packageFolder : List UInt16 := [0x43, 0x3a, 0x5c, 0x70, 0x6b, 0x67]

/-- Options for a package folder, with the sample manifest in it. -/
def packageOptions : ClientOptions :=
  { sampleOptions with
    arch := ascii "x64"
    hostIntegrity := ⟨true, packageFolder, ascii "release-integrity.v2", none⟩ }

/-- A signed manifest of a file whose name has two periods in a row. -/
def dottedRim2 : Rim2 where
  body := { sampleRim2.body with files := [⟨ascii "a..b", 3, appDigest⟩] }
  trailer := { sampleRim2.trailer with
    manifestSignature :=
     [0x99, 0x10, 0x46, 0x9f, 0xe5, 0xa2, 0xf6, 0x5f, 0x20, 0xb4, 0x30, 0x91, 0x08, 0xd7, 0x4a, 0xe0,
     0x23, 0x9d, 0x9e, 0xff, 0x22, 0xd4, 0xde, 0xa8, 0x00, 0xeb, 0xcc, 0x09, 0x56, 0x5c, 0x74, 0x70,
     0xa4, 0x7e, 0x36, 0xcd, 0x82, 0x16, 0x3d, 0x02, 0x87, 0xbd, 0xf7, 0xa0, 0x14, 0x69, 0x7a, 0x69,
     0xbf, 0xfb, 0x5b, 0x81, 0xcd, 0x8d, 0x36, 0xda, 0x16, 0x62, 0x0e, 0xa8, 0x8f, 0x0b, 0x24, 0x00] }

/-- The signatures of a manifest with a dotted path hold. -/
def dottedCrypto : Crypto :=
  listedCrypto [] [
    (sampleRootKey, dottedRim2.keyMessage, Base64Url.encode dottedRim2.trailer.rootSignature),
    (Base64Url.encode dottedRim2.trailer.signerPublic, dottedRim2.manifestMessage,
      Base64Url.encode dottedRim2.trailer.manifestSignature)]

theorem dottedRim2_parsed :
    parseRim2 dottedCrypto (hostExpected packageOptions) dottedRim2.encode =
      .ok (rim2Result dottedCrypto dottedRim2.encode dottedRim2) := by
  refine parseRim2_eq_ok.mpr ⟨dottedRim2, rfl, ⟨⟨?_, ?_, by decide +kernel⟩, by decide,
    by decide, by decide⟩, rfl⟩
  · exact ⟨rfl, rfl, by decide, by decide, by decide, by decide, by decide, by
      intro file hfile
      obtain rfl := List.mem_singleton.mp hfile
      exact ⟨⟨by decide, by decide, by decide⟩, ⟨by decide, by decide, by decide⟩⟩, by decide⟩
  · exact ⟨by decide, by decide, rfl, rfl, rfl⟩

/-- The manager after it read that manifest. -/
def dottedHost : HostState dottedCrypto packageOptions where
  manifest := some (rim2Result dottedCrypto dottedRim2.encode dottedRim2)
  parsed m hm := by
    obtain rfl := Option.some.inj hm
    exact ⟨_, dottedRim2_parsed⟩

/-- The file is refused, and so the evidence of its manifest fails; `lib/a.b` is joined. -/
theorem packagePaths_agree_dotted :
    Joinable (fun _ => none) packageFolder (ascii "lib/a.b") ∧
      (∃ full, safeJoin emptyDisk packageFolder (ascii "lib/a.b") = .ok full ∧
        Inside packageFolder full) ∧
      (evidence emptyDisk dottedHost).1 = .ok (some (.failed (ascii "host_unsafe_path"))) := by
  have hroot : AbsolutePath emptyDisk packageFolder :=
    ⟨by decide, .inl ⟨_, _, rfl⟩⟩
  obtain ⟨hjoin, hevidence⟩ :=
    @packagePaths_agree_iff dottedCrypto packageOptions _ _ _
      emptyDisk_fullPaths (by decide) hroot
  have hjoinable : Joinable (fun _ => none) packageFolder (ascii "lib/a.b") :=
    ⟨by decide, rfl, by decide⟩
  refine ⟨hjoinable, (hjoin _ (by decide) (by decide)).mpr hjoinable, ?_⟩
  refine (hevidence dottedHost _ rfl rfl rfl ?_).mpr
    ⟨[], ⟨ascii "a..b", 3, appDigest⟩, [], rfl, by simp, .inl (by decide)⟩
  intro file hfile
  obtain rfl := List.mem_singleton.mp hfile
  decide

/-- `safe_path` passes the name `a..b`, and `safe_join` refuses it under any root. -/
theorem dotted_refused :
    safePath (ascii "a..b") = true ∧ validUtf8 (ascii "a..b") = true ∧
      (∀ system root, safeJoin system root (ascii "a..b") =
        .error (unsafePath "integrity path is unsafe")) ∧
      (loadManifest emptyDisk dottedHost).1 =
        .ok (rim2Result dottedCrypto dottedRim2.encode dottedRim2) ∧
      (evidence emptyDisk dottedHost).1 = .ok (some (.failed (ascii "host_unsafe_path"))) := by
  refine ⟨by decide, by decide, fun system root => ?_, rfl, by decide⟩
  have hdots : ascii ".." <:+: ascii "a..b" := by decide
  unfold safeJoin
  rw [if_pos (by tauto)]

end Cpp
end SwmSdk
