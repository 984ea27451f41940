import SwmSdk.JsonOffsets
import SwmSdk.Smbios

/-! # The SMBIOS walk over offsets

`parse_smbios` as the source has it, on offsets into the buffer: a read behind the end is a fault,
and so is a loop that has not ended after so many turns.  With more turns than the buffer has bytes
no fault is met, whatever the firmware wrote, and the result is that of the walk over what is left
of the buffer (`parseSmbios_eq`).  On a well-formed table that is the first usable serial of each
type (`parseSmbios_correct`).
-/
namespace SwmSdk
open ByteText Smbios

namespace Cpp
namespace Offsets

section Walk
variable (data : Bytes)

/-- `while (end < limit && *end != 0)`. -/
def scanNul (limit : Nat) : Nat → Nat → Except Fault Nat
  | 0, _ => .error .unfinished
  | fuel + 1, cursor =>
      if cursor < limit then do
        let b ← byteAt data cursor
        if b ≠ 0 then scanNul limit fuel (cursor + 1) else .ok cursor
      else .ok cursor

/-- The loop of `read_smbios_string` over the strings before the one that is asked for. -/
def skipStrings (limit fuel : Nat) : Nat → Nat → Except Fault (Option Nat)
  | 0, cursor => .ok (some cursor)
  | n + 1, cursor => do
      let cursor ← scanNul data limit fuel cursor
      if limit ≤ cursor then .ok none
      else if cursor + 1 < limit then do
        let b ← byteAt data (cursor + 1)
        if b = 0 then .ok none else skipStrings limit fuel n (cursor + 1)
      else skipStrings limit fuel n (cursor + 1)

/-- `read_smbios_string`. -/
def readSmbiosString (fuel strings limit : Nat) (index : UInt8) : Except Fault Bytes :=
  if index = 0 ∨ limit ≤ strings then .ok []
  else do
    match ← skipStrings data limit fuel (index.toNat - 1) strings with
    | none => .ok []
    | some cursor => do
        let last ← scanNul data limit fuel cursor
        if last = cursor then .ok [] else slice data cursor last

/-- The scan for the double NUL. -/
def scanEnd : Nat → Nat → Except Fault Nat
  | 0, _ => .error .unfinished
  | fuel + 1, scan =>
      if scan + 1 < data.length then do
        let first ← byteAt data scan
        if first ≠ 0 then scanEnd fuel (scan + 1)
        else do
          let second ← byteAt data (scan + 1)
          if second ≠ 0 then scanEnd fuel (scan + 1) else .ok scan
      else .ok scan

/-- `formatted_byte`. -/
def formattedByte (formatted length offset : Nat) : Except Fault UInt8 :=
  if offset < length then byteAt data (formatted + offset) else .ok 0

/-- The serial of a structure. -/
def readSerial (fuel cursor length next : Nat) : Except Fault Bytes := do
  let index ← formattedByte data cursor length 7
  readSmbiosString data fuel (cursor + length) next index

/-- The loop of `parse_smbios`. -/
def walkSmbios : Nat → Nat → Serials Bytes → Except Fault (Serials Bytes)
  | 0, _, _ => .error .unfinished
  | fuel + 1, cursor, serials =>
      if cursor + 4 ≤ data.length then do
        let header ← slice data cursor (cursor + 4)
        let type := header.getD 0 0
        let length := (header.getD 1 0).toNat
        if length < 4 then .ok serials
        else if cursor + length > data.length then .ok serials
        else do
          let scan ← scanEnd data fuel (cursor + length)
          let next := if scan + 1 < data.length then scan + 2 else data.length
          if type = 1 then do
            let value ← readSerial data fuel cursor length next
            let serials := { serials with bios := assignIfUsable serials.bios value }
            if next ≤ cursor then .ok serials else walkSmbios fuel next serials
          else if type = 2 then do
            let value ← readSerial data fuel cursor length next
            let serials := { serials with motherboard := assignIfUsable serials.motherboard value }
            if next ≤ cursor then .ok serials else walkSmbios fuel next serials
          else if type = 127 then .ok serials
          else if next ≤ cursor then .ok serials
          else walkSmbios fuel next serials
      else .ok serials

/-- `parse_smbios`, on an empty fingerprint, with so many turns for each loop. -/
def parseSmbios (fuel : Nat) : Except Fault (Serials Bytes) := walkSmbios data fuel 0 ⟨[], []⟩

end Walk

/-! ## The loops -/

section Loops
variable {data : Bytes}

theorem scanNul_eq {fuel cursor : Nat} {area after : Bytes} (h : At data cursor (area ++ after))
    (hfuel : area.length < fuel) :
    scanNul data (cursor + area.length) fuel cursor =
      .ok (cursor + (area.takeWhile (· ≠ 0)).length) := by
  induction area generalizing fuel cursor with
  | nil =>
    obtain ⟨fuel, rfl⟩ := Nat.exists_eq_succ_of_ne_zero (Nat.ne_of_gt hfuel)
    rw [Nat.succ_eq_add_one, scanNul, if_neg (by simp)]
    rfl
  | cons b area ih =>
    obtain ⟨fuel, rfl⟩ := Nat.exists_eq_succ_of_ne_zero (Nat.ne_of_gt (Nat.zero_lt_of_lt hfuel))
    rw [List.length_cons] at hfuel ⊢
    rw [Nat.succ_eq_add_one, scanNul, if_pos (by omega), At.byteAt h]
    change (if b ≠ 0 then _ else _) = _
    by_cases hb : b = 0
    · rw [if_neg (not_not_intro hb), List.takeWhile_cons_of_neg (by simp [hb])]
      rfl
    · have hlimit : cursor + (area.length + 1) = cursor + 1 + area.length := by omega
      rw [if_pos hb, List.takeWhile_cons_of_pos (by simp [hb]), hlimit, ih (At.next h) (by omega),
        List.length_cons]
      congr 1
      omega

/-- The string at an offset, and what is left at the next NUL. -/
theorem At.string {cursor : Nat} {area after : Bytes} (h : At data cursor (area ++ after)) :
    At data (cursor + (area.takeWhile (· ≠ 0)).length) (area.dropWhile (· ≠ 0) ++ after) := by
  have hsplit : area.takeWhile (· ≠ 0) ++ area.dropWhile (· ≠ 0) = area :=
    List.takeWhile_append_dropWhile
  have hstart : At data cursor
      (area.takeWhile (· ≠ 0) ++ (area.dropWhile (· ≠ 0) ++ after)) := by
    rwa [← List.append_assoc, hsplit]
  exact hstart.append

theorem skipStrings_eq {fuel : Nat} (n : Nat) {cursor : Nat} {area after : Bytes}
    (h : At data cursor (area ++ after)) (hfuel : area.length < fuel) :
    skipStrings data (cursor + area.length) fuel n cursor =
      .ok ((Cpp.skipStrings n area).map fun rest => cursor + area.length - rest.length) := by
  induction n generalizing cursor area with
  | zero =>
    rw [skipStrings, Cpp.skipStrings, Option.map_some, Nat.add_sub_cancel]
  | succ n ih =>
    have hlength := congrArg List.length
      (List.takeWhile_append_dropWhile (p := (· ≠ 0)) (l := area))
    rw [List.length_append] at hlength
    have hstring := h.string
    rw [skipStrings, scanNul_eq h hfuel, Cpp.skipStrings]
    change (if _ then _ else _) = _
    cases htail : area.dropWhile (· ≠ 0) with
    | nil =>
      rw [htail, List.length_nil] at hlength
      rw [if_pos (by omega)]
      rfl
    | cons b rest =>
      rw [htail, List.length_cons] at hlength
      rw [htail, List.cons_append] at hstring
      rw [if_neg (by omega)]
      have hlimit : cursor + area.length =
          cursor + (area.takeWhile (· ≠ 0)).length + 1 + rest.length := by omega
      have hnext := ih hstring.next (by omega)
      rw [← hlimit] at hnext
      cases rest with
      | nil =>
        rw [if_neg (by simp at hlimit ⊢; omega), hnext]
        rfl
      | cons c rest =>
        rw [if_pos (by simp at hlimit ⊢; omega), hstring.next.byteAt]
        change (if c = 0 then _ else _) = _
        by_cases hc : c = 0
        · rw [if_pos hc, hc]
          rfl
        · rw [if_neg hc, hnext]
          have hhead : (c :: rest).head? ≠ some 0 := by simpa using hc
          dsimp only
          rw [if_neg hhead]

/-- What is left after the strings is the end of the area. -/
theorem skipStrings_suffix {n : Nat} {area rest : Bytes} (h : Cpp.skipStrings n area = some rest) :
    rest <:+ area := by
  induction n generalizing area with
  | zero =>
    obtain rfl := Option.some.inj h
    exact List.suffix_rfl
  | succ n ih =>
    rw [Cpp.skipStrings] at h
    split at h
    · cases h
    · rename_i b tail htail
      split at h
      · cases h
      · exact ((ih h).trans (List.suffix_cons b tail)).trans (htail ▸ List.dropWhile_suffix _)

theorem readSmbiosString_eq {fuel cursor : Nat} {area after : Bytes} (index : UInt8)
    (h : At data cursor (area ++ after)) (hfuel : area.length < fuel) :
    readSmbiosString data fuel cursor (cursor + area.length) index =
      .ok (Cpp.readSmbiosString area index) := by
  rw [readSmbiosString, Cpp.readSmbiosString]
  by_cases hnone : index = 0 ∨ area = []
  · rw [if_pos hnone, if_pos (hnone.imp_right fun hnil => by simp [hnil])]
  rw [if_neg hnone, if_neg fun hle => hnone (hle.imp_right fun hle =>
    List.length_eq_zero_iff.mp (by omega)), skipStrings_eq _ h hfuel]
  cases hskip : Cpp.skipStrings (index.toNat - 1) area with
  | none => rfl
  | some rest =>
    obtain ⟨front, rfl⟩ := skipStrings_suffix hskip
    rw [List.append_assoc] at h
    rw [List.length_append] at hfuel
    have hcursor : cursor + (front ++ rest).length - rest.length = cursor + front.length := by
      rw [List.length_append]
      omega
    have hlimit : cursor + (front ++ rest).length = cursor + front.length + rest.length := by
      rw [List.length_append]
      omega
    have hrest := h.append
    have hscan := @scanNul_eq data fuel _ _ _ hrest (by omega)
    rw [Option.map_some, hcursor, hlimit]
    change (scanNul data (cursor + front.length + rest.length) fuel (cursor + front.length) >>=
      fun last => if last = cursor + front.length then .ok [] else
        slice data (cursor + front.length) last) = .ok (rest.takeWhile (· ≠ 0))
    rw [hscan]
    change (if _ then _ else _) = _
    by_cases hempty : rest.takeWhile (· ≠ 0) = []
    · rw [hempty]
      exact if_pos rfl
    · have hpos := List.length_pos_iff.mpr hempty
      have hsplit : rest.takeWhile (· ≠ 0) ++ (rest.dropWhile (· ≠ 0) ++ after) =
          rest ++ after := by
        rw [← List.append_assoc, List.takeWhile_append_dropWhile]
      rw [if_neg (by omega)]
      rw [← hsplit] at hrest
      exact hrest.slice

/-- Where the strings end. -/
theorem scanEnd_eq {fuel scan : Nat} {area : Bytes} (h : At data scan area)
    (hfuel : area.length < fuel) :
    ∃ last, scanEnd data fuel scan = .ok last ∧
      (if last + 1 < data.length then last + 2 else data.length) =
        scan + (findSmbiosEnd area).getD area.length := by
  induction area generalizing fuel scan with
  | nil =>
    obtain ⟨fuel, rfl⟩ := Nat.exists_eq_succ_of_ne_zero (Nat.ne_of_gt hfuel)
    have hend := h.length
    rw [List.length_nil] at hend
    refine ⟨scan, ?_, ?_⟩
    · rw [Nat.succ_eq_add_one, scanEnd, if_neg (by omega)]
    · rw [if_neg (by omega)]
      exact hend.symm
  | cons a area ih =>
    obtain ⟨fuel, rfl⟩ := Nat.exists_eq_succ_of_ne_zero (Nat.ne_of_gt (Nat.zero_lt_of_lt hfuel))
    have hend := h.length
    rw [List.length_cons] at hfuel hend
    cases area with
    | nil =>
      rw [List.length_nil] at hend
      refine ⟨scan, ?_, ?_⟩
      · rw [Nat.succ_eq_add_one, scanEnd, if_neg (by omega)]
      · rw [if_neg (by omega)]
        exact hend.symm
    | cons b area =>
      rw [List.length_cons] at hend
      obtain ⟨last, hlast, hnext⟩ := @ih fuel (scan + 1) h.next (by omega)
      rw [Nat.succ_eq_add_one, scanEnd, if_pos (by omega), h.byteAt]
      by_cases hdouble : a = 0 ∧ b = 0
      · refine ⟨scan, ?_, ?_⟩
        · obtain ⟨rfl, rfl⟩ := hdouble
          change (do let second ← byteAt data (scan + 1); _) = _
          rw [h.next.byteAt]
          rfl
        · rw [if_pos (by omega), findSmbiosEnd, if_pos hdouble]
          rfl
      · refine ⟨last, ?_, ?_⟩
        · change (if a ≠ 0 then _ else _) = _
          by_cases ha : a = 0
          · have hb : b ≠ 0 := fun hb => hdouble ⟨ha, hb⟩
            rw [if_neg (not_not_intro ha), h.next.byteAt]
            exact (if_pos hb).trans hlast
          · rw [if_pos ha, hlast]
        · rw [hnext, findSmbiosEnd, if_neg hdouble]
          cases findSmbiosEnd (b :: area) with
          | none => simp; omega
          | some n => simp; omega

theorem At.forward {cursor n : Nat} {rest : Bytes} (h : At data cursor rest)
    (hn : n ≤ rest.length) : At data (cursor + n) (rest.drop n) := by
  rw [← List.take_append_drop n rest] at h
  have hdrop := h.append
  rwa [List.length_take, Nat.min_eq_left hn] at hdrop

theorem At.byte {cursor i : Nat} {rest : Bytes} (h : At data cursor rest) (hi : i < rest.length) :
    Offsets.byteAt data (cursor + i) = .ok (rest.getD i 0) := by
  have hget : data[cursor + i]? = rest[i]? := by rw [← h.drop, List.getElem?_drop]
  rw [Offsets.byteAt, hget, List.getElem?_eq_getElem hi, List.getD_eq_getElem?_getD,
    List.getElem?_eq_getElem hi]
  rfl

theorem readSerial_eq {fuel cursor length n : Nat} {rest : Bytes} (h : At data cursor rest)
    (hfuel : rest.length < fuel + length) (hlength : length ≤ rest.length)
    (hn : n ≤ (rest.drop length).length) :
    readSerial data fuel cursor length (cursor + length + n) =
      .ok (Cpp.readSmbiosString ((rest.drop length).take n)
        (if 7 < length then rest.getD 7 0 else 0)) := by
  have hindex : formattedByte data cursor length 7 =
      .ok (if 7 < length then rest.getD 7 0 else 0) := by
    rw [formattedByte]
    by_cases hlong : 7 < length
    · rw [if_pos hlong, if_pos hlong, h.byte (by omega)]
    · rw [if_neg hlong, if_neg hlong]
  have hstrings := h.forward hlength
  rw [← List.take_append_drop n (rest.drop length)] at hstrings
  rw [List.length_drop] at hn
  have harea : ((rest.drop length).take n).length = n := by
    rw [List.length_take, List.length_drop]
    omega
  have hread := @readSmbiosString_eq data fuel _ _ _ (if 7 < length then rest.getD 7 0 else 0)
    hstrings (by omega)
  rw [harea] at hread
  rw [readSerial, hindex]
  exact hread

theorem walkSmbios_short {turns : Nat} {rest : Bytes} (h : rest.length < 4)
    (serials : Serials Bytes) : Cpp.walkSmbios turns rest serials = serials := by
  cases turns with
  | zero => rfl
  | succ turns =>
    cases rest with
    | nil => rfl
    | cons type rest =>
      cases rest with
      | nil => rfl
      | cons length rest =>
        rw [Cpp.walkSmbios]
        exact if_pos (.inl h)

/-- A round of the walk over what is left. -/
theorem walkSmbios_round {turns : Nat} {rest : Bytes} {type size : UInt8}
    (h : rest = type :: size :: rest.drop 2) (serials : Serials Bytes) :
    Cpp.walkSmbios (turns + 1) rest serials =
      if rest.length < 4 ∨ size.toNat < 4 ∨ rest.length < size.toNat then serials
      else if type = 127 then serials
      else
        let strings := rest.drop size.toNat
        let next := (findSmbiosEnd strings).getD strings.length
        Cpp.walkSmbios turns (strings.drop next) (serials.offer assignIfUsable
          (type, Cpp.readSmbiosString (strings.take next)
            (if 7 < size.toNat then rest.getD 7 0 else 0))) := by
  rw [h]
  rfl

/-- **The walk over offsets is the walk over what is left**, and no read is outside the buffer. -/
theorem walkSmbios_eq {fuel turns cursor : Nat} {rest : Bytes} (h : At data cursor rest)
    (hfuel : rest.length < fuel) (hturns : rest.length ≤ turns) (serials : Serials Bytes) :
    walkSmbios data fuel cursor serials = .ok (Cpp.walkSmbios turns rest serials) := by
  induction fuel generalizing turns cursor rest serials with
  | zero => exact absurd hfuel (Nat.not_lt_zero _)
  | succ fuel ih =>
    have hend := h.length
    rw [walkSmbios]
    by_cases hshort : rest.length < 4
    · rw [if_neg (by omega), walkSmbios_short hshort]
    rw [if_pos (by omega)]
    obtain ⟨turns, rfl⟩ : ∃ n, turns = n + 1 := ⟨turns - 1, by omega⟩
    obtain ⟨type, size, hcons⟩ : ∃ type size, rest = type :: size :: rest.drop 2 := by
      obtain ⟨type, tail, rfl⟩ := List.exists_cons_of_length_pos (l := rest) (by omega)
      rw [List.length_cons] at hshort
      obtain ⟨size, tail, rfl⟩ := List.exists_cons_of_length_pos (l := tail) (by omega)
      exact ⟨type, size, rfl⟩
    have hheader : slice data cursor (cursor + 4) = .ok (rest.take 4) := by
      have htake := h
      rw [← List.take_append_drop 4 rest] at htake
      have hslice := htake.slice
      rwa [List.length_take, Nat.min_eq_left (by omega)] at hslice
    have htype : (rest.take 4).getD 0 0 = type := by
      rw [hcons]
      rfl
    have hsize : (rest.take 4).getD 1 0 = size := by
      rw [hcons]
      rfl
    have hround := @walkSmbios_round turns _ _ _ hcons serials
    rw [hheader]
    change (if ((rest.take 4).getD 1 0).toNat < 4 then _ else _) = _
    rw [hsize, hround]
    by_cases hformatted : size.toNat < 4
    · rw [if_pos hformatted, if_pos (.inr (.inl hformatted))]
    rw [if_neg hformatted]
    by_cases hlong : rest.length < size.toNat
    · rw [if_pos (by omega), if_pos (.inr (.inr hlong))]
    rw [if_neg (by omega), if_neg (by omega)]
    -- the strings, and where they end
    have hstrings : At data (cursor + size.toNat) (rest.drop size.toNat) := h.forward (by omega)
    have hdropped : (rest.drop size.toNat).length = rest.length - size.toNat := List.length_drop
    obtain ⟨last, hlast, hnext⟩ := @scanEnd_eq data fuel _ _ hstrings (by omega)
    have hle : (findSmbiosEnd (rest.drop size.toNat)).getD (rest.drop size.toNat).length ≤
        (rest.drop size.toNat).length := by
      cases hfind : findSmbiosEnd (rest.drop size.toNat) with
      | none => exact Nat.le_refl _
      | some n => exact findSmbiosEnd_le hfind
    generalize hn : (findSmbiosEnd (rest.drop size.toNat)).getD (rest.drop size.toNat).length = n
      at hnext hle
    have hserial := @readSerial_eq data fuel cursor size.toNat n rest h (by omega) (by omega) hle
    have hafter := hstrings.forward hle
    have hrest : ((rest.drop size.toNat).drop n).length ≤ rest.length - 4 := by
      rw [List.length_drop]
      omega
    have hwalk := fun serials => @ih turns _ _ hafter (by omega) (by omega) serials
    rw [hlast]
    change (if (rest.take 4).getD 0 0 = 1 then _ else _) = _
    rw [htype, hnext]
    dsimp only
    rw [hn]
    have hforward : ¬ cursor + size.toNat + n ≤ cursor := by omega
    by_cases hone : type = 1
    · have hlive : ¬ type = 127 := by
        rw [hone]
        decide
      rw [if_pos hone, if_neg hlive, hserial]
      change (if cursor + size.toNat + n ≤ cursor then _ else _) = _
      rw [if_neg hforward, hwalk, Serials.offer, if_pos hone]
    · rw [if_neg hone]
      by_cases htwo : type = 2
      · have hlive : ¬ type = 127 := by
          rw [htwo]
          decide
        rw [if_pos htwo, if_neg hlive, hserial]
        change (if cursor + size.toNat + n ≤ cursor then _ else _) = _
        rw [if_neg hforward, hwalk, Serials.offer, if_neg hone, if_pos htwo]
      · rw [if_neg htwo]
        by_cases hlast : type = 127
        · rw [if_pos hlast, if_pos hlast]
        · rw [if_neg hlast, if_neg hlast, if_neg hforward, hwalk, Serials.offer, if_neg hone,
            if_neg htwo]

/-- On every buffer the walk ends, and reads inside it. -/
theorem parseSmbios_eq {fuel : Nat} (hfuel : data.length < fuel) :
    parseSmbios data fuel = .ok (Cpp.parseSmbios data) :=
  walkSmbios_eq (At.start data) hfuel (Nat.le_refl _) _

end Loops

end Offsets

/-! ## The serials of a well-formed table -/

/-- What is looked at of a serial. -/
def shownSerial (value : Bytes) : Bytes := (trimAscii value).take 128

/-- The first usable serial among the structures of a type before the first of type 127. -/
def firstSerial (type : UInt8) (structures : List FirmwareStructure) : Bytes :=
  ((((structures.takeWhile (·.type ≠ 127)).filter (·.type = type)).map fun s =>
    shownSerial s.serial).find? fun value => ¬ isPlaceholder value).getD []

theorem assignIfUsable_eq (target value : Bytes) : assignIfUsable target value =
    if target ≠ [] then target
    else if isPlaceholder (shownSerial value) then [] else shownSerial value := by
  rw [assignIfUsable]
  by_cases htarget : target = []
  · rw [htarget]
    rfl
  · rw [if_pos htarget, if_pos htarget]

/-- A serial that is not empty is never replaced. -/
theorem foldl_assign (type : UInt8) (structures : List FirmwareStructure) (target : Bytes) :
    (structures.map fun s => (s.type, s.serial)).foldl
        (fun serial record => if record.1 = type then assignIfUsable serial record.2 else serial)
        target =
      if target ≠ [] then target
      else (((structures.filter (·.type = type)).map fun s => shownSerial s.serial).find?
        fun value => ¬ isPlaceholder value).getD [] := by
  induction structures generalizing target with
  | nil => by_cases htarget : target = [] <;> simp [htarget]
  | cons s structures ih =>
    rw [List.map_cons, List.foldl_cons]
    dsimp only
    by_cases htype : s.type = type
    · rw [if_pos htype, ih, List.filter_cons_of_pos (by simpa using htype), List.map_cons,
        assignIfUsable_eq]
      by_cases htarget : target = []
      · rw [if_neg (not_not_intro htarget), if_neg (not_not_intro htarget)]
        by_cases hplaceholder : isPlaceholder (shownSerial s.serial) = true
        · rw [if_pos hplaceholder, if_neg (not_not_intro rfl),
            List.find?_cons_of_neg (by simpa using hplaceholder)]
        · have hne : shownSerial s.serial ≠ [] := by
            intro hnil
            rw [hnil] at hplaceholder
            exact hplaceholder rfl
          rw [if_neg hplaceholder, if_pos hne,
            List.find?_cons_of_pos (by simpa using hplaceholder)]
          rfl
      · rw [if_pos htarget, if_pos htarget, if_pos htarget]
    · rw [if_neg htype, ih, List.filter_cons_of_neg (by simpa using htype)]

theorem collect_eq_firstSerial (type : UInt8) (structures : List FirmwareStructure) :
    collect assignIfUsable type
        ((structures.takeWhile (·.type ≠ 127)).map fun s => (s.type, s.serial)) =
      firstSerial type structures := by
  rw [collect, foldl_assign, if_neg (not_not_intro rfl)]
  rfl

theorem length_lt_encoded {structures : List FirmwareStructure} (hne : structures ≠ []) :
    structures.length < (structures.flatMap FirmwareStructure.encode).length := by
  have hsize : ∀ s : FirmwareStructure, 2 ≤ s.encode.length := by
    intro s
    simp only [FirmwareStructure.encode, FirmwareStructure.header, List.length_append,
      List.length_cons]
    omega
  induction structures with
  | nil => exact absurd rfl hne
  | cons s structures ih =>
    have hs := hsize s
    rw [List.flatMap_cons, List.length_append, List.length_cons]
    cases structures with
    | nil =>
      simp only [List.length_nil]
      omega
    | cons t structures =>
      have hlater := ih (List.cons_ne_nil t structures)
      omega

/-- **What `parse_smbios` finds.**  On a well-formed table, which anything may follow behind a
structure of type 127, it finds the first usable serial of either type; and on every buffer it ends
and reads inside the buffer. -/
theorem parseSmbios_correct :
    (∀ (structures : List FirmwareStructure) (rest : Bytes),
      (∃ s ∈ structures, s.type = 127) ∨ rest = [] →
      ∀ fuel > (structures.flatMap FirmwareStructure.encode ++ rest).length,
        Offsets.parseSmbios (structures.flatMap FirmwareStructure.encode ++ rest) fuel =
          .ok ⟨firstSerial 2 structures, firstSerial 1 structures⟩) ∧
    ∀ (data : Bytes) (fuel : Nat), data.length < fuel →
      ∃ serials, Offsets.parseSmbios data fuel = .ok serials := by
  refine ⟨fun structures rest hrest fuel hfuel => ?_, fun data fuel hfuel =>
    ⟨_, Offsets.parseSmbios_eq hfuel⟩⟩
  rw [Offsets.parseSmbios_eq hfuel, Cpp.parseSmbios]
  by_cases hempty : structures = []
  · have hnil : rest = [] := by
      refine hrest.resolve_left ?_
      rintro ⟨s, hs, -⟩
      rw [hempty] at hs
      cases hs
    rw [hempty, hnil]
    rfl
  · have hstop : (∃ s ∈ structures, s.type = 127) ∨
        ∀ fuel serials, Cpp.walkSmbios (fuel + 1) rest serials = serials := by
      refine hrest.imp_right ?_
      rintro rfl fuel serials
      rfl
    have hlength := length_lt_encoded hempty
    rw [FirmwareStructure.walkSmbios_structures structures hstop
      (by rw [List.length_append]; omega), foldl_offer, collect_eq_firstSerial,
      collect_eq_firstSerial]

theorem strings_valid_of_all {strings : List Bytes}
    (h : (strings.all fun s => s ≠ [] && s.all (· ≠ 0)) = true) :
    ∀ s ∈ strings, s ≠ [] ∧ ∀ b ∈ s, b ≠ 0 := by
  simpa using h

/-- A table with two boards and no end. -/
def boardTable : List FirmwareStructure :=
  [⟨2, (0, 0), [0, 0, 0, 1, 0], [ascii "None"], by decide, strings_valid_of_all rfl⟩,
    ⟨2, (1, 0), [0, 0, 0, 2], [ascii "Board", ascii " MB-7 "], by decide,
      strings_valid_of_all rfl⟩]

/-- The serial of the first board is a placeholder. -/
theorem parseSmbios_correct_boards :
    Offsets.parseSmbios (boardTable.flatMap FirmwareStructure.encode) 64 =
      .ok ⟨ascii "MB-7", []⟩ := by
  have hparse := parseSmbios_correct.1 boardTable [] (.inr rfl) 64 (by decide)
  rw [List.append_nil] at hparse
  rw [hparse]
  decide

end Cpp
end SwmSdk
