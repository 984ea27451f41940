import SwmSdk.Smbios

/-! # The records that the ports misread

After a structure the Go, C# and Rust walkers go on at the last bytes of the table, as many as the
string set of the structure has.  What stands there need not be a structure of the table; its first
string may even be empty.  `Misread` says which records are read of some bytes, and a walk offers
them in that order (`Misread.walk_eq`), those of a table after its first structure
(`Table.walk_bytes`).
-/
namespace SwmSdk.Smbios
open ByteText

/-- A structure as it is found anywhere in some bytes: its first string may be empty. -/
structure Found where
  type : UInt8
  /-- The byte that counts the formatted area. -/
  length : UInt8
  handle : UInt8 × UInt8
  /-- The formatted area after type, length and handle. -/
  body : Bytes
  first : Bytes
  others : List Bytes
  counts : length.toNat = body.length + 4
  first_valid : ∀ b ∈ first, b ≠ 0
  others_valid : ∀ s ∈ others, s ≠ [] ∧ ∀ b ∈ s, b ≠ 0

namespace Found

/-- The strings of a found structure, with the NUL after them. -/
def stringArea (found : Found) : Bytes := laterStrings (found.first :: found.others)

/-- The bytes that the walk takes for a structure. -/
def encode (found : Found) : Bytes :=
  found.type :: found.length :: found.handle.1 :: found.handle.2 ::
    (found.body ++ found.stringArea)

/-- The string that byte 7 of the formatted area counts from one. -/
def serial (found : Found) : Bytes :=
  match found.body[3]? with
  | none => []
  | some index =>
      if index = 0 then [] else (found.first :: found.others)[index.toNat - 1]?.getD []

/-- What an SDK takes of a structure. -/
def record (found : Found) : UInt8 × Bytes := (found.type, found.serial)

end Found

/-- The last bytes of some bytes. -/
def lastBytes (n : Nat) (data : Bytes) : Bytes := data.drop (data.length - n)

/-- **The records that are read of some bytes**: the structure at their start, and after it those of
the last bytes, as many as the strings of the structure have. -/
inductive Misread : Bytes → List (UInt8 × Bytes) → Prop where
  | none {data : Bytes} (h : ∀ found : Found, ¬ found.encode <+: data) : Misread data []
  | ending (found : Found) (rest : Bytes) (h : found.type = 127) :
      Misread (found.encode ++ rest) []
  /-- The structure takes all of the bytes. -/
  | last (found : Found) (h : found.type ≠ 127) : Misread found.encode [found.record]
  | next (found : Found) {rest : Bytes} {records : List (UInt8 × Bytes)} (h : found.type ≠ 127)
      (hrest : rest ≠ [])
      (hlater : Misread (lastBytes found.stringArea.length (found.encode ++ rest)) records) :
      Misread (found.encode ++ rest) (found.record :: records)

/-! ## Reading a record -/

/-- **The strings before a double NUL**, of which the first may be empty. -/
theorem strings_of_findSmbiosEnd {area : Bytes} {next : Nat} (h : findSmbiosEnd area = some next) :
    ∃ first others, (∀ b ∈ first, b ≠ 0) ∧ (∀ s ∈ others, s ≠ [] ∧ ∀ b ∈ s, b ≠ 0) ∧
      area.take next = laterStrings (first :: others) := by
  induction area generalizing next with
  | nil => cases h
  | cons a rest ih =>
    cases rest with
    | nil => cases h
    | cons b rest =>
      rw [findSmbiosEnd] at h
      split at h
      · rename_i hend
        obtain ⟨rfl, rfl⟩ := hend
        obtain rfl := Option.some.inj h
        exact ⟨[], [], by simp, by simp, rfl⟩
      · rename_i hnot
        obtain ⟨n, hn, rfl⟩ := Option.map_eq_some_iff.mp h
        obtain ⟨first, others, hfirst, hothers, htake⟩ := ih hn
        rw [List.take_succ_cons, htake]
        by_cases hzero : a = 0
        · -- an empty string comes first, and the next one is not empty
          subst hzero
          refine ⟨[], first :: others, by simp, ?_, rfl⟩
          have hne : first ≠ [] := by
            rintro rfl
            have hn : n ≠ 0 := by
              rintro rfl
              simp [laterStrings] at htake
            obtain ⟨m, rfl⟩ := Nat.exists_eq_succ_of_ne_zero hn
            rw [List.take_succ_cons, laterStrings_cons] at htake
            exact hnot ⟨rfl, (List.cons.inj htake).1⟩
          exact List.forall_mem_cons.mpr ⟨⟨hne, hfirst⟩, hothers⟩
        · exact ⟨a :: first, others, List.forall_mem_cons.mpr ⟨hzero, hfirst⟩, hothers, rfl⟩

namespace Found
variable (found : Found)

theorem strings_valid : ∀ s ∈ found.first :: found.others, ∀ b ∈ s, b ≠ 0 :=
  List.forall_mem_cons.mpr ⟨found.first_valid, fun s hs => (found.others_valid s hs).2⟩

theorem findSmbiosEnd_stringArea (rest : Bytes) :
    findSmbiosEnd (found.stringArea ++ rest) = some found.stringArea.length := by
  rw [stringArea, laterStrings_cons, List.append_assoc, findSmbiosEnd_append found.first_valid,
    findSmbiosEnd_later found.others_valid]
  simp only [Option.map_some, List.length_append, List.length_cons]
  congr 1
  omega

/-- The byte that names the string of the serial. -/
def serialIndex : UInt8 := found.body.getD 3 0

theorem readString_stringArea : readString found.stringArea found.serialIndex = found.serial := by
  have hserial : found.serial = if found.serialIndex = 0 then []
      else (found.first :: found.others)[found.serialIndex.toNat - 1]?.getD [] := by
    unfold serial serialIndex
    rw [List.getD_eq_getElem?_getD]
    cases found.body[3]? with
    | none => rfl
    | some index => rfl
  rw [hserial, readString]
  by_cases hzero : found.serialIndex = 0
  · rw [if_pos hzero, if_pos hzero]
  · rw [if_neg hzero, if_neg hzero, ← port_skipStrings found.strings_valid, stringArea]
    cases skipStrings (found.serialIndex.toNat - 1)
      (laterStrings (found.first :: found.others)) with
    | none => rfl
    | some rest => rfl

theorem length_encode : found.encode.length = found.length.toNat + found.stringArea.length := by
  rw [found.counts]
  simp only [encode, List.length_cons, List.length_append]
  omega

/-- **What is read at the start of a found structure.** -/
theorem readRecord_encode (rest : Bytes) : readRecord (found.encode ++ rest) =
    some (found.record, found.length.toNat, found.stringArea.length) := by
  have hlength : (found.encode ++ rest).length =
      found.length.toNat + found.stringArea.length + rest.length := by
    rw [List.length_append, length_encode]
  have hcounts := found.counts
  have hdrop : (found.encode ++ rest).drop found.length.toNat = found.stringArea ++ rest := by
    rw [hcounts, encode, List.cons_append, List.cons_append, List.cons_append, List.cons_append,
      List.drop_succ_cons, List.drop_succ_cons, List.drop_succ_cons, List.drop_succ_cons,
      List.append_assoc]
    exact List.drop_left
  have hindex : (if 7 < found.length.toNat then (found.encode ++ rest).getD 7 0 else 0) =
      found.serialIndex := by
    have hget : (found.encode ++ rest).getD 7 0 =
        (found.body ++ (found.stringArea ++ rest)).getD 3 0 := by
      simp [encode]
    unfold serialIndex
    by_cases hlong : 7 < found.length.toNat
    · rw [if_pos hlong, hget, List.getD_eq_getElem?_getD, List.getD_eq_getElem?_getD,
        List.getElem?_append_left (by omega)]
    · rw [if_neg hlong, List.getD_eq_getElem?_getD, List.getElem?_eq_none (by omega)]
      rfl
  have hlong : ¬ ((found.encode ++ rest).length < 4 ∨ found.length.toNat < 4 ∨
      (found.encode ++ rest).length < found.length.toNat) := by omega
  have hcons : found.encode ++ rest = found.type :: found.length :: (found.handle.1 ::
      found.handle.2 :: (found.body ++ found.stringArea ++ rest)) := rfl
  rw [hcons] at hlong hdrop hindex ⊢
  rw [readRecord]
  dsimp only
  rw [if_neg hlong, hdrop, found.findSmbiosEnd_stringArea, hindex]
  dsimp only
  rw [List.take_left, readString_stringArea]
  rfl

end Found

/-- **A record is read where a structure is found.** -/
theorem found_of_readRecord {data : Bytes} {read : (UInt8 × Bytes) × Nat × Nat}
    (h : readRecord data = some read) : ∃ found : Found, found.encode <+: data := by
  rcases data with _ | ⟨type, _ | ⟨length, rest⟩⟩
  · cases h
  · cases h
  rw [readRecord] at h
  dsimp only at h
  split at h
  · cases h
  rename_i hlong
  split at h
  · cases h
  rename_i next hend
  obtain ⟨first, others, hfirst, hothers, htake⟩ := strings_of_findSmbiosEnd hend
  obtain ⟨handle, handle', rest, rfl⟩ : ∃ a b more, rest = a :: b :: more := by
    rcases rest with _ | ⟨a, _ | ⟨b, more⟩⟩
    · simp at hlong
    · simp at hlong
    · exact ⟨a, b, more, rfl⟩
  obtain ⟨n, hn⟩ : ∃ n, length.toNat = n + 4 := ⟨length.toNat - 4, by omega⟩
  have hbody : n ≤ rest.length := by
    simp only [List.length_cons] at hlong
    omega
  have hcounts : length.toNat = (rest.take n).length + 4 := by
    rw [hn, List.length_take, Nat.min_eq_left hbody]
  refine ⟨⟨type, length, (handle, handle'), rest.take n, first, others, hcounts, hfirst, hothers⟩,
    (rest.drop n).drop next, ?_⟩
  rw [hn] at htake
  simp only [List.drop_succ_cons] at htake
  simp only [Found.encode, Found.stringArea, ← htake, List.cons_append, List.append_assoc]
  rw [List.take_append_drop, List.take_append_drop]

theorem readRecord_eq_none {data : Bytes} (h : ∀ found : Found, ¬ found.encode <+: data) :
    readRecord data = none := by
  cases hread : readRecord data with
  | none => rfl
  | some read =>
    obtain ⟨found, hfound⟩ := found_of_readRecord hread
    exact absurd hfound (h found)

/-! ## The walk -/

theorem length_lastBytes_lt (found : Found) (rest : Bytes) :
    (lastBytes found.stringArea.length (found.encode ++ rest)).length <
      (found.encode ++ rest).length := by
  have hcounts := found.counts
  rw [lastBytes, List.length_drop, List.length_append, found.length_encode]
  omega

/-- **A walk offers the records that are read.** -/
theorem Misread.walk_eq {Text : Type} {data : Bytes} {records : List (UInt8 × Bytes)}
    (h : Misread data records) (assign : Text → Bytes → Text) {fuel : Nat}
    (hfuel : data.length ≤ fuel) (serials : Serials Text) :
    walk assign fuel data serials = records.foldl (Serials.offer assign) serials := by
  induction h generalizing fuel serials with
  | none h =>
    cases fuel with
    | zero => rfl
    | succ fuel => rw [walk, readRecord_eq_none h, List.foldl_nil]
  | ending found rest h =>
    cases fuel with
    | zero => rfl
    | succ fuel =>
      rw [walk, found.readRecord_encode]
      exact if_pos h
  | last found h =>
    have hread := found.readRecord_encode []
    have hlength := found.length_encode
    have hcounts := found.counts
    rw [List.append_nil] at hread
    obtain ⟨fuel, rfl⟩ := Nat.exists_eq_succ_of_ne_zero (n := fuel) (by omega)
    have hover : found.encode.length - found.length.toNat - found.stringArea.length = 0 := by omega
    rw [walk, hread]
    dsimp only
    rw [if_neg (show ¬ found.record.1 = 127 from h), if_pos hover]
    rfl
  | next found h hrest hlater ih =>
    rename_i rest records
    have hlength := found.length_encode
    have hcounts := found.counts
    have hmore : 0 < rest.length := List.length_pos_iff.mpr hrest
    have hshorter := length_lastBytes_lt found rest
    obtain ⟨fuel, rfl⟩ := Nat.exists_eq_succ_of_ne_zero (n := fuel) (by
      rw [List.length_append] at hfuel
      omega)
    have hjump : (found.encode ++ rest).drop (found.length.toNat +
        ((found.encode ++ rest).length - found.length.toNat - found.stringArea.length)) =
          lastBytes found.stringArea.length (found.encode ++ rest) := by
      refine congrArg (List.drop · _) ?_
      rw [List.length_append]
      omega
    rw [walk, found.readRecord_encode]
    dsimp only
    rw [if_neg (show ¬ found.record.1 = 127 from h), if_neg (by rw [List.length_append]; omega),
      hjump, ih (by omega), List.foldl_cons]

/-- Every walk reads some records. -/
theorem exists_misread (data : Bytes) : ∃ records, Misread data records := by
  induction hn : data.length using Nat.strong_induction_on generalizing data with
  | _ n ih =>
    subst hn
    by_cases hfound : ∃ found : Found, found.encode <+: data
    · obtain ⟨found, rest, rfl⟩ := hfound
      by_cases hlast : found.type = 127
      · exact ⟨[], .ending found rest hlast⟩
      · by_cases hrest : rest = []
        · subst hrest
          rw [List.append_nil]
          exact ⟨_, .last found hlast⟩
        · obtain ⟨records, hrecords⟩ := ih _ (length_lastBytes_lt found rest) _ rfl
          exact ⟨_, .next found hlast hrest hrecords⟩
    · exact ⟨[], .none fun found h => hfound ⟨found, h⟩⟩

/-! ## A table -/

namespace Table
variable (table : Table)

/-- The last bytes of the table, as many as the strings of a structure have. -/
def tail (s : Structure) : Bytes := lastBytes (stringSet s.strings).length table.bytes

/-- A table that ends at once has no records. -/
theorem walk_ended (hlive : table.live = []) {Text : Type} (assign : Text → Bytes → Text)
    (serials : Serials Text) : walk assign table.bytes.length table.bytes serials = serials := by
  obtain ⟨s, rest, hbytes, hlast⟩ : ∃ (s : Structure) (rest : Bytes),
      table.bytes = s.encode ++ rest ∧ s.type = 127 := by
    rcases hstructures : table.structures with _ | ⟨s, structures⟩
    · exact ⟨table.ending, [], by simp [bytes, hstructures], table.ends⟩
    · refine ⟨s, (structures ++ [table.ending]).flatMap Structure.encode, ?_, ?_⟩
      · simp [bytes, hstructures]
      · by_contra hnot
        simp [live, hstructures, hnot] at hlive
  cases hlength : table.bytes.length with
  | zero => rfl
  | succ fuel =>
    rw [hbytes, walk, s.readRecord_encode]
    exact if_pos hlast

/-- **The ports read the first structure, and then what the last bytes of the table hold.** -/
theorem walk_bytes {first : Structure} {others : List Structure}
    (hlive : table.live = first :: others) {misread : List (UInt8 × Bytes)}
    (hmisread : Misread (table.tail first) misread) {Text : Type} (assign : Text → Bytes → Text)
    (serials : Serials Text) : walk assign table.bytes.length table.bytes serials =
      ((first.type, first.serial) :: misread).foldl (Serials.offer assign) serials := by
  obtain ⟨structures, hstructures⟩ : ∃ structures, table.structures = first :: structures := by
    rcases hcases : table.structures with _ | ⟨s, structures⟩
    · simp [live, hcases] at hlive
    · by_cases hlast : s.type = 127
      · simp [live, hcases, hlast] at hlive
      · simp only [live, hcases, List.takeWhile_cons, hlast, ne_eq, not_false_eq_true, decide_true,
          if_true, List.cons.injEq] at hlive
        exact ⟨structures, by rw [hlive.1]⟩
  have hlast : first.type ≠ 127 := by
    have hmem : first ∈ table.structures.takeWhile (·.type ≠ 127) := by
      show first ∈ table.live
      rw [hlive]
      exact List.mem_cons_self ..
    simpa using List.mem_takeWhile_imp hmem
  obtain ⟨rest, hbytes, hrest⟩ : ∃ rest, table.bytes = first.encode ++ rest ∧ rest ≠ [] := by
    refine ⟨(structures ++ [table.ending]).flatMap Structure.encode, ?_, ?_⟩
    · simp [bytes, hstructures]
    · simp [Structure.encode, Structure.header]
  have hlength : table.bytes.length =
      first.body.length + 4 + (stringSet first.strings).length + rest.length := by
    rw [hbytes, List.length_append, Structure.encode, List.length_append, first.formatted_length]
  have hmore : 0 < rest.length := List.length_pos_iff.mpr hrest
  have hjump : table.bytes.drop (first.body.length + 4 +
      (table.bytes.length - (first.body.length + 4) - (stringSet first.strings).length)) =
        table.tail first := by
    refine congrArg (List.drop · _) ?_
    omega
  have hread : readRecord table.bytes = some ((first.type, first.serial), first.body.length + 4,
      (stringSet first.strings).length) := by
    rw [hbytes]
    exact first.readRecord_encode rest
  have hover : ¬ table.bytes.length - (first.body.length + 4) -
      (stringSet first.strings).length = 0 := by omega
  obtain ⟨fuel, hfuel⟩ := Nat.exists_eq_add_one_of_ne_zero (show table.bytes.length ≠ 0 by omega)
  have htail : (table.tail first).length ≤ fuel := by
    rw [tail, lastBytes, List.length_drop]
    omega
  rw [hfuel, walk, hread]
  dsimp only
  rw [if_neg hlast, if_neg hover, hjump, hmisread.walk_eq assign htail]
  rfl

end Table

end SwmSdk.Smbios
