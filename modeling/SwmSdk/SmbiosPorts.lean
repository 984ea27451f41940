import SwmSdk.SmbiosMisread

/-! # One table, four SDKs

The rules by which the SDKs take a serial, compared on ASCII: Go and C# take what C++
takes; Rust looks for placeholders before it cuts a serial to 128 characters, and so takes
serials that C++ does not.  With `collect_agree_iff` this says when the four answers to a
table are one (`smbios_agree_iff`): when the misread records do not have the usable serials that
the structures after the first lack, nor lack those that they have.
-/
namespace SwmSdk
namespace Smbios
open ByteText

/-- The text that C++ tests for being a placeholder. -/
def trimmed (raw : Bytes) : Bytes := (Cpp.trimAscii raw).take 128

theorem assignIfUsable_nil (raw : Bytes) : Cpp.assignIfUsable [] raw =
    if Cpp.isPlaceholder (trimmed raw) then [] else trimmed raw := by
  rw [Cpp.assignIfUsable, if_neg (by simp)]
  rfl

theorem usable_iff {raw : Bytes} : Cpp.assignIfUsable [] raw ≠ [] ↔
    Cpp.isPlaceholder (trimmed raw) = false := by
  rw [assignIfUsable_nil]
  cases hplaceholder : Cpp.isPlaceholder (trimmed raw) with
  | true => simp
  | false =>
    have hne : trimmed raw ≠ [] := by
      intro hnil
      rw [hnil] at hplaceholder
      cases hplaceholder
    simpa using hne

theorem usable_eq {raw : Bytes} (h : Cpp.assignIfUsable [] raw ≠ []) :
    Cpp.assignIfUsable [] raw = trimmed raw := by
  rw [assignIfUsable_nil, usable_iff.mp h]
  rfl

theorem trimmed_ascii {raw : Bytes} (h : ∀ b ∈ raw, b < 0x80) : ∀ b ∈ trimmed raw, b < 0x80 :=
  fun b hb => h b (Cpp.mem_trimAscii (List.mem_of_mem_take hb))

/-! ## Rules -/

/-- How an SDK takes a serial: the text that it makes of one, empty when it does not use it, and
the texts that it replaces when it reads a later one. -/
structure SerialRule (Unit : Type) where
  text : Bytes → List Unit
  blank : List Unit → Bool
  blank_nil : blank [] = true

namespace SerialRule
variable {Unit : Type} (rule : SerialRule Unit)

/-- The serial after a record. -/
def assign (serial : List Unit) (raw : Bytes) : List Unit :=
  if rule.blank serial then rule.text raw else serial

/-- The first record of a type that has a usable serial has this one. -/
def First (type : UInt8) (records : List (UInt8 × Bytes)) (raw : Bytes) : Prop :=
  ∃ before after, records = before ++ (type, raw) :: after ∧ rule.blank (rule.text raw) = false ∧
    ∀ record ∈ before, record.1 = type → rule.blank (rule.text record.2) = true

/-- No record of a type has a usable serial, and of the last one nothing is left. -/
def Nothing (type : UInt8) (records : List (UInt8 × Bytes)) : Prop :=
  (∀ record ∈ records, record.1 = type → rule.blank (rule.text record.2) = true) ∧
  ∀ record, (records.filter (·.1 = type)).getLast? = some record → rule.text record.2 = []

variable {rule} {type : UInt8} {records : List (UInt8 × Bytes)}

theorem First.usable {raw : Bytes} (h : rule.First type records raw) :
    rule.blank (rule.text raw) = false := by
  obtain ⟨before, after, -, husable, -⟩ := h
  exact husable

theorem First.mem {raw : Bytes} (h : rule.First type records raw) : (type, raw) ∈ records := by
  obtain ⟨before, after, rfl, -, -⟩ := h
  exact List.mem_append_right _ (List.mem_cons_self ..)

variable (rule type records) in
theorem first_or_blank : (∃ raw, rule.First type records raw) ∨
    ∀ record ∈ records, record.1 = type → rule.blank (rule.text record.2) = true := by
  induction records with
  | nil => exact .inr (by simp)
  | cons record records ih =>
    obtain ⟨type', raw⟩ := record
    by_cases hfirst : type' = type ∧ rule.blank (rule.text raw) = false
    · obtain ⟨rfl, husable⟩ := hfirst
      exact .inl ⟨raw, [], records, rfl, husable, by simp⟩
    have hblank : type' = type → rule.blank (rule.text raw) = true := fun htype =>
      Bool.of_not_eq_false fun husable => hfirst ⟨htype, husable⟩
    rcases ih with ⟨other, before, after, rfl, husable, hbefore⟩ | hall
    · exact .inl ⟨other, (type', raw) :: before, after, rfl, husable,
        List.forall_mem_cons.mpr ⟨hblank, hbefore⟩⟩
    · exact .inr (List.forall_mem_cons.mpr ⟨hblank, hall⟩)

/-- A type none of whose records is usable leaves what the last one leaves. -/
theorem collect_blank
    (h : ∀ record ∈ records, record.1 = type → rule.blank (rule.text record.2) = true) :
    collect rule.assign type records =
      (((records.filter (·.1 = type)).getLast?).map fun record => rule.text record.2).getD [] ∧
    rule.blank (collect rule.assign type records) = true := by
  induction records using List.reverseRecOn with
  | nil => exact ⟨rfl, rule.blank_nil⟩
  | append_singleton records record ih =>
    have hbefore := ih fun other hother => h other (List.mem_append_left _ hother)
    rw [collect, List.foldl_append, List.foldl_cons, List.foldl_nil, List.filter_append]
    change _ ∧ rule.blank (if record.1 = type then rule.assign (collect rule.assign type records)
      record.2 else collect rule.assign type records) = true
    change (if record.1 = type then rule.assign (collect rule.assign type records)
      record.2 else collect rule.assign type records) = _ ∧ _
    by_cases htype : record.1 = type
    · rw [if_pos htype, assign, if_pos hbefore.2, List.filter_cons_of_pos (by simpa using htype),
        List.filter_nil, List.getLast?_concat]
      exact ⟨rfl, h record (by simp) htype⟩
    · rw [if_neg htype, List.filter_cons_of_neg (by simpa using htype), List.filter_nil,
        List.append_nil]
      exact hbefore

theorem collect_first {raw : Bytes} (h : rule.First type records raw) :
    collect rule.assign type records = rule.text raw := by
  obtain ⟨before, after, rfl, husable, hbefore⟩ := h
  have hblank := (collect_blank hbefore).2
  rw [collect, List.foldl_append, List.foldl_cons, if_pos rfl]
  change after.foldl _ (rule.assign (collect rule.assign type before) raw) = _
  rw [assign, if_pos hblank]
  -- the serial is taken, and a later record does not change it
  induction after with
  | nil => rfl
  | cons record after ih =>
    have hkept : rule.assign (rule.text raw) record.2 = rule.text raw :=
      if_neg (by rw [husable]; exact Bool.false_ne_true)
    rw [List.foldl_cons, hkept, ite_self, ih]

theorem collect_eq_nil_iff :
    collect rule.assign type records = [] ↔ rule.Nothing type records := by
  rcases rule.first_or_blank type records with ⟨raw, hfirst⟩ | hall
  · have husable := hfirst.usable
    rw [collect_first hfirst]
    refine iff_of_false ?_ ?_
    · intro hnil
      rw [hnil, rule.blank_nil] at husable
      cases husable
    · rintro ⟨hblank, -⟩
      rw [hblank (type, raw) hfirst.mem rfl] at husable
      cases husable
  · rw [(collect_blank hall).1, Nothing]
    cases (records.filter (·.1 = type)).getLast? with
    | none => simpa using hall
    | some record => simpa using fun _ => hall

end SerialRule

/-- The rule of C++. -/
def cppRule : SerialRule UInt8 where
  text := Cpp.assignIfUsable []
  blank serial := serial = []
  blank_nil := rfl

theorem cppRule_assign : cppRule.assign = Cpp.assignIfUsable := by
  funext serial raw
  by_cases hempty : serial = []
  · subst hempty
    rfl
  · rw [SerialRule.assign, if_neg (by simpa [cppRule] using hempty), Cpp.assignIfUsable,
      if_pos hempty]

theorem cppRule_usable {raw : Bytes} :
    cppRule.blank (cppRule.text raw) = false ↔ Cpp.assignIfUsable [] raw ≠ [] :=
  decide_eq_false_iff_not

/-- A rule of another SDK, beside the rule of C++: on ASCII it takes every serial that the
C++ rule takes, and a serial it has taken stays. -/
structure Follows {Unit : Type} (rule : SerialRule Unit) (embed : Bytes → List Unit) : Prop where
  empty : embed [] = []
  takes : ∀ raw, (∀ b ∈ raw, b < 0x80) → Cpp.assignIfUsable [] raw ≠ [] →
    rule.text raw = embed (Cpp.assignIfUsable [] raw)
  keeps : ∀ raw, (∀ b ∈ raw, b < 0x80) → Cpp.assignIfUsable [] raw ≠ [] →
    rule.blank (embed (Cpp.assignIfUsable [] raw)) = false

/-- A rule takes from some records what the C++ rule takes from some others: neither finds a usable
serial of the type, or both do and the first ones have the same text. -/
def SerialRule.Matches {Unit : Type} (rule : SerialRule Unit) (embed : Bytes → List Unit)
    (type : UInt8) (structures records : List (UInt8 × Bytes)) : Prop :=
  (cppRule.Nothing type structures ∧ rule.Nothing type records) ∨
  ∃ raw other, cppRule.First type structures raw ∧ rule.First type records other ∧
    rule.text other = embed (trimmed raw)

/-- The serial of a type does not suffer from the misread records: the table ends at once, or its
first structure has the serial, or the rule takes from the first structure and the misread records
what C++ takes from the structures after the first. -/
def Table.Unharmed {Unit : Type} (rule : SerialRule Unit) (embed : Bytes → List Unit)
    (table : Table) (type : UInt8) : Prop :=
  match table.live with
  | [] => True
  | first :: others =>
      (first.type = type ∧ Cpp.assignIfUsable [] first.serial ≠ []) ∨
      ∀ misread, Misread (table.tail first) misread →
        rule.Matches embed type (others.map fun s => (s.type, s.serial))
          ((first.type, first.serial) :: misread)

theorem structure_ascii {structures : List Structure} {type : UInt8} {raw : Bytes}
    (h : (type, raw) ∈ structures.map fun s => (s.type, s.serial)) : ∀ b ∈ raw, b < 0x80 := by
  obtain ⟨s, -, hs⟩ := List.mem_map.mp h
  obtain rfl := congrArg Prod.snd hs
  exact s.serial_ascii

section Agreement
open SerialRule
variable {Unit : Type} {rule : SerialRule Unit} {embed : Bytes → List Unit}
  (hfollows : Follows rule embed) {type : UInt8}
include hfollows

theorem collect_matches_iff (others : List Structure) (records : List (UInt8 × Bytes)) :
    collect rule.assign type records =
      embed (collect cppRule.assign type (others.map fun s => (s.type, s.serial))) ↔
    rule.Matches embed type (others.map fun s => (s.type, s.serial)) records := by
  constructor
  · intro h
    rcases cppRule.first_or_blank type (others.map fun s => (s.type, s.serial)) with
      ⟨raw, hraw⟩ | hall
    · have husable := cppRule_usable.mp hraw.usable
      have hascii := structure_ascii hraw.mem
      rw [collect_first hraw] at h
      rcases rule.first_or_blank type records with ⟨other, hother⟩ | hblank
      · refine .inr ⟨raw, other, hraw, hother, ?_⟩
        rw [← collect_first hother, h, ← usable_eq husable]
        rfl
      · -- the port has no serial, and C++ has one
        have hkept := hfollows.keeps raw hascii husable
        have hnone := (collect_blank hblank).2
        rw [h] at hnone
        exact absurd (hnone.symm.trans hkept) (by decide)
    · have hnone : collect cppRule.assign type (others.map fun s => (s.type, s.serial)) = [] :=
        of_decide_eq_true (collect_blank hall).2
      rw [hnone, hfollows.empty] at h
      exact .inl ⟨collect_eq_nil_iff.mp hnone, collect_eq_nil_iff.mp h⟩
  · rintro (⟨hnone, hnone'⟩ | ⟨raw, other, hraw, hother, htext⟩)
    · rw [collect_eq_nil_iff.mpr hnone, collect_eq_nil_iff.mpr hnone', hfollows.empty]
    · rw [collect_first hraw, collect_first hother, htext,
        ← usable_eq (cppRule_usable.mp hraw.usable)]
      rfl

/-- **The serials of a type agree exactly when they do not suffer from misread records.** -/
theorem collect_agree_iff (first : Structure) (others : List Structure)
    (misread : List (UInt8 × Bytes)) :
    collect rule.assign type ((first.type, first.serial) :: misread) =
      embed (collect cppRule.assign type
        ((first :: others).map fun s => (s.type, s.serial))) ↔
    (first.type = type ∧ Cpp.assignIfUsable [] first.serial ≠ []) ∨
      rule.Matches embed type (others.map fun s => (s.type, s.serial))
        ((first.type, first.serial) :: misread) := by
  rw [List.map_cons]
  by_cases htakes : first.type = type ∧ Cpp.assignIfUsable [] first.serial ≠ []
  · refine iff_of_true ?_ (.inl htakes)
    obtain ⟨htype, husable⟩ := htakes
    have hfirst : ∀ {Unit : Type} (rule : SerialRule Unit) (records : List (UInt8 × Bytes)),
        rule.blank (rule.text first.serial) = false →
        rule.First type ((first.type, first.serial) :: records) first.serial :=
      fun rule records hkept => ⟨[], records, by rw [htype]; rfl, hkept, by simp⟩
    have htext := hfollows.takes _ first.serial_ascii husable
    have hkept := hfollows.keeps _ first.serial_ascii husable
    rw [collect_first (hfirst cppRule _ (cppRule_usable.mpr husable)),
      collect_first (hfirst rule _ (htext ▸ hkept)), htext]
    rfl
  · have hskip : collect cppRule.assign type
        ((first.type, first.serial) :: others.map fun s => (s.type, s.serial)) =
        collect cppRule.assign type (others.map fun s => (s.type, s.serial)) := by
      rw [collect, List.foldl_cons, cppRule_assign]
      by_cases htype : first.type = type
      · rw [if_pos htype, not_not.mp fun h => htakes ⟨htype, h⟩]
        rfl
      · rw [if_neg htype]
        rfl
    rw [hskip, or_iff_right htakes]
    exact collect_matches_iff hfollows others _

/-- **A port has the serials of C++ exactly when neither suffers from misread records.** -/
theorem walk_agree_iff (table : Table) :
    walk rule.assign table.bytes.length table.bytes ⟨[], []⟩ =
      ⟨embed (Cpp.parseSmbios table.bytes).motherboard,
        embed (Cpp.parseSmbios table.bytes).bios⟩ ↔
    table.Unharmed rule embed 1 ∧ table.Unharmed rule embed 2 := by
  rw [parseSmbios_table, Table.records]
  unfold Table.Unharmed
  cases hlive : table.live with
  | nil =>
    rw [table.walk_ended hlive]
    simp [collect, hfollows.empty]
  | cons first others =>
    have hwalk : ∀ misread, Misread (table.tail first) misread →
        (walk rule.assign table.bytes.length table.bytes ⟨[], []⟩ =
          ⟨embed (collect Cpp.assignIfUsable 2 ((first :: others).map fun s => (s.type, s.serial))),
            embed (collect Cpp.assignIfUsable 1
              ((first :: others).map fun s => (s.type, s.serial)))⟩ ↔
        ((first.type = 2 ∧ Cpp.assignIfUsable [] first.serial ≠ []) ∨
          rule.Matches embed 2 (others.map fun s => (s.type, s.serial))
            ((first.type, first.serial) :: misread)) ∧
        ((first.type = 1 ∧ Cpp.assignIfUsable [] first.serial ≠ []) ∨
          rule.Matches embed 1 (others.map fun s => (s.type, s.serial))
            ((first.type, first.serial) :: misread))) := by
      intro misread hmisread
      rw [table.walk_bytes hlive hmisread, foldl_offer, Serials.mk.injEq, ← cppRule_assign,
        collect_agree_iff hfollows, collect_agree_iff hfollows, cppRule_assign]
    constructor
    · intro h
      exact ⟨or_iff_not_imp_left.mpr fun hnot misread hmisread =>
          ((hwalk misread hmisread).mp h).2.resolve_left hnot,
        or_iff_not_imp_left.mpr fun hnot misread hmisread =>
          ((hwalk misread hmisread).mp h).1.resolve_left hnot⟩
    · rintro ⟨hsystem, hboard⟩
      obtain ⟨misread, hmisread⟩ := exists_misread (table.tail first)
      exact (hwalk misread hmisread).mpr ⟨hboard.imp_right fun h => h misread hmisread,
        hsystem.imp_right fun h => h misread hmisread⟩

end Agreement

/-- A rule that fills an empty serial only. -/
def fillRule (firstUsable : Bytes → Bytes) : SerialRule UInt8 where
  text := firstUsable
  blank serial := serial = []
  blank_nil := rfl

theorem fillRule_assign (firstUsable : Bytes → Bytes) : (fillRule firstUsable).assign =
    fun serial value => if serial = [] then firstUsable value else serial := by
  funext serial value
  simp [SerialRule.assign, fillRule]

theorem follows_of_takes {firstUsable : Bytes → Bytes}
    (htakes : ∀ raw, (∀ b ∈ raw, b < 0x80) → Cpp.assignIfUsable [] raw ≠ [] →
      firstUsable raw = Cpp.assignIfUsable [] raw) : Follows (fillRule firstUsable) id where
  empty := rfl
  takes := htakes
  keeps _ _ husable := decide_eq_false husable

/-! ## Go -/

theorem toLower_ascii {value : Bytes} (h : ∀ b ∈ value, b < 0x80) :
    Go.toLower value = lower value := by
  fun_induction Go.toLower value with
  | case1 rest ih => exact absurd (h 0xe2 (List.mem_cons_self ..)) (by decide)
  | case2 rest ih => exact absurd (h 0xc4 (List.mem_cons_self ..)) (by decide)
  | case3 b rest h₁ h₂ ih =>
    rw [ih (fun d hd => h d (List.mem_cons_of_mem _ hd))]
    rfl
  | case4 => rfl

theorem go_follows : Follows (fillRule Go.firstUsable) id := by
  refine follows_of_takes fun raw hascii husable => ?_
  have hplaceholder : Go.isPlaceholder (trimmed raw) = Cpp.isPlaceholder (trimmed raw) := by
    rw [Go.isPlaceholder, toLower_ascii (trimmed_ascii hascii), Cpp.isPlaceholder]
  have hgo : Go.firstUsable raw = if Go.isPlaceholder (trimmed raw) then [] else trimmed raw := rfl
  rw [hgo, hplaceholder, assignIfUsable_nil]

/-! ## Rust -/

theorem takeChars_ascii {bytes : Bytes} (h : ∀ b ∈ bytes, b < 0x80) (n : Nat) :
    Rust.takeChars n bytes = bytes.take n := by
  induction bytes generalizing n with
  | nil => simp [Rust.takeChars]
  | cons b rest ih =>
    have hb : ¬ (0x80 ≤ b ∧ b < 0xc0) := fun hlarge =>
      absurd (h b (List.mem_cons_self ..)) (UInt8.not_lt.mpr hlarge.1)
    unfold Rust.takeChars
    rw [if_neg hb]
    cases n with
    | zero => rfl
    | succ n =>
      dsimp only
      rw [ih (fun c hc => h c (List.mem_cons_of_mem _ hc)), List.take_succ_cons]

theorem isFiller_lower {b : UInt8} (h : isFiller b = true) : lowerByte b = b := by
  rcases (by simpa [isFiller] using h : (b = 0x30 ∨ b = 0x20) ∨ b = 0x09) with (rfl | rfl) | rfl
  · rfl
  · rfl
  · rfl

theorem lower_filler {value : Bytes} (h : value.all isFiller = true) :
    (lower value).all isFiller = true := by
  rw [List.all_eq_true] at h ⊢
  intro b hb
  obtain ⟨c, hc, rfl⟩ := List.mem_map.mp hb
  rw [isFiller_lower (h c hc)]
  exact h c hc

/-- No placeholder is longer than what a serial is cut to. -/
theorem length_placeholder {value : Bytes} (h : value ∈ placeholders) : value.length ≤ 128 := by
  have hall : placeholders.all (fun text => decide (text.length ≤ 128)) = true := by
    decide +kernel
  exact of_decide_eq_true (List.all_eq_true.mp hall value h)

theorem rust_follows : Follows (fillRule Rust.firstUsable) id := by
  refine follows_of_takes fun raw hascii husable => ?_
  have hplaceholder := usable_iff.mp husable
  simp only [Cpp.isPlaceholder, Bool.or_eq_false_iff, decide_eq_false_iff_not] at hplaceholder
  obtain ⟨⟨hne, hfiller⟩, hlisted⟩ := hplaceholder
  rw [usable_eq husable]
  have hvalue : Cpp.trimAscii (lossyUtf8 raw.length raw) = Cpp.trimAscii raw := by
    rw [lossyUtf8_ascii hascii (Nat.le_refl _)]
  have hkept : ¬ (Cpp.trimAscii raw = [] ∨ (Cpp.trimAscii raw).all isFiller = true ∨
      placeholders.contains (lower (Cpp.trimAscii raw)) = true) := by
    rintro (hnil | hall | hmem)
    · exact hne (by rw [trimmed, hnil]; rfl)
    · have hcut : (trimmed raw).all isFiller = true := by
        rw [List.all_eq_true] at hall ⊢
        exact fun b hb => hall b (List.mem_of_mem_take hb)
      rw [lower_filler hcut] at hfiller
      cases hfiller
    · have hlength := length_placeholder (by simpa using hmem)
      rw [lower_length] at hlength
      rw [trimmed, List.take_of_length_le hlength, hmem] at hlisted
      cases hlisted
  rw [Rust.firstUsable, hvalue, if_neg hkept,
    takeChars_ascii fun b hb => hascii b (Cpp.mem_trimAscii hb)]
  rfl

/-! ## C# -/

/-- A test that does not tell a byte from its code unit. -/
theorem all_units {p : UInt8 → Bool} {q : UInt16 → Bool} (h : ∀ b, q b.toUInt16 = p b)
    (bytes : Bytes) : (CSharp.units bytes).all q = bytes.all p := by
  rw [CSharp.units, List.all_map]
  exact List.all_congr rfl h

theorem blank_unit (b : UInt8) :
    CSharp.trimAscii.isBlankUnit b.toUInt16 = Cpp.trimAscii.isBlankByte b := by
  simp only [CSharp.trimAscii.isBlankUnit, Cpp.trimAscii.isBlankByte, UInt16.le_iff_toNat_le,
    UInt8.le_iff_toNat_le, ← UInt16.toNat_inj, ← UInt8.toNat_inj, UInt8.toNat_toUInt16]
  rfl

theorem trimAscii_units (bytes : Bytes) :
    CSharp.trimAscii (CSharp.units bytes) = CSharp.units (Cpp.trimAscii bytes) := by
  have hblank : CSharp.trimAscii.isBlankUnit ∘ UInt8.toUInt16 = Cpp.trimAscii.isBlankByte :=
    funext blank_unit
  rw [CSharp.trimAscii, Cpp.trimAscii, CSharp.units, List.dropWhile_map, hblank, List.rdropWhile,
    ← List.map_reverse, List.dropWhile_map, hblank, ← List.map_reverse]
  rfl

theorem contains_units (texts : List Bytes) (text : Bytes) :
    (texts.map CSharp.units).contains (CSharp.units text) = texts.contains text := by
  rw [Bool.eq_iff_iff, List.contains_iff_mem, List.contains_iff_mem]
  exact List.mem_map_of_injective fun _ _ => CSharp.units_injective

theorem isPlaceholder_units {value : Bytes} (h : ∀ b ∈ value, b < 0x80) :
    CSharp.isPlaceholder (CSharp.units value) = Cpp.isPlaceholder value := by
  have hempty : decide (CSharp.units value = []) = decide (value = []) := by
    simp [CSharp.units]
  have hfiller : (CSharp.units (lower value)).all
      (fun c => c = 0x30 || c = 0x20 || c = 0x09) = (lower value).all isFiller := by
    refine all_units (fun b => ?_) _
    simp only [isFiller, ← UInt16.toNat_inj, ← UInt8.toNat_inj, UInt8.toNat_toUInt16]
    rfl
  rw [CSharp.isPlaceholder, Cpp.isPlaceholder, CSharp.toLowerInvariant_units h, hempty, hfiller,
    contains_units]

/-- A text that is trimmed does not start with white space. -/
theorem not_whiteSpace {value rest : Bytes} {b : UInt8} (hvalue : value = b :: rest)
    (hblank : Cpp.trimAscii.isBlankByte b = false) (hascii : b < 0x80) :
    CSharp.isNullOrWhiteSpace (CSharp.units value) = false := by
  have hall : ∀ n : Nat, n < 128 → Cpp.trimAscii.isBlankByte (UInt8.ofNat n) = false →
      CSharp.isWhiteSpace (UInt8.ofNat n).toUInt16 = false := by decide +kernel
  have hb := hall b.toNat (by simpa [UInt8.lt_iff_toNat_lt] using hascii)
  rw [UInt8.ofNat_toNat] at hb
  rw [hvalue, CSharp.isNullOrWhiteSpace, CSharp.units, List.map_cons, List.all_cons, hb hblank]
  rfl

theorem head_trimAscii {raw rest : Bytes} {b : UInt8} (h : Cpp.trimAscii raw = b :: rest) :
    Cpp.trimAscii.isBlankByte b = false := by
  have hstart : b :: rest <+: raw.dropWhile Cpp.trimAscii.isBlankByte :=
    h ▸ List.rdropWhile_prefix _ _
  obtain ⟨more, hmore⟩ := hstart
  have hhead := List.head?_dropWhile_not Cpp.trimAscii.isBlankByte raw
  rw [← hmore] at hhead
  simpa using hhead

theorem csharp_firstUsable {raw : Bytes} (hascii : ∀ b ∈ raw, b < 0x80) :
    CSharp.firstUsable [] (CSharp.getString raw) = CSharp.units (Cpp.assignIfUsable [] raw) := by
  have hvalue : (CSharp.trimAscii (CSharp.getString raw)).take 128 =
      CSharp.units (trimmed raw) := by
    rw [CSharp.getString_ascii hascii, trimAscii_units, CSharp.units, ← List.map_take]
    rfl
  rw [CSharp.firstUsable, if_neg (by simp [CSharp.isNullOrWhiteSpace]), hvalue]
  dsimp only
  rw [isPlaceholder_units (trimmed_ascii hascii), assignIfUsable_nil]
  split
  · rfl
  · rfl

/-- The rule of C#, which replaces a text of white space. -/
def csharpRule : SerialRule UInt16 where
  text raw := CSharp.firstUsable [] (CSharp.getString raw)
  blank := CSharp.isNullOrWhiteSpace
  blank_nil := rfl

theorem csharpRule_assign : csharpRule.assign =
    fun serial value => CSharp.firstUsable serial (CSharp.getString value) := by
  funext serial value
  rw [SerialRule.assign]
  cases hblank : CSharp.isNullOrWhiteSpace serial with
  | true =>
    rw [if_pos (show csharpRule.blank serial = true from hblank), CSharp.firstUsable,
      if_neg (by simp [hblank])]
    rfl
  | false =>
    have hkept : ¬ csharpRule.blank serial = true := by simp [csharpRule, hblank]
    rw [if_neg hkept, CSharp.firstUsable, if_pos (by simp [hblank])]

theorem csharp_follows : Follows csharpRule CSharp.units where
  empty := rfl
  takes raw hascii _ := csharp_firstUsable hascii
  keeps raw hascii husable := by
    have hne : trimmed raw ≠ [] := usable_eq husable ▸ husable
    rw [usable_eq husable]
    cases htrim : Cpp.trimAscii raw with
    | nil => simp [trimmed, htrim] at hne
    | cons b rest =>
      have hvalue : trimmed raw = b :: rest.take 127 := by
        rw [trimmed, htrim, List.take_succ_cons]
      exact not_whiteSpace hvalue (head_trimAscii htrim)
        (hascii b (Cpp.mem_trimAscii (htrim ▸ List.mem_cons_self ..)))

end Smbios

open ByteText Smbios

/-- **One table, one answer.**  On a well-formed table the Go, C# and Rust walkers return the
serials of the C++ walker exactly when neither serial suffers from the records they
misread. -/
theorem smbios_agree_iff (table : Table) :
    (Go.parseSmbios table.bytes = Cpp.parseSmbios table.bytes ∧
      CSharp.parseSmbiosTable table.bytes =
        ⟨CSharp.units (Cpp.parseSmbios table.bytes).motherboard,
          CSharp.units (Cpp.parseSmbios table.bytes).bios⟩ ∧
      Rust.parseSmbios table.bytes = Cpp.parseSmbios table.bytes) ↔
    ∀ type, type = 1 ∨ type = 2 →
      table.Unharmed (fillRule Go.firstUsable) id type ∧
      table.Unharmed csharpRule CSharp.units type ∧
      table.Unharmed (fillRule Rust.firstUsable) id type := by
  have hgo := walk_agree_iff go_follows table
  have hcsharp := walk_agree_iff csharp_follows table
  have hrust := walk_agree_iff rust_follows table
  rw [fillRule_assign] at hgo hrust
  rw [csharpRule_assign] at hcsharp
  rw [Go.parseSmbios, CSharp.parseSmbiosTable, Rust.parseSmbios]
  simp only [forall_eq_or_imp, forall_eq]
  simp only [id] at hgo hrust
  rw [hgo, hcsharp, hrust]
  tauto

/-- A structure without strings, then the system with its serial. -/
def sampleTable : Table where
  structures := [⟨0, (0, 0), [], [], by decide, by simp⟩,
    ⟨1, (1, 0), [0, 0, 0, 1], [ascii "S1"], by decide, by decide +kernel⟩]
  ending := ⟨127, (2, 0), [], [], by decide, by simp⟩
  ends := rfl

/-- C++ finds the serial of the system; the others do not get to its structure. -/
theorem system_serial_missed :
    ¬ (Go.parseSmbios sampleTable.bytes = Cpp.parseSmbios sampleTable.bytes ∧
      CSharp.parseSmbiosTable sampleTable.bytes =
        ⟨CSharp.units (Cpp.parseSmbios sampleTable.bytes).motherboard,
          CSharp.units (Cpp.parseSmbios sampleTable.bytes).bios⟩ ∧
      Rust.parseSmbios sampleTable.bytes = Cpp.parseSmbios sampleTable.bytes) := by
  rintro ⟨hgo, -, -⟩
  exact absurd hgo (by decide +kernel)

end SwmSdk
