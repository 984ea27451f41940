import SwmSdk.ByteText

/-! # Compact JSON objects

A flat object of texts and integers, written without whitespace.  The text
determines the fields (`object_injective`): a quoted text ends at its first
unescaped quote, and a numeral at the first byte that is neither a digit nor a
sign.
-/
namespace JsonWrite
open ByteText

/-- A value of a flat object. -/
inductive Scalar where
  | text (value : Bytes)
  | number (value : Int)
  deriving DecidableEq, Repr

section Write
variable (upper : Bool)

/-- A hexadecimal digit, in the case the writer uses. -/
def controlDigit (n : Nat) : UInt8 :=
  UInt8.ofNat (if n < 10 then 48 + n else if upper then 55 + n else 87 + n)

/-- The escape of one byte of a text.  Control characters without a short escape
are written with four hexadecimal digits. -/
def escape (b : UInt8) : Bytes :=
  if b = 0x22 then [0x5c, 0x22]
  else if b = 0x5c then [0x5c, 0x5c]
  else if b = 0x08 then [0x5c, 0x62]
  else if b = 0x09 then [0x5c, 0x74]
  else if b = 0x0a then [0x5c, 0x6e]
  else if b = 0x0c then [0x5c, 0x66]
  else if b = 0x0d then [0x5c, 0x72]
  else if b < 0x20 then
    [0x5c, 0x75, 0x30, 0x30, controlDigit upper (b.toNat / 16), controlDigit upper (b.toNat % 16)]
  else [b]

/-- A text between quotes. -/
def quoted (value : Bytes) : Bytes := 0x22 :: (value.flatMap (escape upper) ++ [0x22])

/-- The text of a value. -/
def scalar : Scalar → Bytes
  | .text value => quoted upper value
  | .number value => decimal value

/-- The text of a member. -/
def field (entry : Bytes × Scalar) : Bytes := quoted upper entry.1 ++ 0x3a :: scalar upper entry.2

/-- The rest of an object after a member. -/
def members : List (Bytes × Scalar) → Bytes
  | [] => [0x7d]
  | entry :: entries => 0x2c :: (field upper entry ++ members entries)

/-- The text of a flat object. -/
def object : List (Bytes × Scalar) → Bytes
  | [] => [0x7b, 0x7d]
  | entry :: entries => 0x7b :: (field upper entry ++ members upper entries)

end Write

/-! ## Reading back -/

section Read
variable {upper : Bool}

/-- The number of a hexadecimal digit. -/
def hexValue (d : UInt8) : Nat :=
  if d.toNat < 65 then d.toNat - 48 else if d.toNat < 97 then d.toNat - 55 else d.toNat - 87

theorem hexValue_controlDigit :
    ∀ (upper : Bool), ∀ n < 16, hexValue (controlDigit upper n) = n := by decide

/-- Reads one escape. -/
def unescape : Bytes → Option (UInt8 × Bytes)
  | 0x5c :: 0x22 :: r => some (0x22, r)
  | 0x5c :: 0x5c :: r => some (0x5c, r)
  | 0x5c :: 0x62 :: r => some (0x08, r)
  | 0x5c :: 0x74 :: r => some (0x09, r)
  | 0x5c :: 0x6e :: r => some (0x0a, r)
  | 0x5c :: 0x66 :: r => some (0x0c, r)
  | 0x5c :: 0x72 :: r => some (0x0d, r)
  | 0x5c :: 0x75 :: _ :: _ :: high :: low :: r =>
      some (UInt8.ofNat (hexValue high * 16 + hexValue low), r)
  | b :: r => some (b, r)
  | [] => none

theorem unescape_escape (b : UInt8) (r : Bytes) : unescape (escape upper b ++ r) = some (b, r) := by
  have hb := b.toNat_lt
  unfold escape
  split
  next h => rw [h]; rfl
  next _ =>
  split
  next h => rw [h]; rfl
  next hback =>
  split
  next h => rw [h]; rfl
  next _ =>
  split
  next h => rw [h]; rfl
  next _ =>
  split
  next h => rw [h]; rfl
  next _ =>
  split
  next h => rw [h]; rfl
  next _ =>
  split
  next h => rw [h]; rfl
  next _ =>
  split
  next h =>
    simp only [List.cons_append, List.nil_append, unescape]
    rw [hexValue_controlDigit _ _ (by omega), hexValue_controlDigit _ _ (by omega)]
    have whole : b.toNat / 16 * 16 + b.toNat % 16 = b.toNat := by omega
    rw [whole, UInt8.ofNat_toNat]
  next _ =>
    rw [List.singleton_append]
    unfold unescape
    split <;> simp_all

/-- The escapes are a prefix code. -/
theorem escape_split {a b : UInt8} {r r' : Bytes} (h : escape upper a ++ r = escape upper b ++ r') :
    a = b ∧ r = r' := by
  have hread := @unescape_escape upper a r
  rw [h, unescape_escape] at hread
  have hpair := Option.some.inj hread
  exact ⟨(congrArg Prod.fst hpair).symm, (congrArg Prod.snd hpair).symm⟩

/-- No escape starts with a quote. -/
theorem escape_ne_quote (a : UInt8) (r r' : Bytes) : escape upper a ++ r ≠ 0x22 :: r' := by
  intro h
  unfold escape at h
  split_ifs at h with hquote <;> first | exact absurd (List.cons.inj h).1 (by decide) | skip
  exact hquote (List.cons.inj h).1

/-- **A quoted text ends at its first unescaped quote.** -/
theorem quoted_split {a b r r' : Bytes} 
    (h : quoted upper a ++ r = quoted upper b ++ r') : a = b ∧ r = r' := by
  simp only [quoted, List.cons_append, List.append_assoc, List.cons.injEq, true_and,
    List.nil_append] at h
  induction a generalizing b with
  | nil =>
    cases b with
    | nil => exact ⟨rfl, (List.cons.inj h).2⟩
    | cons c b =>
      rw [List.flatMap_cons, List.append_assoc] at h
      exact absurd h.symm (escape_ne_quote c _ _)
  | cons c a ih =>
    cases b with
    | nil =>
      rw [List.flatMap_cons, List.append_assoc] at h
      exact absurd h (escape_ne_quote c _ _)
    | cons d b =>
      rw [List.flatMap_cons, List.flatMap_cons, List.append_assoc, List.append_assoc] at h
      obtain ⟨rfl, hrest⟩ := escape_split h
      obtain ⟨rfl, hr⟩ := ih hrest
      exact ⟨rfl, hr⟩

/-- Two splits after a run of bytes of one class are the same split. -/
theorem run_split {P : UInt8 → Prop} {a b r r' : Bytes} (ha : ∀ c ∈ a, P c) (hb : ∀ c ∈ b, P c)
    (hr : ∀ c ∈ r.head?, ¬ P c) (hr' : ∀ c ∈ r'.head?, ¬ P c) (h : a ++ r = b ++ r') :
    a = b ∧ r = r' := by
  induction a generalizing b with
  | nil =>
    cases b with
    | nil => exact ⟨rfl, h⟩
    | cons d b =>
      rw [List.nil_append, List.cons_append] at h
      exact absurd (hb d (List.mem_cons_self ..)) (hr d (by rw [h]; rfl))
  | cons c a ih =>
    cases b with
    | nil =>
      rw [List.nil_append, List.cons_append] at h
      exact absurd (ha c (List.mem_cons_self ..)) (hr' c (by rw [← h]; rfl))
    | cons d b =>
      obtain ⟨rfl, htail⟩ := List.cons.inj h
      obtain ⟨rfl, hrest⟩ := ih (fun c hc => ha c (List.mem_cons_of_mem _ hc))
        (fun c hc => hb c (List.mem_cons_of_mem _ hc)) htail
      exact ⟨rfl, hrest⟩

/-- The bytes of a numeral. -/
def Numeral (b : UInt8) : Prop := b = 45 ∨ (48 ≤ b.toNat ∧ b.toNat ≤ 57)

theorem numeral_of_mem_decimal {n : Int} {b : UInt8} (h : b ∈ decimal n) : Numeral b := by
  cases n with
  | ofNat n => exact .inr (digit_of_mem_decimalNat h)
  | negSucc n =>
    rcases List.mem_cons.mp h with rfl | h
    · exact .inl rfl
    · exact .inr (digit_of_mem_decimalNat h)

theorem members_head {entries : List (Bytes × Scalar)} {b : UInt8}
    (h : b ∈ (members upper entries).head?) : ¬ Numeral b ∧ b ≠ 0x22 := by
  cases entries with
  | nil =>
    obtain rfl : b = 0x7d := by simpa [members, eq_comm] using h
    exact ⟨by unfold Numeral; decide, by decide⟩
  | cons entry entries =>
    obtain rfl : b = 0x2c := by simpa [members, eq_comm] using h
    exact ⟨by unfold Numeral; decide, by decide⟩

theorem decimal_ne_quoted (n : Int) (value r r' : Bytes) :
    decimal n ++ r ≠ quoted upper value ++ r' := by
  intro h
  cases hd : decimal n with
  | nil => exact decimal_ne_nil n hd
  | cons c cs =>
    have hc : Numeral c := @numeral_of_mem_decimal n c (hd ▸ List.mem_cons_self ..)
    rw [hd] at h
    obtain rfl : c = 0x22 := (List.cons.inj h).1
    exact absurd hc (by unfold Numeral; decide)

theorem scalar_split {a b : Scalar} {first second : List (Bytes × Scalar)}
    (h : scalar upper a ++ members upper first = scalar upper b ++ members upper second) :
    a = b ∧ members upper first = members upper second := by
  cases a with
  | text a =>
    cases b with
    | text b =>
      obtain ⟨rfl, hr⟩ := quoted_split h
      exact ⟨rfl, hr⟩
    | number b => exact absurd h.symm (decimal_ne_quoted b a _ _)
  | number a =>
    cases b with
    | text b => exact absurd h (decimal_ne_quoted a b _ _)
    | number b =>
      obtain ⟨hd, hr⟩ := run_split (fun _ hc => numeral_of_mem_decimal hc)
        (fun _ hc => numeral_of_mem_decimal hc) (fun _ hc => (members_head hc).1)
        (fun _ hc => (members_head hc).1) h
      exact ⟨congrArg _ (decimal_inj hd), hr⟩

theorem field_split {a b : Bytes × Scalar} {first second : List (Bytes × Scalar)}
    (h : field upper a ++ members upper first = field upper b ++ members upper second) :
    a = b ∧ members upper first = members upper second := by
  simp only [field, List.append_assoc, List.cons_append] at h
  obtain ⟨hname, h⟩ := quoted_split h
  obtain ⟨hvalue, hr⟩ := scalar_split (List.cons.inj h).2
  exact ⟨Prod.ext hname hvalue, hr⟩

theorem members_injective {first second : List (Bytes × Scalar)}
    (h : members upper first = members upper second) : first = second := by
  induction first generalizing second with
  | nil =>
    cases second with
    | nil => rfl
    | cons b second => exact absurd (List.cons.inj h).1 (by decide)
  | cons a first ih =>
    cases second with
    | nil => exact absurd (List.cons.inj h).1 (by decide)
    | cons b second =>
      obtain ⟨rfl, hr⟩ := field_split (List.cons.inj h).2
      rw [ih hr]

/-- **The text of an object determines its fields.** -/
theorem object_injective {first second : List (Bytes × Scalar)}
    (h : object upper first = object upper second) : first = second := by
  have open_ne : ∀ (entry : Bytes × Scalar) (r : Bytes), field upper entry ++ r ≠ [0x7d] := by
    intro entry r he
    exact absurd (List.cons.inj he).1 (by decide)
  cases first with
  | nil =>
    cases second with
    | nil => rfl
    | cons b second => exact absurd (List.cons.inj h).2.symm (open_ne b _)
  | cons a first =>
    cases second with
    | nil => exact absurd (List.cons.inj h).2 (open_ne a _)
    | cons b second =>
      obtain ⟨rfl, hr⟩ := field_split (List.cons.inj h).2
      rw [members_injective hr]

end Read
end JsonWrite
