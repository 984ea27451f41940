import Mathlib.Data.List.Induction
import SwmSdk.ByteText

/-! # Binary formats

Readers of binary formats, with the error each of them reports for its own field:
a fixed number of bytes, a big-endian number, a text that follows its length, and a
counted list of entries.  Every reader is described by one equivalence, which says both that
what it accepts is an encoding followed by the rest, and that every encoding is
accepted; a parser that is built of them is then described by rewriting.

The first part inverts a computation that succeeded: each step of it succeeded, and each check it
passed did not hold.
-/

/-! ## Computations that may fail -/

namespace Outcome
variable {ε : Type*} {α β : Type}

theorem bind_eq_ok {x : Except ε α} {f : α → Except ε β} {b : β} :
    (x >>= f) = .ok b ↔ ∃ a, x = .ok a ∧ f a = .ok b := by
  constructor
  · intro h
    cases x with
    | error e => cases h
    | ok a => exact ⟨a, rfl, h⟩
  · rintro ⟨a, rfl, h⟩
    exact h

theorem map_eq_ok {x : Except ε α} {f : α → β} {b : β} :
    x.map f = .ok b ↔ ∃ a, x = .ok a ∧ f a = b := by
  cases x with
  | error e => simp [Except.map]
  | ok a => simp [Except.map]

theorem guard_eq_ok {p : Prop} [Decidable p] {e : ε} {x : Except ε α} {a : α} :
    (if p then .error e else x) = .ok a ↔ ¬ p ∧ x = .ok a := by
  by_cases hp : p
  · simp [hp]
  · simp [hp]

/-- The computation returns. -/
def Returns (x : Except ε α) : Prop := ∃ a, x = .ok a

/-- The value of a computation that returns. -/
def valueOr (default : α) : Except ε α → α
  | .ok a => a
  | .error _ => default

@[simp] theorem valueOr_ok (default a : α) : valueOr default (.ok a : Except ε α) = a := rfl

theorem eq_ok_iff {x : Except ε α} {a : α} (default : α) :
    x = .ok a ↔ Returns x ∧ a = valueOr default x := by
  constructor
  · rintro rfl
    exact ⟨⟨a, rfl⟩, rfl⟩
  · rintro ⟨⟨b, rfl⟩, rfl⟩
    rfl

/-- The computation fails with an error of some kind. -/
def Fails (p : ε → Prop) (x : Except ε α) : Prop := ∃ e, x = .error e ∧ p e

theorem fails_error {p : ε → Prop} {e : ε} : Fails p (.error e : Except ε α) ↔ p e :=
  ⟨fun ⟨_, h, hp⟩ => Except.error.inj h ▸ hp, fun hp => ⟨e, rfl, hp⟩⟩

theorem not_fails_ok {p : ε → Prop} (a : α) : ¬ Fails p (.ok a : Except ε α) := by
  rintro ⟨e, h, -⟩
  cases h

/-- One of the steps fails, and all before it succeeded. -/
theorem fails_bind {p : ε → Prop} {x : Except ε α} {f : α → Except ε β} :
    Fails p (x >>= f) ↔ Fails p x ∨ ∃ a, x = .ok a ∧ Fails p (f a) := by
  cases x with
  | error e =>
    have hrest : ¬ ∃ a, (.error e : Except ε α) = .ok a ∧ Fails p (f a) := by
      rintro ⟨a, h, -⟩
      cases h
    rw [or_iff_left hrest]
    exact fails_error.trans fails_error.symm
  | ok a =>
    rw [or_iff_right (not_fails_ok a)]
    constructor
    · exact fun h => ⟨a, rfl, h⟩
    · rintro ⟨b, hb, h⟩
      obtain rfl := Except.ok.inj hb
      exact h

theorem fails_guard {p : ε → Prop} {q : Prop} [Decidable q] {e : ε} {x : Except ε α} :
    Fails p (if q then .error e else x) ↔ q ∧ p e ∨ ¬ q ∧ Fails p x := by
  by_cases hq : q
  · simp [hq, fails_error]
  · simp [hq]

end Outcome

namespace ByteCodec
open ByteText Outcome

/-! ## Numbers -/

/-- The number that bytes write, most significant byte first. -/
def natOf (bytes : Bytes) : Nat := bytes.foldl (fun n b => n * 256 + b.toNat) 0

/-- A number on a fixed count of bytes. -/
def bigEndian : Nat → Nat → Bytes
  | 0, _ => []
  | width + 1, n => bigEndian width (n / 256) ++ [UInt8.ofNat n]

theorem natOf_concat (bytes : Bytes) (b : UInt8) :
    natOf (bytes ++ [b]) = natOf bytes * 256 + b.toNat := by
  rw [natOf, List.foldl_append]
  rfl

theorem bigEndian_length (width n : Nat) : (bigEndian width n).length = width := by
  induction width generalizing n with
  | zero => rfl
  | succ width ih => rw [bigEndian, List.length_append, ih, List.length_singleton]

theorem natOf_bigEndian {width n : Nat} (h : n < 256 ^ width) : natOf (bigEndian width n) = n := by
  induction width generalizing n with
  | zero =>
    have hzero : n = 0 := by simpa using h
    rw [hzero]
    rfl
  | succ width ih =>
    have hdiv : n / 256 < 256 ^ width := by
      rw [Nat.pow_succ] at h
      omega
    rw [bigEndian, natOf_concat, ih hdiv, UInt8.toNat_ofNat']
    omega

theorem natOf_lt (bytes : Bytes) : natOf bytes < 256 ^ bytes.length := by
  induction bytes using List.reverseRecOn with
  | nil => decide
  | append_singleton bytes b ih =>
    have hb := b.toNat_lt
    rw [natOf_concat, List.length_append, List.length_singleton, Nat.pow_succ]
    omega

theorem bigEndian_natOf (bytes : Bytes) : bigEndian bytes.length (natOf bytes) = bytes := by
  induction bytes using List.reverseRecOn with
  | nil => rfl
  | append_singleton bytes b ih =>
    have hb := b.toNat_lt
    have hhigh : (natOf bytes * 256 + b.toNat) / 256 = natOf bytes := by omega
    have hlow : UInt8.ofNat (natOf bytes * 256 + b.toNat) = b := by
      apply UInt8.toNat_inj.mp
      rw [UInt8.toNat_ofNat']
      omega
    rw [List.length_append, List.length_singleton, bigEndian, natOf_concat, hhigh, ih, hlow]

/-! ## Readers -/

section Readers
variable {ε : Type}

/-- A fixed number of bytes. -/
def take (n : Nat) (error : ε) (data : Bytes) : Except ε (Bytes × Bytes) :=
  if data.length < n then .error error else .ok (data.take n, data.drop n)

/-- A number on a fixed count of bytes. -/
def number (width : Nat) (error : ε) (data : Bytes) : Except ε (Nat × Bytes) := do
  let (bytes, rest) ← take width error data
  .ok (natOf bytes, rest)

/-- A text that follows its length. -/
def counted (width : Nat) (error : ε) (data : Bytes) : Except ε (Bytes × Bytes) := do
  let (n, rest) ← number width error data
  take n error rest

/-- A text behind its length. -/
def frame (width : Nat) (text : Bytes) : Bytes := bigEndian width text.length ++ text

theorem take_eq_ok {n : Nat} {error : ε} {data text rest : Bytes} :
    take n error data = .ok (text, rest) ↔ data = text ++ rest ∧ text.length = n := by
  unfold take
  rw [guard_eq_ok]
  constructor
  · rintro ⟨hlong, h⟩
    obtain ⟨rfl, rfl⟩ := Prod.mk.inj (Except.ok.inj h)
    refine ⟨(List.take_append_drop n data).symm, ?_⟩
    rw [List.length_take]
    omega
  · rintro ⟨rfl, rfl⟩
    refine ⟨by simp, ?_⟩
    rw [List.take_left, List.drop_left]

theorem number_eq_ok {width n : Nat} {error : ε} {data rest : Bytes} :
    number width error data = .ok (n, rest) ↔
      data = bigEndian width n ++ rest ∧ n < 256 ^ width := by
  unfold number
  rw [bind_eq_ok]
  constructor
  · rintro ⟨⟨bytes, rest'⟩, htake, h⟩
    obtain ⟨rfl, rfl⟩ := take_eq_ok.mp htake
    obtain ⟨rfl, rfl⟩ := Prod.mk.inj (Except.ok.inj h)
    exact ⟨by rw [bigEndian_natOf], natOf_lt bytes⟩
  · rintro ⟨rfl, hlt⟩
    refine ⟨(bigEndian width n, rest), take_eq_ok.mpr ⟨rfl, bigEndian_length width n⟩, ?_⟩
    dsimp only
    rw [natOf_bigEndian hlt]

theorem number_append {width : Nat} {error : ε} {bytes : Bytes} (h : bytes.length = width)
    (rest : Bytes) : number width error (bytes ++ rest) = .ok (natOf bytes, rest) :=
  number_eq_ok.mpr ⟨by rw [← h, bigEndian_natOf], by rw [← h]; exact natOf_lt bytes⟩

theorem counted_eq_ok {width : Nat} {error : ε} {data text rest : Bytes} :
    counted width error data = .ok (text, rest) ↔
      data = frame width text ++ rest ∧ text.length < 256 ^ width := by
  unfold counted frame
  rw [bind_eq_ok]
  constructor
  · rintro ⟨⟨n, rest'⟩, hnumber, h⟩
    obtain ⟨rfl, hlt⟩ := number_eq_ok.mp hnumber
    obtain ⟨rfl, rfl⟩ := take_eq_ok.mp h
    exact ⟨by rw [List.append_assoc], hlt⟩
  · rintro ⟨rfl, hlt⟩
    refine ⟨(text.length, text ++ rest), number_eq_ok.mpr ⟨by rw [List.append_assoc], hlt⟩, ?_⟩
    exact take_eq_ok.mpr ⟨rfl, rfl⟩

theorem fails_take {p : ε → Prop} {n : Nat} {error : ε} {data : Bytes} :
    Fails p (take n error data) ↔ data.length < n ∧ p error := by
  unfold take
  rw [fails_guard, or_iff_left fun h => not_fails_ok _ h.2]

theorem fails_number {p : ε → Prop} {width : Nat} {error : ε} {data : Bytes} :
    Fails p (number width error data) ↔ data.length < width ∧ p error := by
  unfold number
  rw [fails_bind, fails_take, or_iff_left]
  rintro ⟨taken, -, h⟩
  exact not_fails_ok _ h

theorem not_fails_counted {p : ε → Prop} {width : Nat} {error : ε} (herror : ¬ p error)
    (data : Bytes) : ¬ Fails p (counted width error data) := by
  unfold counted
  rw [fails_bind, fails_number]
  rintro (h | ⟨counted, -, h⟩)
  · exact herror h.2
  · exact herror (fails_take.mp h).2

/-- So many bytes can be cut off. -/
theorem exists_append_of_le {n : Nat} {data : Bytes} (h : n ≤ data.length) :
    ∃ front rest, data = front ++ rest ∧ front.length = n :=
  ⟨data.take n, data.drop n, (List.take_append_drop n data).symm, List.length_take_of_le h⟩

/-! ## Entries -/

variable {α κ : Type}

/-- So many entries, each of which is admitted beside those before it. -/
def entries (read : Bytes → Except ε (α × Bytes)) (accept : List α → α → Except ε Unit) :
    Nat → List α → Bytes → Except ε (List α × Bytes)
  | 0, _, data => .ok ([], data)
  | n + 1, before, data => do
      let (entry, rest) ← read data
      accept before entry
      let (more, rest) ← entries read accept n (before ++ [entry]) rest
      .ok (entry :: more, rest)

/-- **What a counted list of entries accepts**, when each entry is described by its
encoding and admitted by a test of its own and a key that is new. -/
theorem entries_eq_ok {read : Bytes → Except ε (α × Bytes)}
    {accept : List α → α → Except ε Unit} {encode : α → Bytes} {Fits Good : α → Prop}
    {key : α → κ}
    (hread : ∀ {data entry rest}, read data = .ok (entry, rest) ↔
      data = encode entry ++ rest ∧ Fits entry)
    (haccept : ∀ {before entry}, accept before entry = .ok () ↔
      Good entry ∧ key entry ∉ before.map key)
    {n : Nat} {before list : List α} {data rest : Bytes} :
    entries read accept n before data = .ok (list, rest) ↔
      data = list.flatMap encode ++ rest ∧ list.length = n ∧
        (∀ entry ∈ list, Fits entry ∧ Good entry) ∧ (list.map key).Nodup ∧
        ∀ entry ∈ list, key entry ∉ before.map key := by
  induction n generalizing before list data with
  | zero =>
    rw [entries]
    constructor
    · intro h
      obtain ⟨rfl, rfl⟩ := Prod.mk.inj (Except.ok.inj h)
      simp
    · rintro ⟨rfl, hlength, -⟩
      obtain rfl := List.length_eq_zero_iff.mp hlength
      rfl
  | succ n ih =>
    rw [entries, bind_eq_ok]
    constructor
    · rintro ⟨⟨entry, rest₁⟩, hentry, h⟩
      obtain ⟨rfl, hfits⟩ := hread.mp hentry
      obtain ⟨⟨⟩, hnew, h⟩ := bind_eq_ok.mp h
      obtain ⟨⟨more, rest₂⟩, hmore, h⟩ := bind_eq_ok.mp h
      obtain ⟨rfl, rfl⟩ := Prod.mk.inj (Except.ok.inj h)
      obtain ⟨hgood, hfresh⟩ := haccept.mp hnew
      obtain ⟨rfl, hlength, hall, hnodup, hbefore⟩ := ih.mp hmore
      refine ⟨by simp, by simp [hlength], ?_, ?_, ?_⟩
      · intro x hx
        rcases List.mem_cons.mp hx with rfl | hx
        · exact ⟨hfits, hgood⟩
        · exact hall x hx
      -- every later key was compared with this one too
      · rw [List.map_cons, List.nodup_cons]
        refine ⟨fun hmem => ?_, hnodup⟩
        obtain ⟨x, hx, hkey⟩ := List.mem_map.mp hmem
        exact hbefore x hx (by simp [hkey])
      · intro x hx
        rcases List.mem_cons.mp hx with rfl | hx
        · exact hfresh
        · intro hmem
          exact hbefore x hx (by simp [List.mem_map.mp hmem])
    · rintro ⟨rfl, hlength, hall, hnodup, hbefore⟩
      cases list with
      | nil => cases hlength
      | cons entry more =>
        rw [List.map_cons, List.nodup_cons] at hnodup
        obtain ⟨hfits, hgood⟩ := hall entry (List.mem_cons_self ..)
        refine ⟨(entry, more.flatMap encode ++ rest), hread.mpr ⟨by simp, hfits⟩, ?_⟩
        refine bind_eq_ok.mpr ⟨(), haccept.mpr ⟨hgood, hbefore entry (List.mem_cons_self ..)⟩, ?_⟩
        refine bind_eq_ok.mpr ⟨(more, rest), ih.mpr ⟨rfl, by simpa using hlength, ?_, hnodup.2, ?_⟩,
          rfl⟩
        · exact fun x hx => hall x (List.mem_cons_of_mem _ hx)
        · intro x hx hmem
          rw [List.map_append, List.mem_append] at hmem
          rcases hmem with hmem | hmem
          · exact hbefore x (List.mem_cons_of_mem _ hx) hmem
          · have hkey : key x = key entry := by simpa using hmem
            exact hnodup.1 (hkey ▸ List.mem_map_of_mem hx)

/-- A reader that refuses the entries without a property reads a list when all its entries have
it. -/
theorem entries_guarded {read : Bytes → Except ε (α × Bytes)}
    {accept : List α → α → Except ε Unit} {P : α → Prop} [DecidablePred P] {error : ε}
    {n : Nat} {before list : List α} {data rest : Bytes} :
    entries (fun data => (read data).bind fun out => if ¬ P out.1 then .error error else .ok out)
        accept n before data = .ok (list, rest) ↔
      entries read accept n before data = .ok (list, rest) ∧ ∀ entry ∈ list, P entry := by
  induction n generalizing before list data with
  | zero =>
    rw [entries, entries]
    constructor
    · intro h
      obtain ⟨rfl, rfl⟩ := Prod.mk.inj (Except.ok.inj h)
      exact ⟨rfl, fun entry hmem => absurd hmem List.not_mem_nil⟩
    · exact And.left
  | succ n ih =>
    rw [entries, bind_eq_ok, entries, bind_eq_ok]
    constructor
    · rintro ⟨⟨entry, rest₁⟩, hguarded, h⟩
      obtain ⟨⟨entry', rest₂⟩, hread, hguarded⟩ := bind_eq_ok.mp hguarded
      obtain ⟨hentry, hguarded⟩ := guard_eq_ok.mp hguarded
      obtain ⟨rfl, rfl⟩ := Prod.mk.inj (Except.ok.inj hguarded)
      obtain ⟨⟨⟩, hnew, h⟩ := bind_eq_ok.mp h
      obtain ⟨⟨more, rest₃⟩, hmore, h⟩ := bind_eq_ok.mp h
      obtain ⟨rfl, rfl⟩ := Prod.mk.inj (Except.ok.inj h)
      obtain ⟨hmore, hall⟩ := ih.mp hmore
      refine ⟨⟨_, hread, bind_eq_ok.mpr ⟨(), hnew, bind_eq_ok.mpr ⟨_, hmore, rfl⟩⟩⟩, ?_⟩
      intro x hx
      rcases List.mem_cons.mp hx with rfl | hx
      · exact not_not.mp hentry
      · exact hall x hx
    · rintro ⟨⟨⟨entry, rest₁⟩, hread, h⟩, hall⟩
      obtain ⟨⟨⟩, hnew, h⟩ := bind_eq_ok.mp h
      obtain ⟨⟨more, rest₂⟩, hmore, h⟩ := bind_eq_ok.mp h
      obtain ⟨rfl, rfl⟩ := Prod.mk.inj (Except.ok.inj h)
      have hentry := hall entry (List.mem_cons_self ..)
      refine ⟨(entry, rest₁), bind_eq_ok.mpr ⟨_, hread, if_neg (not_not.mpr hentry)⟩, ?_⟩
      refine bind_eq_ok.mpr ⟨(), hnew, bind_eq_ok.mpr ⟨(more, rest₂), ih.mpr ⟨hmore, ?_⟩, rfl⟩⟩
      exact fun x hx => hall x (List.mem_cons_of_mem _ hx)

/-- **Where a counted list of entries fails**, when the tests of an entry fail with errors of
another kind: at an entry after admitted ones that are fewer than the count. -/
theorem fails_entries {p : ε → Prop} {read : Bytes → Except ε (α × Bytes)}
    {accept : List α → α → Except ε Unit} {encode : α → Bytes} {Fits Good : α → Prop}
    {key : α → κ}
    (hread : ∀ {data entry rest}, read data = .ok (entry, rest) ↔
      data = encode entry ++ rest ∧ Fits entry)
    (haccept : ∀ {before entry}, accept before entry = .ok () ↔
      Good entry ∧ key entry ∉ before.map key)
    (htests : ∀ before entry, ¬ Fails p (accept before entry))
    {n : Nat} {before : List α} {data : Bytes} :
    Fails p (entries read accept n before data) ↔
      ∃ (list : List α) (rest : Bytes), data = list.flatMap encode ++ rest ∧ list.length < n ∧
        (∀ entry ∈ list, Fits entry ∧ Good entry) ∧ (list.map key).Nodup ∧
        (∀ entry ∈ list, key entry ∉ before.map key) ∧ Fails p (read rest) := by
  induction n generalizing before data with
  | zero =>
    refine iff_of_false (not_fails_ok _) ?_
    rintro ⟨list, rest, -, hlength, -⟩
    exact Nat.not_lt_zero _ hlength
  | succ n ih =>
    have hstep : Fails p (entries read accept (n + 1) before data) ↔ Fails p (read data) ∨
        ∃ entry rest, (data = encode entry ++ rest ∧ Fits entry) ∧
          (Good entry ∧ key entry ∉ before.map key) ∧
          Fails p (entries read accept n (before ++ [entry]) rest) := by
      rw [entries, fails_bind]
      refine or_congr_right ?_
      constructor
      · rintro ⟨⟨entry, rest⟩, hentry, h⟩
        rcases fails_bind.mp h with h | ⟨⟨⟩, hnew, h⟩
        · exact absurd h (htests _ _)
        rcases fails_bind.mp h with h | ⟨more, -, h⟩
        · exact ⟨entry, rest, hread.mp hentry, haccept.mp hnew, h⟩
        · exact absurd h (not_fails_ok _)
      · rintro ⟨entry, rest, hentry, hnew, h⟩
        exact ⟨(entry, rest), hread.mpr hentry,
          fails_bind.mpr (.inr ⟨(), haccept.mpr hnew, fails_bind.mpr (.inl h)⟩)⟩
    rw [hstep]
    constructor
    · rintro (h | ⟨entry, rest, ⟨rfl, hfits⟩, ⟨hgood, hfresh⟩, h⟩)
      · exact ⟨[], data, rfl, Nat.succ_pos n, by simp, by simp, by simp, h⟩
      · obtain ⟨list, last, rfl, hlength, hall, hnodup, hbefore, h⟩ := ih.mp h
        refine ⟨entry :: list, last, by simp, by simpa using hlength,
          List.forall_mem_cons.mpr ⟨⟨hfits, hgood⟩, hall⟩, ?_, ?_, h⟩
        · rw [List.map_cons, List.nodup_cons]
          refine ⟨fun hmem => ?_, hnodup⟩
          obtain ⟨x, hx, hkey⟩ := List.mem_map.mp hmem
          exact hbefore x hx (by simp [hkey])
        · exact List.forall_mem_cons.mpr ⟨hfresh, fun x hx hmem =>
            hbefore x hx (by simp [List.mem_map.mp hmem])⟩
    · rintro ⟨list, last, rfl, hlength, hall, hnodup, hbefore, h⟩
      cases list with
      | nil => exact .inl h
      | cons entry list =>
        rw [List.map_cons, List.nodup_cons] at hnodup
        obtain ⟨⟨hfits, hgood⟩, hall⟩ := List.forall_mem_cons.mp hall
        obtain ⟨hfresh, hbefore⟩ := List.forall_mem_cons.mp hbefore
        refine .inr ⟨entry, list.flatMap encode ++ last, ⟨by simp, hfits⟩, ⟨hgood, hfresh⟩,
          ih.mpr ⟨list, last, rfl, by simpa using hlength, hall, hnodup.2, ?_, h⟩⟩
        intro x hx hmem
        rw [List.map_append, List.mem_append] at hmem
        rcases hmem with hmem | hmem
        · exact hbefore x hx hmem
        · have hkey : key x = key entry := by simpa using hmem
          exact hnodup.1 (hkey ▸ List.mem_map_of_mem hx)

end Readers
end ByteCodec
