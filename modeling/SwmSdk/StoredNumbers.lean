import SwmSdk.Nlohmann
import Mathlib.Data.Rat.Cast.Order
import Mathlib.Tactic.FieldSimp
import Mathlib.Algebra.Order.Field.Power
import Mathlib.Tactic.Positivity
import Mathlib.Tactic.Linarith

/-! # The numbers of a parsed document

The parser stores an integer in one of two 64-bit types (`parse_stored`).  What a
stored number stands for is a mathematical integer, if it is one (`Denotes`).
-/
namespace SwmSdk
open ByteText

/-- Every integer of the value fits the type it is stored in. -/
inductive Json.Stored : Json → Prop
  | null : Stored .null
  | boolean (b : Bool) : Stored (.boolean b)
  | unsigned {n : Nat} (h : n < 2 ^ 64) : Stored (.unsigned n)
  | integer {n : Int} (hlow : -2 ^ 63 ≤ n) (hhigh : n < 2 ^ 63) : Stored (.integer n)
  | float (x : Binary64) : Stored (.float x)
  | string (text : Bytes) : Stored (.string text)
  | array {items : List Json} (h : ∀ v ∈ items, Stored v) : Stored (.array items)
  | object {members : List (Bytes × Json)} (h : ∀ member ∈ members, Stored member.2) :
      Stored (.object members)

namespace Json

theorem mem_insert {key : Bytes} {v : Json} {object : List (Bytes × Json)}
    {member : Bytes × Json} (h : member ∈ insert key v object) :
    member = (key, v) ∨ member ∈ object := by
  induction object with
  | nil => simpa [insert] using h
  | cons first rest ih =>
    rw [insert] at h
    split at h
    · rcases List.mem_cons.mp h with rfl | hrest
      · exact .inl rfl
      · exact .inr (List.mem_cons_of_mem _ hrest)
    · split at h
      · exact List.mem_cons.mp h
      · rcases List.mem_cons.mp h with rfl | hrest
        · exact .inr List.mem_cons_self
        · exact (ih hrest).imp id (List.mem_cons_of_mem _)

theorem mem_fromMembers {all : List (Bytes × Json)} {member : Bytes × Json}
    (h : member ∈ fromMembers all) : member ∈ all := by
  have insertAll : ∀ object : List (Bytes × Json),
      member ∈ all.foldl (fun object m => insert m.1 m.2 object) object →
        member ∈ object ∨ member ∈ all := by
    clear h
    induction all with
    | nil => exact fun object h => .inl h
    | cons first rest ih =>
      intro object hmem
      rcases ih (insert first.1 first.2 object) hmem with hinsert | hrest
      · rcases mem_insert hinsert with rfl | hobject
        · exact .inr List.mem_cons_self
        · exact .inl hobject
      · exact .inr (List.mem_cons_of_mem _ hrest)
  rcases insertAll [] h with hnone | hall
  · cases hnone
  · exact hall

theorem Stored.fromMembers {all : List (Bytes × Json)} (h : ∀ member ∈ all, Stored member.2) :
    Stored (.object (Json.fromMembers all)) :=
  .object fun member hmem => h member (mem_fromMembers hmem)

/-- The values of a stored object are stored. -/
theorem Stored.find {object v : Json} {key : Bytes} (h : Stored object)
    (hfind : object.find key = some v) : Stored v := by
  cases h with
  | object h =>
    rw [Json.find, lookup, Option.map_eq_some_iff] at hfind
    obtain ⟨member, hmember, rfl⟩ := hfind
    exact h member (List.mem_of_find?_eq_some hmember)
  | _ => cases hfind

end Json

namespace Nlohmann
open Json

theorem numberValue_stored {negative : Bool} {whole : Bytes} {fraction : Option Bytes}
    {exponent : Option Int} {v : Json} (h : numberValue negative whole fraction exponent = some v) :
    v.Stored := by
  have hfloat : ∀ {x : Option Binary64}, x.map Json.float = some v → v.Stored := by
    intro x hx
    obtain ⟨y, -, rfl⟩ := Option.map_eq_some_iff.mp hx
    exact .float y
  unfold numberValue at h
  dsimp only at h
  split at h
  · split at h
    · split at h
      · cases h
        exact .integer (by omega) (by omega)
      · exact hfloat h
    · split at h
      · cases h
        exact .unsigned ‹_›
      · exact hfloat h
  · exact hfloat h

theorem scan_stored {comments : Bool} {s rest : Bytes} {v : Json}
    (h : scan comments s = some (.scalar v, rest)) : v.Stored := by
  obtain ⟨t, -, htoken⟩ := Option.bind_eq_some_iff.mp h
  rcases scanToken_scalar htoken with rfl | rfl | rfl | ⟨_, _, _, _, hnumber⟩
  · exact .boolean true
  · exact .boolean false
  · exact .null
  · exact numberValue_stored hnumber

/-- What the parser reads with this fuel is stored. -/
structure StoresAll (comments : Bool) (fuel : Nat) : Prop where
  value : ∀ {s v rest}, value comments fuel s = some (v, rest) → v.Stored
  elements : ∀ {s vs rest}, elements comments fuel s = some (vs, rest) → ∀ v ∈ vs, v.Stored
  members : ∀ {key s ms rest}, members comments fuel key s = some (ms, rest) →
    ∀ member ∈ ms, member.2.Stored

section Parse
variable {comments : Bool}

theorem storesAll_value {fuel : Nat} (ih : StoresAll comments fuel) {s rest : Bytes} {v : Json}
    (h : Nlohmann.value comments (fuel + 1) s = some (v, rest)) : v.Stored := by
  rw [Nlohmann.value] at h
  split at h
  · split at h
    · cases h
      exact .object (by simp)
    · obtain ⟨⟨all, out⟩, hmembers, he⟩ := Option.map_eq_some_iff.mp h
      cases he
      exact .fromMembers (ih.members hmembers)
    · cases h
  · split at h
    · cases h
      exact .array (by simp)
    · obtain ⟨⟨items, out⟩, helements, he⟩ := Option.map_eq_some_iff.mp h
      cases he
      exact .array (ih.elements helements)
  · cases h
    exact .string _
  · cases h
    exact scan_stored ‹_›
  · cases h

theorem storesAll_elements {fuel : Nat} (ih : StoresAll comments fuel) {s rest : Bytes}
    {vs : List Json} (h : Nlohmann.elements comments (fuel + 1) s = some (vs, rest)) :
    ∀ v ∈ vs, v.Stored := by
  rw [Nlohmann.elements] at h
  obtain ⟨⟨v, out⟩, hvalue, h⟩ := Option.bind_eq_some_iff.mp h
  dsimp only at h
  split at h
  · obtain ⟨⟨us, out'⟩, helements, he⟩ := Option.map_eq_some_iff.mp h
    cases he
    exact List.forall_mem_cons.mpr ⟨ih.value hvalue, ih.elements helements⟩
  · cases h
    exact List.forall_mem_singleton.mpr (ih.value hvalue)
  · cases h

theorem storesAll_members {fuel : Nat} (ih : StoresAll comments fuel) {key s rest : Bytes}
    {ms : List (Bytes × Json)}
    (h : Nlohmann.members comments (fuel + 1) key s = some (ms, rest)) :
    ∀ member ∈ ms, member.2.Stored := by
  rw [Nlohmann.members] at h
  split at h
  · obtain ⟨⟨v, out⟩, hvalue, h⟩ := Option.bind_eq_some_iff.mp h
    dsimp only at h
    split at h
    · split at h
      · obtain ⟨⟨us, out'⟩, hmembers, he⟩ := Option.map_eq_some_iff.mp h
        cases he
        exact List.forall_mem_cons.mpr ⟨ih.value hvalue, ih.members hmembers⟩
      · cases h
    · cases h
      exact List.forall_mem_singleton.mpr (ih.value hvalue)
    · cases h
  · cases h

theorem storesAll (fuel : Nat) : StoresAll comments fuel := by
  induction fuel with
  | zero =>
    constructor
    · intro s v rest h
      rw [Nlohmann.value] at h
      cases h
    · intro s vs rest h
      rw [Nlohmann.elements] at h
      cases h
    · intro key s ms rest h
      rw [Nlohmann.members] at h
      cases h
  | succ fuel ih =>
    constructor
    · exact storesAll_value ih
    · exact storesAll_elements ih
    · exact storesAll_members ih

/-- **A parsed document holds no integer that its 64-bit type does not.** -/
theorem parse_stored {document : Bytes} {v : Json} (h : parse comments document = some v) :
    v.Stored := by
  simp only [parse, Option.bind_eq_bind, Option.bind_eq_some_iff] at h
  obtain ⟨s, -, ⟨u, rest⟩, hvalue, hend⟩ := h
  split at hend
  · cases hend
    exact (storesAll _).value hvalue
  · cases hend

end Parse
end Nlohmann

/-! ## What a number stands for -/

/-- The number a double stands for. -/
def Binary64.toRat (x : Binary64) : ℚ :=
  (if x.negative then -1 else 1) * (x.significand * 2 ^ x.exponent)

/-- A quotient or product by a power of two that is whole. -/
theorem Binary64.magnitude_of_whole {significand : Nat} {exponent : Int} {k : Nat}
    (h : (significand * 2 ^ exponent : ℚ) = k) :
    (if exponent < 0 then significand / 2 ^ exponent.natAbs
      else significand * 2 ^ exponent.natAbs) = k := by
  split
  · rename_i hneg
    rw [show exponent = -(exponent.natAbs : Int) by omega, zpow_neg, zpow_natCast] at h
    have hprod : significand = 2 ^ exponent.natAbs * k := by
      field_simp at h
      exact_mod_cast h
    rw [hprod, Nat.mul_div_cancel_left _ (by positivity)]
  · rename_i hpos
    rw [show exponent = (exponent.natAbs : Int) by omega, zpow_natCast] at h
    exact_mod_cast h

/-- The integer part of a whole number is the number. -/
theorem Binary64.truncate_of_toRat {x : Binary64} {n : Int} (h : x.toRat = n) :
    x.truncate = n := by
  have hnonneg : (0 : ℚ) ≤ x.significand * 2 ^ x.exponent := by positivity
  unfold truncate
  dsimp only
  rw [toRat] at h
  split at h
  · rename_i hneg
    have hle : n ≤ 0 := by
      have hle : (n : ℚ) ≤ 0 := by linarith
      exact_mod_cast hle
    have hn : (x.significand * 2 ^ x.exponent : ℚ) = (n.natAbs : Nat) := by
      rw [Nat.cast_natAbs, abs_of_nonpos hle]
      push_cast
      linarith
    rw [if_pos hneg, magnitude_of_whole hn]
    omega
  · rename_i hneg
    have hle : 0 ≤ n := by
      have hle : (0 : ℚ) ≤ n := by linarith
      exact_mod_cast hle
    have hn : (x.significand * 2 ^ x.exponent : ℚ) = (n.natAbs : Nat) := by
      rw [Nat.cast_natAbs, abs_of_nonneg hle]
      linarith
    rw [if_neg hneg, magnitude_of_whole hn]
    omega

/-- The value is a number and stands for this integer. -/
def Json.Denotes : Json → Int → Prop
  | .unsigned m, n => (m : Int) = n
  | .integer m, n => m = n
  | .float x, n => x.toRat = n
  | _, _ => False

end SwmSdk
