import SwmSdk.ByteText

/-! # JSON values

The values of the C++ JSON library: an integer is stored as unsigned unless it
was written with a sign, a number that fits neither 64-bit type is a double, and
an object is an ordered map in which a later member of the same name replaces an
earlier one (`fromMembers`).  Doubles are kept as sign, significand and binary
exponent, rounded as `strtod` rounds.
-/
namespace SwmSdk
open ByteText

/-- A finite double: `significand * 2 ^ exponent`. -/
structure Binary64 where
  negative : Bool
  significand : Nat
  exponent : Int
  deriving DecidableEq, Repr

namespace Binary64

/-- `numerator / denominator` rounded to the nearest integer, ties to even. -/
def roundHalfEven (numerator denominator : Nat) : Nat :=
  let quotient := numerator / denominator
  let remainder := numerator % denominator
  if 2 * remainder > denominator ∨ (2 * remainder = denominator ∧ quotient % 2 = 1) then
    quotient + 1
  else quotient

/-- `numerator / (denominator * 2 ^ exponent)`, rounded. -/
def scaled (numerator denominator : Nat) (exponent : Int) : Nat :=
  if exponent < 0 then roundHalfEven (numerator * 2 ^ exponent.natAbs) denominator
  else roundHalfEven numerator (denominator * 2 ^ exponent.natAbs)

/-- The double nearest to a positive rational; none when it is not finite. -/
def ofRatio (negative : Bool) (numerator denominator : Nat) : Option Binary64 :=
  if numerator = 0 then some ⟨negative, 0, -1074⟩
  else
    let guess : Int := (Nat.log2 numerator : Int) - Nat.log2 denominator - 53
    let base := if scaled numerator denominator guess < 2 ^ 53 then guess else guess + 1
    let exponent := max base (-1074)
    let significand := scaled numerator denominator exponent
    -- rounding up may reach the next power of two
    let (significand, exponent) :=
      if significand = 2 ^ 53 then (2 ^ 52, exponent + 1) else (significand, exponent)
    if exponent > 971 then none else some ⟨negative, significand, exponent⟩

/-- `strtod` on a numeral: its digits as a number and its decimal exponent. -/
def ofDecimal (negative : Bool) (digits : Nat) (exponent : Int) : Option Binary64 :=
  if exponent < 0 then ofRatio negative digits (10 ^ exponent.natAbs)
  else ofRatio negative (digits * 10 ^ exponent.natAbs) 1

/-- The integer part, toward zero. -/
def truncate (x : Binary64) : Int :=
  let magnitude : Nat :=
    if x.exponent < 0 then x.significand / 2 ^ x.exponent.natAbs
    else x.significand * 2 ^ x.exponent.natAbs
  if x.negative then -(magnitude : Int) else magnitude

end Binary64

/-- `nlohmann::json`. -/
inductive Json where
  | null
  | boolean (value : Bool)
  | unsigned (value : Nat)
  | integer (value : Int)
  | float (value : Binary64)
  | string (value : Bytes)
  | array (items : List Json)
  | object (members : List (Bytes × Json))
  deriving Repr

namespace Json

/-- The order of keys in an object. -/
def keyLt : Bytes → Bytes → Bool
  | [], [] => false
  | [], _ :: _ => true
  | _ :: _, [] => false
  | a :: as, b :: bs => if a = b then keyLt as bs else a < b

/-- `object[key] = value`. -/
def insert (key : Bytes) (value : Json) : List (Bytes × Json) → List (Bytes × Json)
  | [] => [(key, value)]
  | (k, v) :: rest =>
      if key = k then (key, value) :: rest
      else if keyLt key k then (key, value) :: (k, v) :: rest
      else (k, v) :: insert key value rest

/-- The object of a list of members, in the order they are read. -/
def fromMembers (members : List (Bytes × Json)) : List (Bytes × Json) :=
  members.foldl (fun object member => insert member.1 member.2 object) []

/-- The value stored under a key. -/
def lookup (key : Bytes) (object : List (Bytes × Json)) : Option Json :=
  (object.find? (fun member => member.1 = key)).map Prod.snd

/-- `value.find(key)`. -/
def find (value : Json) (key : Bytes) : Option Json :=
  match value with
  | .object members => lookup key members
  | _ => none

theorem lookup_insert (key k : Bytes) (value : Json) (object : List (Bytes × Json)) :
    lookup k (insert key value object) = if key = k then some value else lookup k object := by
  induction object with
  | nil =>
    by_cases hk : key = k
    · simp [insert, lookup, hk]
    · simp [insert, lookup, hk]
  | cons member object ih =>
    obtain ⟨m, v⟩ := member
    rw [insert]
    split
    · rename_i hm
      subst hm
      by_cases hk : key = k
      · simp [lookup, hk]
      · simp [lookup, hk]
    · rename_i hm
      split
      · by_cases hk : key = k
        · simp [lookup, hk]
        · simp [lookup, hk]
      · by_cases hmk : m = k
        · subst hmk
          simp [lookup, hm]
        · have hskip : ∀ rest, lookup k ((m, v) :: rest) = lookup k rest := by
            intro rest
            simp [lookup, hmk]
          rw [hskip, hskip, ih]

/-- The values of the members of a name, in their order. -/
def valuesOf {α : Type} (key : Bytes) (members : List (Bytes × α)) : List α :=
  (members.filter fun member => member.1 = key).map Prod.snd

@[simp] theorem valuesOf_nil {α : Type} (key : Bytes) :
    valuesOf key ([] : List (Bytes × α)) = [] := rfl

theorem valuesOf_cons {α : Type} (key : Bytes) (member : Bytes × α)
    (members : List (Bytes × α)) :
    valuesOf key (member :: members) =
      if member.1 = key then member.2 :: valuesOf key members else valuesOf key members := by
  by_cases hk : member.1 = key
  · rw [if_pos hk, valuesOf, List.filter_cons_of_pos (by simpa using hk), List.map_cons, valuesOf]
  · rw [if_neg hk, valuesOf, List.filter_cons_of_neg (by simpa using hk), valuesOf]

theorem valuesOf_append {α : Type} (key : Bytes) (first second : List (Bytes × α)) :
    valuesOf key (first ++ second) = valuesOf key first ++ valuesOf key second := by
  rw [valuesOf, List.filter_append, List.map_append]
  rfl

/-- **The last member of a name wins.** -/
theorem lookup_fromMembers (key : Bytes) (members : List (Bytes × Json)) :
    lookup key (fromMembers members) = (valuesOf key members).getLast? := by
  have fold : ∀ object, lookup key (members.foldl
      (fun object member => insert member.1 member.2 object) object) =
        (valuesOf key members).getLast?.or (lookup key object) := by
    induction members with
    | nil => intro object; rfl
    | cons member members ih =>
      intro object
      rw [List.foldl_cons, ih, lookup_insert, valuesOf_cons]
      by_cases hk : member.1 = key
      · rw [if_pos hk, if_pos hk]
        cases valuesOf key members with
        | nil => rfl
        | cons v vs => simp [List.getLast?_cons]
      · rw [if_neg hk, if_neg hk]
  rw [fromMembers, fold, lookup]
  simp

end Json
end SwmSdk
