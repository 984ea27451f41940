import Mathlib.Data.List.Prime
import Mathlib.FieldTheory.Finite.Basic
import Mathlib.RingTheory.Int.Basic
import Mathlib.NumberTheory.LucasPrimality
import Mathlib.Tactic.NormNum.Prime

/-! # Powers and inverses of a prime modulus

The power of a number under a remainder, by repeated squaring.  The remainder is a parameter,
because the libraries of the languages do not agree on its sign.  The same power, evaluated,
certifies a large prime by Lucas's test, when the factors of its predecessor are prime
(`Certificate.prime`).  The inverse is read off the extended Euclidean algorithm, or is a power
by Fermat's little theorem (`cast_inverse`, `cast_fermat`).
-/
namespace PrimeModulus

/-! ## Powers -/

/-- A remainder that products may take early. -/
structure IsRemainder (rem : Int → Int) : Prop where
  idem : ∀ a, rem (rem a) = rem a
  mul : ∀ a b, rem (rem a * rem b) = rem (a * b)

/-- The power under a remainder, for an exponent of so many bits. -/
def powerBits (rem : Int → Int) : Nat → Int → Nat → Int
  | 0, _, _ => rem 1
  | bits + 1, base, exponent =>
      let even := powerBits rem bits (rem (base * base)) (exponent / 2)
      if exponent % 2 = 1 then rem (even * base) else even

/-- The power under a remainder. -/
def power (rem : Int → Int) (base : Int) (exponent : Nat) : Int :=
  powerBits rem (exponent.log2 + 1) base exponent

section Power
variable {rem : Int → Int}

theorem IsRemainder.mul_left (h : IsRemainder rem) (a b : Int) : rem (rem a * b) = rem (a * b) := by
  rw [← h.mul (rem a) b, h.idem, h.mul]

theorem IsRemainder.pow (h : IsRemainder rem) (a : Int) (n : Nat) :
    rem (rem a ^ n) = rem (a ^ n) := by
  induction n with
  | zero => rw [pow_zero, pow_zero]
  | succ n ih => rw [pow_succ, pow_succ, ← h.mul, ih, h.idem, h.mul]

theorem powerBits_eq (h : IsRemainder rem) {bits exponent : Nat} (base : Int)
    (hlt : exponent < 2 ^ bits) : powerBits rem bits base exponent = rem (base ^ exponent) := by
  induction bits generalizing base exponent with
  | zero =>
    have hzero : exponent = 0 := by simpa using hlt
    rw [hzero, pow_zero]
    rfl
  | succ bits ih =>
    have hhalf : exponent / 2 < 2 ^ bits := by
      rw [pow_succ] at hlt
      omega
    have heven : powerBits rem bits (rem (base * base)) (exponent / 2) =
        rem (base ^ (2 * (exponent / 2))) := by
      rw [ih _ hhalf, h.pow, pow_mul, sq]
    rw [powerBits, heven]
    by_cases hodd : exponent % 2 = 1
    · rw [if_pos hodd, h.mul_left, ← pow_succ]
      congr 2
      omega
    · rw [if_neg hodd]
      congr 2
      omega

theorem power_eq (h : IsRemainder rem) (base : Int) (exponent : Nat) :
    power rem base exponent = rem (base ^ exponent) :=
  powerBits_eq h base Nat.lt_log2_self

end Power

theorem isRemainder_emod (m : Int) : IsRemainder (· % m) where
  idem a := Int.emod_emod_of_dvd a (dvd_refl m)
  mul a b := (Int.mul_emod a b m).symm

/-- The remainder with the sign of the dividend. -/
theorem isRemainder_tmod (m : Int) : IsRemainder (Int.tmod · m) where
  idem a := Int.tmod_tmod_of_dvd a (dvd_refl m)
  mul a b := (Int.mul_tmod a b m).symm

/-! ## A large prime -/

theorem cast_eq_one_iff {p : Nat} (hp : 1 < p) (a : Int) : (a : ZMod p) = 1 ↔ a % p = 1 := by
  rw [← Int.cast_one, ZMod.intCast_eq_intCast_iff',
    Int.emod_eq_of_lt (a := 1) (by omega) (by omega)]

/-- A certificate of a prime: its predecessor as a product, and a base of full order. -/
structure Certificate (p : Nat) (base : Int) (factors : List Nat) : Prop where
  one_lt : 1 < p
  prod : factors.prod = p - 1
  full : power (· % (p : Int)) base (p - 1) = 1
  part : ∀ q ∈ factors, power (· % (p : Int)) base ((p - 1) / q) ≠ 1

instance (p : Nat) (base : Int) (factors : List Nat) : Decidable (Certificate p base factors) :=
  decidable_of_iff (1 < p ∧ factors.prod = p - 1 ∧ power (· % (p : Int)) base (p - 1) = 1 ∧
      ∀ q ∈ factors, power (· % (p : Int)) base ((p - 1) / q) ≠ 1)
    ⟨fun ⟨one_lt, prod, full, part⟩ => ⟨one_lt, prod, full, part⟩,
      fun h => ⟨h.one_lt, h.prod, h.full, h.part⟩⟩

/-- **Lucas's test.**  A base has full order when none of its powers by the prime factors of
the predecessor is one. -/
theorem Certificate.prime {p : Nat} {base : Int} {factors : List Nat}
    (h : Certificate p base factors) (hprime : ∀ q ∈ factors, q.Prime) : p.Prime := by
  have hpow : ∀ n : Nat, (base : ZMod p) ^ n = 1 ↔ power (· % (p : Int)) base n = 1 := by
    intro n
    rw [power_eq (isRemainder_emod p), ← Int.cast_pow, cast_eq_one_iff h.one_lt]
  apply lucas_primality p (base : ZMod p) ((hpow _).mpr h.full)
  intro q hq hdvd
  -- a prime that divides the product of primes is one of them
  rw [← h.prod, Prime.dvd_prod_iff hq.prime] at hdvd
  obtain ⟨r, hr, hqr⟩ := hdvd
  have heq : q = r := (Nat.prime_dvd_prime_iff_eq hq (hprime r hr)).mp hqr
  rw [heq, Ne, hpow]
  exact h.part r hr

/-! ## Inverses -/

section Inverse
variable {p : Nat}

theorem cast_emod (a : Int) : ((a % p : Int) : ZMod p) = a := by
  rw [ZMod.intCast_eq_intCast_iff']
  exact Int.emod_emod_of_dvd a (dvd_refl _)

theorem cast_tmod (a : Int) : ((a.tmod p : Int) : ZMod p) = a := by
  rw [Int.tmod_def, Int.cast_sub, Int.cast_mul, Int.cast_natCast, ZMod.natCast_self, zero_mul,
    sub_zero]

variable [Fact p.Prime] {d : Int}

/-- The inverse by Fermat's little theorem. -/
theorem cast_fermat (hd : (d : ZMod p) ≠ 0) : ((d ^ (p - 2) : Int) : ZMod p) = (d : ZMod p)⁻¹ := by
  have htwo : 2 ≤ p := (Fact.out : p.Prime).two_le
  apply eq_inv_of_mul_eq_one_left
  rw [Int.cast_pow, ← pow_succ]
  have hexp : p - 2 + 1 = p - 1 := by omega
  rw [hexp, ZMod.pow_card_sub_one_eq_one hd]

theorem gcd_eq_one (hd : (d : ZMod p) ≠ 0) : Int.gcd d p = 1 := by
  have hprime : p.Prime := Fact.out
  rw [Int.gcd_comm, ← Int.isCoprime_iff_gcd_eq_one]
  apply (Nat.prime_iff_prime_int.mp hprime).coprime_iff_not_dvd.mpr
  rwa [← ZMod.intCast_zmod_eq_zero_iff_dvd]

/-- The inverse by the extended Euclidean algorithm. -/
theorem cast_gcdA (hd : (d : ZMod p) ≠ 0) : ((Int.gcdA d p : Int) : ZMod p) = (d : ZMod p)⁻¹ := by
  have hbezout := Int.gcd_eq_gcd_ab d p
  rw [gcd_eq_one hd] at hbezout
  apply eq_inv_of_mul_eq_one_right
  have hcast := congrArg (Int.cast : Int → ZMod p) hbezout
  push_cast at hcast
  rw [ZMod.natCast_self, zero_mul, add_zero] at hcast
  exact hcast.symm

end Inverse

end PrimeModulus
