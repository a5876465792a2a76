import Mathlib.Algebra.Order.Field.Power
import Mathlib.Algebra.Order.Field.Rat
import Mathlib.Data.Nat.Cast.Order.Field
import Mathlib.Tactic.FieldSimp
import Mathlib.Tactic.Linarith
import Mathlib.Tactic.NormNum
import Mathlib.Tactic.Positivity
import Mathlib.Tactic.Ring
import RpcReference.Decimal.Binary64

/-!
# Bounds for rounded numbers

The magnitude of a binary64 number is a rational number, `Binary64.value`.  What is shown about
rounding is what the reading of decimals needs: that it gives a number at all, and that it does not
pass a number that needs no rounding.

* `Binary64.ofQuotient?_isSome` — **a quotient below `Binary64.bound` can be rounded**; the bound
  lies half a unit above the greatest number.
* `Binary64.value_le_of_ofQuotient?` — rounding does not pass a multiple of a power of two with at
  most 53 binary digits.
* `Binary64.mul?_isSome`, `Binary64.div?_isSome` — products and quotients that exist.
-/

set_option autoImplicit false

namespace RpcReference.Binary64

/-! ## Rounding to a natural number

A quotient is rounded to the nearest natural number, and of two to the even one.  For bounds it does
not matter which of two it is: rounding goes past no natural number, upwards or downwards. -/

/-- What is less than half a unit above a natural number is not rounded past it. -/
theorem roundQuotient_le {num den k : Nat} (h : 2 * num < (2 * k + 1) * den) :
    roundQuotient num den ≤ k := by
  have hdiv : den * (num / den) + num % den = num := Nat.div_add_mod num den
  have hfloor : num / den ≤ k := by
    by_contra hlt
    have hle : den * (k + 1) ≤ den * (num / den) := Nat.mul_le_mul_left _ (by omega)
    rw [Nat.add_mul, Nat.mul_assoc, Nat.mul_comm k] at h
    rw [Nat.mul_add] at hle
    omega
  rw [roundQuotient]
  -- below `k` even rounding up is harmless; from `k` on the remainder is less than half
  rcases Nat.lt_or_eq_of_le hfloor with hlt | heq
  · split
    · omega
    · split
      · omega
      · split <;> omega
  · rw [heq] at hdiv
    rw [Nat.add_mul, Nat.mul_assoc, Nat.mul_comm k] at h
    rw [if_pos (by omega), heq]

/-- What is not below a natural number is not rounded below it. -/
theorem le_roundQuotient {num den k : Nat} (hden : 0 < den) (h : k * den ≤ num) :
    k ≤ roundQuotient num den := by
  have hfloor : k ≤ num / den := (Nat.le_div_iff_mul_le hden).2 h
  rw [roundQuotient]
  split
  · exact hfloor
  · split
    · omega
    · split <;> omega

/-! ## Magnitudes

Rounding works with natural numbers, and its bounds are easier to state with fractions.  The
exponent of a number may be of either sign, and the natural numbers take it apart into two powers of
which one is 1 (`zpow_eq_div`); with that a comparison of fractions turns into one of natural
numbers and back. -/

/-- The magnitude of a number. -/
def value (x : Binary64) : ℚ := x.significand * 2 ^ x.exponent

/-- A power as a quotient of two powers, one of which is 1. -/
theorem zpow_eq_div (b : ℚ) (e : Int) : b ^ e = b ^ e.toNat / b ^ (-e).toNat := by
  rcases Int.le_total 0 e with h | h
  · obtain ⟨n, rfl⟩ := Int.eq_ofNat_of_zero_le h
    simp
  · obtain ⟨n, hn⟩ := Int.eq_ofNat_of_zero_le (Int.neg_nonneg_of_nonpos h)
    obtain rfl : e = -(n : Int) := by omega
    simp

theorem two_zpow_pos (e : Int) : (0 : ℚ) < 2 ^ e := zpow_pos (by norm_num) e

theorem two_zpow_le {e e' : Int} (h : e ≤ e') : (2 : ℚ) ^ e ≤ 2 ^ e' :=
  zpow_le_zpow_right₀ (by norm_num) h

theorem value_nonneg (x : Binary64) : 0 ≤ x.value :=
  mul_nonneg (Nat.cast_nonneg _) (two_zpow_pos _).le

theorem denominator_pos (x : Binary64) : 0 < x.denominator := Nat.two_pow_pos _

/-- The magnitude as a quotient of natural numbers. -/
theorem value_eq (x : Binary64) : x.value = x.numerator / x.denominator := by
  rw [value, zpow_eq_div, numerator, denominator]
  push_cast
  rw [mul_div_assoc]

/-- Half a unit above the greatest number: what is not below this bound is rounded to nothing. -/
def bound : ℚ := (2 ^ 54 - 1) * 2 ^ 970

/-- The greatest number is one unit below `2 ^ 1024`, and the bound half a unit. -/
theorem value_lt_bound (x : Binary64) : x.value < bound := by
  obtain ⟨hsignificand, -, hexponent, -⟩ := x.normal
  have hs : (x.significand : ℚ) ≤ 2 ^ 53 - 1 := by
    have : x.significand + 1 ≤ 2 ^ 53 := hsignificand
    have : (x.significand : ℚ) + 1 ≤ 2 ^ 53 := by exact_mod_cast this
    linarith
  calc x.value ≤ (2 ^ 53 - 1) * 2 ^ (971 : Int) :=
        mul_le_mul hs (two_zpow_le hexponent) (two_zpow_pos _).le (by norm_num)
    _ = (2 ^ 54 - 2) * 2 ^ 970 := by
        rw [show (971 : Int) = 1 + ((970 : Nat) : Int) from rfl, zpow_add₀ (by norm_num), zpow_one,
          zpow_natCast, ← mul_assoc]
        norm_num only
    _ < bound := by
        rw [bound]
        exact mul_lt_mul_of_pos_right (by norm_num) (by positivity)

/-! ## The exponent of a quotient

The exponent is chosen so that the quotient has 53 binary digits in its units.  The lengths of
numerator and denominator give the number of digits up to one, and a comparison with a power of two
settles which it is.  Very small quotients do not get that many digits, since the exponent does not
go below the least one.  So of the two bounds below, the upper one always holds and the lower one
holds above the least exponent. -/

section Quotient

variable {num den : Nat} (hnum : 0 < num) (hden : 0 < den)

include hnum hden

omit hnum in
theorem lt_two_zpow_bits :
    (num / den : ℚ) < 2 ^ ((Nat.log2 num : Int) - Nat.log2 den + 1) := by
  have hn : (num : ℚ) < 2 ^ (Nat.log2 num + 1) := by exact_mod_cast Nat.lt_log2_self
  have hd : (2 : ℚ) ^ Nat.log2 den ≤ den := by exact_mod_cast Nat.log2_self_le hden.ne'
  have hpow : (2 : ℚ) ^ ((Nat.log2 num : Int) - Nat.log2 den + 1) =
      2 ^ (Nat.log2 num + 1) / 2 ^ Nat.log2 den := by
    rw [show (Nat.log2 num : Int) - Nat.log2 den + 1 =
      ((Nat.log2 num + 1 : Nat) : Int) - (Nat.log2 den : Nat) by omega,
      zpow_sub₀ (by norm_num), zpow_natCast, zpow_natCast]
  rw [hpow]
  exact div_lt_div₀ hn hd (by positivity) (by positivity)

/-- The lengths of two numbers bound their quotient from below. -/
theorem two_zpow_bits_le :
    (2 : ℚ) ^ ((Nat.log2 num : Int) - Nat.log2 den - 1) ≤ num / den := by
  have hn : (2 : ℚ) ^ Nat.log2 num ≤ num := by exact_mod_cast Nat.log2_self_le hnum.ne'
  have hd : (den : ℚ) ≤ 2 ^ (Nat.log2 den + 1) := by exact_mod_cast Nat.lt_log2_self.le
  have hpow : (2 : ℚ) ^ ((Nat.log2 num : Int) - Nat.log2 den - 1) =
      2 ^ Nat.log2 num / 2 ^ (Nat.log2 den + 1) := by
    rw [show (Nat.log2 num : Int) - Nat.log2 den - 1 =
      (Nat.log2 num : Int) - ((Nat.log2 den + 1 : Nat) : Int) by omega,
      zpow_sub₀ (by norm_num), zpow_natCast, zpow_natCast]
  rw [hpow]
  exact div_le_div₀ (by positivity) hn (by exact_mod_cast hden) hd

omit hnum in
/-- A comparison with a power of two, as it is made with natural numbers. -/
theorem lt_two_zpow_iff (e : Int) :
    (num / den : ℚ) < 2 ^ e ↔ num * 2 ^ (-e).toNat < den * 2 ^ e.toNat := by
  have hd : (0 : ℚ) < den := by exact_mod_cast hden
  rw [zpow_eq_div, div_lt_div_iff₀ hd (by positivity)]
  rw [mul_comm ((2 : ℚ) ^ e.toNat)]
  exact_mod_cast Iff.rfl

omit hnum in
theorem exponentOf_eq : exponentOf num den =
    max ((Nat.log2 num : Int) - Nat.log2 den -
      if (num / den : ℚ) < 2 ^ ((Nat.log2 num : Int) - Nat.log2 den) then 53 else 52)
      leastExponent := by
  simp only [exponentOf, lt_two_zpow_iff hden, decide_eq_true_eq]

omit hnum in
theorem lt_two_zpow_exponentOf : (num / den : ℚ) < 2 ^ (exponentOf num den + 53) := by
  rw [exponentOf_eq hden]
  split
  · next hbelow => exact lt_of_lt_of_le hbelow (two_zpow_le (by omega))
  · exact lt_of_lt_of_le (lt_two_zpow_bits hden) (two_zpow_le (by omega))

/-- The quotient has 53 digits above the least exponent. -/
theorem exponentOf_eq_or : exponentOf num den = leastExponent ∨
    (2 : ℚ) ^ (exponentOf num den + 52) ≤ num / den := by
  rw [exponentOf_eq hden]
  split
  · refine (max_choice _ _).symm.imp id fun h => ?_
    rw [h]
    exact le_trans (two_zpow_le (by omega)) (two_zpow_bits_le hnum hden)
  · next hbelow =>
    refine (max_choice _ _).symm.imp id fun h => ?_
    rw [h]
    exact le_trans (two_zpow_le (by omega)) (not_lt.1 hbelow)

/-! ## Rounding a quotient

The quotient is scaled to its units and rounded to a natural number.  With 53 digits before the
rounding there may be one more after it, when all of them were ones: then the significand is `2 ^
53`, and half of it is taken with the next exponent.  A number results unless that exponent is too
great, and this is where the bound comes from. -/

omit hnum in
/-- The quotient in units of the last binary digit, as it is given to the rounding. -/
theorem scaled_eq (e : Int) : ((num * 2 ^ (-e).toNat : Nat) : ℚ) =
    num / den / 2 ^ e * ((den * 2 ^ e.toNat : Nat) : ℚ) := by
  have hd : (den : ℚ) ≠ 0 := by exact_mod_cast hden.ne'
  rw [zpow_eq_div]
  push_cast
  field_simp

/-- The significand before a carry has at most 53 binary digits, and no fewer above the least
exponent. -/
theorem roundQuotient_exponentOf {e : Int} (he : e = exponentOf num den) :
    roundQuotient (num * 2 ^ (-e).toNat) (den * 2 ^ e.toNat) ≤ 2 ^ 53 ∧
      (e = leastExponent ∨
        2 ^ 52 ≤ roundQuotient (num * 2 ^ (-e).toNat) (den * 2 ^ e.toNat)) := by
  have hscaled := @scaled_eq num den hden e
  have hden' : 0 < den * 2 ^ e.toNat := Nat.mul_pos hden (Nat.two_pow_pos _)
  have hpos : (0 : ℚ) < ((den * 2 ^ e.toNat : Nat) : ℚ) := by exact_mod_cast hden'
  constructor
  · have hlt := @lt_two_zpow_exponentOf num den hden
    rw [← he, zpow_add₀ (by norm_num), mul_comm, ← div_lt_iff₀ (two_zpow_pos e)] at hlt
    refine roundQuotient_le ?_
    have : ((num * 2 ^ (-e).toNat : Nat) : ℚ) < 2 ^ 53 * ((den * 2 ^ e.toNat : Nat) : ℚ) := by
      rw [hscaled]
      exact mul_lt_mul_of_pos_right hlt hpos
    have : num * 2 ^ (-e).toNat < 2 ^ 53 * (den * 2 ^ e.toNat) := by exact_mod_cast this
    omega
  · refine (exponentOf_eq_or hnum hden).imp (fun h => he.trans h) fun hle => ?_
    rw [← he, zpow_add₀ (by norm_num), mul_comm, ← le_div_iff₀ (two_zpow_pos e)] at hle
    refine le_roundQuotient hden' ?_
    have : 2 ^ 52 * ((den * 2 ^ e.toNat : Nat) : ℚ) ≤ ((num * 2 ^ (-e).toNat : Nat) : ℚ) := by
      rw [hscaled]
      exact mul_le_mul_of_nonneg_right hle hpos.le
    exact_mod_cast this

/-- Below the bound the greatest exponent is not passed, not even by a carry. -/
theorem exponentOf_le (hlt : (num / den : ℚ) < bound) {e : Int} (he : e = exponentOf num den) :
    e ≤ greatestExponent ∧
      (roundQuotient (num * 2 ^ (-e).toNat) (den * 2 ^ e.toNat) = 2 ^ 53 → e < greatestExponent) := by
  have hpower : bound = (2 ^ 53 - 1 / 2) * 2 ^ greatestExponent := by
    rw [bound, greatestExponent, show (971 : Int) = 1 + ((970 : Nat) : Int) from rfl,
      zpow_add₀ (by norm_num), zpow_one, zpow_natCast, ← mul_assoc]
    norm_num only
  have hle : e ≤ greatestExponent := by
    -- above the greatest exponent the quotient would have 53 digits of larger units, which is
    -- beyond the bound
    rcases exponentOf_eq_or hnum hden with h | h
    · rw [he, h]
      decide
    · by_contra hgt
      have hsum : (2 : ℚ) ^ (greatestExponent + 53) ≤ 2 ^ (exponentOf num den + 52) :=
        two_zpow_le (by omega)
      rw [zpow_add₀ (by norm_num)] at hsum
      have hunit := two_zpow_pos greatestExponent
      have hval : (2 : ℚ) ^ (53 : Int) = 2 ^ 53 := by norm_num
      rw [hval] at hsum
      linarith
  refine ⟨hle, fun hcarry => lt_of_le_of_ne hle fun heq => ?_⟩
  have hpos : (0 : ℚ) < ((den * 2 ^ e.toNat : Nat) : ℚ) := by
    exact_mod_cast Nat.mul_pos hden (Nat.two_pow_pos _)
  -- in the largest units the quotient is less than half a unit above `2 ^ 53 - 1`
  have hround : roundQuotient (num * 2 ^ (-e).toNat) (den * 2 ^ e.toNat) ≤ 2 ^ 53 - 1 := by
    refine roundQuotient_le ?_
    rw [hpower, ← heq, ← div_lt_iff₀ (two_zpow_pos e)] at hlt
    have : 2 * ((num * 2 ^ (-e).toNat : Nat) : ℚ) <
        (2 * (2 ^ 53 - 1) + 1) * ((den * 2 ^ e.toNat : Nat) : ℚ) := by
      rw [scaled_eq hden, ← mul_assoc]
      refine mul_lt_mul_of_pos_right ?_ hpos
      linarith
    have hcast : ((2 * (2 ^ 53 - 1) + 1 : Nat) : ℚ) = 2 * (2 ^ 53 - 1) + 1 := by norm_num
    rw [← hcast] at this
    exact_mod_cast this
  omega

end Quotient

/-- **A quotient below the bound can be rounded.** -/
theorem ofQuotient?_isSome {num den : Nat} (negative : Bool) (hden : 0 < den)
    (hlt : (num / den : ℚ) < bound) : (ofQuotient? negative num den).isSome = true := by
  by_cases hzero : num = 0
  · rw [ofQuotient?, if_pos hzero]
    rfl
  have hnum : 0 < num := Nat.pos_of_ne_zero hzero
  obtain ⟨hle, hleast⟩ := roundQuotient_exponentOf hnum hden rfl
  obtain ⟨hgreatest, hcarry⟩ := exponentOf_le hnum hden hlt rfl
  have hexponent : leastExponent ≤ exponentOf num den := le_max_right _ _
  simp only [ofQuotient?, if_neg hzero]
  -- with a carry the significand is a power of two, and normal with the next exponent
  by_cases hs : roundQuotient (num * 2 ^ (-exponentOf num den).toNat)
      (den * 2 ^ (exponentOf num den).toNat) = 2 ^ 53
  · have hnormal : IsNormal (2 ^ 52) (exponentOf num den + 1) :=
      ⟨by decide, by omega, hcarry hs, .inl le_rfl⟩
    simp only [hs, decide_true, if_true, dif_pos hnormal, Option.isSome_some]
  · have hnormal : IsNormal (roundQuotient (num * 2 ^ (-exponentOf num den).toNat)
        (den * 2 ^ (exponentOf num den).toNat)) (exponentOf num den) :=
      ⟨lt_of_le_of_ne hle hs, hexponent, hgreatest, hleast.symm⟩
    simp only [hs, decide_false, Bool.false_eq_true, if_false, dif_pos hnormal, Option.isSome_some]

/-- The magnitude of a rounded quotient, a carry or not. -/
theorem value_of_ofQuotient? {num den : Nat} {negative : Bool} {x : Binary64} (hnum : num ≠ 0)
    (h : ofQuotient? negative num den = some x) :
    x.value = roundQuotient (num * 2 ^ (-exponentOf num den).toNat)
      (den * 2 ^ (exponentOf num den).toNat) * 2 ^ exponentOf num den := by
  simp only [ofQuotient?, if_neg hnum] at h
  by_cases hs : roundQuotient (num * 2 ^ (-exponentOf num den).toNat)
      (den * 2 ^ (exponentOf num den).toNat) = 2 ^ 53
  · simp only [hs, decide_true, if_true] at h
    split at h
    · obtain rfl := Option.some_inj.1 h
      simp only [value, hs]
      rw [zpow_add₀ (by norm_num)]
      push_cast
      ring
    · cases h
  · simp only [hs, decide_false, Bool.false_eq_true, if_false] at h
    split at h
    · obtain rfl := Option.some_inj.1 h
      rfl
    · cases h

/-- A number with at most 53 binary digits is a natural number of units: the exponent of the units
can be greater than `j` only if the number is a power of two. -/
theorem exists_eq_units {k j : Nat} {e : Int} (hk : k ≤ 2 ^ 53)
    (h : e ≤ j ∨ (2 : ℚ) ^ (e + 52) ≤ k * 2 ^ j) : ∃ m : Nat, (k * 2 ^ j : ℚ) = m * 2 ^ e := by
  by_cases hje : e ≤ j
  -- the units are small enough, and the number has a whole number of them
  · have hpower : (2 : ℚ) ^ ((j : Int) - e).toNat * 2 ^ e = 2 ^ j := by
      rw [← zpow_natCast, ← zpow_add₀ (by norm_num), ← zpow_natCast (2 : ℚ) j]
      congr 1
      omega
    refine ⟨k * 2 ^ ((j : Int) - e).toNat, ?_⟩
    rw [← hpower]
    push_cast
    ring
  -- the units are larger, and then so large a number has no more digits than one of them
  · have hbits := h.resolve_left hje
    have hk' : (k : ℚ) ≤ 2 ^ 53 := by exact_mod_cast hk
    have hupper : (2 : ℚ) ^ (e + 52) ≤ 2 ^ ((j : Int) + 53) := by
      rw [zpow_add₀ (by norm_num) (j : Int), zpow_natCast, mul_comm ((2 : ℚ) ^ j)]
      refine le_trans hbits (mul_le_mul_of_nonneg_right ?_ (by positivity))
      exact_mod_cast hk
    have hej : e + 52 ≤ (j : Int) + 53 := (zpow_le_zpow_iff_right₀ (by norm_num)).1 hupper
    obtain rfl : e = (j : Int) + 1 := by omega
    have hpower : (2 : ℚ) ^ ((j : Int) + 1 + 52) = 2 ^ 53 * 2 ^ j := by
      rw [show (j : Int) + 1 + 52 = (j : Int) + (53 : Nat) by omega, zpow_add₀ (by norm_num),
        zpow_natCast, zpow_natCast, mul_comm]
    have hk53 : (k : ℚ) = 2 ^ 53 := by
      refine le_antisymm hk' ?_
      rw [hpower] at hbits
      exact le_of_mul_le_mul_right hbits (by positivity)
    refine ⟨2 ^ 52, ?_⟩
    rw [hk53, zpow_add₀ (by norm_num), zpow_natCast]
    push_cast
    ring

/-- **Rounding does not pass a number that needs no rounding.** -/
theorem value_le_of_ofQuotient? {num den k j : Nat} {negative : Bool} {x : Binary64}
    (hden : 0 < den) (hk : k ≤ 2 ^ 53) (hle : num ≤ k * 2 ^ j * den)
    (h : ofQuotient? negative num den = some x) : x.value ≤ k * 2 ^ j := by
  by_cases hzero : num = 0
  · rw [ofQuotient?, if_pos hzero] at h
    obtain rfl := Option.some_inj.1 h
    rw [value, zero, Nat.cast_zero, zero_mul]
    positivity
  have hnum : 0 < num := Nat.pos_of_ne_zero hzero
  -- both sides are counted in units of the last digit: the bound is a whole number of them, and
  -- rounding does not go past a whole number
  have hquotient : (num / den : ℚ) ≤ k * 2 ^ j := by
    rw [div_le_iff₀ (by exact_mod_cast hden)]
    exact_mod_cast hle
  rw [value_of_ofQuotient? hzero h]
  generalize he : exponentOf num den = e
  have hpos : (0 : ℚ) < ((den * 2 ^ e.toNat : Nat) : ℚ) := by
    exact_mod_cast Nat.mul_pos hden (Nat.two_pow_pos _)
  obtain ⟨m, hm⟩ := exists_eq_units (e := e) (j := j) hk <| by
    rcases exponentOf_eq_or hnum hden with h | h
    · rw [he] at h
      exact .inl (by rw [h]; exact le_trans (by decide) (Int.natCast_nonneg j))
    · exact .inr (he ▸ le_trans h hquotient)
  have hround : roundQuotient (num * 2 ^ (-e).toNat) (den * 2 ^ e.toNat) ≤ m := by
    refine roundQuotient_le ?_
    rw [hm, ← div_le_iff₀ (two_zpow_pos e)] at hquotient
    have hscaled : ((num * 2 ^ (-e).toNat : Nat) : ℚ) ≤ m * ((den * 2 ^ e.toNat : Nat) : ℚ) := by
      rw [scaled_eq hden]
      exact mul_le_mul_of_nonneg_right hquotient hpos.le
    have hscaled : num * 2 ^ (-e).toNat ≤ m * (den * 2 ^ e.toNat) := by exact_mod_cast hscaled
    have hpos : 0 < den * 2 ^ e.toNat := Nat.mul_pos hden (Nat.two_pow_pos _)
    rw [Nat.add_mul, Nat.mul_assoc]
    omega
  rw [hm]
  exact mul_le_mul_of_nonneg_right (by exact_mod_cast hround) (two_zpow_pos e).le

/-! ## Arithmetic

Products and quotients are formed exactly, as quotients of natural numbers, and rounded once.  So
they exist wherever their exact value does not reach the bound. -/

/-- Natural numbers of 64 bits exist. -/
theorem ofNat?_isSome {n : Nat} (h : n < 2 ^ 64) : (ofNat? n).isSome = true := by
  refine ofQuotient?_isSome false Nat.one_pos ?_
  have hn : (n : ℚ) < 2 ^ 64 := by exact_mod_cast h
  have hbound : (2 : ℚ) ^ 64 ≤ bound := by
    rw [bound, show 970 = 64 + 906 from rfl, pow_add, ← mul_assoc, mul_right_comm]
    refine le_mul_of_one_le_left (by positivity) ?_
    exact one_le_mul_of_one_le_of_one_le (by norm_num) (one_le_pow₀ (by norm_num))
  rw [Nat.cast_one, div_one]
  exact lt_of_lt_of_le hn hbound

/-- A product that does not reach the bound exists. -/
theorem mul?_isSome {x y : Binary64} (h : x.value * y.value < bound) :
    (x.mul? y).isSome = true := by
  refine ofQuotient?_isSome _ (Nat.mul_pos x.denominator_pos y.denominator_pos) ?_
  rw [value_eq, value_eq, div_mul_div_comm] at h
  exact_mod_cast h

/-- A quotient exists if the divisor does not enlarge it. -/
theorem div?_isSome (x : Binary64) {y : Binary64} (h : 1 ≤ y.value) :
    (x.div? y).isSome = true := by
  have hnum : 0 < y.numerator := by
    rw [value_eq, le_div_iff₀ (by exact_mod_cast y.denominator_pos), one_mul] at h
    have : y.denominator ≤ y.numerator := by exact_mod_cast h
    exact lt_of_lt_of_le y.denominator_pos this
  refine ofQuotient?_isSome _ (Nat.mul_pos x.denominator_pos hnum) ?_
  have hquotient : ((x.numerator * y.denominator : Nat) : ℚ) / (x.denominator * y.numerator : Nat) =
      x.value / y.value := by
    rw [value_eq, value_eq, div_div_div_eq]
    push_cast
    rfl
  rw [hquotient]
  exact lt_of_le_of_lt (div_le_self x.value_nonneg h) x.value_lt_bound

end RpcReference.Binary64
