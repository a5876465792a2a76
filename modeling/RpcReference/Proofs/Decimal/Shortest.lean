import RpcReference.Decimal.Shortest
import RpcReference.Proofs.Decimal.Rounding

/-!
# The range of the shortest decimal

* `Binary64.value_lt_ten_zpow` — a number lies below the power of ten with as many zeros as it has
  digits before the point.
* `Binary64.shortest_inRange` — **the shortest decimal has at most seventeen digits, or is the power
  of ten after them, and rounds to its number**, so it cannot lie far above it.  The decimal of the
  greatest number is known (`Binary64.shortest_of_greatest`).
-/

set_option autoImplicit false

namespace RpcReference

namespace Binary64

/-- Powers of ten grow with their exponents. -/
theorem ten_zpow_le {e e' : Int} (h : e ≤ e') : (10 : ℚ) ^ e ≤ 10 ^ e' :=
  zpow_le_zpow_right₀ (by norm_num) h

/-! ## Digits before the point

The digits before the point are counted in two ways.  A number from 1 on has those of its whole
part.  Below 1 the count is zero or negative, and the zeros after the point are counted by taking
the number times ten until it reaches 1. -/

/-- With its leading zeros shifted out a number has still no more than one digit before the
point. -/
theorem mul_pow_leadingZeros_lt {num den : Nat} (fuel : Nat) (h : num < 10 * den) :
    num * 10 ^ leadingZeros num den fuel < 10 * den := by
  induction fuel generalizing num with
  | zero => simpa [leadingZeros] using h
  | succ fuel ih =>
    rw [leadingZeros]
    split
    · simpa using h
    · next hlt =>
      have := ih (show num * 10 < 10 * den by omega)
      rwa [Nat.mul_assoc, ← Nat.pow_succ'] at this

/-- The zeros are counted up to the fuel. -/
theorem leadingZeros_le (num den fuel : Nat) : leadingZeros num den fuel ≤ fuel := by
  induction fuel generalizing num with
  | zero => exact Nat.le_refl 0
  | succ fuel ih =>
    rw [leadingZeros]
    split
    · exact Nat.zero_le _
    · exact Nat.succ_le_succ (ih _)

/-- A number is below the power of ten with as many zeros as it has digits before the point. -/
theorem value_lt_ten_zpow (x : Binary64) : x.value < 10 ^ x.wholeDigits := by
  have hden : (0 : ℚ) < x.denominator := by exact_mod_cast x.denominator_pos
  rw [value_eq, div_lt_iff₀ hden]
  simp only [wholeDigits]
  split
  · have hlt := (Nat.length_toDigits_le_iff (b := 10) (n := x.numerator / x.denominator)
      (by decide) Nat.length_toDigits_pos).1 le_rfl
    rw [Nat.div_lt_iff_lt_mul x.denominator_pos] at hlt
    rw [zpow_natCast]
    exact_mod_cast hlt
  · have hlt := mul_pow_leadingZeros_lt 400 (show x.numerator < 10 * x.denominator by omega)
    rw [zpow_sub₀ (by norm_num), zpow_one, zpow_natCast, div_mul_eq_mul_div,
      lt_div_iff₀ (by positivity)]
    exact_mod_cast hlt

/-- The fuel bounds how small a number can be taken to be. -/
theorem le_wholeDigits (x : Binary64) : -399 ≤ x.wholeDigits := by
  simp only [wholeDigits]
  split
  · omega
  · have := leadingZeros_le x.numerator x.denominator 400
    omega

/-! ## Decimals that round to a number

`Binary64.absorbs` compares with the half-way points to the neighbours.  The one above is half a
unit away at any number, and the one below is closer at a power of two.  The end points themselves
count where the significand is even, which makes a difference in `<` and `≤` only. -/

/-- What rounds to a number is at most half a unit above it. -/
theorem le_of_absorbs {x : Binary64} {num den : Nat} (hden : 0 < den)
    (h : x.absorbs num den = true) : (num / den : ℚ) ≤ (x.significand + 1 / 2) * 2 ^ x.exponent := by
  have hle : 4 * num * 2 ^ (-x.exponent).toNat ≤
      (4 * x.significand + 2) * (den * 2 ^ x.exponent.toNat) := by
    simp only [absorbs, reach] at h
    split at h
    · exact (of_decide_eq_true h).2
    · exact (of_decide_eq_true h).2.le
  have hle : (4 * num * 2 ^ (-x.exponent).toNat : ℚ) ≤
      (4 * x.significand + 2) * (den * 2 ^ x.exponent.toNat) := by exact_mod_cast hle
  have hd : (0 : ℚ) < den := by exact_mod_cast hden
  rw [zpow_eq_div, div_le_iff₀ hd, mul_div_assoc', div_mul_eq_mul_div, le_div_iff₀ (by positivity)]
  linarith

/-- Nothing rounds to a number above zero but numbers above zero. -/
theorem pos_of_absorbs {x : Binary64} {num den : Nat} (hden : 0 < den) (hx : x.isZero = false)
    (h : x.absorbs num den = true) : 0 < num := by
  have hsignificand : x.significand ≠ 0 := by simpa [isZero] using hx
  have hunit : 0 < den * 2 ^ x.exponent.toNat := Nat.mul_pos hden (Nat.two_pow_pos _)
  have hreach : 0 < 4 * x.significand - x.reach.1 := by
    simp only [reach]
    split <;> omega
  have hleast : 0 < (4 * x.significand - x.reach.1) * (den * 2 ^ x.exponent.toNat) :=
    Nat.mul_pos hreach hunit
  refine Nat.pos_of_ne_zero fun hzero => ?_
  simp only [absorbs, hzero, Nat.mul_zero, Nat.zero_mul] at h
  split at h
  · have := (of_decide_eq_true h).1
    omega
  · have := (of_decide_eq_true h).1
    omega

/-! ## Points of a grid

On the grid of an exponent three points are tried: the nearest one to the number, and the ones below
and above.  All of them are at most one step above it, and the whole steps below a number have no
more digits than the grid. -/

/-- What is taken from a grid rounds to the number and lies at most one step above it. -/
theorem onGrid?_eq_some {x : Binary64} {e : Int} {d : Decimal} (h : x.onGrid? e = some d) :
    d.exponent = e ∧
      x.absorbs (d.digits * 10 ^ e.toNat) (10 ^ (-e).toNat) = true ∧
      d.digits ≤ x.numerator * 10 ^ (-e).toNat / (x.denominator * 10 ^ e.toNat) + 1 := by
  have hnearest : roundQuotient (x.numerator * 10 ^ (-e).toNat) (x.denominator * 10 ^ e.toNat) ≤
      x.numerator * 10 ^ (-e).toNat / (x.denominator * 10 ^ e.toNat) + 1 := by
    rw [roundQuotient]
    split
    · omega
    · split
      · omega
      · split <;> omega
  simp only [onGrid?] at h
  split at h
  · next hhit =>
    obtain rfl := Option.some_inj.1 h
    exact ⟨rfl, hhit, hnearest⟩
  split at h
  · next hhit =>
    obtain rfl := Option.some_inj.1 h
    exact ⟨rfl, hhit, Nat.le_succ _⟩
  split at h
  · next hhit =>
    obtain rfl := Option.some_inj.1 h
    exact ⟨rfl, hhit, le_rfl⟩
  · cases h

/-- On a grid of `n` digits there are at most `n` digits below a number. -/
theorem floor_lt_pow (x : Binary64) {e : Int} {n : Nat} (h : x.wholeDigits ≤ e + n) :
    x.numerator * 10 ^ (-e).toNat / (x.denominator * 10 ^ e.toNat) < 10 ^ n := by
  have hden : 0 < x.denominator * 10 ^ e.toNat := Nat.mul_pos x.denominator_pos (by positivity)
  have hvalue : x.value < 10 ^ n * 10 ^ e := by
    rw [← zpow_natCast, ← zpow_add₀ (by norm_num)]
    exact lt_of_lt_of_le x.value_lt_ten_zpow (ten_zpow_le (by omega))
  rw [value_eq, zpow_eq_div 10, div_lt_iff₀ (by exact_mod_cast x.denominator_pos), mul_div_assoc',
    div_mul_eq_mul_div, lt_div_iff₀ (by positivity)] at hvalue
  rw [Nat.div_lt_iff_lt_mul hden, Nat.mul_comm x.denominator, ← Nat.mul_assoc]
  exact_mod_cast hvalue

end Binary64

/-! ## The range of decimals

Reading a decimal back multiplies its digits by a power of ten, and has to stay below the bound of
what can be rounded.  A shortest decimal is at most half a unit above its number, which is enough
for every number but the greatest: above that there is no room, so its decimal is computed. -/

/-- The shortest decimal of the greatest number. -/
def Decimal.greatest : Decimal := ⟨17976931348623157, 292⟩

/-- Decimals that are no longer and no larger than those of binary64 numbers. -/
structure Decimal.InRange (d : Decimal) : Prop where
  /-- It is not zero. -/
  pos : 0 < d.digits
  /-- It has at most seventeen digits, or is the power of ten after them. -/
  digits_le : d.digits ≤ 10 ^ 17
  /-- It is not extremely small. -/
  least_le : -500 ≤ d.exponent
  /-- Unless it is the greatest, it is at most half a unit above the greatest number but one. -/
  scaled_le : 0 ≤ d.exponent →
    d = greatest ∨ d.digits * 10 ^ d.exponent.toNat ≤ (2 ^ 54 - 3) * 2 ^ 970

namespace Binary64

/-- The shortest decimal of the greatest number, of either sign. -/
theorem shortest_of_greatest {x : Binary64} (hs : x.significand = 2 ^ 53 - 1)
    (he : x.exponent = greatestExponent) : x.shortest = Decimal.greatest := by
  obtain ⟨negative, significand, exponent, hnormal⟩ := x
  subst hs he
  have hfalse : shortest ⟨false, 2 ^ 53 - 1, greatestExponent, by decide⟩ = Decimal.greatest := by
    decide +kernel
  have htrue : shortest ⟨true, 2 ^ 53 - 1, greatestExponent, by decide⟩ = Decimal.greatest := by
    decide +kernel
  cases negative with
  | false => exact hfalse
  | true => exact htrue

/-- Half a unit above any number but the greatest. -/
theorem half_unit_le {x : Binary64}
    (hx : ¬ (x.significand = 2 ^ 53 - 1 ∧ x.exponent = greatestExponent)) :
    ((x.significand : ℚ) + 1 / 2) * 2 ^ x.exponent ≤ (2 ^ 54 - 3) * 2 ^ 970 := by
  obtain ⟨hsignificand, -, hexponent, -⟩ := x.normal
  have hpower : (2 : ℚ) ^ ((970 : Nat) : Int) = 2 ^ 970 := zpow_natCast _ _
  rw [← hpower]
  have hcast : (greatestExponent : Int) = 1 + ((970 : Nat) : Int) := rfl
  by_cases he : x.exponent = greatestExponent
  · have hs : x.significand + 2 ≤ 2 ^ 53 := by
      have : x.significand ≠ 2 ^ 53 - 1 := fun h => hx ⟨h, he⟩
      omega
    have hs : (x.significand : ℚ) + 2 ≤ 2 ^ 53 := by exact_mod_cast hs
    rw [he, hcast, zpow_add₀ (by norm_num), zpow_one, ← mul_assoc]
    refine mul_le_mul_of_nonneg_right ?_ (two_zpow_pos _).le
    linarith
  · have hs : (x.significand : ℚ) + 1 ≤ 2 ^ 53 := by exact_mod_cast hsignificand
    refine mul_le_mul ?_ (two_zpow_le ?_) (two_zpow_pos _).le (by norm_num)
    · linarith
    · omega

/-- **The shortest decimal is in range.** -/
theorem shortest_inRange {x : Binary64} (hx : x.isZero = false) : x.shortest.InRange := by
  by_cases hgreatest : x.significand = 2 ^ 53 - 1 ∧ x.exponent = greatestExponent
  · rw [shortest_of_greatest hgreatest.1 hgreatest.2]
    exact ⟨by decide, by decide, by decide, fun _ => .inl rfl⟩
  have hhalf := half_unit_le hgreatest
  rw [shortest, hx, if_neg Bool.false_ne_true]
  cases hfind : (List.range 18).findSome? fun (n : Nat) => x.onGrid? (x.wholeDigits - (n : Nat)) with
  -- there is always a point on one of the grids, but the bounds hold for the default as well
  | none =>
    have hsignificand : x.significand ≠ 0 := by simpa [isZero] using hx
    have hlt : x.significand < 2 ^ 53 := x.normal.1
    have hwide : ∀ n > 0, 2 ^ 53 ≤ (2 ^ 54 - 3) * n := fun n hn =>
      le_trans (by decide) (Nat.le_mul_of_pos_right _ hn)
    rw [Option.getD_none]
    refine ⟨Nat.pos_of_ne_zero hsignificand, ?_, (by decide : (-500 : Int) ≤ 0), fun _ => .inr ?_⟩
    · exact le_trans hlt.le (by decide)
    · change x.significand * 1 ≤ _
      rw [Nat.mul_one]
      exact le_trans hlt.le (hwide _ (by positivity))
  | some d =>
    obtain ⟨n, hn, hgrid⟩ := List.exists_of_findSome?_eq_some hfind
    obtain ⟨hexponent, habsorbs, hdigits⟩ := onGrid?_eq_some hgrid
    have hn : n ≤ 17 := Nat.le_of_lt_succ (List.mem_range.1 hn)
    have hden : 0 < 10 ^ (-(x.wholeDigits - (n : Int))).toNat := by positivity
    have hfloor := x.floor_lt_pow (e := x.wholeDigits - n) (n := n) (by omega)
    have hpow : 10 ^ n ≤ 10 ^ 17 := Nat.pow_le_pow_right (by decide) hn
    rw [Option.getD_some]
    refine ⟨?_, by omega, ?_, fun hnonneg => .inr ?_⟩
    · exact Nat.pos_of_mul_pos_right (pos_of_absorbs hden hx habsorbs)
    · have := x.le_wholeDigits
      omega
    · have hle := (le_of_absorbs hden habsorbs).trans hhalf
      rw [← hexponent, show (-d.exponent).toNat = 0 by omega, pow_zero, Nat.cast_one, div_one] at hle
      have hcast : (((2 ^ 54 - 3) * 2 ^ 970 : Nat) : ℚ) = (2 ^ 54 - 3) * 2 ^ 970 := by
        rw [Nat.cast_mul, Nat.cast_pow, Nat.cast_sub (by decide), Nat.cast_pow]
        rfl
      rw [← hcast] at hle
      exact_mod_cast hle

end Binary64

end RpcReference
