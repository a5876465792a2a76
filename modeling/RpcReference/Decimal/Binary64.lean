/-!
# Finite binary64 numbers

The floating point numbers of a JSON document: a sign and a magnitude `significand * 2 ^ exponent`
with at most 53 binary digits.  The arithmetic is exact arithmetic on naturals followed by one
rounding, so every function here computes and can be reasoned about without a machine float.

* `Binary64` — the numbers, each in exactly one way: the significand has its full 53 digits unless
  the exponent is the least one.
* `Binary64.ofQuotient?` — **the number nearest to a quotient**, the one with the even significand
  if two are equally near, and none if the quotient is too large for the format.
* `Binary64.ofNat?`, `Binary64.mul?`, `Binary64.div?`, `Binary64.ofScientific?` — one rounding of
  the exact result.
-/

set_option autoImplicit false

namespace RpcReference

-- Powers are those of the core library, whatever else is imported.
attribute [local instance (high)] instPowNat

/-! ## The numbers -/

/-- The least exponent of a binary64 number. -/
def Binary64.leastExponent : Int := -1074

/-- The greatest exponent of a binary64 number. -/
def Binary64.greatestExponent : Int := 971

/-- The one form of a magnitude: 53 binary digits, or fewer at the least exponent. -/
def Binary64.IsNormal (significand : Nat) (exponent : Int) : Prop :=
  significand < 2 ^ (53 : Nat) ∧ Binary64.leastExponent ≤ exponent ∧
    exponent ≤ Binary64.greatestExponent ∧
    (2 ^ (52 : Nat) ≤ significand ∨ exponent = Binary64.leastExponent)

instance (significand : Nat) (exponent : Int) :
    Decidable (Binary64.IsNormal significand exponent) := by
  unfold Binary64.IsNormal; infer_instance

/-- A finite binary64 number, zero with either sign included. -/
structure Binary64 where
  /-- The sign; zero has one too. -/
  negative : Bool
  /-- The binary digits. -/
  significand : Nat
  /-- The weight of the last binary digit. -/
  exponent : Int
  /-- A magnitude is held in one form only. -/
  normal : Binary64.IsNormal significand exponent
deriving DecidableEq

namespace Binary64

/-- Zero, with the given sign. -/
def zero (negative : Bool) : Binary64 := ⟨negative, 0, leastExponent, by decide⟩

instance : Inhabited Binary64 := ⟨zero false⟩

/-- Whether a number is zero, with either sign. -/
def isZero (x : Binary64) : Bool := x.significand == 0

/-- The number with the given sign and the magnitude of `x`. -/
def withSign (negative : Bool) (x : Binary64) : Binary64 := { x with negative := negative }

/-! ## Rounding -/

/-- The natural number nearest to `num / den`, the even one if two are equally near. -/
def roundQuotient (num den : Nat) : Nat :=
  let floor := num / den
  let twice := 2 * (num % den)
  if twice < den then floor
  else if den < twice then floor + 1
  else if floor % 2 = 0 then floor else floor + 1

/-- The exponent at which a positive quotient `num / den` has 53 binary digits before the point,
or the least exponent if that is greater. -/
def exponentOf (num den : Nat) : Int :=
  let bits : Int := (Nat.log2 num : Int) - (Nat.log2 den : Int)
  let below : Bool := decide (num * 2 ^ (-bits).toNat < den * 2 ^ bits.toNat)
  max (bits - (if below then 53 else 52)) leastExponent

/-- The number nearest to `num / den` for a positive `den`, the one with the even significand if
two are equally near; none if the nearest one would need more than the greatest exponent. -/
def ofQuotient? (negative : Bool) (num den : Nat) : Option Binary64 :=
  if num = 0 then some (zero negative)
  else
    let exponent := exponentOf num den
    let significand := roundQuotient (num * 2 ^ (-exponent).toNat) (den * 2 ^ exponent.toNat)
    let carried := decide (significand = 2 ^ (53 : Nat))
    let significand := if carried then 2 ^ (52 : Nat) else significand
    let exponent := if carried then exponent + 1 else exponent
    if h : IsNormal significand exponent then some ⟨negative, significand, exponent, h⟩ else none

/-! ## Arithmetic -/

/-- The numerator of the magnitude, over `denominator`. -/
def numerator (x : Binary64) : Nat := x.significand * 2 ^ x.exponent.toNat

/-- The denominator of the magnitude, a power of two. -/
def denominator (x : Binary64) : Nat := 2 ^ (-x.exponent).toNat

/-- The number nearest to a natural number. -/
def ofNat? (n : Nat) : Option Binary64 := ofQuotient? false n 1

/-- The rounded product. -/
def mul? (x y : Binary64) : Option Binary64 :=
  ofQuotient? (x.negative != y.negative) (x.numerator * y.numerator)
    (x.denominator * y.denominator)

/-- The rounded quotient, for a divisor that is not zero. -/
def div? (x y : Binary64) : Option Binary64 :=
  ofQuotient? (x.negative != y.negative) (x.numerator * y.denominator)
    (x.denominator * y.numerator)

/-- The number nearest to `digits * 10 ^ exponent`.  Exponents far outside the range of the format
are settled by the size of the number alone. -/
def ofScientific? (negative : Bool) (digits : Nat) (exponent : Int) : Option Binary64 :=
  let size : Int := (Nat.toDigits 10 digits).length + exponent
  if digits = 0 ∨ size < -400 then some (zero negative)
  else if 400 < size then none
  else ofQuotient? negative (digits * 10 ^ exponent.toNat) (10 ^ (-exponent).toNat)

end Binary64
end RpcReference
