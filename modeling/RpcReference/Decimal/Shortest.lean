import RpcReference.Decimal.Binary64

/-!
# The shortest decimal of a binary64 number

A binary64 number stands for every real that rounds to it.  Its shortest decimal is the one with the
fewest digits among those reals; of two with equally few digits the nearer, and of two equally near
the one whose last digit is even.

* `Decimal` — digits and a power of ten.
* `Binary64.reach` — the distance to the ends of the interval of reals that round to a number.
* `Binary64.shortest` — **the shortest decimal**: on the grids of 1, 2, … 17 digits only the two
  neighbours of the number need testing, and the first grid with a hit wins.  Before them comes the
  grid whose only candidate is the next power of ten.
* `DecimalLayout` — how the digits are laid out: with a point between them while the number is
  neither very large nor very small, and as one digit, a point, the other digits and an exponent
  otherwise.  The decisions in which the two document formats differ are its fields.
-/

set_option autoImplicit false

namespace RpcReference

-- Powers are those of the core library, whatever else is imported.
attribute [local instance (high)] instPowNat

/-- The decimal `digits * 10 ^ exponent`. -/
structure Decimal where
  /-- The digits, read as one natural number. -/
  digits : Nat
  /-- The weight of the last digit. -/
  exponent : Int
deriving DecidableEq, Repr, Inhabited

namespace Binary64

/-! ## The interval of reals that round to a number -/

/-- Four times the distance from the magnitude down and up to the ends of the interval of reals
that round to it, in units of the last binary digit: half a unit each way, except that below a
power of two the neighbour is twice as near. -/
def reach (x : Binary64) : Nat × Nat :=
  (if x.significand = 2 ^ (52 : Nat) ∧ x.exponent ≠ leastExponent then 1 else 2, 2)

/-- Whether `num / den` rounds to the magnitude of `x`.  The ends of the interval belong to it
exactly if the significand is even. -/
def absorbs (x : Binary64) (num den : Nat) : Bool :=
  let value := 4 * num * 2 ^ (-x.exponent).toNat
  let unit := den * 2 ^ x.exponent.toNat
  let least := (4 * x.significand - x.reach.1) * unit
  let greatest := (4 * x.significand + x.reach.2) * unit
  if x.significand % 2 = 0 then decide (least ≤ value ∧ value ≤ greatest)
  else decide (least < value ∧ value < greatest)

/-! ## Decimal grids -/

/-- The first `k` below `fuel` with `den ≤ num * 10 ^ k`. -/
def leadingZeros (num den : Nat) : Nat → Nat
  | 0 => 0
  | fuel + 1 => if den ≤ num then 0 else leadingZeros (num * 10) den fuel + 1

/-- The number of decimal digits before the point; for a magnitude below one tenth it is minus the
number of zeros after the point. -/
def wholeDigits (x : Binary64) : Int :=
  let num := x.numerator
  let den := x.denominator
  if den ≤ num then (Nat.toDigits 10 (num / den)).length
  else 1 - (leadingZeros num den 400 : Int)

/-- The point of the grid of multiples of `10 ^ exponent` that is nearest to `x` among those that
round to `x`; of two equally near ones the even one. -/
def onGrid? (x : Binary64) (exponent : Int) : Option Decimal :=
  let num := x.numerator * 10 ^ (-exponent).toNat
  let den := x.denominator * 10 ^ exponent.toNat
  let below := num / den
  let hits (n : Nat) : Bool := x.absorbs (n * 10 ^ exponent.toNat) (10 ^ (-exponent).toNat)
  let nearest := roundQuotient num den
  if hits nearest then some ⟨nearest, exponent⟩
  else if hits below then some ⟨below, exponent⟩
  else if hits (below + 1) then some ⟨below + 1, exponent⟩
  else none

/-- The magnitude of `x` in the fewest digits that read back, as near to `x` as those allow. -/
def shortest (x : Binary64) : Decimal :=
  if x.isZero then ⟨0, 0⟩
  else
    ((List.range 18).findSome? fun (n : Nat) => x.onGrid? (x.wholeDigits - (n : Nat))).getD
      ⟨x.significand, 0⟩

end Binary64

/-! ## Layout -/

/-- The decisions of a format on how a floating point number is written. -/
structure DecimalLayout where
  /-- The least power of ten of the first digit that is still written positionally. -/
  leastPositional : Int
  /-- The greatest power of ten of the first digit that is still written positionally. -/
  greatestPositional : Int
  /-- What stands before the digits of an exponent that is not negative. -/
  plusSign : List Char
deriving DecidableEq, Repr

namespace DecimalLayout

/-- Digits with a point after the first `whole` of them, and zeros where there are no digits. -/
def positional (digits : List Char) (whole : Int) : List Char :=
  if whole ≤ 0 then ['0', '.'] ++ List.replicate (-whole).toNat '0' ++ digits
  else
    let before := digits.take whole.toNat
    let after := digits.drop whole.toNat
    before ++ List.replicate (whole.toNat - before.length) '0' ++ ['.'] ++
      (if after.isEmpty then ['0'] else after)

/-- An exponent with its sign. -/
def exponentText (layout : DecimalLayout) (exponent : Int) : List Char :=
  (if exponent < 0 then ['-'] else layout.plusSign) ++ Nat.toDigits 10 exponent.natAbs

/-- The first digit, the others after a point if there are any, and the exponent. -/
def scientific (layout : DecimalLayout) (digits : List Char) (exponent : Int) : List Char :=
  digits.take 1 ++ (if digits.length ≤ 1 then [] else '.' :: digits.drop 1) ++
    ['e'] ++ layout.exponentText exponent

/-- A positive decimal in the format's layout. -/
def decimalText (layout : DecimalLayout) (d : Decimal) : List Char :=
  let digits := Nat.toDigits 10 d.digits
  let exponent : Int := d.exponent + digits.length - 1
  if layout.leastPositional ≤ exponent ∧ exponent ≤ layout.greatestPositional then
    positional digits (exponent + 1)
  else layout.scientific digits exponent

/-- **A number in the fewest digits that read back**, in the format's layout. -/
def text (layout : DecimalLayout) (x : Binary64) : List Char :=
  (if x.negative then ['-'] else []) ++
    (if x.isZero then ['0', '.', '0'] else layout.decimalText x.shortest)

end DecimalLayout

end RpcReference
