import RpcReference.Proofs.Decimal.Shortest
import RpcReference.Proofs.Json.Numerals

/-!
# Reading back floating point numbers

The reader scales the digits of a number by a rounded power of ten, so what it gives for a written
number need not be that number.  But **it always gives a number**: no written number is out of
range.

* `Json.isSome_scaled` — the digits of a decimal in range can be scaled.
* `Numeral.float_eq` — the value of a numeral that drops no digits.
* `Json.readNumber_floatNumeral` — a written number is read as a number, `Json.reread`, whatever
  follows.
-/

set_option autoImplicit false

namespace RpcReference

open Binary64 (ofNat? bound)

namespace Json

/-! ## Scaling by powers of ten

The reader makes a number from its digits and its exponent with one multiplication or division, and
fails if the result is too large to be a number.  The digits are at most seventeen and the decimal
is at most the greatest number, but both the digits and the power of ten are rounded before they are
multiplied, and each rounding could pass the limit.

That they do not is a fact about 309 powers of ten, and there is no reason for it that would spare
looking at each: the margin is too small for an estimate.  So the three facts that the argument
needs of each power are decided one by one, and the rest of the argument is an inequality.  One
decimal is on the wrong side of the estimate, the one of the greatest number itself; it is scaled in
a lemma of its own. -/

/-- The most that the digits of a decimal in range can be beside a power of ten. -/
def largestDigits (exponent : Nat) : Nat := min (10 ^ 17) ((2 ^ 54 - 3) * 2 ^ 970 / 10 ^ exponent)

/-- Every power of ten is at least 1, also when it is rounded. -/
theorem denominator_powerOfTen_le :
    ∀ e < 309, (powerOfTen e).denominator ≤ (powerOfTen e).numerator := by decide +kernel

/-- The largest digits need no rounding. -/
theorem largestDigits_exact :
    ∀ e < 309, ∃ j < 5, largestDigits e % 2 ^ j = 0 ∧ largestDigits e / 2 ^ j ≤ 2 ^ 53 := by
  decide +kernel

/-- The largest digits can be multiplied by their power of ten. -/
theorem largestDigits_mul_lt : ∀ e < 309, largestDigits e * (powerOfTen e).numerator <
    (2 ^ 54 - 1) * 2 ^ 970 * (powerOfTen e).denominator := by decide +kernel

theorem one_le_powerOfTen {e : Nat} (h : e ≤ 308) : 1 ≤ (powerOfTen e).value := by
  rw [Binary64.value_eq, le_div_iff₀ (by exact_mod_cast (powerOfTen e).denominator_pos), one_mul]
  exact_mod_cast denominator_powerOfTen_le e (by omega)

/-- Rounded digits do not pass the largest ones. -/
theorem value_le_largestDigits {n e : Nat} {x : Binary64} (he : e ≤ 308) (hn : n ≤ largestDigits e)
    (h : ofNat? n = some x) : x.value ≤ largestDigits e := by
  obtain ⟨j, -, hmod, hk⟩ := largestDigits_exact e (by omega)
  have hsplit : largestDigits e / 2 ^ j * 2 ^ j = largestDigits e :=
    Nat.div_mul_cancel (Nat.dvd_of_mod_eq_zero hmod)
  have hle := Binary64.value_le_of_ofQuotient? Nat.one_pos hk (by rwa [hsplit, Nat.mul_one]) h
  rw [← hsplit]
  exact_mod_cast hle

/-- Digits that are not too large can be multiplied by a power of ten. -/
theorem isSome_scaled_of_nonneg {n e : Nat} (he : e ≤ 308) (hn : n ≤ largestDigits e) :
    ((ofNat? n).bind fun x => scale? (e / 308 + 1) x e).isSome = true := by
  have hlimit : n < 2 ^ 64 := by
    have : n ≤ 10 ^ 17 := le_trans hn (min_le_left _ _)
    omega
  obtain ⟨x, hx⟩ := Option.isSome_iff_exists.1 (Binary64.ofNat?_isSome hlimit)
  rw [hx, Option.bind_some, scale?, if_pos (by omega), if_pos (by omega), Int.natAbs_natCast]
  refine Binary64.mul?_isSome (lt_of_le_of_lt (mul_le_mul_of_nonneg_right
    (value_le_largestDigits he hn hx) (powerOfTen e).value_nonneg) ?_)
  have hden : (0 : ℚ) < (powerOfTen e).denominator := by
    exact_mod_cast (powerOfTen e).denominator_pos
  have hcast : (((2 ^ 54 - 1) * 2 ^ 970 : Nat) : ℚ) = bound := by
    rw [bound, Nat.cast_mul, Nat.cast_pow, Nat.cast_sub (by decide), Nat.cast_pow]
    rfl
  rw [Binary64.value_eq, mul_div_assoc', div_lt_iff₀ hden, ← hcast]
  exact_mod_cast largestDigits_mul_lt e (by omega)

/-- Digits can be divided by a power of ten, in two steps if it is a large one. -/
theorem isSome_scaled_of_neg {n e : Nat} (hn : n < 2 ^ 64) (hpos : 0 < e) (he : e ≤ 600) :
    ((ofNat? n).bind fun x => scale? (e / 308 + 1) x (-e)).isSome = true := by
  obtain ⟨x, hx⟩ := Option.isSome_iff_exists.1 (Binary64.ofNat?_isSome hn)
  rw [hx, Option.bind_some, scale?, Int.natAbs_neg, Int.natAbs_natCast]
  split
  · next hsmall =>
    rw [if_neg (by omega)]
    exact x.div?_isSome (one_le_powerOfTen hsmall)
  split
  · rfl
  · next hlarge _ =>
    obtain ⟨y, hy⟩ := Option.isSome_iff_exists.1 (x.div?_isSome (one_le_powerOfTen le_rfl))
    rw [if_neg (by omega), hy, Option.bind_some, show e / 308 = 0 + 1 by omega, scale?,
      if_pos (by omega), if_neg (by omega)]
    exact y.div?_isSome (one_le_powerOfTen (by omega))

theorem isSome_scaled_greatest : ((ofNat? Decimal.greatest.digits).bind fun x =>
    scale? (Decimal.greatest.exponent.natAbs / 308 + 1) x Decimal.greatest.exponent).isSome = true := by
  decide +kernel

/-- Half a unit above the greatest number but one has 309 digits. -/
theorem lt_ten_pow_309 : (2 ^ 54 - 3) * 2 ^ 970 < 10 ^ 309 := by decide +kernel

/-- A decimal with a greater exponent would be too large, whatever its digits. -/
theorem exponent_le {d : Decimal} (h : d.InRange) : d.exponent ≤ 308 := by
  rcases Int.lt_or_le d.exponent 0 with hneg | hnonneg
  · omega
  rcases h.scaled_le hnonneg with heq | hle
  · rw [heq]
    decide
  · by_contra hgt
    have hpow : ∀ k ≤ d.exponent.toNat, 10 ^ k ≤ 10 ^ d.exponent.toNat := fun k =>
      Nat.pow_le_pow_right (by decide)
    have hone : 10 ^ d.exponent.toNat ≤ d.digits * 10 ^ d.exponent.toNat :=
      Nat.le_mul_of_pos_left _ h.pos
    exact absurd lt_ten_pow_309 (not_lt.2 ((hpow 309 (by omega)).trans (hone.trans hle)))

/-- **The digits of a decimal in range can be scaled.** -/
theorem isSome_scaled {d : Decimal} (h : d.InRange) : ((ofNat? d.digits).bind fun x =>
    scale? (d.exponent.natAbs / 308 + 1) x d.exponent).isSome = true := by
  obtain ⟨digits, exponent⟩ := d
  rcases Int.lt_or_le exponent 0 with hneg | hnonneg
  · obtain ⟨e, rfl⟩ : ∃ e : Nat, exponent = -e := ⟨exponent.natAbs, by omega⟩
    have hle : -500 ≤ -(e : Int) := h.least_le
    have hdigits : digits ≤ 10 ^ 17 := h.digits_le
    rw [Int.natAbs_neg, Int.natAbs_natCast]
    exact isSome_scaled_of_neg (n := digits) (by omega) (by omega) (by omega)
  · obtain ⟨e, rfl⟩ := Int.eq_ofNat_of_zero_le hnonneg
    rcases h.scaled_le hnonneg with heq | hle
    · rw [heq]
      exact isSome_scaled_greatest
    · have he : (e : Int) ≤ 308 := exponent_le h
      exact isSome_scaled_of_nonneg (e := e) (by omega)
        (le_min h.digits_le ((Nat.le_div_iff_mul_le (by positivity)).2 hle))

/-! ## The value of a numeral

Digits are collected as long as they fit 64 bits, and the point only says how many of them count for
the exponent.  A numeral with few enough digits therefore has the value of its digits without the
point, scaled by the exponent that is written less the number of digits after the point. -/

theorem le_ofDigitChars (digits : List Char) (n : Nat) : n ≤ Nat.ofDigitChars 10 digits n := by
  rw [Nat.ofDigitChars_eq_ofDigitChars_zero]
  exact le_trans (Nat.le_mul_of_pos_left _ (by positivity)) (Nat.le_add_right _ _)

/-- Digits that fit are all collected. -/
theorem collect_eq {limit n : Nat} {digits : List Char}
    (h : Nat.ofDigitChars 10 digits n ≤ limit) :
    collect limit n digits = (Nat.ofDigitChars 10 digits n, []) := by
  induction digits generalizing n with
  | nil => rfl
  | cons c digits ih =>
    have hstep : n * 10 + digitValue c = 10 * n + (c.toNat - '0'.toNat) := by
      rw [digitValue, Nat.mul_comm]
    rw [Nat.ofDigitChars_cons, ← hstep] at h ⊢
    have hfits := le_trans (le_ofDigitChars digits _) h
    rw [collect, if_neg (by omega), ih h]

/-- What the digits of a numeral stand for, its point left out. -/
def Numeral.value (n : Numeral) : Nat := Nat.ofDigitChars 10 (n.whole ++ n.fraction.getD []) 0

/-- The exponent that is written. -/
def Numeral.exponentValue (n : Numeral) : Int :=
  match n.exponent with
  | none => 0
  | some (negative, digits) =>
      if negative then -(Nat.ofDigitChars 10 digits 0 : Int) else Nat.ofDigitChars 10 digits 0

/-- The power of ten that the digits of a numeral are scaled by. -/
def Numeral.power (n : Numeral) : Int := n.exponentValue - (n.fraction.getD []).length

theorem Numeral.collected_eq {n : Numeral} (h : n.value ≤ digitLimit) :
    n.collected = (n.value, -((n.fraction.getD []).length : Int)) := by
  rw [value, Nat.ofDigitChars_append] at h
  have hwhole : Nat.ofDigitChars 10 n.whole 0 ≤ digitLimit := le_trans (le_ofDigitChars _ _) h
  simp only [collected, collect_eq hwhole, collect_eq h, value, Nat.ofDigitChars_append]
  simp

/-- The magnitude of a numeral that drops no digits; none if it is too large. -/
def Numeral.magnitude? (n : Numeral) : Option Binary64 :=
  (ofNat? n.value).bind fun x => scale? (n.power.natAbs / 308 + 1) x n.power

/-- **A numeral whose digits and exponent are few is read as its magnitude**, with its sign. -/
theorem Numeral.float_eq {n : Numeral} {x : Binary64} (hvalue : n.value ≤ digitLimit)
    (hexponent : n.exponentValue.natAbs ≤ exponentLimit) (hx : n.magnitude? = some x)
    (rest : List Char) : n.float rest = .done (x.withSign n.negative) rest := by
  -- the exponent is collected from its digits, and none of them is dropped
  have hcollected : collect exponentLimit 0 (n.exponent.getD (false, [])).2 =
      (n.exponentValue.natAbs, []) := by
    rw [exponentValue] at hexponent ⊢
    cases he : n.exponent with
    | none => rfl
    | some e =>
      rw [he] at hexponent
      obtain ⟨negative, digits⟩ := e
      cases negative with
      | false =>
        simp only [Bool.false_eq_true, if_false, Int.natAbs_natCast] at hexponent ⊢
        exact collect_eq hexponent
      | true =>
        simp only [if_true, Int.natAbs_neg, Int.natAbs_natCast] at hexponent ⊢
        exact collect_eq hexponent
  -- the digits after the point are counted against it
  have hpower : (if (n.exponent.getD (false, [])).1 = true then
      -((n.fraction.getD []).length : Int) - n.exponentValue.natAbs
      else -((n.fraction.getD []).length : Int) + n.exponentValue.natAbs) = n.power := by
    rw [power, exponentValue]
    cases n.exponent with
    | none => simp
    | some e =>
      obtain ⟨negative, digits⟩ := e
      cases negative <;> simp <;> omega
  rw [magnitude?] at hx
  simp only [float, collected_eq hvalue, hcollected, hpower, hx]

/-! ## The numerals of decimals

The writer puts out characters; the reader takes apart a numeral.  In between stands the numeral
whose characters are those that the writer puts out, in either of the two layouts. -/

/-- The numeral of digits with a point after the first `whole` of them. -/
def positionalNumeral (negative : Bool) (digits : List Char) (whole : Int) : Numeral :=
  if whole ≤ 0 then
    ⟨negative, ['0'], some (List.replicate (-whole).toNat '0' ++ digits), none⟩
  else
    ⟨negative,
      digits.take whole.toNat ++
        List.replicate (whole.toNat - (digits.take whole.toNat).length) '0',
      some (if (digits.drop whole.toNat).isEmpty then ['0'] else digits.drop whole.toNat), none⟩

/-- The numeral of digits with a point after the first, and an exponent. -/
def scientificNumeral (negative : Bool) (digits : List Char) (exponent : Int) : Numeral :=
  ⟨negative, digits.take 1, if digits.length ≤ 1 then none else some (digits.drop 1),
    some (decide (exponent < 0), Nat.toDigits 10 exponent.natAbs)⟩

/-- The numeral of a decimal. -/
def decimalNumeral (negative : Bool) (d : Decimal) : Numeral :=
  let digits := Nat.toDigits 10 d.digits
  let exponent : Int := d.exponent + digits.length - 1
  if decimalLayout.leastPositional ≤ exponent ∧ exponent ≤ decimalLayout.greatestPositional then
    positionalNumeral negative digits (exponent + 1)
  else scientificNumeral negative digits exponent

/-- The numeral of a floating point number. -/
def floatNumeral (x : Binary64) : Numeral :=
  if x.isZero then ⟨x.negative, ['0'], some ['0'], none⟩ else decimalNumeral x.negative x.shortest

/-- The layout with a point and no exponent. -/
theorem characters_positionalNumeral (negative : Bool) (digits : List Char) (whole : Int) :
    (positionalNumeral negative digits whole).characters =
      DecimalLayout.positional digits whole := by
  rw [positionalNumeral, DecimalLayout.positional]
  split
  · simp [Numeral.characters]
  · simp [Numeral.characters]

/-- The layout with an exponent, whose sign is always written. -/
theorem characters_scientificNumeral (negative : Bool) (digits : List Char) (exponent : Int) :
    (scientificNumeral negative digits exponent).characters =
      decimalLayout.scientific digits exponent := by
  have hsign : ∀ text : List Char, (if exponent < 0 then ['-'] else ['+']) ++ text =
      (if decide (exponent < 0) = true then '-' else '+') :: text := by
    intro text
    by_cases h : exponent < 0 <;> simp [h]
  rw [DecimalLayout.scientific, DecimalLayout.exponentText, scientificNumeral]
  change _ = _ ++ ((if exponent < 0 then ['-'] else ['+']) ++ _)
  rw [hsign]
  by_cases hlength : digits.length ≤ 1
  · simp [Numeral.characters, hlength]
  · simp [Numeral.characters, hlength]

theorem characters_decimalNumeral (negative : Bool) (d : Decimal) :
    (decimalNumeral negative d).characters = decimalLayout.decimalText d := by
  simp only [decimalNumeral, DecimalLayout.decimalText]
  split
  · exact characters_positionalNumeral ..
  · exact characters_scientificNumeral ..

/-- What the writer writes is the numeral. -/
theorem text_eq (x : Binary64) : decimalLayout.text x =
    (if x.negative then ['-'] else []) ++ (floatNumeral x).characters := by
  rw [DecimalLayout.text, floatNumeral]
  by_cases hzero : x.isZero = true
  · rw [if_pos hzero, if_pos hzero]
    rfl
  · rw [if_neg hzero, if_neg hzero, characters_decimalNumeral]

/-! ## The numerals of decimals in range

Each layout has to be well formed, with no zero in front of other digits, and has to stand for the
decimal that it lays out.  The second is not quite so for a decimal with zeros between its digits
and the point: there the numeral has these zeros as digits and no exponent for them.  Its value is
still the same, but for the reader it is another product, so that case is kept apart: the digits
with their zeros are few enough to be collected, and the one zero after the point is all that they
are scaled by. -/

section InRange

variable {d : Decimal} (h : d.InRange) (negative : Bool)

include h

/-- No digits start with a zero. -/
theorem toDigits_ne_zero_append {more : List Char} : Nat.toDigits 10 d.digits ≠ '0' :: more := by
  intro heq
  cases more with
  | nil =>
    have hvalue := @Nat.ofDigitChars_ten_toDigits d.digits
    rw [heq] at hvalue
    exact absurd h.pos (by rw [← hvalue]; decide)
  | cons c more => exact toDigits_ne_zero_cons heq

theorem length_toDigits_le : (Nat.toDigits 10 d.digits).length ≤ 18 :=
  (Nat.length_toDigits_le_iff (by decide) (by decide)).2 (lt_of_le_of_lt h.digits_le (by decide))

omit h in
theorem isDigit_of_mem_zeros {n : Nat} {c : Char} (hc : c ∈ List.replicate n '0') :
    isDigit c = true := by
  rw [List.eq_of_mem_replicate hc]
  decide

/-- A zero comes first only if it is the whole part, and there are digits on both sides of the
point. -/
theorem wellFormed_positionalNumeral (whole : Int) :
    (positionalNumeral negative (Nat.toDigits 10 d.digits) whole).WellFormed := by
  rw [positionalNumeral]
  split
  · refine ⟨by simp, by simp, by simp; decide, ?_, by simp⟩
    rintro digits hdigits
    obtain rfl := Option.some_inj.1 hdigits
    refine ⟨by simp, fun c hc => ?_⟩
    exact (List.mem_append.1 hc).elim isDigit_of_mem_zeros isDigit_of_mem_toDigits
  -- the whole part has the first digit of the decimal, and that is no zero
  · next hwhole =>
    cases hdigits : Nat.toDigits 10 d.digits with
    | nil => exact absurd hdigits Nat.toDigits_ne_nil
    | cons first others =>
      obtain ⟨w, hw⟩ : ∃ w, whole.toNat = w + 1 := ⟨whole.toNat - 1, by omega⟩
      have hall : ∀ c ∈ first :: others, isDigit c = true := fun c hc =>
        isDigit_of_mem_toDigits (hdigits ▸ hc)
      rw [hw]
      refine ⟨by simp, ?_, ?_, ?_, by simp⟩
      · intro c more heq
        obtain rfl : first = '0' := by simpa using (List.cons.inj heq).1
        exact toDigits_ne_zero_append h hdigits
      · exact fun c hc => (List.mem_append.1 hc).elim
          (fun hc => hall c (List.mem_of_mem_take hc)) isDigit_of_mem_zeros
      · rintro digits heq
        obtain rfl := Option.some_inj.1 heq
        split
        · exact ⟨by simp, by simp; decide⟩
        · next hne => exact ⟨by simpa using hne, fun c hc => hall c (List.mem_of_mem_drop hc)⟩

omit h in
/-- With one digit in front of the point there is none that it could follow. -/
theorem wellFormed_scientificNumeral (exponent : Int) :
    (scientificNumeral negative (Nat.toDigits 10 d.digits) exponent).WellFormed := by
  rw [scientificNumeral]
  refine ⟨by simp, ?_, ?_, ?_, ?_⟩
  · intro c more heq
    have := congrArg List.length heq
    simp only [List.length_take, List.length_cons] at this
    omega
  · exact fun c hc => isDigit_of_mem_toDigits (List.mem_of_mem_take hc)
  · intro digits hdigits
    simp only at hdigits
    split at hdigits
    · cases hdigits
    · obtain rfl := Option.some_inj.1 hdigits
      refine ⟨?_, fun c hc => isDigit_of_mem_toDigits (List.mem_of_mem_drop hc)⟩
      rw [Ne, List.drop_eq_nil_iff]
      omega
  · rintro e he
    obtain rfl := Option.some_inj.1 he
    exact ⟨Nat.toDigits_ne_nil, fun c => isDigit_of_mem_toDigits⟩

omit h in
/-- Digits with zeros after them, of which the last stands after the point, are few. -/
theorem ofDigitChars_zeros_lt {digits : List Char} {whole : Int}
    (hdigits : ∀ c ∈ digits, isDigit c = true) (hwhole : digits.length ≤ whole.toNat)
    (hle : whole ≤ 16) : Nat.ofDigitChars 10
      ((digits ++ List.replicate (whole.toNat - digits.length) '0') ++ ['0']) 0 < 10 ^ 17 := by
  have hall : ∀ c ∈ (digits ++ List.replicate (whole.toNat - digits.length) '0') ++ ['0'],
      isDigit c = true := fun c hc => (List.mem_append.1 hc).elim
    (fun hc => (List.mem_append.1 hc).elim (hdigits c) isDigit_of_mem_zeros)
    (fun hc => isDigit_of_mem_zeros (n := 1) hc)
  have hlength : ((digits ++ List.replicate (whole.toNat - digits.length) '0') ++ ['0']).length ≤
      17 := by
    rw [List.length_append, List.length_append, List.length_replicate, List.length_singleton]
    omega
  exact lt_of_lt_of_le (ofDigitChars_lt hall) (Nat.pow_le_pow_right (by decide) hlength)

omit h in
/-- With a point between them the digits keep their value, unless they need zeros before the point;
then they are few. -/
theorem value_positionalNumeral {whole : Int}
    (hwhole : whole = d.exponent + (Nat.toDigits 10 d.digits).length) (hle : whole ≤ 16) :
    ((positionalNumeral negative (Nat.toDigits 10 d.digits) whole).value = d.digits ∧
      (positionalNumeral negative (Nat.toDigits 10 d.digits) whole).power = d.exponent) ∨
    ((positionalNumeral negative (Nat.toDigits 10 d.digits) whole).value < 10 ^ 17 ∧
      (positionalNumeral negative (Nat.toDigits 10 d.digits) whole).power = -1) := by
  have hdigits : ∀ c ∈ Nat.toDigits 10 d.digits, isDigit c = true := fun c =>
    isDigit_of_mem_toDigits
  have hvalue : Nat.ofDigitChars 10 (Nat.toDigits 10 d.digits) 0 = d.digits :=
    Nat.ofDigitChars_ten_toDigits
  -- from here on the digits are any digits with this value
  generalize Nat.toDigits 10 d.digits = digits at *
  rw [positionalNumeral]
  split
  -- the point stands in front of all digits: zeros after it add nothing to the value
  · refine .inl ⟨?_, ?_⟩
    · rw [Numeral.value, Option.getD_some, Nat.ofDigitChars_append, Nat.ofDigitChars_append,
        show Nat.ofDigitChars 10 ['0'] 0 = 0 from rfl, Nat.ofDigitChars_replicate_zero, Nat.mul_zero,
        hvalue]
    · simp only [Numeral.power, Numeral.exponentValue, Option.getD_some, List.length_append,
        List.length_replicate]
      omega
  -- the point stands after all digits, or in the middle of them
  by_cases hlength : digits.length ≤ whole.toNat
  · rw [List.take_of_length_le hlength, List.drop_of_length_le hlength]
    refine .inr ⟨?_, rfl⟩
    exact ofDigitChars_zeros_lt hdigits hlength hle
  · have hdrop : (digits.drop whole.toNat).isEmpty = false := by
      rw [List.isEmpty_eq_false_iff, Ne, List.drop_eq_nil_iff]
      exact hlength
    have htake : whole.toNat - (digits.take whole.toNat).length = 0 := by
      rw [List.length_take]
      omega
    rw [htake, hdrop, List.replicate_zero, List.append_nil, if_neg Bool.false_ne_true]
    refine .inl ⟨?_, ?_⟩
    · rw [Numeral.value, Option.getD_some, List.take_append_drop, hvalue]
    · simp only [Numeral.power, Numeral.exponentValue, Option.getD_some, List.length_drop]
      omega

omit h in
/-- The exponent puts the point back where the decimal has it. -/
theorem value_scientificNumeral {exponent : Int}
    (hexponent : exponent = d.exponent + (Nat.toDigits 10 d.digits).length - 1) :
    (scientificNumeral negative (Nat.toDigits 10 d.digits) exponent).value = d.digits ∧
      (scientificNumeral negative (Nat.toDigits 10 d.digits) exponent).power = d.exponent ∧
      (scientificNumeral negative (Nat.toDigits 10 d.digits) exponent).exponentValue = exponent := by
  have hpos : 0 < (Nat.toDigits 10 d.digits).length := Nat.length_toDigits_pos
  have hvalue : Nat.ofDigitChars 10 (Nat.toDigits 10 d.digits) 0 = d.digits :=
    Nat.ofDigitChars_ten_toDigits
  generalize Nat.toDigits 10 d.digits = digits at *
  have hwritten : (scientificNumeral negative digits exponent).exponentValue = exponent := by
    simp only [scientificNumeral, Numeral.exponentValue, Nat.ofDigitChars_ten_toDigits]
    by_cases hneg : exponent < 0
    · rw [decide_eq_true hneg, if_pos rfl]
      omega
    · rw [decide_eq_false hneg, if_neg Bool.false_ne_true]
      omega
  refine ⟨?_, ?_, hwritten⟩
  · simp only [Numeral.value, scientificNumeral]
    split
    · next hlength => rw [List.take_of_length_le hlength, Option.getD_none, List.append_nil, hvalue]
    · rw [Option.getD_some, List.take_append_drop, hvalue]
  · rw [Numeral.power, hwritten]
    simp only [scientificNumeral]
    split
    · rw [Option.getD_none, List.length_nil]
      omega
    · rw [Option.getD_some, List.length_drop]
      omega

end InRange

/-! ## Reading floating point numbers

What is read is some number, which `reread` names.  It is not claimed to be the number that was
written: the one rounding of the reader can end at a neighbour of it. -/

/-- Numerals that the reader takes for floating point numbers in range. -/
structure Numeral.IsFloat (n : Numeral) : Prop where
  wellFormed : n.WellFormed
  integer?_eq : n.integer? = none
  value_le : n.value ≤ digitLimit
  exponentValue_le : n.exponentValue.natAbs ≤ exponentLimit
  isSome_magnitude? : n.magnitude?.isSome = true

/-- **The numeral of a decimal in range is read as a floating point number.** -/
theorem isFloat_decimalNumeral {d : Decimal} (h : d.InRange) (negative : Bool) :
    (decimalNumeral negative d).IsFloat := by
  have hlength := length_toDigits_le h
  have hpos : 0 < (Nat.toDigits 10 d.digits).length := Nat.length_toDigits_pos
  have hdigits := h.digits_le
  have hscaled := isSome_scaled h
  have hlimit : 10 ^ 18 ≤ digitLimit := by decide
  simp only [decimalNumeral]
  split
  · next hexponent =>
    have hle := hexponent.2
    rw [show decimalLayout.greatestPositional = 15 from rfl] at hle
    -- a point is always written, so this is never taken for an integer
    have hnone : ∀ digits whole, (positionalNumeral negative digits whole).integer? = none ∧
        (positionalNumeral negative digits whole).exponentValue = 0 := by
      intro digits whole
      rw [positionalNumeral]
      split <;> exact ⟨rfl, rfl⟩
    have hvalue := @value_positionalNumeral d negative
      (d.exponent + (Nat.toDigits 10 d.digits).length - 1 + 1) (by omega) (by omega)
    refine ⟨wellFormed_positionalNumeral h negative _, (hnone _ _).1, ?_, ?_, ?_⟩
    · rcases hvalue with ⟨hvalue, -⟩ | ⟨hvalue, -⟩ <;> omega
    · rw [(hnone _ _).2]
      decide
    · rw [Numeral.magnitude?]
      rcases hvalue with ⟨hvalue, hpower⟩ | ⟨hvalue, hpower⟩
      -- the decimal itself is scaled, or its digits with their zeros, by one tenth
      · rwa [hvalue, hpower]
      · rw [hpower]
        exact isSome_scaled_of_neg (e := 1) (by omega) (by decide) (by decide)
  · obtain ⟨hvalue, hpower, hexponent⟩ := value_scientificNumeral (d := d) negative rfl
    refine ⟨wellFormed_scientificNumeral negative _, ?_, ?_, ?_, ?_⟩
    · rw [Numeral.integer?, if_pos (.inr rfl)]
    · omega
    · have hgreatest := exponent_le h
      have hleast := h.least_le
      rw [hexponent]
      simp only [exponentLimit]
      omega
    · rwa [Numeral.magnitude?, hvalue, hpower]

/-- **So is that of any floating point number.** -/
theorem isFloat_floatNumeral (x : Binary64) : (floatNumeral x).IsFloat := by
  rw [floatNumeral]
  by_cases hzero : x.isZero = true
  -- a zero has no shortest decimal and is written as it is
  · rw [if_pos hzero]
    have hdigit : ∀ c ∈ ['0'], isDigit c = true := List.forall_mem_singleton.2 (by decide)
    have hmagnitude : (Numeral.magnitude? ⟨false, ['0'], some ['0'], none⟩).isSome = true := by
      decide +kernel
    refine ⟨⟨by simp, by simp, hdigit, ?_, by simp⟩, rfl, Nat.zero_le _, Nat.zero_le _, hmagnitude⟩
    rintro digits hdigits
    obtain rfl := Option.some_inj.1 hdigits
    exact ⟨by simp, hdigit⟩
  · rw [if_neg hzero]
    exact isFloat_decimalNumeral (Binary64.shortest_inRange (by simpa using hzero)) x.negative

/-- The sign is that of the number, also for a zero. -/
theorem negative_floatNumeral (x : Binary64) : (floatNumeral x).negative = x.negative := by
  rw [floatNumeral]
  split
  · rfl
  · simp only [decimalNumeral]
    split
    · rw [positionalNumeral]
      split <;> rfl
    · rfl

/-- What a written number is read as. -/
def reread (x : Binary64) : Binary64 :=
  ((floatNumeral x).magnitude?.getD default).withSign x.negative

/-- **A written floating point number is read as a number.** -/
theorem readNumber_floatNumeral (x : Binary64) {rest : List Char} (hrest : EndsNumber rest) :
    readNumber x.negative ((floatNumeral x).characters ++ rest) =
      .done (.float (reread x)) rest := by
  have h := isFloat_floatNumeral x
  obtain ⟨y, hy⟩ := Option.isSome_iff_exists.1 h.isSome_magnitude?
  have hfloat := Numeral.float_eq h.value_le h.exponentValue_le hy rest
  rw [← negative_floatNumeral x, readNumber, readNumeral_characters h.wellFormed hrest,
    Reading.bind_done, Numeral.number, h.integer?_eq]
  simp only [hfloat, Reading.map_done, reread, hy, Option.getD_some, negative_floatNumeral]

end Json
end RpcReference
