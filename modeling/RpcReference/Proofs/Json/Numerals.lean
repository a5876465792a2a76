import Mathlib.Algebra.Group.Nat.Defs
import Mathlib.Data.List.TakeWhile
import RpcReference.Json.Scan
import RpcReference.Json.Writer

/-!
# Reading back numerals

A written number is a numeral: digits, perhaps a point and more digits, perhaps an exponent.

* `Json.readNumeral_characters` — **the parts of a well-formed numeral are found again**, if what
  follows does not go on with the number.
* `Json.readNumber_ofNat` — an integer in range is read as itself.
-/

set_option autoImplicit false

namespace RpcReference

namespace Json

/-! ## Digits

The writer takes its digits from the library, which has its own idea of what a digit is and of what
digits stand for.  Here the two are brought together with the reader's; the library also knows that
the digits of a number are as many as they have to be, and that is why no zero stands in front. -/

theorem isDigit_of_mem_toDigits {n : Nat} {c : Char} (h : c ∈ Nat.toDigits 10 n) :
    isDigit c = true := by
  have hdigit := Nat.isDigit_of_mem_toDigits (by decide) (by decide) h
  rw [Char.isDigit, Bool.and_eq_true] at hdigit
  exact decide_eq_true ⟨of_decide_eq_true hdigit.1, of_decide_eq_true hdigit.2⟩

theorem digitValue_lt {c : Char} (h : isDigit c = true) : digitValue c < 10 := by
  have hle : c.toNat ≤ '9'.toNat := (of_decide_eq_true h).2
  have h0 : '0'.toNat = 48 := rfl
  have h9 : '9'.toNat = 57 := rfl
  rw [digitValue]
  omega

/-- Digits stand for a number with as many places. -/
theorem ofDigitChars_lt {digits : List Char} (h : ∀ c ∈ digits, isDigit c = true) :
    Nat.ofDigitChars 10 digits 0 < 10 ^ digits.length := by
  induction digits with
  | nil => exact Nat.one_pos
  | cons c digits ih =>
    rw [Nat.ofDigitChars_cons, Nat.ofDigitChars_eq_ofDigitChars_zero, List.length_cons, Nat.pow_succ]
    have hc : c.toNat - '0'.toNat < 10 := digitValue_lt (h c List.mem_cons_self)
    have hrest := ih fun d hd => h d (List.mem_cons_of_mem _ hd)
    have hplace : 10 ^ digits.length * (10 * 0 + (c.toNat - '0'.toNat)) ≤ 10 ^ digits.length * 9 :=
      Nat.mul_le_mul_left _ (by omega)
    omega

/-- No number is written with a zero in front. -/
theorem toDigits_ne_zero_cons {n : Nat} {d : Char} {more : List Char} :
    Nat.toDigits 10 n ≠ '0' :: d :: more := by
  intro h
  have hvalue := @Nat.ofDigitChars_ten_toDigits n
  rw [h, Nat.ofDigitChars_cons] at hvalue
  have hall : ∀ c ∈ d :: more, isDigit c = true := fun c hc =>
    isDigit_of_mem_toDigits (n := n) (h ▸ List.mem_cons_of_mem _ hc)
  have hlt := ofDigitChars_lt hall
  have hlength := (Nat.length_toDigits_le_iff (n := n) (b := 10) (by decide)
    (List.length_pos_of_mem (List.mem_cons_self (a := d) (l := more)))).2 (hvalue ▸ hlt)
  rw [h, List.length_cons] at hlength
  omega

/-! ## The text of a numeral

Nothing marks the end of a number.  The reader goes on as long as it can, so a numeral is only read
back as itself where a text follows that it cannot go on with. -/

/-- Whether a number is over where a text starts. -/
def EndsNumber (rest : List Char) : Prop :=
  ∀ c ∈ rest.head?, isDigit c = false ∧ c ≠ '.' ∧ c ≠ 'e' ∧ c ≠ 'E'

theorem endsNumber_nil : EndsNumber [] := fun _ h => nomatch h

theorem endsNumber_cons {c : Char} {rest : List Char}
    (h : isDigit c = false ∧ c ≠ '.' ∧ c ≠ 'e' ∧ c ≠ 'E') : EndsNumber (c :: rest) := by
  intro d hd
  obtain rfl : c = d := Option.some_inj.1 hd
  exact h

/-- A numeral as it is written, without the minus sign before it. -/
def Numeral.characters (n : Numeral) : List Char :=
  n.whole ++
    (match n.fraction with
      | none => []
      | some digits => '.' :: digits) ++
    (match n.exponent with
      | none => []
      | some (negative, digits) => 'e' :: (if negative then '-' else '+') :: digits)

/-- There are digits wherever they have to be, and no zero before others. -/
structure Numeral.WellFormed (n : Numeral) : Prop where
  whole_ne_nil : n.whole ≠ []
  whole_ne_zero_cons : ∀ d more, n.whole ≠ '0' :: d :: more
  isDigit_whole : ∀ c ∈ n.whole, isDigit c = true
  fraction : ∀ digits ∈ n.fraction, digits ≠ [] ∧ ∀ c ∈ digits, isDigit c = true
  exponent : ∀ e ∈ n.exponent, e.2 ≠ [] ∧ ∀ c ∈ e.2, isDigit c = true

/-! ## Reading digits

Digits are read up to the first character that is none.  The four parts of a numeral that consist of
digits are read with the same two facts, one about the digits and one about what comes after them; a
part that is left out is told by the character that is not there. -/

section Digits

variable {digits rest : List Char}

/-- The digits of a text are read up to their end. -/
theorem takeWhile_isDigit_append (h : ∀ c ∈ digits, isDigit c = true)
    (hrest : ∀ c ∈ rest.head?, isDigit c = false) :
    (digits ++ rest).takeWhile isDigit = digits := by
  rw [List.takeWhile_append_of_pos h]
  cases rest with
  | nil => simp
  | cons c rest => simp [hrest c rfl]

/-- What follows them is left. -/
theorem dropWhile_isDigit_append (h : ∀ c ∈ digits, isDigit c = true)
    (hrest : ∀ c ∈ rest.head?, isDigit c = false) :
    (digits ++ rest).dropWhile isDigit = rest := by
  rw [List.dropWhile_append_of_pos h]
  cases rest with
  | nil => rfl
  | cons c rest => simp [hrest c rfl]

/-- The reader refuses a zero in front of other digits, so it has to be known that there is none. -/
theorem readWhole_append (hne : digits ≠ []) (hzero : ∀ d more, digits ≠ '0' :: d :: more)
    (h : ∀ c ∈ digits, isDigit c = true) (hrest : ∀ c ∈ rest.head?, isDigit c = false) :
    readWhole (digits ++ rest) = .done digits rest := by
  rw [readWhole, takeWhile_isDigit_append h hrest, dropWhile_isDigit_append h hrest]
  split
  · exact absurd rfl hne
  · exact absurd rfl (hzero _ _)
  · rfl

theorem readFraction_append (hne : digits ≠ []) (h : ∀ c ∈ digits, isDigit c = true)
    (hrest : ∀ c ∈ rest.head?, isDigit c = false) :
    readFraction ('.' :: digits ++ rest) = .done (some digits) rest := by
  simp only [List.cons_append, readFraction, takeWhile_isDigit_append h hrest,
    dropWhile_isDigit_append h hrest]
  rw [if_neg (by simpa using hne)]

theorem readExponentDigits_append (negative : Bool) (hne : digits ≠ [])
    (h : ∀ c ∈ digits, isDigit c = true) (hrest : ∀ c ∈ rest.head?, isDigit c = false) :
    readExponentDigits negative (digits ++ rest) = .done (some (negative, digits)) rest := by
  simp only [readExponentDigits, takeWhile_isDigit_append h hrest, dropWhile_isDigit_append h hrest]
  rw [if_neg (by simpa using hne)]

theorem readExponent_append (negative : Bool) (hne : digits ≠ [])
    (h : ∀ c ∈ digits, isDigit c = true) (hrest : ∀ c ∈ rest.head?, isDigit c = false) :
    readExponent ('e' :: (if negative then '-' else '+') :: digits ++ rest) =
      .done (some (negative, digits)) rest := by
  cases negative with
  | false => exact readExponentDigits_append false hne h hrest
  | true => exact readExponentDigits_append true hne h hrest

/-- Without a point there is no fraction. -/
theorem readFraction_of_head (h : ∀ c ∈ rest.head?, c ≠ '.') :
    readFraction rest = .done none rest := by
  cases rest with
  | nil => rfl
  | cons c rest =>
    rw [readFraction]
    exact fun text htext => h c rfl (List.cons.inj htext).1

/-- Without its letter there is no exponent. -/
theorem readExponent_of_head (h : ∀ c ∈ rest.head?, c ≠ 'e' ∧ c ≠ 'E') :
    readExponent rest = .done none rest := by
  cases rest with
  | nil => rfl
  | cons c rest => simp [readExponent, h c rfl]

end Digits

/-! ## Reading a numeral

With a point or without, with an exponent or without: in each of the four cases every part is
followed by the start of the next one, which is no digit, or by what follows the numeral. -/

theorem EndsNumber.isDigit {rest : List Char} (h : EndsNumber rest) :
    ∀ c ∈ rest.head?, isDigit c = false := fun c hc => (h c hc).1

/-- **The parts of a well-formed numeral are found again.** -/
theorem readNumeral_characters {n : Numeral} {rest : List Char} (h : n.WellFormed)
    (hrest : EndsNumber rest) :
    readNumeral n.negative (n.characters ++ rest) = .done n rest := by
  obtain ⟨negative, whole, fraction, exponent⟩ := n
  -- each part is read whatever follows it, so these three are put together in any case
  have hwhole : ∀ text, (∀ c ∈ text.head?, isDigit c = false) →
      readWhole (whole ++ text) = .done whole text := fun text htext =>
    readWhole_append h.whole_ne_nil h.whole_ne_zero_cons h.isDigit_whole htext
  have hpoint : ∀ digits ∈ fraction, ∀ text, (∀ c ∈ text.head?, isDigit c = false) →
      readFraction ('.' :: digits ++ text) = .done (some digits) text := fun digits hd text htext =>
    readFraction_append (h.fraction digits hd).1 (h.fraction digits hd).2 htext
  have hletter : ∀ e ∈ exponent,
      readExponent ('e' :: (if e.1 then '-' else '+') :: e.2 ++ rest) = .done (some e) rest :=
    fun e he => readExponent_append e.1 (h.exponent e he).1 (h.exponent e he).2 hrest.isDigit
  cases fraction with
  | none =>
    cases exponent with
    | none =>
      simp only [Numeral.characters, readNumeral, List.append_nil]
      rw [hwhole _ hrest.isDigit, Reading.bind_done,
        readFraction_of_head fun c hc => (hrest c hc).2.1, Reading.bind_done,
        readExponent_of_head fun c hc => (hrest c hc).2.2, Reading.map_done]
    | some e =>
      simp only [Numeral.characters, readNumeral, List.append_nil, List.append_assoc]
      rw [hwhole _ (by simp; decide), Reading.bind_done, readFraction_of_head (by simp),
        Reading.bind_done, hletter e rfl, Reading.map_done]
  | some digits =>
    cases exponent with
    | none =>
      simp only [Numeral.characters, readNumeral, List.append_nil, List.append_assoc]
      rw [hwhole _ (by simp; decide), Reading.bind_done, hpoint digits rfl _ hrest.isDigit,
        Reading.bind_done, readExponent_of_head fun c hc => (hrest c hc).2.2, Reading.map_done]
    | some e =>
      simp only [Numeral.characters, readNumeral, List.append_assoc]
      rw [hwhole _ (by simp; decide), Reading.bind_done, hpoint digits rfl _ (by simp; decide),
        Reading.bind_done, hletter e rfl, Reading.map_done]

/-! ## Integers

An integer is written without a point and without an exponent, and that is how the reader knows it
for one.  Beyond 64 bits it would be taken for a floating point number, and a negative zero always
is. -/

/-- The numeral of a natural number, or of its negation. -/
def Numeral.ofNat (negative : Bool) (n : Nat) : Numeral :=
  ⟨negative, Nat.toDigits 10 n, none, none⟩

theorem Numeral.wellFormed_ofNat (negative : Bool) (n : Nat) : (ofNat negative n).WellFormed where
  whole_ne_nil := Nat.toDigits_ne_nil
  whole_ne_zero_cons _ _ := toDigits_ne_zero_cons
  isDigit_whole _ := isDigit_of_mem_toDigits
  fraction _ h := nomatch h
  exponent _ h := nomatch h

theorem intCharacters_eq (n : Int) :
    intCharacters n =
      (if n < 0 then ['-'] else []) ++ (Numeral.ofNat (decide (n < 0)) n.natAbs).characters := by
  simp [intCharacters, Numeral.characters, Numeral.ofNat]

/-- Whether an integer is read as an integer. -/
def IsReadableInt (n : Int) : Prop := Number.leastInt ≤ n ∧ n ≤ Number.greatestInt

instance (n : Int) : Decidable (IsReadableInt n) :=
  inferInstanceAs (Decidable (Number.leastInt ≤ n ∧ n ≤ Number.greatestInt))

theorem Numeral.integer?_ofNat {n : Int} (h : IsReadableInt n) :
    (ofNat (decide (n < 0)) n.natAbs).integer? = some n := by
  obtain ⟨hleast, hgreatest⟩ := h
  simp only [integer?, ofNat, Option.isSome_none, Bool.false_eq_true, or_self, if_false,
    Nat.ofDigitChars_ten_toDigits, decide_eq_true_eq]
  by_cases hneg : n < 0
  · have habs : (n.natAbs : Int) = -n := by omega
    rw [if_pos hneg, habs, if_pos ⟨by omega, by omega⟩, Int.neg_neg]
  · have habs : (n.natAbs : Int) = n := by omega
    rw [if_neg hneg, habs, if_pos hgreatest]

/-- **An integer in range is read as itself.** -/
theorem readNumber_ofNat {n : Int} {rest : List Char} (h : IsReadableInt n)
    (hrest : EndsNumber rest) :
    readNumber (decide (n < 0))
        ((Numeral.ofNat (decide (n < 0)) n.natAbs).characters ++ rest) = .done (.int n) rest := by
  have hread := readNumeral_characters (Numeral.wellFormed_ofNat (decide (n < 0)) n.natAbs) hrest
  have hvalue := Numeral.integer?_ofNat h
  rw [readNumber]
  change (readNumeral (Numeral.ofNat (decide (n < 0)) n.natAbs).negative _).bind _ = _
  rw [hread, Reading.bind_done, Numeral.number, hvalue]

end Json
end RpcReference
