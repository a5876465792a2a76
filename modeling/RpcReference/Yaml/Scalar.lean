import RpcReference.Json.Basic
import RpcReference.Text.Escape

/-!
# What a plain word means in YAML

A scalar without quotes is a null, a truth value or a number if it looks like one, and a text
otherwise.

* `Scalar.ofPlain` — the meaning of a plain word.
* Null is the empty word, `~` and `null`; the truth values are `true` and `false`; each word counts
  in lower case, upper case and with a capital.
* An integer has an optional sign and decimal digits without leading zeros, or hexadecimal, octal or
  binary digits after `0x`, `0o`, `0b`.  **Integers beyond 64 bits have no meaning** as long as they
  fit 128 bits.
* Any other decimal number that is finite as a binary64 number is a float, and so are `.inf` and
  `.nan`.
-/

set_option autoImplicit false

namespace RpcReference.Yaml

-- Powers are those of the core library, whatever else is imported.
attribute [local instance (high)] instPowNat

/-- The meaning of a plain word. -/
inductive Scalar where
  /-- No value. -/
  | null
  /-- A truth value. -/
  | bool (b : Bool)
  /-- An integer of 64 bits. -/
  | int (n : Int)
  /-- An integer that needs more than 64 bits. -/
  | hugeInt
  /-- A finite number. -/
  | float (x : Binary64)
  /-- An infinity or not a number. -/
  | notFinite
  /-- Any other word. -/
  | text
deriving DecidableEq

namespace Scalar

/-! ## Words -/

/-- The words that mean null; so does the empty one. -/
def nullWords : List String := ["null", "Null", "NULL", "~"]

/-- The words that mean true. -/
def trueWords : List String := ["true", "True", "TRUE"]

/-- The words that mean false. -/
def falseWords : List String := ["false", "False", "FALSE"]

/-- Whether a word means null. -/
def isNull (word : String) : Bool := word = "" || word ∈ nullWords

/-- The truth value of a word. -/
def bool? (word : String) : Option Bool :=
  if word ∈ trueWords then some true else if word ∈ falseWords then some false else none

/-! ## Integers -/

/-- The value of digits in a base, if there are digits and nothing else. -/
def digits? (base : Nat) (digits : List Char) : Option Nat :=
  if digits.isEmpty then none
  else
    digits.foldl
      (fun n c => do
        let n ← n
        let d ← Text.hexDigit? c
        if d < base then some (n * base + d) else none)
      (some 0)

/-- The value of digits with the mark of a base in front of them. -/
def based? : List Char → Option Nat
  | '0' :: 'x' :: digits => digits? 16 digits
  | '0' :: 'o' :: digits => digits? 8 digits
  | '0' :: 'b' :: digits => digits? 2 digits
  | _ => none

/-- A word without the sign in front of it. -/
def unsigned : List Char → List Char
  | '+' :: rest => rest
  | '-' :: rest => rest
  | word => word

/-- Whether a word is a run of digits with a leading zero, which is a text. -/
def hasLeadingZero (word : List Char) : Bool :=
  match unsigned word with
  | '0' :: d :: rest => (d :: rest).all fun c => decide ('0' ≤ c ∧ c ≤ '9')
  | _ => false

/-- The magnitude of an integer without its sign. -/
def magnitude? (word : List Char) : Option Nat :=
  match based? word with
  | some n => some n
  | none => if hasLeadingZero word then none else digits? 10 word

/-- The value of an integer with an optional sign. -/
def integer? : List Char → Option Int
  | '-' :: digits => (magnitude? digits).map fun n => -(n : Int)
  | '+' :: digits => (magnitude? digits).map fun n => (n : Int)
  | digits => (magnitude? digits).map fun n => (n : Int)

/-! ## Other numbers -/

/-- The digits of a decimal number without sign and exponent, and how many of them stand after the
point.  There has to be a digit. -/
def mantissa? (word : List Char) : Option (List Char × Nat) :=
  let isDigit (c : Char) : Bool := decide ('0' ≤ c ∧ c ≤ '9')
  let whole := word.takeWhile isDigit
  match word.dropWhile isDigit with
  | [] => if whole.isEmpty then none else some (whole, 0)
  | '.' :: fraction =>
      if fraction.all isDigit ∧ ¬(whole ++ fraction).isEmpty then
        some (whole ++ fraction, fraction.length)
      else none
  | _ => none

/-- The exponent of a number: a sign and digits. -/
def exponent? : List Char → Option Int
  | '-' :: digits => (digits? 10 digits).map fun n => -(n : Int)
  | '+' :: digits => (digits? 10 digits).map fun n => (n : Int)
  | digits => (digits? 10 digits).map fun n => (n : Int)

/-- The finite value of a decimal number without its sign. -/
def decimal? (negative : Bool) (word : List Char) : Option Binary64 := do
  let isMark (c : Char) : Bool := c = 'e' || c = 'E'
  let (digits, places) ← mantissa? (word.takeWhile (! isMark ·))
  let exponent ←
    match word.dropWhile (! isMark ·) with
    | [] => some 0
    | _ :: exponent => exponent? exponent
  Binary64.ofScientific? negative (Nat.ofDigitChars 10 digits 0) (exponent - places)

/-- The finite value of a decimal number. -/
def float? : List Char → Option Binary64
  | '-' :: word => decimal? true word
  | '+' :: word => decimal? false word
  | word => decimal? false word

/-- The words for numbers that are not finite. -/
def notFiniteWords : List String :=
  [".inf", ".Inf", ".INF", "+.inf", "+.Inf", "+.INF", "-.inf", "-.Inf", "-.INF", ".nan", ".NaN",
    ".NAN"]

/-! ## The meaning of a word -/

/-- The meaning of an integer: its value if it fits 64 bits, none at all if it fits 128. -/
def ofInteger (n : Int) : Option Scalar :=
  if Number.leastInt ≤ n ∧ n ≤ Number.greatestInt then some (int n)
  else if -2 ^ (127 : Nat) ≤ n ∧ n ≤ 2 ^ (128 : Nat) - 1 then some hugeInt
  else none

/-- The meaning of a number that is no integer of up to 128 bits. -/
def ofNumber (word : String) : Scalar :=
  if hasLeadingZero word.toList then text
  else if word ∈ notFiniteWords then notFinite
  else
    match float? word.toList with
    | some x => float x
    | none => text

/-- The meaning of a plain word. -/
def ofPlain (word : String) : Scalar :=
  if isNull word then null
  else
    match bool? word with
    | some b => bool b
    | none =>
        match (integer? word.toList).bind ofInteger with
        | some meaning => meaning
        | none => ofNumber word

end Scalar
end RpcReference.Yaml
