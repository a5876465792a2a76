import RpcReference.Json.Basic
import RpcReference.Json.Fault
import RpcReference.Text.Escape

/-!
# The words of a JSON text

Blanks, words, strings and numbers.  Each reading function takes the text from its own start and
gives what it read with the text after it, so that what a function means is a statement about two
lists of characters.

* `skipBlanks`, `readWord`.
* `readString` — a string after its opening quote; `readEscape` reads one escape of it.
* `Numeral` — the parts of a written number, read by `readNumeral`; `Numeral.number` is its value.

The value of a number that is not an integer in range is found in one pass: **digits are collected
while they fit 64 bits, the others are dropped, and the collected digits are scaled by one
multiplication or division**.  That is not always the nearest binary64 number.
-/

set_option autoImplicit false

namespace RpcReference.Json

-- Powers are those of the core library, whatever else is imported.
attribute [local instance (high)] instPowNat

/-! ## Blanks and words -/

/-- Space, tab, line feed and carriage return. -/
def isBlank (c : Char) : Bool := c = ' ' || c = '\t' || c = '\n' || c = '\r'

/-- The text from its first character that is no blank. -/
def skipBlanks (text : List Char) : List Char := text.dropWhile isBlank

/-- Reads the characters of `word` one by one; the one that differs counts as read. -/
def readWord : List Char → List Char → Reading Unit
  | [], text => .done () text
  | _ :: _, [] => .before .endInValue []
  | expected :: word, c :: rest =>
      if c = expected then readWord word rest else .atNext .expectedIdent (c :: rest)

/-! ## Strings -/

/-- The value of four hexadecimal digits. -/
def hexValue4? (a b c d : Char) : Option Nat := do
  let a ← Text.hexDigit? a
  let b ← Text.hexDigit? b
  let c ← Text.hexDigit? c
  let d ← Text.hexDigit? d
  return ((a * 16 + b) * 16 + c) * 16 + d

/-- Reads four hexadecimal digits.  Four bytes are taken before they are looked at; if there are
fewer, the string has no end. -/
def readHex (text : List Char) : Reading Nat :=
  match text with
  | a :: b :: c :: d :: rest =>
      match hexValue4? a b c d with
      | some n => .done n rest
      | none => .fault ⟨.invalidEscape, text, 4⟩
  | _ =>
      if Position.byteCount text < 4 then .before .endInString []
      else .fault ⟨.invalidEscape, text, 4⟩

/-- Whether a number is the first half of a character beyond U+FFFF. -/
def isLeadingSurrogate (n : Nat) : Bool := decide (0xd800 ≤ n ∧ n ≤ 0xdbff)

/-- Whether a number is the second half of a character beyond U+FFFF. -/
def isTrailingSurrogate (n : Nat) : Bool := decide (0xdc00 ≤ n ∧ n ≤ 0xdfff)

/-- Reads the second half of a character beyond U+FFFF, which has to be another escape. -/
def readTrailingSurrogate (leading : Nat) (text : List Char) : Reading Char :=
  match text with
  | [] => .before .endInString []
  | '\\' :: [] => .before .endInString []
  | '\\' :: 'u' :: rest =>
      (readHex rest).bind fun trailing rest =>
        if isTrailingSurrogate trailing then
          .done (Char.ofNat ((leading - 0xd800) * 0x400 + (trailing - 0xdc00) + 0x10000)) rest
        else .before .loneSurrogate rest
  | '\\' :: rest => .atNext .endOfHexEscape rest
  | _ => .atNext .endOfHexEscape text

/-- Reads an escape after its backslash. -/
def readEscape : List Char → Reading Char
  | [] => .before .endInString []
  | '"' :: rest => .done '"' rest
  | '\\' :: rest => .done '\\' rest
  | '/' :: rest => .done '/' rest
  | 'b' :: rest => .done '\x08' rest
  | 'f' :: rest => .done '\x0c' rest
  | 'n' :: rest => .done '\n' rest
  | 'r' :: rest => .done '\r' rest
  | 't' :: rest => .done '\t' rest
  | 'u' :: rest =>
      (readHex rest).bind fun n rest =>
        if isTrailingSurrogate n then .before .loneSurrogate rest
        else if isLeadingSurrogate n then readTrailingSurrogate n rest
        else .done (Char.ofNat n) rest
  | text => .atNext .invalidEscape text

/-- Reads the characters of a string up to its closing quote; `fuel` bounds their number. -/
def readCharacters : Nat → List Char → Reading (List Char)
  | 0, text => .before .endInString text
  | fuel + 1, text =>
      match text with
      | [] => .before .endInString []
      | '"' :: rest => .done [] rest
      | '\\' :: rest =>
          (readEscape rest).bind fun c rest => (readCharacters fuel rest).map (c :: ·)
      | c :: rest =>
          if c < ' ' then .before .controlCharacter rest
          else (readCharacters fuel rest).map (c :: ·)

/-- Reads a string after its opening quote; `fuel` bounds the number of its characters. -/
def readString (fuel : Nat) (text : List Char) : Reading String :=
  (readCharacters fuel text).map String.ofList

/-! ## The parts of a number -/

/-- The parts of a written number. -/
structure Numeral where
  /-- Whether a minus sign stands before it. -/
  negative : Bool
  /-- The digits before the point. -/
  whole : List Char
  /-- The digits after the point, if there is one. -/
  fraction : Option (List Char)
  /-- The sign and the digits of the exponent, if there is one. -/
  exponent : Option (Bool × List Char)

/-- Whether a character is one of the ten ASCII digits. -/
def isDigit (c : Char) : Bool := decide ('0' ≤ c ∧ c ≤ '9')

/-- Reads the digits before the point: at least one, and no zero before others. -/
def readWhole (text : List Char) : Reading (List Char) :=
  let digits := text.takeWhile isDigit
  let rest := text.dropWhile isDigit
  match digits with
  | [] => if text.isEmpty then .before .endInValue [] else .atNext .invalidNumber text
  | '0' :: d :: more => .atNext .invalidNumber (d :: more ++ rest)
  | _ => .done digits rest

/-- Reads a point and the digits after it, if there is a point. -/
def readFraction : List Char → Reading (Option (List Char))
  | '.' :: text =>
      let digits := text.takeWhile isDigit
      let rest := text.dropWhile isDigit
      if digits.isEmpty then
        if text.isEmpty then .before .endInValue [] else .atNext .invalidNumber text
      else .done (some digits) rest
  | text => .done none text

/-- The digits of an exponent after its sign; at least one has to be there. -/
def readExponentDigits (negative : Bool) (text : List Char) :
    Reading (Option (Bool × List Char)) :=
  let digits := text.takeWhile isDigit
  let rest := text.dropWhile isDigit
  if digits.isEmpty then
    if text.isEmpty then .before .endInValue [] else .atNext .invalidNumber text
  else .done (some (negative, digits)) rest

/-- Reads an exponent, if there is one. -/
def readExponent : List Char → Reading (Option (Bool × List Char))
  | c :: text =>
      if c = 'e' ∨ c = 'E' then
        match text with
        | '+' :: rest => readExponentDigits false rest
        | '-' :: rest => readExponentDigits true rest
        | _ => readExponentDigits false text
      else .done none (c :: text)
  | [] => .done none []

/-- Reads the parts of a number after its sign. -/
def readNumeral (negative : Bool) (text : List Char) : Reading Numeral :=
  (readWhole text).bind fun whole text =>
    (readFraction text).bind fun fraction text =>
      (readExponent text).map fun exponent => ⟨negative, whole, fraction, exponent⟩

/-! ## The value of a number -/

/-- The value of a digit. -/
def digitValue (c : Char) : Nat := c.toNat - '0'.toNat

/-- Appends digits to `n` until the next one would take it beyond `limit`; gives the result and the
digits that are left. -/
def collect (limit : Nat) : Nat → List Char → Nat × List Char
  | n, [] => (n, [])
  | n, d :: more =>
      if limit < n * 10 + digitValue d then (n, d :: more)
      else collect limit (n * 10 + digitValue d) more

/-- The greatest number of 64 bits, the limit of collected digits. -/
def digitLimit : Nat := 2 ^ (64 : Nat) - 1

/-- The greatest exponent that is written out before it counts as beyond every bound. -/
def exponentLimit : Nat := 2 ^ (31 : Nat) - 1

/-- The number nearest to a power of ten up to `10 ^ 308`. -/
def powerOfTen (exponent : Nat) : Binary64 := (Binary64.ofNat? (10 ^ exponent)).getD default

/-- The magnitude `digits * 10 ^ exponent`: one multiplication or division by a power of ten, after
divisions by `10 ^ 308` that bring the exponent into range.  None if it is too large. -/
def scale? : Nat → Binary64 → Int → Option Binary64
  | 0, x, _ => some x
  | fuel + 1, x, exponent =>
      if exponent.natAbs ≤ 308 then
        if 0 ≤ exponent then x.mul? (powerOfTen exponent.natAbs)
        else x.div? (powerOfTen exponent.natAbs)
      else if x.isZero then some x
      else if 0 ≤ exponent then none
      else (x.div? (powerOfTen 308)).bind fun y => scale? fuel y (exponent + 308)

/-- The digits that count for a number and the power of ten they are scaled by, its exponent left
out. -/
def Numeral.collected (n : Numeral) : Nat × Int :=
  let (whole, dropped) := collect digitLimit 0 n.whole
  let fraction := n.fraction.getD []
  let (digits, unused) := collect digitLimit whole fraction
  (digits, (dropped.length : Int) - ((fraction.length : Int) - (unused.length : Int)))

/-- The floating point value of a number that the text `rest` follows, or the fault of one that is
too large. -/
def Numeral.float (n : Numeral) (rest : List Char) : Reading Binary64 :=
  let (digits, power) := n.collected
  let (expNegative, expDigits) := n.exponent.getD (false, [])
  let (exponent, beyond) := collect exponentLimit 0 expDigits
  match beyond with
  | _ :: more =>
      if digits ≠ 0 ∧ expNegative = false then .before .numberOutOfRange (more ++ rest)
      else .done (Binary64.zero n.negative) rest
  | [] =>
      let total := if expNegative then power - exponent else power + exponent
      match (Binary64.ofNat? digits).bind fun x => scale? (total.natAbs / 308 + 1) x total with
      | some x => .done (x.withSign n.negative) rest
      | none => .before .numberOutOfRange rest

/-- The integer that a number without point and exponent is, unless it is out of range or a
negative zero. -/
def Numeral.integer? (n : Numeral) : Option Int :=
  if n.fraction.isSome ∨ n.exponent.isSome then none
  else
    let magnitude : Int := Nat.ofDigitChars 10 n.whole 0
    if n.negative then
      if 0 < magnitude ∧ Number.leastInt ≤ -magnitude then some (-magnitude) else none
    else if magnitude ≤ Number.greatestInt then some magnitude else none

/-- The value of a number that the text `rest` follows. -/
def Numeral.number (n : Numeral) (rest : List Char) : Reading Number :=
  match n.integer? with
  | some value => .done (.int value) rest
  | none => (n.float rest).map Number.float

/-- Reads a number after its sign. -/
def readNumber (negative : Bool) (text : List Char) : Reading Number :=
  (readNumeral negative text).bind Numeral.number

end RpcReference.Json
