import RpcReference.Text.Escape
import RpcReference.Yaml.Cursor

/-!
# Addresses in tags

A tag is an address, written with a part of the ASCII characters.  A percent sign and two
hexadecimal digits stand for a byte, and bytes beyond ASCII have to come in sequences that look like
UTF-8.  A sequence need not stand for a character, though: it may be longer than needed, or beyond
the last code point.

* `Address` — what an address stands for.
* `Address.read` — reads an address from the start of a text.
* `Address.untilNull` — **an address ends at a null character**, however it is written.
-/

set_option autoImplicit false

namespace RpcReference.Yaml

/-- The characters that an address stands for; none for a sequence of bytes that is no character. -/
abbrev Address := List (Option Char)

namespace Address

/-- The address that a text stands for without escapes. -/
def ofText (text : String) : Address := text.toList.map some

/-- The part of an address before its first null character. -/
def untilNull (address : Address) : Address := address.takeWhile (· ≠ some '\x00')

/-- Whether an address is a text. -/
def isText (address : Address) : Bool := address.all Option.isSome

/-! ## Escapes -/

/-- A byte written as a percent sign and two hexadecimal digits. -/
def escapedByte? : List Char → Option Nat
  | '%' :: a :: b :: _ => do return (← Text.hexDigit? a) * 16 + (← Text.hexDigit? b)
  | _ => none

/-- What the first byte of a sequence says about it. -/
structure SequenceStart where
  /-- The number of bytes that follow. -/
  followers : Nat
  /-- The first digits of the code point. -/
  digits : Nat
  /-- The least code point that needs so many bytes. -/
  least : Nat

/-- What the first byte of a sequence says. -/
def sequenceStart? (byte : Nat) : Option SequenceStart :=
  if byte < 0x80 then some ⟨0, byte, 0⟩
  else if 0xc0 ≤ byte ∧ byte < 0xe0 then some ⟨1, byte - 0xc0, 0x80⟩
  else if 0xe0 ≤ byte ∧ byte < 0xf0 then some ⟨2, byte - 0xe0, 0x800⟩
  else if 0xf0 ≤ byte ∧ byte < 0xf8 then some ⟨3, byte - 0xf0, 0x10000⟩
  else none

/-- The digits of a code point in a byte that follows others. -/
def followingDigits? (byte : Nat) : Option Nat :=
  if 0x80 ≤ byte ∧ byte < 0xc0 then some (byte - 0x80) else none

/-- How many characters an escaped byte is written with. -/
def escapeLength : Nat := 3

/-- Reads as many escaped bytes as follow the first one, onto the digits read before. -/
def readFollowers : Nat → Nat → List Char → Option Nat
  | 0, value, _ => some value
  | count + 1, value, text => do
      let digits ← (escapedByte? text).bind followingDigits?
      readFollowers count (value * 64 + digits) (text.drop escapeLength)

/-- Reads a sequence of escaped bytes: the character that it stands for, if any, and how many
characters it is written with. -/
def readEscape (text : List Char) : Option (Option Char × Nat) := do
  let start ← (escapedByte? text).bind sequenceStart?
  let value ← readFollowers start.followers start.digits (text.drop escapeLength)
  return (if start.least ≤ value ∧ value.isValidChar then some (Char.ofNat value) else none,
    (start.followers + 1) * escapeLength)

/-! ## Reading -/

/-- The characters of an address besides word characters. -/
def marks : List Char :=
  [';', '/', '?', ':', '@', '&', '=', '+', '$', '.', '!', '~', '*', '\'', '(', ')']

/-- The punctuation that is part of an address between angle brackets only. -/
def verbatimMarks : List Char := [',', '[', ']']

/-- Reads an address, which may be empty: what it stands for, and how many characters it is written
with.  `fuel` bounds the number of characters. -/
def read (isVerbatim : Bool) : Nat → List Char → Option (Address × Nat)
  | 0, _ => some ([], 0)
  | _ + 1, [] => some ([], 0)
  | fuel + 1, c :: rest =>
      if c = '%' then do
        let (e, width) ← readEscape (c :: rest)
        let (more, length) ← read isVerbatim fuel (rest.drop (width - 1))
        return (e :: more, width + length)
      else if isWordCharacter c ∨ c ∈ marks ∨ (isVerbatim ∧ c ∈ verbatimMarks) then do
        let (more, length) ← read isVerbatim fuel rest
        return (some c :: more, 1 + length)
      else some ([], 0)

end Address
end RpcReference.Yaml
