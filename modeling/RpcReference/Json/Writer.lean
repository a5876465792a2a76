import RpcReference.Json.Basic
import RpcReference.Decimal.Shortest

/-!
# Writing JSON

* `Json.compact` — a value on one line without blanks.
* `Json.pretty` — a value with one item or member a line, indented by two blanks a level; empty
  lists and objects stay `[]` and an empty pair of braces.

Strings escape the quote, the backslash and the characters below the blank; everything else stands
as it is.
-/

set_option autoImplicit false

namespace RpcReference.Json

/-! ## Numbers and strings -/

/-- Floating point numbers are written positionally from `0.00001` up to sixteen digits before the
point, and an exponent has a sign. -/
def decimalLayout : DecimalLayout := ⟨-5, 15, ['+']⟩

/-- An integer in decimal digits. -/
def intCharacters (n : Int) : List Char :=
  (if n < 0 then ['-'] else []) ++ Nat.toDigits 10 n.natAbs

/-- A number as it is written. -/
def numberCharacters : Number → List Char
  | .int n => intCharacters n
  | .float x => decimalLayout.text x

/-- One character of a string as it is written. -/
def escapedCharacter (c : Char) : List Char :=
  if c = '"' then ['\\', '"']
  else if c = '\\' then ['\\', '\\']
  else if c = '\x08' then ['\\', 'b']
  else if c = '\x0c' then ['\\', 'f']
  else if c = '\n' then ['\\', 'n']
  else if c = '\r' then ['\\', 'r']
  else if c = '\t' then ['\\', 't']
  else if c < ' ' then
    ['\\', 'u', '0', '0', Nat.digitChar (c.toNat / 16), Nat.digitChar (c.toNat % 16)]
  else [c]

/-- A string between its quotes. -/
def stringCharacters (s : String) : List Char :=
  '"' :: s.toList.flatMap escapedCharacter ++ ['"']

/-! ## One line -/

mutual

/-- A value on one line. -/
def compactCharacters : Json → List Char
  | null => ['n', 'u', 'l', 'l']
  | bool true => ['t', 'r', 'u', 'e']
  | bool false => ['f', 'a', 'l', 's', 'e']
  | number n => numberCharacters n
  | string s => stringCharacters s
  | array [] => ['[', ']']
  | array (item :: items) => '[' :: compactCharacters item ++ compactItems items
  | object [] => ['{', '}']
  | object ((key, value) :: members) =>
      '{' :: stringCharacters key ++ ':' :: compactCharacters value ++ compactMembers members

/-- The items after the first one, and the end of their list. -/
def compactItems : List Json → List Char
  | [] => [']']
  | item :: items => ',' :: compactCharacters item ++ compactItems items

/-- The members after the first one, and the end of their object. -/
def compactMembers : List (String × Json) → List Char
  | [] => ['}']
  | (key, value) :: members =>
      ',' :: stringCharacters key ++ ':' :: compactCharacters value ++ compactMembers members

end

/-- A value on one line without blanks. -/
def compact (value : Json) : String := String.ofList (compactCharacters value)

/-! ## One item a line -/

/-- A line break and the indentation of a line at the given level. -/
def newLine (level : Nat) : List Char := '\n' :: List.replicate (2 * level) ' '

mutual

/-- A value whose lines after the first stand at the given level or deeper. -/
def prettyCharacters (level : Nat) : Json → List Char
  | null => ['n', 'u', 'l', 'l']
  | bool true => ['t', 'r', 'u', 'e']
  | bool false => ['f', 'a', 'l', 's', 'e']
  | number n => numberCharacters n
  | string s => stringCharacters s
  | array [] => ['[', ']']
  | array (item :: items) =>
      '[' :: newLine (level + 1) ++ prettyCharacters (level + 1) item ++ prettyItems level items
  | object [] => ['{', '}']
  | object ((key, value) :: members) =>
      '{' :: newLine (level + 1) ++ stringCharacters key ++ ':' :: ' ' ::
        prettyCharacters (level + 1) value ++ prettyMembers level members

/-- The items after the first one of a list at the given level, and its end. -/
def prettyItems (level : Nat) : List Json → List Char
  | [] => newLine level ++ [']']
  | item :: items =>
      ',' :: newLine (level + 1) ++ prettyCharacters (level + 1) item ++ prettyItems level items

/-- The members after the first one of an object at the given level, and its end. -/
def prettyMembers (level : Nat) : List (String × Json) → List Char
  | [] => newLine level ++ ['}']
  | (key, value) :: members =>
      ',' :: newLine (level + 1) ++ stringCharacters key ++ ':' :: ' ' ::
        prettyCharacters (level + 1) value ++ prettyMembers level members

end

/-- A value with one item or member a line. -/
def pretty (value : Json) : String := String.ofList (prettyCharacters 0 value)

end RpcReference.Json
