import RpcReference.Text.Hidden

/-!
# Escapes

Texts that are read or shown may hold escapes.

* `hexDigit?` — the value of a digit in base sixteen, in either case; escapes of all kinds are read
  with it.
* `quoted` — the form in which a message names a path or a piece of text: between double quotes,
  with every character that could be misread written as an escape.
* `quotedChar` — one character of it: a backslash escape of one letter for the quote, the backslash
  and four controls, `\u{…}` with the code point in lower case hexadecimal for a character without a
  shape of its own, and the character itself otherwise.  A single quote stays as it is.
-/

set_option autoImplicit false

namespace RpcReference.Text

/-! ## Reading -/

/-- The value of a hexadecimal digit. -/
def hexDigit? (c : Char) : Option Nat :=
  if '0' ≤ c ∧ c ≤ '9' then some (c.toNat - '0'.toNat)
  else if 'a' ≤ c ∧ c ≤ 'f' then some (c.toNat - 'a'.toNat + 10)
  else if 'A' ≤ c ∧ c ≤ 'F' then some (c.toNat - 'A'.toNat + 10)
  else none

/-! ## Showing -/

/-- One character as it stands between the quotes. -/
def quotedChar (c : Char) : List Char :=
  if c = '"' then ['\\', '"']
  else if c = '\\' then ['\\', '\\']
  else if c = '\n' then ['\\', 'n']
  else if c = '\r' then ['\\', 'r']
  else if c = '\t' then ['\\', 't']
  else if c = '\x00' then ['\\', '0']
  else if isHidden c then ['\\', 'u', '{'] ++ Nat.toDigits 16 c.toNat ++ ['}']
  else [c]

/-- A text between double quotes, its special characters escaped. -/
def quoted (s : String) : String :=
  String.ofList ('"' :: s.toList.flatMap quotedChar ++ ['"'])

end RpcReference.Text
