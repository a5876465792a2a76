import RpcReference.Yaml.Token.Basic
import RpcReference.Yaml.Cursor

/-!
# Anchors, tags and directives

* `readName` — the name of an anchor, after its mark.
* `readTag` — a tag: an address between angle brackets, or a handle and a suffix.
* `readDirective` — a line that starts with a percent sign.

Where an address ends is decided by its written form, what it stands for by `Address.untilNull`.
-/

set_option autoImplicit false

namespace RpcReference.Yaml

/-! ## Anchors -/

/-- The characters besides blanks that may follow the name of an anchor. -/
def nameFollowers : List Char := ['?', ':', ',', ']', '}', '%', '@', '\x60']

/-- Reads the name of an anchor, which is not empty. -/
def readName (c : Cursor) : Option (String × Cursor) :=
  let name := c.rest.takeWhile isWordCharacter
  let c := c.skip name.length
  if name.isEmpty then none
  else if blankNext c.rest ∨ c.rest.head?.any (· ∈ nameFollowers) then
    some (String.ofList name, c)
  else none

/-! ## Tags -/

/-- Reads an address, which is not empty unless something stands in front of it already.  `fuel`
bounds the number of characters. -/
def takeAddress (isVerbatim mayBeEmpty : Bool) (fuel : Nat) (c : Cursor) :
    Option (Address × Cursor) := do
  let (address, length) ← Address.read isVerbatim fuel c.rest
  if length = 0 ∧ ¬ mayBeEmpty then none
  else some (address.untilNull, c.skip length)

/-- Reads an exclamation mark, word characters, and a second exclamation mark if there is one. -/
def takeHandle (c : Cursor) : Option (List Char × Cursor) :=
  match c.rest with
  | '!' :: rest =>
      let word := rest.takeWhile isWordCharacter
      let closing := (rest.dropWhile isWordCharacter).head? = some '!'
      let handle := '!' :: word ++ (if closing then ['!'] else [])
      some (handle, c.skip handle.length)
  | _ => none

/-- Whether a handle has its second exclamation mark. -/
def isFullHandle (handle : List Char) : Bool :=
  decide (1 < handle.length) && handle.getLast? == some '!'

/-- Reads a tag: `!<address>`, a full handle with a suffix, or a mark with a suffix, which may be
empty.  `fuel` bounds the number of characters. -/
def readTag (inFlow : Bool) (fuel : Nat) (c : Cursor) : Option (TagName × Cursor) := do
  let (name, c) ←
    match c.rest with
    | '!' :: '<' :: _ => do
        let (address, c) ← takeAddress true false fuel (c.skip 2)
        if c.rest.head? = some '>' then some (⟨"", address⟩, c.skip 1) else none
    | _ => do
        let (handle, c) ← takeHandle c
        if isFullHandle handle then
          let (suffix, c) ← takeAddress false false fuel c
          some (⟨String.ofList handle, suffix⟩, c)
        else
          let (suffix, c) ← takeAddress false true fuel c
          let suffix := (handle.drop 1).map some ++ suffix
          if suffix.isEmpty then some (⟨"", .ofText "!"⟩, c) else some (⟨"!", suffix⟩, c)
  if blankNext c.rest ∨ (inFlow ∧ c.rest.head? = some ',') then some (name, c) else none

/-! ## Directives -/

/-- Reads a number of a version: one to nine digits. -/
def takeVersionNumber (c : Cursor) : Option (Nat × Cursor) :=
  let digits := c.rest.takeWhile Char.isDigit
  if digits.isEmpty ∨ 9 < digits.length then none
  else some (Nat.ofDigitChars 10 digits 0, c.skip digits.length)

/-- Reads a directive after its percent sign, and the rest of its line.  `fuel` bounds the number of
characters. -/
def readDirective (fuel : Nat) (c : Cursor) : Option (Token × Cursor) := do
  let name := c.rest.takeWhile isWordCharacter
  let c := c.skip name.length
  if ¬ blankNext c.rest then none
  else
    let c := c.skipWhile isBlank
    let (token, c) ←
      if name = ['Y', 'A', 'M', 'L'] then do
        let (major, c) ← takeVersionNumber c
        if c.rest.head? = some '.' then
          let (minor, c) ← takeVersionNumber (c.skip 1)
          some (Token.version major minor, c)
        else none
      else if name = ['T', 'A', 'G'] then do
        let (handle, c) ← takeHandle c
        if (handle = ['!'] ∨ isFullHandle handle) ∧ c.rest.head?.any isBlank then
          let (meaning, c) ← takeAddress true false fuel (c.skipWhile isBlank)
          if blankNext c.rest then
            some (Token.tagDirective (String.ofList handle) meaning, c)
          else none
        else none
      else none
    let c ← c.finishLine?
    return (token, c)

end RpcReference.Yaml
