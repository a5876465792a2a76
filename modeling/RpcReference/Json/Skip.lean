import RpcReference.Json.Scan

/-!
# Passing over JSON values

A member that nobody asked for is passed over: **its value has to be well formed, but neither its
depth nor the range of its numbers nor the pairing of its surrogates is looked at**.

The lists and objects that are open are kept as a list of brackets, innermost first.  Every step
reads at least one character or ends, so a fuel of twice the length of the text is enough.
-/

set_option autoImplicit false

namespace RpcReference.Json

/-! ## Strings and numbers -/

/-- Passes over an escape after its backslash. -/
def skipEscape : List Char → Reading Unit
  | [] => .before .endInString []
  | 'u' :: rest => (readHex rest).map fun _ => ()
  | c :: rest =>
      if c ∈ ['"', '\\', '/', 'b', 'f', 'n', 'r', 't'] then .done () rest
      else .atNext .invalidEscape (c :: rest)

/-- Passes over the characters of a string and its closing quote; `fuel` bounds their number.  A
control character is noticed before it is read. -/
def skipCharacters : Nat → List Char → Reading Unit
  | 0, text => .before .endInString text
  | fuel + 1, text =>
      match text with
      | [] => .before .endInString []
      | '"' :: rest => .done () rest
      | '\\' :: rest => (skipEscape rest).bind fun _ rest => skipCharacters fuel rest
      | c :: rest =>
          if c < ' ' then .before .controlCharacter (c :: rest) else skipCharacters fuel rest

/-- Passes over a string after its opening quote. -/
def skipString (text : List Char) : Reading Unit := skipCharacters (text.length + 1) text

/-- Passes over a run of digits, of which there has to be one. -/
def skipDigits (text : List Char) : Reading Unit :=
  if (text.takeWhile isDigit).isEmpty then .atNext .invalidNumber text
  else .done () (text.dropWhile isDigit)

/-- Passes over an exponent, if there is one. -/
def skipExponent : List Char → Reading Unit
  | c :: text =>
      if c = 'e' ∨ c = 'E' then
        match text with
        | '+' :: rest => skipDigits rest
        | '-' :: rest => skipDigits rest
        | _ => skipDigits text
      else .done () (c :: text)
  | [] => .done () []

/-- Passes over a point and the digits after it, if there is a point. -/
def skipFraction : List Char → Reading Unit
  | '.' :: text => skipDigits text
  | text => .done () text

/-- Passes over a number after its sign. -/
def skipNumber (text : List Char) : Reading Unit :=
  let whole : Reading Unit :=
    match text with
    | '0' :: d :: rest =>
        if isDigit d then .atNext .invalidNumber (d :: rest) else .done () (d :: rest)
    | _ => skipDigits text
  whole.bind fun _ text => (skipFraction text).bind fun _ text => skipExponent text

/-- Passes over a value that starts with `c` and is no list or object. -/
def skipScalar (c : Char) (rest : List Char) : Reading Unit :=
  if c = 'n' then readWord ['u', 'l', 'l'] rest
  else if c = 't' then readWord ['r', 'u', 'e'] rest
  else if c = 'f' then readWord ['a', 'l', 's', 'e'] rest
  else if c = '"' then skipString rest
  else if c = '-' then skipNumber rest
  else if isDigit c then skipNumber (c :: rest)
  else .atNext .expectedValue (c :: rest)

/-! ## Lists and objects -/

/-- What is open around a value. -/
inductive Bracket where
  /-- A list. -/
  | list
  /-- An object. -/
  | object
deriving DecidableEq

mutual

/-- Passes over a value and everything after it that belongs to the open lists and objects. -/
def skipOpen : Nat → List Bracket → List Char → Reading Unit
  | 0, _, text => .before .endInValue text
  | fuel + 1, around, text =>
      match skipBlanks text with
      | [] => .before .endInValue []
      | '[' :: rest =>
          match skipBlanks rest with
          | [] => .before .endInList []
          | ']' :: rest => skipAfter fuel around rest
          | rest => skipOpen fuel (.list :: around) rest
      | '{' :: rest =>
          match skipBlanks rest with
          | [] => .before .endInObject []
          | '}' :: rest => skipAfter fuel around rest
          | rest => skipMember fuel around rest
      | c :: rest => (skipScalar c rest).bind fun _ rest => skipAfter fuel around rest

/-- Passes over what follows a value inside the open lists and objects. -/
def skipAfter : Nat → List Bracket → List Char → Reading Unit
  | _, [], text => .done () text
  | 0, _, text => .before .endInValue text
  | fuel + 1, .list :: around, text =>
      match skipBlanks text with
      | [] => .before .endInList []
      | ',' :: rest => skipOpen fuel (.list :: around) rest
      | ']' :: rest => skipAfter fuel around rest
      | rest => .atNext .expectedCommaOrBracket rest
  | fuel + 1, .object :: around, text =>
      match skipBlanks text with
      | [] => .before .endInObject []
      | ',' :: rest => skipMember fuel around rest
      | '}' :: rest => skipAfter fuel around rest
      | rest => .atNext .expectedCommaOrBrace rest

/-- Passes over a member of an object and everything after it. -/
def skipMember : Nat → List Bracket → List Char → Reading Unit
  | 0, _, text => .before .endInObject text
  | fuel + 1, around, text =>
      match skipBlanks text with
      | [] => .before .endInObject []
      | '"' :: rest =>
          (skipString rest).bind fun _ rest =>
            match skipBlanks rest with
            | [] => .before .endInObject []
            | ':' :: rest => skipOpen fuel (.object :: around) rest
            | rest => .atNext .expectedColon rest
      | rest => .atNext .keyMustBeString rest

end

/-- Passes over one value. -/
def skipValue (text : List Char) : Reading Unit := skipOpen (2 * text.length + 2) [] text

end RpcReference.Json
