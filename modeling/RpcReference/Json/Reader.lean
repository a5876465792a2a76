import RpcReference.Json.Scan

/-!
# Reading JSON

* `readValue` — one value from the start of a text.  Its recursion is on the number of lists and
  objects that may still be opened inside one another; the members of one list or object are read by
  `readItems` and `readMembers`.  All of them have the same fuel, a bound on the length of the text.
* `Json.parse` — **a text that holds one value and nothing else**, at most `Json.nestingLimit`
  levels deep.

In an object a repeated key keeps its first place and takes its last value.
-/

set_option autoImplicit false

namespace RpcReference.Json

/-- How many lists and objects may be opened inside one another. -/
def nestingLimit : Nat := 127

/-! ## Lists -/

/-- What stands between two items of a list: reads up to the start of the next item, or past the end
of the list. -/
def readItemStart (first : Bool) (text : List Char) : Reading Bool :=
  match skipBlanks text with
  | [] => .before .endInList []
  | ']' :: rest => .done false rest
  | ',' :: rest =>
      if first then .done true (',' :: rest)
      else
        match skipBlanks rest with
        | ']' :: rest => .atNext .trailingComma (']' :: rest)
        | rest => .done true rest
  | rest => if first then .done true rest else .atNext .expectedCommaOrBracket rest

/-- Reads the items of a list and its end, after its opening bracket.  `fuel` bounds the number of
characters. -/
def readItems {α : Type} (item : List Char → Reading α) :
    Nat → Bool → List Char → Reading (List α)
  | 0, _, text => .before .endInList text
  | fuel + 1, first, text =>
      (readItemStart first text).bind fun more text =>
        if more then
          (item text).bind fun x text => (readItems item fuel false text).map (x :: ·)
        else .done [] text

/-! ## Objects -/

/-- What stands between two members of an object: reads the opening quote of the next key, or the
end of the object. -/
def readKeyStart (first : Bool) (text : List Char) : Reading Bool :=
  match skipBlanks text with
  | [] => .before .endInObject []
  | '}' :: rest => .done false rest
  | ',' :: rest =>
      if first then .atNext .keyMustBeString (',' :: rest)
      else
        match skipBlanks rest with
        | [] => .before .endInValue []
        | '"' :: rest => .done true rest
        | '}' :: rest => .atNext .trailingComma ('}' :: rest)
        | rest => .atNext .keyMustBeString rest
  | '"' :: rest =>
      if first then .done true rest else .atNext .expectedCommaOrBrace ('"' :: rest)
  | rest => if first then .atNext .keyMustBeString rest else .atNext .expectedCommaOrBrace rest

/-- Reads the colon after a key. -/
def readColon (text : List Char) : Reading Unit :=
  match skipBlanks text with
  | [] => .before .endInObject []
  | ':' :: rest => .done () rest
  | rest => .atNext .expectedColon rest

/-- Reads the members of an object and its end, after its opening brace, in the order of the
text.  `fuel` bounds the number of characters. -/
def readMembers {α : Type} (value : List Char → Reading α) :
    Nat → Bool → List Char → Reading (List (String × α))
  | 0, _, text => .before .endInObject text
  | fuel + 1, first, text =>
      (readKeyStart first text).bind fun more text =>
        if more then
          (readString fuel text).bind fun key text =>
            (readColon text).bind fun _ text =>
              (value text).bind fun v text =>
                (readMembers value fuel false text).map ((key, v) :: ·)
        else .done [] text

/-! ## Values -/

/-- Reads a value that starts with `c` and is no list or object. -/
def readScalar (fuel : Nat) (c : Char) (rest : List Char) : Reading Json :=
  if c = 'n' then (readWord ['u', 'l', 'l'] rest).map fun _ => null
  else if c = 't' then (readWord ['r', 'u', 'e'] rest).map fun _ => bool true
  else if c = 'f' then (readWord ['a', 'l', 's', 'e'] rest).map fun _ => bool false
  else if c = '"' then (readString fuel rest).map string
  else if c = '-' then (readNumber true rest).map number
  else if isDigit c then (readNumber false (c :: rest)).map number
  else .atNext .expectedValue (c :: rest)

/-- Reads a value whose lists and objects hold values that `inner` reads; without `inner` no list or
object may be opened. -/
def readValueWith (fuel : Nat) (inner : Option (List Char → Reading Json)) (text : List Char) :
    Reading Json :=
  match skipBlanks text with
  | [] => .before .endInValue []
  | '[' :: rest =>
      match inner with
      | none => .atNext .tooDeep ('[' :: rest)
      | some value => (readItems value fuel true rest).map array
  | '{' :: rest =>
      match inner with
      | none => .atNext .tooDeep ('{' :: rest)
      | some value =>
          (readMembers value fuel true rest).map fun members => object (Table.putAll [] members)
  | c :: rest => readScalar fuel c rest

/-- Reads a value in which at most `levels` lists and objects are opened inside one another. -/
def readValue (fuel : Nat) : Nat → List Char → Reading Json
  | 0 => readValueWith fuel none
  | levels + 1 => readValueWith fuel (some (readValue fuel levels))

/-! ## Whole texts -/

/-- Only blanks may follow the value of a whole text. -/
def readEnd (text : List Char) : Reading Unit :=
  match skipBlanks text with
  | [] => .done () []
  | rest => .atNext .trailingCharacters rest

/-- A reading of a whole text, its faults given their position. -/
def readWhole? {α : Type} (read : List Char → Reading α) (text : String) : Except JsonError α :=
  match (read text.toList).bind fun value rest => (readEnd rest).map fun _ => value with
  | .done value _ => .ok value
  | .fault fault => .error (JsonError.ofFault text.toList fault)

/-- The value that a text holds. -/
def parse (text : String) : Except JsonError Json :=
  readWhole? (readValue (text.length + 1) nestingLimit) text

end RpcReference.Json
