import RpcReference.Json.Reader
import RpcReference.Json.Skip
import RpcReference.Json.Writer

/-!
# Reading JSON values of a known type

A reader for each shape that a configuration asks for.  A value of another type is refused as soon
as its type is clear, before the text after it is seen; a number, a word or a string is still read
to its end for that.

* `readText`, `readOptional`, `readList`, `readTexts` — strings, values that may be `null`, lists,
  and objects with strings as values.
* `Shape` and `readShape` — an object with known keys.  **Unknown keys are passed over, known keys
  may not be repeated, and a list of the values in the order of the keys is accepted as well.**
-/

set_option autoImplicit false

namespace RpcReference.Json

/-! ## Values of another type -/

/-- How a value that is no list or object is named when it is not wanted. -/
def found : Json → FoundValue
  | null => .null
  | bool b => .bool b
  | number (.int n) => .int n
  | number (.float x) => .float (String.ofList (decimalLayout.text x))
  | string s => .string s
  | array _ => .sequence
  | object _ => .map

/-- Refuses the value at the start of a text, of which `expected` was asked for. -/
def refuse {α : Type} (expected : String) (text : List Char) : Reading α :=
  match text with
  | [] => .before .endInValue []
  | '[' :: rest => .before (.invalidType .sequence expected) rest
  | '{' :: rest => .before (.invalidType .map expected) rest
  | c :: rest =>
      (readScalar (rest.length + 1) c rest).bind fun value rest =>
        .before (.invalidType (found value) expected) rest

/-! ## Strings, lists and tables -/

/-- Reads a string. -/
def readText (text : List Char) : Reading String :=
  match skipBlanks text with
  | '"' :: rest => readString (rest.length + 1) rest
  | rest => refuse "a string" rest

/-- Reads `null` as nothing, and anything else with `value`. -/
def readOptional {α : Type} (value : List Char → Reading α) (text : List Char) :
    Reading (Option α) :=
  match skipBlanks text with
  | 'n' :: rest => (readWord ['u', 'l', 'l'] rest).map fun _ => none
  | rest => (value rest).map some

/-- Reads a list. -/
def readList {α : Type} (item : List Char → Reading α) (text : List Char) : Reading (List α) :=
  match skipBlanks text with
  | '[' :: rest => readItems item (rest.length + 1) true rest
  | rest => refuse "a sequence" rest

/-- Reads an object whose values are strings. -/
def readTexts (text : List Char) : Reading (List (String × String)) :=
  match skipBlanks text with
  | '{' :: rest => readMembers readText (rest.length + 1) true rest
  | rest => refuse "a map" rest

/-! ## Objects with known keys -/

/-- An object with known keys that is read into a `σ`, member by member. -/
structure Shape (σ : Type) where
  /-- How a message names the object. -/
  title : String
  /-- The known keys, in the order of their values in a list. -/
  keys : List String
  /-- What is known before the first member. -/
  start : σ
  /-- Reads the value of a known key. -/
  value : String → σ → List Char → Reading σ

/-- Reads the members of an object; `seen` are the known keys that were there. -/
def readFields {σ : Type} (shape : Shape σ) :
    Nat → Bool → List String → σ → List Char → Reading (List String × σ)
  | 0, _, _, _, text => .before .endInObject text
  | fuel + 1, first, seen, state, text =>
      (readKeyStart first text).bind fun more text =>
        if more then
          (readString fuel text).bind fun key text =>
            if key ∈ seen then .before (.duplicateField key) text
            else
              (readColon text).bind fun _ text =>
                if key ∈ shape.keys then
                  (shape.value key state text).bind fun state text =>
                    readFields shape fuel false (key :: seen) state text
                else
                  (skipValue text).bind fun _ text =>
                    readFields shape fuel false seen state text
        else .done (seen, state) text

/-- The end of a list all of whose items are read. -/
def readListEnd (text : List Char) : Reading Unit :=
  match skipBlanks text with
  | [] => .before .endInList []
  | ']' :: rest => .done () rest
  | ',' :: rest =>
      match skipBlanks rest with
      | ']' :: rest => .atNext .trailingComma (']' :: rest)
      | rest => .atNext .trailingCharacters rest
  | rest => .atNext .trailingCharacters rest

/-- Reads the values of keys from a list; `seen` are the keys whose values were there. -/
def readFieldList {σ : Type} (shape : Shape σ) :
    List String → Bool → List String → σ → List Char → Reading (List String × σ)
  | [], _, seen, state, text => (readListEnd text).map fun _ => (seen, state)
  | key :: keys, first, seen, state, text =>
      (readItemStart first text).bind fun more text =>
        if more then
          (shape.value key state text).bind fun state text =>
            readFieldList shape keys false (key :: seen) state text
        else .done (seen, state) text

/-- Reads an object with known keys, or a list of their values.  Gives the keys that were there, and
whether it was a list. -/
def readShape {σ : Type} (shape : Shape σ) (text : List Char) :
    Reading (Bool × List String × σ) :=
  match skipBlanks text with
  | '{' :: rest =>
      (readFields shape (rest.length + 1) true [] shape.start rest).map fun result =>
        (false, result)
  | '[' :: rest =>
      (readFieldList shape shape.keys true [] shape.start rest).map fun result => (true, result)
  | rest => refuse shape.title rest

/-- Reads an object or list that has to have all of its keys. -/
def readComplete {σ : Type} (shape : Shape σ) (text : List Char) : Reading σ :=
  (readShape shape text).bind fun (isList, seen, state) rest =>
    match shape.keys.find? fun key => key ∉ seen with
    | none => .done state rest
    | some key =>
        if isList then
          .before (.invalidLength seen.length
            (shape.title ++ " with " ++ toString shape.keys.length ++ " elements")) rest
        else .before (.missingField key) rest

end RpcReference.Json
