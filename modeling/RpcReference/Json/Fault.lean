import RpcReference.Text.Escape

/-!
# What can be wrong with a JSON text

* `JsonCause` — the reasons for which a text is refused, and their wording.
* `JsonFault` — a reason with the rest of the text at which it was noticed, which is how the reader
  reports it.
* `Position` — line and column, counted in bytes; `Position.ofOffset` finds those of a place in a
  text.
* `JsonError` — a reason with its position, which is what a caller sees.
-/

set_option autoImplicit false

namespace RpcReference

-- The sum of naturals is that of the core library, whatever else is imported.
attribute [local instance (high)] Zero.ofOfNat0

/-! ## Reasons -/

/-- A kind of value, as a message about an unexpected one names it. -/
inductive FoundValue where
  /-- The value `null`. -/
  | null
  /-- A truth value. -/
  | bool (b : Bool)
  /-- An integer. -/
  | int (n : Int)
  /-- A floating point number, by its written form. -/
  | float (text : String)
  /-- A string. -/
  | string (s : String)
  /-- Any list. -/
  | sequence
  /-- Any object. -/
  | map
deriving DecidableEq

/-- How a message names a value. -/
def FoundValue.message : FoundValue → String
  | null => "null"
  | bool b => "boolean `" ++ (if b then "true" else "false") ++ "`"
  | int n => "integer `" ++ toString n ++ "`"
  | float text => "floating point `" ++ text ++ "`"
  | string s => "string " ++ Text.quoted s
  | sequence => "sequence"
  | map => "map"

/-- Why a text is refused. -/
inductive JsonCause where
  /-- The text ends inside a list. -/
  | endInList
  /-- The text ends inside an object. -/
  | endInObject
  /-- The text ends inside a string. -/
  | endInString
  /-- The text ends where a value is expected or inside a number. -/
  | endInValue
  /-- No colon follows a key. -/
  | expectedColon
  /-- An item is followed by neither a comma nor the end of the list. -/
  | expectedCommaOrBracket
  /-- A member is followed by neither a comma nor the end of the object. -/
  | expectedCommaOrBrace
  /-- A word that starts like `true`, `false` or `null` and goes on differently. -/
  | expectedIdent
  /-- No value can start here. -/
  | expectedValue
  /-- An unknown escape. -/
  | invalidEscape
  /-- A number that is not well formed. -/
  | invalidNumber
  /-- A number too large for a binary64 number. -/
  | numberOutOfRange
  /-- A control character inside a string. -/
  | controlCharacter
  /-- A member whose key is not a string. -/
  | keyMustBeString
  /-- An escaped surrogate without its partner. -/
  | loneSurrogate
  /-- A leading surrogate that no other escape follows. -/
  | endOfHexEscape
  /-- A comma before the end of a list or an object. -/
  | trailingComma
  /-- Something after the value. -/
  | trailingCharacters
  /-- Too many lists and objects inside one another. -/
  | tooDeep
  /-- A value of another type than the one asked for. -/
  | invalidType (found : FoundValue) (expected : String)
  /-- A member that has to be there is not. -/
  | missingField (name : String)
  /-- A member is there twice. -/
  | duplicateField (name : String)
  /-- A list of the wrong length. -/
  | invalidLength (length : Nat) (expected : String)
deriving DecidableEq

/-- The wording of a reason. -/
def JsonCause.message : JsonCause → String
  | endInList => "EOF while parsing a list"
  | endInObject => "EOF while parsing an object"
  | endInString => "EOF while parsing a string"
  | endInValue => "EOF while parsing a value"
  | expectedColon => "expected `:`"
  | expectedCommaOrBracket => "expected `,` or `]`"
  | expectedCommaOrBrace => "expected `,` or `\x7d`"
  | expectedIdent => "expected ident"
  | expectedValue => "expected value"
  | invalidEscape => "invalid escape"
  | invalidNumber => "invalid number"
  | numberOutOfRange => "number out of range"
  | controlCharacter => "control character (\\u0000-\\u001F) found while parsing a string"
  | keyMustBeString => "key must be a string"
  | loneSurrogate => "lone leading surrogate in hex escape"
  | endOfHexEscape => "unexpected end of hex escape"
  | trailingComma => "trailing comma"
  | trailingCharacters => "trailing characters"
  | tooDeep => "recursion limit exceeded"
  | invalidType found expected => "invalid type: " ++ found.message ++ ", expected " ++ expected
  | missingField name => "missing field `" ++ name ++ "`"
  | duplicateField name => "duplicate field `" ++ name ++ "`"
  | invalidLength length expected =>
      "invalid length " ++ toString length ++ ", expected " ++ expected

/-- Whether a reason is about the data and not about the text; such a reason is reported without a
position. -/
def JsonCause.isAboutData : JsonCause → Bool
  | invalidType .. | missingField _ | duplicateField _ | invalidLength .. => true
  | _ => false

/-! ## Places in a text -/

/-- A place in a text. -/
structure Position where
  /-- The line, from 1. -/
  line : Nat
  /-- The number of bytes of the line that are read. -/
  column : Nat
deriving DecidableEq, Repr

namespace Position

/-- The number of bytes of a text. -/
def byteCount (text : List Char) : Nat := (text.map Char.utf8Size).sum

/-- The position after the first `offset` bytes of the text, from the position `here` at its
start. -/
def advance (here : Position) : List Char → Nat → Position
  | [], _ => here
  | c :: rest, offset =>
      if offset < c.utf8Size then { here with column := here.column + offset }
      else if c = '\n' then advance ⟨here.line + 1, 0⟩ rest (offset - c.utf8Size)
      else advance { here with column := here.column + c.utf8Size } rest (offset - c.utf8Size)

/-- The position after the first `offset` bytes of a text. -/
def ofOffset (text : List Char) (offset : Nat) : Position := advance ⟨1, 0⟩ text offset

end Position

/-- A reason together with the rest of the text when it was noticed.  The first `ahead` bytes of
the rest count as read. -/
structure JsonFault where
  /-- The reason. -/
  cause : JsonCause
  /-- The text that is left. -/
  rest : List Char
  /-- How many bytes of it count as read. -/
  ahead : Nat
deriving DecidableEq

/-- What a reading function gives: a value and the text after it, or a fault. -/
inductive Reading (α : Type) where
  /-- A value, and the text after it. -/
  | done (value : α) (rest : List Char)
  /-- The text is refused. -/
  | fault (fault : JsonFault)

namespace Reading

variable {α β : Type}

/-- Goes on reading after a value. -/
def bind (reading : Reading α) (next : α → List Char → Reading β) : Reading β :=
  match reading with
  | done value rest => next value rest
  | fault f => fault f

/-- Changes the value that was read. -/
def map (f : α → β) (reading : Reading α) : Reading β :=
  reading.bind fun value rest => done (f value) rest

/-- The fault of an unexpected next character: that character counts as read. -/
def atNext (cause : JsonCause) (rest : List Char) : Reading α := fault ⟨cause, rest, 1⟩

/-- A fault that is noticed after reading everything before `rest`. -/
def before (cause : JsonCause) (rest : List Char) : Reading α := fault ⟨cause, rest, 0⟩

@[simp] theorem bind_done (value : α) (rest : List Char) (next : α → List Char → Reading β) :
    (done value rest).bind next = next value rest := rfl

@[simp] theorem bind_fault (f : JsonFault) (next : α → List Char → Reading β) :
    (fault f : Reading α).bind next = fault f := rfl

@[simp] theorem map_done (f : α → β) (value : α) (rest : List Char) :
    (done value rest).map f = done (f value) rest := rfl

@[simp] theorem map_fault (f : α → β) (g : JsonFault) : (fault g : Reading α).map f = fault g := rfl

/-- Something is read exactly if both parts of it are. -/
theorem bind_eq_done {reading : Reading α} {next : α → List Char → Reading β} {value : β}
    {rest : List Char} : reading.bind next = done value rest ↔
      ∃ v r, reading = done v r ∧ next v r = done value rest := by
  cases reading with
  | done v r => exact ⟨fun h => ⟨v, r, rfl, h⟩, by rintro ⟨_, _, h, h'⟩; cases h; exact h'⟩
  | fault f => simp

theorem map_eq_done {f : α → β} {reading : Reading α} {value : β} {rest : List Char} :
    reading.map f = done value rest ↔ ∃ v, reading = done v rest ∧ f v = value := by
  cases reading with
  | done v r => exact ⟨fun h => by cases h; exact ⟨v, rfl, rfl⟩, by rintro ⟨_, h, rfl⟩; cases h; rfl⟩
  | fault f => simp

end Reading

/-! ## Errors as callers see them -/

/-- A reason, and its position if it is about the text. -/
structure JsonError where
  /-- The reason. -/
  cause : JsonCause
  /-- Where it was noticed. -/
  position : Option Position
deriving DecidableEq

namespace JsonError

/-- The error that a fault in `text` is. -/
def ofFault (text : List Char) (fault : JsonFault) : JsonError :=
  { cause := fault.cause
    position :=
      if fault.cause.isAboutData then none
      else some (Position.ofOffset text
        (Position.byteCount text - Position.byteCount fault.rest + fault.ahead)) }

/-- The text of an error. -/
def message (error : JsonError) : String :=
  match error.position with
  | none => error.cause.message
  | some position =>
      error.cause.message ++ " at line " ++ toString position.line ++ " column " ++
        toString position.column

end JsonError
end RpcReference
