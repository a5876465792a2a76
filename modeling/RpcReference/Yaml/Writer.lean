import RpcReference.Yaml.Style
import RpcReference.Decimal.Shortest

/-!
# Writing YAML

A value is written in block style: a mapping as one `key: value` a line, a sequence as one `- item`
a line, nested ones indented by two blanks, except that a sequence stands at the column of the key
it belongs to.  Empty ones are `[]` and a pair of braces.

* `textCharacters` — a text in the style that `Style.ofText` chooses.
* `keyCharacters` — a key with its colon; **a key that has line breaks or is long is set apart by a
  question mark**, and then its value starts on the line of the colon.
* `Yaml.write` — a whole document.

Every entry ends with a line break of its own; a block of lines may already end with one.
-/

set_option autoImplicit false

namespace RpcReference.Yaml

/-! ## Texts -/

/-- Blanks up to a column. -/
def pad (column : Nat) : List Char := List.replicate column ' '

/-- The single-letter escapes of double quotes. -/
def escapeLetter? (c : Char) : Option Char :=
  if c = '\x00' then some '0'
  else if c = '\x07' then some 'a'
  else if c = '\x08' then some 'b'
  else if c = '\t' then some 't'
  else if c = '\n' then some 'n'
  else if c = '\x0b' then some 'v'
  else if c = '\x0c' then some 'f'
  else if c = '\r' then some 'r'
  else if c = '\x1b' then some 'e'
  else if c = '"' then some '"'
  else if c = '\\' then some '\\'
  else if c = '\u0085' then some 'N'
  else if c = '\u00a0' then some '_'
  else if c = '\u2028' then some 'L'
  else if c = '\u2029' then some 'P'
  else none

/-- The last `width` hexadecimal digits of a number, in upper case. -/
def hexDigits : Nat → Nat → List Char
  | 0, _ => []
  | width + 1, n => hexDigits width (n / 16) ++ [(Nat.digitChar (n % 16)).toUpper]

/-- The escape of a character. -/
def escape (c : Char) : List Char :=
  match escapeLetter? c with
  | some letter => ['\\', letter]
  | none =>
      if c.toNat ≤ 0xff then '\\' :: 'x' :: hexDigits 2 c.toNat
      else if c.toNat ≤ 0xffff then '\\' :: 'u' :: hexDigits 4 c.toNat
      else '\\' :: 'U' :: hexDigits 8 c.toNat

/-- One character between double quotes. -/
def doubleQuotedCharacter (c : Char) : List Char :=
  if !isPrintable c || isBreak c || c = '"' || c = '\\' then escape c else [c]

/-- The characters of lines whose content stands at a column: the blanks are written before the
first character of a line, so empty lines have none. -/
def indentLines (column : Nat) (write : Char → List Char) : Bool → List Char → List Char
  | _, [] => []
  | atStart, c :: rest =>
      if isBreak c then c :: indentLines column write true rest
      else (if atStart then pad column else []) ++ write c ++ indentLines column write false rest

/-- A text between single quotes; lines after the first stand at a column. -/
def singleQuotedCharacters (column : Nat) (s : List Char) : List Char :=
  ['\''] ++ indentLines column (fun c => if c = '\'' then ['\'', '\''] else [c]) false s ++
    (if s.getLast?.any isBreak then pad column else []) ++ ['\'']

/-- What follows the bar of a block of lines: the indentation if it cannot be seen, a minus if the
last line has no break, and a plus if empty lines follow it. -/
def literalHeader (s : List Char) : List Char :=
  let edge := if s.head?.any fun c => isSpace c || isBreak c then ['2'] else []
  let ending :=
    match s.reverse with
    | [] => ['-']
    | [last] => if isBreak last then ['+'] else ['-']
    | last :: before :: _ =>
        if isBreak last then (if isBreak before then ['+'] else []) else ['-']
  edge ++ ending

/-- A text whose later lines stand at a column. -/
def textCharacters (column : Nat) (s : String) : List Char :=
  match Style.ofText s with
  | .plain => s.toList
  | .singleQuoted => singleQuotedCharacters column s.toList
  | .doubleQuoted => ['"'] ++ s.toList.flatMap doubleQuotedCharacter ++ ['"']
  | .literal =>
      '|' :: literalHeader s.toList ++ ['\n'] ++ indentLines column (fun c => [c]) true s.toList

/-- Floating point numbers are written positionally from `0.00001` up to sixteen digits before the
point, and a positive exponent has no sign. -/
def decimalLayout : DecimalLayout := ⟨-5, 15, []⟩

/-- A number. -/
def numberCharacters : Number → List Char
  | .int n => (if n < 0 then ['-'] else []) ++ Nat.toDigits 10 n.natAbs
  | .float x => decimalLayout.text x

/-! ## Entries -/

/-- Ends an entry with a line break, unless it ends with one. -/
def endLine (entry : List Char) : List Char :=
  if entry.getLast?.any isBreak then entry else entry ++ ['\n']

/-- Whether a key stands on one line before its colon. -/
def isSimpleKey (key : String) : Bool :=
  !key.toList.any isBreak && decide (key.utf8ByteSize ≤ 128)

/-- Where a list or an object starts after the mark of its entry. -/
inductive Start where
  /-- On the same line: after the mark of an item, and after a colon of its own. -/
  | sameLine
  /-- On the next line: after a key with its colon. -/
  | nextLine
deriving DecidableEq

/-- The column of a list that belongs to an entry at a column. -/
def Start.listColumn (start : Start) (column : Nat) : Nat :=
  match start with
  | sameLine => column + 2
  | nextLine => column

/-- What stands before the first entry of a list or an object at a column. -/
def Start.lead (start : Start) (column : Nat) : List Char :=
  match start with
  | sameLine => [' ']
  | nextLine => '\n' :: pad column

/-- A member of an object at a column, its value written by `write`. -/
def memberCharacters (column : Nat) (key : String) (write : Start → List Char) : List Char :=
  endLine
    (if isSimpleKey key then textCharacters (column + 2) key ++ ':' :: write .nextLine
    else
      endLine ('?' :: ' ' :: textCharacters (column + 2) key) ++ pad column ++
        ':' :: write .sameLine)

mutual

/-- A value after the mark of an entry at the given column. -/
def valueCharacters (start : Start) (column : Nat) : Json → List Char
  | .null => [' ', 'n', 'u', 'l', 'l']
  | .bool true => [' ', 't', 'r', 'u', 'e']
  | .bool false => [' ', 'f', 'a', 'l', 's', 'e']
  | .number n => ' ' :: numberCharacters n
  | .string s => ' ' :: textCharacters (column + 2) s
  | .array [] => [' ', '[', ']']
  | .array (item :: items) =>
      start.lead (start.listColumn column) ++
        endLine ('-' :: valueCharacters .sameLine (start.listColumn column) item) ++
        itemLines (start.listColumn column) items
  | .object [] => [' ', '{', '}']
  | .object ((key, value) :: members) =>
      start.lead (column + 2) ++
        memberCharacters (column + 2) key
          (fun start => valueCharacters start (column + 2) value) ++
        memberLines (column + 2) members

/-- The items of a list whose marks stand at the given column, each on a line of its own. -/
def itemLines (column : Nat) : List Json → List Char
  | [] => []
  | item :: items =>
      pad column ++ endLine ('-' :: valueCharacters .sameLine column item) ++
        itemLines column items

/-- The members of an object whose keys stand at the given column, each on a line of its own. -/
def memberLines (column : Nat) : List (String × Json) → List Char
  | [] => []
  | (key, value) :: members =>
      pad column ++
        memberCharacters column key (fun start => valueCharacters start column value) ++
        memberLines column members

end

/-! ## Documents -/

/-- The characters of a document. -/
def documentCharacters : Json → List Char
  | .array (item :: items) => itemLines 0 (item :: items)
  | .object (member :: members) => memberLines 0 (member :: members)
  | value => endLine ((valueCharacters .sameLine 0 value).drop 1)

/-- A document that holds one value. -/
def write (value : Json) : String := String.ofList (documentCharacters value)

end RpcReference.Yaml
