/-!
# Characters and places in a YAML text

The format distinguishes classes of characters: line breaks, blanks, those of words, and those that
may be written as they are.

Indentation is structure in YAML, so the text is read with a cursor that knows its line and column.
Columns count characters, a byte order mark like any other; the place in the whole text counts
bytes, for the length of a key is limited in bytes.

* `Cursor.skip` moves over characters of one line.
* `Cursor.takeBreak` moves over one line break and gives the text it stands for: **every line break
  reads as a line feed, except the two separators of lines and paragraphs, which stand for
  themselves**.
-/

set_option autoImplicit false

namespace RpcReference.Yaml

-- The sum of naturals is that of the core library, whatever else is imported.
attribute [local instance (high)] Zero.ofOfNat0

/-! ## Characters -/

/-- The characters that end a line. -/
def isBreak (c : Char) : Bool :=
  c = '\n' || c = '\r' || c = '\u0085' || c = '\u2028' || c = '\u2029'

/-- Space and tab. -/
def isBlank (c : Char) : Bool := c = ' ' || c = '\t'

/-- Blanks, line breaks and the null character, which is taken for the end of the text. -/
def isBlankOrEnd (c : Char) : Bool := isBlank c || isBreak c || c = '\x00'

/-- Letters, digits, hyphen and underscore. -/
def isWordCharacter (c : Char) : Bool :=
  c.isAlphanum || c = '-' || c = '_'

/-- Whether the next character is a blank, a line break or the end. -/
def blankNext : List Char → Bool
  | [] => true
  | c :: _ => isBlankOrEnd c

/-- The characters that are written as they are: all but the controls, of which the line feed is
kept, the byte order mark and the last two code points of the first plane. -/
def isPrintable (c : Char) : Bool :=
  c = '\n' ||
    (decide (' ' ≤ c) && c != '\x7f' && !decide ('\u0080' ≤ c ∧ c ≤ '\u009f') &&
      c != '\ufeff' && c != '\ufffe' && c != '\uffff')

/-- The characters that a document may hold at all: tab, line feed, carriage return, next line, and
everything above the controls but the last two code points of the first plane. -/
def isAllowed (c : Char) : Bool :=
  c = '\t' || c = '\n' || c = '\r' || c = '\u0085' ||
    (decide (' ' ≤ c) && !decide ('\x7f' ≤ c ∧ c ≤ '\u009f') && c != '\ufffe' && c != '\uffff')

/-! ## Places -/

/-- A place in a text: what follows it, and where it is. -/
structure Cursor where
  /-- The text that follows. -/
  rest : List Char
  /-- The number of bytes before the place. -/
  index : Nat
  /-- The number of lines before its line. -/
  line : Nat
  /-- The number of characters before it on its line. -/
  column : Nat

namespace Cursor

/-- The start of a text. -/
def start (text : List Char) : Cursor := ⟨text, 0, 0, 0⟩

/-- Moves over the first `count` characters, none of which is a line break. -/
def skip (count : Nat) (c : Cursor) : Cursor :=
  { c with
    rest := c.rest.drop count
    index := c.index + ((c.rest.take count).map Char.utf8Size).sum
    column := c.column + count }

/-- Moves over the characters that satisfy `p`, none of which is a line break. -/
def skipWhile (p : Char → Bool) (c : Cursor) : Cursor := c.skip (c.rest.takeWhile p).length

/-- Moves over a line break; gives the text that it stands for.  At any other character nothing
happens. -/
def takeBreak (c : Cursor) : List Char × Cursor :=
  match c.rest with
  | '\r' :: '\n' :: rest => (['\n'], ⟨rest, c.index + 2, c.line + 1, 0⟩)
  | '\u2028' :: rest => (['\u2028'], ⟨rest, c.index + 3, c.line + 1, 0⟩)
  | '\u2029' :: rest => (['\u2029'], ⟨rest, c.index + 3, c.line + 1, 0⟩)
  | b :: rest => if isBreak b then (['\n'], ⟨rest, c.index + b.utf8Size, c.line + 1, 0⟩) else ([], c)
  | [] => ([], c)

/-- Moves over a line break. -/
def skipBreak (c : Cursor) : Cursor := c.takeBreak.2

/-- Whether the next character is a line break. -/
def atBreak (c : Cursor) : Bool := c.rest.head?.any isBreak

/-- Whether the line or the text ends here. -/
def atLineEnd (c : Cursor) : Bool := c.rest.isEmpty || c.atBreak

/-- Moves to the end of the line. -/
def toLineEnd (c : Cursor) : Cursor := c.skipWhile (! isBreak ·)

/-- Moves over a comment, if there is one. -/
def skipComment (c : Cursor) : Cursor := if c.rest.head? = some '#' then c.toLineEnd else c

/-- Moves over blanks, a comment and the line break after them; nothing else may follow. -/
def finishLine? (c : Cursor) : Option Cursor :=
  let c := (c.skipWhile isBlank).skipComment
  if c.atLineEnd then some c.skipBreak else none

/-- Whether a document starts here: three hyphens at the start of a line, then a blank or the
end. -/
def atDocumentStart (c : Cursor) : Bool :=
  match c.rest with
  | '-' :: '-' :: '-' :: rest => c.column == 0 && blankNext rest
  | _ => false

/-- Whether a document ends here: three points at the start of a line, then a blank or the end. -/
def atDocumentEnd (c : Cursor) : Bool :=
  match c.rest with
  | '.' :: '.' :: '.' :: rest => c.column == 0 && blankNext rest
  | _ => false

/-- Whether there is a mark of a document here. -/
def atDocumentMark (c : Cursor) : Bool := c.atDocumentStart || c.atDocumentEnd

end Cursor
end RpcReference.Yaml
