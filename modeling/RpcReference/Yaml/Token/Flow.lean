import RpcReference.Text.Escape
import RpcReference.Yaml.Token.Gap

/-!
# Plain and quoted texts

* `readPlain` — a text without quotes.  It ends at a comment, at a mark of a document, at a colon
  before a blank, at punctuation inside brackets, and where the indentation of the collection around
  it ends.
* `readSingleQuoted`, `readDoubleQuoted` — a text between quotes; only between double quotes there
  are escapes.
-/

set_option autoImplicit false

namespace RpcReference.Yaml

/-! ## Plain texts -/

/-- The characters that end a plain text inside brackets and braces. -/
def flowIndicators : List Char := [',', '[', ']', '{', '}']

/-- Reads a word of a plain text; inside brackets a colon before punctuation is refused. -/
def readPlainWord (inFlow : Bool) : List Char → Option (List Char)
  | [] => some []
  | c :: rest =>
      if isBlankOrEnd c then some []
      else if c = ':' ∧ inFlow ∧ rest.head?.any (fun d => d ∈ '?' :: flowIndicators) then none
      else if c = ':' ∧ blankNext rest then some []
      else if inFlow ∧ c ∈ flowIndicators then some []
      else (readPlainWord inFlow rest).map (c :: ·)

/-- A plain text: its characters, and whether a line break follows it. -/
structure PlainText where
  /-- The characters. -/
  text : List Char
  /-- Whether there is a line break between it and the next token. -/
  isBroken : Bool

/-- Reads what a plain text has after a gap, the gap included.  Outside brackets its lines stand at
the column `column` or further right.  `fuel` bounds the number of characters. -/
def readPlainFrom (inFlow : Bool) (column : Int) :
    Nat → Gap → Cursor → Option (PlainText × Cursor)
  | 0, gap, c => some (⟨[], gap.isBroken⟩, c)
  | fuel + 1, gap, c =>
      if c.atDocumentMark ∨ c.rest.head? = some '#' then some (⟨[], gap.isBroken⟩, c)
      else do
        let word ← readPlainWord inFlow c.rest
        if word.isEmpty then some (⟨[], gap.isBroken⟩, c)
        else
          let text := gap.text ++ word
          let c := c.skip word.length
          if c.rest.isEmpty ∨ ¬ blankNext c.rest then some (⟨text, false⟩, c)
          else
            let (gap, c) ← Gap.read column fuel Gap.empty c
            if ¬ inFlow ∧ (c.column : Int) < column then some (⟨text, gap.isBroken⟩, c)
            else
              let (more, c) ← readPlainFrom inFlow column fuel gap c
              return (⟨text ++ more.text, more.isBroken⟩, c)

/-- Reads a plain text in a collection at the given indentation.  `fuel` bounds the number of
characters. -/
def readPlain (inFlow : Bool) (indent : Int) (fuel : Nat) (c : Cursor) :
    Option (PlainText × Cursor) :=
  readPlainFrom inFlow (indent + 1) fuel Gap.empty c

/-! ## Quoted texts -/

/-- What ends a word of a quoted text. -/
inductive WordEnd where
  /-- The closing quote. -/
  | quote
  /-- A blank or a line break. -/
  | gap
  /-- A line break after a backslash. -/
  | escapedBreak
deriving DecidableEq

/-- A word of a quoted text. -/
structure QuotedWord where
  /-- The characters it stands for. -/
  text : List Char
  /-- How many characters it is written with. -/
  length : Nat
  /-- What ends it. -/
  ending : WordEnd

/-- A word with a character in front of it that is written with `length` characters. -/
def QuotedWord.cons (c : Char) (length : Nat) (word : QuotedWord) : QuotedWord :=
  { word with text := c :: word.text, length := word.length + length }

/-- Reads a word between single quotes, in which two quotes stand for one. -/
def readSingleWord : List Char → Option QuotedWord
  | [] => some ⟨[], 0, .gap⟩
  | '\'' :: '\'' :: rest => (readSingleWord rest).map (QuotedWord.cons '\'' 2)
  | c :: rest =>
      if c = '\'' then some ⟨[], 0, .quote⟩
      else if isBlankOrEnd c then some ⟨[], 0, .gap⟩
      else (readSingleWord rest).map (QuotedWord.cons c 1)

/-- The character that a letter after a backslash stands for. -/
def escaped? (c : Char) : Option Char :=
  if c = '0' then some '\x00'
  else if c = 'a' then some '\x07'
  else if c = 'b' then some '\x08'
  else if c = 't' ∨ c = '\t' then some '\t'
  else if c = 'n' then some '\n'
  else if c = 'v' then some '\x0b'
  else if c = 'f' then some '\x0c'
  else if c = 'r' then some '\r'
  else if c = 'e' then some '\x1b'
  else if c = ' ' ∨ c = '"' ∨ c = '/' ∨ c = '\\' then some c
  else if c = 'N' then some '\u0085'
  else if c = '_' then some '\u00a0'
  else if c = 'L' then some '\u2028'
  else if c = 'P' then some '\u2029'
  else none

/-- How many hexadecimal digits follow a letter after a backslash. -/
def escapeWidth? (c : Char) : Option Nat :=
  if c = 'x' then some 2 else if c = 'u' then some 4 else if c = 'U' then some 8 else none

/-- The character whose code point is written with the first `width` digits of a text. -/
def codePoint? (width : Nat) (text : List Char) : Option Char := do
  let digits := text.take width
  if digits.length < width then none
  else
    let n ← digits.foldl (fun n c => do return (← n) * 16 + (← Text.hexDigit? c)) (some 0)
    if n.isValidChar then some (Char.ofNat n) else none

/-- Reads a word between double quotes; `fuel` bounds its length. -/
def readDoubleWord : Nat → List Char → Option QuotedWord
  | 0, _ => none
  | _ + 1, [] => some ⟨[], 0, .gap⟩
  | fuel + 1, '\\' :: rest =>
      match rest with
      | [] => none
      | c :: rest =>
          if isBreak c then some ⟨[], 0, .escapedBreak⟩
          else
            match escaped? c with
            | some e => (readDoubleWord fuel rest).map (QuotedWord.cons e 2)
            | none => do
                let width ← escapeWidth? c
                let e ← codePoint? width rest
                (readDoubleWord fuel (rest.drop width)).map (QuotedWord.cons e (2 + width))
  | fuel + 1, c :: rest =>
      if c = '"' then some ⟨[], 0, .quote⟩
      else if isBlankOrEnd c then some ⟨[], 0, .gap⟩
      else (readDoubleWord fuel rest).map (QuotedWord.cons c 1)

/-- Reads a quoted text up to its closing quote, word by word.  `fuel` bounds the number of
characters. -/
def readQuotedFrom (word : Nat → List Char → Option QuotedWord) :
    Nat → Cursor → Option (List Char × Cursor)
  | 0, _ => none
  | fuel + 1, c =>
      if c.atDocumentMark ∨ c.rest.isEmpty then none
      else do
        let w ← word (fuel + 1) c.rest
        let c := c.skip w.length
        match w.ending with
        | .quote => return (w.text, c.skip 1)
        | .gap =>
            let (gap, c) ← Gap.read 0 fuel Gap.empty c
            let (more, c) ← readQuotedFrom word fuel c
            return (w.text ++ gap.text ++ more, c)
        | .escapedBreak =>
            let c := (c.skip 1).skipBreak
            if c.rest.head? = some '"' then return (w.text, c.skip 1)
            else
              let (gap, c) ← Gap.read 0 fuel Gap.escaped c
              let (more, c) ← readQuotedFrom word fuel c
              return (w.text ++ gap.text ++ more, c)

/-- Reads a text between single quotes, after the opening one.  `fuel` bounds the number of
characters. -/
def readSingleQuoted : Nat → Cursor → Option (List Char × Cursor) :=
  readQuotedFrom fun _ => readSingleWord

/-- Reads a text between double quotes, after the opening one.  `fuel` bounds the number of
characters. -/
def readDoubleQuoted : Nat → Cursor → Option (List Char × Cursor) :=
  readQuotedFrom readDoubleWord

end RpcReference.Yaml
