import RpcReference.Yaml.Token.Flow
import RpcReference.Yaml.Token.Block
import RpcReference.Yaml.Token.Property

/-!
# From a text to its tokens

The scanner goes through a text once.  It keeps the indentation of the open collections and, for
each open bracket, the place at which a key may have started: **a key is known as such only when its
colon is seen, and then the token that says so is put in front of it**.  Such a key stands on one
line and is at most 1024 bytes long.

* `Scanner.step?` — reads one token.
* `Token.scan?` — the tokens of a text.
-/

set_option autoImplicit false

namespace RpcReference.Yaml

/-- A place at which a key may have started. -/
structure PossibleKey where
  /-- Whether nothing but a key can stand there. -/
  isRequired : Bool
  /-- The number of tokens before it. -/
  tokenCount : Nat
  /-- The number of bytes before it. -/
  index : Nat
  /-- Its line. -/
  line : Nat
  /-- Its column. -/
  column : Nat

/-- What is known of a text up to a place. -/
structure Scanner where
  /-- The place. -/
  cursor : Cursor
  /-- The tokens before it. -/
  tokens : Array Token
  /-- The indentation of the innermost open collection. -/
  indent : Int
  /-- The indentations of the collections around it. -/
  outer : List Int
  /-- For each open bracket, the innermost first, and for the text around them: where a key may have
  started. -/
  keys : List (Option PossibleKey)
  /-- Whether a key may start here. -/
  keyAllowed : Bool
  /-- Whether the end of the text is reached. -/
  isFinished : Bool

namespace Scanner

/-- The scanner at the start of a text. -/
def start (text : List Char) : Scanner := ⟨Cursor.start text, #[], -1, [], [none], true, false⟩

/-- The number of open brackets. -/
def flowLevel (s : Scanner) : Nat := s.keys.length - 1

/-- Whether a bracket is open. -/
def inFlow (s : Scanner) : Bool := decide (0 < s.flowLevel)

/-- Adds a token. -/
def emit (token : Token) (s : Scanner) : Scanner := { s with tokens := s.tokens.push token }

/-- Adds a token that is written with `count` characters. -/
def emitMark (token : Token) (count : Nat) (s : Scanner) : Scanner :=
  { s with tokens := s.tokens.push token, cursor := s.cursor.skip count }

/-- Puts a token after the first `position` ones. -/
def insertToken (token : Token) (position : Nat) (s : Scanner) : Scanner :=
  { s with tokens := s.tokens.insertIdxIfInBounds position token }

/-! ## Indentation -/

/-- Opens a block collection at a column further right than the innermost one, its token standing
after the first `position` ones. -/
def openBlock (column : Nat) (token : Token) (position : Nat) (s : Scanner) : Scanner :=
  if s.inFlow ∨ (column : Int) ≤ s.indent then s
  else { (s.insertToken token position) with indent := column, outer := s.indent :: s.outer }

/-- Closes the block collections that stand further right than a column. -/
def closeBlocks (column : Int) : List Int → Scanner → Scanner
  | [], s => s
  | around :: outer, s =>
      if s.inFlow ∨ s.indent ≤ column then s
      else closeBlocks column outer { (s.emit .blockEnd) with indent := around, outer := outer }

/-- Closes the block collections that stand further right than a column. -/
def unindent (column : Int) (s : Scanner) : Scanner := closeBlocks column s.outer s

/-! ## Possible keys -/

/-- The longest key before a colon that was not announced, in bytes. -/
def longestKey : Nat := 1024

/-- Whether a key that started at the given place can no longer be completed. -/
def isStale (c : Cursor) (key : PossibleKey) : Bool :=
  decide (key.line < c.line) || decide (key.index + longestKey < c.index)

/-- Forgets the keys that can no longer be completed; none of them may be required. -/
def dropStaleKeys? (s : Scanner) : Option Scanner :=
  if s.keys.any fun key => key.any fun k => isStale s.cursor k && k.isRequired then none
  else some { s with keys := s.keys.map fun key => key.filter fun k => ! isStale s.cursor k }

/-- Forgets the innermost possible key, which may not be required. -/
def dropKey? (s : Scanner) : Option Scanner :=
  match s.keys with
  | some key :: around => if key.isRequired then none else some { s with keys := none :: around }
  | _ => some s

/-- Remembers that a key may start here, if one is allowed. -/
def saveKey? (s : Scanner) : Option Scanner :=
  if s.keyAllowed then do
    let s ← s.dropKey?
    let key : PossibleKey :=
      { isRequired := !s.inFlow && decide (s.indent = s.cursor.column)
        tokenCount := s.tokens.size
        index := s.cursor.index
        line := s.cursor.line
        column := s.cursor.column }
    return { s with keys := some key :: s.keys.drop 1 }
  else some s

/-! ## Tokens -/

/-- A mark of a document. -/
def documentMark? (token : Token) (s : Scanner) : Option Scanner := do
  let s ← (s.unindent (-1)).dropKey?
  return { (s.emitMark token 3) with keyAllowed := false }

/-- A directive. -/
def directive? (fuel : Nat) (s : Scanner) : Option Scanner := do
  let s ← (s.unindent (-1)).dropKey?
  let (token, c) ← readDirective fuel (s.cursor.skip 1)
  return { (s.emit token) with cursor := c, keyAllowed := false }

/-- The end of the text. -/
def finish? (s : Scanner) : Option Scanner := do
  let s ← (s.unindent (-1)).dropKey?
  return { (s.emit .streamEnd) with keyAllowed := false, isFinished := true }

/-- An opening bracket. -/
def openFlow? (token : Token) (s : Scanner) : Option Scanner := do
  let s ← s.saveKey?
  return { (s.emitMark token 1) with keys := none :: s.keys, keyAllowed := true }

/-- A closing bracket. -/
def closeFlow? (token : Token) (s : Scanner) : Option Scanner := do
  let s ← s.dropKey?
  let keys := if s.inFlow then s.keys.drop 1 else s.keys
  return { (s.emitMark token 1) with keys := keys, keyAllowed := false }

/-- A comma. -/
def flowEntry? (s : Scanner) : Option Scanner := do
  let s ← s.dropKey?
  return { (s.emitMark .flowEntry 1) with keyAllowed := true }

/-- The hyphen of an item. -/
def blockEntry? (s : Scanner) : Option Scanner :=
  if ¬ s.inFlow ∧ ¬ s.keyAllowed then none
  else do
    let s := s.openBlock s.cursor.column .blockSequenceStart s.tokens.size
    let s ← s.dropKey?
    return { (s.emitMark .blockEntry 1) with keyAllowed := true }

/-- The question mark of a key. -/
def key? (s : Scanner) : Option Scanner :=
  if ¬ s.inFlow ∧ ¬ s.keyAllowed then none
  else do
    let s := s.openBlock s.cursor.column .blockMappingStart s.tokens.size
    let s ← s.dropKey?
    return { (s.emitMark .key 1) with keyAllowed := !s.inFlow }

/-- The colon of a value.  It completes the key that may have started last. -/
def value? (s : Scanner) : Option Scanner :=
  match s.keys with
  | some key :: around =>
      let s := { s with keys := none :: around }
      let s := s.insertToken .key key.tokenCount
      let s := s.openBlock key.column .blockMappingStart key.tokenCount
      some { (s.emitMark .value 1) with keyAllowed := false }
  | _ =>
      if ¬ s.inFlow ∧ ¬ s.keyAllowed then none
      else
        let s := s.openBlock s.cursor.column .blockMappingStart s.tokens.size
        some { (s.emitMark .value 1) with keyAllowed := !s.inFlow }

/-- A token of a node that may be a key: an anchor, a reference, a tag or a text. -/
def node? (read : Cursor → Option (Token × Bool × Cursor)) (s : Scanner) : Option Scanner := do
  let s ← s.saveKey?
  let (token, keyAllowed, c) ← read s.cursor
  return { (s.emit token) with cursor := c, keyAllowed := keyAllowed }

/-- A block of lines, which is never a key on one line. -/
def block? (isFolded : Bool) (fuel : Nat) (s : Scanner) : Option Scanner := do
  let s ← s.dropKey?
  let (text, c) ← readBlock isFolded s.indent fuel (s.cursor.skip 1)
  return { (s.emit (.scalar (String.ofList text) false)) with cursor := c, keyAllowed := true }

/-- A quoted text after its opening quote. -/
def quoted (read : Cursor → Option (List Char × Cursor)) (c : Cursor) :
    Option (Token × Bool × Cursor) := do
  let (text, c) ← read (c.skip 1)
  return (.scalar (String.ofList text) false, false, c)

/-- The characters that no plain text starts with. -/
def notPlain : List Char :=
  ['-', '?', ':', ',', '[', ']', '{', '}', '#', '&', '*', '!', '|', '>', '\'', '"', '%', '@',
    '\x60']

/-- Whether a plain text starts here: with none of the special characters, or with a hyphen before
something, or outside brackets with a question mark or a colon before something. -/
def startsPlain (s : Scanner) : Bool :=
  match s.cursor.rest with
  | [] => false
  | c :: rest =>
      (!isBlankOrEnd c && !(c ∈ notPlain)) ||
        (c = '-' && !(rest.head?.any isBlank)) ||
        (!s.inFlow && (c = '?' || c = ':') && !blankNext rest)

/-- Moves over blanks, comments and line breaks, and over a byte order mark at the start of a line.
A tab counts as a blank only where no key may start or inside brackets; after a line break a key may
start.  `fuel` bounds the number of lines. -/
def skipBlanks : Nat → Scanner → Scanner
  | 0, s => s
  | fuel + 1, s =>
      let isSkipped (c : Char) : Bool :=
        c = ' ' || ((s.inFlow || !s.keyAllowed) && c = '\t')
      let c := s.cursor
      let c := if c.column = 0 ∧ c.rest.head? = some '\ufeff' then c.skip 1 else c
      let c := (c.skipWhile isSkipped).skipComment
      if c.atBreak then
        skipBlanks fuel
          { s with cursor := c.skipBreak, keyAllowed := s.keyAllowed || !s.inFlow }
      else { s with cursor := c }

/-- Reads the token that starts here.  `fuel` bounds the number of characters that are left. -/
def token? (fuel : Nat) (s : Scanner) : Option Scanner :=
  let c := s.cursor
  match c.rest with
  | [] => s.finish?
  | mark :: rest =>
      if mark = '%' ∧ c.column = 0 then s.directive? fuel
      else if c.atDocumentStart then s.documentMark? .documentStart
      else if c.atDocumentEnd then s.documentMark? .documentEnd
      else if mark = '[' then s.openFlow? .flowSequenceStart
      else if mark = '{' then s.openFlow? .flowMappingStart
      else if mark = ']' then s.closeFlow? .flowSequenceEnd
      else if mark = '}' then s.closeFlow? .flowMappingEnd
      else if mark = ',' then s.flowEntry?
      else if mark = '-' ∧ blankNext rest then s.blockEntry?
      else if mark = '?' ∧ (s.inFlow ∨ blankNext rest) then s.key?
      else if mark = ':' ∧ (s.inFlow ∨ blankNext rest) then s.value?
      else if mark = '*' then
        s.node? fun c => (readName (c.skip 1)).map fun (name, c) => (.alias name, false, c)
      else if mark = '&' then
        s.node? fun c => (readName (c.skip 1)).map fun (name, c) => (.anchor name, false, c)
      else if mark = '!' then
        s.node? fun c => (readTag s.inFlow fuel c).map fun (name, c) => (.tag name, false, c)
      else if mark = '|' ∧ ¬ s.inFlow then s.block? false fuel
      else if mark = '>' ∧ ¬ s.inFlow then s.block? true fuel
      else if mark = '\'' then s.node? (quoted (readSingleQuoted fuel))
      else if mark = '"' then s.node? (quoted (readDoubleQuoted fuel))
      else if s.startsPlain then
        s.node? fun c => (readPlain s.inFlow s.indent fuel c).map fun (plain, c) =>
          (.scalar (String.ofList plain.text) true, plain.isBroken, c)
      else none

/-- Reads the next token.  `fuel` bounds the number of characters that are left. -/
def step? (fuel : Nat) (s : Scanner) : Option Scanner := do
  let s := s.skipBlanks fuel
  let s ← s.dropStaleKeys?
  (s.unindent s.cursor.column).token? fuel

/-- Reads tokens until the text ends.  `fuel` bounds the number of characters. -/
def run? : Nat → Scanner → Option Scanner
  | 0, _ => none
  | fuel + 1, s => if s.isFinished then some s else (s.step? (fuel + 1)).bind (run? fuel)

end Scanner

/-- The tokens of a text that holds allowed characters only. -/
def Token.scan? (text : List Char) : Option (List Token) :=
  if text.all isAllowed then
    ((Scanner.start text).run? (text.length + 2)).map fun s => s.tokens.toList
  else none

end RpcReference.Yaml
