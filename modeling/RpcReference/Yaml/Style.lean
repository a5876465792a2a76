import RpcReference.Yaml.Cursor
import RpcReference.Yaml.Scalar

/-!
# How a text is written in YAML

A text stands plain if it would be read back as that text, between quotes if it would not, and as a
block of lines if it has line feeds.

* `Traits` — what decides about the styles, found in one pass over the text.
* `Style.ofText` — **the style of a text**: the first that its traits admit, from the preferred one
  over single quotes to double quotes, which admit everything.
-/

set_option autoImplicit false

namespace RpcReference.Yaml

/-- The ways to write a text. -/
inductive Style where
  /-- As it is. -/
  | plain
  /-- Between single quotes. -/
  | singleQuoted
  /-- Between double quotes, with escapes. -/
  | doubleQuoted
  /-- As a block of lines. -/
  | literal
deriving DecidableEq, Repr

/-! ## Traits of a text -/

/-- What decides about the styles that a text admits. -/
structure Traits where
  /-- Something in it would be taken for punctuation. -/
  hasIndicator : Bool
  /-- It has a line break. -/
  hasBreak : Bool
  /-- It has a character that only an escape can stand for. -/
  hasSpecial : Bool
  /-- It starts or ends with a space or a break. -/
  hasEdge : Bool
  /-- It ends with a space. -/
  endsWithSpace : Bool
  /-- A space follows a break. -/
  breakThenSpace : Bool
  /-- A break follows a space. -/
  spaceThenBreak : Bool
deriving DecidableEq

/-- Whether a text starts with a document mark. -/
def startsWithMark : List Char → Bool
  | '-' :: '-' :: '-' :: _ => true
  | '.' :: '.' :: '.' :: _ => true
  | _ => false

/-- The characters that are punctuation at the start of a text. -/
def startIndicators : List Char :=
  ['#', ',', '[', ']', '{', '}', '&', '*', '!', '|', '>', '\'', '"', '%', '@', '\x60']

/-- Whether a text starts with punctuation. -/
def startsWithIndicator : List Char → Bool
  | [] => false
  | c :: rest =>
      c ∈ startIndicators || ((c = '?' || c = ':' || c = '-') && blankNext rest)

/-- Whether punctuation follows the character `before`: a colon before a blank or the end, or a
number sign after a blank. -/
def indicatorAfter (before : Char) : List Char → Bool
  | [] => false
  | c :: rest =>
      (c = ':' && blankNext rest) || (c = '#' && isBlankOrEnd before) || indicatorAfter c rest

/-- Whether two characters that satisfy `p` and `q` follow one another. -/
def hasPair (p q : Char → Bool) : List Char → Bool
  | [] => false
  | [_] => false
  | c :: d :: rest => (p c && q d) || hasPair p q (d :: rest)

/-- Whether a character is the space. -/
def isSpace (c : Char) : Bool := c = ' '

/-- The traits of a text. -/
def Traits.ofText (s : List Char) : Traits where
  hasIndicator :=
    startsWithMark s || startsWithIndicator s ||
      (match s with
        | [] => false
        | c :: rest => indicatorAfter c rest)
  hasBreak := s.any isBreak
  hasSpecial := s.any (! isPrintable ·)
  hasEdge :=
    (s.head?.any fun c => isSpace c || isBreak c) ||
      (s.getLast?.any fun c => isSpace c || isBreak c)
  endsWithSpace := s.getLast?.any isSpace
  breakThenSpace := hasPair isBreak isSpace s
  spaceThenBreak := hasPair isSpace isBreak s

/-! ## Choosing a style -/

/-- Whether a text with these traits can stand plain. -/
def Traits.admitsPlain (t : Traits) : Bool :=
  !(t.hasIndicator || t.hasBreak || t.hasSpecial || t.hasEdge || t.breakThenSpace ||
    t.spaceThenBreak)

/-- Whether a text with these traits can stand between single quotes. -/
def Traits.admitsSingleQuotes (t : Traits) : Bool :=
  !(t.hasSpecial || t.breakThenSpace || t.spaceThenBreak)

/-- Whether a text with these traits can stand as a block of lines. -/
def Traits.admitsLiteral (t : Traits) : Bool :=
  !(t.hasSpecial || t.spaceThenBreak || t.endsWithSpace)

/-- The style that is tried first: a block for a text with line feeds, quotes for a word that means
something else than itself, and none otherwise. -/
def Style.preferred (s : String) : Style :=
  if s.toList.contains '\n' then literal
  else if Scalar.ofPlain s ≠ .text then singleQuoted
  else if Scalar.hasLeadingZero s.toList then singleQuoted
  else plain

/-- The style of a text. -/
def Style.ofText (s : String) : Style :=
  let traits := Traits.ofText s.toList
  let quoted := if traits.admitsSingleQuotes then singleQuoted else doubleQuoted
  match preferred s with
  | literal => if traits.admitsLiteral then literal else doubleQuoted
  | plain => if traits.admitsPlain then plain else quoted
  | singleQuoted => quoted
  | doubleQuoted => doubleQuoted

end RpcReference.Yaml
