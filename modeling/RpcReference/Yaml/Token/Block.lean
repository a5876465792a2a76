import RpcReference.Yaml.Cursor

/-!
# Blocks of lines

A text may stand as a block of lines after a bar or an angle bracket.  After a bar the lines are
kept, after an angle bracket they are folded: **a single line break between two lines that start
with no blank becomes a space**.  A sign after the mark says what becomes of the line breaks at the
end, a digit how far the lines are indented; without a digit the first line that is not empty tells.
-/

set_option autoImplicit false

namespace RpcReference.Yaml

/-- What becomes of the line breaks at the end of a block. -/
inductive Chomping where
  /-- None is kept. -/
  | strip
  /-- One is kept. -/
  | clip
  /-- All are kept. -/
  | keep
deriving DecidableEq

/-- The header of a block. -/
structure BlockHeader where
  /-- What becomes of the line breaks at the end. -/
  chomping : Chomping
  /-- By how much the lines are indented, if it says so. -/
  increment : Option Nat

/-- The sign of a header. -/
def chomping? (c : Char) : Option Chomping :=
  if c = '+' then some .keep else if c = '-' then some .strip else none

/-- The digit of a header; it is not zero. -/
def increment? (c : Char) : Option (Option Nat) :=
  if c = '0' then none
  else if '1' ≤ c ∧ c ≤ '9' then some (some (c.toNat - '0'.toNat))
  else some none

/-- Reads a digit, if there is one. -/
def readIncrement? (c : Cursor) : Option (Option Nat × Cursor) :=
  match c.rest with
  | [] => some (none, c)
  | d :: _ => (increment? d).map fun n => if n.isSome then (n, c.skip 1) else (none, c)

/-- Reads a sign, if there is one. -/
def readChomping (c : Cursor) : Option Chomping × Cursor :=
  match c.rest.head?.bind chomping? with
  | some chomping => (some chomping, c.skip 1)
  | none => (none, c)

/-- Reads a header: a sign and a digit in either order, each at most once, and the end of the
line. -/
def readHeader? (c : Cursor) : Option (BlockHeader × Cursor) := do
  let (before, c) := readChomping c
  let (increment, c) ← readIncrement? c
  let (after, c) :=
    if before.isNone ∧ increment.isSome then readChomping c else (none, c)
  let c ← c.finishLine?
  return (⟨(before.or after).getD .clip, increment⟩, c)

/-- The indentation of the lines before it is known: at least one, and more than that of the
collection around the block. -/
def leastIndent (indent : Int) (widest : Nat) : Nat := max (max widest (indent + 1).toNat) 1

/-- Empty lines of a block: the breaks they stand for, the greatest column that was reached, and the
place after them.  With an indentation the blanks of a line are skipped up to it, without one all
are.  A tab among them is refused.  `fuel` bounds the number of characters. -/
def readEmptyLines (indent : Option Nat) :
    Nat → Nat → Cursor → Option (List Char × Nat × Cursor)
  | 0, widest, c => some ([], widest, c)
  | fuel + 1, widest, c =>
      let spaces := (c.rest.takeWhile (· = ' ')).length
      let c := c.skip (match indent with
        | some column => min spaces (column - c.column)
        | none => spaces)
      let widest := max widest c.column
      let isBefore : Bool := match indent with
        | some column => decide (c.column < column)
        | none => true
      if isBefore && c.rest.head? == some '\t' then none
      else if c.atBreak then do
        let (text, c) := c.takeBreak
        let (more, widest, c) ← readEmptyLines indent fuel widest c
        return (text ++ more, widest, c)
      else some ([], widest, c)

/-- What stands between two lines of a block. -/
structure LineGap where
  /-- The break after the line before. -/
  leading : List Char
  /-- The breaks of the empty lines after it. -/
  trailing : List Char
  /-- Whether the line before started with a blank. -/
  afterBlank : Bool

/-- The text of a gap before a line that starts with a blank or not. -/
def LineGap.text (isFolded : Bool) (gap : LineGap) (startsBlank : Bool) : List Char :=
  if isFolded ∧ gap.leading = ['\n'] ∧ ¬ gap.afterBlank ∧ ¬ startsBlank then
    (if gap.trailing.isEmpty then [' '] else []) ++ gap.trailing
  else gap.leading ++ gap.trailing

/-- What is kept of the gap after the last line. -/
def LineGap.kept (chomping : Chomping) (gap : LineGap) : List Char :=
  match chomping with
  | .strip => []
  | .clip => gap.leading
  | .keep => gap.leading ++ gap.trailing

/-- Reads what a block has after a gap, the gap included: its lines stand at the column `indent`.
`fuel` bounds the number of characters. -/
def readLines (isFolded : Bool) (chomping : Chomping) (indent : Nat) :
    Nat → LineGap → Cursor → Option (List Char × Cursor)
  | 0, gap, c => some (gap.kept chomping, c)
  | fuel + 1, gap, c =>
      if c.column ≠ indent ∨ c.rest.isEmpty then some (gap.kept chomping, c)
      else do
        let startsBlank := c.rest.head?.any isBlank
        let line := c.rest.takeWhile (! isBreak ·)
        let (leading, c) := (c.skip line.length).takeBreak
        let (trailing, _, c) ← readEmptyLines (some indent) fuel 0 c
        let (more, c) ← readLines isFolded chomping indent fuel ⟨leading, trailing, startsBlank⟩ c
        return (gap.text isFolded startsBlank ++ line ++ more, c)

/-- Reads a block after its mark, in a collection at the given indentation.  `fuel` bounds the
number of characters. -/
def readBlock (isFolded : Bool) (indent : Int) (fuel : Nat) (c : Cursor) :
    Option (List Char × Cursor) := do
  let (header, c) ← readHeader? c
  let known := header.increment.map fun n => (max indent 0).toNat + n
  let (trailing, widest, c) ← readEmptyLines known fuel 0 c
  let column := known.getD (leastIndent indent widest)
  readLines isFolded header.chomping column fuel ⟨[], trailing, false⟩ c

end RpcReference.Yaml
