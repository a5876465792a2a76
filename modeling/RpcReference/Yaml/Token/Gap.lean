import RpcReference.Yaml.Cursor

/-!
# Gaps between words

A text that stands plain or between quotes may go on over several lines.  What stands between two of
its words is a gap: **blanks alone stand for themselves; one line break is folded into a space, and
of several all but the first are kept**.  Blanks around line breaks are dropped.
-/

set_option autoImplicit false

namespace RpcReference.Yaml

/-- What stands between two words of a text. -/
structure Gap where
  /-- The blanks before the first line break. -/
  blanks : List Char
  /-- Whether there is a line break, an escaped one included. -/
  isBroken : Bool
  /-- The first line break that is not escaped. -/
  leading : List Char
  /-- The line breaks after it. -/
  trailing : List Char

namespace Gap

/-- The gap before anything is read. -/
def empty : Gap := ⟨[], false, [], []⟩

/-- The gap after an escaped line break. -/
def escaped : Gap := ⟨[], true, [], []⟩

/-- The text that a gap stands for. -/
def text (gap : Gap) : List Char :=
  if gap.isBroken then
    if gap.leading = ['\n'] then
      if gap.trailing.isEmpty then [' '] else gap.trailing
    else gap.leading ++ gap.trailing
  else gap.blanks

/-- Reads a gap.  After a line break no tab may stand before the column `tabLimit`.  `fuel` bounds
the number of characters. -/
def read (tabLimit : Int) : Nat → Gap → Cursor → Option (Gap × Cursor)
  | 0, gap, c => some (gap, c)
  | fuel + 1, gap, c =>
      match c.rest with
      | [] => some (gap, c)
      | b :: _ =>
          if isBlank b then
            if gap.isBroken then
              if b = '\t' ∧ (c.column : Int) < tabLimit then none
              else read tabLimit fuel gap (c.skip 1)
            else read tabLimit fuel { gap with blanks := gap.blanks ++ [b] } (c.skip 1)
          else if isBreak b then
            let (text, c) := c.takeBreak
            if gap.isBroken then
              read tabLimit fuel { gap with trailing := gap.trailing ++ text } c
            else read tabLimit fuel ⟨[], true, text, []⟩ c
          else some (gap, c)

end Gap
end RpcReference.Yaml
