import RpcReference.Yaml.Address

/-!
# YAML tokens

The words of a YAML text.  Where a text shows structure by indentation, the tokens say it: a block
collection has a start and an end.
-/

set_option autoImplicit false

namespace RpcReference.Yaml

/-- A tag as it is written: a handle, which may be empty, and what follows it. -/
structure TagName where
  /-- The handle, with its exclamation marks. -/
  handle : String
  /-- What follows the handle. -/
  suffix : Address
deriving DecidableEq

/-- A word of a YAML text. -/
inductive Token where
  /-- A version directive. -/
  | version (major minor : Nat)
  /-- A directive that gives a handle its meaning. -/
  | tagDirective (handle : String) (meaning : Address)
  /-- Three hyphens. -/
  | documentStart
  /-- Three points. -/
  | documentEnd
  /-- A sequence starts, by its first hyphen. -/
  | blockSequenceStart
  /-- A mapping starts, by its first key. -/
  | blockMappingStart
  /-- The indentation of a collection ends. -/
  | blockEnd
  /-- An opening bracket. -/
  | flowSequenceStart
  /-- A closing bracket. -/
  | flowSequenceEnd
  /-- An opening brace. -/
  | flowMappingStart
  /-- A closing brace. -/
  | flowMappingEnd
  /-- The hyphen of an item. -/
  | blockEntry
  /-- A comma. -/
  | flowEntry
  /-- A key follows. -/
  | key
  /-- A value follows. -/
  | value
  /-- A reference to an anchor. -/
  | alias (name : String)
  /-- A name for the node that follows. -/
  | anchor (name : String)
  /-- A tag for the node that follows. -/
  | tag (name : TagName)
  /-- A text, and whether it stands without quotes. -/
  | scalar (text : String) (isPlain : Bool)
  /-- The end of the text. -/
  | streamEnd
deriving DecidableEq

end RpcReference.Yaml
