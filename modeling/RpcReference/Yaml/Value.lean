import RpcReference.Yaml.Token.Scanner
import RpcReference.Yaml.Tree.OfTokens
import RpcReference.Yaml.Tree.Typed

/-!
# The JSON value of a YAML text

Documents of both formats are read into the same values.  An entry has a text as its key, namely
that of its key node, whatever that would mean elsewhere.

* `scalarValue?` — the value of a scalar.  The tags of truth values, integers, floats and null
  decide it; **a tag of the user's own is refused**, a local one that is no text does not count, and
  any other makes a scalar a text.
* `Yaml.parse?` — the value of a text.
-/

set_option autoImplicit false

namespace RpcReference.Yaml

/-- How deep collections may be nested. -/
def nestingLimit : Nat := 128

/-! ## Scalars -/

/-- Whether an address begins with an exclamation mark. -/
def isLocal (address : Address) : Bool := address.head? = some (some '!')

/-- Whether a tag is the user's own: it is local, and a text. -/
def isOwnTag (tag : Option Address) : Bool :=
  tag.any fun address => isLocal address && address.isText

/-- The value of a meaning; integers beyond 64 bits have none, and a number that is not finite is
null. -/
def Scalar.value? (word : String) : Scalar → Option Json
  | null => some .null
  | bool b => some (.bool b)
  | int n => some (.int n)
  | hugeInt => none
  | float x => some (.number (.float x))
  | notFinite => some .null
  | text => some (.string word)

/-- The value of a number with the tag of floats. -/
def floatValue? (word : String) : Option Json :=
  if word ∈ Scalar.notFiniteWords then some .null
  else (Scalar.float? word.toList).map fun x => .number (.float x)

/-- The value of a word that stands plain, and of a text that does not. -/
def untaggedValue? (text : String) (isPlain : Bool) : Option Json :=
  if isPlain then (Scalar.ofPlain text).value? text else some (.string text)

/-- The value of a scalar. -/
def scalarValue? (text : String) (isPlain : Bool) (tag : Option Address) : Option Json :=
  match tag with
  | none => untaggedValue? text isPlain
  | some name =>
      if name = typeTag "bool" then (Scalar.bool? text).map .bool
      else if name = typeTag "int" then
        ((Scalar.integer? text.toList).bind Scalar.ofInteger).bind (Scalar.value? text)
      else if name = typeTag "float" then floatValue? text
      else if name = typeTag "null" then if text ∈ Scalar.nullWords then some .null else none
      else if isLocal name then untaggedValue? text isPlain
      else some (.string text)

/-! ## Trees -/

namespace Tree

/-- The value of a node with at most `levels` collections inside one another. -/
def valueOf (tree : Tree) : Nat → Node → FromTree Json
  | levels, node => do
      match ← tree.follow node with
      | .scalar text isPlain tag =>
          if isOwnTag tag then failure else (scalarValue? text isPlain tag : Option Json)
      | .sequence items tag =>
          match levels with
          | 0 => failure
          | levels + 1 =>
              if isOwnTag tag then failure
              else return .array (← items.mapM (tree.valueOf levels))
      | .mapping entries tag =>
          match levels with
          | 0 => failure
          | levels + 1 =>
              if isOwnTag tag then failure
              else
                let members ← entries.mapM fun entry => do
                  return (← tree.textOf entry.1, ← tree.valueOf levels entry.2)
                return .object (Table.putAll [] members)
      | _ => failure

/-- The value of a tree; an empty text is null. -/
def value? (tree : Tree) : Option Json :=
  match tree.root with
  | none => some .null
  | some root => tree.read? (tree.valueOf nestingLimit root)

end Tree

/-- The tree of a text. -/
def tree? (text : String) : Option Tree := (Token.scan? text.toList).bind Tree.ofTokens?

/-- The value of a text. -/
def parse? (text : String) : Option Json := (tree? text).bind Tree.value?

end RpcReference.Yaml
