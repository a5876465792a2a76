import RpcReference.Yaml.Scalar
import RpcReference.Yaml.Tree.Basic

/-!
# Reading typed data from a tree

A reader that knows what it wants takes a scalar as the text that is written, so `1.50` stays `1.50`
and `~` stays `~`.

* `Tree.textOf`, `Tree.itemsOf`, `Tree.entriesOf` — what a scalar, a sequence and a mapping hold.
  Where a collection is asked for, **nothing at all is the empty collection**.
* `Tree.fieldsOf` — the known fields of a record, each of which may be there once.
* `Tree.optionalOf` — something that may be null.
-/

set_option autoImplicit false

namespace RpcReference.Yaml

/-- The tag of the YAML type with a name. -/
def typeTag (name : String) : Address := .ofText ("tag:yaml.org,2002:" ++ name)

namespace Tree

/-- The text of a scalar, whatever it means. -/
def textOf (tree : Tree) (node : Node) : FromTree String := do
  match ← tree.follow node with
  | .scalar text _ _ => return text
  | _ => failure

/-- The items of a sequence. -/
def itemsOf (tree : Tree) (node : Node) : FromTree (List Node) := do
  match ← tree.follow node with
  | .sequence items _ => return items
  | .scalar "" true _ => return []
  | _ => failure

/-- The entries of a mapping. -/
def entriesOf (tree : Tree) (node : Node) : FromTree (List (Node × Node)) := do
  match ← tree.follow node with
  | .mapping entries _ => return entries
  | .scalar "" true _ => return []
  | _ => failure

/-- The texts of a mapping with their keys. -/
def textsOf (tree : Tree) (node : Node) : FromTree (List (String × String)) := do
  (← tree.entriesOf node).mapM fun entry => do
    return (← tree.textOf entry.1, ← tree.textOf entry.2)

/-- The fields of a record among `entries`.  A known field may be there once, and what else there is
does not count. -/
def knownFields (tree : Tree) (known : List String) :
    Table String Node → List (Node × Node) → FromTree (Table String Node)
  | fields, [] => return fields
  | fields, entry :: rest => do
      let key ← tree.textOf entry.1
      if key ∉ known then tree.knownFields known fields rest
      else if Table.hasKey key fields then failure
      else tree.knownFields known (Table.put key entry.2 fields) rest

/-- The known fields of a record. -/
def fieldsOf (tree : Tree) (known : List String) (node : Node) : FromTree (Table String Node) := do
  tree.knownFields known [] (← tree.entriesOf node)

/-- Whether a scalar means that something is not there.  A scalar with the tag of null has to be a
null word. -/
def isAbsent? (text : String) (isPlain : Bool) (tag : Option Address) : Option Bool :=
  if !isPlain then some false
  else
    match tag with
    | none => some (Scalar.isNull text)
    | some name =>
        if name = typeTag "null" then if text ∈ Scalar.nullWords then some true else none
        else some false

/-- Something that may be null. -/
def optionalOf {α : Type} (tree : Tree) (read : Node → FromTree α) (node : Node) :
    FromTree (Option α) := do
  let node ← tree.follow node
  match node with
  | .scalar text isPlain tag =>
      if ← (isAbsent? text isPlain tag : Option Bool) then return none
      else return some (← read node)
  | _ => return some (← read node)

/-- A field that may be left out. -/
def fieldOr {α : Type} (fields : Table String Node) (key : String) (otherwise : α)
    (read : Node → FromTree α) : FromTree α :=
  match Table.get? key fields with
  | some node => read node
  | none => return otherwise

/-- A field that has to be there. -/
def field {α : Type} (fields : Table String Node) (key : String) (read : Node → FromTree α) :
    FromTree α :=
  match Table.get? key fields with
  | some node => read node
  | none => failure

end Tree
end RpcReference.Yaml
