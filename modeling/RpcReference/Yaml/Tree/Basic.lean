import RpcReference.Table
import RpcReference.Yaml.Address

/-!
# The tree of a YAML text

A text is read into a tree of nodes before anybody asks what type of value it should hold.  Scalars
keep the text that they are written with, for a reader may ask for exactly that.

* `Node` — a node of the tree.  References stay references, so **the tree is as large as its text**
  even if what it stands for is larger, or without end.
* `Tree.follow` — the node that a node stands for; each tree allows a limited number of references
  to be followed.
-/

set_option autoImplicit false

namespace RpcReference.Yaml

/-- A node of a text. -/
inductive Node where
  /-- A scalar: its text, whether it stands without quotes, and its tag. -/
  | scalar (text : String) (isPlain : Bool) (tag : Option Address)
  /-- A sequence and its tag. -/
  | sequence (items : List Node) (tag : Option Address)
  /-- A mapping and its tag. -/
  | mapping (entries : List (Node × Node)) (tag : Option Address)
  /-- A node to which references can be made, by its number. -/
  | anchored (number : Nat) (node : Node)
  /-- A reference to the node with a number. -/
  | reference (number : Nat)

namespace Node

/-- The node that stands where nothing is written. -/
def empty : Node := scalar "" true none

/-! ## Anchors -/

mutual

/-- The numbered nodes inside a node, in the order in which they start. -/
def anchors : Node → List (Nat × Node)
  | anchored number node => (number, node) :: node.anchors
  | sequence items _ => anchorsOfItems items
  | mapping entries _ => anchorsOfEntries entries
  | _ => []

/-- The numbered nodes inside items. -/
def anchorsOfItems : List Node → List (Nat × Node)
  | [] => []
  | item :: rest => item.anchors ++ anchorsOfItems rest

/-- The numbered nodes inside entries. -/
def anchorsOfEntries : List (Node × Node) → List (Nat × Node)
  | [] => []
  | (key, value) :: rest => key.anchors ++ value.anchors ++ anchorsOfEntries rest

end

/-! ## Size -/

mutual

/-- The size of a node: one for a scalar or a reference, two for a collection besides what is in
it. -/
def size : Node → Nat
  | anchored _ node => node.size
  | sequence items _ => 2 + sizeOfItems items
  | mapping entries _ => 2 + sizeOfEntries entries
  | _ => 1

/-- The size of items. -/
def sizeOfItems : List Node → Nat
  | [] => 0
  | item :: rest => item.size + sizeOfItems rest

/-- The size of entries. -/
def sizeOfEntries : List (Node × Node) → Nat
  | [] => 0
  | (key, value) :: rest => key.size + value.size + sizeOfEntries rest

end

end Node

/-! ## Trees -/

/-- What a text holds. -/
structure Tree where
  /-- The outermost node; none if the text is empty. -/
  root : Option Node
  /-- The numbered nodes. -/
  anchors : Table Nat Node

namespace Tree

/-- The tree with an outermost node.  **Of two nodes with one number the one that starts later
counts**, for every reference to that number. -/
def ofRoot (root : Option Node) : Tree :=
  ⟨root, Table.putAll [] ((root.map Node.anchors).getD [])⟩

/-- How many references may be followed for each unit of a tree's size. -/
def referencesPerUnit : Nat := 100

/-- How many references of a tree may be followed while it is read. -/
def referenceLimit (tree : Tree) : Nat := (tree.root.map Node.size).getD 1 * referencesPerUnit

end Tree

/-- Reading from a tree: what is kept is how many references may still be followed, and there is no
result if the tree is not what the reader asks for. -/
abbrev FromTree := StateT Nat Option

namespace Tree

/-- The node that a node stands for. -/
def follow (tree : Tree) : Node → FromTree Node
  | .anchored _ node => tree.follow node
  | .reference number => fun left =>
      match left with
      | 0 => none
      | left + 1 => (Table.get? number tree.anchors).map fun node => (node, left)
  | node => pure node

/-- Reads a whole tree. -/
def read? {α : Type} (tree : Tree) (reader : FromTree α) : Option α :=
  (reader.run tree.referenceLimit).map Prod.fst

end Tree
end RpcReference.Yaml
