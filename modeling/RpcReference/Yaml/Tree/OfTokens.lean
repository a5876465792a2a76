import RpcReference.Yaml.Token.Basic
import RpcReference.Yaml.Tree.Basic

/-!
# From tokens to a tree

The tokens say where collections start and end, and the grammar of nodes is read off them with one
token of foresight.  Where a node may be left out, nothing stands for `Node.empty`.

* `Outline` — the tokens that are left and the anchors that are known.  **An anchor has to stand
  before the references to it**; it is numbered by how many names of anchors were known before.
* `Outline.node` — a node.
* `Tree.ofTokens?` — the tree of a text, which holds one document at most.
-/

set_option autoImplicit false

namespace RpcReference.Yaml

/-- What is known while a tree is built. -/
structure Outline where
  /-- The tokens that are left. -/
  tokens : List Token
  /-- The anchors so far, with the numbers of their nodes. -/
  anchors : Table String Nat

/-- Taking something from the front of an outline, if it is there. -/
abbrev FromOutline := StateT Outline Option

namespace Outline

/-! ## Single tokens -/

/-- The next token. -/
def peek : FromOutline (Option Token) := return (← get).tokens.head?

/-- Moves over the next token. -/
def advance : FromOutline Unit := modify fun o => { o with tokens := o.tokens.drop 1 }

/-- Whether the next token is one of those given. -/
def isNext (tokens : List Token) : FromOutline Bool := return (← peek).any (· ∈ tokens)

/-- Moves over a token if it is the next one; tells whether it was. -/
def accept (token : Token) : FromOutline Bool := do
  if ← isNext [token] then
    advance
    return true
  else return false

/-- Moves over a token, which has to be the next one. -/
def expect (token : Token) : FromOutline Unit := do
  unless ← accept token do failure

/-- Does something with a bound on how many tokens are left. -/
def bounded {α : Type} (read : Nat → FromOutline α) : FromOutline α := do
  read ((← get).tokens.length + 1)

/-- A node, or the empty one before one of the tokens given. -/
def nodeUnless (ends : List Token) (node : FromOutline Node) : FromOutline Node := do
  if ← isNext ends then return .empty else node

/-! ## Anchors and tags -/

/-- The meaning of handles that no directive changes. -/
def standardHandles : Table String Address :=
  [("!", .ofText "!"), ("!!", .ofText "tag:yaml.org,2002:")]

/-- The number of a new node with an anchor. -/
def declareAnchor (name : String) : FromOutline Nat := do
  let anchors := (← get).anchors
  let number := anchors.length
  modify fun o => { o with anchors := Table.put name number anchors }
  return number

/-- An anchor, if there is one. -/
def anchor : FromOutline (Option Nat) := do
  match ← peek with
  | some (.anchor name) =>
      advance
      return some (← declareAnchor name)
  | _ => return none

/-- A tag, if there is one, with the meaning of its handle. -/
def tag (handles : Table String Address) : FromOutline (Option Address) := do
  match ← peek with
  | some (.tag name) =>
      advance
      if name.handle = "" then return some name.suffix
      else
        match Table.get? name.handle handles with
        | some meaning => return some (meaning ++ name.suffix)
        | none => failure
  | _ => return none

/-- The anchor and the tag of a node, in any order. -/
def properties (handles : Table String Address) : FromOutline (Option Nat × Option Address) := do
  let number ← anchor
  let name ← tag handles
  if number.isSome then return (number, name) else return (← anchor, name)

/-! ## Collections

Each function reads what stands after the token that opens a collection, given how a node inside it
is read. -/

/-- The items of a block sequence. -/
def blockItems (node : FromOutline Node) : Nat → FromOutline (List Node)
  | 0 => failure
  | fuel + 1 => do
      if ← accept .blockEntry then
        let item ← nodeUnless [.blockEntry, .blockEnd] node
        return item :: (← blockItems node fuel)
      else
        expect .blockEnd
        return []

/-- The items of a sequence that stands at the column of the key before it; nothing marks its
end. -/
def levelItems (node : FromOutline Node) : Nat → FromOutline (List Node)
  | 0 => failure
  | fuel + 1 => do
      if ← accept .blockEntry then
        let item ← nodeUnless [.blockEntry, .key, .value, .blockEnd] node
        return item :: (← levelItems node fuel)
      else return []

/-- The value after a key, which may be left out together with its mark. -/
def valueUnless (ends : List Token) (node : FromOutline Node) : FromOutline Node := do
  if ← accept .value then nodeUnless ends node else return .empty

/-- The entries of a block mapping. -/
def blockEntries (node : FromOutline Node) : Nat → FromOutline (List (Node × Node))
  | 0 => failure
  | fuel + 1 => do
      if ← accept .key then
        let key ← nodeUnless [.key, .value, .blockEnd] node
        let value ← valueUnless [.key, .value, .blockEnd] node
        return (key, value) :: (← blockEntries node fuel)
      else
        expect .blockEnd
        return []

/-- The key of a single entry inside brackets.  A key that is left out takes the token after it
along. -/
def pairKey (node : FromOutline Node) : FromOutline Node := do
  if ← isNext [.value, .flowEntry, .flowSequenceEnd] then
    advance
    return .empty
  else node

/-- An item of a sequence in brackets: a node, or a mapping of one entry. -/
def flowItem (node : FromOutline Node) : FromOutline Node := do
  if ← accept .key then
    let key ← pairKey node
    let value ← valueUnless [.flowEntry, .flowSequenceEnd] node
    return .mapping [(key, value)] none
  else node

/-- The items of a sequence in brackets.  A comma stands before each but the first, and may stand
after the last. -/
def flowItems (node : FromOutline Node) : Nat → Bool → FromOutline (List Node)
  | 0, _ => failure
  | fuel + 1, isFirst => do
      if ← accept .flowSequenceEnd then return []
      unless isFirst do expect .flowEntry
      if ← accept .flowSequenceEnd then return []
      let item ← flowItem node
      return item :: (← flowItems node fuel false)

/-- An entry of a mapping in braces.  A node that is no key has the empty value. -/
def flowPair (node : FromOutline Node) : FromOutline (Node × Node) := do
  if ← accept .key then
    let key ← nodeUnless [.value, .flowEntry, .flowMappingEnd] node
    let value ← valueUnless [.flowEntry, .flowMappingEnd] node
    return (key, value)
  else return (← node, .empty)

/-- The entries of a mapping in braces, separated like the items of a sequence. -/
def flowEntries (node : FromOutline Node) : Nat → Bool → FromOutline (List (Node × Node))
  | 0, _ => failure
  | fuel + 1, isFirst => do
      if ← accept .flowMappingEnd then return []
      unless isFirst do expect .flowEntry
      if ← accept .flowMappingEnd then return []
      let entry ← flowPair node
      return entry :: (← flowEntries node fuel false)

/-! ## Nodes -/

/-- Where a node stands, which decides how it may be written. -/
inductive Place where
  /-- Inside brackets. -/
  | flow
  /-- Outside brackets. -/
  | block
  /-- Outside brackets, as a key or a value of a mapping. -/
  | entry
deriving DecidableEq

/-- A node without its anchor and its tag, given how the nodes inside it are read.  Nothing at all
is a node only if it has an anchor or a tag.  `fuel` bounds how many nodes there are inside it. -/
def content (inner : Place → FromOutline Node) (fuel : Nat) (place : Place) (hasProperties : Bool)
    (tag : Option Address) : FromOutline Node := do
  match ← peek with
  | some (.scalar text isPlain) =>
      advance
      return .scalar text isPlain tag
  | some .flowSequenceStart =>
      advance
      return .sequence (← flowItems (inner .flow) fuel true) tag
  | some .flowMappingStart =>
      advance
      return .mapping (← flowEntries (inner .flow) fuel true) tag
  | next =>
      if next = some .blockEntry ∧ place = .entry then
        return .sequence (← levelItems (inner .block) fuel) tag
      else if next = some .blockSequenceStart ∧ place ≠ .flow then
        advance
        return .sequence (← blockItems (inner .block) fuel) tag
      else if next = some .blockMappingStart ∧ place ≠ .flow then
        advance
        return .mapping (← blockEntries (inner .entry) fuel) tag
      else if hasProperties then return .scalar "" true tag
      else failure

/-- A node; `fuel` bounds how many tokens are left, of which each node inside it has one before
it. -/
def node (handles : Table String Address) : Nat → Place → FromOutline Node
  | 0, _ => failure
  | fuel + 1, place => do
      match ← peek with
      | some (.alias name) =>
          advance
          match Table.get? name (← get).anchors with
          | some number => return .reference number
          | none => failure
      | _ =>
          let (number, name) ← properties handles
          let content ← content (node handles fuel) fuel place (number.isSome || name.isSome) name
          match number with
          | some number => return .anchored number content
          | none => return content

/-! ## Documents -/

/-- The versions of YAML that a directive may ask for. -/
def versions : List (Nat × Nat) := [(1, 1), (1, 2)]

/-- The directives of a document: the handles that they give a meaning.  Neither the version nor a
handle may be given twice. -/
def directives : Nat → Bool → Table String Address → FromOutline (Table String Address)
  | 0, _, _ => failure
  | fuel + 1, hasVersion, handles => do
      match ← peek with
      | some (.version major minor) =>
          if hasVersion ∨ (major, minor) ∉ versions then failure
          else
            advance
            directives fuel true handles
      | some (.tagDirective handle meaning) =>
          if Table.hasKey handle handles then failure
          else
            advance
            directives fuel hasVersion (Table.put handle meaning handles)
      | _ => return handles

/-- Whether the next token begins a document or ends one. -/
def atBoundary : FromOutline Bool := do
  match ← peek with
  | some (.version ..) | some (.tagDirective ..) => return true
  | some next => return next ∈ [.documentStart, .documentEnd, .streamEnd]
  | none => return true

/-- A document.  Its mark may be left out if there are no directives. -/
def document : FromOutline Node := do
  if (← atBoundary) && !(← isNext [.documentEnd]) then
    let handles ← bounded fun fuel => directives fuel false []
    expect .documentStart
    if ← atBoundary then return .empty
    else bounded fun fuel => node (Table.putAll standardHandles handles) fuel .block
  else bounded fun fuel => node standardHandles fuel .block

/-- The whole text: a document, marks of its end, and nothing else. -/
def whole : FromOutline (Option Node) := do
  if ← accept .streamEnd then return none
  let root ← document
  modify fun o => { o with tokens := o.tokens.dropWhile (· = .documentEnd) }
  expect .streamEnd
  return some root

end Outline

/-- The tree that the tokens of a text describe. -/
def Tree.ofTokens? (tokens : List Token) : Option Tree :=
  (Outline.whole.run ⟨tokens, []⟩).map fun result => .ofRoot result.1

end RpcReference.Yaml
