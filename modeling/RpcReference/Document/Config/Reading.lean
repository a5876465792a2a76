import RpcReference.Document.Config
import RpcReference.Json.Typed
import RpcReference.Yaml.Value

/-!
# Reading a configuration

The keys are the same in both formats, in camel case, and what a configuration leaves out keeps its
default.

* `Config.ofJson` — from JSON.  The values are read one by one, as they are met, so **the first one
  that does not fit is the one that is reported**.
* `Config.ofYaml?` — from YAML.  All texts are taken as they are written.
-/

set_option autoImplicit false

namespace RpcReference.Config

/-! ## From JSON -/

section Json

open Json (Shape readText readOptional readList readTexts readComplete readShape)

/-- A contact or a license, of which `title` is the name in messages. -/
def linkShape (title : String) : Shape NamedLink where
  title := title
  keys := ["name", "url"]
  start := ⟨"", ""⟩
  value key link text :=
    if key = "name" then (readText text).map fun s => { link with name := s }
    else (readText text).map fun s => { link with url := s }

/-- A server. -/
def serverShape : Shape Server where
  title := "struct ApiServer"
  keys := ["url", "description"]
  start := ⟨"", ""⟩
  value key server text :=
    if key = "url" then (readText text).map fun s => { server with url := s }
    else (readText text).map fun s => { server with description := s }

/-- The value of one key of a configuration. -/
def readField (key : String) (config : Config) (text : List Char) : Reading Config :=
  if key = "openapiVersion" then (readText text).map fun s => { config with openapiVersion := s }
  else if key = "title" then (readText text).map fun s => { config with title := s }
  else if key = "description" then (readText text).map fun s => { config with description := s }
  else if key = "version" then (readText text).map fun s => { config with version := s }
  else if key = "contact" then
    (readOptional (readComplete (linkShape "struct ApiContact")) text).map fun link =>
      { config with contact := link }
  else if key = "license" then
    (readOptional (readComplete (linkShape "struct ApiLicense")) text).map fun link =>
      { config with license := link }
  else if key = "servers" then
    (readList (readComplete serverShape) text).map fun servers => { config with servers := servers }
  else
    (readTexts text).map fun given =>
      { config with namespaceDescriptions := describeNamespaces given }

/-- A configuration. -/
def shape : Shape Config where
  title := "struct ConverterConfig"
  keys := keys
  start := default
  value := readField

/-- The configuration that a JSON text holds. -/
def ofJson (text : String) : Except JsonError Config :=
  Json.readWhole? (fun text => (readShape shape text).map fun result => result.2.2) text

end Json

/-! ## From YAML -/

section Yaml

open Yaml (Node Tree FromTree)

/-- A contact or a license. -/
def linkOf (tree : Tree) (node : Node) : FromTree NamedLink := do
  let fields ← tree.fieldsOf ["name", "url"] node
  return ⟨← Tree.field fields "name" tree.textOf, ← Tree.field fields "url" tree.textOf⟩

/-- A server. -/
def serverOf (tree : Tree) (node : Node) : FromTree Server := do
  let fields ← tree.fieldsOf ["url", "description"] node
  return ⟨← Tree.field fields "url" tree.textOf, ← Tree.field fields "description" tree.textOf⟩

/-- A configuration with the given fields. -/
def ofFields (tree : Tree) (fields : Table String Node) : FromTree Config := do
  let textOr (key otherwise : String) := Tree.fieldOr fields key otherwise tree.textOf
  let linkOr (key : String) (otherwise : Option NamedLink) :=
    Tree.fieldOr fields key otherwise (tree.optionalOf (linkOf tree))
  let servers ← Tree.fieldOr fields "servers" default.servers fun node => do
    (← tree.itemsOf node).mapM (serverOf tree)
  let descriptions ← Tree.fieldOr fields "namespaceDescriptions" default.namespaceDescriptions
    fun node => return describeNamespaces (← tree.textsOf node)
  return {
    openapiVersion := ← textOr "openapiVersion" default.openapiVersion
    title := ← textOr "title" default.title
    description := ← textOr "description" default.description
    version := ← textOr "version" default.version
    contact := ← linkOr "contact" default.contact
    license := ← linkOr "license" default.license
    servers := servers
    namespaceDescriptions := descriptions }

/-- The configuration in a tree. -/
def ofTree? (tree : Tree) : Option Config :=
  match tree.root with
  | none => some default
  | some root => tree.read? do ofFields tree (← tree.fieldsOf keys root)

/-- The configuration that a YAML text holds. -/
def ofYaml? (text : String) : Option Config := (Yaml.tree? text).bind ofTree?

end Yaml

end RpcReference.Config
