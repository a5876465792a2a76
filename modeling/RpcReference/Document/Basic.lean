import RpcReference.Document.Config
import RpcReference.Document.Operation
import RpcReference.Namespace
import RpcReference.Sorted.Insert

/-!
# The reference document

The reference holds one operation for each path, in increasing order of the paths, and the tags in
the order of their registration.

* `PathMap` — the operations by path; **of two operations with one path the later one stays**.
* `Reference.assemble` — the document of a list of operations.
* `Reference.toJson` — the document as a JSON value.
-/

set_option autoImplicit false

namespace RpcReference

/-- Operations by path, in increasing order of the paths. -/
structure PathMap where
  /-- The paths with their operations. -/
  entries : Table String Operation
  /-- The paths increase strictly. -/
  sorted : Table.IsSorted entries

namespace PathMap

/-- The map without operations. -/
def empty : PathMap := ⟨[], Table.isSorted_nil⟩

/-- Puts an operation under its path. -/
def insert (paths : PathMap) (op : Operation) : PathMap :=
  ⟨Table.insertSorted op.path op paths.entries, Table.isSorted_insertSorted paths.sorted⟩

/-- The operations of a list by path. -/
def ofList (operations : List Operation) : PathMap := operations.foldl insert empty

/-- The number of paths. -/
def size (paths : PathMap) : Nat := paths.entries.length

/-- The operations in the order of their paths. -/
def operations (paths : PathMap) : List Operation := Table.values paths.entries

end PathMap

/-- A reference: what is written in the end. -/
structure Reference where
  /-- What it says besides the methods. -/
  config : Config
  /-- Its operations. -/
  paths : PathMap
  /-- Its tags, in the order of registration. -/
  tags : List Tag

namespace Reference

/-- The reference of operations in the order in which they are visited. -/
def assemble (operations : List Operation) (tags : List Tag) (config : Config) : Reference :=
  ⟨config, PathMap.ofList operations, tags⟩

/-! ## The document as a value -/

/-- A name with a link. -/
def linkJson (link : NamedLink) : Json :=
  .object [("name", .string link.name), ("url", .string link.url)]

/-- The member for something that may be missing. -/
def optionalMember (key : String) (link : Option NamedLink) : List (String × Json) :=
  match link with
  | some link => [(key, linkJson link)]
  | none => []

/-- What the document says about itself. -/
def infoJson (config : Config) : Json :=
  .object ([("title", .string config.title), ("description", .string config.description),
    ("version", .string config.version)] ++
    optionalMember "contact" config.contact ++ optionalMember "license" config.license)

/-- A server. -/
def serverJson (server : Server) : Json :=
  .object [("url", .string server.url), ("description", .string server.description)]

/-- A tag. -/
def tagJson (tag : Tag) : Json :=
  .object [("name", .string tag.name), ("description", .string tag.description)]

/-- The operations, each under its path. -/
def pathsJson (paths : PathMap) : Json :=
  .object (paths.entries.map fun entry => (entry.1, .object [("post", entry.2.toJson)]))

/-- The document. -/
def toJson (reference : Reference) : Json :=
  .object [
    ("openapi", .string reference.config.openapiVersion),
    ("info", infoJson reference.config),
    ("servers", .array (reference.config.servers.map serverJson)),
    ("paths", pathsJson reference.paths),
    ("components", Schema.components),
    ("tags", .array (reference.tags.map tagJson))]

end Reference
end RpcReference
