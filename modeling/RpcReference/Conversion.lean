import RpcReference.Namespace
import RpcReference.Document.Basic

/-!
# Conversion

The reference of a workspace: every request is visited once, its namespace is found and registered,
and its operation is built.  The order of the visits decides the order of the tags and which of
several requests with one name stays.

* `Workspace.traversal` — the visits, folder by folder: **first the folders in the order in which
  they are declared, then every other parent in the order in which a request first names it**.
  Requests with the same parent keep their document order.
* `Workspace.convert` — the reference.
-/

set_option autoImplicit false

namespace RpcReference

/-! ## The order of the visits -/

/-- Requests by the id of their parent, which may be none. -/
abbrev Buckets := Table (Option String) (List Resource)

namespace Buckets

/-- Makes a bucket for a folder, unless there is one. -/
def declare (buckets : Buckets) (group : Resource) : Buckets :=
  Table.alter (some group.id) (fun requests => requests.getD []) buckets

/-- Puts a request into the bucket of its parent, at the end. -/
def add (buckets : Buckets) (request : Resource) : Buckets :=
  Table.alter request.parentId (fun requests => requests.getD [] ++ [request]) buckets

end Buckets

namespace Workspace

/-- The requests of a workspace by the id of their parent. -/
def buckets (w : Workspace) : Buckets :=
  w.requests.foldl Buckets.add (w.groups.foldl Buckets.declare [])

/-- The requests of a workspace in the order in which they are visited. -/
def traversal (w : Workspace) : List Resource := (Table.values w.buckets).flatten

/-! ## The reference -/

/-- The namespaces of the requests, in the order of the visits. -/
def visitedNamespaces (w : Workspace) : List String :=
  w.traversal.map fun r => w.namespaceOf r.parentId

/-- The operations of the requests, in the order of the visits. -/
def operations (w : Workspace) : List Operation :=
  w.traversal.map fun r => Operation.ofRequest r (w.namespaceOf r.parentId)

/-- The reference of a workspace. -/
def convert (w : Workspace) (config : Config) : Reference :=
  let registry := (Registry.new config.namespaceDescriptions).registerAll w.visitedNamespaces
  Reference.assemble w.operations registry.tags config

end Workspace

end RpcReference
