import RpcReference.Json.Basic
import RpcReference.Failure

/-!
# Workspaces

A workspace export is a flat list of resources: the folders and the requests of an API client, and
whatever else it keeps.  Each names the resource that contains it.

* `Resource.ofJson` — reading a resource, which never fails.  **A field that is absent or of another
  type than expected gets its default**: the empty text for an id and a type, `unknown` for a name,
  nothing for the others.  An empty description counts as absent.
* `Workspace` — the resources of an export, in the order of the document.
* `Workspace.ofJson` — reading a workspace.  Only two things make a document unusable: **it has no
  member `resources`, or that member is no list**.
-/

set_option autoImplicit false

namespace RpcReference

/-! ## Resources -/

/-- What a resource is. -/
inductive ResourceKind where
  /-- A folder of requests and other folders. -/
  | group
  /-- A call that is to be documented. -/
  | request
  /-- Anything else, by the name of its type. -/
  | other (typeName : String)
deriving DecidableEq

/-- The kind with a type name. -/
def ResourceKind.ofTypeName (typeName : String) : ResourceKind :=
  if typeName = "request_group" then group
  else if typeName = "request" then request
  else other typeName

/-- The body of a request. -/
structure RequestBody where
  /-- Its text, which should hold JSON. -/
  text : Option String
deriving DecidableEq

/-- A node of the workspace tree. -/
structure Resource where
  /-- The id, under which others refer to it. -/
  id : String
  /-- What it is. -/
  kind : ResourceKind
  /-- The id of the resource that contains it; none at the root. -/
  parentId : Option String
  /-- The name: of a namespace for a group, of a method for a request. -/
  name : String
  /-- A free description. -/
  description : Option String
  /-- The example body of a request. -/
  body : Option RequestBody
deriving DecidableEq

namespace Resource

/-- The name of a resource without one. -/
def unnamed : String := "unknown"

/-- The body text of a request without one: an empty object. -/
def emptyBodyText : String := "\x7b\x7d"

/-- Whether a resource is a folder. -/
def isGroup (r : Resource) : Bool := r.kind = .group

/-- Whether a resource is a call. -/
def isRequest (r : Resource) : Bool := r.kind = .request

/-- The example body, an empty object if there is none. -/
def bodyText (r : Resource) : String := (r.body.bind RequestBody.text).getD emptyBodyText

/-- The body of a record: there is one exactly if the field holds an object. -/
def bodyOfJson (record : Json) : Option RequestBody :=
  (record.get? "body").bind fun body =>
    body.members?.map fun _ => ⟨body.textAt? "text"⟩

/-- Reads one record of an export. -/
def ofJson (record : Json) : Resource where
  id := (record.textAt? "_id").getD ""
  kind := ((record.textAt? "_type").map ResourceKind.ofTypeName).getD (.other "")
  parentId := record.textAt? "parentId"
  name := (record.textAt? "name").getD unnamed
  description := (record.textAt? "description").filter (· ≠ "")
  body := bodyOfJson record

end Resource

/-! ## Lists of resources -/

/-- The resources of an export, in document order. -/
structure Workspace where
  /-- The resources. -/
  resources : List Resource
deriving DecidableEq

namespace Workspace

/-- The folders, in document order. -/
def groups (w : Workspace) : List Resource := w.resources.filter Resource.isGroup

/-- The calls, in document order. -/
def requests (w : Workspace) : List Resource := w.resources.filter Resource.isRequest

/-- The names of the calls, in document order. -/
def requestNames (w : Workspace) : List String := w.requests.map Resource.name

/-- The workspace that a document holds. -/
def ofJson (document : Json) : Except InputFault Workspace :=
  match document.get? "resources" with
  | none => .error .noResources
  | some resources =>
      match resources.items? with
      | none => .error .resourcesNoList
      | some records => .ok ⟨records.map Resource.ofJson⟩

end Workspace

end RpcReference
