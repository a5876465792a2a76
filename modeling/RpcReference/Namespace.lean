import RpcReference.Workspace

/-!
# Namespaces

Requests are filed under nested folders.  **The namespace of a request is the name of the topmost
folder above it**, and the reference has one tag for each namespace.

* `Resource.ancestors` — the climb.  The parent links of a damaged export may lead nowhere or in a
  circle, so it ends at a folder whose parent is no folder or was visited before: every step takes
  the folder it reaches out of those that are left, so there are no more steps than folders with
  different ids.  Of several folders with one id the first in the document counts.
* `Workspace.namespaceOf` — the namespace for the id of a request's parent; `Other` if that is no
  folder.
* `Registry` — the tags, in the order in which their namespaces are first registered; that order is
  the one in which the reference lists them.  A namespace is described by the table of known
  descriptions, or else as `"<name> namespace methods"`.
-/

set_option autoImplicit false

namespace RpcReference

/-! ## The namespace of a request -/

/-- The namespace of a request whose parent is no folder. -/
def fallbackNamespace : String := "Other"

/-- The first resource with an id. -/
def Resource.withId? (id : String) (resources : List Resource) : Option Resource :=
  resources.find? fun r => r.id = id

/-- The resources without those that have an id. -/
def Resource.withoutId (id : String) (resources : List Resource) : List Resource :=
  resources.filter fun r => r.id ≠ id

theorem Resource.length_withoutId_lt {id : String} {resources : List Resource} {r : Resource}
    (h : Resource.withId? id resources = some r) :
    (Resource.withoutId id resources).length < resources.length := by
  have hm := List.mem_of_find?_eq_some h
  have hp := List.find?_some h
  exact List.length_filter_lt_length_iff_exists.2 ⟨r, hm, by simpa using hp⟩

/-- The folders above a resource, the nearest first, where `unvisited` are those that the climb may
still reach. -/
def Resource.ancestors (unvisited : List Resource) (r : Resource) : List Resource :=
  match r.parentId with
  | none => []
  | some id =>
      match _h : Resource.withId? id unvisited with
      | none => []
      | some parent => parent :: Resource.ancestors (Resource.withoutId id unvisited) parent
termination_by unvisited.length
decreasing_by exact Resource.length_withoutId_lt _h

/-- The namespace for the id of a request's parent. -/
def Workspace.namespaceOf (w : Workspace) (parentId : Option String) : String :=
  match parentId with
  | none => fallbackNamespace
  | some id =>
      match Resource.withId? id w.groups with
      | none => fallbackNamespace
      | some group =>
          ((Resource.ancestors (Resource.withoutId id w.groups) group).getLastD group).name

/-! ## Tags -/

/-- The documentation tag of a namespace. -/
structure Tag where
  /-- The name of the namespace. -/
  name : String
  /-- What it is about. -/
  description : String
deriving DecidableEq, Repr

/-- Tags collected so far, and the descriptions they are given. -/
structure Registry where
  /-- The known descriptions. -/
  descriptions : Table String String
  /-- The tags, in the order of first registration. -/
  tags : List Tag

namespace Registry

/-- A registry without tags. -/
def new (descriptions : Table String String) : Registry := ⟨descriptions, []⟩

/-- The description of a namespace. -/
def describe (descriptions : Table String String) (name : String) : String :=
  (Table.get? name descriptions).getD (name ++ " namespace methods")

/-- Whether a namespace has a tag. -/
def isRegistered (registry : Registry) (name : String) : Bool :=
  registry.tags.any fun tag => tag.name = name

/-- Registers a namespace: **the first time it gets a tag at the end of the list**, later nothing
happens.  Tells whether it was the first time. -/
def register (registry : Registry) (name : String) : Bool × Registry :=
  if registry.isRegistered name then (false, registry)
  else
    (true, { registry with
      tags := registry.tags ++ [⟨name, describe registry.descriptions name⟩] })

/-- Registers namespaces one after another. -/
def registerAll (registry : Registry) (names : List String) : Registry :=
  names.foldl (fun registry name => (registry.register name).2) registry

end Registry

end RpcReference
