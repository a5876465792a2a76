import RpcReference.Proofs.Conversion.Paths
import RpcReference.Proofs.Namespace.Hierarchy
import RpcReference.Proofs.Namespace.Registry

/-!
# The tags of a converted workspace

Every request that is visited registers its namespace, also one whose operation is replaced later by
that of another request with the same name.

* `Workspace.tags_convert_eq` — the tags are those of **the first occurrences of the visited
  namespaces**; `Workspace.mem_tags_convert` gives their members without the order.
* `Workspace.tags_convert` — what a reader of the reference can rely on: the tags have different
  names, the namespace of every operation is among them, and where no two requests share a name none
  of them is without operations.
-/

set_option autoImplicit false

namespace RpcReference

namespace Workspace

/-! ## Visited namespaces

What the registry does with a list of names is known (`Registry.tags_registerAll`), and the list is
that of the visits.  Only the order of the tags depends on the order of the visits.  Which tags
there are does not, and most of what follows asks for no more than that. -/

/-- **The tags are those of the visited namespaces, in the order of their first visit.** -/
theorem tags_convert_eq (w : Workspace) (config : Config) :
    (w.convert config).tags =
      w.visitedNamespaces.eraseDups.map (Registry.tagOf config.namespaceDescriptions) :=
  Registry.tags_registerAll _ _

/-- The names of the tags. -/
theorem map_name_tags_convert (w : Workspace) (config : Config) :
    (w.convert config).tags.map Tag.name = w.visitedNamespaces.eraseDups := by
  rw [tags_convert_eq, List.map_map]
  exact List.map_id _

/-- The namespaces that are visited are those of the requests. -/
theorem mem_visitedNamespaces {w : Workspace} {name : String} :
    name ∈ w.visitedNamespaces ↔ ∃ r ∈ w.requests, w.namespaceOf r.parentId = name := by
  rw [visitedNamespaces, List.mem_map]
  exact exists_congr fun r => and_congr_left fun _ => w.traversal_perm.mem_iff

/-- There is a tag for the namespace of every request, and no other tag. -/
theorem mem_tags_convert {w : Workspace} {config : Config} {tag : Tag} :
    tag ∈ (w.convert config).tags ↔
      ∃ r ∈ w.requests,
        Registry.tagOf config.namespaceDescriptions (w.namespaceOf r.parentId) = tag := by
  rw [tags_convert_eq, List.mem_map]
  constructor
  · rintro ⟨name, hname, rfl⟩
    obtain ⟨r, hr, rfl⟩ := mem_visitedNamespaces.1 (List.mem_eraseDups.1 hname)
    exact ⟨r, hr, rfl⟩
  · rintro ⟨r, hr, rfl⟩
    exact ⟨_, List.mem_eraseDups.2 (mem_visitedNamespaces.2 ⟨r, hr, rfl⟩), rfl⟩

/-- An operation of the reference is that of a request. -/
theorem exists_operationOf_eq {w : Workspace} {config : Config} {op : Operation}
    (h : op ∈ (w.convert config).paths.operations) : ∃ r ∈ w.requests, w.operationOf r = op := by
  obtain ⟨r, hr, hop⟩ := List.mem_map.1 (PathMap.mem_of_mem_operations_ofList h)
  exact ⟨r, w.traversal_perm.mem_iff.1 hr, hop⟩

/-! ## Tags and operations

Tags come from requests and so do operations, but there can be more tags.  A request whose operation
is replaced has left its tag behind, and where no two requests share a name this does not happen. -/

/-- **The tags of a converted workspace**: one for each namespace of a request, in the order in
which the visits meet them.  The namespace of every operation has one tag; a tag is named after a
folder or is the one of requests outside all folders; and if no two requests share a name, so that
no operation is replaced, every tag has an operation. -/
theorem tags_convert (w : Workspace) (config : Config) :
    let reference := w.convert config
    let names := reference.tags.map Tag.name
    names.Nodup ∧
    names = (w.traversal.map fun r => w.namespaceOf r.parentId).eraseDups ∧
    (∀ op ∈ reference.paths.operations, names.count op.namespaceName = 1) ∧
    (∀ name ∈ names, (∃ group ∈ w.groups, group.name = name) ∨ name = "Other") ∧
    (∀ tag ∈ reference.tags, tag.description =
      (Table.get? tag.name config.namespaceDescriptions).getD (tag.name ++ " namespace methods")) ∧
    (w.requestNames.Nodup →
      ∀ tag ∈ reference.tags, ∃ op ∈ reference.paths.operations, op.namespaceName = tag.name) := by
  intro reference names
  have hnames : names = w.visitedNamespaces.eraseDups := w.map_name_tags_convert config
  have hnodup : names.Nodup := hnames ▸ Table.nodup_eraseDups w.visitedNamespaces
  have hmem : ∀ r ∈ w.requests, w.namespaceOf r.parentId ∈ names := fun r hr => by
    rw [hnames, List.mem_eraseDups]
    exact mem_visitedNamespaces.2 ⟨r, hr, rfl⟩
  refine ⟨hnodup, hnames, fun op hop => ?_, fun name hname => ?_, fun tag htag => ?_,
    fun hdistinct tag htag => ?_⟩
  · obtain ⟨r, hr, rfl⟩ := exists_operationOf_eq hop
    exact List.count_eq_one_of_mem hnodup (hmem r hr)
  · rw [hnames, List.mem_eraseDups] at hname
    obtain ⟨r, -, rfl⟩ := mem_visitedNamespaces.1 hname
    exact w.namespaceOf_eq_or_mem r.parentId
  · obtain ⟨r, -, rfl⟩ := mem_tags_convert.1 htag
    rfl
  · obtain ⟨r, hr, rfl⟩ := mem_tags_convert.1 htag
    exact ⟨_, PathMap.mem_operations_iff.2 ⟨_, get?_paths_convert_of_nodup hdistinct hr config⟩, rfl⟩

end Workspace

/-! ## A small document -/

namespace Resource

/-- A folder. -/
def folder (id name : String) (parentId : Option String) : Resource where
  id := id
  kind := .group
  parentId := parentId
  name := name
  description := none
  body := none

/-- A call without a body. -/
def call (name : String) (parentId : Option String) : Resource where
  id := ""
  kind := .request
  parentId := parentId
  name := name
  description := none
  body := none

end Resource

namespace Workspace

/-- Two folders of one name, of which the second is in the first, and a folder with the name that
requests outside all folders get. -/
def sharedNames : Workspace :=
  ⟨[.call "web3_sha3" none, .folder "f" "ETH" none, .folder "g" "ETH" (some "f"),
    .folder "h" "Other" none, .call "eth_call" (some "g"), .call "eth_sign" (some "h")]⟩

/-- Names of folders are shared, and names of requests are not, so no tag is without operations. -/
theorem tags_convert_sharedNames :
    sharedNames.requestNames.Nodup ∧
    (∃ tag ∈ (sharedNames.convert .default).tags, tag.name = "ETH") ∧
    (∀ tag ∈ (sharedNames.convert .default).tags,
      ∃ op ∈ (sharedNames.convert .default).paths.operations, op.namespaceName = tag.name) := by
  have hdistinct : sharedNames.requestNames.Nodup := by decide
  have heth : sharedNames.namespaceOf (some "g") = "ETH" := by cbv
  have htag : Registry.tagOf Config.default.namespaceDescriptions
      (sharedNames.namespaceOf (some "g")) ∈ (sharedNames.convert .default).tags :=
    mem_tags_convert.2 ⟨.call "eth_call" (some "g"), by decide, rfl⟩
  refine ⟨hdistinct, ⟨_, htag, heth⟩, ?_⟩
  exact (tags_convert sharedNames .default).2.2.2.2.2 hdistinct

end Workspace
end RpcReference
