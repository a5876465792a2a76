import RpcReference.Proofs.Conversion.Tags

/-!
# The order of the resources in a document

The visits, the folder that counts among several with one id, and the request that stays among
several with one name all depend on the order of the document.  **Where ids of folders and names of
requests are not shared, the reference does not.**

* `Resource.agree_of_perm` — with different ids, a climb passes the same folders in any order.
* `Workspace.paths_convert_of_perm`, `Workspace.tags_convert_of_perm` — the same paths, and the same
  tags in an order that may differ.
* `Workspace.convert_of_perm` — both together.
-/

set_option autoImplicit false

namespace RpcReference

/-! ## Folders with different ids

A climb asks for the folder with an id and gets the first one.  With different ids there is no
other, so the first one is the same in any order. -/

namespace Resource

/-- Among resources with different ids an id finds the one that has it. -/
theorem withId?_eq_some_iff {resources : List Resource} (hids : (resources.map Resource.id).Nodup)
    {id : String} {r : Resource} :
    withId? id resources = some r ↔ r ∈ resources ∧ r.id = id := by
  constructor
  · intro h
    exact ⟨mem_of_withId? h, id_eq_of_withId? h⟩
  · rintro ⟨hr, rfl⟩
    obtain ⟨other, hother⟩ := Option.isSome_iff_exists.1 (isSome_withId?_iff.2 ⟨r, hr, rfl⟩)
    have hsame : other = r :=
      List.inj_on_of_nodup_map hids (mem_of_withId? hother) hr (id_eq_of_withId? hother)
    rw [hother, hsame]

/-- **With different ids, the order of the folders does not matter for a climb.** -/
theorem agree_of_perm {folders folders' : List Resource} (hperm : folders.Perm folders')
    (hids : (folders.map Resource.id).Nodup) : Agree (fun _ => True) folders folders' where
  withId?_eq id _ := by
    have hids' : (folders'.map Resource.id).Nodup := (hperm.map _).nodup_iff.1 hids
    ext r
    rw [withId?_eq_some_iff hids', withId?_eq_some_iff hids, hperm.mem_iff]
  parentId _ _ _ _ _ _ := trivial

end Resource

namespace Workspace

section Permutation

variable {w w' : Workspace}

theorem requests_perm (hperm : w.resources.Perm w'.resources) : w.requests.Perm w'.requests :=
  hperm.filter _

theorem requestNames_perm (hperm : w.resources.Perm w'.resources) :
    w.requestNames.Perm w'.requestNames := (requests_perm hperm).map _

theorem namespaceOf_of_perm (hperm : w.resources.Perm w'.resources)
    (hids : (w.groups.map Resource.id).Nodup) (key : Option String) :
    w'.namespaceOf key = w.namespaceOf key :=
  namespaceOf_eq_of_agree (Resource.agree_of_perm (hperm.filter _) hids) fun _ _ => trivial

/-! ## Paths and tags

Where names are not shared, what stands at a path depends on one request and on its namespace, and
neither depends on the order.  The tags come in the order of the visits, and the visits do change:
all that can be said of them is that they are the same set. -/

/-- The operation of the only request with a name does not depend on the order. -/
theorem paths_convert_of_perm (hperm : w.resources.Perm w'.resources)
    (hids : (w.groups.map Resource.id).Nodup) (hnames : w.requestNames.Nodup) (config : Config) :
    (w'.convert config).paths = (w.convert config).paths := by
  -- at the path of a name stands the operation of its request; at any other path there is nothing
  have hnames' : w'.requestNames.Nodup := (requestNames_perm hperm).nodup_iff.1 hnames
  refine PathMap.ext_get? fun path => ?_
  by_cases hpath : ∃ name ∈ w.requestNames, path = Operation.pathOf name
  · obtain ⟨name, hname, rfl⟩ := hpath
    obtain ⟨r, hr, rfl⟩ := mem_requestNames.1 hname
    rw [get?_paths_convert_of_nodup hnames hr,
      get?_paths_convert_of_nodup hnames' ((requests_perm hperm).mem_iff.1 hr), operationOf,
      operationOf, namespaceOf_of_perm hperm hids]
  · have hpath' : ¬ ∃ name ∈ w'.requestNames, path = Operation.pathOf name := by
      simpa only [(requestNames_perm hperm).mem_iff] using hpath
    rw [← mem_keys_paths_convert _ config, ← Table.get?_eq_none_iff] at hpath hpath'
    exact hpath'.trans hpath.symm

/-- The tags are those of the namespaces of the requests, whatever the order of the visits. -/
theorem tags_convert_of_perm (hperm : w.resources.Perm w'.resources)
    (hids : (w.groups.map Resource.id).Nodup) (config : Config) :
    (w'.convert config).tags.Perm (w.convert config).tags := by
  rw [tags_convert_eq, tags_convert_eq]
  refine List.Perm.map _ ?_
  refine (List.perm_ext_iff_of_nodup (Table.nodup_eraseDups w'.visitedNamespaces)
    (Table.nodup_eraseDups w.visitedNamespaces)).2 fun name => ?_
  simp only [List.mem_eraseDups, mem_visitedNamespaces, namespaceOf_of_perm hperm hids,
    (requests_perm hperm).mem_iff]

/-- **The order of the resources does not matter** where no two folders share an id and no two
requests share a name: the paths are the same with the same operations, and so is what is written
for them, and the tags are the same but for their order. -/
theorem convert_of_perm (hperm : w.resources.Perm w'.resources)
    (hids : (w.groups.map Resource.id).Nodup) (hnames : w.requestNames.Nodup) (config : Config) :
    (w'.convert config).paths = (w.convert config).paths ∧
    (w'.convert config).toJson.get? "paths" = (w.convert config).toJson.get? "paths" ∧
    (w'.convert config).tags.Perm (w.convert config).tags := by
  have hpaths := paths_convert_of_perm hperm hids hnames config
  refine ⟨hpaths, ?_, tags_convert_of_perm hperm hids config⟩
  rw [Reference.get?_paths, Reference.get?_paths, Reference.pathMembers, Reference.pathMembers, hpaths]

end Permutation

/-- The document read backwards: folders after their contents, and the inner folder before the
outer. -/
def sharedNamesReversed : Workspace := ⟨sharedNames.resources.reverse⟩

/-- The folders share a name and not an id, and that is enough. -/
theorem convert_sharedNamesReversed :
    sharedNames.resources.Perm sharedNamesReversed.resources ∧
    (sharedNames.groups.map Resource.id).Nodup ∧ sharedNames.requestNames.Nodup ∧
    (sharedNamesReversed.convert .default).paths = (sharedNames.convert .default).paths ∧
    (sharedNamesReversed.convert .default).tags.Perm (sharedNames.convert .default).tags := by
  have hperm : sharedNames.resources.Perm sharedNamesReversed.resources :=
    (List.reverse_perm sharedNames.resources).symm
  have hids : (sharedNames.groups.map Resource.id).Nodup := by decide
  have hnames : sharedNames.requestNames.Nodup := by decide
  obtain ⟨hpaths, -, htags⟩ := convert_of_perm hperm hids hnames .default
  exact ⟨hperm, hids, hnames, hpaths, htags⟩

end Workspace
end RpcReference
