import RpcReference.Namespace

/-!
# Which folders decide a namespace

The namespace of a request depends on the folders above it and on no other resource.

* `Resource.Agree` — two lists of folders that are the same as far as a climb can see that starts at
  an id with a property: such an id names the same folder in both, and the parent of that folder is
  such an id again.  A step of the climb keeps this (`Resource.Agree.withoutId`), so **both climbs
  pass the same folders** (`Resource.Agree.ancestors_eq`).
* `Workspace.namespaceOf_eq_of_agree` — so the namespaces are the same.
* `Workspace.namespaceOf_eq_or_mem` — **a namespace is the name of a folder, or `Other`**.
-/

set_option autoImplicit false

namespace RpcReference

namespace Resource

/-! ## What an id finds

An id finds the first folder that has it.  Leaving out the folders with an id is how the climb
remembers that it was there: afterwards that id finds nothing, and every other one finds what it
found before. -/

theorem mem_of_withId? {id : String} {resources : List Resource} {r : Resource}
    (h : withId? id resources = some r) : r ∈ resources := List.mem_of_find?_eq_some h

theorem id_eq_of_withId? {id : String} {resources : List Resource} {r : Resource}
    (h : withId? id resources = some r) : r.id = id := by
  have hfound := List.find?_some h
  exact of_decide_eq_true hfound

/-- An id finds something exactly if a resource has it. -/
theorem isSome_withId?_iff {id : String} {resources : List Resource} :
    (withId? id resources).isSome = true ↔ ∃ r ∈ resources, r.id = id := by
  rw [withId?, List.find?_isSome]
  simp

/-- The first of two lists is asked first. -/
theorem withId?_append (id : String) (resources more : List Resource) :
    withId? id (resources ++ more) = (withId? id resources).or (withId? id more) :=
  List.find?_append

/-- Leaving out the folders with an id hides that id and no other. -/
theorem withId?_withoutId (id other : String) (resources : List Resource) :
    withId? other (withoutId id resources) =
      if other = id then none else withId? other resources := by
  rw [withId?, withoutId, List.find?_filter]
  split
  · next heq =>
    rw [List.find?_eq_none]
    intro r _ hr
    rw [decide_eq_true_iff, decide_eq_true_iff, decide_eq_true_iff] at hr
    exact hr.1 (hr.2.trans heq)
  · next hne =>
    rw [withId?]
    congr 1
    funext r
    by_cases hr : r.id = other
    · simp [hr, hne]
    · simp [hr]

/-- What is found when folders are left out is found among all of them. -/
theorem withId?_of_withoutId {id other : String} {resources : List Resource} {folder : Resource}
    (h : withId? other (withoutId id resources) = some folder) :
    withId? other resources = some folder := by
  rw [withId?_withoutId] at h
  split at h
  · cases h
  · exact h

/-! ## The climb, step by step

The definition looks at a parent and at what is found for it; the two equations below are its cases.
They are what is rewritten with, since the definition itself recurs on a list that gets shorter. -/

theorem ancestors_of_parentId_eq_none {r : Resource} (unvisited : List Resource)
    (h : r.parentId = none) : ancestors unvisited r = [] := by
  rw [ancestors]
  split
  · rfl
  · next id hid => rw [h] at hid; cases hid

/-- One step up. -/
theorem ancestors_of_parentId_eq_some {r : Resource} {id : String} (unvisited : List Resource)
    (h : r.parentId = some id) :
    ancestors unvisited r =
      match withId? id unvisited with
      | none => []
      | some parent => parent :: ancestors (withoutId id unvisited) parent := by
  rw [ancestors]
  split
  · next hnone => rw [h] at hnone; cases hnone
  · next other hother =>
    obtain rfl : id = other := Option.some.inj (h.symm.trans hother)
    split
    · next hfound => rw [hfound]
    · next parent hfound => rw [hfound]

/-- The climb passes folders only. -/
theorem mem_of_mem_ancestors {unvisited : List Resource} {r a : Resource}
    (h : a ∈ ancestors unvisited r) : a ∈ unvisited := by
  induction unvisited, r using ancestors.induct with
  | case1 unvisited r hparent => simp [ancestors_of_parentId_eq_none _ hparent] at h
  | case2 unvisited r id hparent hfound =>
    simp [ancestors_of_parentId_eq_some _ hparent, hfound] at h
  | case3 unvisited r id hparent parent hfound ih =>
    rw [ancestors_of_parentId_eq_some _ hparent, hfound] at h
    rcases List.mem_cons.1 h with rfl | h
    · exact mem_of_withId? hfound
    · exact (List.mem_filter.1 (ih h)).1

/-! ## Folders that cannot be told apart

Resources are added, moved and changed in many ways, and each time the question is whether
namespaces stay the same.  It is asked about ids here: as long as every id that can come up finds
the same folder, the climbs are the same.  Which ids can come up is left open, as a property that is
handed from a folder to its parent. -/

/-- Two lists of folders that look the same from the ids with a property. -/
structure Agree (p : String → Prop) (folders folders' : List Resource) : Prop where
  /-- Such an id names the same folder in both. -/
  withId?_eq : ∀ id, p id → withId? id folders' = withId? id folders
  /-- The parent of such a folder has the property too. -/
  parentId : ∀ id folder parent, p id → withId? id folders = some folder →
    folder.parentId = some parent → p parent

variable {p : String → Prop} {folders folders' : List Resource}

theorem Agree.withoutId (h : Agree p folders folders') (id : String) :
    Agree p (Resource.withoutId id folders) (Resource.withoutId id folders') where
  withId?_eq other hother := by
    rw [withId?_withoutId, withId?_withoutId, h.withId?_eq other hother]
  parentId other folder parent hother hfolder hparent :=
    h.parentId other folder parent hother (withId?_of_withoutId hfolder) hparent

/-- **Climbs that start alike pass the same folders.** -/
theorem Agree.ancestors_eq (h : Agree p folders folders') {r : Resource}
    (hr : ∀ id, r.parentId = some id → p id) : ancestors folders' r = ancestors folders r := by
  -- by the steps of the first climb; `Agree` is what both lists keep as folders are taken out
  induction folders, r using ancestors.induct generalizing folders' with
  | case1 folders r hparent =>
    rw [ancestors_of_parentId_eq_none _ hparent, ancestors_of_parentId_eq_none _ hparent]
  | case2 folders r id hparent hfound =>
    rw [ancestors_of_parentId_eq_some _ hparent, ancestors_of_parentId_eq_some _ hparent,
      h.withId?_eq id (hr id hparent), hfound]
  | case3 folders r id hparent parent hfound ih =>
    have hid : p id := hr id hparent
    rw [ancestors_of_parentId_eq_some _ hparent, ancestors_of_parentId_eq_some _ hparent,
      h.withId?_eq id hid, hfound]
    show parent :: _ = parent :: _
    rw [ih (h.withoutId id) fun next hnext => h.parentId id parent next hid hfound hnext]

end Resource

namespace Workspace

/-! ## Namespaces

The namespace is the name of the last folder that the climb passes, so it is the same where the
climbs are. -/

/-- The same folders give the same namespaces. -/
theorem namespaceOf_congr {w w' : Workspace} (h : w'.groups = w.groups) :
    w'.namespaceOf = w.namespaceOf := by
  funext key
  unfold namespaceOf
  rw [h]

/-- **Folders that look alike give the same namespaces.** -/
theorem namespaceOf_eq_of_agree {w w' : Workspace} {p : String → Prop}
    (h : Resource.Agree p w.groups w'.groups) {key : Option String}
    (hkey : ∀ id, key = some id → p id) : w'.namespaceOf key = w.namespaceOf key := by
  cases key with
  | none => rfl
  | some id =>
    have hid : p id := hkey id rfl
    rw [namespaceOf, namespaceOf, h.withId?_eq id hid]
    cases hfound : Resource.withId? id w.groups with
    | none => rfl
    | some group =>
      have hclimb := (h.withoutId id).ancestors_eq fun next => h.parentId id group next hid hfound
      simp only [hclimb]

/-- **A namespace is the name of a folder**, unless it is the one of requests outside all
folders. -/
theorem namespaceOf_eq_or_mem (w : Workspace) (key : Option String) :
    (∃ group ∈ w.groups, group.name = w.namespaceOf key) ∨ w.namespaceOf key = fallbackNamespace := by
  cases key with
  | none => exact .inr rfl
  | some id =>
    rw [namespaceOf]
    cases hfound : Resource.withId? id w.groups with
    | none => exact .inr rfl
    | some group =>
      refine .inl ⟨_, ?_, rfl⟩
      rcases List.mem_cons.1 (List.getLastD_mem_cons (a := group)) with hlast | hlast
      · rw [hlast]
        exact Resource.mem_of_withId? hfound
      · exact (List.mem_filter.1 (Resource.mem_of_mem_ancestors hlast)).1

end Workspace
end RpcReference
