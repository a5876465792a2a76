import RpcReference.Conversion
import RpcReference.Proofs.Conversion.Traversal
import RpcReference.Proofs.Document.Paths
import RpcReference.Proofs.Text.Order

/-!
# The paths of a converted workspace

Each name of a request gives one path.  When several requests share a name, **the operation of the
one visited last stays**, and which one that is can be read off the document
(`Workspace.VisitedBefore`).

* `Workspace.get?_paths_convert` — the operation at the path of a name.
* `Workspace.mem_keys_paths_convert` — the paths are those of the request names.
* `Workspace.paths_convert` — both, for the document as it is written.
-/

set_option autoImplicit false

namespace RpcReference.Workspace

/-! ## The path of a name

The operations are put into a sorted map one after the other, and an operation replaces what stands
at its path.  So the map is known from the list of operations (`PathMap.get?_ofList`): at a path
stands the last one with that path.  Different names have different paths, and that brings the last
operation back to the last request. -/

/-- The operation of a request, in the namespace of its parent. -/
def operationOf (w : Workspace) (r : Resource) : Operation :=
  Operation.ofRequest r (w.namespaceOf r.parentId)

@[simp] theorem path_operationOf (w : Workspace) (r : Resource) :
    (w.operationOf r).path = Operation.pathOf r.name := rfl

theorem operations_eq (w : Workspace) : w.operations = w.traversal.map w.operationOf := rfl

theorem paths_convert_eq (w : Workspace) (config : Config) :
    (w.convert config).paths = PathMap.ofList w.operations := rfl

theorem mem_requestNames {w : Workspace} {name : String} :
    name ∈ w.requestNames ↔ ∃ r ∈ w.requests, r.name = name := List.mem_map

/-- **At the path of a name stands the operation of the last request with that name.** -/
theorem get?_paths_convert (w : Workspace) (config : Config) (name : String) :
    (w.convert config).paths.get? (Operation.pathOf name) =
      (w.traversal.filter (·.name = name)).getLast?.map w.operationOf := by
  rw [paths_convert_eq, PathMap.get?_ofList, operations_eq, List.filter_map, List.getLast?_map]
  congr 3
  funext r
  simp [Operation.pathOf_injective.eq_iff]

/-- The paths are those of the request names. -/
theorem mem_keys_paths_convert (w : Workspace) (config : Config) (path : String) :
    path ∈ Table.keys (w.convert config).paths.entries ↔
      ∃ name ∈ w.requestNames, path = Operation.pathOf name := by
  rw [paths_convert_eq, PathMap.mem_keys_ofList, operations_eq]
  simp only [List.mem_map, mem_requestNames, w.traversal_perm.mem_iff]
  constructor
  · rintro ⟨op, ⟨r, hr, rfl⟩, rfl⟩
    exact ⟨r.name, ⟨r, hr, rfl⟩, rfl⟩
  · rintro ⟨name, ⟨r, hr, rfl⟩, rfl⟩
    exact ⟨_, ⟨r, hr, rfl⟩, rfl⟩

/-! ## Names that are not shared

With one request for a name the order of the visits does not matter any more: the requests with that
name are that one, in the document and in the visits. -/

/-- At the path of a name that one request has stands the operation of that request. -/
theorem get?_paths_convert_of_filter_eq {w : Workspace} {name : String} {r : Resource}
    (h : w.requests.filter (·.name = name) = [r]) (config : Config) :
    (w.convert config).paths.get? (Operation.pathOf name) = some (w.operationOf r) := by
  have hperm : (w.traversal.filter (·.name = name)).Perm [r] := h ▸ w.traversal_perm.filter _
  rw [get?_paths_convert, List.perm_singleton.1 hperm]
  rfl

/-- If no two requests share a name, then one request has the name of a request. -/
theorem filter_name_eq_singleton {w : Workspace} (hnodup : w.requestNames.Nodup) {r : Resource}
    (hr : r ∈ w.requests) : w.requests.filter (·.name = r.name) = [r] := by
  obtain ⟨before, after, hsplit⟩ := List.append_of_mem hr
  rw [requestNames, hsplit, List.map_append, List.map_cons, List.nodup_append, List.nodup_cons]
    at hnodup
  obtain ⟨-, ⟨hafter, -⟩, hbefore⟩ := hnodup
  have hbefore' : before.filter (·.name = r.name) = [] := by
    rw [List.filter_eq_nil_iff]
    intro other hother hname
    exact hbefore _ (List.mem_map_of_mem hother) _ List.mem_cons_self (of_decide_eq_true hname)
  have hafter' : after.filter (·.name = r.name) = [] := by
    rw [List.filter_eq_nil_iff]
    intro other hother hname
    exact hafter (List.mem_map.2 ⟨other, hother, of_decide_eq_true hname⟩)
  rw [hsplit, List.filter_append, List.filter_cons_of_pos (by simp), hbefore', hafter']
  rfl

/-- **Without shared names, every request has its operation at the path of its name.** -/
theorem get?_paths_convert_of_nodup {w : Workspace} (hnodup : w.requestNames.Nodup) {r : Resource}
    (hr : r ∈ w.requests) (config : Config) :
    (w.convert config).paths.get? (Operation.pathOf r.name) = some (w.operationOf r) :=
  get?_paths_convert_of_filter_eq (filter_name_eq_singleton hnodup hr) config

/-! ## The paths as they are written

The map is sorted by its keys, and the object of paths has its members in the order of the map.
That order compares code points; a program that compares the bytes of the texts sorts them alike. -/

/-- **The paths of a converted workspace**: the names of the requests behind a slash, each once and
in increasing order of their code points, which is that of their bytes.  Under the path of a name
stands the operation of the request with that name that is visited last, and all others with that
name are visited before it by the rules of `VisitedBefore`. -/
theorem paths_convert (w : Workspace) (config : Config) :
    ∃ members : Table String Json,
      (w.convert config).toJson.get? "paths" = some (.object members) ∧
      (∀ path, path ∈ Table.keys members ↔ ∃ name ∈ w.requestNames, path = Operation.pathOf name) ∧
      (Table.keys members).Pairwise (fun a b => Text.codePoints a < Text.codePoints b) ∧
      (∀ s t, Text.utf8 s < Text.utf8 t ↔ Text.codePoints s < Text.codePoints t) ∧
      ∀ name ∈ w.requestNames, ∃ i, w.IsLastVisit (·.name = name) i ∧
        (w.traversal.filter (·.name = name)).getLast? = some (w.requestAt i) ∧
        (w.convert config).paths.get? (Operation.pathOf name) = some (w.operationOf (w.requestAt i)) ∧
        Table.get? (Operation.pathOf name) members =
          some (.object [("post", (w.operationOf (w.requestAt i)).toJson)]) := by
  refine ⟨_, Reference.get?_paths _, fun path => ?_, ?_, fun s t => ?_, fun name hname => ?_⟩
  · rw [Reference.keys_pathMembers]
    exact w.mem_keys_paths_convert config path
  · rw [Reference.keys_pathMembers]
    exact (w.convert config).paths.sorted.imp Text.codePoints_lt_iff.2
  · rw [Text.utf8_lt_iff, Text.codePoints_lt_iff]
  · obtain ⟨r, hr, hrname⟩ := mem_requestNames.1 hname
    obtain ⟨i, hlast, hvisit⟩ :=
      w.exists_lastVisit (p := (·.name = name)) ⟨r, hr, by simpa using hrname⟩
    have hop := w.get?_paths_convert config name
    rw [hvisit, Option.map_some] at hop
    refine ⟨i, hlast, hvisit, hop, ?_⟩
    rw [Reference.get?_pathMembers, hop, Option.map_some]

end RpcReference.Workspace
