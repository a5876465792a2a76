import RpcReference.Document.Basic
import RpcReference.Proofs.Table
import RpcReference.Sorted.NameSet

/-!
# The paths of a reference

Operations are put into the path map one after another.

* `PathMap.get?_ofList` — **under a path stands the last of the operations with that path**.
* `PathMap.mem_keys_ofList` — the paths are those of the operations.
* `PathMap.ext_get?` — a path map is determined by what is found under the paths.
* `Reference.get?_paths` — the object of paths in the document, with what stands under each path in
  `Reference.get?_pathMembers`.
-/

set_option autoImplicit false

namespace RpcReference

/-! ## Sorted tables

An insertion keeps the keys sorted, and goes past smaller keys to find the place.  Where that place
is does not matter here: what is found under each key is as for a table that is not sorted. -/

namespace Table

variable {β : Type}

/-- An insertion changes what is found under its key and nothing else. -/
theorem get?_insertSorted (key other : String) (value : β) (table : Table String β) :
    get? other (insertSorted key value table) =
      if other = key then some value else get? other table := by
  by_cases he : other = key
  · subst he
    rw [if_pos rfl]
    induction table with
    | nil => simp [insertSorted, get?]
    | cons entry rest ih =>
      obtain ⟨k, v⟩ := entry
      by_cases hlt : other < k
      · simp [insertSorted, hlt, get?]
      · by_cases hk : other = k
        · simp [insertSorted, hk, get?]
        · simp [insertSorted, hlt, hk, get?, Ne.symm hk, ih]
  · rw [if_neg he]
    induction table with
    | nil => simp [insertSorted, get?, Ne.symm he]
    | cons entry rest ih =>
      obtain ⟨k, v⟩ := entry
      by_cases hlt : key < k
      · simp [insertSorted, hlt, get?, Ne.symm he]
      · by_cases hk : key = k
        · subst hk
          rw [insertSorted, if_neg hlt, if_pos rfl]
          simp [get?, Ne.symm he]
        · simp [insertSorted, hlt, hk, get?, ih]

theorem IsSorted.nodup_keys {table : Table String β} (h : IsSorted table) : (keys table).Nodup :=
  h.imp fun hlt => fun e => String.lt_irrefl _ (e ▸ hlt)

end Table

/-! ## The path map

What is found under a path is the invariant of the insertions: behind a list of operations it is the
last one with that path, or what was there before.  Everything else about the map follows from that,
since a sorted map has no order of its own to remember (`PathMap.ext_get?`). -/

namespace PathMap

/-- The operation at a path. -/
def get? (path : String) (paths : PathMap) : Option Operation := Table.get? path paths.entries

@[simp] theorem get?_insert (path : String) (op : Operation) (paths : PathMap) :
    (paths.insert op).get? path = if path = op.path then some op else paths.get? path :=
  Table.get?_insertSorted op.path path op paths.entries

/-- The last of the operations with a path is found there, and without one what was there before. -/
theorem get?_foldl_insert (path : String) (operations : List Operation) (paths : PathMap) :
    (operations.foldl insert paths).get? path =
      (operations.filter (·.path = path)).getLast?.or (paths.get? path) := by
  induction operations generalizing paths with
  | nil => rfl
  | cons op operations ih =>
    rw [List.foldl_cons, ih, get?_insert]
    by_cases h : op.path = path
    · rw [List.filter_cons_of_pos (by simpa using h), List.getLast?_cons, if_pos h.symm]
      cases (operations.filter (·.path = path)).getLast? with
      | none => rfl
      | some last => rfl
    · rw [List.filter_cons_of_neg (by simpa using h), if_neg (Ne.symm h)]

/-- **Under a path stands the last operation with that path.** -/
theorem get?_ofList (path : String) (operations : List Operation) :
    (ofList operations).get? path = (operations.filter (·.path = path)).getLast? := by
  rw [ofList, get?_foldl_insert]
  exact Option.or_none

/-- The paths are those of the operations. -/
theorem mem_keys_ofList {path : String} {operations : List Operation} :
    path ∈ Table.keys (ofList operations).entries ↔ ∃ op ∈ operations, op.path = path := by
  rw [← Table.get?_isSome_iff]
  change ((ofList operations).get? path).isSome = true ↔ _
  rw [get?_ofList, List.getLast?_isSome, Ne, List.filter_eq_nil_iff]
  simp

/-- Which paths there are depends on the paths of the operations and on nothing else in them. -/
theorem keys_ofList_congr {operations operations' : List Operation}
    (h : operations'.map Operation.path = operations.map Operation.path) :
    Table.keys (ofList operations').entries = Table.keys (ofList operations).entries := by
  refine NameSet.ext_toList (ofList operations').sorted (ofList operations).sorted fun path => ?_
  rw [mem_keys_ofList, mem_keys_ofList, ← List.mem_map, ← List.mem_map, h]

section Replaced

variable {before after : List Operation} {op : Operation} {path : String}

/-- An operation is not seen at another path. -/
theorem get?_ofList_of_ne (hne : path ≠ op.path) :
    (ofList (before ++ op :: after)).get? path = (ofList (before ++ after)).get? path := by
  rw [get?_ofList, get?_ofList, List.filter_append, List.filter_append,
    List.filter_cons_of_neg (by simpa using hne.symm)]

/-- An operation is not seen behind a later one with its path. -/
theorem get?_ofList_of_later (hlater : ∃ later ∈ after, later.path = path) :
    (ofList (before ++ op :: after)).get? path = (ofList after).get? path := by
  have hsome : (after.filter (·.path = path)).getLast?.isSome = true := by
    obtain ⟨later, hmem, hpath⟩ := hlater
    rw [List.getLast?_isSome]
    exact List.ne_nil_of_mem (List.mem_filter.2 ⟨hmem, decide_eq_true hpath⟩)
  have hsplit : before ++ op :: after = (before ++ [op]) ++ after := by
    rw [List.append_assoc, List.singleton_append]
  rw [get?_ofList, get?_ofList, hsplit, List.filter_append, List.getLast?_append,
    Option.or_of_isSome hsome]

/-- The last operation with its path is found there. -/
theorem get?_ofList_of_last (hlast : ∀ later ∈ after, later.path ≠ op.path) :
    (ofList (before ++ op :: after)).get? op.path = some op := by
  have hnone : after.filter (·.path = op.path) = [] := by
    rw [List.filter_eq_nil_iff]
    exact fun later hlater hpath => hlast later hlater (of_decide_eq_true hpath)
  rw [get?_ofList, List.filter_append, List.filter_cons_of_pos (by simp), hnone,
    List.getLast?_append, List.getLast?_singleton, Option.some_or]

end Replaced

theorem nodup_keys (paths : PathMap) : (Table.keys paths.entries).Nodup := paths.sorted.nodup_keys

/-- The operations are what is found under the paths. -/
theorem mem_operations_iff {op : Operation} {paths : PathMap} :
    op ∈ paths.operations ↔ ∃ path, paths.get? path = some op := by
  constructor
  · intro h
    obtain ⟨⟨path, _⟩, hentry, rfl⟩ := List.mem_map.1 h
    exact ⟨path, (Table.get?_eq_some_iff paths.nodup_keys).2 hentry⟩
  · rintro ⟨path, hpath⟩
    exact List.mem_map.2 ⟨(path, op), Table.mem_of_get? hpath, rfl⟩

/-- An operation of a path map is one of those it was made from. -/
theorem mem_of_mem_operations_ofList {op : Operation} {operations : List Operation}
    (h : op ∈ (ofList operations).operations) : op ∈ operations := by
  obtain ⟨path, hpath⟩ := mem_operations_iff.1 h
  rw [get?_ofList] at hpath
  exact (List.mem_filter.1 (List.mem_of_getLast? hpath)).1

/-- An operation stands under its own path. -/
theorem path_of_mem_entries_ofList {entry : String × Operation} {operations : List Operation}
    (h : entry ∈ (ofList operations).entries) : entry.2.path = entry.1 := by
  have hget : (ofList operations).get? entry.1 = some entry.2 :=
    (Table.get?_eq_some_iff (ofList operations).nodup_keys).2 h
  rw [get?_ofList] at hget
  exact of_decide_eq_true (List.mem_filter.1 (List.mem_of_getLast? hget)).2

/-- So it is what is found there. -/
theorem get?_path_of_mem_operations_ofList {op : Operation} {operations : List Operation}
    (h : op ∈ (ofList operations).operations) : (ofList operations).get? op.path = some op := by
  obtain ⟨entry, hentry, rfl⟩ := List.mem_map.1 h
  rw [path_of_mem_entries_ofList hentry]
  exact (Table.get?_eq_some_iff (ofList operations).nodup_keys).2 hentry

/-- The operations stand in the order of their paths. -/
theorem pairwise_path_operations_ofList (operations : List Operation) :
    (ofList operations).operations.Pairwise fun op op' => op.path < op'.path := by
  refine List.pairwise_map.2 ((List.pairwise_map.1 (ofList operations).sorted).imp_of_mem ?_)
  intro entry entry' hentry hentry' hlt
  rwa [path_of_mem_entries_ofList hentry, path_of_mem_entries_ofList hentry']

/-- **Two path maps with the same operations under the same paths are equal.** -/
theorem ext_get? {paths paths' : PathMap} (h : ∀ path, paths.get? path = paths'.get? path) :
    paths = paths' := by
  have hkeys : Table.keys paths.entries = Table.keys paths'.entries := by
    refine NameSet.ext_toList paths.sorted paths'.sorted fun path => ?_
    rw [← Table.get?_isSome_iff, ← Table.get?_isSome_iff]
    exact iff_of_eq (congrArg (fun op => Option.isSome op = true) (h path))
  have hentries : paths.entries = paths'.entries :=
    Table.ext_get?_of_keys paths.nodup_keys hkeys h
  cases paths
  cases paths'
  cases hentries
  rfl

end PathMap

/-! ## The object of paths in the document

The map is written as an object with its paths for keys, and each operation under `post`. -/

namespace Operation

theorem toList_pathOf (method : String) : (pathOf method).toList = '/' :: method.toList := by
  rw [pathOf, String.toList_append]
  rfl

/-- Different names have different paths. -/
theorem pathOf_injective : Function.Injective pathOf := by
  intro a b h
  exact (String.append_right_inj "/").1 h

end Operation

namespace Reference

/-- The members of the object of paths. -/
def pathMembers (reference : Reference) : Table String Json :=
  reference.paths.entries.map fun entry => (entry.1, .object [("post", entry.2.toJson)])

/-- The paths of a document are looked up in the members of that object. -/
theorem get?_paths (reference : Reference) :
    reference.toJson.get? "paths" = some (.object reference.pathMembers) := rfl

@[simp] theorem keys_pathMembers (reference : Reference) :
    Table.keys reference.pathMembers = Table.keys reference.paths.entries := by
  simp [pathMembers, Table.keys, Function.comp_def]

/-- Under each path stands its operation. -/
theorem get?_pathMembers (reference : Reference) (path : String) :
    Table.get? path reference.pathMembers =
      (reference.paths.get? path).map fun op => .object [("post", op.toJson)] := by
  rw [pathMembers, PathMap.get?]
  induction reference.paths.entries with
  | nil => rfl
  | cons entry rest ih =>
    by_cases h : entry.1 = path
    · simp [Table.get?, h]
    · simp [Table.get?, h, ih]

end Reference
end RpcReference
