import Mathlib.Data.Finset.Card
import Mathlib.Data.List.TakeWhile
import RpcReference.Sync.Report
import RpcReference.Proofs.Document.Paths

/-!
# The names of paths

A conversion puts one slash before a name, and the check takes **all** leading slashes off a path.

* `SyncReport.nameOfPath_eq_iff` — the name of a path: slashes before it, and none at its start.
* `SyncReport.nameOfPath_eq_self_iff` — **a name is the name of its path exactly if no slash leads
  it**.
* `SyncReport.isInSync_compare_iff` — the verdict in terms of names: equal counts and equal sets.
-/

set_option autoImplicit false

namespace RpcReference

/-! ## Sets of names

A report is in sync if both differences are empty, that is if each set is inside the other. -/

namespace NameSet

theorem isEmpty_iff {set : NameSet} : set.isEmpty = true ↔ ∀ name, name ∉ set := by
  rw [isEmpty, List.isEmpty_iff, List.eq_nil_iff_forall_not_mem]
  rfl

theorem isEmpty_diff_iff {s t : NameSet} : (s.diff t).isEmpty = true ↔ ∀ name ∈ s, name ∈ t := by
  simp only [isEmpty_iff, mem_diff, not_and_not_right]

end NameSet

namespace SyncReport

/-! ## Leading slashes

`SyncReport.nameOfPath` takes the slashes off character by character.  What it gives is described
without it: the name of a path is the only text without a slash at its start that gives the path
when slashes are put before it.  That one slash was put before a name therefore makes no
difference. -/

/-- Whether the first character of a text is a slash. -/
def StartsWithSlash (text : String) : Prop := text.toList.head? = some '/'

instance (text : String) : Decidable (StartsWithSlash text) :=
  inferInstanceAs (Decidable (text.toList.head? = some '/'))

theorem startsWithSlash_pathOf (name : String) : StartsWithSlash (Operation.pathOf name) := by
  rw [StartsWithSlash, Operation.toList_pathOf]
  rfl

/-- A text with a slash in front is the path of what follows the slash. -/
theorem startsWithSlash_iff {text : String} :
    StartsWithSlash text ↔ ∃ name, text = Operation.pathOf name := by
  refine ⟨fun h => ⟨String.ofList text.toList.tail, ?_⟩, ?_⟩
  · rw [StartsWithSlash, List.head?_eq_some_iff] at h
    obtain ⟨rest, hrest⟩ := h
    apply String.toList_injective
    rw [Operation.toList_pathOf, String.toList_ofList, hrest, List.tail_cons]
  · rintro ⟨name, rfl⟩
    exact startsWithSlash_pathOf name

theorem toList_nameOfPath (path : String) :
    (nameOfPath path).toList = path.toList.dropWhile (· = '/') := String.toList_ofList

/-- No slash is left at the start of a name. -/
theorem not_startsWithSlash_nameOfPath (path : String) : ¬ StartsWithSlash (nameOfPath path) := by
  intro h
  rw [StartsWithSlash, toList_nameOfPath] at h
  have hnot := List.head?_dropWhile_not (fun c : Char => decide (c = '/')) path.toList
  simp [h] at hnot

/-- What is before the name of a path are slashes. -/
theorem toList_eq_replicate_append_nameOfPath (path : String) :
    ∃ k, path.toList = List.replicate k '/' ++ (nameOfPath path).toList := by
  refine ⟨(path.toList.takeWhile (· = '/')).length, ?_⟩
  have hslashes : path.toList.takeWhile (· = '/') =
      List.replicate (path.toList.takeWhile (· = '/')).length '/' := by
    refine List.eq_replicate_iff.2 ⟨rfl, fun c hc => ?_⟩
    simpa using List.mem_takeWhile_imp hc
  rw [← hslashes, toList_nameOfPath, List.takeWhile_append_dropWhile]

/-- **The name of a path**: there are only slashes before it, and it does not start with one. -/
theorem nameOfPath_eq_iff {path name : String} :
    nameOfPath path = name ↔
      ¬ StartsWithSlash name ∧ ∃ k, path.toList = List.replicate k '/' ++ name.toList := by
  constructor
  · rintro rfl
    exact ⟨not_startsWithSlash_nameOfPath path, toList_eq_replicate_append_nameOfPath path⟩
  · rintro ⟨hname, k, hk⟩
    apply String.toList_injective
    rw [toList_nameOfPath, hk, List.dropWhile_append_of_pos (by simp)]
    refine List.dropWhile_eq_self_iff.2 fun hlen hslash => hname ?_
    rw [StartsWithSlash, List.head?_eq_some_head (List.ne_nil_of_length_pos hlen)]
    simpa [List.head_eq_getElem] using hslash

@[simp] theorem nameOfPath_pathOf (name : String) :
    nameOfPath (Operation.pathOf name) = nameOfPath name := by
  apply String.toList_injective
  rw [toList_nameOfPath, toList_nameOfPath, Operation.toList_pathOf]
  simp

theorem nameOfPath_eq_self_iff {name : String} :
    nameOfPath name = name ↔ ¬ StartsWithSlash name := by
  rw [nameOfPath_eq_iff]
  exact ⟨fun h => h.1, fun h => ⟨h, 0, rfl⟩⟩

/-! ## The verdict

A verdict is three tests, two of them about sets.  Put together, the sets are equal. -/

/-- **In sync: as many paths as requests, and the same names.** -/
theorem isInSync_compare_iff {requests paths : List String} :
    (compare requests paths).isInSync = true ↔
      requests.length = paths.length ∧
        ∀ name, name ∈ requests ↔ name ∈ paths.map nameOfPath := by
  rw [isInSync, Bool.and_eq_true, Bool.and_eq_true, and_assoc, decide_eq_true_iff]
  simp only [compare, NameSet.isEmpty_diff_iff, NameSet.mem_ofList]
  refine and_congr_right fun _ => ?_
  constructor
  · exact fun h name => ⟨h.1 name, h.2 name⟩
  · exact fun h => ⟨fun name => (h name).1, fun name => (h name).2⟩

theorem pathsOf_eq {document : Json} {members : Table String Json}
    (h : document.get? "paths" = some (.object members)) : pathsOf document = Table.keys members := by
  rw [pathsOf, h]
  rfl

end SyncReport
end RpcReference
