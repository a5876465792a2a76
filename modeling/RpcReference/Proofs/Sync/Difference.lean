import Mathlib.Data.Finset.Dedup
import RpcReference.Proofs.Sync.Verdict

/-!
# The report as a difference of two sets

A check compares the names of the requests with the names of the paths.  The two lists may name
something twice, so the counts in a report say more than its names do.

* `SyncReport.toFinset_missing`, `SyncReport.toFinset_extra` — **what is missing is on the one side
  only, and what is extra is on the other side only**.
* `SyncReport.not_nodup_of_counts` — where the names agree and the counts do not, something is named
  twice.
* `SyncReport.SamePaths` — documents that a check cannot tell apart: they list the same paths, in
  any order, and differ in anything else.
* `SyncReport.ofDocument_difference` — all of this about the report on a workspace and a document.
-/

set_option autoImplicit false

namespace RpcReference

/-! ## Sets of names

A `NameSet` is a sorted list and is written as one.  As a set it has the differences and the
cardinalities of the library, and its size is one of these since no name stands twice in it. -/

namespace NameSet

/-- The names of a set. -/
def toFinset (set : NameSet) : Finset String := set.toList.toFinset

@[simp] theorem mem_toFinset {name : String} {set : NameSet} :
    name ∈ set.toFinset ↔ name ∈ set := List.mem_toFinset

theorem card_toFinset (set : NameSet) : set.toFinset.card = set.size :=
  List.toFinset_card_of_nodup (set.sorted.imp fun hlt => fun e => String.lt_irrefl _ (e ▸ hlt))

theorem toFinset_diff_ofList (names others : List String) :
    ((ofList names).diff (ofList others)).toFinset = names.toFinset \ others.toFinset := by
  ext name
  simp

/-- The order of a list does not matter for its set. -/
theorem ofList_eq_of_perm {names names' : List String} (h : names.Perm names') :
    ofList names = ofList names' :=
  ext fun name => by rw [mem_ofList, mem_ofList, h.mem_iff]

end NameSet

namespace SyncReport

/-! ## The names on one side only

The report lists two differences.  With the names of both sides together counted in two ways, their
sizes make up for each other. -/

section Difference

variable (requests paths : List String)

theorem toFinset_missing :
    (compare requests paths).missing.toFinset =
      requests.toFinset \ (paths.map nameOfPath).toFinset :=
  NameSet.toFinset_diff_ofList _ _

theorem toFinset_extra :
    (compare requests paths).extra.toFinset =
      (paths.map nameOfPath).toFinset \ requests.toFinset :=
  NameSet.toFinset_diff_ofList _ _

/-- The names of both sides together, counted in two ways. -/
theorem card_add_extra :
    requests.toFinset.card + (compare requests paths).extra.size =
      (paths.map nameOfPath).toFinset.card + (compare requests paths).missing.size := by
  rw [← NameSet.card_toFinset, ← NameSet.card_toFinset, toFinset_missing, toFinset_extra,
    Nat.add_comm, Finset.card_sdiff_add_card, Nat.add_comm, Finset.card_sdiff_add_card,
    Finset.union_comm]

theorem isInSync_iff_toFinset_eq :
    (compare requests paths).isInSync = true ↔
      requests.length = paths.length ∧ requests.toFinset = (paths.map nameOfPath).toFinset := by
  rw [isInSync_compare_iff, Finset.ext_iff]
  simp only [List.mem_toFinset]

end Difference

/-! ## Counts that differ

The counts are those of lists and the names form sets.  A report can be out of sync although nothing
is missing and nothing is extra, and then one of the lists has to name something twice. -/

/-- Two paths of one name. -/
theorem exists_of_not_nodup_map {paths : List String} (hpaths : paths.Nodup)
    (h : ¬ (paths.map nameOfPath).Nodup) :
    ∃ path ∈ paths, ∃ other ∈ paths, path ≠ other ∧ nameOfPath path = nameOfPath other := by
  by_contra hnone
  refine h (hpaths.map_on fun path hpath other hother heq => ?_)
  by_contra hne
  exact hnone ⟨path, hpath, other, hother, hne, heq⟩

/-- **Where the names agree and the counts do not, something is named twice**: if neither list did,
both would be as long as their common set is large. -/
theorem not_nodup_of_counts {requests paths : List String}
    (hmissing : (compare requests paths).missing.size = 0)
    (hextra : (compare requests paths).extra.size = 0)
    (hsync : (compare requests paths).isInSync = false) :
    ¬ requests.Nodup ∨ ¬ (paths.map nameOfPath).Nodup := by
  have hnames : requests.toFinset = (paths.map nameOfPath).toFinset := by
    rw [← NameSet.card_toFinset, Finset.card_eq_zero, toFinset_missing,
      Finset.sdiff_eq_empty_iff_subset] at hmissing
    rw [← NameSet.card_toFinset, Finset.card_eq_zero, toFinset_extra,
      Finset.sdiff_eq_empty_iff_subset] at hextra
    exact hmissing.antisymm hextra
  have hlength : requests.length ≠ paths.length := by
    intro heq
    rw [(isInSync_iff_toFinset_eq requests paths).2 ⟨heq, hnames⟩] at hsync
    cases hsync
  by_contra hboth
  rw [not_or, not_not, not_not] at hboth
  obtain ⟨hrequests, hpaths⟩ := hboth
  refine hlength ?_
  calc requests.length
      = requests.toFinset.card := length_eq_card_iff_nodup.2 hrequests
    _ = (paths.map nameOfPath).toFinset.card := by rw [hnames]
    _ = (paths.map nameOfPath).length := (length_eq_card_iff_nodup.2 hpaths).symm
    _ = paths.length := List.length_map _

/-! ## What a check does not look at

The check uses the keys of one object, and forms sets of names.  So everything else in the document
may be changed, and neither the order of the keys nor that of the requests is seen. -/

/-- **Documents that list the same paths**, in any order and with anything under them.  All else in
them may differ. -/
inductive SamePaths (document document' : Json) : Prop
  /-- Neither document has an object of paths. -/
  | absent (h : (document.get? "paths").bind Json.members? = none)
      (h' : (document'.get? "paths").bind Json.members? = none)
  /-- Both have one, and the keys of one are those of the other. -/
  | present (members members' : Table String Json) (h : document.get? "paths" = some (.object members))
      (h' : document'.get? "paths" = some (.object members'))
      (hkeys : (Table.keys members).Perm (Table.keys members'))

theorem pathsOf_eq_nil {document : Json} (h : (document.get? "paths").bind Json.members? = none) :
    pathsOf document = [] := by
  rw [pathsOf, h]
  rfl

theorem SamePaths.pathsOf_perm {document document' : Json} (h : SamePaths document document') :
    (pathsOf document).Perm (pathsOf document') := by
  cases h with
  | absent h h' => rw [pathsOf_eq_nil h, pathsOf_eq_nil h']
  | present members members' h h' hkeys => rwa [pathsOf_eq h, pathsOf_eq h']

/-- **A report depends on neither order.** -/
theorem compare_of_perm {requests requests' paths paths' : List String}
    (hrequests : requests.Perm requests') (hpaths : paths.Perm paths') :
    compare requests' paths' = compare requests paths := by
  rw [compare, compare, hrequests.length_eq, hpaths.length_eq, NameSet.ofList_eq_of_perm hrequests,
    NameSet.ofList_eq_of_perm (hpaths.map nameOfPath)]

/-! ## The report on a document

For all of these statements the document is any value.  Without an object of paths it counts as one
without paths. -/

/-- **The report is the difference between two sets of names, whatever the order.**  The paths of a
document are the keys of its object of paths, if it has one.  The missing names are those of
requests and of no path, the extra ones those of paths and of no request, so that the two sizes make
up for each other.  The report is in sync exactly if the counts and the sets are equal.  If no name
is on one side only and still it is not in sync, then two requests share a name, or two paths differ
in nothing but their leading slashes; no path itself is there twice, as in every object that was
read (`Json.proper_of_parse`).  Neither the order of the resources matters, nor anything in the
document but the keys of its paths. -/
theorem ofDocument_difference (w : Workspace) (document : Json) :
    let report := SyncReport.ofDocument w document
    let names := w.requestNames.toFinset
    let pathNames := ((pathsOf document).map nameOfPath).toFinset
    ((document.get? "paths").bind Json.members? = none → pathsOf document = []) ∧
    (∀ members, document.get? "paths" = some (.object members) →
      pathsOf document = Table.keys members) ∧
    report.missing.toFinset = names \ pathNames ∧
    report.extra.toFinset = pathNames \ names ∧
    Disjoint report.missing.toFinset report.extra.toFinset ∧
    names.card + report.extra.size = pathNames.card + report.missing.size ∧
    (report.isInSync = true ↔
      w.requests.length = (pathsOf document).length ∧ names = pathNames) ∧
    ((pathsOf document).Nodup → report.missing.size = 0 → report.extra.size = 0 →
      report.isInSync = false →
      ¬ w.requestNames.Nodup ∨ ∃ path ∈ pathsOf document, ∃ other ∈ pathsOf document,
        path ≠ other ∧ nameOfPath path = nameOfPath other) ∧
    ∀ w' document', w.resources.Perm w'.resources → SamePaths document document' →
      SyncReport.ofDocument w' document' = report := by
  intro report names pathNames
  have hmissing : report.missing.toFinset = names \ pathNames := toFinset_missing _ _
  have hextra : report.extra.toFinset = pathNames \ names := toFinset_extra _ _
  refine ⟨pathsOf_eq_nil, fun _ => pathsOf_eq, hmissing, hextra, ?_, card_add_extra _ _, ?_,
    fun hpaths hmissing hextra hsync => ?_, fun w' document' hperm hsame => ?_⟩
  · rw [hmissing, hextra]
    exact disjoint_sdiff_sdiff
  · have hlength : w.requestNames.length = w.requests.length := List.length_map _
    rw [← hlength]
    exact isInSync_iff_toFinset_eq _ _
  · exact (not_nodup_of_counts hmissing hextra hsync).imp_right (exists_of_not_nodup_map hpaths)
  · have hrequests : w.requestNames.Perm w'.requestNames := (hperm.filter _).map _
    exact compare_of_perm hrequests hsame.pathsOf_perm

/-- Paths in another order, with something else under and around them. -/
def documentOfReversed (paths : List String) : Json :=
  .object [("openapi", .string "3.0.3"),
    ("paths", .object (paths.reverse.map fun path => (path, .null)))]

/-- Three requests with two names: the counts alone tell that something is wrong, in any order. -/
theorem ofDocument_difference_sharedName :
    let report := SyncReport.ofDocument (workspaceOf ["b", "a", "a"]) (documentOf ["/a", "/b"])
    (pathsOf (documentOf ["/a", "/b"])).Nodup ∧ report.missing.size = 0 ∧ report.extra.size = 0 ∧
    report.isInSync = false ∧ ¬ (workspaceOf ["b", "a", "a"]).requestNames.Nodup ∧
    (workspaceOf ["b", "a", "a"]).resources.Perm (workspaceOf ["a", "b", "a"]).resources ∧
    SamePaths (documentOf ["/a", "/b"]) (documentOfReversed ["/a", "/b"]) ∧
    SyncReport.ofDocument (workspaceOf ["a", "b", "a"]) (documentOfReversed ["/a", "/b"]) = report := by
  intro report
  have hnodup : (pathsOf (documentOf ["/a", "/b"])).Nodup := by decide
  have hmissing : report.missing.size = 0 := by decide
  have hextra : report.extra.size = 0 := by decide
  have hsync : report.isInSync = false := by decide
  have hperm : (workspaceOf ["b", "a", "a"]).resources.Perm (workspaceOf ["a", "b", "a"]).resources :=
    .swap ..
  have hsame : SamePaths (documentOf ["/a", "/b"]) (documentOfReversed ["/a", "/b"]) :=
    .present _ _ rfl rfl (.swap ..)
  obtain ⟨-, -, -, -, -, -, -, hcounts, hsameReport⟩ :=
    ofDocument_difference (workspaceOf ["b", "a", "a"]) (documentOf ["/a", "/b"])
  refine ⟨hnodup, hmissing, hextra, hsync, ?_, hperm, hsame, hsameReport _ _ hperm hsame⟩
  rcases hcounts hnodup hmissing hextra hsync with hnames | hpaths
  · exact hnames
  · exact absurd hpaths (by decide)

end SyncReport
end RpcReference
