import Mathlib.Data.List.FinRange
import Mathlib.Data.List.Perm.Basic
import RpcReference.Conversion
import RpcReference.Proofs.Table

/-!
# The order of visits

`Workspace.traversal` fills buckets in two passes and empties them.  What comes out is described
here without buckets, in two ways.

* `Workspace.traversal_eq` — the keys of the buckets (`Workspace.bucketKeys`) in the order in which
  they are first given, and for each of them **the requests with that parent in document order**.
  `Workspace.traversal_parent_by_parent` says the same of the ids in the document, and that requests
  with the same parent are not parted.
* `Workspace.VisitedBefore` — when one request of the document is visited before another: a rule for
  two folders, one for two parents that are no folders, one for a folder and another parent, and one
  for two requests with the same parent.  `Workspace.pairwise_visits` says that the visits follow
  it, and `Workspace.visits_perm` that **every request is visited once**.
* `Workspace.exists_lastVisit` — among the requests with a property the one visited last is the one
  that all the others are visited before.
-/

set_option autoImplicit false

namespace RpcReference

/-! ## Buckets

The first pass opens a bucket for each folder, the second puts the requests into those of their
parents and opens what is missing.  Both only ever use `Table.alter`, and both keep the same
invariant: what the buckets hold is known from the keys that were given and the requests that were
added, and from their order.

Each pass is a fold, so it is enough that one step keeps the invariant.  The keys are given with
repetitions, since a folder may be declared twice and requests share parents, and the buckets have
each of them once, where it was given first. -/

/-- What the buckets hold after the keys `given` and the requests `added`. -/
structure Buckets.Holds (buckets : Buckets) (given : List (Option String))
    (added : List Resource) : Prop where
  /-- There is a bucket for each key, in the order of their first occurrence. -/
  keys_eq : Table.keys buckets = given.eraseDups
  /-- The parent of a request is a key. -/
  parentId_mem : ∀ r ∈ added, r.parentId ∈ given
  /-- A bucket holds the requests with its key as their parent, in the order of their addition. -/
  get?_eq : ∀ key ∈ given, Table.get? key buckets = some (added.filter fun r => r.parentId = key)

namespace Buckets

/-- Before the first pass there are no buckets. -/
theorem holds_nil : Holds [] [] [] := ⟨rfl, by simp, by simp⟩

/-- The keys after a key is given, whatever is done with its bucket. -/
theorem Holds.keys_alter {buckets : Buckets} {given : List (Option String)} {added : List Resource}
    (h : Holds buckets given added) (key : Option String)
    (f : Option (List Resource) → List Resource) :
    Table.keys (Table.alter key f buckets) = (given ++ [key]).eraseDups := by
  rw [Table.keys_alter, h.keys_eq, Table.eraseDups_append_singleton]
  simp only [List.mem_eraseDups]

/-- What is in the bucket of a key, which may not be there yet. -/
theorem Holds.getD_get? {buckets : Buckets} {given : List (Option String)} {added : List Resource}
    (h : Holds buckets given added) (key : Option String) :
    (Table.get? key buckets).getD [] = added.filter fun r => r.parentId = key := by
  by_cases hk : key ∈ given
  · rw [h.get?_eq key hk, Option.getD_some]
  · have hnone : Table.get? key buckets = none := by
      rw [Table.get?_eq_none_iff, h.keys_eq, List.mem_eraseDups]
      exact hk
    rw [hnone, Option.getD_none, eq_comm, List.filter_eq_nil_iff]
    intro r hr hparent
    exact hk (of_decide_eq_true hparent ▸ h.parentId_mem r hr)

/-- Declaring a folder gives its key and adds nothing. -/
theorem Holds.declare {buckets : Buckets} {given : List (Option String)} {added : List Resource}
    (h : Holds buckets given added) (group : Resource) :
    Holds (buckets.declare group) (given ++ [some group.id]) added where
  keys_eq := h.keys_alter _ _
  parentId_mem r hr := List.mem_append_left _ (h.parentId_mem r hr)
  get?_eq key hkey := by
    -- the bucket of the folder, which may be filled already, keeps what is in it
    by_cases he : key = some group.id
    · subst he
      rw [Buckets.declare, Table.get?_alter_self, h.getD_get?]
    · rw [Buckets.declare, Table.get?_alter_of_ne _ he]
      refine h.get?_eq key ?_
      simpa [he] using hkey

/-- Adding a request gives the key of its parent. -/
theorem Holds.add {buckets : Buckets} {given : List (Option String)} {added : List Resource}
    (h : Holds buckets given added) (request : Resource) :
    Holds (buckets.add request) (given ++ [request.parentId]) (added ++ [request]) where
  keys_eq := h.keys_alter _ _
  parentId_mem r hr := by
    rcases List.mem_append.1 hr with hr | hr
    · exact List.mem_append_left _ (h.parentId_mem r hr)
    · rw [List.mem_singleton.1 hr]
      exact List.mem_append_right _ (List.mem_singleton_self _)
  get?_eq key hkey := by
    rw [List.filter_append]
    by_cases he : key = request.parentId
    · subst he
      rw [Buckets.add, Table.get?_alter_self, h.getD_get?]
      simp
    · rw [Buckets.add, Table.get?_alter_of_ne _ he, h.get?_eq key (by simpa [he] using hkey)]
      simp [Ne.symm he]

/-- The first pass. -/
theorem Holds.foldl_declare {buckets : Buckets} {given : List (Option String)}
    {added : List Resource} (h : Holds buckets given added) (groups : List Resource) :
    Holds (groups.foldl Buckets.declare buckets) (given ++ groups.map fun g => some g.id) added := by
  induction groups generalizing buckets given with
  | nil => simpa using h
  | cons group groups ih => simpa using ih (h.declare group)

/-- The second pass. -/
theorem Holds.foldl_add {buckets : Buckets} {given : List (Option String)}
    {added : List Resource} (h : Holds buckets given added) (requests : List Resource) :
    Holds (requests.foldl Buckets.add buckets) (given ++ requests.map Resource.parentId)
      (added ++ requests) := by
  induction requests generalizing buckets given added with
  | nil => simpa using h
  | cons request requests ih => simpa using ih (h.add request)

end Buckets

namespace Workspace

/-! ## The visits without buckets

After the two passes the keys are those of the folders and then the parents of the requests, each
where it comes first.  Emptying the buckets in the order of their keys gives the visits.

The list of visits is now one `flatMap` over different keys.  That the requests of one parent are
visited together is then a matter of splitting the keys at that parent: no other bucket holds any of
them. -/

/-- The ids of the folders as the parents of requests name them, in the order of declaration. -/
def groupKeys (w : Workspace) : List (Option String) := w.groups.map fun g => some g.id

/-- The parents of the requests, in document order. -/
def parentKeys (w : Workspace) : List (Option String) := w.requests.map Resource.parentId

/-- The keys of the buckets: the folders, and then the other parents. -/
def bucketKeys (w : Workspace) : List (Option String) := (w.groupKeys ++ w.parentKeys).eraseDups

theorem holds_buckets (w : Workspace) :
    w.buckets.Holds (w.groupKeys ++ w.parentKeys) w.requests := by
  have h := (Buckets.holds_nil.foldl_declare w.groups).foldl_add w.requests
  simpa [groupKeys, parentKeys, buckets] using h

/-- **Bucket after bucket, the requests with that parent in document order.** -/
theorem traversal_eq (w : Workspace) :
    w.traversal = w.bucketKeys.flatMap fun key => w.requests.filter fun r => r.parentId = key := by
  have h := w.holds_buckets
  -- the contents of a bucket are only found under its key if the key is there once
  have hnd : (Table.keys w.buckets).Nodup := by
    rw [h.keys_eq]
    exact Table.nodup_eraseDups (w.groupKeys ++ w.parentKeys)
  have hvalues : Table.values w.buckets =
      w.bucketKeys.map fun key => w.requests.filter fun r => r.parentId = key := by
    rw [Table.values_eq hnd, h.keys_eq, ← List.filterMap_eq_map, bucketKeys]
    exact List.filterMap_congr fun key hkey => h.get?_eq key (List.mem_eraseDups.1 hkey)
  rw [traversal, hvalues, List.flatMap_def]

/-- The folders come first, then the parents that are no folders. -/
theorem bucketKeys_eq (w : Workspace) :
    w.bucketKeys = w.groupKeys.eraseDups ++ (w.parentKeys.removeAll w.groupKeys).eraseDups :=
  List.eraseDups_append

/-- The parent of a request is a key. -/
theorem parentId_mem_bucketKeys {w : Workspace} {r : Resource} (hr : r ∈ w.requests) :
    r.parentId ∈ w.bucketKeys :=
  List.mem_eraseDups.2 (List.mem_append_right _ (List.mem_map_of_mem hr))

/-- A key is there once, between others. -/
theorem exists_split_bucketKeys {w : Workspace} {key : Option String} (h : key ∈ w.bucketKeys) :
    ∃ first last, w.bucketKeys = first ++ key :: last ∧ key ∉ first ∧ key ∉ last := by
  obtain ⟨first, last, hkeys⟩ := List.append_of_mem h
  have hnodup : w.bucketKeys.Nodup := Table.nodup_eraseDups (w.groupKeys ++ w.parentKeys)
  rw [hkeys, List.nodup_append, List.nodup_cons] at hnodup
  obtain ⟨-, ⟨hlast, -⟩, hfirst⟩ := hnodup
  exact ⟨first, last, hkeys, fun h => hfirst _ h _ List.mem_cons_self rfl, hlast⟩

/-- The buckets of other keys hold no request with this one. -/
theorem parentId_ne_of_mem_flatMap {w : Workspace} {keys : List (Option String)}
    {key : Option String} (hkey : key ∉ keys) {r : Resource}
    (hr : r ∈ keys.flatMap fun key => w.requests.filter fun r => r.parentId = key) :
    r.parentId ≠ key := by
  obtain ⟨other, hother, hmem⟩ := List.mem_flatMap.1 hr
  rintro rfl
  exact hkey (of_decide_eq_true (List.mem_filter.1 hmem).2 ▸ hother)

/-- **The requests with one parent are visited one right after the other**, in document order. -/
theorem exists_split_traversal_of_key (w : Workspace) (key : Option String) :
    ∃ before after, w.traversal = before ++ w.requests.filter (fun r => r.parentId = key) ++ after ∧
      ∀ r ∈ before ++ after, r.parentId ≠ key := by
  by_cases hkey : key ∈ w.bucketKeys
  · obtain ⟨first, last, hkeys, hfirst, hlast⟩ := exists_split_bucketKeys hkey
    refine ⟨_, _, by rw [traversal_eq, hkeys, List.flatMap_append, List.flatMap_cons,
      List.append_assoc], fun r hr => ?_⟩
    rcases List.mem_append.1 hr with hr | hr
    · exact parentId_ne_of_mem_flatMap hfirst hr
    · exact parentId_ne_of_mem_flatMap hlast hr
  · have hnone : w.requests.filter (fun r => r.parentId = key) = [] := by
      rw [List.filter_eq_nil_iff]
      intro r hr hparent
      exact hkey (of_decide_eq_true hparent ▸ parentId_mem_bucketKeys hr)
    refine ⟨w.traversal, [], by rw [hnone, List.append_nil, List.append_nil], fun r hr => ?_⟩
    rw [List.append_nil, traversal_eq] at hr
    exact parentId_ne_of_mem_flatMap hkey hr

/-! ## Places in the document

Two requests may be equal, so what is said about single requests is said about their places. -/

/-- The place of a request among the requests of a workspace. -/
abbrev Place (w : Workspace) : Type := Fin w.requests.length

/-- The request at a place. -/
def requestAt (w : Workspace) (i : w.Place) : Resource := w.requests[i]

/-- The parent of the request at a place. -/
def parentAt (w : Workspace) (i : w.Place) : Option String := (w.requestAt i).parentId

/-- The places of the requests in the order of the visits. -/
def visits (w : Workspace) : List w.Place :=
  w.bucketKeys.flatMap fun key => (List.finRange _).filter fun i => w.parentAt i = key

/-- **When the request at one place is visited before the one at another.** -/
inductive VisitedBefore (w : Workspace) (i j : w.Place) : Prop where
  /-- Two requests with the same parent are visited in document order. -/
  | sameParent (same : w.parentAt i = w.parentAt j) (before : i < j)
  /-- A request in a folder is visited before one that is in none. -/
  | folderFirst (folder : w.parentAt i ∈ w.groupKeys) (other : w.parentAt j ∉ w.groupKeys)
  /-- Of two folders the one that is declared first is visited first. -/
  | folders (folder : w.parentAt i ∈ w.groupKeys) (folder' : w.parentAt j ∈ w.groupKeys)
      (before : w.groupKeys.idxOf (w.parentAt i) < w.groupKeys.idxOf (w.parentAt j))
  /-- Of two parents that are no folders the one that a request names first is visited first. -/
  | others (other : w.parentAt i ∉ w.groupKeys) (other' : w.parentAt j ∉ w.groupKeys)
      (before : w.parentKeys.idxOf (w.parentAt i) < w.parentKeys.idxOf (w.parentAt j))

/-- The traversal visits the requests at the places of the visits. -/
theorem traversal_eq_map_visits (w : Workspace) :
    w.traversal = w.visits.map w.requestAt := by
  have hget : (List.finRange w.requests.length).map w.requestAt = w.requests :=
    List.map_getElem_finRange _
  rw [traversal_eq, visits, List.map_flatMap]
  refine List.flatMap_congr fun key _ => ?_
  conv_lhs => rw [← hget]
  rw [List.filter_map]
  rfl

/-- Every place is visited: the parent of its request is a key. -/
theorem mem_visits (w : Workspace) (i : w.Place) : i ∈ w.visits := by
  have hkey : w.parentAt i ∈ w.bucketKeys := parentId_mem_bucketKeys (List.getElem_mem _)
  exact List.mem_flatMap.2 ⟨_, hkey, List.mem_filter.2 ⟨List.mem_finRange i, by simp⟩⟩

/-! ## The visits follow the rules

Visits to different buckets are ordered as the keys are, and visits to one bucket as the document
is.  For the keys it has to be seen where each of them comes first: folders among the folders, and
any other parent among the parents of the requests, where those that are folders are left out. -/

/-- The keys of the buckets are in the order of the rules. -/
theorem pairwise_bucketKeys (w : Workspace) :
    w.bucketKeys.Pairwise fun key key' =>
      (key ∈ w.groupKeys ∧ key' ∉ w.groupKeys) ∨
      (key ∈ w.groupKeys ∧ key' ∈ w.groupKeys ∧ w.groupKeys.idxOf key < w.groupKeys.idxOf key') ∨
      (key ∉ w.groupKeys ∧ key' ∉ w.groupKeys ∧
        w.parentKeys.idxOf key < w.parentKeys.idxOf key') := by
  have hother : ∀ key ∈ (w.parentKeys.removeAll w.groupKeys).eraseDups, key ∉ w.groupKeys := by
    intro key hkey
    simpa using (List.mem_filter.1 (List.mem_eraseDups.1 hkey)).2
  rw [bucketKeys_eq, List.pairwise_append]
  refine ⟨?_, ?_, fun key hkey key' hkey' => ?_⟩
  · refine (Table.pairwise_eraseDups w.groupKeys).imp_of_mem fun {key key'} hkey hkey' hlt => ?_
    exact .inr (.inl ⟨List.mem_eraseDups.1 hkey, List.mem_eraseDups.1 hkey', hlt⟩)
  -- the other parents are ordered in the list without the folders, so they are in the list with
  -- them
  · refine (Table.pairwise_eraseDups _).imp_of_mem fun {key key'} hkey hkey' hlt => ?_
    have hk := hother key hkey
    have hk' := hother key' hkey'
    exact .inr (.inr ⟨hk, hk', Table.idxOf_lt_of_filter (by simpa using hk) (by simpa using hk') hlt⟩)
  · exact .inl ⟨List.mem_eraseDups.1 hkey, hother key' hkey'⟩

/-- **The visits follow the rules.** -/
theorem pairwise_visits (w : Workspace) : w.visits.Pairwise w.VisitedBefore := by
  refine List.pairwise_flatMap.2 ⟨fun key _ => ?_, ?_⟩
  · refine ((List.pairwise_lt_finRange _).filter _).imp_of_mem fun {i j} hi hj hlt => ?_
    have hi := (List.mem_filter.1 hi).2
    have hj := (List.mem_filter.1 hj).2
    exact .sameParent ((of_decide_eq_true hi).trans (of_decide_eq_true hj).symm) hlt
  · refine w.pairwise_bucketKeys.imp fun {key key'} hkeys i hi j hj => ?_
    obtain rfl : w.parentAt i = key := of_decide_eq_true (List.mem_filter.1 hi).2
    obtain rfl : w.parentAt j = key' := of_decide_eq_true (List.mem_filter.1 hj).2
    rcases hkeys with ⟨hk, hk'⟩ | ⟨hk, hk', hlt⟩ | ⟨hk, hk', hlt⟩
    · exact .folderFirst hk hk'
    · exact .folders hk hk' hlt
    · exact .others hk hk' hlt

/-- The rules put no place before itself. -/
theorem VisitedBefore.ne {w : Workspace} {i j : w.Place} (h : w.VisitedBefore i j) : i ≠ j := by
  rintro rfl
  cases h with
  | sameParent _ hlt => exact absurd hlt (lt_irrefl i)
  | folderFirst hk hk' => exact hk' hk
  | folders _ _ hlt => exact absurd hlt (lt_irrefl _)
  | others _ _ hlt => exact absurd hlt (lt_irrefl _)

/-- **Every request is visited once.** -/
theorem visits_perm (w : Workspace) : w.visits.Perm (List.finRange _) := by
  -- no place is visited before itself, so the visits do not repeat any
  refine (List.perm_ext_iff_of_nodup ?_ (List.nodup_finRange _)).2 fun i => ?_
  · exact w.pairwise_visits.imp fun h => h.ne
  · exact ⟨fun _ => List.mem_finRange i, fun _ => w.mem_visits i⟩

/-- **The traversal has every request of the document once.** -/
theorem traversal_perm (w : Workspace) : w.traversal.Perm w.requests := by
  rw [traversal_eq_map_visits]
  refine (w.visits_perm.map _).trans (List.Perm.of_eq ?_)
  exact List.map_getElem_finRange _

/-- **The visits, parent by parent.**  First the folders in the order in which their ids are
declared, then the other parents, the root among them, in the order in which a request first names
them; and for each of them the requests with that parent in document order.  So every request is
visited once, and requests with the same parent are visited one right after the other. -/
theorem traversal_parent_by_parent (w : Workspace) :
    let folders := (w.groups.map fun g => some g.id).eraseDups
    let others := ((w.requests.map Resource.parentId).filter fun key => key ∉ folders).eraseDups
    let requestsIn := fun key : Option String => w.requests.filter fun r => r.parentId = key
    w.traversal = (folders ++ others).flatMap requestsIn ∧
    w.traversal.Perm w.requests ∧
    ∀ key, ∃ before after, w.traversal = before ++ requestsIn key ++ after ∧
      ∀ r ∈ before ++ after, r.parentId ≠ key := by
  intro folders others requestsIn
  have hothers : (w.parentKeys.removeAll w.groupKeys).eraseDups = others := by
    have hfolder : ∀ key, key ∈ folders ↔ key ∈ w.groupKeys := fun _ => List.mem_eraseDups
    refine congrArg List.eraseDups (List.filter_congr fun key _ => ?_)
    simp [hfolder]
  have hkeys : w.bucketKeys = folders ++ others := by
    rw [bucketKeys_eq, hothers]
    rfl
  refine ⟨?_, w.traversal_perm, w.exists_split_traversal_of_key⟩
  rw [traversal_eq, hkeys]

/-! ## The last visit

When several requests share a name, all but one are forgotten.  Which one is kept is said by the
rules alone: the visits follow them, so the others are visited before the last one. -/

/-- The place among those with a property that all the others are visited before. -/
structure IsLastVisit (w : Workspace) (p : Resource → Bool) (i : w.Place) : Prop where
  /-- The request at the place has the property. -/
  holds : p (w.requestAt i) = true
  /-- Every other request with the property is visited before. -/
  before : ∀ j : w.Place, j ≠ i → p (w.requestAt j) = true → w.VisitedBefore j i

/-- **Of the requests with a property the last one in the traversal is the one that all the others
are visited before.** -/
theorem exists_lastVisit {w : Workspace} {p : Resource → Bool} (h : ∃ r ∈ w.requests, p r = true) :
    ∃ i, w.IsLastVisit p i ∧ (w.traversal.filter p).getLast? = some (w.requestAt i) := by
  have hne : w.visits.filter (fun i => p (w.requestAt i)) ≠ [] := by
    obtain ⟨r, hr, hp⟩ := h
    obtain ⟨k, hk, rfl⟩ := List.getElem_of_mem hr
    exact List.ne_nil_of_mem (List.mem_filter.2 ⟨w.mem_visits ⟨k, hk⟩, hp⟩)
  obtain ⟨earlier, i, hsplit⟩ := List.eq_nil_or_concat _ |>.resolve_left hne
  rw [List.concat_eq_append] at hsplit
  have hmem : ∀ j, j ∈ earlier ++ [i] ↔ p (w.requestAt j) = true := by
    intro j
    rw [← hsplit, List.mem_filter]
    exact ⟨fun h => h.2, fun h => ⟨w.mem_visits j, h⟩⟩
  have hpair : (earlier ++ [i]).Pairwise w.VisitedBefore := hsplit ▸ w.pairwise_visits.filter _
  refine ⟨i, ⟨(hmem i).1 (by simp), fun j hji hj => ?_⟩, ?_⟩
  · have hj : j ∈ earlier := by simpa [hji] using (hmem j).2 hj
    exact (List.pairwise_append.1 hpair).2.2 j hj i (by simp)
  · rw [traversal_eq_map_visits, List.filter_map]
    change ((w.visits.filter fun i => p (w.requestAt i)).map _).getLast? = _
    rw [hsplit, List.map_append, List.map_singleton, List.getLast?_concat]

end Workspace
end RpcReference
