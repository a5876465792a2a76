import RpcReference.Proofs.Conversion.Tags

/-!
# Growing a workspace

Resources are put in anywhere between those of a workspace.  **What is documented stays as it is, if
the new folders and requests stay out of the way of the old ones.**

* `Interleaving` — how a grown document is built from its front to its end; each new resource has to
  fit what of the old document stands before it.
* `Workspace.Admits` — what fits: a folder whose id nothing in the old document refers to, or one
  that repeats the id of an old folder that stands earlier; and a request with a new name.
* `Workspace.agree_of_interleaving` — climbs from the parents of the old document are not disturbed.
* `Workspace.traversal_of_interleaving` — without new requests the visits are the same.
* `Workspace.convert_of_interleaving` — old paths keep their operations and old tags stay; and
  without new requests the whole reference is the same.
-/

set_option autoImplicit false

namespace RpcReference

/-! ## Interleavings

Where a new resource may stand depends on what of the old document stands before it: a second folder
with an id is harmless behind the first, and hides it in front.  So the relation is not that of a
sublist.  It keeps the old list as far as it was passed, and a new element is asked to fit that
part. -/

/-- How the list `all` is built from its front to its end: its elements are those of `old` and those
of `added`, both in their order, and each new one `fits` the part of the old list that stands before
it. -/
inductive Interleaving {α : Type} (fits : List α → α → Prop) : List α → List α → List α → Prop
  /-- Nothing is there yet. -/
  | nil : Interleaving fits [] [] []
  /-- The next element is an old one. -/
  | keep {old added all : List α} (a : α) (rest : Interleaving fits old added all) :
      Interleaving fits (old ++ [a]) added (all ++ [a])
  /-- The next element is a new one. -/
  | add {old added all : List α} (a : α) (rest : Interleaving fits old added all)
      (fit : fits old a) : Interleaving fits old (added ++ [a]) (all ++ [a])

namespace Interleaving

variable {α : Type} {fits : List α → α → Prop} {old added all : List α}

/-- What was there is still there, in its order. -/
theorem sublist (h : Interleaving fits old added all) : old.Sublist all := by
  induction h with
  | nil => exact List.Sublist.refl _
  | keep a _ ih => exact ih.append (List.Sublist.refl _)
  | add a _ _ ih => exact ih.trans (List.sublist_append_left _ _)

/-- Every new element fits some part of the old list. -/
theorem fits_of_mem (h : Interleaving fits old added all) {a : α} (ha : a ∈ added) :
    ∃ earlier, fits earlier a := by
  induction h with
  | nil => cases ha
  | keep _ _ ih => exact ih ha
  | add b _ fit ih =>
    rcases List.mem_append.1 ha with ha | ha
    · exact ih ha
    · rw [List.mem_singleton.1 ha]
      exact ⟨_, fit⟩

/-- Among elements of a kind that is not added, nothing changes. -/
theorem filter_eq (h : Interleaving fits old added all) {p : α → Bool}
    (hp : ∀ a ∈ added, p a = false) : all.filter p = old.filter p := by
  induction h with
  | nil => rfl
  | keep a _ ih => rw [List.filter_append, List.filter_append, ih hp]
  | add a _ _ ih =>
    have ha : p a = false := hp a (by simp)
    rw [List.filter_append, ih fun b hb => hp b (List.mem_append_left _ hb),
      List.filter_cons_of_neg (by simp [ha]), List.filter_nil, List.append_nil]

end Interleaving

namespace Workspace

/-! ## What may be added

An id that nothing mentions cannot be met on a climb, so a folder may have it.  An id that is
mentioned but not declared must be left alone: a request that names it as its parent lies outside
all folders, and would be moved into the new one. -/

/-- Whether an id is that of a folder or the parent of a resource. -/
def Mentions (w : Workspace) (id : String) : Prop :=
  id ∈ w.groups.map Resource.id ∨ some id ∈ w.resources.map Resource.parentId

instance (w : Workspace) (id : String) : Decidable (w.Mentions id) :=
  inferInstanceAs (Decidable (_ ∨ _))

/-- What may be added to a workspace behind the resources `earlier` of it. -/
structure Admits (w : Workspace) (earlier : List Resource) (r : Resource) : Prop where
  /-- A folder has an id that does not occur, or that of a folder before it. -/
  folder : r.isGroup = true →
    ¬ w.Mentions r.id ∨ ∃ group ∈ earlier, group.isGroup = true ∧ group.id = r.id
  /-- A request has a name that does not occur. -/
  request : r.isRequest = true → r.name ∉ w.requestNames

variable {w : Workspace} {old added all : List Resource}

/-! ## Namespaces

The climbs of the old requests pass ids that the old document mentions.  All of these find the
folders that they found before, and that is all that a climb depends on
(`namespaceOf_eq_of_agree`). -/

/-- An id that the old document mentions finds the same folder: a new one with this id stands behind
an old one. -/
theorem withId?_of_interleaving (h : Interleaving w.Admits old added all) {id : String}
    (hid : w.Mentions id) :
    Resource.withId? id (all.filter Resource.isGroup) =
      Resource.withId? id (old.filter Resource.isGroup) := by
  -- from the front to the end of the document, so that `old` is what stands before the next
  -- resource
  induction h with
  | nil => rfl
  | keep r _ ih =>
    rw [List.filter_append, List.filter_append, Resource.withId?_append, Resource.withId?_append, ih]
  | @add old added all r _ fit ih =>
    rw [List.filter_append, Resource.withId?_append, ih]
    -- a new folder with this id comes too late; anything else is not looked for
    by_cases hnew : r.isGroup = true ∧ r.id = id
    · obtain ⟨hgroup, rfl⟩ := hnew
      rcases fit.folder hgroup with hfree | ⟨group, hold, hgroup', hsame⟩
      · exact absurd hid hfree
      · have hfound : (Resource.withId? r.id (old.filter Resource.isGroup)).isSome = true :=
          Resource.isSome_withId?_iff.2 ⟨group, List.mem_filter.2 ⟨hold, hgroup'⟩, hsame⟩
        exact Option.or_of_isSome hfound
    · have hnone : Resource.withId? id ([r].filter Resource.isGroup) = none := by
        rw [← Option.not_isSome_iff_eq_none, Resource.isSome_withId?_iff]
        rintro ⟨other, hother, hsame⟩
        obtain ⟨hmem, hgroup⟩ := List.mem_filter.1 hother
        obtain rfl := List.mem_singleton.1 hmem
        exact hnew ⟨hgroup, hsame⟩
      rw [hnone, Option.or_none]

section Grown

variable {w' : Workspace} (h : Interleaving w.Admits w.resources added w'.resources)

include h

/-- The ids that the old document mentions look the same in both: a folder above an old one is
old. -/
theorem agree_of_interleaving : Resource.Agree w.Mentions w.groups w'.groups where
  withId?_eq _ hid := withId?_of_interleaving h hid
  parentId _ folder _ _ hfolder hparent := by
    have hmem : folder ∈ w.resources := (List.mem_filter.1 (Resource.mem_of_withId? hfolder)).1
    exact .inr (List.mem_map.2 ⟨folder, hmem, hparent⟩)

/-- **The namespaces of the old requests stay the same.** -/
theorem namespaceOf_of_interleaving {r : Resource} (hr : r ∈ w.requests) :
    w'.namespaceOf r.parentId = w.namespaceOf r.parentId :=
  namespaceOf_eq_of_agree (agree_of_interleaving h) fun _ hid =>
    .inr (List.mem_map.2 ⟨r, (List.mem_filter.1 hr).1, hid⟩)

/-! ## Requests and names

A new request has a new name, so it takes no path from an old one. -/

theorem mem_requests_of_interleaving {r : Resource} (hr : r ∈ w.requests) : r ∈ w'.requests :=
  (h.sublist.filter _).subset hr

/-- The requests with an old name are the old ones. -/
theorem filter_name_of_interleaving {name : String} (hname : name ∈ w.requestNames) :
    w'.requests.filter (·.name = name) = w.requests.filter (·.name = name) := by
  rw [requests, requests, List.filter_filter, List.filter_filter]
  refine h.filter_eq fun r hr => ?_
  obtain ⟨earlier, fit⟩ := h.fits_of_mem hr
  rw [Bool.and_eq_false_iff, decide_eq_false_iff_not, or_iff_not_imp_right, Bool.not_eq_false]
  rintro hrequest rfl
  exact fit.request hrequest hname

end Grown

/-! ## The visits

A bucket of a new folder stays empty unless a request is added, so only the keys count that are the
parent of a request. -/

/-- Empty buckets do not show in the visits. -/
theorem traversal_eq_filter (w : Workspace) :
    w.traversal = (w.bucketKeys.filter (· ∈ w.parentKeys)).flatMap fun key =>
      w.requests.filter fun r => r.parentId = key := by
  rw [traversal_eq]
  induction w.bucketKeys with
  | nil => rfl
  | cons key keys ih =>
    rw [List.flatMap_cons, ih]
    by_cases hkey : key ∈ w.parentKeys
    · rw [List.filter_cons_of_pos (by simpa using hkey), List.flatMap_cons]
    · have hempty : w.requests.filter (fun r => r.parentId = key) = [] := by
        rw [List.filter_eq_nil_iff]
        intro r hr hparent
        exact hkey (List.mem_map.2 ⟨r, hr, of_decide_eq_true hparent⟩)
      rw [hempty, List.filter_cons_of_neg (by simpa using hkey), List.nil_append]

/-- The keys of the folders in a list of resources. -/
def keysOf (resources : List Resource) : List (Option String) :=
  (resources.filter Resource.isGroup).map fun g => some g.id

theorem keysOf_append (resources more : List Resource) :
    keysOf (resources ++ more) = keysOf resources ++ keysOf more := by
  rw [keysOf, List.filter_append, List.map_append]
  rfl

theorem keysOf_singleton {r : Resource} :
    keysOf [r] = if r.isGroup = true then [some r.id] else [] := by
  cases hgroup : r.isGroup <;> simp [keysOf, hgroup]

/-- Among the keys that the old document mentions, the folders are declared in the same order: a new
folder adds no such key, or one that is there. -/
theorem eraseDups_keysOf_of_interleaving (h : Interleaving w.Admits old added all)
    {p : Option String → Bool} (hp : ∀ id, p (some id) = true → w.Mentions id) :
    ((keysOf all).filter p).eraseDups = ((keysOf old).filter p).eraseDups := by
  induction h with
  | nil => rfl
  | keep r _ ih =>
    rw [keysOf_append, keysOf_append, List.filter_append, List.filter_append]
    exact Table.eraseDups_append_congr ih _
  | @add old added all r _ fit ih =>
    rw [keysOf_append, List.filter_append, ← ih]
    -- a new folder with a key that counts repeats one that is there; with another key it is
    -- filtered out
    by_cases hnew : r.isGroup = true ∧ p (some r.id) = true
    · obtain ⟨hgroup, hkey⟩ := hnew
      have hknown : some r.id ∈ (keysOf all).filter p := by
        rcases fit.folder hgroup with hfree | ⟨group, hold, hgroup', hsame⟩
        · exact absurd (hp r.id hkey) hfree
        · have hmem : some r.id ∈ (keysOf old).filter p := by
            refine List.mem_filter.2 ⟨List.mem_map.2 ⟨group, ?_, congrArg some hsame⟩, hkey⟩
            exact List.mem_filter.2 ⟨hold, hgroup'⟩
          rwa [← List.mem_eraseDups, ih, List.mem_eraseDups]
      rw [keysOf_singleton, if_pos hgroup, List.filter_cons_of_pos hkey, List.filter_nil,
        Table.eraseDups_append_singleton, if_pos hknown]
    · have hnone : (keysOf [r]).filter p = [] := by
        rw [keysOf_singleton, List.filter_eq_nil_iff]
        intro key hkey hpkey
        split at hkey
        · next hgroup => exact hnew ⟨hgroup, List.mem_singleton.1 hkey ▸ hpkey⟩
        · cases hkey
      rw [hnone, List.append_nil]

section Grown

variable {w' : Workspace} (h : Interleaving w.Admits w.resources added w'.resources)

include h

/-- **Without new requests the visits are the same.** -/
theorem traversal_of_interleaving (hadded : ∀ r ∈ added, r.isRequest = false) :
    w'.traversal = w.traversal := by
  have hrequests : w'.requests = w.requests := h.filter_eq hadded
  have hparents : w'.parentKeys = w.parentKeys := by rw [parentKeys, hrequests, parentKeys]
  have hmentions : ∀ id, decide (some id ∈ w.parentKeys) = true → w.Mentions id := by
    intro id hid
    obtain ⟨r, hr, hparent⟩ := List.mem_map.1 (of_decide_eq_true hid)
    exact .inr (List.mem_map.2 ⟨r, (List.mem_filter.1 hr).1, hparent⟩)
  -- the keys of both documents differ, but not in those of buckets that are filled
  have hkeys : w'.bucketKeys.filter (· ∈ w.parentKeys) = w.bucketKeys.filter (· ∈ w.parentKeys) := by
    rw [bucketKeys, bucketKeys, ← Table.eraseDups_filter, ← Table.eraseDups_filter,
      List.filter_append, List.filter_append, hparents]
    exact Table.eraseDups_append_congr (eraseDups_keysOf_of_interleaving h hmentions) _
  rw [traversal_eq_filter, traversal_eq_filter, hrequests, hparents, hkeys]

/-! ## The reference

An old path keeps its operation because the request with its name is still the only one, and its
namespace is the same.  Where old requests share a name this does not do: a new request may be the
first to name a parent that is no folder, and with that parent older requests are visited earlier
than before.  Without new requests it is not needed, since then the visits themselves are the
same. -/

/-- A path of the old document keeps its operation, if no two old requests share a name. -/
theorem get?_paths_convert_of_interleaving (hnames : w.requestNames.Nodup) {config : Config}
    {path : String} {op : Operation} (hop : (w.convert config).paths.get? path = some op) :
    (w'.convert config).paths.get? path = some op := by
  have hpath : path ∈ Table.keys (w.convert config).paths.entries :=
    (Table.get?_isSome_iff _ _).1 (Option.isSome_iff_exists.2 ⟨op, hop⟩)
  obtain ⟨name, hname, rfl⟩ := (w.mem_keys_paths_convert config path).1 hpath
  obtain ⟨r, hr, rfl⟩ := mem_requestNames.1 hname
  have honly : w'.requests.filter (·.name = r.name) = [r] := by
    rw [filter_name_of_interleaving h hname, filter_name_eq_singleton hnames hr]
  rw [← hop, get?_paths_convert_of_nodup hnames hr, get?_paths_convert_of_filter_eq honly, operationOf,
    operationOf, namespaceOf_of_interleaving h hr]

theorem mem_tags_convert_of_interleaving {config : Config} {tag : Tag}
    (htag : tag ∈ (w.convert config).tags) : tag ∈ (w'.convert config).tags := by
  obtain ⟨r, hr, rfl⟩ := mem_tags_convert.1 htag
  rw [mem_tags_convert]
  exact ⟨r, mem_requests_of_interleaving h hr, by rw [namespaceOf_of_interleaving h hr]⟩

/-- Without new requests nothing of the reference changes. -/
theorem convert_eq_of_interleaving (hadded : ∀ r ∈ added, r.isRequest = false) (config : Config) :
    w'.convert config = w.convert config := by
  have hvisits : w'.traversal = w.traversal := traversal_of_interleaving h hadded
  have hnamespace : ∀ r ∈ w.traversal, w'.namespaceOf r.parentId = w.namespaceOf r.parentId :=
    fun r hr => namespaceOf_of_interleaving h (w.traversal_perm.mem_iff.1 hr)
  have hnamespaces : w'.visitedNamespaces = w.visitedNamespaces := by
    rw [visitedNamespaces, visitedNamespaces, hvisits]
    exact List.map_congr_left hnamespace
  have hoperations : w'.operations = w.operations := by
    rw [operations, operations, hvisits]
    exact List.map_congr_left fun r hr => congrArg (Operation.ofRequest r) (hnamespace r hr)
  rw [convert, convert, hnamespaces, hoperations]

end Grown

/-- **Growing a workspace does not disturb what is documented.**  If the new folders have ids that
the old document does not mention or repeat that of an old folder before them, and the new requests
have new names, then every old path keeps its operation as long as no two old requests share a name,
every old tag stays, and without new requests the reference is the same, whatever names are
shared. -/
theorem convert_of_interleaving {w w' : Workspace} {added : List Resource}
    (h : Interleaving w.Admits w.resources added w'.resources) (config : Config) :
    (w.requestNames.Nodup → ∀ path op, (w.convert config).paths.get? path = some op →
      (w'.convert config).paths.get? path = some op) ∧
    (∀ tag ∈ (w.convert config).tags, tag ∈ (w'.convert config).tags) ∧
    ((∀ r ∈ added, r.isRequest = false) → w'.convert config = w.convert config) := by
  refine ⟨fun hnames path op hop => ?_, fun tag htag => ?_, fun hadded => ?_⟩
  · exact get?_paths_convert_of_interleaving h hnames hop
  · exact mem_tags_convert_of_interleaving h htag
  · exact convert_eq_of_interleaving h hadded config

/-! ## A grown document

Both kinds of new folders, and then a call in one of them. -/

/-- `sharedNames` with a second folder of id `f` behind the first, and a new folder inside it. -/
def moreFolders : Workspace :=
  ⟨[.call "web3_sha3" none, .folder "f" "ETH" none, .folder "f" "DEBUG" none,
    .folder "x" "TRACE" (some "f"), .folder "g" "ETH" (some "f"), .folder "h" "Other" none,
    .call "eth_call" (some "g"), .call "eth_sign" (some "h")]⟩

/-- `moreFolders` with a call in the new folder. -/
def moreCalls : Workspace := ⟨moreFolders.resources ++ [.call "debug_trace" (some "x")]⟩

/-- The grown document, built from its front to its end. -/
theorem interleaving_moreFolders :
    Interleaving sharedNames.Admits sharedNames.resources
      [.folder "f" "DEBUG" none, .folder "x" "TRACE" (some "f")] moreFolders.resources := by
  have hnil : Interleaving sharedNames.Admits [] [] [] := .nil
  have hold := (hnil.keep (.call "web3_sha3" none)).keep (.folder "f" "ETH" none)
  have hrepeated := hold.add (.folder "f" "DEBUG" none)
    ⟨fun _ => .inr ⟨.folder "f" "ETH" none, by decide⟩, by decide⟩
  have hnew := hrepeated.add (.folder "x" "TRACE" (some "f")) ⟨fun _ => .inl (by decide), by decide⟩
  have hfolders := (hnew.keep (.folder "g" "ETH" (some "f"))).keep (.folder "h" "Other" none)
  exact (hfolders.keep (.call "eth_call" (some "g"))).keep (.call "eth_sign" (some "h"))

/-- The new folders change nothing, and the new call takes no path from an old one. -/
theorem convert_moreFolders :
    sharedNames.requestNames.Nodup ∧
    moreFolders.convert .default = sharedNames.convert .default ∧
    (moreCalls.convert .default).paths.get? "/eth_call" =
      some (.ofRequest (.call "eth_call" (some "g")) (sharedNames.namespaceOf (some "g"))) := by
  have hnames : sharedNames.requestNames.Nodup := by decide
  have hfolders := convert_of_interleaving interleaving_moreFolders .default
  have hgrown :=
    interleaving_moreFolders.add (.call "debug_trace" (some "x")) ⟨by decide, by decide⟩
  have hcalls := @convert_of_interleaving _ moreCalls _ hgrown .default
  refine ⟨hnames, hfolders.2.2 (by decide), hcalls.1 hnames _ _ ?_⟩
  exact get?_paths_convert_of_nodup hnames (r := .call "eth_call" (some "g")) (by decide) .default

end Workspace
end RpcReference
