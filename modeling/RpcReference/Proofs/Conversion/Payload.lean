import RpcReference.Proofs.Conversion.Tags

/-!
# The payload of one request

A request is filed by its parent and its name.  Its description and its body are its payload, which
may be anything: a body that is no JSON, or none at all.

* `Resource.withPayload` — a request with another payload.
* `Workspace.exists_split_traversal` — **the visits before and after a request do not depend on its
  payload**.
* `Workspace.convert_withPayload` — so a change of payload shows in the operation of that request
  and nowhere else, and not even there if a later visit finds another request with its name.
-/

set_option autoImplicit false

namespace RpcReference

/-- A resource with another description and another body. -/
def Resource.withPayload (r : Resource) (description : Option String) (body : Option RequestBody) :
    Resource :=
  { r with description := description, body := body }

/-- Two operations that say the same about where they are filed and what they are called. -/
structure Operation.SameHead (op op' : Operation) : Prop where
  /-- They have the same path. -/
  path_eq : op'.path = op.path
  /-- They are listed under the same namespace. -/
  namespaceName_eq : op'.namespaceName = op.namespaceName
  /-- They have the same name. -/
  summary_eq : op'.summary = op.summary
  /-- They have the same id. -/
  operationId_eq : op'.operationId = op.operationId

theorem Operation.SameHead.refl (op : Operation) : op.SameHead op := ⟨rfl, rfl, rfl, rfl⟩

/-! ## One operation in the place of another

A reference holds its operations under their paths.  An operation that is replaced by one of the
same path leaves the paths as they are; what becomes of the operation at that path depends on
whether a later one has it, too.  Then neither of the two was ever seen. -/

namespace PathMap

variable {before after : List Operation} {op op' : Operation}

/-- There are the same paths. -/
theorem keys_ofList_replaced (h : op.SameHead op') :
    Table.keys (ofList (before ++ op' :: after)).entries =
      Table.keys (ofList (before ++ op :: after)).entries := by
  refine keys_ofList_congr ?_
  rw [List.map_append, List.map_append, List.map_cons, List.map_cons, h.path_eq]

/-- At other paths nothing changes. -/
theorem get?_ofList_replaced_of_ne (h : op.SameHead op') {path : String} (hne : path ≠ op.path) :
    (ofList (before ++ op' :: after)).get? path = (ofList (before ++ op :: after)).get? path := by
  rw [get?_ofList_of_ne hne, get?_ofList_of_ne (h.path_eq ▸ hne)]

/-- **Nothing changes if a later operation has the same path.** -/
theorem ofList_replaced_of_later (h : op.SameHead op')
    (hlater : ∃ later ∈ after, later.path = op.path) :
    ofList (before ++ op' :: after) = ofList (before ++ op :: after) := by
  refine ext_get? fun path => ?_
  by_cases hpath : path = op.path
  · subst hpath
    rw [get?_ofList_of_later hlater, get?_ofList_of_later hlater]
  · exact get?_ofList_replaced_of_ne h hpath

/-- At the path itself there is an operation as before, which is called the same. -/
theorem exists_sameHead_ofList_replaced (h : op.SameHead op') :
    ∃ found found', (ofList (before ++ op :: after)).get? op.path = some found ∧
      (ofList (before ++ op' :: after)).get? op.path = some found' ∧ found.SameHead found' := by
  by_cases hlater : ∃ later ∈ after, later.path = op.path
  · have hpath : op.path ∈ Table.keys (ofList (before ++ op :: after)).entries :=
      mem_keys_ofList.2 ⟨op, by simp, rfl⟩
    obtain ⟨found, hfound⟩ := Option.isSome_iff_exists.1 ((Table.get?_isSome_iff _ _).2 hpath)
    refine ⟨found, found, hfound, ?_, .refl found⟩
    rw [ofList_replaced_of_later h hlater]
    exact hfound
  · have hlast : ∀ later ∈ after, later.path ≠ op.path :=
      fun later hmem hpath => hlater ⟨later, hmem, hpath⟩
    have hfound' : (ofList (before ++ op' :: after)).get? op'.path = some op' :=
      get?_ofList_of_last (h.path_eq ▸ hlast)
    rw [h.path_eq] at hfound'
    exact ⟨op, op', get?_ofList_of_last hlast, hfound', h⟩

end PathMap

namespace Workspace

section Payload

variable {before after : List Resource} {r : Resource} (description : Option String)
  (body : Option RequestBody)

/-- A workspace with a resource between those before and those after it. -/
def around (before : List Resource) (r : Resource) (after : List Resource) : Workspace :=
  ⟨before ++ r :: after⟩

/-! ## What does not depend on the payload

Folders, parents and types are read without looking at descriptions and bodies.  So are namespaces
and the keys of the buckets, which are made of nothing else. -/

/-- A request is no folder. -/
theorem groups_around (hr : r.isRequest = true) :
    (around before r after).groups = (before ++ after).filter Resource.isGroup := by
  have hgroup : ¬ r.isGroup = true := by
    rw [Resource.isRequest, decide_eq_true_iff] at hr
    simp [Resource.isGroup, hr]
  rw [groups, around, List.filter_append, List.filter_cons_of_neg hgroup, ← List.filter_append]

theorem requests_around (hr : r.isRequest = true) :
    (around before r after).requests =
      before.filter Resource.isRequest ++ r :: after.filter Resource.isRequest := by
  rw [requests, around, List.filter_append, List.filter_cons_of_pos hr]

theorem namespaceOf_around (hr : r.isRequest = true) :
    (around before (r.withPayload description body) after).namespaceOf =
      (around before r after).namespaceOf := by
  refine namespaceOf_congr ?_
  rw [groups_around hr, groups_around (r := r.withPayload description body) hr]

/-- The keys of the buckets are ids and parents. -/
theorem bucketKeys_around (hr : r.isRequest = true) :
    (around before (r.withPayload description body) after).bucketKeys =
      (around before r after).bucketKeys := by
  rw [bucketKeys, bucketKeys, groupKeys, groupKeys, parentKeys, parentKeys, groups_around hr,
    groups_around (r := r.withPayload description body) hr, requests_around hr,
    requests_around (r := r.withPayload description body) hr, List.map_append, List.map_append]
  rfl

/-! ## The place of a request in the visits

The visits are given bucket by bucket.  The request is in the bucket of its parent, between the
requests with that parent that stand before it and behind it; the other buckets do not have it, and
are what they would be without it.  So the visits fall into three parts, and the first and the last
are stated without the request: only then are they the same for every payload. -/

/-- The requests with a parent, in document order. -/
def requestsIn (key : Option String) (resources : List Resource) : List Resource :=
  (resources.filter Resource.isRequest).filter fun s => s.parentId = key

theorem traversal_around (before after : List Resource) (r : Resource) :
    (around before r after).traversal =
      (around before r after).bucketKeys.flatMap fun key => requestsIn key (before ++ r :: after) :=
  traversal_eq _

/-- The bucket of its parent holds a request between others. -/
theorem requestsIn_self (before after : List Resource) (hr : r.isRequest = true) :
    requestsIn r.parentId (before ++ r :: after) =
      requestsIn r.parentId before ++ r :: requestsIn r.parentId after := by
  rw [requestsIn, List.filter_append, List.filter_append, List.filter_cons_of_pos hr,
    List.filter_cons_of_pos (by simp)]
  rfl

/-- The other buckets do not hold it. -/
theorem flatMap_requestsIn_of_not_mem (before after : List Resource) (hr : r.isRequest = true)
    {keys : List (Option String)} (hkeys : r.parentId ∉ keys) :
    (keys.flatMap fun key => requestsIn key (before ++ r :: after)) =
      keys.flatMap fun key => requestsIn key (before ++ after) := by
  refine List.flatMap_congr fun key hkey => ?_
  have hne : r.parentId ≠ key := fun heq => hkeys (heq ▸ hkey)
  rw [requestsIn, requestsIn, List.filter_append, List.filter_append, List.filter_append,
    List.filter_append, List.filter_cons_of_pos hr, List.filter_cons_of_neg (by simpa using hne)]

/-- **The visits before and after a request do not depend on its payload.** -/
theorem exists_split_traversal (before after : List Resource) (hr : r.isRequest = true) :
    ∃ earlier later, ∀ description body,
      (around before (r.withPayload description body) after).traversal =
        earlier ++ r.withPayload description body :: later := by
  have hmem : r ∈ (around before r after).requests := by simp [requests_around hr]
  obtain ⟨first, last, hkeys, hfirst, hlast⟩ :=
    exists_split_bucketKeys (parentId_mem_bucketKeys hmem)
  -- the other requests alone give the buckets before and after, whatever the payload is
  refine ⟨(first.flatMap fun key => requestsIn key (before ++ after)) ++ requestsIn r.parentId before,
    requestsIn r.parentId after ++ last.flatMap fun key => requestsIn key (before ++ after), ?_⟩
  intro description body
  have hedited : (r.withPayload description body).isRequest = true := hr
  have hown : requestsIn r.parentId (before ++ r.withPayload description body :: after) =
      requestsIn r.parentId before ++
        r.withPayload description body :: requestsIn r.parentId after :=
    requestsIn_self before after hedited
  rw [traversal_around, bucketKeys_around description body hr, hkeys, List.flatMap_append,
    List.flatMap_cons, flatMap_requestsIn_of_not_mem before after hedited hfirst, hown,
    flatMap_requestsIn_of_not_mem before after hedited hlast]
  simp only [List.append_assoc, List.cons_append]

/-! ## The reference

The operations are those of the visits.  All but one of them are the same as before, and that one
has the same path, namespace, name and id, whatever its payload. -/

/-- What an operation is called and where it is filed comes from its parent and its name. -/
theorem sameHead_operationOf (hr : r.isRequest = true) :
    ((around before r after).operationOf r).SameHead
      ((around before (r.withPayload description body) after).operationOf
        (r.withPayload description body)) where
  path_eq := rfl
  namespaceName_eq := congrFun (namespaceOf_around description body hr) r.parentId
  summary_eq := rfl
  operationId_eq := rfl

/-- The visited operations, where those of the visits before and after a request are given. -/
theorem exists_split_operations (before after : List Resource) (hr : r.isRequest = true) :
    ∃ earlier later, ∀ description body,
      (around before (r.withPayload description body) after).traversal =
        earlier ++ r.withPayload description body :: later ∧
      (around before (r.withPayload description body) after).operations =
        earlier.map (around before r after).operationOf ++
          (around before (r.withPayload description body) after).operationOf
              (r.withPayload description body) ::
            later.map (around before r after).operationOf := by
  obtain ⟨earlier, later, hvisits⟩ := exists_split_traversal before after hr
  refine ⟨earlier, later, fun description body => ⟨hvisits description body, ?_⟩⟩
  have hop : (around before (r.withPayload description body) after).operationOf =
      (around before r after).operationOf := by
    funext s
    rw [operationOf, operationOf, namespaceOf_around description body hr]
  rw [operations_eq, hvisits, hop, List.map_append, List.map_cons]

end Payload

/-- **A change of payload stays with its request.**  The visits before and after the request are the
same as before, and so are the paths, the tags and every operation at another path.  At the path of
the request there is an operation with the same path, namespace, name and id; and it is the same
altogether if a later visit finds a request with that name. -/
theorem convert_withPayload (before after : List Resource) {r : Resource} (hr : r.isRequest = true)
    (config : Config) :
    let w := around before r after
    ∃ earlier later, w.traversal = earlier ++ r :: later ∧ ∀ description body,
      let w' := around before (r.withPayload description body) after
      w'.traversal = earlier ++ r.withPayload description body :: later ∧
      Table.keys (w'.convert config).paths.entries = Table.keys (w.convert config).paths.entries ∧
      (w'.convert config).tags = (w.convert config).tags ∧
      (∀ path, path ≠ Operation.pathOf r.name →
        (w'.convert config).paths.get? path = (w.convert config).paths.get? path) ∧
      (∃ op op', (w.convert config).paths.get? (Operation.pathOf r.name) = some op ∧
        (w'.convert config).paths.get? (Operation.pathOf r.name) = some op' ∧ op.SameHead op') ∧
      ((∃ s ∈ later, s.name = r.name) → (w'.convert config).paths = (w.convert config).paths) := by
  intro w
  obtain ⟨earlier, later, hsplit⟩ := exists_split_operations before after hr
  obtain ⟨hvisits, hops⟩ : w.traversal = _ ∧ w.operations = _ := hsplit r.description r.body
  refine ⟨earlier, later, hvisits, fun description body => ?_⟩
  intro w'
  obtain ⟨hvisits', hops'⟩ : w'.traversal = _ ∧ w'.operations = _ := hsplit description body
  have hhead : (w.operationOf r).SameHead (w'.operationOf (r.withPayload description body)) :=
    sameHead_operationOf description body hr
  -- the tags come from the parents of the visited requests
  have htags : (w'.convert config).tags = (w.convert config).tags := by
    have hnamespaces : w'.visitedNamespaces = w.visitedNamespaces := by
      rw [visitedNamespaces, visitedNamespaces, hvisits, hvisits',
        namespaceOf_around description body hr, List.map_append, List.map_append]
      rfl
    rw [tags_convert_eq, tags_convert_eq, hnamespaces]
  simp only [paths_convert_eq, hops, hops']
  refine ⟨hvisits', PathMap.keys_ofList_replaced hhead, htags, fun path hpath => ?_, ?_, ?_⟩
  · exact PathMap.get?_ofList_replaced_of_ne hhead hpath
  · exact PathMap.exists_sameHead_ofList_replaced hhead
  · rintro ⟨s, hs, hname⟩
    exact PathMap.ofList_replaced_of_later hhead
      ⟨w.operationOf s, List.mem_map_of_mem hs, congrArg Operation.pathOf hname⟩

/-- A call in a folder gets a body that is no JSON.  A call with the same name outside the folder is
visited later, so none of it shows. -/
theorem convert_withPayload_hidden :
    let r := Resource.call "eth_call" (some "f")
    let w := around [.folder "f" "ETH" none] r [.call "eth_call" none]
    let w' := around [.folder "f" "ETH" none] (r.withPayload none (some ⟨some "nul"⟩))
      [.call "eth_call" none]
    r.isRequest = true ∧ (w'.convert .default).paths = (w.convert .default).paths ∧
      (w'.convert .default).tags = (w.convert .default).tags := by
  intro r w w'
  have hr : r.isRequest = true := by decide
  obtain ⟨earlier, later, hvisits, h⟩ :=
    convert_withPayload [.folder "f" "ETH" none] [.call "eth_call" none] hr .default
  obtain ⟨-, -, htags, -, -, hhidden⟩ := h none (some ⟨some "nul"⟩)
  refine ⟨hr, hhidden ⟨.call "eth_call" none, ?_, rfl⟩, htags⟩
  have hboth : [r, .call "eth_call" none] = earlier ++ r :: later := hvisits
  cases earlier with
  | nil => simp [(List.cons.inj hboth).2.symm]
  | cons first rest =>
    have hmem : r ∈ [Resource.call "eth_call" none] := by simp [(List.cons.inj hboth).2]
    exact absurd hmem (by decide)

end Workspace
end RpcReference
