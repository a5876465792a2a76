import Mathlib.Data.List.Perm.Subperm
import RpcReference.Proofs.Conversion.Paths
import RpcReference.Proofs.Sync.Names

/-!
# The verdict on a reference

What the check says about a reference that was just made, and what a good verdict means.

* `SyncReport.ofDocument_convert` — **a fresh reference is in sync exactly if no two requests share
  a name and no name starts with a slash**; otherwise the report says which names are to blame.
* `SyncReport.agrees_iff_of_isInSync` — a good verdict means that the paths are those of a
  conversion (`SyncReport.Agrees`), **provided that no path starts with two slashes**; if one does,
  it never means that.
* `SyncReport.isInSync_two_slashes` — a reference with such a path that passes the check.
-/

set_option autoImplicit false

namespace RpcReference.SyncReport

/-! ## A fresh reference

A reference that nobody has touched should pass its own check.  The check reads the paths back as
names, by taking off slashes, and compares two counts and two sets.  The paths of a conversion are
the names of the requests, each with one slash in front (`Workspace.mem_keys_paths_convert`), but
the check takes off every slash that it finds.  So for a name that starts with a slash the way back
leads elsewhere: such a name is missing, and what is left of it is extra.

The counts can disagree where the sets do not.  Requests that share a name are counted one by one
and have one path between them, so the number of paths is that of the different names. -/

theorem pathsOf_convert (w : Workspace) (config : Config) :
    pathsOf (w.convert config).toJson = Table.keys (w.convert config).paths.entries := by
  rw [pathsOf_eq (Reference.get?_paths _), Reference.keys_pathMembers]

theorem mem_pathsOf_convert {w : Workspace} {config : Config} {path : String} :
    path ∈ pathsOf (w.convert config).toJson ↔
      ∃ name ∈ w.requestNames, path = Operation.pathOf name := by
  rw [pathsOf_convert, w.mem_keys_paths_convert config]

theorem nodup_pathsOf_convert (w : Workspace) (config : Config) :
    (pathsOf (w.convert config).toJson).Nodup := by
  rw [pathsOf_convert]
  exact PathMap.nodup_keys _

/-- There are as many paths as different names. -/
theorem length_pathsOf_convert (w : Workspace) (config : Config) :
    (pathsOf (w.convert config).toJson).length = w.requestNames.toFinset.card := by
  have himage : (pathsOf (w.convert config).toJson).toFinset =
      w.requestNames.toFinset.image Operation.pathOf := by
    ext path
    simp [mem_pathsOf_convert, eq_comm]
  rw [← List.toFinset_card_of_nodup (nodup_pathsOf_convert w config), himage,
    Finset.card_image_of_injective _ Operation.pathOf_injective]

/-- The check sees the names without their leading slashes. -/
theorem mem_map_nameOfPath_pathsOf_convert {w : Workspace} {config : Config} {name : String} :
    name ∈ (pathsOf (w.convert config).toJson).map nameOfPath ↔
      ∃ n ∈ w.requestNames, nameOfPath n = name := by
  simp only [List.mem_map, mem_pathsOf_convert]
  constructor
  · rintro ⟨_, ⟨n, hn, rfl⟩, rfl⟩
    exact ⟨n, hn, (nameOfPath_pathOf n).symm⟩
  · rintro ⟨n, hn, rfl⟩
    exact ⟨_, ⟨n, hn, rfl⟩, nameOfPath_pathOf n⟩

/-- A list is as long as its set is large exactly if nothing is in it twice. -/
theorem length_eq_card_iff_nodup {names : List String} :
    names.length = names.toFinset.card ↔ names.Nodup := by
  rw [List.card_toFinset, eq_comm]
  exact ⟨fun h => List.dedup_eq_self.1 ((List.dedup_sublist names).eq_of_length h),
    fun h => by rw [List.dedup_eq_self.2 h]⟩

section Convert

variable {w : Workspace} {config : Config} {name : String}

/-- A name is missing exactly if it loses a slash: the names that are left have none. -/
theorem mem_missing_convert :
    name ∈ (SyncReport.ofDocument w (w.convert config).toJson).missing ↔
      name ∈ w.requestNames ∧ StartsWithSlash name := by
  simp only [ofDocument, compare, NameSet.mem_diff, NameSet.mem_ofList,
    mem_map_nameOfPath_pathsOf_convert]
  refine and_congr_right fun hname => ?_
  constructor
  -- a name that loses no slash is found at its own path
  · intro h
    by_contra hslash
    exact h ⟨name, hname, nameOfPath_eq_self_iff.2 hslash⟩
  -- nothing that the check takes for a name starts with a slash
  · rintro hslash ⟨n, -, rfl⟩
    exact not_startsWithSlash_nameOfPath n hslash

/-- A name that loses no slashes is the name of its request, so it is not extra. -/
theorem mem_extra_convert :
    name ∈ (SyncReport.ofDocument w (w.convert config).toJson).extra ↔
      name ∉ w.requestNames ∧ ¬ StartsWithSlash name ∧
        ∃ n ∈ w.requestNames, ∃ k, n.toList = List.replicate (k + 1) '/' ++ name.toList := by
  simp only [ofDocument, compare, NameSet.mem_diff, NameSet.mem_ofList,
    mem_map_nameOfPath_pathsOf_convert, nameOfPath_eq_iff]
  constructor
  · rintro ⟨⟨n, hn, hslash, k, hk⟩, hname⟩
    -- with no slash to lose, the name would be that of the request
    cases k with
    | zero =>
      obtain rfl : n = name := String.toList_injective hk
      exact absurd hn hname
    | succ k => exact ⟨hname, hslash, n, hn, k, hk⟩
  · rintro ⟨hname, hslash, n, hn, k, hk⟩
    exact ⟨⟨n, hn, hslash, k + 1, hk⟩, hname⟩

/-- Equal counts mean that no name is shared, and equal sets that no name loses a slash. -/
theorem isInSync_convert_iff :
    (SyncReport.ofDocument w (w.convert config).toJson).isInSync = true ↔
      w.requestNames.Nodup ∧ ∀ name ∈ w.requestNames, ¬ StartsWithSlash name := by
  rw [ofDocument, isInSync_compare_iff, length_pathsOf_convert, length_eq_card_iff_nodup]
  refine and_congr_right fun _ => ?_
  simp only [mem_map_nameOfPath_pathsOf_convert]
  constructor
  · intro h name hname hslash
    obtain ⟨n, -, rfl⟩ := (h name).1 hname
    exact not_startsWithSlash_nameOfPath n hslash
  · intro h name
    constructor
    · exact fun hname => ⟨name, hname, nameOfPath_eq_self_iff.2 (h name hname)⟩
    · rintro ⟨n, hn, rfl⟩
      rwa [nameOfPath_eq_self_iff.2 (h n hn)]

end Convert

/-- **The report on a fresh reference.**  The missing names are those that start with a slash, the
extra ones are what is left of them without their slashes, unless a request has that name too. -/
theorem ofDocument_convert (w : Workspace) (config : Config) :
    let report := SyncReport.ofDocument w (w.convert config).toJson
    report.requestCount = (w.resources.filter Resource.isRequest).length ∧
    report.pathCount = w.requestNames.toFinset.card ∧
    (∀ name, name ∈ report.missing ↔ name ∈ w.requestNames ∧ StartsWithSlash name) ∧
    (∀ name, name ∈ report.extra ↔ name ∉ w.requestNames ∧ ¬ StartsWithSlash name ∧
      ∃ n ∈ w.requestNames, ∃ k, n.toList = List.replicate (k + 1) '/' ++ name.toList) ∧
    (report.isInSync = true ↔
      w.requestNames.Nodup ∧ ∀ name ∈ w.requestNames, ¬ StartsWithSlash name) := by
  have hrequests : w.requestNames.length = (w.resources.filter Resource.isRequest).length := by
    rw [Workspace.requestNames, Workspace.requests, List.length_map]
  exact ⟨hrequests, length_pathsOf_convert w config, fun _ => mem_missing_convert,
    fun _ => mem_extra_convert, isInSync_convert_iff⟩

/-! ## What a good verdict means

The other way round, a document comes from anywhere, and a good verdict should say that its paths
are those of a conversion.  Read back, they are: as many as the requests, and with the same names.
That the requests have different names need not be asked for.  Paths with one slash are told apart
by their names, so the check counts as many different names as there are paths, and the requests are
no more than that.

What does have to be asked for is that one slash is all that is taken off.  With two slashes a path
reads back like the one with one slash, and the check cannot tell which of them stands in the
document. -/

/-- The requests have different names, and the paths are those of the names. -/
structure Agrees (w : Workspace) (paths : List String) : Prop where
  /-- No two requests share a name. -/
  nodup : w.requestNames.Nodup
  /-- There is a path for each name, and no other path. -/
  mem_iff : ∀ path, path ∈ paths ↔ ∃ name ∈ w.requestNames, path = Operation.pathOf name

/-- Whether the first two characters of a text are slashes. -/
def StartsWithTwoSlashes (text : String) : Prop := ['/', '/'] <+: text.toList

instance (text : String) : Decidable (StartsWithTwoSlashes text) :=
  inferInstanceAs (Decidable (['/', '/'] <+: text.toList))

@[simp] theorem startsWithTwoSlashes_pathOf {name : String} :
    StartsWithTwoSlashes (Operation.pathOf name) ↔ StartsWithSlash name := by
  rw [StartsWithTwoSlashes, StartsWithSlash, Operation.toList_pathOf, List.cons_prefix_cons,
    and_iff_right rfl, List.singleton_prefix_iff_head?_eq_some]

/-- The name of a path gives the path back if one slash leads it and no more. -/
theorem pathOf_nameOfPath {path : String} (hslash : StartsWithSlash path)
    (hone : ¬ StartsWithTwoSlashes path) : Operation.pathOf (nameOfPath path) = path := by
  obtain ⟨name, rfl⟩ := startsWithSlash_iff.1 hslash
  rw [startsWithTwoSlashes_pathOf] at hone
  rw [nameOfPath_pathOf, nameOfPath_eq_self_iff.2 hone]

section Verdict

variable {w : Workspace} {paths : List String}

/-- Duplicates on the side of the requests would need as many paths of the same name, and paths with
one slash have different names. -/
theorem agrees_of_isInSync (hnodup : paths.Nodup) (hslash : ∀ path ∈ paths, StartsWithSlash path)
    (hone : ∀ path ∈ paths, ¬ StartsWithTwoSlashes path)
    (hsync : (compare w.requestNames paths).isInSync = true) : Agrees w paths := by
  obtain ⟨hlength, hnames⟩ := isInSync_compare_iff.1 hsync
  have hback : ∀ path ∈ paths, Operation.pathOf (nameOfPath path) = path := fun path hpath =>
    pathOf_nameOfPath (hslash path hpath) (hone path hpath)
  -- paths with one slash are told apart by their names
  have hpathNames : (paths.map nameOfPath).Nodup := by
    refine hnodup.map_on fun path hpath other hother heq => ?_
    rw [← hback path hpath, heq, hback other hother]
  -- different names, all of them of requests, and as many as there are requests: each request is
  -- met once
  have hperm : (paths.map nameOfPath).Perm w.requestNames := by
    refine (hpathNames.subperm fun name hname => (hnames name).2 hname).perm_of_length_le ?_
    rw [List.length_map, hlength]
  refine ⟨hperm.nodup_iff.1 hpathNames, fun path => ⟨fun hpath => ?_, ?_⟩⟩
  · exact ⟨nameOfPath path, (hnames _).2 (List.mem_map_of_mem hpath), (hback path hpath).symm⟩
  · rintro ⟨name, hname, rfl⟩
    obtain ⟨path, hpath, rfl⟩ := List.mem_map.1 ((hnames name).1 hname)
    rwa [hback path hpath]

/-- Paths that are those of names without slashes pass the check. -/
theorem Agrees.isInSync (hnodup : paths.Nodup) (hone : ∀ path ∈ paths, ¬ StartsWithTwoSlashes path)
    (hagrees : Agrees w paths) : (compare w.requestNames paths).isInSync = true := by
  -- a name with a slash would have a path with two
  have hname : ∀ name ∈ w.requestNames, nameOfPath name = name := by
    intro name hname
    have hpath := hone _ ((hagrees.mem_iff _).2 ⟨name, hname, rfl⟩)
    exact nameOfPath_eq_self_iff.2 fun h => hpath (startsWithTwoSlashes_pathOf.2 h)
  have hperm : paths.Perm (w.requestNames.map Operation.pathOf) := by
    refine (List.perm_ext_iff_of_nodup hnodup
      (hagrees.nodup.map Operation.pathOf_injective)).2 fun path => ?_
    rw [hagrees.mem_iff, List.mem_map]
    exact exists_congr fun name => and_congr_right fun _ => eq_comm
  refine isInSync_compare_iff.2 ⟨by simpa using hperm.length_eq.symm, fun name => ?_⟩
  rw [(hperm.map nameOfPath).mem_iff, List.map_map, List.mem_map]
  constructor
  · exact fun h => ⟨name, h, by rw [Function.comp, nameOfPath_pathOf, hname name h]⟩
  · rintro ⟨n, hn, rfl⟩
    rwa [Function.comp, nameOfPath_pathOf, hname n hn]

/-- A path with two slashes is that of a name with one, which is then found missing. -/
theorem Agrees.not_startsWithTwoSlashes (hagrees : Agrees w paths)
    (hsync : (compare w.requestNames paths).isInSync = true) :
    ∀ path ∈ paths, ¬ StartsWithTwoSlashes path := by
  intro path hpath htwo
  obtain ⟨name, hname, rfl⟩ := (hagrees.mem_iff path).1 hpath
  obtain ⟨other, -, rfl⟩ := List.mem_map.1 (((isInSync_compare_iff.1 hsync).2 name).1 hname)
  exact not_startsWithSlash_nameOfPath other (startsWithTwoSlashes_pathOf.1 htwo)

/-- **What a good verdict is worth.**  In a document whose paths all start with a slash, the paths
of a good verdict are those of a conversion exactly if none of them starts with two slashes; and
without such paths nothing else gets a good verdict.  That no path stands twice is so in every
document that was read (`Json.proper_of_parse`). -/
theorem agrees_iff_of_isInSync {document : Json} {members : Table String Json}
    (hpaths : document.get? "paths" = some (.object members))
    (hnodup : (Table.keys members).Nodup)
    (hslash : ∀ path ∈ Table.keys members, StartsWithSlash path) (config : Config) :
    ((SyncReport.ofDocument w document).isInSync = true →
      (Agrees w (Table.keys members) ↔
        ∀ path ∈ Table.keys members, ¬ StartsWithTwoSlashes path)) ∧
    ((∀ path ∈ Table.keys members, ¬ StartsWithTwoSlashes path) →
      Agrees w (Table.keys members) → (SyncReport.ofDocument w document).isInSync = true) ∧
    (Agrees w (Table.keys members) →
      ∀ path, path ∈ Table.keys members ↔ path ∈ pathsOf (w.convert config).toJson) := by
  have hreport : SyncReport.ofDocument w document =
      compare w.requestNames (Table.keys members) := by
    rw [ofDocument, pathsOf_eq hpaths]
  rw [hreport]
  refine ⟨fun hsync => ⟨fun h => h.not_startsWithTwoSlashes hsync, fun hone => ?_⟩,
    fun hone h => h.isInSync hnodup hone, fun h path => ?_⟩
  · exact agrees_of_isInSync hnodup hslash hone hsync
  · rw [h.mem_iff, mem_pathsOf_convert]

end Verdict

/-! ## Two documents

One passes the check and deserves to: its paths agree with the requests.  In the other a slash too
many stands in front of the only path, and the verdict is the same. -/

/-- A workspace with requests of the given names. -/
def workspaceOf (names : List String) : Workspace :=
  ⟨names.map fun name =>
    Resource.ofJson (.object [("_type", .string "request"), ("name", .string name)])⟩

/-- A document with the given paths. -/
def documentOf (paths : List String) : Json :=
  .object [("paths", .object (paths.map fun path => (path, .object [])))]

/-- The paths and the requests may stand in different orders. -/
theorem agrees_two_paths :
    (documentOf ["/a", "/b"]).get? "paths" = some (.object [("/a", .object []), ("/b", .object [])]) ∧
    (SyncReport.ofDocument (workspaceOf ["b", "a"]) (documentOf ["/a", "/b"])).isInSync = true ∧
    Agrees (workspaceOf ["b", "a"]) ["/a", "/b"] := by
  have hpaths : (documentOf ["/a", "/b"]).get? "paths" =
    some (.object [("/a", .object []), ("/b", .object [])]) := rfl
  have hsync : (SyncReport.ofDocument (workspaceOf ["b", "a"])
    (documentOf ["/a", "/b"])).isInSync = true := by decide
  have h := agrees_iff_of_isInSync (w := workspaceOf ["b", "a"]) hpaths (by decide) (by decide)
    Config.default
  exact ⟨hpaths, hsync, (h.1 hsync).2 (by decide)⟩

/-- **A path with two slashes passes the check in place of the one with one slash.** -/
theorem isInSync_two_slashes :
    (∀ path ∈ pathsOf (documentOf ["//a"]), StartsWithSlash path) ∧
    (SyncReport.ofDocument (workspaceOf ["a"]) (documentOf ["//a"])).isInSync = true ∧
    (workspaceOf ["a"]).requestNames = ["a"] ∧ pathsOf (documentOf ["//a"]) = ["//a"] ∧
    ¬ Agrees (workspaceOf ["a"]) (pathsOf (documentOf ["//a"])) := by
  refine ⟨by decide, by decide, by decide, by decide, fun h => ?_⟩
  exact absurd ((h.mem_iff "/a").2 ⟨"a", by decide, rfl⟩) (by decide)

end RpcReference.SyncReport
