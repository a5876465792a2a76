import RpcReference.Proofs.Conversion.Effects
import RpcReference.Proofs.Conversion.Tags
import RpcReference.Proofs.Document.Examples
import RpcReference.Proofs.Sync.Verdict

/-!
# The summary of a conversion

The summary is made from the reference, after requests with one name have replaced each other, and
not from the requests.  It is compared here with the document that was written and with the
workspace.

* `Workspace.mem_replacedBodies_iff` — a name is reported exactly if **the last request with that
  name has a body text that is no JSON**; what an earlier one holds does not matter.
* `ConversionSummary.Describes` — how a summary agrees with a workspace and a document.
* `FileTree.convertFile_summary` — the summary of a conversion agrees with the workspace that was
  loaded and the document that is in the file afterwards.
* `FileTree.exists_text_of_convertFile` — **it agrees with what is read from a JSON file**, too.
-/

set_option autoImplicit false

namespace RpcReference

/-! ## Names and parts of operations

A summary speaks of names, and a reference has paths and operations.  Names are told from paths by a
slash that all of them have in front, which leaves their order as it is.  Whether a body was
replaced is marked on the operation, and the mark goes back to the text of the request. -/

namespace Operation

/-- Paths are ordered as their names are. -/
theorem pathOf_lt_pathOf_iff {a b : String} : pathOf a < pathOf b ↔ a < b := by
  rw [← Text.codePoints_lt_iff, ← Text.codePoints_lt_iff, Text.codePoints, Text.codePoints,
    toList_pathOf, toList_pathOf, List.map_cons, List.map_cons, List.cons_lt_cons_self]
  rfl

/-- The body of a request is replaced exactly if there is a body text and it is no JSON: without one
the body is an empty object. -/
theorem bodyReplaced_ofRequest_iff {r : Resource} {namespaceName : String} :
    (ofRequest r namespaceName).bodyReplaced = true ↔
      ∃ text error, r.body.bind RequestBody.text = some text ∧ Json.parse text = .error error := by
  -- a request without a body text has the empty object for one, and that is read
  have hempty : parseBody Resource.emptyBodyText = (.object [], false) := by rfl
  change (parseBody ((r.body.bind RequestBody.text).getD Resource.emptyBodyText)).2 = true ↔ _
  cases r.body.bind RequestBody.text with
  | none => simp [hempty]
  | some text =>
    rw [Option.getD_some]
    cases hparse : Json.parse text with
    | ok value => simp [parseBody_eq_of_ok hparse, hparse]
    | error error => simp [parseBody_eq_of_error hparse, hparse]

end Operation

/-- What keys lead to under a path of a reference. -/
theorem Reference.follow?_path (reference : Reference) (path : String) (keys : List String) :
    reference.toJson.follow? ("paths" :: path :: "post" :: keys) =
      (reference.paths.get? path).bind fun op => op.toJson.follow? keys := by
  rw [Json.follow?, get?_paths, Option.bind_some, Json.follow?]
  change (Table.get? path reference.pathMembers).bind _ = _
  rw [get?_pathMembers, Option.bind_map]
  rfl

/-! ## What is reported

The names are taken from the operations of the reference.  Under a path there is one operation, that
of the last request with the name, so a broken body of an earlier one is never looked at.  The
reports therefore cannot be counted over the requests; each of them goes through the operation that
its path has. -/

namespace Workspace

variable {w : Workspace} {config : Config} {output : Path} {name : String}

/-- **A name is reported exactly if the last request with it has a body text that is no JSON.** -/
theorem mem_replacedBodies_iff :
    name ∈ (ConversionSummary.ofReference (w.convert config) output).replacedBodies ↔
      ∃ r text error, (w.traversal.filter (·.name = name)).getLast? = some r ∧
        r.body.bind RequestBody.text = some text ∧ Json.parse text = .error error := by
  have hget := w.get?_paths_convert config name
  constructor
  · intro h
    obtain ⟨op, hop, rfl⟩ := List.mem_map.1 h
    obtain ⟨hmem, hreplaced⟩ := List.mem_filter.1 hop
    obtain ⟨r, -, rfl⟩ := exists_operationOf_eq hmem
    -- the operation is the one at its path, and the last request with the name has that one
    have hown : (w.convert config).paths.get? (Operation.pathOf r.name) = some (w.operationOf r) :=
      PathMap.get?_path_of_mem_operations_ofList hmem
    obtain ⟨last, hlast, heq⟩ := Option.map_eq_some_iff.1 (hget.symm.trans hown)
    rw [← heq] at hreplaced
    obtain ⟨text, error, htext, herror⟩ := Operation.bodyReplaced_ofRequest_iff.1 hreplaced
    exact ⟨last, text, error, hlast, htext, herror⟩
  · rintro ⟨r, text, error, hlast, htext, herror⟩
    rw [hlast, Option.map_some] at hget
    have hreplaced : (w.operationOf r).bodyReplaced = true :=
      Operation.bodyReplaced_ofRequest_iff.2 ⟨text, error, htext, herror⟩
    have hname : (w.operationOf r).summary = name :=
      of_decide_eq_true (List.mem_filter.1 (List.mem_of_getLast? hlast)).2
    refine List.mem_map.2 ⟨_, List.mem_filter.2 ⟨?_, hreplaced⟩, hname⟩
    exact PathMap.mem_operations_iff.2 ⟨_, hget⟩

/-- The names are reported in the order of their paths. -/
theorem pairwise_replacedBodies (w : Workspace) (config : Config) (output : Path) :
    (ConversionSummary.ofReference (w.convert config) output).replacedBodies.Pairwise (· < ·) := by
  have hpath : ∀ op ∈ (w.convert config).paths.operations, op.path = Operation.pathOf op.summary := by
    intro op hop
    obtain ⟨r, -, rfl⟩ := exists_operationOf_eq hop
    rfl
  have hpaths := (PathMap.pairwise_path_operations_ofList w.operations).filter (·.bodyReplaced)
  refine List.pairwise_map.2 (hpaths.imp_of_mem fun {op op'} hop hop' hlt => ?_)
  rw [hpath op (List.mem_filter.1 hop).1, hpath op' (List.mem_filter.1 hop').1] at hlt
  exact Operation.pathOf_lt_pathOf_iff.1 hlt

/-- At the path of a name that is reported stand the examples of an empty body. -/
theorem follow?_of_mem_replacedBodies
    (h : name ∈ (ConversionSummary.ofReference (w.convert config) output).replacedBodies) :
    (w.convert config).toJson.follow?
        ("paths" :: Operation.pathOf name :: "post" :: Operation.exampleKeys) = some (.object []) ∧
      (w.convert config).toJson.follow?
        ("paths" :: Operation.pathOf name :: "post" :: Operation.paramsKeys) = some (.array []) := by
  obtain ⟨r, text, error, hlast, htext, herror⟩ := mem_replacedBodies_iff.1 h
  have hbody : r.bodyText = text := by rw [Resource.bodyText, htext, Option.getD_some]
  have hshows := Operation.shows_ofRequest r (w.namespaceOf r.parentId)
  obtain ⟨hexample, -⟩ := hshows.example_of_error error (hbody ▸ herror)
  have hparams : (w.operationOf r).params = .array [] := by
    change Operation.paramsOf (Operation.parseBody r.bodyText).1 = _
    rw [hbody, Operation.parseBody_eq_of_error herror]
    rfl
  rw [Reference.follow?_path, Reference.follow?_path, get?_paths_convert, hlast]
  refine ⟨hexample, ?_⟩
  rw [Option.map_some, Option.bind_some, Operation.follow?_paramsKeys, hparams]

end Workspace

/-! ## Summaries that agree

Everything that a summary tells is gathered in one structure, over a workspace and any document.
The document is the value of the reference first.  What is read from the file is another value, and
the same structure can be asked of it. -/

/-- **How a summary agrees** with a workspace and the document that was made of it. -/
structure ConversionSummary.Describes (summary : ConversionSummary) (w : Workspace) (document : Json) :
    Prop where
  /-- The endpoints are the members of the object of paths. -/
  endpoints : ∃ members, document.get? "paths" = some (.object members) ∧
    (Table.keys members).Nodup ∧ summary.endpointCount = members.length
  /-- There are as many as there are different names of requests. -/
  names : summary.endpointCount = w.requestNames.toFinset.card
  /-- The tags are those of the document. -/
  tags : ∃ tags, document.get? "tags" = some (.array tags) ∧ summary.tagCount = tags.length
  /-- The reported names are in increasing order, so none is there twice. -/
  increasing : summary.replacedBodies.Pairwise fun a b => Text.codePoints a < Text.codePoints b
  /-- A name is reported if the last request with it has a body text that is no JSON, and not
  otherwise. -/
  reported : ∀ name, name ∈ summary.replacedBodies ↔ ∃ r text error,
    (w.traversal.filter (·.name = name)).getLast? = some r ∧
      r.body.bind RequestBody.text = some text ∧ Json.parse text = .error error
  /-- The document shows an empty object for it, and no parameters. -/
  examples : ∀ name ∈ summary.replacedBodies,
    document.follow? ("paths" :: ("/" ++ name) :: "post" :: Operation.exampleKeys) =
      some (.object []) ∧
    document.follow? ("paths" :: ("/" ++ name) :: "post" :: Operation.paramsKeys) = some (.array [])

/-- The summary of a reference agrees with its workspace and its value. -/
theorem Workspace.describes_ofReference (w : Workspace) (config : Config) (output : Path) :
    (ConversionSummary.ofReference (w.convert config) output).Describes w
      (w.convert config).toJson where
  endpoints := by
    refine ⟨_, Reference.get?_paths _, ?_, ?_⟩
    · rw [Reference.keys_pathMembers]
      exact PathMap.nodup_keys _
    · exact (List.length_map _).symm
  names := by
    rw [← SyncReport.length_pathsOf_convert w config, SyncReport.pathsOf_convert]
    exact (List.length_map _).symm
  tags := ⟨_, rfl, (List.length_map _).symm⟩
  increasing := (w.pairwise_replacedBodies config output).imp Text.codePoints_lt_iff.2
  reported _ := mem_replacedBodies_iff
  examples _ := follow?_of_mem_replacedBodies

namespace FileTree

/-- A conversion that succeeds has loaded a workspace, has written the text of its reference, and
tells of that reference. -/
theorem exists_reference_of_convertFile {tree after : FileTree} {input output : Path} {config : Config}
    {summary : ConversionSummary}
    (hconvert : tree.run (convertFile input output config) = (.ok summary, after)) :
    ∃ w, tree.run (Workspace.load input) = (.ok w, tree) ∧
      after.document output = .ok ((w.convert config).render (.ofPath output)) ∧
      summary = .ofReference (w.convert config) output := by
  obtain ⟨w, text, hdocument, hparse, hsave, rfl⟩ := run_convertFile_eq_ok.1 hconvert
  obtain ⟨mid, hroom, hput⟩ := run_save_eq_ok.1 hsave
  obtain ⟨_, hwritten⟩ := exists_written hroom hput
  refine ⟨w, ?_, hwritten.document_eq, rfl⟩
  rw [run_load, hdocument, Except.bind, hparse]

/-- **The summary of a conversion agrees with what was written.**  It tells of the workspace that
was loaded, and of the value whose text is in the file afterwards, in the format that the name of
the file asks for. -/
theorem convertFile_summary {tree after : FileTree} {input output : Path} {config : Config}
    {summary : ConversionSummary}
    (hconvert : tree.run (convertFile input output config) = (.ok summary, after)) :
    ∃ w, tree.run (Workspace.load input) = (.ok w, tree) ∧
      after.document output = .ok ((w.convert config).render (.ofPath output)) ∧
      summary.Describes w (w.convert config).toJson ∧ summary.output = output := by
  obtain ⟨w, hload, hdocument, rfl⟩ := exists_reference_of_convertFile hconvert
  exact ⟨w, hload, hdocument, w.describes_ofReference config output, rfl⟩

end FileTree

/-! ## What a reader of the file sees

So far the summary agrees with the reference in memory.  What a JSON file holds is read back with
other floating point numbers at most, and nothing that a summary tells of is one of them.  So the
summary agrees with what is in the file as well, wherever the file can be read at all. -/

/-- Keys lead to the same place, where the numbers are changed in the same way. -/
theorem Json.follow?_mapFloats (f : Binary64 → Binary64) (keys : List String) (v : Json) :
    (v.mapFloats f).follow? keys = (v.follow? keys).map (mapFloats f) := by
  induction keys generalizing v with
  | nil => rfl
  | cons key keys ih =>
    rw [follow?, follow?, get?_mapFloats]
    cases v.get? key with
    | none => rfl
    | some member => exact ih member

/-- **No part of a summary is a floating point number.** -/
theorem ConversionSummary.Describes.mapFloats {summary : ConversionSummary} {w : Workspace}
    {document : Json} (h : summary.Describes w document) (f : Binary64 → Binary64) :
    summary.Describes w (document.mapFloats f) where
  endpoints := by
    obtain ⟨members, hpaths, hnodup, hcount⟩ := h.endpoints
    refine ⟨members.map fun member => (member.1, member.2.mapFloats f), ?_, ?_, ?_⟩
    · rw [Json.get?_mapFloats, hpaths, Option.map_some, Json.mapFloats_object]
    · rwa [Table.keys, List.map_map]
    · rw [hcount, List.length_map]
  names := h.names
  tags := by
    obtain ⟨tags, htags, hcount⟩ := h.tags
    refine ⟨tags.map (Json.mapFloats f), ?_, ?_⟩
    · rw [Json.get?_mapFloats, htags, Option.map_some, Json.mapFloats_array]
    · rw [hcount, List.length_map]
  increasing := h.increasing
  reported := h.reported
  examples name hname := by
    obtain ⟨hexample, hparams⟩ := h.examples name hname
    rw [Json.follow?_mapFloats, Json.follow?_mapFloats, hexample, hparams]
    exact ⟨rfl, rfl⟩

/-- **Whoever reads the JSON file after a conversion sees what the summary tells**, if the reference
is shallow; the text of any other reference is refused for its nesting. -/
theorem FileTree.exists_text_of_convertFile {tree after : FileTree} {input output : Path}
    {config : Config} {summary : ConversionSummary}
    (hconvert : tree.run (convertFile input output config) = (.ok summary, after))
    (hformat : DocumentFormat.ofPath output = .json) :
    ∃ w text, tree.run (Workspace.load input) = (.ok w, tree) ∧ after.document output = .ok text ∧
      ((w.convert config).IsShallow → ∃ document, DocumentFormat.parse .json text = .ok document ∧
        document = (w.convert config).toJson.mapFloats Json.reread ∧ summary.Describes w document) ∧
      (¬ (w.convert config).IsShallow → ∃ error, error.cause = .tooDeep ∧
        DocumentFormat.parse .json text = .error (.json error)) := by
  obtain ⟨w, hload, hdocument, rfl⟩ := exists_reference_of_convertFile hconvert
  rw [hformat] at hdocument
  obtain ⟨hdone, herror⟩ := @Reference.parse_render (w.convert config)
    fun op => Workspace.isProper_of_mem_operations
  have hdescribes := (w.describes_ofReference config output).mapFloats Json.reread
  exact ⟨w, _, hload, hdocument, fun hshallow => ⟨_, hdone hshallow, rfl, hdescribes⟩, herror⟩

/-! ## Shared names

Requests with one name at two places show that the order of the visits decides, and not the order of
the records: for one name the broken body is visited last and reported, for the other it is
replaced. -/

/-- The record of a request with more members. -/
def requestRecord (name : String) (others : List (String × Json)) : Json :=
  .object ([("_type", .string "request"), ("name", .string name)] ++ others)

/-- The members of a record that has a body text. -/
def bodyMembers (text : String) : List (String × Json) := [("body", .object [("text", .string text)])]

/-- Two requests `b`, of which the one at the root has a broken body, and two requests `a`, of which
the one in the folder has one.  Those at the root are visited last. -/
def brokenRecords : List Json :=
  [requestRecord "b" (bodyMembers "\x7b"), requestRecord "a" [],
    .object [("_id", .string "f"), ("_type", .string "request_group")],
    requestRecord "a" (("parentId", .string "f") :: bodyMembers "\x7b"),
    requestRecord "b" (("parentId", .string "f") :: bodyMembers "[]")]

/-- The workspace of these records. -/
def Workspace.broken : Workspace := ⟨brokenRecords.map Resource.ofJson⟩

/-- The export of these records. -/
def brokenExport : Json := .object [("resources", .array brokenRecords)]

/-- The export is shallow and holds no numbers, so it is read as it was written. -/
theorem Workspace.parse_brokenExport : Workspace.parse .json brokenExport.compact = .ok .broken := by
  have hintegral : brokenExport.Integral := by
    simp [brokenExport, brokenRecords, requestRecord, bodyMembers, Json.integral_object_iff,
      Json.integral_array_iff, Json.Integral.string]
  have hproper : brokenExport.Proper := by
    simp [brokenExport, brokenRecords, requestRecord, bodyMembers, Json.proper_object_iff,
      Json.proper_array_iff, Json.Proper.string]
  rw [parse_compact hintegral hproper (by decide)]
  rfl

/-- Two names and two paths; of the names one is reported. -/
theorem FileTree.convertFile_summary_shared :
    (ofInput brokenExport.compact).run (convertFile "w.json" "o.json" .default) =
      (.ok (.ofReference (Workspace.broken.convert .default) "o.json"),
        ofInputAndOutput brokenExport.compact ((Workspace.broken.convert .default).render .json)) ∧
    (ConversionSummary.ofReference (Workspace.broken.convert .default) "o.json").endpointCount = 2 ∧
    (ConversionSummary.ofReference (Workspace.broken.convert .default) "o.json").replacedBodies =
      ["b"] ∧
    (ConversionSummary.ofReference (Workspace.broken.convert .default) "o.json").Describes
      .broken (Workspace.broken.convert .default).toJson := by
  have hrun := run_convertFile_ofInput Workspace.parse_brokenExport .default
  obtain ⟨w, hload, -, hdescribes, -⟩ := convertFile_summary hrun
  obtain rfl : Workspace.broken = w :=
    Except.ok.inj (Prod.mk.inj ((run_load_ofInput Workspace.parse_brokenExport).symm.trans hload)).1
  refine ⟨hrun, ?_, ?_, hdescribes⟩
  · rw [hdescribes.names]
    decide
  · rfl

end RpcReference
