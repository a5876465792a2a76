import RpcReference.Proofs.Document.Lossless
import RpcReference.Proofs.Files.Commands

/-!
# Checking what was just converted

A reference is written to one file and read back from it.  Nothing that a request holds can make it
unreadable but **the nesting of its example body**: the reader stops at the same number of levels
for a body and for the reference around it.

* `SyncReport.ofDocument_mapFloats` — the check does not look at numbers.
* `FileTree.run_checkFiles_of_convertFile` — **the check after a conversion gives the report on the
  reference in memory exactly if the reference is shallow**, and an error otherwise.
* `FileTree.run_checkFiles_past_limit` — a body that can be read, in a reference that cannot.
-/

set_option autoImplicit false

namespace RpcReference

/-! ## Looking into a value with other numbers

A floating point number may come back as another one, since the reader rounds more than once.  So
the value that is read is not always the value that was written, but it has the same shape: the same
keys, and the same texts.  That is all that the check looks at. -/

namespace Json

/-- The members are the same but for their values. -/
theorem members?_mapFloats (f : Binary64 → Binary64) (v : Json) :
    (v.mapFloats f).members? =
      v.members?.map fun members => members.map fun member => (member.1, member.2.mapFloats f) := by
  cases v with
  | number n => cases n <;> rfl
  | object members => rw [mapFloats_object]; rfl
  | _ => rfl

/-- What a key leads to is changed in the same way. -/
theorem get?_mapFloats (f : Binary64 → Binary64) (key : String) (v : Json) :
    (v.mapFloats f).get? key = (v.get? key).map (mapFloats f) := by
  rw [get?, get?, members?_mapFloats]
  cases v.members? with
  | none => rfl
  | some members =>
    rw [Option.map_some, Option.bind_some, Option.bind_some]
    induction members with
    | nil => rfl
    | cons member rest ih =>
      by_cases h : member.1 = key
      · simp [Table.get?, h]
      · simp [Table.get?, h, ih]

end Json

/-- **The check does not look at numbers.** -/
theorem SyncReport.ofDocument_mapFloats (f : Binary64 → Binary64) (w : Workspace) (document : Json) :
    SyncReport.ofDocument w (document.mapFloats f) = SyncReport.ofDocument w document := by
  have hpaths : pathsOf (document.mapFloats f) = pathsOf document := by
    rw [pathsOf, pathsOf, Json.get?_mapFloats]
    cases document.get? "paths" with
    | none => rfl
    | some paths =>
      rw [Option.map_some, Option.bind_some, Option.bind_some, Json.members?_mapFloats]
      cases paths.members? with
      | none => rfl
      | some members => simp [Table.keys, Function.comp_def]
  rw [ofDocument, hpaths, ofDocument]

/-! ## The examples of a workspace

An example comes from a text that was read, and what is read can be written: no key stands twice,
and every number is one that the reader gives. -/

/-- The examples of a converted workspace can be written and read. -/
theorem Workspace.isProper_of_mem_operations {w : Workspace} {config : Config} {op : Operation}
    (h : op ∈ (w.convert config).paths.operations) : op.IsProper := by
  obtain ⟨r, -, rfl⟩ := List.mem_map.1 (PathMap.mem_of_mem_operations_ofList h)
  exact Operation.isProper_ofRequest r _

/-! ## The files after a conversion

The check reads two files.  One was just written, and the other must still be what it was: writing a
file changes nothing at other places, and making directories changes no file.  Different paths may
lead to the same place, so it is places that have to differ. -/

namespace FileTree

variable {tree after : FileTree} {input output : Path} {config : Config} {summary : ConversionSummary}

/-- Another document is still there after a file was written, and the file holds what was
written. -/
theorem document_of_putFile {text written : String}
    (hput : tree.putFile output (some written) = (true, after))
    (hdocument : tree.document input = .ok text) (hother : after.locate input ≠ after.locate output) :
    after.document input = .ok text ∧ after.document output = .ok written := by
  obtain ⟨location, hlocate, -, -, hcontent⟩ := putFile_eq_true hput
  have hkeeps := keepsDirectories_of_putFile hput
  have hlocate := locate_of_keepsDirectories hkeeps hlocate
  obtain ⟨place, hplace, htext⟩ := document_eq_ok_iff.1 hdocument
  have hplace := locate_of_keepsDirectories hkeeps hplace
  have hne : place ≠ location := by
    rintro rfl
    exact hother (hplace.trans hlocate.symm)
  refine ⟨document_eq_ok_iff.2 ⟨place, hplace, ?_⟩, document_eq_ok_iff.2 ⟨location, hlocate, ?_⟩⟩
  · rw [hcontent, if_neg hne, htext]
  · rw [hcontent, if_pos rfl]

theorem document_of_extends {text : String} (h : Extends tree after)
    (hdocument : tree.document input = .ok text) : after.document input = .ok text := by
  obtain ⟨place, hplace, htext⟩ := document_eq_ok_iff.1 hdocument
  exact document_eq_ok_iff.2 ⟨place, locate_of_keepsDirectories h.keepsDirectories hplace,
    h.content place _ htext⟩

end FileTree

/-! ## Bodies at the limit

A workspace with one request shows where the limit is.  Its body is a list in a list, as deep as one
likes, and everything about it is computed from the number of levels: its text can be read up to the
limit of the reader, and the reference is seven levels deeper. -/

namespace Json

/-- A list in a list in a list, so many levels deep. -/
def nested : Nat → Json
  | 0 => .null
  | levels + 1 => .array [nested levels]

@[simp] theorem depth_nested (levels : Nat) : (nested levels).depth = levels := by
  induction levels with
  | zero => rfl
  | succ levels ih => simp [nested, depth, depthOfItems, ih]

theorem proper_nested (levels : Nat) : (nested levels).Proper := by
  induction levels with
  | zero => exact .null
  | succ levels ih => exact proper_array_iff.2 (List.forall_mem_singleton.2 ih)

@[simp] theorem mapFloats_nested (f : Binary64 → Binary64) (levels : Nat) :
    (nested levels).mapFloats f = nested levels := by
  induction levels with
  | zero => rfl
  | succ levels ih => rw [nested, mapFloats_array, List.map_singleton, ih]

/-- An export of one request with such a body. -/
def nestedExport (levels : Nat) : Json :=
  .object [("resources", .array [.object [("_type", .string "request"), ("name", .string "a"),
    ("body", .object [("text", .string (nested levels).compact)])]])]

end Json

namespace Workspace

/-- The workspace of this export. -/
def nested (levels : Nat) : Workspace :=
  ⟨[⟨"", .request, none, "a", none, some ⟨some (Json.nested levels).compact⟩⟩]⟩

/-- What a text of an export holds is the workspace of the export. -/
theorem parse_compact {raw : Json} (hintegral : raw.Integral) (hproper : raw.Proper)
    (hdepth : raw.depth ≤ Json.nestingLimit) :
    Workspace.parse .json raw.compact = (ofJson raw).mapError .malformedInput := by
  rw [parse, parseValue, hintegral.parse_eq hproper hdepth List.mem_cons_self]
  rfl

/-- The export is nested a few levels, and the body stands in it as a text. -/
theorem parse_nestedExport (levels : Nat) :
    Workspace.parse .json (Json.nestedExport levels).compact = .ok (nested levels) := by
  have hintegral : (Json.nestedExport levels).Integral := by
    simp [Json.nestedExport, Json.integral_object_iff, Json.integral_array_iff, Json.Integral.string]
  have hproper : (Json.nestedExport levels).Proper := by
    simp [Json.nestedExport, Json.proper_object_iff, Json.proper_array_iff, Json.Proper.string]
  have hdepth : (Json.nestedExport levels).depth ≤ Json.nestingLimit := by
    simp [Json.nestedExport, Json.nestingLimit, Json.depth, Json.depthOfMembers, Json.depthOfItems]
  rw [parse_compact hintegral hproper hdepth]
  rfl

theorem operations_nested (levels : Nat) (config : Config) :
    ((nested levels).convert config).paths.operations =
      [Operation.ofRequest ⟨"", .request, none, "a", none, some ⟨some (Json.nested levels).compact⟩⟩
        fallbackNamespace] := by
  rfl

/-- Of the bodies that can be read, those up to 120 levels leave room for the reference. -/
theorem isShallow_nested_iff {levels : Nat} (config : Config) (h : levels ≤ 127) :
    ((nested levels).convert config).IsShallow ↔ levels ≤ 120 := by
  have hparse := Json.parse_compact (Json.proper_nested levels)
    (by rwa [Json.depth_nested, Json.nestingLimit])
  rw [Json.mapFloats_nested] at hparse
  have hbody : Operation.parseBody (Json.nested levels).compact = (.nested levels, false) := by
    rw [Operation.parseBody, hparse]
  -- a list in a list has no parameters, so only the body counts
  have hparams : (Operation.paramsOf (.nested levels)).depth = 1 := by
    cases levels <;> rfl
  rw [Reference.IsShallow, operations_nested, List.forall_mem_singleton, Operation.isShallow_iff,
    Operation.ofRequest]
  simp only [Resource.bodyText, Option.bind_some, Option.getD_some, hbody, hparams,
    Json.depth_nested]
  omega

end Workspace

namespace FileTree

/-- A directory with a text in the file `w.json`. -/
def ofInput (text : String) : FileTree :=
  ⟨.directory [("w.json", .file (some text))], []⟩

/-- A directory with another text in the file `o.json`. -/
def ofInputAndOutput (text written : String) : FileTree :=
  ⟨.directory [("w.json", .file (some text)), ("o.json", .file (some written))], []⟩

theorem document_ofInput (text : String) : (ofInput text).document "w.json" = .ok text := by
  rfl

theorem run_save_ofInput (text : String) (reference : Reference) :
    (ofInput text).run (reference.save "o.json") =
      (.ok (), ofInputAndOutput text (reference.render .json)) := by
  rfl

/-- The two files are different ones. -/
theorem locate_ofInputAndOutput_ne (text written : String) :
    (ofInputAndOutput text written).locate "w.json" ≠
      (ofInputAndOutput text written).locate "o.json" := by
  have hinput : (ofInputAndOutput text written).locate "w.json" = .ok ["w.json"] := by rfl
  have houtput : (ofInputAndOutput text written).locate "o.json" = .ok ["o.json"] := by rfl
  rw [hinput, houtput]
  decide

/-- A directory with the export of a nested body. -/
def nested (levels : Nat) : FileTree := ofInput (Json.nestedExport levels).compact

/-- This directory after the export was converted. -/
def nestedConverted (levels : Nat) : FileTree :=
  ofInputAndOutput (Json.nestedExport levels).compact
    (((Workspace.nested levels).convert .default).render .json)

theorem run_load_ofInput {text : String} {w : Workspace} (h : Workspace.parse .json text = .ok w) :
    (ofInput text).run (Workspace.load "w.json") = (.ok w, ofInput text) := by
  have hformat : DocumentFormat.ofPath "w.json" = .json := by rfl
  rw [run_load, document_ofInput, Except.bind, hformat, h]

/-- A conversion adds the file of the reference. -/
theorem run_convertFile_ofInput {text : String} {w : Workspace}
    (h : Workspace.parse .json text = .ok w) (config : Config) :
    (ofInput text).run (convertFile "w.json" "o.json" config) =
      (.ok (.ofReference (w.convert config) "o.json"),
        ofInputAndOutput text ((w.convert config).render .json)) := by
  have hformat : DocumentFormat.ofPath "w.json" = .json := by rfl
  exact run_convertFile_eq_ok.2
    ⟨w, text, document_ofInput text, hformat ▸ h, run_save_ofInput text _, rfl⟩

theorem run_load_nested (levels : Nat) :
    (nested levels).run (Workspace.load "w.json") = (.ok (.nested levels), nested levels) :=
  run_load_ofInput (Workspace.parse_nestedExport levels)

theorem run_convertFile_nested (levels : Nat) :
    (nested levels).run (convertFile "w.json" "o.json" .default) =
      (.ok (.ofReference ((Workspace.nested levels).convert .default) "o.json"),
        nestedConverted levels) :=
  run_convertFile_ofInput (Workspace.parse_nestedExport levels) .default

end FileTree

/-! ## The check

After a conversion both files are known, so the check comes down to one question: whether the text
that was written can be read.  `Reference.parse_render` answers it in both directions, and the
answer is the depth of the examples. -/

namespace FileTree

variable {tree after : FileTree} {input output : Path} {config : Config} {summary : ConversionSummary}

/-- A check right after a conversion reads what was converted, and the text that was written. -/
theorem exists_run_checkFiles_eq
    (hconvert : tree.run (convertFile input output config) = (.ok summary, after))
    (hformat : DocumentFormat.ofPath output = .json)
    (hother : after.locate input ≠ after.locate output) :
    ∃ w, tree.run (Workspace.load input) = (.ok w, tree) ∧
      after.run (checkFiles input output) =
        ((DocumentFormat.parse .json ((w.convert config).render .json)).map
          (SyncReport.ofDocument w), after) := by
  obtain ⟨w, text, hdocument, hparse, hsave, -⟩ := run_convertFile_eq_ok.1 hconvert
  obtain ⟨mid, hroom, hput⟩ := run_save_eq_ok.1 hsave
  have hextends := (addsDirectories_of_makeRoomFor hroom).toExtends
  obtain ⟨hinput, houtput⟩ := document_of_putFile hput (document_of_extends hextends hdocument) hother
  rw [hformat] at houtput
  refine ⟨w, ?_, ?_⟩
  · rw [run_load, hdocument, Except.bind, hparse]
  · rw [run_checkFiles, hinput, houtput, hformat]
    simp only [Except.bind, hparse]

/-- **A check right after a conversion** reads the workspace that was converted.  It gives the
report on the reference in memory if the example bodies of its operations are nested at most 120
levels deep and their parameters at most 117; otherwise the reference that was written cannot be
read.

That the two paths lead to different files is asked of the tree after the conversion, which may have
made directories on the way to the second. -/
theorem run_checkFiles_of_convertFile
    (hconvert : tree.run (convertFile input output config) = (.ok summary, after))
    (hformat : DocumentFormat.ofPath output = .json)
    (hother : after.locate input ≠ after.locate output) :
    ∃ w, tree.run (Workspace.load input) = (.ok w, tree) ∧
      ((w.convert config).IsShallow ↔ ∀ op ∈ (w.convert config).paths.operations,
        op.exampleBody.depth ≤ 120 ∧ op.params.depth ≤ 117) ∧
      ((w.convert config).IsShallow → after.run (checkFiles input output) =
        (.ok (SyncReport.ofDocument w (w.convert config).toJson), after)) ∧
      (¬ (w.convert config).IsShallow → ∃ error, error.cause = .tooDeep ∧
        after.run (checkFiles input output) = (.error (.json error), after)) := by
  obtain ⟨w, hload, hcheck⟩ := exists_run_checkFiles_eq hconvert hformat hother
  obtain ⟨hdone, herror⟩ := @Reference.parse_render (w.convert config)
    fun op => Workspace.isProper_of_mem_operations
  refine ⟨w, hload, ?_, fun hshallow => ?_, fun hdeep => ?_⟩
  · exact forall₂_congr fun op _ => Operation.isShallow_iff
  · rw [hcheck, hdone hshallow, Except.map, SyncReport.ofDocument_mapFloats]
  · obtain ⟨error, hcause, hparse⟩ := herror hdeep
    exact ⟨error, hcause, by rw [hcheck, hparse, Except.map]⟩

/-- The last body for which the check gives a report. -/
theorem run_checkFiles_at_limit :
    (nested 120).run (convertFile "w.json" "o.json" .default) =
      (.ok (.ofReference ((Workspace.nested 120).convert .default) "o.json"), nestedConverted 120) ∧
    DocumentFormat.ofPath "o.json" = .json ∧
    (nestedConverted 120).locate "w.json" ≠ (nestedConverted 120).locate "o.json" ∧
    (nestedConverted 120).run (checkFiles "w.json" "o.json") =
      (.ok (.ofDocument (.nested 120) ((Workspace.nested 120).convert .default).toJson),
        nestedConverted 120) := by
  have hconvert := run_convertFile_nested 120
  have hformat : DocumentFormat.ofPath "o.json" = .json := by rfl
  have hother : (nestedConverted 120).locate "w.json" ≠ (nestedConverted 120).locate "o.json" :=
    locate_ofInputAndOutput_ne _ _
  obtain ⟨w, hload, -, hdone, -⟩ := run_checkFiles_of_convertFile hconvert hformat hother
  obtain rfl := Except.ok.inj (Prod.mk.inj ((run_load_nested 120).symm.trans hload)).1
  have hshallow := (Workspace.isShallow_nested_iff .default (by decide : 120 ≤ 127)).2 (by decide)
  exact ⟨hconvert, hformat, hother, hdone hshallow⟩

/-- **A reference that was just written may be unreadable**: the reader takes the body of 121
levels, but not the reference around it. -/
theorem run_checkFiles_past_limit :
    (nested 121).run (convertFile "w.json" "o.json" .default) =
      (.ok (.ofReference ((Workspace.nested 121).convert .default) "o.json"), nestedConverted 121) ∧
    DocumentFormat.ofPath "o.json" = .json ∧
    (nestedConverted 121).locate "w.json" ≠ (nestedConverted 121).locate "o.json" ∧
    ∃ error, error.cause = .tooDeep ∧
      (nestedConverted 121).run (checkFiles "w.json" "o.json") =
        (.error (.json error), nestedConverted 121) := by
  have hconvert := run_convertFile_nested 121
  have hformat : DocumentFormat.ofPath "o.json" = .json := by rfl
  have hother : (nestedConverted 121).locate "w.json" ≠ (nestedConverted 121).locate "o.json" :=
    locate_ofInputAndOutput_ne _ _
  obtain ⟨w, hload, hcheck⟩ := exists_run_checkFiles_eq hconvert hformat hother
  obtain rfl := Except.ok.inj (Prod.mk.inj ((run_load_nested 121).symm.trans hload)).1
  have hdeep : ¬ ((Workspace.nested 121).convert .default).IsShallow := fun h =>
    absurd ((Workspace.isShallow_nested_iff .default (by decide)).1 h) (by decide)
  obtain ⟨error, hcause, hparse⟩ := (Reference.parse_render
    fun op => Workspace.isProper_of_mem_operations).2 hdeep
  exact ⟨hconvert, hformat, hother, error, hcause, by rw [hcheck, hparse, Except.map]⟩

end FileTree
end RpcReference
