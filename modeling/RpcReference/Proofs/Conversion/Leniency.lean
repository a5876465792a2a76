import Mathlib.Logic.Relation
import RpcReference.Proofs.Conversion.Paths
import RpcReference.Proofs.Conversion.Tags
import RpcReference.Proofs.Json.Edits

/-!
# What a conversion sees of an export

An export may hold much that is not read: members with other keys, resources of other types, values
of other types than expected.  Whatever is there, reading goes on.

* `Resource.RecordEdit`, `Workspace.ExportEdit` — **the edits that do not count**, member by member;
  `Workspace.Alike` — two exports that differ by any number of them.
* `Workspace.condensed` — what a conversion sees of a workspace: its folders and requests, each with
  its body text written out.  `Workspace.convert_condensed` says that it sees nothing else.
* `Workspace.map_condensed_ofJson` — an edit changes nothing of that.
* `Workspace.convert_of_alike` — so the references of alike exports are equal.
-/

set_option autoImplicit false

namespace RpcReference

/-! ## Edits that do not count

An edit changes one member of an object: it puts one in, takes one out, or gives it another value.
The three relations say for each key which of these are not seen, and they are nested as the objects
are: an export holds records, a record holds a body.  They are stated over what stands under the key
before and after, with `none` for a member that is not there, so that one relation covers all three
kinds.

`Json.MemberEdit` puts an edit into an object, and `Json.Reordered` moves members without changing
them. -/

namespace Resource

/-- The keys of a record under which strings are read. -/
def textKeys : List String := ["_id", "_type", "parentId", "name", "description"]

/-- Edits of a member of a body. -/
inductive BodyEdit : String → Option Json → Option Json → Prop where
  /-- Anything under a key that is not read. -/
  | other {key : String} {old new : Option Json} (hkey : key ≠ "text") : BodyEdit key old new
  /-- A text that is no string goes, or something else that is no string comes in its place. -/
  | noText {old new : Option Json} (hold : old.bind Json.text? = none)
      (hnew : new.bind Json.text? = none) : BodyEdit "text" old new

/-- Edits of a member of a record. -/
inductive RecordEdit : String → Option Json → Option Json → Prop where
  /-- Anything under a key that is not read. -/
  | other {key : String} {old new : Option Json} (hkey : key ∉ textKeys) (hbody : key ≠ "body") :
      RecordEdit key old new
  /-- Where a string is expected, something that is none goes, or comes in the place of another. -/
  | noText {key : String} {old new : Option Json} (hkey : key ∈ textKeys)
      (hold : old.bind Json.text? = none) (hnew : new.bind Json.text? = none) :
      RecordEdit key old new
  /-- An empty description goes. -/
  | emptyDescription : RecordEdit "description" (some (.string "")) none
  /-- A body that is no object goes, or something else that is no object comes in its place. -/
  | noBody {old new : Option Json} (hold : old.bind Json.members? = none)
      (hnew : new.bind Json.members? = none) : RecordEdit "body" old new
  /-- A member of the body is edited. -/
  | inBody {body body' : Json} (h : Json.MemberEdit BodyEdit body body') :
      RecordEdit "body" (some body) (some body')
  /-- A body without a text goes. -/
  | bodyRemoved {body : Json} (h : body.textAt? "text" = none) : RecordEdit "body" (some body) none
  /-- A body with the text of an empty object comes in the place of one without a text. -/
  | bodyWritten {body body' : Json} (h : body.textAt? "text" = none)
      (h' : body'.textAt? "text" = some emptyBodyText) : RecordEdit "body" (some body) (some body')

end Resource

namespace Workspace

/-- Edits of a member of an export. -/
inductive ExportEdit : String → Option Json → Option Json → Prop where
  /-- Anything under a key that is not read. -/
  | other {key : String} {old new : Option Json} (hkey : key ≠ "resources") : ExportEdit key old new
  /-- A member of a record is edited. -/
  | record {before after : List Json} {record record' : Json}
      (h : Json.MemberEdit Resource.RecordEdit record record') :
      ExportEdit "resources" (some (.array (before ++ record :: after)))
        (some (.array (before ++ record' :: after)))
  /-- Something that is no object comes among the records. -/
  | noRecord {before after : List Json} {v : Json} (h : v.members? = none) :
      ExportEdit "resources" (some (.array (before ++ after)))
        (some (.array (before ++ v :: after)))

/-- **Two exports that differ by any number of edits that do not count**, done or undone: edits of
members, and other orders of the members of an object. -/
def Alike : Json → Json → Prop :=
  Relation.EqvGen fun raw raw' => Json.Reordered raw raw' ∨ Json.MemberEdit ExportEdit raw raw'

end Workspace

/-! ## Reading a record

A body without a text and a body with the text of an empty object are read as different resources,
and a conversion makes no difference between them.  So resources are not compared as they are: the
body text is written out first, and what is left of a record is then six strings, or none in their
places. -/

namespace Resource

/-- A resource with its body text written out. -/
def filled (r : Resource) : Resource := { r with body := some ⟨some r.bodyText⟩ }

@[simp] theorem id_filled (r : Resource) : r.filled.id = r.id := rfl

@[simp] theorem parentId_filled (r : Resource) : r.filled.parentId = r.parentId := rfl

@[simp] theorem name_filled (r : Resource) : r.filled.name = r.name := rfl

@[simp] theorem isGroup_filled (r : Resource) : r.filled.isGroup = r.isGroup := rfl

@[simp] theorem isRequest_filled (r : Resource) : r.filled.isRequest = r.isRequest := rfl

/-- The body text of a record. -/
theorem bodyText_ofJson (record : Json) :
    (ofJson record).bodyText =
      ((record.get? "body").bind (Json.textAt? "text")).getD emptyBodyText := by
  rw [bodyText, ofJson, bodyOfJson]
  cases record.get? "body" with
  | none => rfl
  | some body => cases body <;> rfl

/-- What is read from a record, with the body text written out, is read from the strings in it. -/
theorem filled_ofJson_congr {record record' : Json}
    (hkeys : ∀ key ∈ textKeys, key ≠ "description" → record'.textAt? key = record.textAt? key)
    (hdescription : (record'.textAt? "description").filter (· ≠ "") =
      (record.textAt? "description").filter (· ≠ ""))
    (hbody : ((record'.get? "body").bind (Json.textAt? "text")).getD emptyBodyText =
      ((record.get? "body").bind (Json.textAt? "text")).getD emptyBodyText) :
    (ofJson record').filled = (ofJson record).filled := by
  have hid := hkeys "_id" (by decide) (by decide)
  have htype := hkeys "_type" (by decide) (by decide)
  have hparent := hkeys "parentId" (by decide) (by decide)
  have hname := hkeys "name" (by decide) (by decide)
  rw [← bodyText_ofJson, ← bodyText_ofJson] at hbody
  simp only [filled, hbody]
  simp only [ofJson, hid, htype, hparent, hname, hdescription]

/-! ### What an edit leaves as it is

An edit happens under one key.  Under the others nothing changes, so each of the strings that are
read is looked at under its own key only, and there the case of the edit says what becomes of it. -/

/-- There is no text in something that is no object. -/
theorem bind_textAt?_eq_none {body : Option Json} (h : body.bind Json.members? = none) (key : String) :
    body.bind (Json.textAt? key) = none := by
  cases body with
  | none => rfl
  | some body =>
    rw [Option.bind_some] at h ⊢
    rw [Json.textAt?, Json.get?, h]
    rfl

/-- The text of a body. -/
theorem textAt?_of_bodyEdit {body body' : Json} (h : Json.MemberEdit BodyEdit body body') :
    body'.textAt? "text" = body.textAt? "text" := by
  obtain ⟨key, hedit, hothers⟩ := h.exists_key
  rw [Json.textAt?, Json.textAt?]
  by_cases hkey : "text" = key
  · subst hkey
    generalize body.get? "text" = old at hedit ⊢
    generalize body'.get? "text" = new at hedit ⊢
    cases hedit with
    | other hne => exact absurd rfl hne
    | noText hold hnew => rw [hold, hnew]
  · rw [hothers "text" hkey]

namespace RecordEdit

variable {key : String} {old new : Option Json}

/-- The string under a key other than that of the description. -/
theorem text?_eq (h : RecordEdit key old new) (hkey : key ∈ textKeys) (hne : key ≠ "description") :
    new.bind Json.text? = old.bind Json.text? := by
  cases h with
  | other hnot => exact absurd hkey hnot
  | noText _ hold hnew => rw [hold, hnew]
  | emptyDescription => exact absurd rfl hne
  | noBody | inBody | bodyRemoved | bodyWritten => exact absurd hkey (by decide)

/-- The description, where an empty one counts as none. -/
theorem description_eq (h : RecordEdit key old new) (hkey : key = "description") :
    (new.bind Json.text?).filter (· ≠ "") = (old.bind Json.text?).filter (· ≠ "") := by
  cases h with
  | other hnot => exact absurd (by rw [hkey]; decide) hnot
  | noText _ hold hnew => rw [hold, hnew]
  | emptyDescription => rfl
  | noBody | inBody | bodyRemoved | bodyWritten => exact absurd hkey (by decide)

/-- The text of the body, where none counts as that of an empty object. -/
theorem bodyText_eq (h : RecordEdit key old new) (hkey : key = "body") :
    (new.bind (Json.textAt? "text")).getD emptyBodyText =
      (old.bind (Json.textAt? "text")).getD emptyBodyText := by
  cases h with
  | other _ hne => exact absurd hkey hne
  | noText hnot => exact absurd (hkey ▸ hnot) (by decide)
  | emptyDescription => exact absurd hkey (by decide)
  | noBody hold hnew => rw [bind_textAt?_eq_none hold, bind_textAt?_eq_none hnew]
  | inBody hinside => rw [Option.bind_some, Option.bind_some, textAt?_of_bodyEdit hinside]
  | bodyRemoved hnone =>
    rw [Option.bind_some, hnone]
    rfl
  | bodyWritten hnone htext =>
    rw [Option.bind_some, Option.bind_some, hnone, htext, Option.getD_some, Option.getD_none]

end RecordEdit

/-- **An edit that does not count is not seen in the record.** -/
theorem filled_ofJson_of_edit {record record' : Json}
    (h : Json.MemberEdit RecordEdit record record') :
    (ofJson record').filled = (ofJson record).filled := by
  obtain ⟨key, hedit, hothers⟩ := h.exists_key
  refine filled_ofJson_congr (fun other hother hne => ?_) ?_ ?_
  · rw [Json.textAt?, Json.textAt?]
    by_cases heq : other = key
    · subst heq
      exact hedit.text?_eq hother hne
    · rw [hothers other heq]
  · rw [Json.textAt?, Json.textAt?]
    by_cases heq : "description" = key
    · subst heq
      exact hedit.description_eq rfl
    · rw [hothers _ heq]
  · by_cases heq : "body" = key
    · subst heq
      exact hedit.bodyText_eq rfl
    · rw [hothers _ heq]

/-- The order of members is not seen in the record. -/
theorem ofJson_of_reordered {record record' : Json} (h : Json.Reordered record record') :
    ofJson record' = ofJson record := by
  have hbody : bodyOfJson record' = bodyOfJson record := by
    rw [bodyOfJson, bodyOfJson]
    rcases h.get?_eq_or "body" with heq | ⟨body, body', hbody, hbody', hinside⟩
    · rw [heq]
    · have hmembers := hinside.isSome_members?_eq
      rw [hbody, hbody', Option.bind_some, Option.bind_some, hinside.textAt?_eq]
      cases hsome : body.members? <;> cases hsome' : body'.members? <;>
        simp_all only [Option.isSome_some, Option.isSome_none, Option.map_some, Option.map_none,
          reduceCtorEq]
  simp only [ofJson, h.textAt?_eq, hbody]

end Resource

namespace Workspace

/-! ## Reading an export

One list of records stands in an export, and each record is read by itself.  An edit of a record
replaces one resource by one that is the same with its body text written out.  Something that is no
record becomes a resource of no known type, which is dropped with the other resources that are not
looked at. -/

/-- What a conversion sees of a workspace: its folders and requests, with their body texts. -/
def condensed (w : Workspace) : Workspace :=
  ⟨(w.resources.filter fun r => r.isGroup || r.isRequest).map Resource.filled⟩

/-- What is read depends on the list of records. -/
theorem ofJson_congr {raw raw' : Json} (h : raw'.get? "resources" = raw.get? "resources") :
    ofJson raw' = ofJson raw := by
  rw [ofJson, ofJson, h]

theorem ofJson_eq_ok {raw : Json} {records : List Json}
    (h : raw.get? "resources" = some (.array records)) :
    ofJson raw = .ok ⟨records.map Resource.ofJson⟩ := by
  rw [ofJson, h]
  rfl

/-- **An export can be read exactly if it is an object with a list of records.** -/
theorem exists_ofJson_eq_ok_iff {raw : Json} :
    (∃ w, ofJson raw = .ok w) ↔ ∃ members records, raw = .object members ∧
      Table.get? "resources" members = some (.array records) := by
  constructor
  · rintro ⟨w, hw⟩
    rw [ofJson] at hw
    split at hw
    · cases hw
    next resources hresources =>
    split at hw
    · cases hw
    next records hrecords =>
    cases raw with
    | object members =>
      cases resources with
      | array items => exact ⟨members, items, rfl, hresources⟩
      | _ => cases hrecords
    | _ => cases hresources
  · rintro ⟨members, records, rfl, h⟩
    exact ⟨_, ofJson_eq_ok h⟩

section Condensed

variable {before after : List Resource} {r r' : Resource}

/-- A resource in the place of another with which it agrees but for how its body text is given. -/
theorem condensed_replaced (h : r'.filled = r.filled) :
    condensed ⟨before ++ r' :: after⟩ = condensed ⟨before ++ r :: after⟩ := by
  have hgroup : r'.isGroup = r.isGroup := by
    rw [← Resource.isGroup_filled, h, Resource.isGroup_filled]
  have hrequest : r'.isRequest = r.isRequest := by
    rw [← Resource.isRequest_filled, h, Resource.isRequest_filled]
  simp only [condensed, List.filter_append, List.filter_cons, hgroup, hrequest]
  split
  · simp only [List.map_append, List.map_cons, h]
  · rfl

/-- A resource that is neither a folder nor a request. -/
theorem condensed_inserted (hgroup : r.isGroup = false) (hrequest : r.isRequest = false) :
    condensed ⟨before ++ r :: after⟩ = condensed ⟨before ++ after⟩ := by
  simp [condensed, hgroup, hrequest]

end Condensed

/-- Something that is no object is read as a resource that is neither a folder nor a request. -/
theorem kind_ofJson_of_members? {v : Json} (h : v.members? = none) :
    (Resource.ofJson v).isGroup = false ∧ (Resource.ofJson v).isRequest = false := by
  have htype : v.textAt? "_type" = none := by rw [Json.textAt?, Json.get?, h]; rfl
  simp [Resource.isGroup, Resource.isRequest, Resource.ofJson, htype]

/-- **The order of members is not seen.** -/
theorem ofJson_of_reordered {raw raw' : Json} (h : Json.Reordered raw raw') :
    ofJson raw' = ofJson raw := by
  rcases h.get?_eq_or "resources" with heq | ⟨resources, resources', hold, hnew, hinside⟩
  · exact ofJson_congr heq
  · rw [ofJson, ofJson, hold, hnew]
    cases hinside with
    | members => rfl
    | inMember => rfl
    | inItem hrecord =>
      simp only [Json.items?, List.map_append, List.map_cons, Resource.ofJson_of_reordered hrecord]

/-- **An edit that does not count is not seen in the export.** -/
theorem map_condensed_ofJson {raw raw' : Json}
    (h : Json.Reordered raw raw' ∨ Json.MemberEdit ExportEdit raw raw') :
    (ofJson raw').map condensed = (ofJson raw).map condensed := by
  rcases h with h | h
  · rw [ofJson_of_reordered h]
  obtain ⟨key, hedit, hothers⟩ := h.exists_key
  generalize hold : raw.get? key = old at hedit
  generalize hnew : raw'.get? key = new at hedit
  cases hedit with
  | other hkey => rw [ofJson_congr (hothers "resources" hkey.symm)]
  | record hrecord =>
    rw [ofJson_eq_ok hold, ofJson_eq_ok hnew, Except.map, Except.map, List.map_append,
      List.map_append, List.map_cons, List.map_cons,
      condensed_replaced (Resource.filled_ofJson_of_edit hrecord)]
  | noRecord hv =>
    obtain ⟨hgroup, hrequest⟩ := kind_ofJson_of_members? hv
    rw [ofJson_eq_ok hold, ofJson_eq_ok hnew, Except.map, Except.map, List.map_append,
      List.map_append, List.map_cons, condensed_inserted hgroup hrequest]

/-! ## Converting what is seen

The other half: nothing that is dropped, and nothing but the body text of what is kept, makes a
difference to a conversion.  Climbs and visits look at ids, parents and types, which `filled` leaves
as they are. -/

theorem groups_condensed (w : Workspace) : w.condensed.groups = w.groups.map Resource.filled := by
  rw [groups, condensed, List.filter_map, List.filter_filter, groups]
  congr 1
  refine List.filter_congr fun r _ => ?_
  simpa using fun h => by simp [h]

theorem requests_condensed (w : Workspace) :
    w.condensed.requests = w.requests.map Resource.filled := by
  rw [requests, condensed, List.filter_map, List.filter_filter, requests]
  congr 1
  refine List.filter_congr fun r _ => ?_
  simpa using fun h => by simp [h]

end Workspace

namespace Resource

/-- Folders are found by their ids. -/
theorem withId?_map_filled (id : String) (resources : List Resource) :
    withId? id (resources.map filled) = (withId? id resources).map filled :=
  List.find?_map

theorem withoutId_map_filled (id : String) (resources : List Resource) :
    withoutId id (resources.map filled) = (withoutId id resources).map filled :=
  List.filter_map

/-- A climb does not look at bodies. -/
theorem ancestors_map_filled (unvisited : List Resource) (r : Resource) :
    ancestors (unvisited.map filled) r.filled = (ancestors unvisited r).map filled := by
  induction unvisited, r using ancestors.induct with
  | case1 unvisited r hparent =>
    rw [ancestors_of_parentId_eq_none _ hparent,
      ancestors_of_parentId_eq_none (r := r.filled) _ hparent, List.map_nil]
  | case2 unvisited r id hparent hfound =>
    rw [ancestors_of_parentId_eq_some _ hparent,
      ancestors_of_parentId_eq_some (r := r.filled) _ hparent, withId?_map_filled, hfound]
    rfl
  | case3 unvisited r id hparent parent hfound ih =>
    rw [ancestors_of_parentId_eq_some _ hparent,
      ancestors_of_parentId_eq_some (r := r.filled) _ hparent, withId?_map_filled, hfound]
    show parent.filled :: _ = _
    rw [withoutId_map_filled, ih, List.map_cons]

end Resource

namespace Workspace

/-- A namespace is the name of a folder, and has nothing to do with bodies. -/
theorem namespaceOf_condensed (w : Workspace) : w.condensed.namespaceOf = w.namespaceOf := by
  funext key
  cases key with
  | none => rfl
  | some id =>
    rw [namespaceOf, namespaceOf, groups_condensed, Resource.withId?_map_filled]
    cases Resource.withId? id w.groups with
    | none => rfl
    | some group =>
      simp only [Option.map_some, Resource.withoutId_map_filled, Resource.ancestors_map_filled,
        List.getLastD_eq_getLast?, List.getLast?_map, Option.getD_map, Resource.name_filled]

/-- The visits depend on parents and types. -/
theorem traversal_condensed (w : Workspace) :
    w.condensed.traversal = w.traversal.map Resource.filled := by
  have hkeys : w.condensed.bucketKeys = w.bucketKeys := by
    rw [bucketKeys, bucketKeys, groupKeys, groupKeys, parentKeys, parentKeys, groups_condensed,
      requests_condensed, List.map_map, List.map_map]
    rfl
  rw [traversal_eq, traversal_eq, hkeys, requests_condensed, List.map_flatMap]
  exact List.flatMap_congr fun key _ => List.filter_map

/-- **A conversion sees nothing else of a workspace.** -/
theorem convert_condensed (w : Workspace) (config : Config) :
    w.condensed.convert config = w.convert config := by
  have hnamespaces : w.condensed.visitedNamespaces = w.visitedNamespaces := by
    rw [visitedNamespaces, visitedNamespaces, traversal_condensed, namespaceOf_condensed, List.map_map]
    rfl
  have hoperations : w.condensed.operations = w.operations := by
    rw [operations, operations, traversal_condensed, namespaceOf_condensed, List.map_map]
    rfl
  rw [convert, convert, hnamespaces, hoperations]

/-! ## Alike exports

One edit changes nothing of what is seen, so no number of edits does, in whichever direction they
are made.  It is the results of reading that are compared, so an export that is refused stays
refused. -/

/-- Alike exports look the same to a conversion, or are refused for the same reason. -/
theorem map_condensed_of_alike {raw raw' : Json} (h : Alike raw raw') :
    (ofJson raw').map condensed = (ofJson raw).map condensed := by
  induction h with
  | rel raw raw' hedit => exact map_condensed_ofJson hedit
  | refl raw => rfl
  | symm raw raw' _ ih => exact ih.symm
  | trans raw between raw' _ _ ih ih' => exact ih'.trans ih

/-- **Lenient reading.**  An export can be read exactly if it is an object with a list of records,
and then every record gives one resource, in their order.  Exports that differ by edits that do not
count give the same reference. -/
theorem convert_of_alike :
    (∀ raw, (∃ w, ofJson raw = .ok w) ↔ ∃ members records, raw = .object members ∧
      Table.get? "resources" members = some (.array records)) ∧
    (∀ members records, Table.get? "resources" members = some (.array records) →
      ofJson (.object members) = .ok ⟨records.map Resource.ofJson⟩) ∧
    ∀ raw raw' w w', Alike raw raw' → ofJson raw = .ok w → ofJson raw' = .ok w' →
      ∀ config, w'.convert config = w.convert config := by
  refine ⟨fun raw => exists_ofJson_eq_ok_iff, fun members records h => ofJson_eq_ok h,
    fun raw raw' w w' halike hw hw' config => ?_⟩
  have hsame := map_condensed_of_alike halike
  rw [hw, hw', Except.map, Except.map] at hsame
  rw [← convert_condensed, Except.ok.inj hsame, convert_condensed]

/-! ## Three edits at once

Between the two exports lie three edits, and each has its own proof; the chain of them is put
together by the relation. -/

/-- A record of a request. -/
def plainRecord : Json := .object [("_type", .string "request"), ("name", .string "a")]

/-- The record with an empty description. -/
def describedRecord : Json :=
  .object [("_type", .string "request"), ("name", .string "a"), ("description", .string "")]

/-- An export of records, after other members. -/
def exportOf (others : List (String × Json)) (records : List Json) : Json :=
  .object (others ++ [("resources", .array records)])

/-- An empty description, a record that is no object and another member are not seen. -/
theorem convert_of_alike_hidden :
    Alike (exportOf [] [plainRecord]) (exportOf [("note", .null)] [describedRecord, .null]) ∧
    ofJson (exportOf [] [plainRecord]) = .ok ⟨[Resource.ofJson plainRecord]⟩ ∧
    ofJson (exportOf [("note", .null)] [describedRecord, .null]) =
      .ok ⟨[Resource.ofJson describedRecord, Resource.ofJson .null]⟩ ∧
    ∀ config, Workspace.convert ⟨[Resource.ofJson describedRecord, Resource.ofJson .null]⟩ config =
      Workspace.convert ⟨[Resource.ofJson plainRecord]⟩ config := by
  have hdescription : Json.MemberEdit Resource.RecordEdit describedRecord plainRecord :=
    @Json.MemberEdit.intro _ [("_type", .string "request"), ("name", .string "a")] [] "description" _ _
      (by decide) (by decide) Resource.RecordEdit.emptyDescription
  have hrecord : Json.MemberEdit ExportEdit (exportOf [] [describedRecord])
      (exportOf [] [plainRecord]) :=
    @Json.MemberEdit.intro _ [] [] "resources" _ _ (by decide) (by decide)
      (@ExportEdit.record [] [] _ _ hdescription)
  have hnoRecord : Json.MemberEdit ExportEdit (exportOf [] [describedRecord])
      (exportOf [] [describedRecord, .null]) :=
    @Json.MemberEdit.intro _ [] [] "resources" _ _ (by decide) (by decide)
      (@ExportEdit.noRecord [describedRecord] [] .null rfl)
  have hother : Json.MemberEdit ExportEdit (exportOf [] [describedRecord, .null])
      (exportOf [("note", .null)] [describedRecord, .null]) :=
    @Json.MemberEdit.intro _ [] _ "note" none (some .null) (by decide) (by decide) (.other (by decide))
  have halike : Alike (exportOf [] [plainRecord])
      (exportOf [("note", .null)] [describedRecord, .null]) :=
    .trans _ _ _ (.symm _ _ (.rel _ _ (.inr hrecord)))
      (.trans _ _ _ (.rel _ _ (.inr hnoRecord)) (.rel _ _ (.inr hother)))
  obtain ⟨-, hread, hconvert⟩ := convert_of_alike
  have hplain := hread [("resources", .array [plainRecord])] [plainRecord] rfl
  have hfull := hread [("note", .null), ("resources", .array [describedRecord, .null])]
    [describedRecord, .null] rfl
  exact ⟨halike, hplain, hfull, hconvert _ _ _ _ halike hplain hfull⟩

end Workspace
end RpcReference
