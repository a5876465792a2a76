import RpcReference.Document.Text
import RpcReference.Proofs.Document.Nesting
import RpcReference.Proofs.Json.ReadBack

/-!
# What the text of a reference keeps

The text of a reference is read back as the very value that was written, **unless an example holds a
floating point number or is nested too deep**.  And that value says everything that the reference
does, but for two things: which descriptions of namespaces were known, and which bodies were
replaced.

* `Reference.parse_render` — what is read back from the text of any reference; the check of a file
  rests on it too.
* `Reference.IsAssembled` — references put together from requests.
* `Reference.SaysSame` — references that differ in these two things at most.
* `Reference.toJson_eq_iff` — **two references are the same value exactly if they say the same**.
* `Reference.render_lossless` — the same of their texts, which end in a single line feed.
-/

set_option autoImplicit false

namespace RpcReference

open Json (Integral integral_array_iff integral_object_iff)

/-! ## References without floating point numbers

A value without floating point numbers is read back as itself (`Json.Integral.mapFloats_eq`), so it
is asked where in a reference such a number could come from.  The texts of the configuration hold
none and the schemas hold none; what is left are the examples. -/

namespace Schema

theorem integral_components : components.Integral := by
  simp [components, requestEnvelope, responseEnvelope, errorEnvelope, requestMembers, idMembers,
    ofType, Json.strings, integral_array_iff, integral_object_iff, Integral.string]

theorem integral_responses : responses.Integral := by
  simp [responses, integral_object_iff, Integral.string]

theorem integral_request {params : Json} (method : String) (h : params.Integral) :
    (request method params).Integral := by
  simp [request, requestMembers, idMembers, ofType, Json.strings, Json.int, integral_array_iff,
    integral_object_iff, Integral.string, Integral.int, h]

end Schema

namespace Operation

/-- The parameters are part of the body. -/
theorem integral_paramsOf {body : Json} (h : body.Integral) : (paramsOf body).Integral := by
  obtain hempty | ⟨members, rfl, hmem⟩ := paramsOf_eq body
  · rw [hempty]
    exact .array [] (by simp)
  · exact integral_object_iff.1 h _ hmem

theorem integral_toJson {op : Operation} (hbody : op.exampleBody.Integral)
    (hparams : op.params.Integral) : op.toJson.Integral := by
  simp [toJson, requestSchema, Json.strings, integral_array_iff, integral_object_iff,
    Integral.string, Integral.bool, hbody, Schema.integral_request op.summary hparams,
    Schema.integral_responses]

end Operation

namespace Reference

theorem integral_infoJson (config : Config) : (infoJson config).Integral := by
  cases hcontact : config.contact <;> cases hlicense : config.license <;>
    simp [infoJson, optionalMember, linkJson, hcontact, hlicense, integral_object_iff,
      Integral.string]

/-- Floating point numbers can only come from the examples. -/
theorem integral_toJson {reference : Reference}
    (h : ∀ op ∈ reference.paths.operations, op.toJson.Integral) : reference.toJson.Integral := by
  have hpaths : (pathsJson reference.paths).Integral := by
    refine integral_object_iff.2 (List.forall_mem_map.2 fun entry hentry => ?_)
    have hop := h entry.2 (List.mem_map.2 ⟨entry, hentry, rfl⟩)
    exact integral_object_iff.2 (List.forall_mem_singleton.2 hop)
  have hservers : ∀ server, (serverJson server).Integral := fun server => by
    simp [serverJson, integral_object_iff, Integral.string]
  have htags : ∀ tag, (tagJson tag).Integral := fun tag => by
    simp [tagJson, integral_object_iff, Integral.string]
  simp [toJson, integral_object_iff, integral_array_iff, Integral.string, integral_infoJson,
    Schema.integral_components, hpaths, hservers, htags]

end Reference

/-! ## The text of a reference

The writer ends the text with a line feed unless there is one, and the value alone never ends with
one: the last character of an object is its brace.  So the text is known to the last character, and
it is a text of the value with blanks (`Json.spaced`), which is what the reader is known to read
back. -/

/-- Whatever its members, the last character of an object is its brace. -/
theorem exists_prettyMembers_eq (level : Nat) (members : List (String × Json)) :
    ∃ start, Json.prettyMembers level members = start ++ ['}'] := by
  induction members with
  | nil => exact ⟨_, rfl⟩
  | cons member members ih =>
    obtain ⟨start, hstart⟩ := ih
    rw [Json.prettyMembers, hstart, ← List.append_assoc]
    exact ⟨_, rfl⟩

namespace Reference

theorem exists_pretty_eq (reference : Reference) :
    ∃ start, reference.toJson.pretty.toList = start ++ ['}'] := by
  rw [Json.pretty, String.toList_ofList, toJson, Json.prettyCharacters]
  obtain ⟨start, hstart⟩ := exists_prettyMembers_eq 0 _
  rw [hstart, ← List.append_assoc]
  exact ⟨_, rfl⟩

/-- **The text of a reference is its value and a line feed.** -/
theorem toList_render_json (reference : Reference) :
    (reference.render .json).toList = reference.toJson.pretty.toList ++ ['\n'] := by
  obtain ⟨start, hstart⟩ := reference.exists_pretty_eq
  have hlast : reference.toJson.pretty.toList.getLast? ≠ some '\n' := by
    rw [hstart, List.getLast?_concat]
    decide
  rw [render, withLastLineFeed, if_neg hlast, String.toList_append]
  rfl

/-- **What is read back from the text of a reference**: the reference, but for its floating point
numbers, if it is shallow, and the error of a text that is nested too deep otherwise. -/
theorem parse_render {reference : Reference}
    (h : ∀ op ∈ reference.paths.operations, op.IsProper) :
    (reference.IsShallow → DocumentFormat.parse .json (reference.render .json) =
      .ok (reference.toJson.mapFloats Json.reread)) ∧
    (¬ reference.IsShallow → ∃ error, error.cause = .tooDeep ∧
      DocumentFormat.parse .json (reference.render .json) = .error (.json error)) := by
  have htext : reference.render .json =
      String.ofList (Json.spaced .lines 0 reference.toJson ++ ['\n']) := by
    refine String.toList_injective ?_
    rw [toList_render_json, Json.pretty, Json.spaced_lines, String.toList_ofList, String.toList_ofList]
  -- the line feed is a blank, so it does not disturb the reader
  have hblank : ∀ c ∈ ['\n'], Json.isBlank c = true := List.forall_mem_singleton.2 (by decide)
  obtain ⟨hdone, herror⟩ := Json.parse_spaced .lines (proper_toJson h) hblank
  rw [← htext, depth_toJson_le_iff] at hdone
  rw [← htext, ← Nat.not_le, depth_toJson_le_iff] at herror
  simp only [DocumentFormat.parse]
  refine ⟨fun hshallow => ?_, fun hdeep => ?_⟩
  · rw [hdone hshallow, Except.mapError]
  · obtain ⟨error, hparse, hcause⟩ := herror hdeep
    exact ⟨error, hcause, by rw [hparse, Except.mapError]⟩

end Reference

/-! ## What a value says

A reference is turned into a value part by part, and each part can be undone: texts, links, servers
and tags are objects of two texts, and an operation is found in its value.  What is not written
cannot be told apart, and there are two such things: the descriptions of namespaces that no tag has
used, and the mark on an operation whose body was replaced.

The path of an operation is written as a key and its name as a text.  In a reference that comes from
requests the one determines the other, and in any other they could disagree; so assembled references
are asked for. -/

/-- Two functions that tell the same elements apart tell the same lists apart. -/
theorem map_eq_map_iff_of_forall {α β γ : Type} {f : α → β} {g : α → γ} {l l' : List α}
    (h : ∀ x ∈ l, ∀ y ∈ l', f x = f y ↔ g x = g y) : l.map f = l'.map f ↔ l.map g = l'.map g := by
  induction l generalizing l' with
  | nil => cases l' <;> simp
  | cons x l ih =>
    cases l' with
    | nil => simp
    | cons y l' =>
      have hrest := ih fun x hx y hy => h x (List.mem_cons_of_mem _ hx) y (List.mem_cons_of_mem _ hy)
      have hfirst := h x List.mem_cons_self y List.mem_cons_self
      simp only [List.map_cons, List.cons.injEq, hfirst, hrest]

namespace Operation

/-- An operation without the mark that its body was replaced. -/
def unmarked (op : Operation) : Operation := { op with bodyReplaced := false }

theorem toJson_unmarked (op : Operation) : op.unmarked.toJson = op.toJson := rfl

/-- **The value of an operation says everything but the mark.**  Its path is its name with a
slash. -/
theorem toJson_eq_iff {op op' : Operation} (h : op.path = pathOf op.summary)
    (h' : op'.path = pathOf op'.summary) : op.toJson = op'.toJson ↔ op.unmarked = op'.unmarked := by
  refine ⟨fun heq => ?_, fun heq => ?_⟩
  · simp only [toJson, requestSchema, Schema.request, Json.strings, Json.object.injEq,
      Json.array.injEq, Json.string.injEq, List.cons.injEq, Prod.mk.injEq, List.map_cons,
      List.map_nil, and_true, true_and] at heq
    obtain ⟨hnamespace, hsummary, hdescription, hid, ⟨-, hparams⟩, hbody⟩ := heq
    rw [unmarked, unmarked, h, h', hnamespace, hsummary, hdescription, hid, hparams, hbody]
  · rw [← op.toJson_unmarked, heq, toJson_unmarked]

end Operation

/-- A configuration without its descriptions of namespaces. -/
def Config.withoutDescriptions (config : Config) : Config := { config with namespaceDescriptions := [] }

namespace Reference

/-- An object of two texts says what they are. -/
theorem object_texts_inj {key key' a b a' b' : String}
    (h : Json.object [(key, .string a), (key', .string b)] =
      .object [(key, .string a'), (key', .string b')]) : a = a' ∧ b = b' := by
  simpa using h

theorem linkJson_injective : Function.Injective linkJson := fun _ _ h =>
  congrArg₂ NamedLink.mk (object_texts_inj h).1 (object_texts_inj h).2

theorem serverJson_injective : Function.Injective serverJson := fun _ _ h =>
  congrArg₂ Server.mk (object_texts_inj h).1 (object_texts_inj h).2

theorem tagJson_injective : Function.Injective tagJson := fun _ _ h =>
  congrArg₂ Tag.mk (object_texts_inj h).1 (object_texts_inj h).2

theorem get?_infoJson_contact (config : Config) :
    (infoJson config).get? "contact" = config.contact.map linkJson := by
  cases hcontact : config.contact <;> cases hlicense : config.license <;>
    simp [infoJson, optionalMember, hcontact, hlicense, Json.get?, Json.members?, Table.get?]

theorem get?_infoJson_license (config : Config) :
    (infoJson config).get? "license" = config.license.map linkJson := by
  cases hcontact : config.contact <;> cases hlicense : config.license <;>
    simp [infoJson, optionalMember, hcontact, hlicense, Json.get?, Json.members?, Table.get?]

/-- What a document says about itself is said by its texts and its links. -/
theorem infoJson_eq_iff {config config' : Config} : infoJson config = infoJson config' ↔
    config.title = config'.title ∧ config.description = config'.description ∧
      config.version = config'.version ∧ config.contact = config'.contact ∧
      config.license = config'.license := by
  refine ⟨fun h => ?_, ?_⟩
  · have hlinks := Option.map_injective linkJson_injective
    have hcontact := get?_infoJson_contact config
    have hlicense := get?_infoJson_license config
    rw [h, get?_infoJson_contact] at hcontact
    rw [h, get?_infoJson_license] at hlicense
    simp only [infoJson, List.cons_append, List.nil_append, Json.object.injEq, Json.string.injEq,
      List.cons.injEq, Prod.mk.injEq, true_and] at h
    exact ⟨h.1, h.2.1, h.2.2.1, (hlinks hcontact).symm, (hlinks hlicense).symm⟩
  · rintro ⟨htitle, hdescription, hversion, hcontact, hlicense⟩
    rw [infoJson, infoJson, htitle, hdescription, hversion, hcontact, hlicense]

/-- **References that differ at most** in the known descriptions of namespaces and in the marks of
their operations. -/
structure SaysSame (a b : Reference) : Prop where
  /-- The same operations under the same paths, but for their marks. -/
  paths : (a.paths.entries.map fun entry => (entry.1, entry.2.unmarked)) =
    b.paths.entries.map fun entry => (entry.1, entry.2.unmarked)
  /-- The same tags in the same order. -/
  tags : a.tags = b.tags
  /-- The same configuration, but for the known descriptions. -/
  config : a.config.withoutDescriptions = b.config.withoutDescriptions

/-- References put together from requests, each of them listed under some namespace. -/
def IsAssembled (reference : Reference) : Prop :=
  ∃ (requests : List (Resource × String)) (tags : List Tag) (config : Config),
    reference = assemble (requests.map fun request => .ofRequest request.1 request.2) tags config

theorem IsAssembled.exists_ofRequest {reference : Reference} (h : reference.IsAssembled)
    {op : Operation} (hop : op ∈ reference.paths.operations) :
    ∃ r namespaceName, op = .ofRequest r namespaceName := by
  obtain ⟨requests, tags, config, rfl⟩ := h
  obtain ⟨request, -, rfl⟩ := List.mem_map.1 (PathMap.mem_of_mem_operations_ofList hop)
  exact ⟨request.1, request.2, rfl⟩

theorem IsAssembled.path_eq {reference : Reference} (h : reference.IsAssembled)
    {entry : String × Operation} (hentry : entry ∈ reference.paths.entries) :
    entry.2.path = Operation.pathOf entry.2.summary := by
  obtain ⟨r, namespaceName, hop⟩ := h.exists_ofRequest (List.mem_map.2 ⟨entry, hentry, rfl⟩)
  rw [hop]
  rfl

/-- **Two references are the same value exactly if they say the same.** -/
theorem toJson_eq_iff {a b : Reference} (ha : a.IsAssembled) (hb : b.IsAssembled) :
    a.toJson = b.toJson ↔ a.SaysSame b := by
  have hpaths : pathsJson a.paths = pathsJson b.paths ↔
      (a.paths.entries.map fun entry => (entry.1, entry.2.unmarked)) =
        b.paths.entries.map fun entry => (entry.1, entry.2.unmarked) := by
    rw [pathsJson, pathsJson, Json.object.injEq]
    refine map_eq_map_iff_of_forall fun x hx y hy => ?_
    have hop := Operation.toJson_eq_iff (ha.path_eq hx) (hb.path_eq hy)
    simp only [Prod.mk.injEq, Json.object.injEq, List.cons.injEq, true_and, and_true, hop]
  refine ⟨fun h => ?_, fun h => ?_⟩
  · simp only [toJson, Json.object.injEq, Json.array.injEq, Json.string.injEq, List.cons.injEq,
      Prod.mk.injEq, true_and, and_true] at h
    obtain ⟨hopenapi, hinfo, hservers, hoperations, htags⟩ := h
    obtain ⟨htitle, hdescription, hversion, hcontact, hlicense⟩ := infoJson_eq_iff.1 hinfo
    have hservers := List.map_injective_iff.2 serverJson_injective hservers
    refine ⟨hpaths.1 hoperations, List.map_injective_iff.2 tagJson_injective htags, ?_⟩
    simp only [Config.withoutDescriptions, hopenapi, htitle, hdescription, hversion, hcontact, hlicense,
      hservers]
  · have hvalue : ∀ reference : Reference, reference.toJson = .object [
        ("openapi", .string reference.config.withoutDescriptions.openapiVersion),
        ("info", infoJson reference.config.withoutDescriptions),
        ("servers", .array (reference.config.withoutDescriptions.servers.map serverJson)),
        ("paths", pathsJson reference.paths), ("components", Schema.components),
        ("tags", .array (reference.tags.map tagJson))] := fun _ => rfl
    rw [hvalue a, hvalue b, h.config, hpaths.2 h.paths, h.tags]

/-! ## What the text keeps

With both halves at hand the text is as good as the reference: equal texts are read back as equal
values, and equal values say the same. -/

/-- References whose text keeps everything. -/
structure IsExact (reference : Reference) : Prop where
  /-- They come from requests. -/
  assembled : reference.IsAssembled
  /-- Their example bodies hold no floating point number. -/
  integral : ∀ op ∈ reference.paths.operations, op.exampleBody.Integral
  /-- They are nested no deeper than a reader follows, which is 127 levels. -/
  depth_le : reference.toJson.depth ≤ Json.nestingLimit

/-- **An exact reference is read back as it is**, with its members in their order. -/
theorem IsExact.parse_render {reference : Reference} (h : reference.IsExact) :
    DocumentFormat.parse .json (reference.render .json) = .ok reference.toJson := by
  have hproper : ∀ op ∈ reference.paths.operations, op.IsProper := by
    intro op hop
    obtain ⟨r, namespaceName, rfl⟩ := h.assembled.exists_ofRequest hop
    exact Operation.isProper_ofRequest r namespaceName
  have hintegral : reference.toJson.Integral := by
    refine integral_toJson fun op hop => ?_
    have hbody := h.integral op hop
    obtain ⟨r, namespaceName, rfl⟩ := h.assembled.exists_ofRequest hop
    exact Operation.integral_toJson hbody (Operation.integral_paramsOf hbody)
  rw [(Reference.parse_render hproper).1 ((depth_toJson_le_iff reference).1 h.depth_le),
    hintegral.mapFloats_eq]

/-- **The text of an exact reference loses nothing.**  It is read back as the value of the
reference, it ends in exactly one line feed, and the texts of two such references are equal, as
their values are, exactly if the two say the same. -/
theorem render_lossless {a b : Reference} (ha : a.IsExact) (hb : b.IsExact) :
    DocumentFormat.parse .json (a.render .json) = .ok a.toJson ∧
      (∃ start last, (a.render .json).toList = start ++ [last, '\n'] ∧ last ≠ '\n') ∧
      (a.toJson = b.toJson ↔ a.SaysSame b) ∧
      (a.render .json = b.render .json ↔ a.SaysSame b) := by
  have hvalues := toJson_eq_iff ha.assembled hb.assembled
  obtain ⟨start, hstart⟩ := a.exists_pretty_eq
  have hend : (a.render .json).toList = start ++ ['}', '\n'] := by
    rw [toList_render_json, hstart, List.append_assoc]
    rfl
  refine ⟨ha.parse_render, ⟨start, '}', hend, by decide⟩, hvalues, fun h => ?_, fun h => ?_⟩
  · have hread := ha.parse_render
    rw [h, hb.parse_render] at hread
    exact hvalues.1 (Except.ok.inj hread).symm
  · have hvalue := hvalues.2 h
    rw [render, hvalue, render]

/-! ## A body that was replaced

One request whose body text is the first half of an empty object, and one with the whole of it.
After the first was replaced, the two references differ in the mark, and here in a known
description, too. -/

/-- The request `a` with a body text. -/
def requestOfBody (text : String) : Resource :=
  ⟨"", .request, none, "a", none, some ⟨some text⟩⟩

/-- The reference of this request, for some known descriptions. -/
def ofBody (text : String) (descriptions : Table String String) : Reference :=
  assemble [.ofRequest (requestOfBody text) "N"] [⟨"N", ""⟩]
    { Config.default with namespaceDescriptions := descriptions }

theorem operations_ofBody (text : String) (descriptions : Table String String) :
    (ofBody text descriptions).paths.operations = [.ofRequest (requestOfBody text) "N"] := by
  rfl

/-- With an empty object for a body there are no numbers and few levels. -/
theorem isExact_ofBody {text : String} {marked : Bool} (descriptions : Table String String)
    (h : Operation.parseBody text = (.object [], marked)) : (ofBody text descriptions).IsExact := by
  have hbody : (Operation.ofRequest (requestOfBody text) "N").exampleBody = .object [] :=
    congrArg Prod.fst h
  have hparams : (Operation.ofRequest (requestOfBody text) "N").params = .array [] := by
    change Operation.paramsOf (Operation.parseBody text).1 = _
    rw [h]
    rfl
  refine ⟨⟨[(requestOfBody text, "N")], _, _, rfl⟩, ?_, (depth_toJson_le_iff _).2 ?_⟩
  · rw [operations_ofBody, List.forall_mem_singleton, hbody]
    exact .object [] (by simp)
  · rw [IsShallow, operations_ofBody, List.forall_mem_singleton, Operation.isShallow_iff, hbody,
      hparams]
    decide

/-- A body that was replaced cannot be told from an empty object, nor a description that was known
from one that was not. -/
theorem render_lossless_replacedBody :
    (ofBody "\x7b\x7d" []).IsExact ∧ (ofBody "\x7b" [("N", "")]).IsExact ∧
      DocumentFormat.parse .json ((ofBody "\x7b\x7d" []).render .json) =
        .ok (ofBody "\x7b\x7d" []).toJson ∧
      (ofBody "\x7b\x7d" []).render .json = (ofBody "\x7b" [("N", "")]).render .json := by
  have hempty : Operation.parseBody "\x7b\x7d" = (.object [], false) := by rfl
  have hbroken : Operation.parseBody "\x7b" = (.object [], true) := by rfl
  have hexact := isExact_ofBody [] hempty
  have hexact' := isExact_ofBody [("N", "")] hbroken
  have hvalues : (ofBody "\x7b\x7d" []).toJson = (ofBody "\x7b" [("N", "")]).toJson := by rfl
  obtain ⟨hparse, -, hvalue, htext⟩ := render_lossless hexact hexact'
  exact ⟨hexact, hexact', hparse, htext.2 (hvalue.1 hvalues)⟩

end Reference

end RpcReference
