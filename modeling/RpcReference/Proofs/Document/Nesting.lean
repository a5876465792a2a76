import RpcReference.Document.Basic
import RpcReference.Proofs.Document.Paths
import RpcReference.Proofs.Json.Proper

/-!
# The nesting of a reference

A reference holds the example body of a request seven levels deep, and its parameters once more, ten
levels deep.

* `Operation.IsShallow` — an operation whose examples leave room for these levels.
* `Operation.not_isShallow_ofRequest_iff` — the operations of requests that are not: bodies are read
  to a depth of their own, so there are levels which that depth allows and the reference around it
  does not.
* `Reference.depth_toJson_le_iff` — **a reference can be read exactly if all its operations are
  shallow**.
* `Reference.proper_toJson` — nothing else keeps a reference from being read.
-/

set_option autoImplicit false

namespace RpcReference

open Json (proper_array_iff proper_object_iff depth depthOfItems depthOfMembers nestingLimit)

/-! ## Fixed parts

Most of a reference is the same for all workspaces, and its depth is a number.  Only the schema of a
request has something put into it, and its depth depends on that. -/

namespace Schema

theorem proper_components : components.Proper := by
  simp [components, requestEnvelope, responseEnvelope, errorEnvelope, requestMembers, idMembers,
    ofType, Json.strings, proper_array_iff, proper_object_iff, Json.Proper.string]

theorem depth_components : components.depth = 7 := rfl

theorem proper_responses : responses.Proper := by
  simp [responses, proper_object_iff, Json.Proper.string]

theorem depth_responses : responses.depth = 5 := rfl

theorem proper_request {params : Json} (method : String) (h : params.Proper) :
    (request method params).Proper := by
  have hone : (Json.int 1).Proper := .int 1 (by decide)
  simp [request, requestMembers, idMembers, ofType, Json.strings, proper_array_iff,
    proper_object_iff, Json.Proper.string, h, hone]

/-- The example parameters stand three levels deep. -/
theorem depth_request (method : String) (params : Json) :
    (request method params).depth = max 5 (params.depth + 3) := by
  simp [request, requestMembers, idMembers, ofType, Json.strings, Json.int, depth, depthOfItems,
    depthOfMembers]
  omega

end Schema

/-! ## Operations

An operation is as deep as the deepest of its parts, which are the two examples and the fixed
schemas around them.  The example parameters are part of the example body and less deep, but they
stand further inside; so neither of the two bounds follows from the other. -/

namespace Operation

/-- An operation whose examples can be written and read. -/
structure IsProper (op : Operation) : Prop where
  /-- Its example body can. -/
  body : op.exampleBody.Proper
  /-- Its parameters can. -/
  params : op.params.Proper

/-- **An operation whose examples can be read inside a reference**, seven and ten levels deep. -/
structure IsShallow (op : Operation) : Prop where
  /-- There is room for the levels around the example body. -/
  body : op.exampleBody.depth + 7 ≤ nestingLimit
  /-- There is room for the levels around the parameters. -/
  params : op.params.depth + 10 ≤ nestingLimit

/-- The bounds as numbers. -/
theorem isShallow_iff {op : Operation} :
    op.IsShallow ↔ op.exampleBody.depth ≤ 120 ∧ op.params.depth ≤ 117 := by
  have hlimit : nestingLimit = 127 := rfl
  refine ⟨fun h => ⟨?_, ?_⟩, fun h => ⟨?_, ?_⟩⟩
  · have hbody := h.body
    omega
  · have hparams := h.params
    omega
  · omega
  · omega

theorem proper_toJson {op : Operation} (h : op.IsProper) : op.toJson.Proper := by
  have hbool : (Json.bool true).Proper := .bool true
  simp [toJson, requestSchema, Json.strings, proper_array_iff, proper_object_iff, Json.Proper.string,
    hbool, h.body, Schema.proper_request op.summary h.params, Schema.proper_responses]

/-- Four levels stand around the example body, and seven around the parameters. -/
theorem depth_toJson (op : Operation) :
    op.toJson.depth = max 9 (max (op.exampleBody.depth + 4) (op.params.depth + 7)) := by
  simp [toJson, requestSchema, Json.strings, depth, depthOfItems, depthOfMembers,
    Schema.depth_request, Schema.depth_responses]
  omega

/-- A body was read, or it is the empty object. -/
theorem proper_parseBody (text : String) : (parseBody text).1.Proper := by
  rw [parseBody]
  split
  · next hparse => exact Json.proper_of_parse hparse
  · exact .object [] List.nodup_nil (by simp)

/-- The parameters are a member of the body, or an empty list. -/
theorem paramsOf_eq (body : Json) : paramsOf body = .array [] ∨
    ∃ members, body = .object members ∧ ("params", paramsOf body) ∈ members := by
  rw [paramsOf, Json.get?]
  cases body with
  | object members =>
    rw [Json.members?, Option.bind_some]
    cases hparams : Table.get? "params" members with
    | none => exact .inl rfl
    | some params => exact .inr ⟨members, rfl, Table.mem_of_get? hparams⟩
  | _ => exact .inl rfl

theorem proper_paramsOf {body : Json} (h : body.Proper) : (paramsOf body).Proper := by
  obtain hempty | ⟨members, rfl, hmem⟩ := paramsOf_eq body
  · rw [hempty]
    exact .array [] (by simp)
  · exact (proper_object_iff.1 h).2 _ hmem

/-- **The examples of a request can be written and read.** -/
theorem isProper_ofRequest (r : Resource) (namespaceName : String) :
    (ofRequest r namespaceName).IsProper :=
  ⟨proper_parseBody r.bodyText, proper_paramsOf (proper_parseBody r.bodyText)⟩

/-- **A body is nested as deeply as the reader of bodies allows**, and its parameters less
deeply. -/
theorem depth_ofRequest_le (r : Resource) (namespaceName : String) :
    (ofRequest r namespaceName).exampleBody.depth ≤ nestingLimit ∧
      (ofRequest r namespaceName).params.depth < nestingLimit := by
  have hbody : (parseBody r.bodyText).1.depth ≤ nestingLimit := by
    rw [parseBody]
    split
    · next hparse => exact Json.depth_le_of_parse hparse
    · decide
  refine ⟨hbody, ?_⟩
  show (paramsOf (parseBody r.bodyText).1).depth < nestingLimit
  obtain hempty | ⟨members, heq, hmem⟩ := paramsOf_eq (parseBody r.bodyText).1
  · rw [hempty]
    decide
  · rw [heq] at hbody
    exact Nat.lt_succ_of_le (Json.depth_object_le_succ_iff.1 hbody _ hmem)

/-- **Where the two limits disagree.**  Bodies and references are read to the same depth, so what
can be read from a request, but not inside a reference, is a body in the last seven levels or
parameters in the last nine. -/
theorem not_isShallow_ofRequest_iff {r : Resource} {namespaceName : String} :
    ¬ (ofRequest r namespaceName).IsShallow ↔
      (120 < (ofRequest r namespaceName).exampleBody.depth ∧
        (ofRequest r namespaceName).exampleBody.depth ≤ 127) ∨
      (117 < (ofRequest r namespaceName).params.depth ∧
        (ofRequest r namespaceName).params.depth ≤ 126) := by
  have hlimit : nestingLimit = 127 := rfl
  obtain ⟨hbody, hparams⟩ := depth_ofRequest_le r namespaceName
  rw [isShallow_iff]
  omega

end Operation

/-! ## References

A reference adds three levels to its operations: itself, its paths, and the object under a path.
Its other parts stay far below the limit, so the operations decide. -/

namespace Reference

/-- **A reference whose operations are shallow.** -/
def IsShallow (reference : Reference) : Prop :=
  ∀ op ∈ reference.paths.operations, op.IsShallow

theorem proper_infoJson (config : Config) : (infoJson config).Proper := by
  cases hcontact : config.contact <;> cases hlicense : config.license <;>
    simp [infoJson, optionalMember, linkJson, hcontact, hlicense, proper_object_iff,
      Json.Proper.string]

theorem depth_infoJson_le (config : Config) : (infoJson config).depth ≤ 2 := by
  cases hcontact : config.contact <;> cases hlicense : config.license <;>
    simp [infoJson, optionalMember, linkJson, hcontact, hlicense, depth, depthOfMembers]

/-- Nothing but the nesting can keep a reference from being read. -/
theorem proper_toJson {reference : Reference}
    (h : ∀ op ∈ reference.paths.operations, op.IsProper) : reference.toJson.Proper := by
  have hpaths : (pathsJson reference.paths).Proper := by
    refine proper_object_iff.2 ⟨?_, ?_⟩
    · have := reference.paths.nodup_keys
      simpa [Table.keys, Function.comp_def] using this
    · rintro _ hmember
      obtain ⟨⟨path, op⟩, hentry, rfl⟩ := List.mem_map.1 hmember
      have hop := Operation.proper_toJson (h op (List.mem_map.2 ⟨(path, op), hentry, rfl⟩))
      simpa [proper_object_iff] using hop
  have hservers : ∀ server, (serverJson server).Proper := fun server => by
    simp [serverJson, proper_object_iff, Json.Proper.string]
  have htags : ∀ tag, (tagJson tag).Proper := fun tag => by
    simp [tagJson, proper_object_iff, Json.Proper.string]
  simp [toJson, proper_object_iff, proper_array_iff, Json.Proper.string, proper_infoJson,
    Schema.proper_components, hpaths, hservers, htags]

/-- **A reference can be read exactly if its operations are shallow.** -/
theorem depth_toJson_le_iff (reference : Reference) :
    reference.toJson.depth ≤ nestingLimit ↔ reference.IsShallow := by
  -- the limit is taken apart one level at a time, from the operation outwards
  have hop : ∀ op : Operation,
      (Json.object [("post", op.toJson)]).depth ≤ 125 ↔ op.IsShallow := by
    intro op
    rw [Json.depth_object_le_succ_iff, List.forall_mem_singleton, op.depth_toJson,
      Operation.isShallow_iff]
    omega
  have hpaths : (pathsJson reference.paths).depth ≤ 126 ↔ reference.IsShallow := by
    rw [pathsJson, Json.depth_object_le_succ_iff, List.forall_mem_map, IsShallow,
      PathMap.operations, Table.values, List.forall_mem_map]
    exact forall₂_congr fun entry _ => hop entry.2
  have hservers : (Json.array (reference.config.servers.map serverJson)).depth ≤ 126 := by
    rw [Json.depth_array_le_succ_iff, List.forall_mem_map]
    exact fun server _ => Nat.le_of_lt (by simp [serverJson, depth, depthOfMembers])
  have htags : (Json.array (reference.tags.map tagJson)).depth ≤ 126 := by
    rw [Json.depth_array_le_succ_iff, List.forall_mem_map]
    exact fun tag _ => Nat.le_of_lt (by simp [tagJson, depth, depthOfMembers])
  have hinfo : (infoJson reference.config).depth ≤ 126 :=
    (depth_infoJson_le _).trans (by decide)
  have hcomponents : Schema.components.depth ≤ 126 := by
    rw [Schema.depth_components]
    decide
  have hstring : (Json.string reference.config.openapiVersion).depth ≤ 126 := Nat.zero_le _
  rw [show nestingLimit = 126 + 1 from rfl, toJson, Json.depth_object_le_succ_iff]
  simp only [List.forall_mem_cons, hstring, hinfo, hservers, hpaths, hcomponents, htags, true_and,
    and_true, List.not_mem_nil, false_implies, implies_true]

end Reference
end RpcReference
