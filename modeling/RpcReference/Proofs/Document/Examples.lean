import RpcReference.Proofs.Document.Nesting
import RpcReference.Proofs.Json.ReadBack

/-!
# The examples of an operation

An operation shows the body of its request as it is, and the parameters in it once more in the
schema of the request.

* `Json.follow?` — the value that keys lead to from object to object; `Operation.exampleKeys`,
  `Operation.paramsKeys` and `Operation.methodKeys` lead to the parts of an operation that depend on
  its request.
* `Operation.Shows` — **how an operation shows a request**: its examples, its names, its tag and its
  description, each read off its value in the reference.
* `Operation.ofRequest_shows` — the operation of a request shows it; and if the body text is the
  text of a value, then that value is the example, with its members in their order.
-/

set_option autoImplicit false

namespace RpcReference

/-- The value that keys lead to, from object to object. -/
def Json.follow? : List String → Json → Option Json
  | [], value => some value
  | key :: keys, value => (value.get? key).bind (follow? keys)

namespace Operation

/-! ## Where the parts of an operation stand

The value of an operation is a fixed frame with places for what comes from the request.  The frame
is written out in the definition, so the keys that lead to a place are followed by computation. -/

/-- The keys that lead to the content of the request body. -/
def contentKeys : List String := ["requestBody", "content", "application/json"]

/-- The keys that lead to the example body. -/
def exampleKeys : List String := contentKeys ++ ["example"]

/-- The keys that lead to the example parameters. -/
def paramsKeys : List String := contentKeys ++ ["schema", "properties", "params", "example"]

/-- The keys that lead to the methods that the schema allows. -/
def methodKeys : List String := contentKeys ++ ["schema", "properties", "method", "enum"]

theorem follow?_exampleKeys (op : Operation) :
    op.toJson.follow? exampleKeys = some op.exampleBody := rfl

theorem follow?_paramsKeys (op : Operation) : op.toJson.follow? paramsKeys = some op.params := rfl

theorem follow?_methodKeys (op : Operation) :
    op.toJson.follow? methodKeys = some (.array [.string op.summary]) := rfl

/-! ## The parts that come from a request

The body decides between two cases, whether its text can be read or not.  The parameters are looked
up in what was read, so they depend on the body only through its value. -/

theorem parseBody_eq_of_ok {text : String} {value : Json} (h : Json.parse text = .ok value) :
    parseBody text = (value, false) := by
  rw [parseBody, h]

theorem parseBody_eq_of_error {text : String} {error : JsonError}
    (h : Json.parse text = .error error) : parseBody text = (.object [], true) := by
  rw [parseBody, h]

/-- The parameters are a member of an object, or else an empty list. -/
theorem paramsOf_eq_iff {body params : Json} :
    paramsOf body = params ↔
      (∃ members, body = .object members ∧ Table.get? "params" members = some params) ∨
      (body.get? "params" = none ∧ params = .array []) := by
  rw [paramsOf]
  constructor
  · rintro rfl
    cases hparams : body.get? "params" with
    | none => exact .inr ⟨rfl, rfl⟩
    | some params =>
      cases body with
      | object members => exact .inl ⟨members, rfl, hparams⟩
      | _ => cases hparams
  · rintro (⟨members, rfl, hparams⟩ | ⟨hnone, rfl⟩)
    · change ((Table.get? "params" members).getD _) = params
      rw [hparams, Option.getD_some]
    · rw [hnone, Option.getD_none]

/-- A generated description is there for a request without one. -/
theorem describe_ne_empty (r : Resource) : describe r ≠ "" := by
  have hgenerated : "Execute " ++ r.name ++ " method" ≠ "" := by
    intro h
    have hlength := congrArg String.length h
    simp at hlength
  rw [describe]
  split
  · split
    · exact hgenerated
    · next htext => exact htext
  · exact hgenerated

/-! ## Showing a request

What a reader of the reference sees of a request is gathered in one structure, and stated over the
value of the operation and not over its fields: the fields could be right and not be written.  A
text that was written from a value is read as that value, so for such texts the example is the value
itself. -/

/-- **How an operation shows a request** under a namespace, by its value in the reference. -/
structure Shows (op : Operation) (r : Resource) (namespaceName : String) : Prop where
  /-- A body text that holds a value is shown as that value. -/
  example_of_ok : ∀ value, Json.parse r.bodyText = .ok value →
    op.toJson.follow? exampleKeys = some value ∧ op.bodyReplaced = false
  /-- An empty object stands for any other body text, and the operation is marked. -/
  example_of_error : ∀ error, Json.parse r.bodyText = .error error →
    op.toJson.follow? exampleKeys = some (.object []) ∧ op.bodyReplaced = true
  /-- The parameters in the schema are the member of the example body, of whatever type, if that is
  an object that has one; and an empty list otherwise. -/
  params : ∃ body, op.toJson.follow? exampleKeys = some body ∧
    op.toJson.follow? paramsKeys = some op.params ∧
    ((∃ members, body = .object members ∧ Table.get? "params" members = some op.params) ∨
      (body.get? "params" = none ∧ op.params = .array []))
  /-- The summary is the name of the request. -/
  summary : op.summary = r.name ∧ op.toJson.get? "summary" = some (.string op.summary)
  /-- The schema allows the method of the summary and no other. -/
  method : op.toJson.follow? methodKeys = some (.array [.string op.summary])
  /-- The path is the summary with a slash. -/
  path : op.path = "/" ++ op.summary
  /-- The namespace is the only tag. -/
  tags : op.toJson.get? "tags" = some (.array [.string namespaceName])
  /-- There is always something to say. -/
  description : ∃ text, op.toJson.get? "description" = some (.string text) ∧ text ≠ ""

/-- Every part is read off the definition, or is a case of the body. -/
theorem shows_ofRequest (r : Resource) (namespaceName : String) :
    (ofRequest r namespaceName).Shows r namespaceName where
  example_of_ok value h := by
    rw [follow?_exampleKeys, ofRequest, parseBody_eq_of_ok h]
    exact ⟨rfl, rfl⟩
  example_of_error error h := by
    rw [follow?_exampleKeys, ofRequest, parseBody_eq_of_error h]
    exact ⟨rfl, rfl⟩
  params := ⟨_, follow?_exampleKeys _, follow?_paramsKeys _, paramsOf_eq_iff.1 rfl⟩
  summary := ⟨rfl, rfl⟩
  method := follow?_methodKeys _
  path := rfl
  tags := rfl
  description := ⟨_, rfl, describe_ne_empty r⟩

/-- **The operation of a request shows it.**  In particular, if the body text is a value written on
one line or on several, at most 127 levels deep and with no other numbers than integers, then the
example is that very value. -/
theorem ofRequest_shows (r : Resource) (namespaceName : String) :
    (ofRequest r namespaceName).Shows r namespaceName ∧
    ∀ value : Json, value.Proper → value.Integral → value.depth ≤ 127 →
      r.bodyText ∈ [value.compact, value.pretty, value.pretty ++ "\n"] →
      (ofRequest r namespaceName).toJson.follow? exampleKeys = some value ∧
        (ofRequest r namespaceName).bodyReplaced = false := by
  have hshows := shows_ofRequest r namespaceName
  refine ⟨hshows, fun value hproper hintegral hdepth htext => ?_⟩
  exact hshows.example_of_ok value (hintegral.parse_eq hproper hdepth htext)

/-! ## An unusual body

Nothing of it is as one would write it by hand, and all of it is shown. -/

/-- A body with members out of order, an empty key, characters that are escaped, and parameters that
are no list. -/
def unusualBody : Json :=
  .object [("params", .null), ("id", .int (-1)), ("", .array [.string "\"\\\n\x01é"]),
    ("a", .object [])]

/-- A request with a body text. -/
def requestOf (text : String) : Resource := ⟨"", .request, none, "a-b", some "", some ⟨some text⟩⟩

theorem bodyText_requestOf (text : String) : (requestOf text).bodyText = text := rfl

theorem ofRequest_shows_unusualBody :
    unusualBody.Proper ∧ unusualBody.Integral ∧ unusualBody.depth ≤ 127 ∧
    (requestOf unusualBody.pretty).bodyText ∈
      [unusualBody.compact, unusualBody.pretty, unusualBody.pretty ++ "\n"] ∧
    (ofRequest (requestOf unusualBody.pretty) "N").toJson.follow? exampleKeys = some unusualBody ∧
    (ofRequest (requestOf unusualBody.pretty) "N").toJson.follow? paramsKeys = some .null := by
  have hproper : unusualBody.Proper := by
    simp [unusualBody, Json.int, Json.proper_object_iff, Json.proper_array_iff, Json.Proper.string,
      Json.Proper.null, Json.Proper.int (-1) (by decide)]
  have hintegral : unusualBody.Integral := by
    simp [unusualBody, Json.int, Json.integral_object_iff, Json.integral_array_iff,
      Json.Integral.string, Json.Integral.null, Json.Integral.int]
  have hdepth : unusualBody.depth ≤ 127 := by decide
  have htext : (requestOf unusualBody.pretty).bodyText ∈
      [unusualBody.compact, unusualBody.pretty, unusualBody.pretty ++ "\n"] := by
    rw [bodyText_requestOf, List.mem_cons, List.mem_cons]
    exact .inr (.inl rfl)
  obtain ⟨hshows, hverbatim⟩ := ofRequest_shows (requestOf unusualBody.pretty) "N"
  obtain ⟨hexample, -⟩ := hverbatim unusualBody hproper hintegral hdepth htext
  obtain ⟨body, hbody, hparams, hcases⟩ := hshows.params
  obtain rfl : unusualBody = body := Option.some.inj (hexample.symm.trans hbody)
  have hnull : unusualBody.get? "params" = some .null := rfl
  refine ⟨hproper, hintegral, hdepth, htext, hexample, ?_⟩
  rw [hparams, ← paramsOf_eq_iff.2 hcases, paramsOf, hnull, Option.getD_some]

end Operation
end RpcReference
