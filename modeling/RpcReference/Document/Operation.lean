import RpcReference.Workspace
import RpcReference.Document.Schema
import RpcReference.Json.Reader

/-!
# Operations

One request of the workspace becomes one documented operation, listed under the namespace of the
request.

* `Operation.ofRequest` — the operation of a request.
* `Operation.parseBody` — **a body that is not valid JSON becomes an empty object**, and the
  operation remembers it; one broken body never stops a conversion.
* `Operation.toJson` — the operation as it stands in the reference.
-/

set_option autoImplicit false

namespace RpcReference

/-- A documented operation. -/
structure Operation where
  /-- The key in the path map: a slash and the name of the method. -/
  path : String
  /-- The namespace it is listed under. -/
  namespaceName : String
  /-- The name of the method. -/
  summary : String
  /-- What it does. -/
  description : String
  /-- The name of the method with underscores for hyphens. -/
  operationId : String
  /-- The example of its parameters. -/
  params : Json
  /-- The example of its request body. -/
  exampleBody : Json
  /-- Whether the body text was no JSON and an empty object stands for it. -/
  bodyReplaced : Bool

namespace Operation

/-- The value of a body text, and whether it had to be replaced. -/
def parseBody (text : String) : Json × Bool :=
  match Json.parse text with
  | .ok value => (value, false)
  | .error _ => (.object [], true)

/-- The parameters that a body shows, an empty list if it shows none. -/
def paramsOf (body : Json) : Json := (body.get? "params").getD (.array [])

/-- The path of a method. -/
def pathOf (method : String) : String := "/" ++ method

/-- The operation id of a method. -/
def idOf (method : String) : String :=
  String.ofList (method.toList.map fun c => if c = '-' then '_' else c)

/-- The description of a request, a generated one if it has none. -/
def describe (r : Resource) : String :=
  match r.description with
  | some text => if text = "" then "Execute " ++ r.name ++ " method" else text
  | none => "Execute " ++ r.name ++ " method"

/-- The operation of a request in a namespace. -/
def ofRequest (r : Resource) (namespaceName : String) : Operation :=
  let body := parseBody r.bodyText
  { path := pathOf r.name
    namespaceName := namespaceName
    summary := r.name
    description := describe r
    operationId := idOf r.name
    params := paramsOf body.1
    exampleBody := body.1
    bodyReplaced := body.2 }

/-- The schema of the operation's request. -/
def requestSchema (op : Operation) : Json := Schema.request op.summary op.params

/-- The operation as it stands in the reference. -/
def toJson (op : Operation) : Json :=
  .object [
    ("tags", .strings [op.namespaceName]),
    ("summary", .string op.summary),
    ("description", .string op.description),
    ("operationId", .string op.operationId),
    ("requestBody", .object [
      ("required", .bool true),
      ("content", .object [
        ("application/json", .object [
          ("schema", op.requestSchema),
          ("example", op.exampleBody)])])]),
    ("responses", Schema.responses)]

end Operation
end RpcReference
