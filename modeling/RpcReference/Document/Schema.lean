import RpcReference.Json.Basic

/-!
# Schemas

The fixed parts of the reference: the envelopes of a JSON-RPC request, response and error, the
responses that every operation declares, and the schema of one method's request.  Only that last one
depends on a request: it **pins the method name and shows the example parameters**.
-/

set_option autoImplicit false

namespace RpcReference.Schema

open Json (object array string strings)

/-- The version of the JSON-RPC protocol. -/
def jsonRpcVersion : String := "2.0"

/-- The reference under which the response envelope is found. -/
def responseReference : String := "#/components/schemas/JSONRPCResponse"

/-- The schema of a type without further constraints. -/
def ofType (typeName : String) : Json := object [("type", string typeName)]

/-- The members that every request has to have. -/
def requestMembers : List String := ["jsonrpc", "method", "params", "id"]

/-- The members of the schema of a request id. -/
def idMembers : List (String × Json) :=
  [("oneOf", array [ofType "string", ofType "integer"])]

/-! ## Envelopes -/

/-- The envelope of a request. -/
def requestEnvelope : Json :=
  object [
    ("type", string "object"),
    ("required", strings requestMembers),
    ("properties", object [
      ("jsonrpc", object [
        ("type", string "string"),
        ("enum", strings [jsonRpcVersion]),
        ("description", string "JSON-RPC version")]),
      ("method", object [
        ("type", string "string"),
        ("description", string "Method name")]),
      ("params", object [
        ("type", string "array"),
        ("description", string "Method parameters")]),
      ("id", object (idMembers ++ [("description", string "Request identifier")]))])]

/-- The envelope of a response. -/
def responseEnvelope : Json :=
  object [
    ("type", string "object"),
    ("required", strings ["jsonrpc", "id"]),
    ("properties", object [
      ("jsonrpc", object [
        ("type", string "string"),
        ("enum", strings [jsonRpcVersion])]),
      ("result", object [("description", string "Result of the method call")]),
      ("error", object [("$ref", string "#/components/schemas/JSONRPCError")]),
      ("id", object idMembers)])]

/-- The envelope of an error. -/
def errorEnvelope : Json :=
  object [
    ("type", string "object"),
    ("required", strings ["code", "message"]),
    ("properties", object [
      ("code", object [
        ("type", string "integer"),
        ("description", string "Error code")]),
      ("message", object [
        ("type", string "string"),
        ("description", string "Error message")]),
      ("data", object [("description", string "Additional error data")])])]

/-- The reusable parts of the reference. -/
def components : Json :=
  object [("schemas", object [
    ("JSONRPCRequest", requestEnvelope),
    ("JSONRPCResponse", responseEnvelope),
    ("JSONRPCError", errorEnvelope)])]

/-- The responses that every operation declares. -/
def responses : Json :=
  object [
    ("200", object [
      ("description", string "Successful response"),
      ("content", object [
        ("application/json", object [
          ("schema", object [("$ref", string responseReference)])])])]),
    ("400", object [("description", string "Bad request - Invalid JSON-RPC request")]),
    ("500", object [("description", string "Internal server error")])]

/-! ## The request of one method -/

/-- The schema of a method's request, with an example of its parameters. -/
def request (method : String) (params : Json) : Json :=
  object [
    ("type", string "object"),
    ("required", strings requestMembers),
    ("properties", object [
      ("jsonrpc", object [
        ("type", string "string"),
        ("enum", strings [jsonRpcVersion]),
        ("example", string jsonRpcVersion)]),
      ("method", object [
        ("type", string "string"),
        ("enum", strings [method]),
        ("example", string method)]),
      ("params", object [
        ("type", string "array"),
        ("items", object []),
        ("example", params)]),
      ("id", object (idMembers ++ [("example", Json.int 1)]))])]

end RpcReference.Schema
