import RpcReference.Json.Fault

/-!
# Failures

Everything that can stop a conversion or a check, with its wording.

* `InputFault` — what makes a workspace document unusable.
* `Failure` — what stops a command.
* `Failure.message` — the sentence that describes a failure.
* `Failure.report` — the short form in which a failed command names it.

Three failures carry no details: `Failure.io`, `Failure.yaml` and `InputFault.notYaml`.  The
sentences of these go on after a colon **in the words of the operating system or of the library that
reads YAML**, which nothing here decides; so they stop before the colon.  The words of the JSON
reader are part of the project (`JsonError.message`) and stand in the sentences.
-/

set_option autoImplicit false

namespace RpcReference

/-- What makes a workspace document unusable. -/
inductive InputFault where
  /-- It has no resources. -/
  | noResources
  /-- Its resources are no list. -/
  | resourcesNoList
  /-- It is not the JSON text that it should be. -/
  | notJson (error : JsonError)
  /-- It is not the YAML text that it should be, for a reason that its reader does not give. -/
  | notYaml
  /-- Another fault, in the words given. -/
  | stated (text : String)
deriving DecidableEq

/-- The wording of a fault, without words that come from elsewhere. -/
def InputFault.message : InputFault → String
  | noResources => "missing top-level 'resources' list"
  | resourcesNoList => "'resources' must be a list"
  | notJson error => "Failed to parse workspace JSON: " ++ error.message
  | notYaml => "Failed to parse workspace YAML"
  | stated text => text

/-- What stops a command. -/
inductive Failure where
  /-- A file cannot be read or written, for a reason that only the operating system knows. -/
  | io
  /-- A JSON document is refused. -/
  | json (error : JsonError)
  /-- A YAML document is refused, for a reason that its reader does not give. -/
  | yaml
  /-- A document that has to be there is not. -/
  | missingInput (path : String)
  /-- The workspace document is unusable. -/
  | malformedInput (fault : InputFault)
  /-- The reference does not match the workspace. -/
  | syncMismatch (missing extra expected found : Nat)
  /-- Anything else, in the words given. -/
  | general (text : String)
deriving DecidableEq

namespace Failure

/-- The sentence that describes a failure, without words that come from elsewhere. -/
def message : Failure → String
  | io => "IO Error"
  | json error => "JSON Error: " ++ error.message
  | yaml => "YAML Error"
  | missingInput path => "Input document not found: " ++ Text.quoted path
  | malformedInput fault => "Malformed workspace document: " ++ fault.message
  | syncMismatch missing extra expected found =>
      "OpenAPI spec is out of sync: " ++ toString missing ++ " missing, " ++ toString extra ++
        " extra, expected " ++ toString expected ++ " paths, found " ++ toString found
  | general text => "General Error: " ++ text

/-- The short form in which a failed command names a failure: its kind, with the details that do not
come from a reader or from the operating system. -/
def report : Failure → String
  | io => "Io"
  | json _ => "Json"
  | yaml => "Yaml"
  | missingInput path => "MissingInput(" ++ Text.quoted path ++ ")"
  | malformedInput .notYaml => "MalformedInput"
  | malformedInput fault => "MalformedInput(" ++ Text.quoted fault.message ++ ")"
  | syncMismatch missing extra expected found =>
      "SyncMismatch \x7b missing: " ++ toString missing ++ ", extra: " ++ toString extra ++
        ", expected: " ++ toString expected ++ ", found: " ++ toString found ++ " \x7d"
  | general text => "General(" ++ Text.quoted text ++ ")"

end Failure
end RpcReference
