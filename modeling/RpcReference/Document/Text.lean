import RpcReference.Conversion
import RpcReference.Document.Config.Reading
import RpcReference.Json.Writer
import RpcReference.Yaml.Writer

/-!
# Documents as texts

Workspaces, configurations and references are written in JSON or in YAML; the name of the file
decides which.  A failure says which document is refused and why.

* `DocumentFormat` — the format of a document.
* `Workspace.parse`, `Config.parse`, `DocumentFormat.parse` — reading.
* `Reference.render` — writing; **the text ends in a line feed**.
-/

set_option autoImplicit false

namespace RpcReference

/-- The format of a document. -/
inductive DocumentFormat where
  /-- JSON. -/
  | json
  /-- YAML. -/
  | yaml
deriving DecidableEq, Repr

/-- The format for a file extension: YAML for `yaml` and `yml`, JSON for any other and for none. -/
def DocumentFormat.ofExtension (extension? : Option String) : DocumentFormat :=
  if extension? = some "yaml" ∨ extension? = some "yml" then yaml else json

/-- The value that a text holds. -/
def DocumentFormat.parse (format : DocumentFormat) (text : String) : Except Failure Json :=
  match format with
  | json => (Json.parse text).mapError .json
  | yaml => (Yaml.parse? text).elim (.error .yaml) .ok

/-- The value that the text of a workspace holds. -/
def Workspace.parseValue (format : DocumentFormat) (text : String) : Except InputFault Json :=
  match format with
  | .json => (Json.parse text).mapError .notJson
  | .yaml => (Yaml.parse? text).elim (.error .notYaml) .ok

/-- The workspace that a text holds. -/
def Workspace.parse (format : DocumentFormat) (text : String) : Except Failure Workspace :=
  ((parseValue format text).bind ofJson).mapError .malformedInput

/-- The configuration that a text holds. -/
def Config.parse (format : DocumentFormat) (text : String) : Except Failure Config :=
  match format with
  | .json => (ofJson text).mapError .json
  | .yaml => (ofYaml? text).elim (.error .yaml) .ok

/-- A text with a line feed at its end. -/
def withLastLineFeed (text : String) : String :=
  if text.toList.getLast? = some '\n' then text else text ++ "\n"

/-- The text of a reference. -/
def Reference.render (format : DocumentFormat) (reference : Reference) : String :=
  withLastLineFeed <| match format with
    | .json => reference.toJson.pretty
    | .yaml => Yaml.write reference.toJson

end RpcReference
