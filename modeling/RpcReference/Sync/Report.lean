import RpcReference.Sorted.NameSet
import RpcReference.Workspace

/-!
# Checking a reference against its workspace

A reference matches its workspace if it has as many paths as there are requests, and the same names.
The check only reports.

* `SyncReport` — the two counts, and the names that one side has and the other has not.
* `SyncReport.ofDocument` — the report for a workspace and a document; the name of a path is the
  path without its leading slashes, and a document without an object of paths has none.
* `SyncReport.text` — the report in words, with at most `SyncReport.limit` names of each kind.
-/

set_option autoImplicit false

namespace RpcReference

/-- How a reference compares with its workspace. -/
structure SyncReport where
  /-- The number of requests. -/
  requestCount : Nat
  /-- The number of paths. -/
  pathCount : Nat
  /-- Names of requests without a path. -/
  missing : NameSet
  /-- Names of paths without a request. -/
  extra : NameSet
deriving DecidableEq

namespace SyncReport

/-! ## Comparing -/

/-- The name of a path: the text after its leading slashes. -/
def nameOfPath (path : String) : String := String.ofList (path.toList.dropWhile (· = '/'))

/-- The paths of a document. -/
def pathsOf (document : Json) : List String :=
  (((document.get? "paths").bind Json.members?).map Table.keys).getD []

/-- The report for requests and paths. -/
def compare (requests paths : List String) : SyncReport where
  requestCount := requests.length
  pathCount := paths.length
  missing := (NameSet.ofList requests).diff (NameSet.ofList (paths.map nameOfPath))
  extra := (NameSet.ofList (paths.map nameOfPath)).diff (NameSet.ofList requests)

/-- The report for a workspace and a document. -/
def ofDocument (w : Workspace) (document : Json) : SyncReport :=
  compare w.requestNames (pathsOf document)

/-- **In sync: as many paths as requests, and no name on one side only.** -/
def isInSync (report : SyncReport) : Bool :=
  report.requestCount = report.pathCount && report.missing.isEmpty && report.extra.isEmpty

/-- The report if it is in sync, and the failure that it means otherwise. -/
def verdict (report : SyncReport) : Except Failure SyncReport :=
  if report.isInSync then .ok report
  else .error (.syncMismatch report.missing.size report.extra.size report.requestCount
    report.pathCount)

/-! ## In words -/

/-- How many names of each kind are listed. -/
def limit : Nat := 5

/-- One kind of names: a blank line, a heading with their number, the first of them, and how many
more there are.  Nothing if there are none. -/
def categoryLines (title : String) (names : NameSet) : List String :=
  if names.isEmpty then []
  else
    ["", title ++ " (" ++ toString names.size ++ "):"] ++
      (names.toList.take limit).map (fun name => "   - " ++ name) ++
      (if limit < names.size then
        ["   ... and " ++ toString (names.size - limit) ++ " more"] else [])

/-- The last lines of a report. -/
def verdictLines (report : SyncReport) : List String :=
  if report.isInSync then ["OpenAPI spec is in sync with Insomnia workspace"]
  else
    ["", "OpenAPI spec is OUT OF SYNC with Insomnia workspace"] ++
      (if report.requestCount = report.pathCount then []
      else ["   Count mismatch: Expected " ++ toString report.requestCount ++ " paths, found " ++
        toString report.pathCount])

/-- A report in words, without a line break at its end. -/
def text (report : SyncReport) : String :=
  String.intercalate "\n"
    (["=== Validation Results ===",
      "Insomnia requests: " ++ toString report.requestCount,
      "OpenAPI paths: " ++ toString report.pathCount] ++
      categoryLines "Missing in OpenAPI" report.missing ++
      categoryLines "Extra in OpenAPI" report.extra ++
      report.verdictLines)

end SyncReport
end RpcReference
