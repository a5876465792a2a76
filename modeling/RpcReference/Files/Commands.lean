import RpcReference.Document.Text
import RpcReference.Files.Access
import RpcReference.Sync.Report

/-!
# Commands on files

Documents are read from files and written to files, and the extension of a file decides the format
of the document in it.

* `readDocument` — the text of a document that has to be there.
* `Workspace.load`, `Config.load` — reading.
* `Reference.save` — writing, **which makes the directories around the file first**.
* `convertFile` — a workspace is read from one file and its reference is written to another.
  **Nothing is written unless the workspace could be read.**
* `checkFiles` — a reference in one file is checked against the workspace in another.  **Files are
  only read.**
-/

set_option autoImplicit false

namespace RpcReference

open FileAccess (kind? read? write makeDirectories)

/-- The format of the document at a path. -/
def DocumentFormat.ofPath (path : Path) : DocumentFormat := ofExtension path.extension?

variable {m : Type → Type} [Monad m] [FileAccess m]

/-! ## Documents -/

/-- The text of the document at a path. -/
def readDocument (path : Path) : ExceptT Failure m String := do
  if (← (kind? path : m _)).isNone then throw (.missingInput path)
  match ← (read? path : m _) with
  | some text => return text
  | none => throw .io

/-- The workspace in a file. -/
def Workspace.load (path : Path) : ExceptT Failure m Workspace := do
  ofExcept (Workspace.parse (.ofPath path) (← readDocument path))

/-- The configuration in a file. -/
def Config.load (path : Path) : ExceptT Failure m Config := do
  ofExcept (Config.parse (.ofPath path) (← readDocument path))

/-- Makes the directories around a file, unless they are there. -/
def makeRoomFor (path : Path) : ExceptT Failure m Unit := do
  match path.parent? with
  | none => return
  | some around =>
      if around ≠ "" ∧ (← (kind? around : m _)).isNone then
        unless ← (makeDirectories around : m _) do throw .io

/-- Writes a reference to a file. -/
def Reference.save (reference : Reference) (path : Path) : ExceptT Failure m Unit := do
  makeRoomFor path
  unless ← (write path (reference.render (.ofPath path)) : m _) do throw .io

/-! ## Converting -/

/-- What a conversion did. -/
structure ConversionSummary where
  /-- The number of paths of the reference. -/
  endpointCount : Nat
  /-- The number of its tags. -/
  tagCount : Nat
  /-- The methods of the reference whose example body was not JSON, in the order of their paths. -/
  replacedBodies : List String
  /-- The file of the reference. -/
  output : Path
deriving DecidableEq

namespace ConversionSummary

/-- The summary for a reference that was written to a file. -/
def ofReference (reference : Reference) (output : Path) : ConversionSummary where
  endpointCount := reference.paths.size
  tagCount := reference.tags.length
  replacedBodies := (reference.paths.operations.filter (·.bodyReplaced)).map Operation.summary
  output := output

/-- A summary in words. -/
def lines (summary : ConversionSummary) : List String :=
  summary.replacedBodies.map (fun name =>
    "Warning: request body of '" ++ name ++ "' is not valid JSON, using \x7b\x7d") ++
  ["Converted " ++ toString summary.endpointCount ++ " endpoints to OpenAPI spec",
    "Created " ++ toString summary.tagCount ++ " namespace tags",
    "Written to: " ++ Text.quoted summary.output]

end ConversionSummary

/-- Converts the workspace in one file and writes the reference to another. -/
def convertFile (input output : Path) (config : Config) :
    ExceptT Failure m ConversionSummary := do
  let w ← Workspace.load input
  let reference := w.convert config
  reference.save output
  return .ofReference reference output

/-! ## Checking -/

/-- Compares the reference in one file with the workspace in another.  The workspace is read
first. -/
def checkFiles (workspace reference : Path) : ExceptT Failure m SyncReport := do
  let w ← Workspace.load workspace
  let text ← readDocument reference
  return .ofDocument w (← ofExcept ((DocumentFormat.ofPath reference).parse text))

end RpcReference
