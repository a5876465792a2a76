import RpcReference.Command.Arguments
import RpcReference.Files.Commands

/-!
# Running a command

* `Outcome` — what a run prints, how it ends and with which exit code.
* `runCommand` — a run for a command line.  **A check succeeds only if the reference is in sync**;
  it prints its report in any case.  A command line that is not well formed is refused with an exit
  code of its own.
-/

set_option autoImplicit false

namespace RpcReference

/-- How a run ends. -/
inductive Ending where
  /-- It did what was asked for. -/
  | success
  /-- It showed a page of help.  The words of the page are made by the library that reads command
  lines and are left out, so they are no lines of the run. -/
  | help (page : HelpPage)
  /-- It was stopped. -/
  | failure (failure : Failure)
  /-- The command line is not well formed. -/
  | usage
deriving DecidableEq

/-- What a run shows. -/
structure Outcome where
  /-- The lines that it prints. -/
  lines : List String
  /-- How it ends. -/
  ending : Ending
deriving DecidableEq

namespace Outcome

/-- The exit code of a run. -/
def exitCode (outcome : Outcome) : Nat :=
  match outcome.ending with
  | .success => 0
  | .help _ => 0
  | .failure _ => 1
  | .usage => 2

/-- What a run prints. -/
def output (outcome : Outcome) : String :=
  String.join (outcome.lines.map fun line => line ++ "\n")

/-- What a run says about the failure that stopped it. -/
def report? (outcome : Outcome) : Option String :=
  match outcome.ending with
  | .failure failure => some failure.report
  | _ => none

/-- The run that ends with a result after printing some lines: with more lines, or with a
failure. -/
def ofResult (lines : List String) : Except Failure (List String) → Outcome
  | .ok more => ⟨lines ++ more, .success⟩
  | .error failure => ⟨lines, .failure failure⟩

end Outcome

/-- The name and the version of the program. -/
def versionLine : String := "rpcdoc-cli 0.1.0"

variable {m : Type → Type} [Monad m] [FileAccess m]

/-- The configuration that is asked for. -/
def loadConfig (project : Project) : Option Path → ExceptT Failure m Config
  | some path => Config.load (Path.join project.root path)
  | none => return Config.default

/-- Converts the workspace of a project.  The configuration is read before anything is printed. -/
def runConvert (project : Project) (config : Option Path) : m Outcome := do
  match ← (loadConfig project config : ExceptT Failure m Config).run with
  | .error failure => return ⟨[], .failure failure⟩
  | .ok config =>
      let opening := "Converting " ++ Text.quoted project.inputPath ++ "..."
      let result ←
        (convertFile project.inputPath project.outputPath config :
          ExceptT Failure m ConversionSummary).run
      return .ofResult [opening] (result.map ConversionSummary.lines)

/-- The lines that a check prints. -/
def checkLines (report : SyncReport) : List String :=
  report.text :: if report.isInSync then [] else ["   Run: rpcdoc convert"]

/-- Checks the reference of a project. -/
def runValidate (project : Project) : m Outcome := do
  match ← (checkFiles project.inputPath project.outputPath : ExceptT Failure m SyncReport).run with
  | .error failure => return ⟨[], .failure failure⟩
  | .ok report => return .ofResult (checkLines report) (report.verdict.map fun _ => [])

/-- Runs the program with arguments. -/
def runCommand (environment : Environment) (arguments : List String) : m Outcome :=
  match Invocation.parse? environment arguments with
  | none => return ⟨[], .usage⟩
  | some (.help page) => return ⟨[], .help page⟩
  | some .version => return ⟨[versionLine], .success⟩
  | some (.convert project config) => runConvert project config
  | some (.validate project) => runValidate project

end RpcReference
