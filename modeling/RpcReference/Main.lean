import RpcReference.Command.Run

/-!
# The program

Runs a command on the files of the computer.  Everything it decides is decided by `runCommand`.
-/

set_option autoImplicit false

namespace RpcReference

/-- The result of an action; none if it fails. -/
def attempt? {α : Type} (action : IO α) : IO (Option α) := do
  try return some (← action) catch _ => return none

instance : FileAccess IO where
  kind? path := attempt? do
    return if ← (← IO.FS.realPath path).isDir then .directory else .file
  read? path := attempt? (IO.FS.readFile path)
  write path text := return (← attempt? (IO.FS.writeFile path text)).isSome
  makeDirectory path := do
    try
      IO.FS.createDir path
      return .made
    catch
      | .noFileOrDirectory .. => return .noParent
      | _ => return .refused

end RpcReference

/-- Runs the program: prints what the run prints and then, if it was stopped, why. -/
def main (arguments : List String) : IO UInt32 := do
  let environment : RpcReference.Environment :=
    { root := ← IO.getEnv "RPCDOC_ROOT"
      config := ← IO.getEnv "RPCDOC_CONFIG" }
  let outcome ← (RpcReference.runCommand environment arguments : IO RpcReference.Outcome)
  IO.print outcome.output
  if let some report := outcome.report? then IO.eprintln ("Error: " ++ report)
  return outcome.exitCode.toUInt32
