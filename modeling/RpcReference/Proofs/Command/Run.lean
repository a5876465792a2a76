import RpcReference.Command.Run
import RpcReference.Proofs.Files.Commands

/-!
# Runs of the program

* `Invocation.parseOptions?_append` — **the first question among the arguments of a command
  decides**.
* `FileTree.exitCode_runCommand_eq_two_iff` — a run is refused exactly if its command line is not
  well formed; whatever happens afterwards ends with another exit code.
* `FileTree.runCommand_of_not_convert` — **only a conversion changes files**.
-/

set_option autoImplicit false

namespace RpcReference

/-! ## Questions

A question for help or for the version is answered before the options are used.  So neither the
values from the surroundings nor the arguments after it appear in what it is read as. -/

namespace Invocation

variable {page : HelpPage} {known before rest : List String} {question : String} {answer : Invocation}
  {run? : Table String String → Option Invocation}

/-- **The first question among the arguments of a command decides.**  It is answered if the options
before it are well formed and are not ended by two hyphens. -/
theorem parseOptions?_append (hbefore : ∀ argument ∈ before, question? page argument = none)
    (hquestion : question? page question = some answer) :
    parseOptions? page known run? (before ++ question :: rest) =
      if "--" ∈ before then none else (Arguments.readOptions known [] before).map fun _ => answer := by
  have htake : (before ++ question :: rest).takeWhile
      (fun argument => (question? page argument).isNone) = before := by
    rw [List.takeWhile_append_of_pos (fun argument h => by rw [hbefore argument h]; rfl),
      List.takeWhile_cons_of_neg (by rw [hquestion]; exact Bool.false_ne_true), List.append_nil]
  have hfind : (before ++ question :: rest).findSome? (question? page) = some answer := by
    rw [List.findSome?_append, List.findSome?_eq_none_iff.2 hbefore, Option.none_or,
      List.findSome?_cons, hquestion]
  rw [parseOptions?, htake, hfind]
  cases Arguments.readOptions known [] before with
  | none => simp
  | some given => rfl

/-- A question that stands first is always answered. -/
theorem parseOptions?_cons (hquestion : question? page question = some answer) :
    parseOptions? page known run? (question :: rest) = some answer :=
  parseOptions?_append (List.forall_mem_nil _) hquestion

example : parse? ⟨some "", none⟩ ["validate", "--root", "r", "-h", "--nowhere"] =
    some (.help .validate) := by
  decide

end Invocation

/-! ## Runs on a file tree

A run is a function of the tree, so what it prints, how it ends and what becomes of the files can be
stated side by side.  A check only reads, and its exit code is the verdict of the report that it
prints.  A conversion writes, and ends with success or with a failure.  Command lines that are
refused have an exit code of their own, and they are refused before anything is read. -/

/-- What comes of a result is success or a failure. -/
theorem Outcome.exitCode_ofResult_le_one (lines : List String) (result : Except Failure (List String)) :
    (Outcome.ofResult lines result).exitCode ≤ 1 := by
  cases result with
  | ok more => exact Nat.zero_le 1
  | error failure => exact Nat.le_refl 1

namespace FileTree

/-- **A check of a project changes no file**, and prints the report if there is one. -/
theorem runValidate_eq (tree : FileTree) (project : Project) :
    (runValidate project : StateM FileTree Outcome) tree =
      (match (tree.run (checkFiles project.inputPath project.outputPath)).1 with
        | .error failure => ⟨[], .failure failure⟩
        | .ok report => .ofResult (checkLines report) (report.verdict.map fun _ => []), tree) := by
  obtain ⟨result, hresult⟩ :
      ∃ result, tree.run (checkFiles project.inputPath project.outputPath) = (result, tree) :=
    ⟨_, tree.run_checkFiles _ _⟩
  have hrun : (checkFiles project.inputPath project.outputPath :
      ExceptT Failure (StateM FileTree) SyncReport).run tree = (result, tree) := hresult
  simp only [runValidate, bind, StateT.bind]
  rw [hrun, hresult]
  cases result <;> rfl

/-- A check that gives a report succeeds exactly if the verdict is good. -/
theorem exitCode_ofResult_eq_zero_iff (report : SyncReport) :
    (Outcome.ofResult (checkLines report) (report.verdict.map fun _ => [])).exitCode = 0 ↔
      ∃ r, report.verdict = .ok r := by
  cases report.verdict with
  | ok r => simp [Except.map, Outcome.ofResult, Outcome.exitCode]
  | error failure => simp [Except.map, Outcome.ofResult, Outcome.exitCode]

/-- A check ends with success or with a failure: it has no other exit code. -/
theorem exitCode_runValidate_le_one (tree : FileTree) (project : Project) :
    ((runValidate project : StateM FileTree Outcome) tree).1.exitCode ≤ 1 := by
  rw [runValidate_eq]
  dsimp only
  split
  · exact Nat.le_refl 1
  · exact Outcome.exitCode_ofResult_le_one _ _

/-- A check succeeds exactly if there is a report and its verdict is good. -/
theorem exitCode_runValidate_eq_zero_iff {tree : FileTree} {project : Project} :
    ((runValidate project : StateM FileTree Outcome) tree).1.exitCode = 0 ↔
      ∃ report, tree.run (checkFiles project.inputPath project.outputPath) = (.ok report, tree) ∧
        ∃ r, report.verdict = .ok r := by
  rw [runValidate_eq, tree.run_checkFiles]
  generalize ((tree.document project.inputPath).bind _).bind _ = result
  cases result with
  | error failure => simp [Outcome.exitCode]
  | ok report => simp [exitCode_ofResult_eq_zero_iff]

/-- A conversion ends with success or with a failure, too. -/
theorem exitCode_runConvert_le_one (tree : FileTree) (project : Project) (config : Option Path) :
    ((runConvert project config : StateM FileTree Outcome) tree).1.exitCode ≤ 1 := by
  simp only [runConvert, bind, StateT.bind]
  split
  next loaded mid _ =>
  cases loaded with
  | error failure => exact Nat.le_refl 1
  | ok config => exact Outcome.exitCode_ofResult_le_one _ _

/-- **A run is refused exactly if its command line is not well formed.** -/
theorem exitCode_runCommand_eq_two_iff {tree : FileTree} {environment : Environment}
    {arguments : List String} :
    ((runCommand environment arguments : StateM FileTree Outcome) tree).1.exitCode = 2 ↔
      Invocation.parse? environment arguments = none := by
  rw [runCommand]
  cases Invocation.parse? environment arguments with
  | none => exact iff_of_true rfl rfl
  | some invocation =>
    refine iff_of_false (fun hrefused => ?_) (Option.some_ne_none _)
    cases invocation with
    | help page => cases hrefused
    | version => cases hrefused
    | convert project config =>
      have hle := exitCode_runConvert_le_one tree project config
      exact absurd (hrefused ▸ hle) (by decide)
    | validate project =>
      have hle := exitCode_runValidate_le_one tree project
      exact absurd (hrefused ▸ hle) (by decide)

/-- **Only a conversion changes files.** -/
theorem runCommand_of_not_convert {tree : FileTree} {environment : Environment}
    {arguments : List String} (h : ∀ project config,
      Invocation.parse? environment arguments ≠ some (.convert project config)) :
    ((runCommand environment arguments : StateM FileTree Outcome) tree).2 = tree := by
  rw [runCommand]
  cases hparse : Invocation.parse? environment arguments with
  | none => rfl
  | some invocation =>
    cases invocation with
    | help page => rfl
    | version => rfl
    | convert project config => exact absurd hparse (h project config)
    | validate project => exact congrArg Prod.snd (runValidate_eq tree project)

end FileTree
end RpcReference
