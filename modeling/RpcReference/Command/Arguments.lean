import RpcReference.Files.Path
import RpcReference.Table

/-!
# Command lines

There are two commands.  `convert` is the default, so its options may stand alone; `validate` has
the same options but for the configuration.  A third word, `help`, asks for a page of help.

* `Arguments.readOptions` — options are written `--name value` or `--name=value`, each at most once;
  **a value on its own does not start with a hyphen**, unless it is one, and is not empty.
* `Environment` — the values that stand in for options that are not given.
* `Invocation.question?` — arguments that ask for help or for the version.  **The first of them is
  answered at once**: what stands before it has to be well formed, what follows it is not looked at.
* `Invocation.parse?` — what a command line asks for; nothing if it is not well formed.
-/

set_option autoImplicit false

namespace RpcReference

/-- The files that a command works on. -/
structure Project where
  /-- The directory from which the other paths are seen. -/
  root : Path
  /-- The workspace. -/
  input : Path
  /-- The reference. -/
  output : Path
deriving DecidableEq

namespace Project

/-- The project without options. -/
def default : Project := ⟨".", "insomnia_workspace.json", "docs/api/openapi.json"⟩

/-- The path of the workspace. -/
def inputPath (project : Project) : Path := Path.join project.root project.input

/-- The path of the reference. -/
def outputPath (project : Project) : Path := Path.join project.root project.output

end Project

/-- A page of help, by what it describes. -/
inductive HelpPage where
  /-- The whole program. -/
  | program
  /-- The command `convert`. -/
  | convert
  /-- The command `validate`. -/
  | validate
  /-- The word `help` itself. -/
  | help
deriving DecidableEq

/-- What a command line asks for. -/
inductive Invocation where
  /-- A page of help. -/
  | help (page : HelpPage)
  /-- The version of the program. -/
  | version
  /-- A conversion, with the configuration in a file. -/
  | convert (project : Project) (config : Option Path)
  /-- A check. -/
  | validate (project : Project)
deriving DecidableEq

/-- The values of options that come from the surroundings of the program. -/
structure Environment where
  /-- The directory from which paths are seen. -/
  root : Option String
  /-- The file of the configuration. -/
  config : Option String

namespace Environment

/-- The values by the names of their options. -/
def values (environment : Environment) : Table String String :=
  let value (name : String) (given : Option String) : List (String × String) :=
    (given.map fun text => (name, text)).toList
  value "root" environment.root ++ value "config" environment.config

/-- Whether every value that is needed because its option is not given can be used: it may not be
empty. -/
def isUsable (environment : Environment) (given : Table String String) : Bool :=
  environment.values.all fun entry => Table.hasKey entry.1 given || entry.2 ≠ ""

end Environment

namespace Arguments

/-! ## Options -/

/-- The options of a conversion. -/
def convertOptions : List String := ["root", "input", "output", "config"]

/-- The options of a check. -/
def validateOptions : List String := ["root", "input", "output"]

/-- The name of an option, and its value if it is written with it. -/
def splitOption? (argument : String) : Option (String × Option String) :=
  match argument.toList with
  | '-' :: '-' :: rest =>
      match rest.dropWhile (· ≠ '=') with
      | [] => some (String.ofList rest, none)
      | _ :: value =>
          some (String.ofList (rest.takeWhile (· ≠ '=')), some (String.ofList value))
  | _ => none

/-- Whether an argument can be the value of the option before it. -/
def isValue (argument : String) : Bool :=
  argument = "-" || argument.toList.head? ≠ some '-'

/-- Adds an option to those given before. -/
def addOption? (known : List String) (given : Table String String) (name value : String) :
    Option (Table String String) :=
  if name ∈ known ∧ ¬ Table.hasKey name given ∧ value ≠ "" then some (Table.put name value given)
  else none

/-- The options in a list of arguments, which may end in two hyphens. -/
def readOptions (known : List String) :
    Table String String → List String → Option (Table String String)
  | given, [] => some given
  | given, [argument] =>
      if argument = "--" then some given
      else
        match splitOption? argument with
        | some (name, some value) => addOption? known given name value
        | _ => none
  | given, argument :: next :: rest =>
      match splitOption? argument with
      | some (name, some value) =>
          (addOption? known given name value).bind fun given => readOptions known given (next :: rest)
      | some (name, none) =>
          if isValue next then
            (addOption? known given name next).bind fun given => readOptions known given rest
          else none
      | none => none

/-- The value of an option: as given, or else from the surroundings, or else the usual one. -/
def valueOr (given : Table String String) (fromOutside : Option String) (name otherwise : String) :
    String :=
  ((Table.get? name given).or fromOutside).getD otherwise

/-- The project that options describe. -/
def project (environment : Environment) (given : Table String String) : Project where
  root := valueOr given environment.root "root" Project.default.root
  input := valueOr given none "input" Project.default.input
  output := valueOr given none "output" Project.default.output

end Arguments

namespace Invocation

open Arguments

/-! ## Commands -/

/-- The conversion that options describe. -/
def ofConvertOptions (environment : Environment) (given : Table String String) : Invocation :=
  .convert (project environment given) ((Table.get? "config" given).or environment.config)

/-- Whether an argument asks for help. -/
def asksHelp (argument : String) : Bool :=
  argument = "--help" || argument.toList.take 2 = ['-', 'h']

/-- Whether an argument asks for the version. -/
def asksVersion (argument : String) : Bool :=
  argument = "--version" || argument.toList.take 2 = ['-', 'V']

/-- What an argument asks for by itself, among the arguments that a page of help describes.  Only
the program as a whole has a version. -/
def question? (page : HelpPage) (argument : String) : Option Invocation :=
  if asksHelp argument then some (.help page)
  else if page = .program ∧ asksVersion argument then some .version
  else none

/-- Reads the arguments of a command.  The first question is answered if what stands before it is
well formed and does not end the options; without a question, `run?` says what the options ask
for. -/
def parseOptions? (page : HelpPage) (known : List String)
    (run? : Table String String → Option Invocation) (arguments : List String) : Option Invocation :=
  let before := arguments.takeWhile fun argument => (question? page argument).isNone
  (readOptions known [] before).bind fun given =>
    match arguments.findSome? (question? page) with
    | none => run? given
    | some answer => if "--" ∈ before then none else some answer

/-- The page of help for the words after `help`. -/
def helpPage? : List String → Option HelpPage
  | [] => some .program
  | ["convert"] => some .convert
  | ["validate"] => some .validate
  | ["help"] => some .help
  | _ => none

/-- Reads a command line.  After the name of a command the values from the surroundings have to be
usable even where an option takes their place. -/
def parse? (environment : Environment) (arguments : List String) : Option Invocation :=
  match arguments with
  | "convert" :: rest =>
      parseOptions? .convert convertOptions (fun given =>
        if environment.isUsable [] then some (ofConvertOptions environment given) else none) rest
  | "validate" :: rest =>
      parseOptions? .validate validateOptions (fun given =>
        if environment.isUsable [] then some (.validate (project environment given)) else none) rest
  | "help" :: rest => (helpPage? rest).map .help
  | arguments =>
      parseOptions? .program convertOptions (fun given =>
        if environment.isUsable given then some (ofConvertOptions environment given) else none)
        arguments

end Invocation
end RpcReference
