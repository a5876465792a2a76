/-!
# Paths

A path is a text.  Its components are what stands between the slashes, without the parts that change
nothing: empty parts, and every `.` but one at the start of a relative path.

* `Path.join` — a path seen from a directory; **an absolute path stays as it is**.
* `Path.parent?` — the directory that a path lies in.
* `Path.extension?` — what the name at the end of a path says about the format of a document.
-/

set_option autoImplicit false

namespace RpcReference

/-- A path to a file or a directory. -/
abbrev Path := String

namespace Path

/-! ## Parts -/

/-- The parts of a text between its slashes. -/
def cut : List Char → List (List Char)
  | [] => [[]]
  | c :: rest =>
      if c = '/' then [] :: cut rest
      else
        match cut rest with
        | [] => [[c]]
        | part :: parts => (c :: part) :: parts

/-- The parts of a path between its slashes. -/
def segments (path : Path) : List String := (cut path.toList).map String.ofList

/-- Whether a path does not depend on the working directory. -/
def isAbsolute (path : Path) : Bool := path.toList.head? = some '/'

/-- A step of a path. -/
inductive Component where
  /-- To the directory that contains all others. -/
  | root
  /-- To where one is. -/
  | here
  /-- To the directory around. -/
  | up
  /-- To something inside, by its name. -/
  | name (text : String)
deriving DecidableEq

/-- The step that a part stands for, if it is one wherever it stands. -/
def componentOf? (part : String) : Option Component :=
  if part = "" ∨ part = "." then none else if part = ".." then some .up else some (.name part)

/-- The steps of a path. -/
def components (path : Path) : List Component :=
  let steps := path.segments.filterMap componentOf?
  if path.isAbsolute then .root :: steps
  else if path.segments.head? = some "." then .here :: steps
  else steps

/-- How a step is written. -/
def componentText : Component → String
  | .root => ""
  | .here => "."
  | .up => ".."
  | .name text => text

/-- The path with the given steps. -/
def ofComponents : List Component → Path
  | [.root] => "/"
  | steps => String.intercalate "/" (steps.map componentText)

/-- A path without the slashes at its end, unless there is nothing else. -/
def withoutLastSlashes (path : Path) : Path :=
  match path.toList.reverse.dropWhile (· = '/') with
  | [] => path
  | trimmed => String.ofList trimmed.reverse

/-! ## Joining and parting -/

/-- A path as seen from a directory. -/
def join (directory path : Path) : Path :=
  if path.isAbsolute then path
  else if directory.toList = [] ∨ directory.toList.getLast? = some '/' then directory ++ path
  else directory ++ "/" ++ path

/-- The steps to the directory around; none if there is no such directory. -/
def parentOf? : List Component → Option (List Component)
  | [] => none
  | steps => if steps.getLast? = some .root then none else some steps.dropLast

/-- The directory that a path lies in; the empty path stands for the working directory. -/
def parent? (path : Path) : Option Path := (parentOf? path.components).map ofComponents

/-! ## Names -/

/-- What follows the last point of a name that has something before it. -/
def extensionOf? (name : List Char) : Option (List Char) :=
  match name.reverse.dropWhile (· ≠ '.') with
  | _ :: _ :: _ => some (name.reverse.takeWhile (· ≠ '.')).reverse
  | _ => none

/-- The extension of the name that a path ends in. -/
def extension? (path : Path) : Option String :=
  match path.components.getLast? with
  | some (.name text) => (extensionOf? text.toList).map String.ofList
  | _ => none

end Path

end RpcReference
