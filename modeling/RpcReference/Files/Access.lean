import RpcReference.Files.Path

/-!
# Access to files

What the commands need of a file system.  They are written for any monad that offers it, so the same
commands run on the files of a computer and on a `FileTree`.

* `FileAccess` — the operations.
* `FileAccess.makeDirectories` — a directory with everything around it: **directories that are there
  stay as they are**.
-/

set_option autoImplicit false

namespace RpcReference

/-- What there can be at a path. -/
inductive EntryKind where
  /-- A file. -/
  | file
  /-- A directory. -/
  | directory
deriving DecidableEq

/-- How the attempt to make a directory ends. -/
inductive DirectoryAttempt where
  /-- It is made. -/
  | made
  /-- There is nothing to make it in. -/
  | noParent
  /-- It cannot be made, which may be because it is there. -/
  | refused
deriving DecidableEq

/-- The operations on files. -/
class FileAccess (m : Type → Type) where
  /-- What there is at a path. -/
  kind? : Path → m (Option EntryKind)
  /-- The text of a file; none if it cannot be read or is no text. -/
  read? : Path → m (Option String)
  /-- Gives a file a text; tells whether it was possible. -/
  write : Path → String → m Bool
  /-- Makes a directory. -/
  makeDirectory : Path → m DirectoryAttempt

namespace FileAccess

variable {m : Type → Type} [Monad m] [FileAccess m]

/-- Whether there is a directory at a path. -/
def isDirectory (path : Path) : m Bool := return (← kind? path) = some .directory

/-- Makes a directory in which everything around it is there. -/
def makeLast (path : Path) : m Bool := do
  if (← makeDirectory path) = .made then return true else isDirectory path

/-- Makes a directory, after `around` has made what it lies in if that is not there. -/
def makeInside (around : m Bool) (path : Path) : m Bool := do
  match ← makeDirectory path with
  | .made => return true
  | .refused => isDirectory path
  | .noParent => if ← around then makeLast path else return false

/-- Makes the directory with the given steps, the last one first, and everything around it. -/
def makeBackwards : List Path.Component → m Bool
  | [] => return true
  | [.root] => return true
  | last :: around => makeInside (makeBackwards around) (Path.ofComponents (last :: around).reverse)

/-- Makes a directory and everything around it; tells whether it is there in the end. -/
def makeDirectories (path : Path) : m Bool :=
  match path.components.reverse with
  | [] => return true
  | _ :: around => makeInside (makeBackwards around) path

end FileAccess
end RpcReference
