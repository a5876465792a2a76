import RpcReference.Table
import RpcReference.Files.Access

/-!
# File trees

A tree of directories and files in which one directory is the working directory.

* `Entry.get?`, `Entry.put` — the entry at a location, which is the list of the names on the way to
  it.
* `FileTree.locate` — the location to which a path leads.  **Every part of a path that is followed
  by another has to be a directory**, also where the rest leads back out of it.
* The operations of `FileAccess` on a tree.
-/

set_option autoImplicit false

namespace RpcReference

/-- A file or a directory. -/
inductive Entry where
  /-- A file and its text; none if its bytes are no text. -/
  | file (text : Option String)
  /-- A directory with what is in it. -/
  | directory (entries : List (String × Entry))

namespace Entry

/-- Whether an entry is a directory. -/
def isDirectory : Entry → Bool
  | directory _ => true
  | file _ => false

/-- What an entry is. -/
def kind : Entry → EntryKind
  | directory _ => .directory
  | file _ => .file

/-- The text of a file that is a text. -/
def text? : Entry → Option String
  | file text => text
  | directory _ => none

/-! ## Locations -/

/-- The entry at a location inside an entry. -/
def get? : Entry → List String → Option Entry
  | entry, [] => some entry
  | file _, _ :: _ => none
  | directory entries, name :: rest => (Table.get? name entries).bind fun entry => entry.get? rest

/-- Puts an entry at a location. -/
def put : Entry → List String → Entry → Entry
  | _, [], new => new
  | file text, _ :: _, _ => file text
  | directory entries, name :: rest, new =>
      directory (Table.alter name (fun child => (child.getD (directory [])).put rest new) entries)

/-- Takes what is in a directory at a location out of it. -/
def remove : Entry → List String → Entry
  | entry, [] => entry
  | file text, _ :: _ => file text
  | directory entries, [name] => directory (entries.filter (·.1 ≠ name))
  | directory entries, name :: rest =>
      match Table.get? name entries with
      | some child => directory (Table.put name (child.remove rest) entries)
      | none => directory entries

@[simp] theorem get?_nil (entry : Entry) : entry.get? [] = some entry := by
  cases entry <;> rfl

/-- What is put somewhere is there, if there was a directory to put it in. -/
theorem get?_put_self {entry new : Entry} {around : List String} {name : String}
    (h : (entry.get? around).any isDirectory = true) :
    (entry.put (around ++ [name]) new).get? (around ++ [name]) = some new := by
  induction around generalizing entry with
  | nil =>
    cases entry with
    | file text => simp [isDirectory] at h
    | directory entries => simp [put, get?, Table.get?_alter_self]
  | cons first rest ih =>
    cases entry with
    | file text => simp [get?] at h
    | directory entries =>
      cases hc : Table.get? first entries with
      | none => simp [get?, hc] at h
      | some child =>
        have hd : (child.get? rest).any isDirectory = true := by simpa [get?, hc] using h
        simp [put, get?, Table.get?_alter_self, hc, ih hd]

/-- What is put somewhere changes nothing at a location that neither contains it nor is inside
it. -/
theorem get?_put_of_not_prefix {entry new : Entry} {location other : List String}
    (h : ¬ location <+: other) (h' : ¬ other <+: location) :
    (entry.put location new).get? other = entry.get? other := by
  induction location generalizing entry other with
  | nil => exact absurd List.nil_prefix h
  | cons name rest ih =>
    cases other with
    | nil => exact absurd List.nil_prefix h'
    | cons first more =>
      cases entry with
      | file text => rfl
      | directory entries =>
        by_cases he : first = name
        · subst he
          rw [List.cons_prefix_cons] at h h'
          simp only [true_and] at h h'
          cases hc : Table.get? first entries with
          | none =>
            cases more with
            | nil => exact absurd List.nil_prefix h'
            | cons second others =>
              simp [put, get?, Table.get?_alter_self, hc, ih h h']
          | some child => simp [put, get?, Table.get?_alter_self, hc, ih h h']
        · simp [put, get?, Table.get?_alter_of_ne _ he]

/-! ## Views -/

mutual

/-- The paths to everything inside an entry, each after the given text.  Those of directories end in
a slash. -/
def pathsAfter (start : String) : Entry → List String
  | file _ => []
  | directory entries => pathsOfEntries start entries

/-- The paths to entries and to everything inside them. -/
def pathsOfEntries (start : String) : List (String × Entry) → List String
  | [] => []
  | (name, entry) :: rest =>
      (match entry with
        | file _ => [start ++ name]
        | directory entries =>
            (start ++ name ++ "/") :: pathsOfEntries (start ++ name ++ "/") entries) ++
        pathsOfEntries start rest

end

end Entry

/-- A tree of files. -/
structure FileTree where
  /-- The directory that contains all others. -/
  root : Entry
  /-- The location of the working directory. -/
  workingDirectory : List String

namespace FileTree

/-! ## Following a path -/

/-- Why a path leads nowhere. -/
inductive Obstacle where
  /-- Something on the way is not there. -/
  | absent
  /-- Something on the way is no directory, or the path or a name in it is not possible. -/
  | closed
deriving DecidableEq

/-- The longest name of an entry, in bytes. -/
def longestName : Nat := 255

/-- The longest path that can be followed, in bytes. -/
def longestPath : Nat := 4095

/-- Whether a path can be followed at all: it may not be too long, nor hold a null character. -/
def isPossiblePath (path : Path) : Bool :=
  decide (path.utf8ByteSize ≤ longestPath) && !('\x00' ∈ path.toList)

/-- The location one step further. -/
def step (tree : FileTree) (location : List String) (part : String) :
    Except Obstacle (List String) :=
  match tree.root.get? location with
  | none => .error .absent
  | some entry =>
      if ! entry.isDirectory then .error .closed
      else if part = "" ∨ part = "." then .ok location
      else if part = ".." then .ok location.dropLast
      else if part.utf8ByteSize ≤ longestName then .ok (location ++ [part])
      else .error .closed

/-- The location to which a path leads.  There need not be anything. -/
def locate (tree : FileTree) (path : Path) : Except Obstacle (List String) :=
  if path = "" then .error .absent
  else if ! isPossiblePath path then .error .closed
  else
    path.segments.foldlM tree.step (if path.isAbsolute then [] else tree.workingDirectory)

/-- The entry to which a path leads. -/
def find? (tree : FileTree) (path : Path) : Option Entry :=
  match tree.locate path with
  | .error _ => none
  | .ok location => tree.root.get? location

/-! ## Changes -/

/-- Puts an entry at a location. -/
def put (location : List String) (entry : Entry) (tree : FileTree) : FileTree :=
  { tree with root := tree.root.put location entry }

/-- Puts a file where a path leads; tells whether it was possible. -/
def putFile (tree : FileTree) (path : Path) (text : Option String) : Bool × FileTree :=
  match tree.locate path with
  | .error _ => (false, tree)
  | .ok location =>
      if (tree.root.get? location).any Entry.isDirectory then (false, tree)
      else (true, tree.put location (.file text))

/-- Makes a directory where a path leads, which may have slashes at its end. -/
def makeDirectory (tree : FileTree) (path : Path) : DirectoryAttempt × FileTree :=
  match tree.locate path.withoutLastSlashes with
  | .error .absent => (.noParent, tree)
  | .error .closed => (.refused, tree)
  | .ok location =>
      if (tree.root.get? location).isSome then (.refused, tree)
      else (.made, tree.put location (.directory []))

/-- Takes a file away; tells whether there was one. -/
def removeFile (tree : FileTree) (path : Path) : Bool × FileTree :=
  match tree.locate path with
  | .error _ => (false, tree)
  | .ok location =>
      match tree.root.get? location with
      | some (.file _) => (true, { tree with root := tree.root.remove location })
      | _ => (false, tree)

instance : FileAccess (StateM FileTree) where
  kind? path := fun tree => ((tree.find? path).map Entry.kind, tree)
  read? path := fun tree => ((tree.find? path).bind Entry.text?, tree)
  write path text := fun tree => tree.putFile path (some text)
  makeDirectory path := fun tree => tree.makeDirectory path

/-- The paths from the working directory to everything in it. -/
def paths (tree : FileTree) : List String :=
  ((tree.root.get? tree.workingDirectory).map (Entry.pathsAfter "")).getD []

end FileTree
end RpcReference
