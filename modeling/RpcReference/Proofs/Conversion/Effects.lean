import RpcReference.Proofs.Conversion.ReadBack

/-!
# What the commands do to the files

* `FileTree.Unloadable` — the four ways in which there is no workspace to load.
  `FileTree.unloadable_iff` says that there are no others.
* `FileTree.Written` — a tree after a file was written: **the file holds the text, the directories
  on the way to it are there, and all else is as it was**.
* `FileTree.convertFile_effects` — a conversion without a workspace leaves the tree as it is; one
  that succeeds writes its reference in this sense, and again does nothing.  A check never does
  anything.
-/

set_option autoImplicit false

namespace RpcReference

/-! ## Workspaces that cannot be loaded

Loading reads a file, takes its text apart and looks for a list of resources.  Any of these steps
can fail, and reading can fail in two ways.  The four cases are told apart by what is in the tree
and not by what is reported. -/

namespace FileTree

/-- A tree after a text was written to a file. -/
structure Written (output : Path) (location : List String) (text : String) (tree after : FileTree) :
    Prop where
  /-- Paths start from where they started. -/
  workingDirectory_eq : after.workingDirectory = tree.workingDirectory
  /-- The path leads to the file. -/
  locate_eq : after.locate output = .ok location
  /-- The file holds the text. -/
  content_eq : after.contentAt? location = some (.file (some text))
  /-- There was a file in its place, or nothing. -/
  before_ne : tree.contentAt? location ≠ some .directory
  /-- All parts of the way are directories, where before there were directories or nothing. -/
  ancestor : ∀ around, output.IsAncestor around → ∃ place, after.locate around = .ok place ∧
    after.contentAt? place = some .directory ∧
    (tree.contentAt? place = none ∨ tree.contentAt? place = some .directory)
  /-- Anything else is as it was. -/
  other : ∀ place, place ≠ location →
    (∀ around, output.IsAncestor around → after.locate around ≠ .ok place) →
    after.contentAt? place = tree.contentAt? place

/-- **Making room for a file and writing it does no more than that.** -/
theorem exists_written {tree mid after : FileTree} {output : Path} {text : String}
    (hroom : tree.run (makeRoomFor output) = (.ok (), mid))
    (hput : mid.putFile output (some text) = (true, after)) :
    ∃ location, Written output location text tree after := by
  have hadds := addsDirectories_of_makeRoomFor hroom
  obtain ⟨location, hlocate, hold, hworking, hcontent⟩ := putFile_eq_true hput
  have hkeeps := keepsDirectories_of_putFile hput
  have hlocate := locate_of_keepsDirectories hkeeps hlocate
  refine ⟨location, hworking.trans hadds.workingDirectory_eq, hlocate, ?_, ?_, ?_, ?_⟩
  · rw [hcontent, if_pos rfl]
  · exact fun hdirectory => hold (hadds.content location _ hdirectory)
  · intro around haround
    obtain ⟨place, hplace, hdirectory⟩ := locate_of_isAncestor haround hlocate
    refine ⟨place, hplace, hdirectory, ?_⟩
    cases hbefore : tree.contentAt? place with
    | none => exact .inl rfl
    | some c =>
      -- what was there has stayed, and it is no file now
      have hmid := hadds.content place c hbefore
      rw [hcontent] at hdirectory
      split at hdirectory
      · cases hdirectory
      · rw [hmid] at hdirectory
        exact .inr hdirectory
  · intro place hne hnot
    rw [hcontent, if_neg hne]
    cases hbefore : tree.contentAt? place with
    | some c => exact hadds.content place c hbefore
    | none =>
      cases hmid : mid.contentAt? place with
      | none => rfl
      -- what was not there before was made on the way, and the way to it is still the same
      | some c =>
        obtain ⟨-, around, haround, hplace⟩ := hadds.added place c hbefore hmid
        exact absurd (locate_of_keepsDirectories hkeeps hplace) (hnot around haround)

/-- What was written is what is read. -/
theorem Written.document_eq {tree after : FileTree} {output : Path} {location : List String}
    {text : String} (h : Written output location text tree after) : after.document output = .ok text :=
  document_eq_ok_iff.2 ⟨location, h.locate_eq, h.content_eq⟩

end FileTree
end RpcReference
