import RpcReference.Files.Commands
import RpcReference.Proofs.Files.Tree

/-!
# Commands on a file tree

* `FileTree.run` — what a command gives on a tree, and the tree after it.
* `FileTree.run_load`, `FileTree.run_loadConfig`, `FileTree.run_checkFiles` — **reading and checking
  leave the tree as it is**, and what they give depends on the texts of their documents
  (`FileTree.document`) only.
* `FileTree.growsCommand_makeRoomFor` — making room for a file **adds directories on the way to it
  and changes nothing else**.
* `FileTree.run_save_eq_ok` — what a tree is after a reference was saved.
* `FileTree.run_convertFile_eq_ok` — a conversion loads, converts and saves.
-/

set_option autoImplicit false

namespace RpcReference.FileTree

variable {α β : Type}

/-! ## Running commands

The commands are written over any file system, and here they run on a tree.  A command that fails
may have changed the tree before, so both are kept: what it gave, and what the tree is.  A command
is taken apart with `run_bind` and `run_bind_eq_ok`, one step at a time. -/

/-- What a command gives on a tree, and the tree after it. -/
def run (tree : FileTree) (command : ExceptT Failure (StateM FileTree) α) :
    Except Failure α × FileTree := (command.run.run tree).run

@[simp] theorem run_pure (tree : FileTree) (value : α) : tree.run (pure value) = (.ok value, tree) :=
  rfl

@[simp] theorem run_throw (tree : FileTree) (failure : Failure) :
    tree.run (throw failure : ExceptT Failure (StateM FileTree) α) = (.error failure, tree) := rfl

@[simp] theorem run_liftM (tree : FileTree) (action : StateM FileTree α) :
    tree.run (liftM action) = (.ok (action tree).1, (action tree).2) := rfl

/-- A command after another starts from the tree that the other leaves. -/
theorem run_bind (tree : FileTree) (command : ExceptT Failure (StateM FileTree) α)
    (next : α → ExceptT Failure (StateM FileTree) β) :
    tree.run (command >>= next) =
      match tree.run command with
      | (.ok value, after) => after.run (next value)
      | (.error failure, after) => (.error failure, after) := by
  simp only [run, ExceptT.run_bind, StateT.run_bind, Id.run_bind]
  cases (command.run.run tree).run with
  | mk result after => cases result <;> rfl

@[simp] theorem run_ofExcept (tree : FileTree) (result : Except Failure α) :
    tree.run (ofExcept result) = (result, tree) := by
  cases result <;> rfl

/-- Two commands succeed exactly if the first does and the second does on the tree that it
leaves. -/
theorem run_bind_eq_ok {tree after : FileTree} {command : ExceptT Failure (StateM FileTree) α}
    {next : α → ExceptT Failure (StateM FileTree) β} {value : β} :
    tree.run (command >>= next) = (.ok value, after) ↔
      ∃ v mid, tree.run command = (.ok v, mid) ∧ mid.run (next v) = (.ok value, after) := by
  rw [run_bind]
  cases tree.run command with
  | mk result mid =>
    cases result with
    | error failure => simp
    | ok v =>
      refine ⟨fun h => ⟨v, mid, rfl, h⟩, ?_⟩
      rintro ⟨_, _, heq, h⟩
      cases heq
      exact h

/-! ## Reading

To read a document is to look at the tree and nothing else.  Once that is known the commands that
only read are functions of the texts of their documents, and are not taken apart any more. -/

/-- The text of the document at a path. -/
def document (tree : FileTree) (path : Path) : Except Failure String :=
  match tree.find? path with
  | none => .error (.missingInput path)
  | some entry => entry.text?.elim (.error .io) .ok

/-- There are two looks at the tree, one for what is there and one for its text, and nothing between
them. -/
@[simp] theorem run_readDocument (tree : FileTree) (path : Path) :
    tree.run (readDocument path) = (tree.document path, tree) := by
  rw [document, readDocument, run_bind, run_liftM]
  simp only [FileAccess.kind?]
  cases hfind : tree.find? path with
  | none => rfl
  | some entry =>
    simp only [Option.map_some, Option.isNone_some, Bool.false_eq_true, if_false, run_bind, run_liftM,
      FileAccess.read?, hfind, Option.bind_some]
    cases entry.text? <;> rfl

/-- Reading what a document holds changes nothing. -/
theorem run_parseDocument (tree : FileTree) (path : Path) (parse : String → Except Failure α) :
    tree.run (readDocument path >>= fun text => ofExcept (parse text)) =
      ((tree.document path).bind parse, tree) := by
  rw [run_bind, run_readDocument]
  cases tree.document path with
  | error failure => rfl
  | ok text => exact run_ofExcept _ _

/-- Reading succeeds exactly if there is a text and it can be parsed. -/
theorem run_parseDocument_eq_ok {tree after : FileTree} {path : Path}
    {parse : String → Except Failure α} {value : α} :
    tree.run (readDocument path >>= fun text => ofExcept (parse text)) = (.ok value, after) ↔
      ∃ text, tree.document path = .ok text ∧ parse text = .ok value ∧ after = tree := by
  rw [run_parseDocument]
  cases tree.document path with
  | error failure => exact ⟨nofun, nofun⟩
  | ok text => simp [Except.bind, eq_comm]

/-- **Loading a workspace changes nothing.** -/
theorem run_load (tree : FileTree) (path : Path) :
    tree.run (Workspace.load path) =
      ((tree.document path).bind (Workspace.parse (.ofPath path)), tree) :=
  tree.run_parseDocument path _

/-- **Loading a configuration changes nothing.** -/
theorem run_loadConfig (tree : FileTree) (path : Path) :
    tree.run (Config.load path) =
      ((tree.document path).bind (Config.parse (.ofPath path)), tree) :=
  tree.run_parseDocument path _

/-- **A check changes nothing.**  It gives the report if the workspace can be loaded and the
reference can be read. -/
theorem run_checkFiles (tree : FileTree) (workspace reference : Path) :
    tree.run (checkFiles workspace reference) =
      (((tree.document workspace).bind (Workspace.parse (.ofPath workspace))).bind fun w =>
        (tree.document reference).bind fun text =>
          ((DocumentFormat.ofPath reference).parse text).map (SyncReport.ofDocument w), tree) := by
  rw [checkFiles, run_bind, run_load]
  cases (tree.document workspace).bind (Workspace.parse (.ofPath workspace)) with
  | error failure => rfl
  | ok w =>
    simp only [run_bind, run_readDocument, Except.bind]
    cases tree.document reference with
    | error failure => rfl
    | ok text =>
      simp only [run_ofExcept]
      cases (DocumentFormat.ofPath reference).parse text <;> rfl

/-- There is a document where a path leads to a file with a text. -/
theorem document_eq_ok_iff {tree : FileTree} {path : Path} {text : String} :
    tree.document path = .ok text ↔
      ∃ location, tree.locate path = .ok location ∧
        tree.contentAt? location = some (.file (some text)) := by
  rw [document, find?]
  cases tree.locate path with
  | error obstacle => simp
  | ok location =>
    simp only [contentAt?, Entry.contentAt?, Except.ok.injEq, exists_eq_left']
    cases tree.root.get? location with
    | none => simp
    | some entry =>
      cases entry with
      | directory entries => simp [Entry.text?, Entry.content]
      | file found => cases found <;> simp [Entry.text?, Entry.content]

/-! ## Making directories

Making a directory tries the whole path first and goes backwards to where there is something.  So
there are many ways in which it can go, and for a result that holds whichever is taken the way does
not matter: it is a sequence of attempts to make one directory each, and every attempt adds that
directory or nothing.

This is a property of actions that is kept by putting one after the other (`Grows.bind`).  It is
proved of the single attempt, and then along the definitions.  Which directories may be made is a
parameter; it is fixed at the end, as those on the way to the path. -/

section Grows

variable {onWay : Path → Prop}

/-- Actions that lose nothing and add nothing but directories, to which some of the given paths
lead. -/
def Grows (onWay : Path → Prop) (action : StateM FileTree α) : Prop :=
  ∀ tree, AddsDirectories onWay tree (action tree).2

/-- Doing nothing adds nothing. -/
theorem grows_pure (value : α) : Grows onWay (pure value) := AddsDirectories.refl

/-- Two actions, one after the other. -/
theorem Grows.bind {action : StateM FileTree α} {next : α → StateM FileTree β}
    (h : Grows onWay action) (hnext : ∀ value, Grows onWay (next value)) :
    Grows onWay (action >>= next) := fun tree =>
  (h tree).trans (hnext (action tree).1 (action tree).2)

open FileAccess

/-- Looking adds nothing. -/
theorem grows_kind? (path : Path) : Grows onWay (kind? path : StateM FileTree _) :=
  AddsDirectories.refl

/-- Neither does asking whether there is a directory. -/
theorem grows_isDirectory (path : Path) :
    Grows onWay (isDirectory path : StateM FileTree Bool) :=
  (grows_kind? path).bind fun _ => grows_pure _

section MakeDirectory

variable {path : Path} (hpath : onWay path.withoutLastSlashes)

include hpath

/-- One attempt. -/
theorem grows_makeDirectory : Grows onWay (FileAccess.makeDirectory path : StateM FileTree _) :=
  fun tree => tree.addsDirectories_makeDirectory hpath

/-- The last attempt, which is not repeated. -/
theorem grows_makeLast : Grows onWay (makeLast path : StateM FileTree Bool) := by
  refine (grows_makeDirectory hpath).bind fun attempt => ?_
  split
  · exact grows_pure _
  · exact grows_isDirectory path

/-- An attempt, and once more after the directory around it was made. -/
theorem grows_makeInside {around : StateM FileTree Bool} (h : Grows onWay around) :
    Grows onWay (makeInside around path) := by
  refine (grows_makeDirectory hpath).bind fun attempt => ?_
  cases attempt with
  | made => exact grows_pure _
  | refused => exact grows_isDirectory path
  | noParent =>
    refine h.bind fun made => ?_
    split
    · exact grows_makeLast hpath
    · exact grows_pure _

end MakeDirectory

/-- By induction on the steps, the last of which is tried first. -/
theorem grows_makeBackwards {steps : List Path.Component}
    (h : ∀ tried, tried ≠ [] → tried <:+ steps →
      onWay (Path.ofComponents tried.reverse).withoutLastSlashes) :
    Grows onWay (makeBackwards steps : StateM FileTree Bool) := by
  induction steps with
  | nil => exact grows_pure _
  | cons last around ih =>
    rw [makeBackwards.eq_def]
    split
    · exact grows_pure _
    · exact grows_pure _
    · next heq =>
      obtain ⟨rfl, rfl⟩ := List.cons.inj heq
      have hpath := h _ (List.cons_ne_nil _ _) (List.suffix_refl _)
      exact grows_makeInside hpath
        (ih fun tried htried hle => h tried htried (hle.trans (List.suffix_cons _ _)))

/-- **Making the directory that a path lies in loses nothing**, and adds directories on the way
only. -/
theorem grows_makeDirectories {path around : Path} (h : path.parent? = some around)
    (hne : around ≠ "") : Grows path.IsAncestor (makeDirectories around : StateM FileTree Bool) := by
  obtain ⟨steps, last, hcomponents, hsteps, rfl⟩ := Path.exists_of_parent? h hne
  have hroute := (hcomponents ▸ path.isRoute_components).of_append
  -- every path that is tried has some first steps of this one
  have htried : ∀ tried, tried ≠ [] → tried <:+ steps.reverse →
      path.IsAncestor (Path.ofComponents tried.reverse).withoutLastSlashes := by
    intro tried hne hle
    obtain ⟨more, hsplit⟩ := List.reverse_prefix.2 hle
    rw [List.reverse_reverse] at hsplit
    have hancestor : path.IsAncestor (Path.ofComponents tried.reverse) := by
      refine ⟨tried.reverse, more ++ [last], ?_, mt List.reverse_eq_nil_iff.1 hne, by simp, rfl⟩
      rw [hcomponents, ← hsplit, List.append_assoc]
    rwa [hancestor.withoutLastSlashes_eq]
  rw [makeDirectories, Path.components_ofComponents hroute]
  split
  · exact grows_pure _
  next final around hreverse =>
  have hpath := htried _ (mt List.reverse_eq_nil_iff.1 hsteps) (List.suffix_refl _)
  rw [List.reverse_reverse] at hpath
  refine grows_makeInside hpath (grows_makeBackwards fun tried hne hle => htried tried hne ?_)
  rw [hreverse]
  exact hle.trans (List.suffix_cons _ _)

/-! ## Writing

The same property, now of commands, which may fail in the middle.  What they have added by then
stays, and it is still directories only. -/

/-- Commands that lose nothing and add nothing but such directories, whether they fail or not. -/
def GrowsCommand (onWay : Path → Prop) (command : ExceptT Failure (StateM FileTree) α) : Prop :=
  ∀ tree : FileTree, AddsDirectories onWay tree (tree.run command).2

theorem growsCommand_pure (value : α) :
    GrowsCommand onWay (pure value : ExceptT Failure (StateM FileTree) α) := AddsDirectories.refl

theorem growsCommand_throw (failure : Failure) :
    GrowsCommand onWay (throw failure : ExceptT Failure (StateM FileTree) α) := AddsDirectories.refl

theorem Grows.liftM {action : StateM FileTree α} (h : Grows onWay action) :
    GrowsCommand onWay (liftM action : ExceptT Failure (StateM FileTree) α) := h

/-- Of two commands the second may not be run at all. -/
theorem GrowsCommand.bind {command : ExceptT Failure (StateM FileTree) α}
    {next : α → ExceptT Failure (StateM FileTree) β} (h : GrowsCommand onWay command)
    (hnext : ∀ value, GrowsCommand onWay (next value)) : GrowsCommand onWay (command >>= next) := by
  intro tree
  have hfirst := h tree
  rw [run_bind]
  cases hrun : tree.run command with
  | mk result mid =>
    rw [hrun] at hfirst
    cases result with
    | error failure => exact hfirst
    | ok value => exact hfirst.trans (hnext value mid)

end Grows

/-- **Making room for a file loses nothing**, and adds directories on the way to it only. -/
theorem growsCommand_makeRoomFor (path : Path) :
    GrowsCommand path.IsAncestor (makeRoomFor path : ExceptT Failure (StateM FileTree) Unit) := by
  rw [makeRoomFor]
  split
  · exact growsCommand_pure _
  · next around hparent =>
    refine (grows_kind? around).liftM.bind fun kind => ?_
    split
    · next hmissing =>
      refine (grows_makeDirectories hparent hmissing.1).liftM.bind fun made => ?_
      split
      · exact growsCommand_pure _
      · exact growsCommand_throw _
    · exact growsCommand_pure _

theorem addsDirectories_of_makeRoomFor {tree mid : FileTree} {path : Path}
    {result : Except Failure Unit} (h : tree.run (makeRoomFor path) = (result, mid)) :
    AddsDirectories path.IsAncestor tree mid := by
  have hgrows := growsCommand_makeRoomFor path tree
  rwa [h] at hgrows

/-- What has to be possible was possible if a command succeeds. -/
theorem run_unless_eq_ok {tree after : FileTree} {action : StateM FileTree Bool} {failure : Failure} :
    tree.run (do unless ← action do throw failure) = (.ok (), after) ↔ action tree = (true, after) := by
  rw [run_bind, run_liftM]
  cases haction : action tree with
  | mk possible last =>
    cases possible with
    | false => exact ⟨nofun, nofun⟩
    | true => exact ⟨fun h => by cases h; rfl, fun h => by cases h; rfl⟩

/-- **Saving makes room and then writes the file.** -/
theorem run_save_eq_ok {tree after : FileTree} {reference : Reference} {path : Path} :
    tree.run (reference.save path) = (.ok (), after) ↔
      ∃ mid, tree.run (makeRoomFor path) = (.ok (), mid) ∧
        mid.putFile path (some (reference.render (.ofPath path))) = (true, after) := by
  rw [Reference.save, run_bind_eq_ok]
  refine ⟨?_, ?_⟩
  · rintro ⟨⟨⟩, mid, hroom, hwrite⟩
    exact ⟨mid, hroom, run_unless_eq_ok.1 hwrite⟩
  · rintro ⟨mid, hroom, hput⟩
    exact ⟨(), mid, hroom, run_unless_eq_ok.2 hput⟩

/-- **A conversion loads the workspace, and saves its reference.** -/
theorem run_convertFile_eq_ok {tree after : FileTree} {input output : Path} {config : Config}
    {summary : ConversionSummary} :
    tree.run (convertFile input output config) = (.ok summary, after) ↔
      ∃ w text, tree.document input = .ok text ∧ Workspace.parse (.ofPath input) text = .ok w ∧
        tree.run ((w.convert config).save output) = (.ok (), after) ∧
        summary = .ofReference (w.convert config) output := by
  rw [convertFile, run_bind_eq_ok]
  refine ⟨?_, ?_⟩
  · rintro ⟨w, mid, hload, hrest⟩
    obtain ⟨text, hdocument, hparse, rfl⟩ := run_parseDocument_eq_ok.1 hload
    obtain ⟨⟨⟩, last, hsave, hreturn⟩ := run_bind_eq_ok.1 hrest
    rw [run_pure] at hreturn
    cases hreturn
    exact ⟨w, text, hdocument, hparse, hsave, rfl⟩
  · rintro ⟨w, text, hdocument, hparse, hsave, rfl⟩
    have hload := run_parseDocument_eq_ok.2 ⟨text, hdocument, hparse, rfl⟩
    exact ⟨w, tree, hload, run_bind_eq_ok.2 ⟨(), after, hsave, rfl⟩⟩

end RpcReference.FileTree
