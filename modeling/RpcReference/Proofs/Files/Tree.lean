import Mathlib.Data.String.Basic
import RpcReference.Files.Tree
import RpcReference.Proofs.Files.Paths
import RpcReference.Proofs.Table

/-!
# What is where in a file tree

A location holds a file with its text, a directory, or nothing.  A path is followed by looking at
nothing else, so what an operation does to a tree is said by what every location holds afterwards.

* `Entry.contentAt?_put` — **something new in a directory changes what its own location holds and
  nothing else**.
* `FileTree.locate_eq_ok` — where a path ends.  `FileTree.locate_of_isAncestor` — **a part of the
  way leads to a directory**.
* `FileTree.Extends` — a tree in which everything that was there is still there.
  `FileTree.locate_of_keepsDirectories` says that paths lead to the same locations in it.
* `FileTree.AddsDirectories` — such a tree that has more directories, and these on some paths only.
* `FileTree.putFile_eq_true` — what writing a file does; `FileTree.putFile_eq_self` — and writing it
  again.
-/

set_option autoImplicit false

namespace RpcReference

/-! ## Entries inside entries

An entry is a tree and a location a list of names.  To say what an operation changes, the content at
every location is compared: a file with its text, a directory whatever is in it, or nothing.  With
the whole entries every directory around a new file would count as changed.

Something is only ever put into a directory, in a place where there is no directory.  Then nothing
was inside that place before and nothing is inside it afterwards, the directories around it stay
directories, and other branches are not touched. -/

/-- What there is at a location: a file with its text, or a directory. -/
inductive Content where
  /-- A file; without a text if its bytes are none. -/
  | file (text : Option String)
  /-- A directory, whatever is in it. -/
  | directory
deriving DecidableEq

namespace Entry

/-- What an entry is, apart from what is in it. -/
def content : Entry → Content
  | file text => .file text
  | directory _ => .directory

/-- What there is at a location inside an entry. -/
def contentAt? (entry : Entry) (location : List String) : Option Content :=
  (entry.get? location).map content

theorem isDirectory_eq (entry : Entry) :
    entry.isDirectory = decide (entry.content = .directory) := by
  cases entry <;> rfl

theorem any_isDirectory_iff {entry : Option Entry} :
    entry.any isDirectory = true ↔ entry.map content = some .directory := by
  cases entry with
  | none => simp
  | some entry => simp [isDirectory_eq]

/-- A location after another is found in the entry at the first one. -/
theorem get?_append (entry : Entry) (location more : List String) :
    entry.get? (location ++ more) = (entry.get? location).bind fun e => e.get? more := by
  induction location generalizing entry with
  | nil => rw [List.nil_append, get?_nil, Option.bind_some]
  | cons name rest ih =>
    cases entry with
    | file text => rfl
    | directory entries =>
      rw [List.cons_append, get?, get?, Option.bind_assoc]
      exact Option.bind_congr fun child _ => ih child

/-- There is something inside directories only. -/
theorem contentAt?_of_append {entry : Entry} {location more : List String} {c : Content}
    (h : entry.contentAt? (location ++ more) = some c) (hmore : more ≠ []) :
    entry.contentAt? location = some .directory := by
  rw [contentAt?, get?_append] at h
  rw [contentAt?]
  cases hentry : entry.get? location with
  | none => simp [hentry] at h
  | some e =>
    cases e with
    | directory entries => rfl
    | file text =>
      cases more with
      | nil => exact absurd rfl hmore
      | cons name rest => simp [hentry, get?] at h

/-- What contains a directory is a directory. -/
theorem contentAt?_of_prefix {entry : Entry} {location other : List String}
    (h : entry.contentAt? other = some .directory) (hle : location <+: other) :
    entry.contentAt? location = some .directory := by
  obtain ⟨more, rfl⟩ := hle
  by_cases hmore : more = []
  · rwa [hmore, List.append_nil] at h
  · exact contentAt?_of_append h hmore

/-- There is nothing inside a new file or an empty directory. -/
def IsBare : Entry → Prop
  | file _ => True
  | directory entries => entries = []

/-- So nothing is found there. -/
theorem get?_of_isBare {entry : Entry} (h : entry.IsBare) {more : List String} (hmore : more ≠ []) :
    entry.get? more = none := by
  cases more with
  | nil => exact absurd rfl hmore
  | cons name rest =>
    cases entry with
    | file text => rfl
    | directory entries =>
      obtain rfl : entries = [] := h
      rfl

section Put

variable {entry new : Entry} {around : List String} {name : String}
  (hdirectory : entry.contentAt? around = some .directory)

include hdirectory

theorem contentAt?_put_self :
    (entry.put (around ++ [name]) new).contentAt? (around ++ [name]) = some new.content := by
  rw [contentAt?, get?_put_self (any_isDirectory_iff.2 hdirectory), Option.map_some]

/-- **Something new in a directory changes what its own location holds and nothing else.** -/
theorem contentAt?_put (hold : entry.contentAt? (around ++ [name]) ≠ some .directory)
    (hnew : new.IsBare) (other : List String) :
    (entry.put (around ++ [name]) new).contentAt? other =
      if other = around ++ [name] then some new.content else entry.contentAt? other := by
  have hself := @contentAt?_put_self entry new around name hdirectory
  by_cases heq : other = around ++ [name]
  · rw [if_pos heq, heq, hself]
  rw [if_neg heq]
  by_cases hbelow : around ++ [name] <+: other
  · -- below the location there is nothing, before and after
    obtain ⟨more, rfl⟩ := hbelow
    have hmore : more ≠ [] := by
      rintro rfl
      exact heq (List.append_nil _)
    have hafter :
        (entry.put (around ++ [name]) new).contentAt? ((around ++ [name]) ++ more) = none := by
      rw [contentAt?, get?_append, get?_put_self (any_isDirectory_iff.2 hdirectory), Option.bind_some,
        get?_of_isBare hnew hmore, Option.map_none]
    have hbefore : entry.contentAt? ((around ++ [name]) ++ more) = none :=
      Option.eq_none_iff_forall_ne_some.2 fun c hc => hold (contentAt?_of_append hc hmore)
    rw [hafter, hbefore]
  by_cases habove : other <+: around ++ [name]
  · -- above it there are directories, before and after
    obtain ⟨more, hsplit⟩ := habove
    have hmore : more ≠ [] := by
      rintro rfl
      exact heq (by rw [← hsplit, List.append_nil])
    have hafter : (entry.put (around ++ [name]) new).contentAt? other = some .directory := by
      rw [← hsplit] at hself ⊢
      exact contentAt?_of_append hself hmore
    have hle : other <+: around := by
      have hlength := congrArg List.length hsplit
      have hpos := List.length_pos_iff.2 hmore
      rw [List.length_append, List.length_append, List.length_singleton] at hlength
      exact List.prefix_of_prefix_length_le ⟨more, hsplit⟩ (List.prefix_append _ _) (by omega)
    rw [hafter, contentAt?_of_prefix hdirectory hle]
  · rw [contentAt?, get?_put_of_not_prefix hbelow habove, contentAt?]

end Put
end Entry

namespace FileTree

/-! ## Locations in a tree

A path is followed part by part.  Each step starts in a directory, so wherever a path leads, there
is a directory around that place, or the place is one.  What the path looks at on its way is nothing
but which locations are directories. -/

/-- What there is at a location of a tree. -/
def contentAt? (tree : FileTree) (location : List String) : Option Content :=
  tree.root.contentAt? location

/-- One step of a path, by what the location holds. -/
theorem step_eq (tree : FileTree) (location : List String) (part : String) :
    tree.step location part =
      match tree.contentAt? location with
      | none => .error .absent
      | some (.file _) => .error .closed
      | some .directory =>
          if part = "" ∨ part = "." then .ok location
          else if part = ".." then .ok location.dropLast
          else if part.utf8ByteSize ≤ longestName then .ok (location ++ [part])
          else .error .closed := by
  rw [step, contentAt?, Entry.contentAt?]
  cases tree.root.get? location with
  | none => rfl
  | some entry => cases entry <;> rfl

/-- A step starts in a directory, and it ends in one or at something inside it. -/
theorem step_eq_ok {tree : FileTree} {location next : List String} {part : String}
    (h : tree.step location part = .ok next) :
    tree.contentAt? location = some .directory ∧
      (tree.contentAt? next = some .directory ∨ next = location ++ [part]) := by
  rw [step_eq] at h
  split at h
  · cases h
  · cases h
  next hdirectory =>
  refine ⟨hdirectory, ?_⟩
  split at h
  · cases h
    exact .inl hdirectory
  split at h
  · cases h
    exact .inl (Entry.contentAt?_of_prefix hdirectory (List.dropLast_prefix _))
  split at h
  · cases h
    exact .inr rfl
  · cases h

/-- Whether something can be put at a location: it lies in a directory. -/
def LiesInDirectory (tree : FileTree) (location : List String) : Prop :=
  ∃ around name, location = around ++ [name] ∧ tree.contentAt? around = some .directory

/-- By induction on the parts: only the last one may leave the directories. -/
theorem foldlM_step_eq_ok {tree : FileTree} {start location : List String} {parts : List String}
    (hparts : parts ≠ []) (h : parts.foldlM tree.step start = .ok location) :
    tree.contentAt? location = some .directory ∨ tree.LiesInDirectory location := by
  induction parts generalizing start with
  | nil => exact absurd rfl hparts
  | cons part parts ih =>
    rw [List.foldlM_cons] at h
    cases hstep : tree.step start part with
    | error obstacle =>
      rw [hstep] at h
      cases h
    | ok next =>
      rw [hstep] at h
      by_cases hrest : parts = []
      · subst hrest
        obtain rfl : next = location := by cases h; rfl
        obtain ⟨hstart, hnext⟩ := step_eq_ok hstep
        exact hnext.imp id fun hnext => ⟨start, part, hnext, hstart⟩
      · exact ih hrest h

/-- Where the way of a path starts. -/
def startOf (tree : FileTree) (path : Path) : List String :=
  if path.isAbsolute then [] else tree.workingDirectory

/-- A path is followed part by part from its start, if it is one that a system takes. -/
theorem locate_eq_ok_iff {tree : FileTree} {path : Path} {location : List String} :
    tree.locate path = .ok location ↔
      path ≠ "" ∧ isPossiblePath path = true ∧
        path.segments.foldlM tree.step (tree.startOf path) = .ok location := by
  rw [locate, startOf]
  by_cases hempty : path = ""
  · simp [hempty]
  by_cases hpossible : isPossiblePath path = true
  · simp [hempty, hpossible]
  · simp [hempty, hpossible]

/-- **A path ends at a directory or at something in one.** -/
theorem locate_eq_ok {tree : FileTree} {path : Path} {location : List String}
    (h : tree.locate path = .ok location) :
    tree.contentAt? location = some .directory ∨ tree.LiesInDirectory location :=
  foldlM_step_eq_ok path.segments_ne_nil (locate_eq_ok_iff.1 h).2.2

/-! ## A part of the way

A path is followed by its parts and taken apart by its steps, and a part that is no step leads
nowhere.  So the steps of a path lead to the same place as its parts, and the first of them lead to
some place on the way.  More steps follow, so that place is a directory. -/

section Ancestor

variable {tree : FileTree} {start location : List String}

theorem foldlM_step_append_eq_ok {parts more : List String} :
    (parts ++ more).foldlM tree.step start = .ok location ↔
      ∃ next, parts.foldlM tree.step start = .ok next ∧ more.foldlM tree.step next = .ok location := by
  rw [List.foldlM_append]
  cases parts.foldlM tree.step start <;> simp [Bind.bind, Except.bind]

theorem foldlM_step_cons_eq_ok {part : String} {parts : List String} :
    (part :: parts).foldlM tree.step start = .ok location ↔
      ∃ next, tree.step start part = .ok next ∧ parts.foldlM tree.step next = .ok location := by
  rw [List.foldlM_cons]
  cases tree.step start part <;> simp [Bind.bind, Except.bind]

/-- A way that goes on starts in a directory. -/
theorem contentAt?_of_foldlM_step {parts : List String} (hparts : parts ≠ [])
    (h : parts.foldlM tree.step start = .ok location) : tree.contentAt? start = some .directory := by
  obtain ⟨part, rest, rfl⟩ := List.exists_cons_of_ne_nil hparts
  obtain ⟨next, hstep, -⟩ := foldlM_step_cons_eq_ok.1 h
  exact (step_eq_ok hstep).1

/-- A part that stands for no step leads nowhere else. -/
theorem step_of_componentOf?_eq_none {part : String} (hpart : Path.componentOf? part = none)
    (hdirectory : tree.contentAt? start = some .directory) : tree.step start part = .ok start := by
  have hpart : part = "" ∨ part = "." := by
    rw [Path.componentOf?] at hpart
    split at hpart
    · assumption
    · split at hpart <;> cases hpart
  rw [step_eq, hdirectory]
  exact if_pos hpart

/-- Parts that stand for no step can be left out. -/
theorem foldlM_step_filterMap {parts : List String} (hparts : ∀ part ∈ parts, '/' ∉ part.toList)
    (h : parts.foldlM tree.step start = .ok location) :
    ((parts.filterMap Path.componentOf?).map Path.componentText).foldlM tree.step start =
      .ok location := by
  induction parts generalizing start with
  | nil => exact h
  | cons part parts ih =>
    obtain ⟨hpart, hrest⟩ := List.forall_mem_cons.1 hparts
    obtain ⟨next, hstep, hnext⟩ := foldlM_step_cons_eq_ok.1 h
    cases hcomponent : Path.componentOf? part with
    | none =>
      have hstay := step_of_componentOf?_eq_none hcomponent (step_eq_ok hstep).1
      obtain rfl := Except.ok.inj (hstay.symm.trans hstep)
      rw [List.filterMap_cons_none hcomponent]
      exact ih hrest hnext
    | some c =>
      rw [List.filterMap_cons_some hcomponent, List.map_cons,
        (Path.isPlain_of_componentOf? hcomponent hpart).1]
      exact foldlM_step_cons_eq_ok.2 ⟨next, hstep, ih hrest hnext⟩

/-- **The steps of a path lead to where its parts lead.** -/
theorem foldlM_step_components {path : Path}
    (h : path.segments.foldlM tree.step start = .ok location) :
    (path.components.map Path.componentText).foldlM tree.step start = .ok location := by
  have hplain := foldlM_step_filterMap (fun _ => Path.not_mem_of_mem_segments) h
  have hdirectory := contentAt?_of_foldlM_step path.segments_ne_nil h
  rw [Path.components]
  split
  · exact foldlM_step_cons_eq_ok.2 ⟨start, step_of_componentOf?_eq_none rfl hdirectory, hplain⟩
  split
  · exact foldlM_step_cons_eq_ok.2 ⟨start, step_of_componentOf?_eq_none rfl hdirectory, hplain⟩
  · exact hplain

theorem utf8ByteSize_le_of_sublist {text text' : List Char} (h : text.Sublist text') :
    (String.ofList text).utf8ByteSize ≤ (String.ofList text').utf8ByteSize := by
  rw [String.utf8ByteSize_ofList, String.utf8ByteSize_ofList]
  exact String.utf8Len_le_of_sublist h

/-- A part of the way is no longer, and has no other characters. -/
theorem isPossiblePath_of_isAncestor {path around : Path} (h : path.IsAncestor around)
    (hpossible : isPossiblePath path = true) : isPossiblePath around = true := by
  rw [isPossiblePath, Bool.and_eq_true, decide_eq_true_iff, Bool.not_eq_true', decide_eq_false_iff_not]
    at hpossible ⊢
  have hshorter := utf8ByteSize_le_of_sublist h.toList_sublist
  rw [String.ofList_toList, String.ofList_toList] at hshorter
  exact ⟨hshorter.trans hpossible.1, fun hnull => hpossible.2 (h.toList_sublist.mem hnull)⟩

/-- **Where a path leads somewhere, a part of the way leads to a directory.** -/
theorem locate_of_isAncestor {path around : Path} (h : path.IsAncestor around)
    (hlocate : tree.locate path = .ok location) :
    ∃ place, tree.locate around = .ok place ∧ tree.contentAt? place = some .directory := by
  obtain ⟨-, hpossible, hway⟩ := locate_eq_ok_iff.1 hlocate
  -- both ways start at the root, or both in the working directory
  have hstart : tree.startOf around = tree.startOf path := by
    rw [startOf, startOf, h.isAbsolute_eq]
  have hempty := h.ne_empty
  have hshorter := isPossiblePath_of_isAncestor h hpossible
  obtain ⟨steps, more, hcomponents, hsteps, hmore, rfl⟩ := h
  have hroute := (hcomponents ▸ path.isRoute_components).of_append
  have hall := foldlM_step_components hway
  rw [hcomponents, List.map_append] at hall
  obtain ⟨place, hplace, hrest⟩ := foldlM_step_append_eq_ok.1 hall
  have hdirectory := contentAt?_of_foldlM_step (mt List.map_eq_nil_iff.1 hmore) hrest
  refine ⟨place, locate_eq_ok_iff.2 ⟨hempty, hshorter, ?_⟩, hdirectory⟩
  rw [hstart]
  by_cases hroot : steps = [.root]
  · -- the root has two parts, both of them empty
    subst hroot
    have hsegments : Path.segments (Path.ofComponents [.root]) = ["", ""] := by decide
    obtain ⟨next, hstep, hnext⟩ := foldlM_step_cons_eq_ok.1 hplace
    obtain rfl := Except.ok.inj hnext
    have hstay : tree.step (tree.startOf path) "" = .ok (tree.startOf path) :=
      step_of_componentOf?_eq_none rfl (step_eq_ok hstep).1
    obtain rfl := Except.ok.inj (hstay.symm.trans hstep)
    rw [hsegments]
    exact foldlM_step_cons_eq_ok.2 ⟨_, hstay, foldlM_step_cons_eq_ok.2 ⟨_, hstay, rfl⟩⟩
  · rw [Path.segments_ofComponents hroute hsteps hroot]
    exact hplace

end Ancestor

/-! ## Trees in which nothing is lost

A path that leads somewhere keeps leading there as long as the directories on its way stay
directories.  New ones do no harm, and neither does what happens to files.  So two relations are
kept apart: the one that this needs, and the stronger one by which files keep their texts as
well. -/

/-- The working directory is the same, and directories are still directories. -/
structure KeepsDirectories (tree tree' : FileTree) : Prop where
  workingDirectory_eq : tree'.workingDirectory = tree.workingDirectory
  directory : ∀ location, tree.contentAt? location = some .directory →
    tree'.contentAt? location = some .directory

/-- **What was there is still there.** -/
structure Extends (tree tree' : FileTree) : Prop where
  workingDirectory_eq : tree'.workingDirectory = tree.workingDirectory
  content : ∀ location c, tree.contentAt? location = some c → tree'.contentAt? location = some c

theorem Extends.refl (tree : FileTree) : Extends tree tree := ⟨rfl, fun _ _ h => h⟩

theorem Extends.trans {a b c : FileTree} (hab : Extends a b) (hbc : Extends b c) : Extends a c :=
  ⟨hbc.workingDirectory_eq.trans hab.workingDirectory_eq,
    fun location found h => hbc.content location found (hab.content location found h)⟩

theorem Extends.keepsDirectories {tree tree' : FileTree} (h : Extends tree tree') :
    KeepsDirectories tree tree' :=
  ⟨h.workingDirectory_eq, fun location => h.content location .directory⟩

/-- **A path leads to the same location** as long as directories stay. -/
theorem locate_of_keepsDirectories {tree tree' : FileTree} (h : KeepsDirectories tree tree')
    {path : Path} {location : List String} (hlocate : tree.locate path = .ok location) :
    tree'.locate path = .ok location := by
  -- a step looks at one directory, and that is still there
  have hstep : ∀ {start next part}, tree.step start part = .ok next →
      tree'.step start part = .ok next := by
    intro start next part hok
    have hdirectory := (step_eq_ok hok).1
    rw [step_eq, hdirectory] at hok
    rw [step_eq, h.directory start hdirectory]
    exact hok
  -- the same for several steps, by induction on the parts
  have hfold : ∀ {parts : List String} {start}, parts.foldlM tree.step start = .ok location →
      parts.foldlM tree'.step start = .ok location := by
    intro parts
    induction parts with
    | nil => exact fun hok => hok
    | cons part parts ih =>
      intro start hok
      obtain ⟨next, hnext, hrest⟩ := foldlM_step_cons_eq_ok.1 hok
      exact foldlM_step_cons_eq_ok.2 ⟨next, hstep hnext, ih hrest⟩
  have hstart : tree'.startOf path = tree.startOf path := by
    rw [startOf, startOf, h.workingDirectory_eq]
  rw [locate_eq_ok_iff] at hlocate ⊢
  rw [hstart]
  exact ⟨hlocate.1, hlocate.2.1, hfold hlocate.2.2⟩

/-! ## Trees with more directories

The stronger relation again, and a bound on what is new.  It is stated over the paths that lead to
the new directories and not over their locations, since a command is given paths. -/

/-- **What was there is still there, and what is new are directories** to which some of the given
paths lead. -/
structure AddsDirectories (onWay : Path → Prop) (tree tree' : FileTree) : Prop
    extends Extends tree tree' where
  added : ∀ location c, tree.contentAt? location = none → tree'.contentAt? location = some c →
    c = .directory ∧ ∃ path, onWay path ∧ tree'.locate path = .ok location

namespace AddsDirectories

variable {onWay : Path → Prop}

theorem refl (tree : FileTree) : AddsDirectories onWay tree tree :=
  ⟨.refl tree, fun location c hnone hc => by rw [hnone] at hc; cases hc⟩

/-- What the first adds is still there after the second, and the same path leads to it. -/
theorem trans {a b c : FileTree} (hab : AddsDirectories onWay a b)
    (hbc : AddsDirectories onWay b c) : AddsDirectories onWay a c := by
  refine ⟨hab.toExtends.trans hbc.toExtends, fun location found hnone hfound => ?_⟩
  cases hb : b.contentAt? location with
  | none => exact hbc.added location found hb hfound
  | some before =>
    obtain rfl := Option.some_inj.1 ((hbc.content location before hb).symm.trans hfound)
    obtain ⟨hdirectory, path, hpath, hlocate⟩ := hab.added location before hnone hb
    exact ⟨hdirectory, path, hpath, locate_of_keepsDirectories hbc.keepsDirectories hlocate⟩

end AddsDirectories

/-! ## Files and directories put into a tree

A path that can be followed ends in a directory or at something inside one; where it does not end at
a directory, something can be put there. -/

/-- What putting something into a directory does to a tree. -/
theorem contentAt?_put {tree : FileTree} {location : List String} {new : Entry}
    (hplace : tree.LiesInDirectory location) (hold : tree.contentAt? location ≠ some .directory)
    (hnew : new.IsBare) (other : List String) :
    (tree.put location new).contentAt? other =
      if other = location then some new.content else tree.contentAt? other := by
  obtain ⟨around, name, rfl, hdirectory⟩ := hplace
  exact Entry.contentAt?_put hdirectory hold hnew other

/-- **What writing a file does**, if it is possible. -/
theorem putFile_eq_true {tree tree' : FileTree} {path : Path} {text : Option String}
    (h : tree.putFile path text = (true, tree')) :
    ∃ location, tree.locate path = .ok location ∧ tree.contentAt? location ≠ some .directory ∧
      tree'.workingDirectory = tree.workingDirectory ∧
      ∀ other, tree'.contentAt? other =
        if other = location then some (.file text) else tree.contentAt? other := by
  rw [putFile] at h
  split at h
  · cases h
  next location hlocate =>
  split at h
  · cases h
  next hnot =>
  cases h
  have hold : tree.contentAt? location ≠ some .directory := fun hdirectory =>
    hnot (Entry.any_isDirectory_iff.2 hdirectory)
  have hplace := (locate_eq_ok hlocate).resolve_left hold
  exact ⟨location, hlocate, hold, rfl, contentAt?_put hplace hold trivial⟩

/-- A file is never written in the place of a directory. -/
theorem keepsDirectories_of_putFile {tree tree' : FileTree} {path : Path} {text : Option String}
    (h : tree.putFile path text = (true, tree')) : KeepsDirectories tree tree' := by
  obtain ⟨location, -, hold, hworking, hcontent⟩ := putFile_eq_true h
  refine ⟨hworking, fun place hdirectory => ?_⟩
  rw [hcontent, if_neg, hdirectory]
  rintro rfl
  exact hold hdirectory

/-- **Making a directory adds the directory to which the path leads**, or nothing. -/
theorem addsDirectories_makeDirectory {onWay : Path → Prop} (tree : FileTree) {path : Path}
    (h : onWay path.withoutLastSlashes) : AddsDirectories onWay tree (tree.makeDirectory path).2 := by
  rw [makeDirectory]
  split
  · exact .refl tree
  · exact .refl tree
  next location hlocate =>
  split
  · exact .refl tree
  next habsent =>
  have hnone : tree.contentAt? location = none := by
    rw [contentAt?, Entry.contentAt?, Option.map_eq_none_iff]
    simpa using habsent
  have hplace := (locate_eq_ok hlocate).resolve_left (by simp [hnone])
  have hbare : (Entry.directory []).IsBare := rfl
  -- the path ends where there is nothing, so something can be put there
  have hput := contentAt?_put hplace (by simp [hnone]) hbare
  have hextends : Extends tree (tree.put location (.directory [])) := by
    refine ⟨rfl, fun other c hc => ?_⟩
    rw [hput, if_neg, hc]
    rintro rfl
    simp [hnone] at hc
  refine ⟨hextends, fun other c hother hc => ?_⟩
  rw [hput] at hc
  split at hc
  · next heq =>
    cases hc
    rw [heq]
    exact ⟨rfl, _, h, locate_of_keepsDirectories hextends.keepsDirectories hlocate⟩
  · rw [hother] at hc
    cases hc

end FileTree
end RpcReference
