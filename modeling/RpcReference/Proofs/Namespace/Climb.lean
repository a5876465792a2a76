import Mathlib.Data.List.Basic
import Mathlib.Data.List.Nodup
import Mathlib.Data.List.Perm.Subperm
import RpcReference.Proofs.Namespace.Hierarchy
import RpcReference.Proofs.Table

/-!
# Where a climb ends

The first folder with an id names at most one parent, so from an id there is one way up.  It ends at
a folder above which there is none, or it runs into a circle and stays there.

* `Workspace.above?` — the id that so many links lead to; `Workspace.OnCycle`,
  `Workspace.EntersCycleAt` — the ids that links lead back to, and the first of them on a way.
* `Workspace.IsWay` — **what the climb passes**: the ids on the way up, each once, until there is
  none or one for the second time.  All that is said about namespaces is read off it.
* `Climb.EndsAfter` — the climb round by round, with the ids that were passed at hand.
* `Workspace.namespaceOf_exact` — the namespace for every id, on trees and circles.
-/

set_option autoImplicit false

namespace RpcReference

namespace Workspace

/-! ## The way up from an id

Parents are named by ids, and an id stands for the first folder that has it.  So going up is a
partial function on ids, and its iterates are what is said of chains here: an id is on a circle if
some number of links leads back to it.  Nothing of this looks at the definition of the climb, which
works on a list of folders and takes out the ones that it has passed. -/

/-- Whether a folder has an id. -/
def Knows (w : Workspace) (id : String) : Prop := ∃ group ∈ w.groups, group.id = id

/-- The first folder with an id. -/
def folder? (w : Workspace) (id : String) : Option Resource := Resource.withId? id w.groups

/-- The parent that the first folder with an id names. -/
def parentOf? (w : Workspace) (id : String) : Option String := (w.folder? id).bind Resource.parentId

/-- The id that so many links to parents lead to. -/
def above? (w : Workspace) : Nat → String → Option String
  | 0, id => some id
  | links + 1, id => (w.parentOf? id).bind (w.above? links)

/-- Whether links lead from an id back to it. -/
def OnCycle (w : Workspace) (id : String) : Prop := ∃ links, w.above? (links + 1) id = some id

/-- The first id on a circle that links lead to. -/
def EntersCycleAt (w : Workspace) (id entry : String) : Prop :=
  ∃ links, w.above? links id = some entry ∧ w.OnCycle entry ∧
    ∀ fewer < links, ∀ other, w.above? fewer id = some other → ¬ w.OnCycle other

/-- Whether an id is that of a folder above which there is none: it names no parent, or one that is
no folder. -/
def IsTopmost (w : Workspace) (id : String) : Prop :=
  w.Knows id ∧ ∀ parent, w.parentOf? id = some parent → ¬ w.Knows parent

variable {w : Workspace}

theorem isSome_folder?_iff {id : String} : (w.folder? id).isSome = true ↔ w.Knows id :=
  Resource.isSome_withId?_iff

theorem exists_folder?_of_knows {id : String} (h : w.Knows id) :
    ∃ folder, w.folder? id = some folder := Option.isSome_iff_exists.1 (isSome_folder?_iff.2 h)

theorem knows_of_folder? {id : String} {folder : Resource} (h : w.folder? id = some folder) :
    w.Knows id := isSome_folder?_iff.1 (Option.isSome_iff_exists.2 ⟨folder, h⟩)

theorem folder?_eq_none_iff {id : String} : w.folder? id = none ↔ ¬ w.Knows id := by
  rw [← isSome_folder?_iff, Option.not_isSome_iff_eq_none]

theorem parentOf?_of_folder? {id : String} {folder : Resource} (h : w.folder? id = some folder) :
    w.parentOf? id = folder.parentId := by
  rw [parentOf?, h, Option.bind_some]

/-- Only folders have parents. -/
theorem knows_of_parentOf? {id parent : String} (h : w.parentOf? id = some parent) : w.Knows id := by
  obtain ⟨folder, hfolder, -⟩ := Option.bind_eq_some_iff.1 h
  exact knows_of_folder? hfolder

theorem above?_one (id : String) : w.above? 1 id = w.parentOf? id := by
  rw [above?]
  cases w.parentOf? id <;> rfl

/-- Links one after another. -/
theorem above?_add (m n : Nat) (id : String) :
    w.above? (m + n) id = (w.above? m id).bind (w.above? n) := by
  induction m generalizing id with
  | zero => rw [Nat.zero_add, above?, Option.bind_some]
  | succ m ih =>
    rw [Nat.succ_add, above?, above?, Option.bind_assoc]
    exact Option.bind_congr fun parent _ => ih parent

/-- The last link. -/
theorem above?_succ {links : Nat} {id other : String} (h : w.above? links id = some other) :
    w.above? (links + 1) id = w.parentOf? other := by
  rw [above?_add, h, Option.bind_some, above?_one]

/-- What is on the way to an id is there too. -/
theorem exists_above?_of_le {m n : Nat} {id other : String} (h : w.above? n id = some other)
    (hle : m ≤ n) : ∃ between, w.above? m id = some between := by
  obtain ⟨k, rfl⟩ := Nat.exists_eq_add_of_le hle
  rw [above?_add] at h
  obtain ⟨between, hbetween, -⟩ := Option.bind_eq_some_iff.1 h
  exact ⟨between, hbetween⟩

/-! ## What a climb passes

The climb and the links are brought together once.  By induction on the steps of the climb, the
folders that it passes are those that the links lead to, and it stops for one of two reasons: the
next id finds no folder, or it finds one that was taken out.  `IsWay` says just that, and the rest
of this module argues with it instead of with the climb. -/

/-- **The ids that a climb passes**: those on the way up, each once, as far as they go or until one
would be passed again. -/
structure IsWay (w : Workspace) (id : String) (passed : List String) : Prop where
  /-- Every id is passed once. -/
  nodup : passed.Nodup
  /-- The ids are those on the way up. -/
  above?_eq : ∀ i (h : i < passed.length), w.above? i id = some passed[i]
  /-- Folders have them. -/
  knows : ∀ x ∈ passed, w.Knows x
  /-- What follows is no folder, or was passed. -/
  stops : ∀ x, w.above? passed.length id = some x → ¬ w.Knows x ∨ x ∈ passed

end Workspace

namespace Resource

open Workspace (above? parentOf? folder?)

variable {w : Workspace} {unvisited : List Resource}

/-- What the climb from a folder passes, where it may reach some of the folders: their ids are those
that the links lead to, until one cannot be reached or is passed again. -/
theorem above?_ancestors {r : Resource} (hr : w.folder? r.id = some r)
    (hunvisited : ∀ id folder, withId? id unvisited = some folder → w.folder? id = some folder) :
    (∀ i (h : i < (ancestors unvisited r).length),
      w.above? (i + 1) r.id = some (ancestors unvisited r)[i].id) ∧
    ∀ x, w.above? ((ancestors unvisited r).length + 1) r.id = some x →
      withId? x unvisited = none ∨ x ∈ (ancestors unvisited r).map Resource.id := by
  induction unvisited, r using ancestors.induct with
  | case1 unvisited r hparent =>
    have hnone : w.above? 1 r.id = none := by
      rw [Workspace.above?_one, Workspace.parentOf?_of_folder? hr, hparent]
    rw [ancestors_of_parentId_eq_none _ hparent]
    exact ⟨fun i h => absurd h (Nat.not_lt_zero i), fun x hx => by simp [hnone] at hx⟩
  | case2 unvisited r id hparent hfound =>
    have hone : w.above? 1 r.id = some id := by
      rw [Workspace.above?_one, Workspace.parentOf?_of_folder? hr, hparent]
    rw [ancestors_of_parentId_eq_some _ hparent, hfound]
    refine ⟨fun i h => absurd h (Nat.not_lt_zero i), fun x hx => .inl ?_⟩
    obtain rfl : id = x := Option.some.inj (hone.symm.trans hx)
    exact hfound
  | case3 unvisited r id hparent parent hfound ih =>
    obtain rfl : parent.id = id := id_eq_of_withId? hfound
    have hlink : ∀ links, w.above? (links + 1) r.id = w.above? links parent.id := fun links => by
      rw [above?, Workspace.parentOf?_of_folder? hr, hparent, Option.bind_some]
    -- the climb goes on from the parent, with its id taken out; the links from there are one fewer
    obtain ⟨habove, hstops⟩ := ih (hunvisited _ _ hfound) fun other folder hfolder =>
      hunvisited other folder (withId?_of_withoutId hfolder)
    rw [ancestors_of_parentId_eq_some _ hparent, hfound]
    refine ⟨fun i h => ?_, fun x hx => ?_⟩
    · rw [hlink]
      cases i with
      | zero => rfl
      | succ i => exact habove i (Nat.lt_of_succ_lt_succ h)
    · rw [hlink] at hx
      rw [List.map_cons, List.mem_cons]
      rcases hstops x hx with hx | hx
      · rw [withId?_withoutId] at hx
        split at hx
        · next heq => exact .inr (.inl heq)
        · exact .inl hx
      · exact .inr (.inr hx)

/-- The folders that are passed have different ids. -/
theorem nodup_map_id_ancestors (unvisited : List Resource) (r : Resource) :
    ((ancestors unvisited r).map Resource.id).Nodup := by
  induction unvisited, r using ancestors.induct with
  | case1 unvisited r hparent =>
    rw [ancestors_of_parentId_eq_none _ hparent]
    exact List.nodup_nil
  | case2 unvisited r id hparent hfound =>
    rw [ancestors_of_parentId_eq_some _ hparent, hfound]
    exact List.nodup_nil
  | case3 unvisited r id hparent parent hfound ih =>
    rw [ancestors_of_parentId_eq_some _ hparent, hfound, List.map_cons, List.nodup_cons]
    refine ⟨fun hmem => ?_, ih⟩
    obtain ⟨folder, hfolder, heq⟩ := List.mem_map.1 hmem
    have hne := (List.mem_filter.1 (mem_of_mem_ancestors hfolder)).2
    rw [heq, id_eq_of_withId? hfound] at hne
    simp at hne

/-- Each folder that is passed is the first with its id. -/
theorem folder?_id_of_mem_ancestors {r folder : Resource}
    (hunvisited : ∀ id folder, withId? id unvisited = some folder → w.folder? id = some folder)
    (h : folder ∈ ancestors unvisited r) : w.folder? folder.id = some folder := by
  induction unvisited, r using ancestors.induct with
  | case1 unvisited r hparent => simp [ancestors_of_parentId_eq_none _ hparent] at h
  | case2 unvisited r id hparent hfound =>
    simp [ancestors_of_parentId_eq_some _ hparent, hfound] at h
  | case3 unvisited r id hparent parent hfound ih =>
    rw [ancestors_of_parentId_eq_some _ hparent, hfound] at h
    rcases List.mem_cons.1 h with rfl | h
    · rw [id_eq_of_withId? hfound]
      exact hunvisited id folder hfound
    · exact ih (fun other folder hfolder => hunvisited other folder (withId?_of_withoutId hfolder)) h

end Resource

namespace Workspace

variable {w : Workspace} {id : String}

/-- The folders that the climb from a folder passes, the folder itself first. -/
def climb (w : Workspace) (folder : Resource) : List Resource :=
  folder :: Resource.ancestors (Resource.withoutId folder.id w.groups) folder

/-- The folders of a climb are the first ones with their ids. -/
theorem folder?_id_of_mem_climb {folder passed : Resource} (hfolder : w.folder? folder.id = some folder)
    (h : passed ∈ w.climb folder) : w.folder? passed.id = some passed := by
  rcases List.mem_cons.1 h with rfl | h
  · exact hfolder
  · exact Resource.folder?_id_of_mem_ancestors (fun _ _ => Resource.withId?_of_withoutId) h

/-- **The climb passes the ids on the way up.** -/
theorem isWay_climb {folder : Resource} (hfolder : w.folder? folder.id = some folder) :
    w.IsWay folder.id ((w.climb folder).map Resource.id) := by
  obtain ⟨habove, hstops⟩ :=
    Resource.above?_ancestors hfolder fun _ _ hfound => Resource.withId?_of_withoutId hfound
  refine ⟨?_, fun i h => ?_, fun x hx => ?_, fun x hx => ?_⟩
  · rw [climb, List.map_cons, List.nodup_cons]
    refine ⟨fun hmem => ?_, Resource.nodup_map_id_ancestors _ _⟩
    obtain ⟨other, hother, heq⟩ := List.mem_map.1 hmem
    have hne := (List.mem_filter.1 (Resource.mem_of_mem_ancestors hother)).2
    simp [heq] at hne
  · rw [List.getElem_map]
    cases i with
    | zero => rfl
    | succ i => exact habove i (by simpa [climb] using h)
  · obtain ⟨passed, hpassed, rfl⟩ := List.mem_map.1 hx
    exact knows_of_folder? (folder?_id_of_mem_climb hfolder hpassed)
  · rw [List.length_map, climb, List.length_cons] at hx
    rw [climb, List.map_cons, List.mem_cons]
    rcases hstops x hx with hx | hx
    · rw [Resource.withId?_withoutId] at hx
      split at hx
      · next heq => exact .inr (.inl heq)
      · exact .inl (folder?_eq_none_iff.1 hx)
    · exact .inr (.inr hx)

/-- **The namespace is the name of the last folder on the way.** -/
theorem exists_isWay (h : w.Knows id) :
    ∃ earlier last, w.IsWay id (earlier ++ [last.id]) ∧ w.folder? last.id = some last ∧
      w.namespaceOf (some id) = last.name := by
  obtain ⟨folder, hfolder⟩ := exists_folder?_of_knows h
  obtain rfl : folder.id = id := Resource.id_eq_of_withId? hfolder
  have hway := isWay_climb hfolder
  have hlast := List.getLastD_mem_cons
    (l := Resource.ancestors (Resource.withoutId folder.id w.groups) folder) (a := folder)
  obtain ⟨earlier, hsplit⟩ : ∃ earlier, w.climb folder = earlier ++
      [(Resource.ancestors (Resource.withoutId folder.id w.groups) folder).getLastD folder] := by
    refine ⟨(w.climb folder).dropLast, (List.dropLast_append_getLast? _ ?_).symm⟩
    rw [climb, List.getLast?_cons, List.getLastD_eq_getLast?]
    rfl
  refine ⟨earlier.map Resource.id, _, ?_, folder?_id_of_mem_climb hfolder hlast, ?_⟩
  · rwa [hsplit, List.map_append, List.map_singleton] at hway
  · rw [namespaceOf]
    rw [folder?] at hfolder
    rw [hfolder]

/-! ## Topmost folders and circles

A way is a list of different ids, so it is finite.  Where it stops at an id of no folder, its last
folder is topmost, and no other folder on it is.  Where it stops because an id comes back,
everything behind that id is on a circle and everything before it is not: the way is a tail that
leads into a circle, and its last id is the one from which the circle closes. -/

section Way

variable {passed earlier : List String} {last : String}

/-- There are no more ids on the way than folders with different ids. -/
theorem IsWay.length_le (h : w.IsWay id passed) :
    passed.length ≤ (w.groups.map Resource.id).eraseDups.length := by
  refine (List.subperm_of_subset h.nodup fun x hx => ?_).length_le
  obtain ⟨group, hgroup, rfl⟩ := h.knows x hx
  exact List.mem_eraseDups.2 (List.mem_map_of_mem hgroup)

/-- What follows an id on the way. -/
theorem IsWay.parentOf?_getElem (h : w.IsWay id passed) {i : Nat} (hi : i < passed.length) :
    w.parentOf? passed[i] = w.above? (i + 1) id := (above?_succ (h.above?_eq i hi)).symm

/-- **A way that comes back to an id stays behind it.** -/
theorem IsWay.exists_getElem_eq (h : w.IsWay id passed) {i : Nat} (hi : i < passed.length)
    (hback : w.above? passed.length id = some passed[i]) {m n : Nat} (hm : m ≤ i) (hn : m ≤ n) :
    ∃ k, m ≤ k ∧ ∃ hk : k < passed.length, w.above? n id = some passed[k] := by
  induction hn with
  | refl => exact ⟨m, Nat.le_refl m, by omega, h.above?_eq m (by omega)⟩
  | step _ ih =>
    obtain ⟨k, hmk, hk, habove⟩ := ih
    rw [above?_succ habove, h.parentOf?_getElem hk]
    by_cases hlast : k + 1 < passed.length
    · exact ⟨k + 1, by omega, hlast, h.above?_eq (k + 1) hlast⟩
    · obtain heq : k + 1 = passed.length := by omega
      rw [heq, hback]
      exact ⟨i, hm, hi, rfl⟩

/-- **The only topmost folder that a way can lead to is its last.** -/
theorem IsWay.eq_last_of_isTopmost (h : w.IsWay id (earlier ++ [last])) {links : Nat} {top : String}
    (hlinks : w.above? links id = some top) (htop : w.IsTopmost top) : top = last := by
  have hlength : (earlier ++ [last]).length = earlier.length + 1 := by simp
  by_cases hlt : links < (earlier ++ [last]).length
  · obtain rfl : top = (earlier ++ [last])[links] :=
      Option.some.inj (hlinks.symm.trans (h.above?_eq links hlt))
    by_cases hnext : links + 1 < (earlier ++ [last]).length
    · -- another folder follows
      refine absurd (h.knows _ (List.getElem_mem hnext)) (htop.2 _ ?_)
      rw [h.parentOf?_getElem, h.above?_eq]
    · obtain rfl : links = earlier.length := by omega
      simp
  · obtain ⟨x, hx⟩ := exists_above?_of_le hlinks (Nat.le_of_not_lt hlt)
    rcases h.stops x hx with hunknown | hmem
    · -- the way ends at an id of no folder, and no links lead further
      rcases Nat.eq_or_lt_of_le (Nat.le_of_not_lt hlt) with heq | hlt
      · rw [← heq, hx] at hlinks
        exact absurd (Option.some.inj hlinks ▸ htop.1) hunknown
      · obtain ⟨y, hy⟩ := exists_above?_of_le hlinks (Nat.succ_le_of_lt hlt)
        rw [above?_succ hx] at hy
        exact absurd (knows_of_parentOf? hy) hunknown
    · -- the way comes back, so every id on it names a folder as its parent
      obtain ⟨i, hi, rfl⟩ := List.getElem_of_mem hmem
      obtain ⟨_, -, _, hnext⟩ :=
        h.exists_getElem_eq hi hx (Nat.zero_le i) (Nat.zero_le (links + 1))
      rw [above?_succ hlinks] at hnext
      exact absurd (h.knows _ (List.getElem_mem _)) (htop.2 _ hnext)

/-- What links lead to from an id on the way. -/
theorem IsWay.above?_getElem (h : w.IsWay id passed) {i : Nat} (hi : i < passed.length) (links : Nat) :
    w.above? links passed[i] = w.above? (i + links) id := by
  rw [above?_add, h.above?_eq i hi, Option.bind_some]

/-- **The id that a way comes back to is where it enters a circle.** -/
theorem IsWay.entersCycleAt (h : w.IsWay id passed) {i : Nat} (hi : i < passed.length)
    (hback : w.above? passed.length id = some passed[i]) : w.EntersCycleAt id passed[i] := by
  refine ⟨i, h.above?_eq i hi, ⟨passed.length - (i + 1), ?_⟩, fun fewer hfewer other hother => ?_⟩
  · rw [h.above?_getElem hi, ← hback]
    congr 1
    omega
  · -- behind an earlier id the way only leads to later ones
    rintro ⟨links, hcycle⟩
    obtain rfl : passed[fewer] = other :=
      Option.some.inj ((h.above?_eq fewer (by omega)).symm.trans hother)
    obtain ⟨k, hk, hklt, habove⟩ := h.exists_getElem_eq hi hback (Nat.succ_le_of_lt hfewer)
      (show fewer + 1 ≤ fewer + (links + 1) by omega)
    rw [above?_add, hother, Option.bind_some, hcycle] at habove
    have heq := (h.nodup.getElem_inj_iff).1 (Option.some.inj habove)
    omega

/-- **Of the ids on the circle only the last one of the way has the entry as its parent.** -/
theorem IsWay.eq_last_of_parentOf? (h : w.IsWay id (earlier ++ [last])) {i : Nat}
    (hi : i < (earlier ++ [last]).length)
    (hback : w.above? (earlier ++ [last]).length id = some (earlier ++ [last])[i]) {links : Nat}
    {other : String} (hother : w.above? links (earlier ++ [last])[i] = some other)
    (hparent : w.parentOf? other = some (earlier ++ [last])[i]) : other = last := by
  have hlength : (earlier ++ [last]).length = earlier.length + 1 := by simp
  rw [h.above?_getElem hi] at hother
  obtain ⟨k, hk, hklt, habove⟩ :=
    h.exists_getElem_eq hi hback (Nat.le_refl i) (Nat.le_add_right i links)
  obtain rfl : (earlier ++ [last])[k] = other := Option.some.inj (habove.symm.trans hother)
  by_cases hnext : k + 1 < (earlier ++ [last]).length
  · -- the next id on the way would be the entry once more
    rw [h.parentOf?_getElem, h.above?_eq _ hnext] at hparent
    have heq := (h.nodup.getElem_inj_iff).1 (Option.some.inj hparent)
    omega
  · obtain rfl : k = earlier.length := by omega
    exact List.getElem_concat_length rfl _

/-- **A way that does not end at a topmost folder enters a circle**, and it ends with the one id on
the circle whose parent is the entry. -/
theorem IsWay.exists_entry (h : w.IsWay id (earlier ++ [last])) (hlast : ¬ w.IsTopmost last) :
    ∃ entry, w.EntersCycleAt id entry ∧ w.parentOf? last = some entry ∧
      (∃ links, w.above? links entry = some last) ∧
      ∀ other, (∃ links, w.above? links entry = some other) → w.parentOf? other = some entry →
        other = last := by
  have hlength : (earlier ++ [last]).length = earlier.length + 1 := by simp
  have hbefore : w.above? earlier.length id = some last := by
    rw [h.above?_eq _ (by omega), List.getElem_concat_length rfl]
  obtain ⟨x, hx, hmem⟩ : ∃ x, w.parentOf? last = some x ∧ x ∈ earlier ++ [last] := by
    by_contra hnone
    refine hlast ⟨h.knows last (by simp), fun x hx hknows => hnone ⟨x, hx, ?_⟩⟩
    refine (h.stops x ?_).resolve_left fun hunknown => hunknown hknows
    rw [hlength, above?_succ hbefore, hx]
  obtain ⟨i, hi, rfl⟩ := List.getElem_of_mem hmem
  have hback : w.above? (earlier ++ [last]).length id = some (earlier ++ [last])[i] := by
    rw [hlength, above?_succ hbefore, hx]
  refine ⟨_, h.entersCycleAt hi hback, hx, ⟨earlier.length - i, ?_⟩, ?_⟩
  · rw [h.above?_getElem hi, Nat.add_sub_cancel' (by omega), hbefore]
  · rintro other ⟨links, hother⟩ hparent
    exact h.eq_last_of_parentOf? hi hback hother hparent

end Way

end Workspace

/-! ## Rounds

A program that climbs keeps the ids that it has passed and looks at every folder again in each
round, where the climb of this library takes folders out.  The two agree: what can still be reached
is what was not passed. -/

/-- A climb on its way: the ids that were passed, and the folder that was reached. -/
structure Climb where
  /-- The ids of the folders passed so far. -/
  passed : List String
  /-- The folder reached. -/
  folder : Resource

namespace Climb

/-- One round of a climb: to the folder above, **unless there is none or it was passed before**. -/
def next? (w : Workspace) (climb : Climb) : Option Climb :=
  climb.folder.parentId.bind fun id =>
    (w.folder? id).bind fun parent =>
      if id ∈ climb.passed then none else some ⟨id :: climb.passed, parent⟩

/-- A climb ends at a folder after a number of rounds, the one that finds nothing included. -/
inductive EndsAfter (w : Workspace) : Nat → Climb → Resource → Prop where
  /-- There is nowhere to go. -/
  | last {climb : Climb} (h : climb.next? w = none) : EndsAfter w 1 climb climb.folder
  /-- The climb goes on. -/
  | next {climb further : Climb} {rounds : Nat} {last : Resource}
      (h : climb.next? w = some further) (hrest : EndsAfter w rounds further last) :
      EndsAfter w (rounds + 1) climb last

open Resource (ancestors withId? withoutId)

/-- **Keeping the ids that were passed is taking folders out of those that are left.** -/
theorem endsAfter_ancestors {w : Workspace} {unvisited : List Resource} {r : Resource}
    {passed : List String}
    (h : ∀ id, withId? id unvisited = if id ∈ passed then none else w.folder? id) :
    EndsAfter w ((ancestors unvisited r).length + 1) ⟨passed, r⟩
      ((ancestors unvisited r).getLastD r) := by
  induction unvisited, r using Resource.ancestors.induct generalizing passed with
  | case1 unvisited r hparent =>
    rw [Resource.ancestors_of_parentId_eq_none _ hparent]
    exact .last (by rw [next?, hparent, Option.bind_none])
  | case2 unvisited r id hparent hfound =>
    rw [Resource.ancestors_of_parentId_eq_some _ hparent, hfound]
    refine .last ?_
    rw [h] at hfound
    rw [next?, hparent, Option.bind_some]
    cases hfolder : w.folder? id with
    | none => rfl
    | some parent => simpa [hfolder] using hfound
  | case3 unvisited r id hparent parent hfound ih =>
    rw [Resource.ancestors_of_parentId_eq_some _ hparent, hfound]
    have hnext : next? w ⟨passed, r⟩ = some ⟨id :: passed, parent⟩ := by
      rw [h] at hfound
      split at hfound
      · cases hfound
      · next hnew => rw [next?, hparent, Option.bind_some, hfound, Option.bind_some, if_neg hnew]
    refine .next hnext ?_
    rw [List.getLastD_cons]
    refine ih fun other => ?_
    rw [Resource.withId?_withoutId, h]
    by_cases heq : other = id <;> simp [heq]

/-- The climb from an id ends after at most as many rounds as there are folders with different
ids. -/
theorem exists_endsAfter {w : Workspace} {id : String} {folder : Resource}
    (hfolder : w.folder? id = some folder) :
    ∃ rounds last, rounds ≤ (w.groups.map Resource.id).eraseDups.length ∧
      EndsAfter w rounds ⟨[id], folder⟩ last ∧ w.namespaceOf (some id) = last.name := by
  obtain rfl : folder.id = id := Resource.id_eq_of_withId? hfolder
  have hle := (Workspace.isWay_climb hfolder).length_le
  rw [List.length_map, Workspace.climb, List.length_cons] at hle
  refine ⟨_, _, hle, endsAfter_ancestors fun other => ?_, ?_⟩
  · rw [Resource.withId?_withoutId]
    simp [Workspace.folder?]
  · rw [Workspace.folder?] at hfolder
    rw [Workspace.namespaceOf, hfolder]

end Climb

namespace Workspace

variable {w : Workspace}

/-! ## The namespace of every id

Two ids with the same folders above them have the same namespace.  For a folder and its parent this
is so unless the climb from the parent comes back to the folder, which the climb from the folder
would not visit again. -/

/-- **A folder that is on no circle has the namespace of the folder above it.** -/
theorem namespaceOf_parent {id parent : String} (hcycle : ¬ w.OnCycle id)
    (hparent : w.parentOf? id = some parent) (hknows : w.Knows parent) :
    w.namespaceOf (some id) = w.namespaceOf (some parent) := by
  obtain ⟨folder, hfolder⟩ := exists_folder?_of_knows (knows_of_parentOf? hparent)
  obtain ⟨above, habove⟩ := exists_folder?_of_knows hknows
  -- no link above the folder leads back to it, so the climb does not miss it
  have hne : ∀ links other, w.above? links parent = some other → other ≠ id := by
    rintro links _ hlinks rfl
    exact hcycle ⟨links, by rw [above?, hparent, Option.bind_some, hlinks]⟩
  have hagree : Resource.Agree (fun other => ∃ links, w.above? links parent = some other) w.groups
      (Resource.withoutId id w.groups) := by
    refine ⟨fun other hother => ?_, fun other found next hother hfound hnext => ?_⟩
    · obtain ⟨links, hlinks⟩ := hother
      rw [Resource.withId?_withoutId, if_neg (hne links other hlinks)]
    · obtain ⟨links, hlinks⟩ := hother
      exact ⟨links + 1, by rw [above?_succ hlinks, parentOf?_of_folder? hfound, hnext]⟩
  -- both climbs go on from the folder above, one of them without the first folder
  have hclimb := (hagree.withoutId parent).ancestors_eq (r := above) fun next hnext =>
    ⟨1, by rw [above?_one, parentOf?_of_folder? habove, hnext]⟩
  have hfound : Resource.withId? parent (Resource.withoutId id w.groups) = some above := by
    rw [hagree.withId?_eq parent ⟨0, rfl⟩]
    exact habove
  rw [parentOf?_of_folder? hfolder] at hparent
  rw [folder?] at hfolder habove
  rw [namespaceOf, namespaceOf, hfolder, habove]
  simp only [Resource.ancestors_of_parentId_eq_some _ hparent, hfound, hclimb, List.getLastD_cons]

/-- **The namespace for every id.**

* The climb from the id of a folder ends, after at most as many rounds as there are different ids.
* Without a folder with the id the namespace is `Other`.
* If links lead from the id to a topmost folder, the namespace is the name of that folder.
* If they lead to none, they enter a circle, and the namespace is the name of the one folder on the
  circle whose parent is the entry.
* A folder that is on no circle and has a folder above it has the namespace of that folder. -/
theorem namespaceOf_exact (w : Workspace) :
    (∀ id folder, w.folder? id = some folder →
      ∃ rounds last, rounds ≤ (w.groups.map Resource.id).eraseDups.length ∧
        Climb.EndsAfter w rounds ⟨[id], folder⟩ last ∧ w.namespaceOf (some id) = last.name) ∧
    w.namespaceOf none = fallbackNamespace ∧
    (∀ id, ¬ w.Knows id → w.namespaceOf (some id) = fallbackNamespace) ∧
    (∀ id links top folder, w.above? links id = some top → w.IsTopmost top →
      w.folder? top = some folder → w.namespaceOf (some id) = folder.name) ∧
    (∀ id, w.Knows id → (∀ links top, w.above? links id = some top → ¬ w.IsTopmost top) →
      ∃ entry last folder, w.EntersCycleAt id entry ∧
        (∃ links, w.above? links entry = some last) ∧ w.parentOf? last = some entry ∧
        (∀ other, (∃ links, w.above? links entry = some other) → w.parentOf? other = some entry →
          other = last) ∧
        w.folder? last = some folder ∧ w.namespaceOf (some id) = folder.name) ∧
    (∀ id parent, ¬ w.OnCycle id → w.parentOf? id = some parent → w.Knows parent →
      w.namespaceOf (some id) = w.namespaceOf (some parent)) := by
  refine ⟨fun id folder hfolder => Climb.exists_endsAfter hfolder, rfl, fun id hid => ?_,
    fun id links top folder hlinks htop hfolder => ?_, fun id hid hnone => ?_,
    fun id parent hcycle hparent hknows => namespaceOf_parent hcycle hparent hknows⟩
  · have hnone : Resource.withId? id w.groups = none := folder?_eq_none_iff.2 hid
    rw [namespaceOf, hnone]
  · have hid : w.Knows id := by
      cases links with
      | zero => exact Option.some.inj hlinks ▸ htop.1
      | succ links =>
        obtain ⟨parent, hparent, -⟩ := Option.bind_eq_some_iff.1 hlinks
        exact knows_of_parentOf? hparent
    obtain ⟨earlier, last, hway, hlast, hname⟩ := exists_isWay hid
    obtain rfl := hway.eq_last_of_isTopmost hlinks htop
    rw [hname, Option.some.inj (hlast.symm.trans hfolder)]
  · obtain ⟨earlier, last, hway, hlast, hname⟩ := exists_isWay hid
    have hreached : w.above? earlier.length id = some last.id := by
      rw [hway.above?_eq _ (by simp)]
      simp
    obtain ⟨entry, henters, hparent, hreaches, hunique⟩ :=
      hway.exists_entry (hnone _ _ hreached)
    exact ⟨entry, last.id, last, henters, hreaches, hparent, hunique, hlast, hname⟩

/-! ## A circle

Two folders suffice for a way without an end, and every number of links leads to one of them. -/

/-- Two folders, each inside the other. -/
def circle : Workspace :=
  ⟨[⟨"a", .group, some "b", "A", none, none⟩, ⟨"b", .group, some "a", "B", none, none⟩]⟩

/-- From either of the two folders the links lead to one of them. -/
theorem above?_circle {links : Nat} {id top : String} (hid : id = "a" ∨ id = "b")
    (h : circle.above? links id = some top) : top = "a" ∨ top = "b" := by
  induction links generalizing id with
  | zero => exact Option.some.inj h ▸ hid
  | succ links ih =>
    obtain rfl | rfl := hid
    · exact @ih "b" (.inr rfl) h
    · exact @ih "a" (.inl rfl) h

/-- The namespace of the one folder is the other, in which the circle is closed. -/
theorem namespaceOf_exact_circle :
    circle.Knows "a" ∧
    (∀ links top, circle.above? links "a" = some top → ¬ circle.IsTopmost top) ∧
    ∃ entry last folder, circle.EntersCycleAt "a" entry ∧ circle.parentOf? last = some entry ∧
      circle.folder? last = some folder ∧ circle.namespaceOf (some "a") = folder.name := by
  have hknows : circle.Knows "a" := isSome_folder?_iff.1 rfl
  have hcircle : ∀ links top, circle.above? links "a" = some top → ¬ circle.IsTopmost top := by
    intro links top hlinks htop
    obtain rfl | rfl := above?_circle (.inl rfl) hlinks
    · exact htop.2 "b" rfl (isSome_folder?_iff.1 rfl)
    · exact htop.2 "a" rfl hknows
  obtain ⟨-, -, -, -, hexact, -⟩ := namespaceOf_exact circle
  obtain ⟨entry, last, folder, henters, -, hparent, -, hfolder, hname⟩ := hexact "a" hknows hcircle
  exact ⟨hknows, hcircle, entry, last, folder, henters, hparent, hfolder, hname⟩

end Workspace
end RpcReference
