import Mathlib.Data.List.Forall2
import RpcReference.Proofs.Conversion.Tags

/-!
# The ids of operations

An operation is named by its path and by its id.  The paths of a reference are different, as they
are the keys of a table; the id is the name of the method with **underscores for hyphens**, and
nothing looks at the ids of other operations when it is made.

* `Operation.idOf_eq_idOf_iff` — two names have one id exactly if they differ at most by hyphens in
  the place of underscores (`Operation.AlikeInId`).
* `Workspace.operationIds_convert` — so the ids of a reference are different exactly if **no two
  names of requests differ in that way only**.
* `Workspace.not_hasDistinctIds_convert` — two requests whose operations have one id.
-/

set_option autoImplicit false

namespace RpcReference

/-! ## Names with one id

The id is made character by character and keeps their number, so two ids are compared character by
character, too.  What is lost is the difference between a hyphen and an underscore.  It is lost only
where both occur: without hyphens, or without underscores, names can still be told apart. -/

namespace Operation

/-- Two characters of which an id shows the same. -/
def SameInId (c d : Char) : Prop := c = d ∨ (c = '-' ∧ d = '_') ∨ (c = '_' ∧ d = '-')

instance (c d : Char) : Decidable (SameInId c d) :=
  inferInstanceAs (Decidable (c = d ∨ (c = '-' ∧ d = '_') ∨ (c = '_' ∧ d = '-')))

/-- **Texts that differ at most by hyphens in the place of underscores.** -/
def AlikeInId (a b : String) : Prop := List.Forall₂ SameInId a.toList b.toList

instance (a b : String) : Decidable (AlikeInId a b) :=
  inferInstanceAs (Decidable (List.Forall₂ SameInId a.toList b.toList))

/-- A character of an id. -/
def idCharacter (c : Char) : Char := if c = '-' then '_' else c

theorem idCharacter_eq_iff {c d : Char} : idCharacter c = idCharacter d ↔ SameInId c d := by
  rw [idCharacter, idCharacter, SameInId]
  by_cases hc : c = '-' <;> by_cases hd : d = '-'
  · simp [hc, hd]
  · simp [hc, hd, eq_comm]
  · simp [hc, hd]
  · simp [hc, hd]

/-- **Names have one id exactly if they are alike.** -/
theorem idOf_eq_idOf_iff {a b : String} : idOf a = idOf b ↔ AlikeInId a b := by
  have hchars : idOf a = idOf b ↔ a.toList.map idCharacter = b.toList.map idCharacter :=
    String.ofList_inj
  rw [hchars, ← List.forall₂_eq_eq_eq, List.forall₂_map_left_iff, List.forall₂_map_right_iff,
    AlikeInId]
  simp only [idCharacter_eq_iff]

/-- The slash before a name makes no difference. -/
@[simp] theorem alikeInId_pathOf_iff {a b : String} :
    AlikeInId (pathOf a) (pathOf b) ↔ AlikeInId a b := by
  rw [AlikeInId, toList_pathOf, toList_pathOf, List.forall₂_cons]
  exact and_iff_right (.inl rfl)

/-- Alike texts without hyphens are equal, and so are those without underscores. -/
theorem AlikeInId.eq_of_not_mem {a b : String} {c : Char} (h : AlikeInId a b)
    (hc : c = '-' ∨ c = '_') (ha : c ∉ a.toList) (hb : c ∉ b.toList) : a = b := by
  have hsame : List.Forall₂ (· = ·) a.toList b.toList := by
    refine List.forall₂_iff_get.2 ⟨h.length_eq, fun i hi hi' => ?_⟩
    have hne : a.toList.get ⟨i, hi⟩ ≠ c := fun heq => ha (heq ▸ List.get_mem _ _)
    have hne' : b.toList.get ⟨i, hi'⟩ ≠ c := fun heq => hb (heq ▸ List.get_mem _ _)
    rcases h.get hi hi' with heq | ⟨hleft, hright⟩ | ⟨hleft, hright⟩
    · exact heq
    · rcases hc with rfl | rfl
      · exact absurd hleft hne
      · exact absurd hright hne'
    · rcases hc with rfl | rfl
      · exact absurd hright hne'
      · exact absurd hleft hne
  rw [List.forall₂_eq_eq_eq] at hsame
  exact String.toList_injective hsame

end Operation

/-! ## The ids of a reference

Paths and ids are made of the same names.  The path of a name tells all names apart and its id does
not, so whether the ids of a reference are different is a question about the names of its
requests. -/

/-- **Operations at different paths have different ids.** -/
def Reference.HasDistinctIds (reference : Reference) : Prop :=
  ∀ path path' op op', reference.paths.get? path = some op → reference.paths.get? path' = some op' →
    path ≠ path' → op.operationId ≠ op'.operationId

namespace Workspace

variable {w : Workspace} {config : Config}

/-- The operation at a path is that of a name, and its id is made of that name. -/
theorem exists_name_of_get?_paths_convert {path : String} {op : Operation}
    (h : (w.convert config).paths.get? path = some op) :
    ∃ name ∈ w.requestNames, path = Operation.pathOf name ∧ op.operationId = Operation.idOf name := by
  have hmem : op ∈ (w.convert config).paths.operations := PathMap.mem_operations_iff.2 ⟨path, h⟩
  obtain ⟨r, hr, rfl⟩ := exists_operationOf_eq hmem
  have hentry : (path, w.operationOf r) ∈ (PathMap.ofList w.operations).entries := Table.mem_of_get? h
  have hpath : (w.operationOf r).path = path := PathMap.path_of_mem_entries_ofList hentry
  exact ⟨r.name, mem_requestNames.2 ⟨r, hr, rfl⟩, hpath.symm, rfl⟩

/-- At the path of every name there is an operation. -/
theorem exists_get?_paths_convert {name : String} (h : name ∈ w.requestNames) (config : Config) :
    ∃ op, (w.convert config).paths.get? (Operation.pathOf name) = some op :=
  Option.isSome_iff_exists.1
    ((Table.get?_isSome_iff _ _).2 ((w.mem_keys_paths_convert config _).2 ⟨name, h, rfl⟩))

/-- The paths tell whether the ids are equal. -/
theorem operationId_eq_iff {path path' : String} {op op' : Operation}
    (h : (w.convert config).paths.get? path = some op)
    (h' : (w.convert config).paths.get? path' = some op') :
    op.operationId = op'.operationId ↔ Operation.AlikeInId path path' := by
  obtain ⟨name, -, rfl, hid⟩ := exists_name_of_get?_paths_convert h
  obtain ⟨name', -, rfl, hid'⟩ := exists_name_of_get?_paths_convert h'
  rw [hid, hid', Operation.idOf_eq_idOf_iff, Operation.alikeInId_pathOf_iff]

/-- So do the names, one path for each of them. -/
theorem hasDistinctIds_convert_iff :
    (w.convert config).HasDistinctIds ↔
      ∀ a ∈ w.requestNames, ∀ b ∈ w.requestNames, Operation.AlikeInId a b → a = b := by
  constructor
  · intro h a ha b hb halike
    obtain ⟨op, hop⟩ := exists_get?_paths_convert ha config
    obtain ⟨op', hop'⟩ := exists_get?_paths_convert hb config
    by_contra hne
    refine h _ _ op op' hop hop' (Operation.pathOf_injective.ne hne) ?_
    exact (operationId_eq_iff hop hop').2 (Operation.alikeInId_pathOf_iff.2 halike)
  · intro h path path' op op' hop hop' hne hid
    have halike := (operationId_eq_iff hop hop').1 hid
    obtain ⟨name, hname, rfl, -⟩ := exists_name_of_get?_paths_convert hop
    obtain ⟨name', hname', rfl, -⟩ := exists_name_of_get?_paths_convert hop'
    exact hne (congrArg _ (h name hname name' hname' (Operation.alikeInId_pathOf_iff.1 halike)))

/-- **The ids of a converted workspace.**  Two operations have one id exactly if their paths are
alike, so the ids are different exactly if no two different names of requests are alike.  This is so
where no name has a hyphen, and where none has an underscore. -/
theorem operationIds_convert (w : Workspace) (config : Config) :
    (∀ path path' op op', (w.convert config).paths.get? path = some op →
      (w.convert config).paths.get? path' = some op' →
        (op.operationId = op'.operationId ↔ Operation.AlikeInId path path')) ∧
    ((w.convert config).HasDistinctIds ↔
      ∀ a ∈ w.requestNames, ∀ b ∈ w.requestNames, Operation.AlikeInId a b → a = b) ∧
    (∀ c, c = '-' ∨ c = '_' → (∀ name ∈ w.requestNames, c ∉ name.toList) →
      (w.convert config).HasDistinctIds) := by
  refine ⟨fun path path' op op' hop hop' => operationId_eq_iff hop hop',
    hasDistinctIds_convert_iff, fun c hc hnames => ?_⟩
  exact hasDistinctIds_convert_iff.2 fun a ha b hb halike =>
    halike.eq_of_not_mem hc (hnames a ha) (hnames b hb)

/-! ## Two pairs of names

The names of the first pair differ in a hyphen against an underscore.  In those of the second a
hyphen stands at the same place, and other characters differ. -/

/-- Two requests of which an id shows the same. -/
def alikeNames : Workspace := ⟨[.call "a-b" none, .call "a_b" none]⟩

/-- Two requests whose names differ in more than hyphens. -/
def differentNames : Workspace := ⟨[.call "qa-mine" none, .call "qa-mime" none]⟩

/-- Without an underscore the ids are different, and with one they may be the same. -/
theorem operationIds_convert_differentNames :
    (∀ name ∈ differentNames.requestNames, '_' ∉ name.toList) ∧
    (differentNames.convert .default).HasDistinctIds ∧
    (alikeNames.operationOf (.call "a-b" none)).operationId =
      (alikeNames.operationOf (.call "a_b" none)).operationId := by
  have hnames : ∀ name ∈ differentNames.requestNames, '_' ∉ name.toList := by decide
  refine ⟨hnames, (operationIds_convert differentNames .default).2.2 '_' (.inr rfl) hnames, ?_⟩
  refine ((operationIds_convert alikeNames .default).1 "/a-b" "/a_b" _ _ ?_ ?_).2 (by decide)
  · exact get?_paths_convert_of_nodup (r := .call "a-b" none) (by decide) (by decide) _
  · exact get?_paths_convert_of_nodup (r := .call "a_b" none) (by decide) (by decide) _

/-- **Two different names, and one id for both.** -/
theorem not_hasDistinctIds_convert :
    alikeNames.requestNames = ["a-b", "a_b"] ∧ ¬ (alikeNames.convert .default).HasDistinctIds := by
  refine ⟨by decide, fun h => ?_⟩
  have hsame := hasDistinctIds_convert_iff.1 h "a-b" (by decide) "a_b" (by decide)
  exact absurd (hsame (by decide)) (by decide)

end Workspace
end RpcReference
