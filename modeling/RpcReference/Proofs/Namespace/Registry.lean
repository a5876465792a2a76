import RpcReference.Namespace
import RpcReference.Proofs.Table

/-!
# The tags of registered namespaces

What a registry holds depends on the namespaces that were registered, and on nothing else.  A
registry is a value, so looking at its tags and taking them out of it are the same.

* `Registry.Holds` — the tags of a registry are **the first occurrences of the registered
  namespaces**, in their order, each with its description.
* `Registry.Holds.register`, `Registry.Holds.registerAll` — one registration keeps this, and so does
  a run of them.
* `Registry.tags_registerAll` — the tags after a run that starts without tags.
* `Registry.tags_isPrefix_registerAll` — **a tag stays as it is and where it is**, whatever is
  registered after it.
* `Registry.registerAll_observed` — what a caller sees of a run: which of its calls are told that
  they are the first, and which tags there are during it and after it.
-/

set_option autoImplicit false

namespace RpcReference.Registry

/-! ## One registration, and a run of them

The tags are known from the names that were registered, with their repetitions.  A registration puts
one more name at the end of that list, and the tags follow: a first occurrence more, or none. -/

/-- The tag of a namespace. -/
def tagOf (descriptions : Table String String) (name : String) : Tag :=
  ⟨name, describe descriptions name⟩

@[simp] theorem name_tagOf (descriptions : Table String String) (name : String) :
    (tagOf descriptions name).name = name := rfl

/-- What a registry holds after the namespaces `names` were registered. -/
structure Holds (registry : Registry) (descriptions : Table String String)
    (names : List String) : Prop where
  /-- The table of descriptions stays the same. -/
  descriptions_eq : registry.descriptions = descriptions
  /-- There is a tag for each namespace, in the order of first registration. -/
  tags_eq : registry.tags = names.eraseDups.map (tagOf descriptions)

variable {registry : Registry} {descriptions : Table String String} {names : List String}

theorem holds_new (descriptions : Table String String) : (new descriptions).Holds descriptions [] :=
  ⟨rfl, rfl⟩

/-- A namespace has a tag exactly if it was registered. -/
theorem Holds.isRegistered_iff (h : registry.Holds descriptions names) {name : String} :
    registry.isRegistered name = true ↔ name ∈ names := by
  rw [isRegistered, h.tags_eq, List.any_map, List.any_eq_true]
  constructor
  · rintro ⟨other, hother, heq⟩
    rw [← of_decide_eq_true heq]
    exact List.mem_eraseDups.1 hother
  · intro hname
    exact ⟨name, List.mem_eraseDups.2 hname, by simp⟩

/-- **A namespace is told to be new exactly if it was not registered before.** -/
theorem Holds.register_fst_iff (h : registry.Holds descriptions names) {name : String} :
    (registry.register name).1 = true ↔ name ∉ names := by
  rw [← h.isRegistered_iff, Registry.register]
  split
  · next hreg => simp [hreg]
  · next hreg => simp [hreg]

/-- One more registration. -/
theorem Holds.register (h : registry.Holds descriptions names) (name : String) :
    (registry.register name).2.Holds descriptions (names ++ [name]) := by
  by_cases hname : name ∈ names
  · have hknown : registry.register name = (false, registry) := if_pos (h.isRegistered_iff.2 hname)
    rw [hknown]
    refine ⟨h.descriptions_eq, ?_⟩
    rw [Table.eraseDups_append_singleton, if_pos hname]
    exact h.tags_eq
  · have hnew : registry.isRegistered name ≠ true := fun hreg => hname (h.isRegistered_iff.1 hreg)
    rw [Registry.register, if_neg hnew]
    refine ⟨h.descriptions_eq, ?_⟩
    rw [Table.eraseDups_append_singleton, if_neg hname, List.map_append, List.map_singleton]
    show registry.tags ++ _ = _
    rw [h.tags_eq, h.descriptions_eq, tagOf]

/-- A run of registrations. -/
theorem Holds.registerAll (h : registry.Holds descriptions names) (more : List String) :
    (registry.registerAll more).Holds descriptions (names ++ more) := by
  induction more generalizing registry names with
  | nil => rwa [List.append_nil]
  | cons name more ih =>
    have hrest := ih (h.register name)
    rw [List.append_assoc, List.singleton_append] at hrest
    exact hrest

/-- **The tags after a run are the first occurrences of its namespaces.** -/
theorem tags_registerAll (descriptions : Table String String) (names : List String) :
    ((new descriptions).registerAll names).tags = names.eraseDups.map (tagOf descriptions) :=
  ((holds_new descriptions).registerAll names).tags_eq

/-! ## During a run

A caller sees more than the tags at the end: it is told of each name whether it was new, and it may
look at the tags at any time.  The run up to that time is a run itself, so what it sees is known,
and later registrations only put tags behind those that are there. -/

/-- A registration puts a tag behind the others, or does nothing. -/
theorem tags_isPrefix_register (registry : Registry) (name : String) :
    registry.tags <+: (registry.register name).2.tags := by
  rw [Registry.register]
  split
  · exact List.prefix_refl _
  · exact List.prefix_append _ _

/-- **Later registrations leave the tags that are there as they are.** -/
theorem tags_isPrefix_registerAll (registry : Registry) (more : List String) :
    registry.tags <+: (registry.registerAll more).tags := by
  induction more generalizing registry with
  | nil => exact List.prefix_refl _
  | cons name more ih =>
    exact (registry.tags_isPrefix_register name).trans (ih (registry.register name).2)

theorem registerAll_append (registry : Registry) (names more : List String) :
    registry.registerAll (names ++ more) = (registry.registerAll names).registerAll more :=
  List.foldl_append

/-- A name that was registered before changes no first occurrence. -/
theorem eraseDups_append_cons_of_mem {before after : List String} {name : String}
    (h : name ∈ before) : (before ++ name :: after).eraseDups = (before ++ after).eraseDups := by
  have hsame : (before ++ [name]).eraseDups = before.eraseDups := by
    rw [Table.eraseDups_append_singleton, if_pos h]
  rw [← Table.eraseDups_append_congr hsame after, List.append_assoc, List.singleton_append]

/-- **A run of registrations as its caller sees it.**  A call is told that its namespace is new
exactly if no earlier call named it; the tags that are there at any time stay at the start of the
list.  In the end there is one tag for each namespace, in the order of the first calls, with the
description that the table has for it or the generated one; and a call that repeats an earlier one
could be left out. -/
theorem registerAll_observed (descriptions : Table String String) (names : List String) :
    let registry := (new descriptions).registerAll names
    (∀ before name after, names = before ++ name :: after →
      ((((new descriptions).registerAll before).register name).1 = true ↔
        ∀ earlier ∈ before, name ≠ earlier)) ∧
    (∀ before after, names = before ++ after →
      ((new descriptions).registerAll before).tags <+: registry.tags) ∧
    registry.tags.map Tag.name = names.eraseDups ∧
    (registry.tags.map Tag.name).Pairwise (fun a b => names.idxOf a < names.idxOf b) ∧
    (∀ name, name ∈ registry.tags.map Tag.name ↔ name ∈ names) ∧
    (∀ tag ∈ registry.tags, tag.description =
      (Table.get? tag.name descriptions).getD (tag.name ++ " namespace methods")) ∧
    (∀ before name after, names = before ++ name :: after → name ∈ before →
      ((new descriptions).registerAll (before ++ after)).tags = registry.tags) := by
  intro registry
  have htags : registry.tags = names.eraseDups.map (tagOf descriptions) :=
    tags_registerAll descriptions names
  have hnames : registry.tags.map Tag.name = names.eraseDups := by
    rw [htags, List.map_map]
    exact List.map_id _
  refine ⟨?_, ?_, hnames, ?_, ?_, ?_, ?_⟩
  · rintro before name after -
    rw [((holds_new descriptions).registerAll before).register_fst_iff, List.nil_append]
    exact ⟨fun h earlier hearlier heq => h (heq ▸ hearlier), fun h hmem => h name hmem rfl⟩
  · rintro before after rfl
    rw [show registry = _ from registerAll_append _ before after]
    exact tags_isPrefix_registerAll _ after
  · rw [hnames]
    exact Table.pairwise_eraseDups names
  · intro name
    rw [hnames, List.mem_eraseDups]
  · intro tag htag
    rw [htags] at htag
    obtain ⟨name, -, rfl⟩ := List.mem_map.1 htag
    rfl
  · rintro before name after rfl hmem
    rw [htags, tags_registerAll, eraseDups_append_cons_of_mem hmem]

/-- A known namespace, an unknown one, and the known one again. -/
theorem registerAll_observed_repeated :
    let descriptions := [("NET", "Peers")]
    (((new descriptions).registerAll ["NET", "Other"]).register "NET").1 = false ∧
    ((new descriptions).registerAll ["NET", "Other", "NET"]).tags =
      [⟨"NET", "Peers"⟩, ⟨"Other", "Other namespace methods"⟩] ∧
    ((new descriptions).registerAll ["NET", "Other"]).tags =
      ((new descriptions).registerAll ["NET", "Other", "NET"]).tags := by
  intro descriptions
  obtain ⟨hnew, -, -, -, -, -, hleft⟩ := registerAll_observed descriptions ["NET", "Other", "NET"]
  refine ⟨?_, by decide, hleft ["NET", "Other"] "NET" [] rfl (by decide)⟩
  rw [← Bool.not_eq_true, hnew ["NET", "Other"] "NET" [] rfl]
  exact fun h => h "NET" (by decide) rfl

end RpcReference.Registry
