import Mathlib.Data.String.Lemmas
import RpcReference.Files.Path
import RpcReference.Proofs.Text.Joined

/-!
# The steps of a path

A path is cut at its slashes, and joining the parts again gives the path back.  So a path that is
written from the first steps of another one has just these steps, and it is no longer than the
other.

* `Path.IsRoute` — the steps that a path can have.
* `Path.components_ofComponents` — **a path written from such steps has these steps**.
* `Path.IsAncestor` — a path that leads a part of the way.
* `Path.IsAncestor.toList_sublist` — **it has no characters but those of the whole way**.
-/

set_option autoImplicit false

namespace RpcReference.Path

/-! ## Cutting and joining

`Path.cut` is written without accumulators and goes from character to character, as the library's
`splitOn` does.  With that one equation, what the library knows of splitting and joining is at
hand. -/

/-- Cutting is the splitting of the library. -/
theorem cut_eq_splitOn (text : List Char) : cut text = text.splitOn '/' := by
  induction text with
  | nil => rfl
  | cons c rest ih =>
    rw [cut, List.splitOn_cons_eq_if_modifyHead, ih]
    by_cases hslash : c = '/'
    · rw [if_pos hslash, if_pos (beq_iff_eq.2 hslash)]
    · rw [if_neg hslash, if_neg (mt beq_iff_eq.1 hslash)]
      cases hsplit : rest.splitOn '/' with
      | nil => exact absurd hsplit (List.splitOn_ne_nil _ _)
      | cons part parts => rfl

/-- Even the empty path has a part, which is empty. -/
theorem segments_ne_nil (path : Path) : path.segments ≠ [] := by
  rw [segments, Ne, List.map_eq_nil_iff, cut_eq_splitOn]
  exact List.splitOn_ne_nil _ _

/-- A part has no slash in it. -/
theorem not_mem_of_mem_cut {text part : List Char} (h : part ∈ cut text) : '/' ∉ part := by
  induction text generalizing part with
  | nil =>
    obtain rfl := List.mem_singleton.1 h
    exact List.not_mem_nil
  | cons c rest ih =>
    rw [cut] at h
    split at h
    · obtain rfl | hrest := List.mem_cons.1 h
      · exact List.not_mem_nil
      · exact ih hrest
    next hslash =>
    split at h
    · obtain rfl := List.mem_singleton.1 h
      exact fun hmem => hslash (List.mem_singleton.1 hmem).symm
    next first others hcut =>
    obtain rfl | hothers := List.mem_cons.1 h
    · have hfirst := ih (hcut ▸ List.mem_cons_self)
      exact fun hmem => (List.mem_cons.1 hmem).elim (Ne.symm hslash) hfirst
    · exact ih (hcut ▸ List.mem_cons_of_mem _ hothers)

theorem map_toList_segments (path : Path) : path.segments.map String.toList = cut path.toList := by
  have hid : String.toList ∘ String.ofList = id := funext fun _ => String.toList_ofList
  rw [segments, List.map_map, hid, List.map_id]

/-- **Joining the parts of a path gives the path back.** -/
theorem intercalate_segments (path : Path) : String.intercalate "/" path.segments = path := by
  refine String.toList_injective ?_
  rw [String.toList_intercalate, map_toList_segments, cut_eq_splitOn]
  exact List.intercalate_splitOn '/'

theorem not_mem_of_mem_segments {path : Path} {part : String} (h : part ∈ path.segments) :
    '/' ∉ part.toList := by
  obtain ⟨text, htext, rfl⟩ := List.mem_map.1 h
  rw [String.toList_ofList]
  exact not_mem_of_mem_cut htext

/-- **Parts without slashes are the parts of what they are joined to.** -/
theorem segments_intercalate {parts : List String} (hparts : parts ≠ [])
    (h : ∀ part ∈ parts, '/' ∉ part.toList) : segments (String.intercalate "/" parts) = parts := by
  have hcut : cut (String.intercalate "/" parts).toList = parts.map String.toList := by
    rw [cut_eq_splitOn]
    exact Text.splitOn_intercalate rfl hparts h
  have hid : String.ofList ∘ String.toList = id := funext fun _ => String.ofList_toList
  rw [segments, hcut, List.map_map, hid, List.map_id]

/-- Fewer parts are joined to fewer characters. -/
theorem intercalate_sublist {parts parts' : List String} (h : parts.Sublist parts') :
    (String.intercalate "/" parts).toList.Sublist (String.intercalate "/" parts').toList := by
  simp only [String.toList_intercalate]
  induction h with
  | slnil => exact List.Sublist.refl _
  | @cons parts parts' part h ih =>
    by_cases hrest : parts' = []
    · subst hrest
      obtain rfl := List.sublist_nil.1 h
      exact List.nil_sublist _
    · rw [List.map_cons, List.intercalate_cons_of_ne_nil (mt List.map_eq_nil_iff.1 hrest)]
      exact ih.trans (List.sublist_append_right _ _)
  | @cons_cons parts parts' part h ih =>
    by_cases hrest : parts' = []
    · subst hrest
      obtain rfl := List.sublist_nil.1 h
      exact List.Sublist.refl _
    rw [List.map_cons, List.map_cons, List.intercalate_cons_of_ne_nil (mt List.map_eq_nil_iff.1 hrest)]
    by_cases hparts : parts = []
    · rw [hparts, List.map_nil, List.intercalate_singleton, List.append_assoc]
      exact List.sublist_append_left _ _
    · rw [List.intercalate_cons_of_ne_nil (mt List.map_eq_nil_iff.1 hparts)]
      exact ih.append_left _

/-! ## Steps

Not every part of a path is a step: an empty part and a dot are none, except at the front, where
they stand for the root and for the place where one is.  So a list of steps comes from a path only
if these two stand at the front of it and nowhere else.  This is what `IsRoute` says, and the first
steps of a route are a route. -/

/-- A step that means the same wherever it stands: a name, or the step up. -/
def Component.IsPlain (c : Component) : Prop :=
  componentOf? (componentText c) = some c ∧ '/' ∉ (componentText c).toList

/-- The steps that a path can have: **only the first one can be the root or the place where one
is**. -/
structure IsRoute (steps : List Component) : Prop where
  /-- The first step. -/
  first : ∀ c ∈ steps.head?, c = .root ∨ c = .here ∨ c.IsPlain
  /-- All others. -/
  others : ∀ c ∈ steps.tail, c.IsPlain

/-- A part that stands for a step is how the step is written. -/
theorem isPlain_of_componentOf? {part : String} {c : Component} (h : componentOf? part = some c)
    (hpart : '/' ∉ part.toList) : componentText c = part ∧ c.IsPlain := by
  have htext : componentText c = part := by
    rw [componentOf?] at h
    split at h
    · cases h
    split at h
    · next hup => cases h; exact hup.symm
    · cases h; rfl
  exact ⟨htext, by rwa [htext], by rwa [htext]⟩

/-- An empty part is no plain step. -/
theorem Component.IsPlain.text_ne {c : Component} (h : c.IsPlain) : componentText c ≠ "" := by
  intro hempty
  have hnone := h.1
  rw [hempty] at hnone
  cases hnone

/-- The parts of a path that stand for plain steps. -/
theorem filterMap_componentOf? {steps : List Component} (h : ∀ c ∈ steps, c.IsPlain) :
    (steps.map componentText).filterMap componentOf? = steps := by
  induction steps with
  | nil => rfl
  | cons c rest ih =>
    obtain ⟨hc, hrest⟩ := List.forall_mem_cons.1 h
    rw [List.map_cons, List.filterMap_cons_some hc.1, ih hrest]

/-- A part that is a step without its place is a plain one. -/
theorem isPlain_of_mem_segments (path : Path) :
    ∀ c ∈ path.segments.filterMap componentOf?, c.IsPlain := by
  intro c hc
  obtain ⟨part, hpart, hcomponent⟩ := List.mem_filterMap.1 hc
  exact (isPlain_of_componentOf? hcomponent (not_mem_of_mem_segments hpart)).2

/-- **The steps of a path are a route.** -/
theorem isRoute_components (path : Path) : IsRoute path.components := by
  have hplain := isPlain_of_mem_segments path
  rw [components]
  split
  · exact ⟨by simp, hplain⟩
  split
  · exact ⟨by simp, hplain⟩
  · exact ⟨fun c hc => .inr (.inr (hplain c (List.mem_of_mem_head? hc))),
      fun c hc => hplain c (List.mem_of_mem_tail hc)⟩

namespace IsRoute

variable {steps more : List Component}

/-- The first steps of a path can be those of a path. -/
theorem of_append (h : IsRoute (steps ++ more)) : IsRoute steps := by
  cases steps with
  | nil => exact ⟨by simp, by simp⟩
  | cons c rest => exact ⟨h.first, fun d hd => h.others d (List.mem_append_left _ hd)⟩

/-- No step is written with a slash in it. -/
theorem not_mem_text (h : IsRoute steps) : ∀ part ∈ steps.map componentText, '/' ∉ part.toList := by
  rw [List.forall_mem_map]
  cases steps with
  | nil => simp
  | cons c rest =>
    refine List.forall_mem_cons.2 ⟨?_, fun d hd => (h.others d hd).2⟩
    obtain rfl | rfl | hplain := h.first c rfl
    · decide
    · decide
    · exact hplain.2

end IsRoute

/-! ## Paths from steps

Steps are written as their parts with slashes between them.  The root alone is the exception, since
an empty part without a slash would be no path.  Everything else is read back part by part; the
three cases of the first step are told apart as they are when a path is read. -/

/-- Only the root is not written as its parts. -/
theorem ofComponents_eq {steps : List Component} (h : steps ≠ [.root]) :
    ofComponents steps = String.intercalate "/" (steps.map componentText) := by
  rw [ofComponents.eq_2]
  exact h

/-- A path is absolute exactly if its first part is empty and there is another one. -/
theorem isAbsolute_iff (path : Path) :
    path.isAbsolute = true ↔ ∃ part parts, path.segments = "" :: part :: parts := by
  rw [isAbsolute, segments, decide_eq_true_iff]
  cases path.toList with
  | nil => simp [cut]
  | cons c rest =>
    rw [List.head?_cons, Option.some_inj, cut]
    by_cases hslash : c = '/'
    · cases hcut : cut rest with
      | nil => simp [cut_eq_splitOn] at hcut
      | cons part parts => simp [hslash]
    · cases hcut : cut rest with
      | nil => simp [hslash]
      | cons part parts => simp [hslash]

/-- There are no last slashes where the last part has characters. -/
theorem withoutLastSlashes_of_ne {path : Path} {start last : List Char}
    (h : path.toList = start ++ last) (hlast : last ≠ []) (hslash : '/' ∉ last) :
    withoutLastSlashes path = path := by
  obtain ⟨front, c, rfl⟩ := List.eq_nil_or_concat last |>.resolve_left hlast
  have hc : c ≠ '/' := by
    rintro rfl
    exact hslash (by simp)
  have hreverse : path.toList.reverse.dropWhile (· = '/') = path.toList.reverse := by
    rw [h]
    simp [hc]
  rw [withoutLastSlashes, hreverse]
  split
  · rfl
  next hne =>
    rw [List.reverse_reverse, String.ofList_toList]

/-- **The steps of an absolute path start at the root**, and those of no other path do. -/
theorem head?_components (path : Path) :
    path.components.head? = some .root ↔ path.isAbsolute = true := by
  refine ⟨fun h => ?_, fun h => by rw [components, if_pos h]; rfl⟩
  rw [components] at h
  split at h
  · assumption
  split at h
  · cases h
  · have hplain := isPlain_of_mem_segments path .root (List.mem_of_mem_head? h)
    cases hplain.1

section Route

variable {steps : List Component} (h : IsRoute steps)

include h

/-- **The parts of a path that was written from steps are what the steps were written as.** -/
theorem segments_ofComponents (hsteps : steps ≠ []) (hroot : steps ≠ [.root]) :
    segments (ofComponents steps) = steps.map componentText := by
  rw [ofComponents_eq hroot]
  exact segments_intercalate (mt List.map_eq_nil_iff.1 hsteps) h.not_mem_text

/-- **A path written from steps has these steps.** -/
theorem components_ofComponents : components (ofComponents steps) = steps := by
  by_cases hroot : steps = [.root]
  · rw [hroot]
    decide
  cases steps with
  | nil => decide
  | cons c rest =>
    have hsegments := segments_ofComponents h (List.cons_ne_nil _ _) hroot
    rw [List.map_cons] at hsegments
    have hrest := filterMap_componentOf? h.others
    rw [List.tail_cons] at hrest
    obtain rfl | rfl | hplain := h.first c rfl
    · -- the empty part before the first slash makes the path absolute
      have habsolute : isAbsolute (ofComponents (.root :: rest)) = true := by
        rw [isAbsolute_iff, hsegments]
        cases rest with
        | nil => exact absurd rfl hroot
        | cons second others => exact ⟨_, _, rfl⟩
      rw [components, if_pos habsolute, hsegments]
      exact congrArg _ hrest
    -- a dot in front makes it relative, and is kept
    · have hrelative : ¬ isAbsolute (ofComponents (.here :: rest)) = true := by
        rw [isAbsolute_iff, hsegments]
        rintro ⟨part, parts, heq⟩
        exact absurd (List.cons.inj heq).1 (by decide)
      have hhere : (componentText .here :: rest.map componentText).head? = some "." := rfl
      rw [components, if_neg hrelative, hsegments, if_pos hhere]
      exact congrArg _ hrest
    -- a plain step is neither empty nor a dot
    · have hrelative : ¬ isAbsolute (ofComponents (c :: rest)) = true := by
        rw [isAbsolute_iff, hsegments]
        rintro ⟨part, parts, heq⟩
        exact hplain.text_ne (List.cons.inj heq).1
      have hnot : ¬ (componentText c :: rest.map componentText).head? = some "." := by
        intro hhere
        have hnone := hplain.1
        rw [Option.some_inj.1 hhere] at hnone
        cases hnone
      rw [components, if_neg hrelative, hsegments, if_neg hnot, List.filterMap_cons_some hplain.1]
      exact congrArg _ hrest

/-- A path written from steps has no slash at its end, unless it is the root. -/
theorem withoutLastSlashes_ofComponents :
    withoutLastSlashes (ofComponents steps) = ofComponents steps := by
  by_cases hroot : steps = [.root]
  · rw [hroot]
    decide
  obtain rfl | ⟨around, last, rfl⟩ := steps.eq_nil_or_concat
  · decide
  rw [List.concat_eq_append] at h hroot ⊢
  -- the last step is written with a character that is no slash
  have hlast : componentText last ≠ "" := by
    cases around with
    | nil =>
      obtain rfl | rfl | hplain := h.first last rfl
      · exact absurd rfl hroot
      · decide
      · exact hplain.text_ne
    | cons c rest => exact (h.others last (by simp)).text_ne
  have hslash : '/' ∉ (componentText last).toList :=
    h.not_mem_text _ (List.mem_map_of_mem List.mem_concat_self)
  obtain ⟨start, hstart⟩ : ∃ start, (ofComponents (around ++ [last])).toList =
      start ++ (componentText last).toList := by
    rw [ofComponents_eq hroot, List.map_append, List.map_singleton]
    exact Text.exists_intercalate_concat _ _ _
  exact withoutLastSlashes_of_ne hstart (mt String.toList_eq_nil_iff.1 hlast) hslash

end Route

/-! ## Ancestors

The paths that are tried when directories are made are written from the first steps of another path.
They are no longer than that path and have no characters that it does not have, so where that path
is possible, so are they. -/

/-- Whether a path leads a part of the way of another: it has its first steps, but not all. -/
def IsAncestor (path around : Path) : Prop :=
  ∃ steps more, path.components = steps ++ more ∧ steps ≠ [] ∧ more ≠ [] ∧
    around = ofComponents steps

/-- The directory that a path lies in has all its steps but the last one. -/
theorem exists_of_parent? {path around : Path} (h : path.parent? = some around) (hne : around ≠ "") :
    ∃ steps last, path.components = steps ++ [last] ∧ steps ≠ [] ∧ around = ofComponents steps := by
  rw [parent?, parentOf?.eq_def] at h
  split at h
  · cases h
  next hsteps =>
  split at h
  · cases h
  rw [Option.map_some, Option.some_inj] at h
  refine ⟨path.components.dropLast, path.components.getLast hsteps,
    (List.dropLast_concat_getLast hsteps).symm, ?_, h.symm⟩
  intro hnil
  rw [hnil] at h
  exact hne h.symm

/-- The steps of a path stand for some of its parts. -/
theorem map_componentText_sublist (path : Path) :
    (path.components.map componentText).Sublist path.segments := by
  -- leaving parts out gives a part of the list, and so does each of the three cases
  have hkeeps : ∀ parts : List String, (∀ part ∈ parts, '/' ∉ part.toList) →
      ((parts.filterMap componentOf?).map componentText).Sublist parts := by
    intro parts hparts
    induction parts with
    | nil => exact List.Sublist.refl _
    | cons part parts ih =>
      obtain ⟨hpart, hrest⟩ := List.forall_mem_cons.1 hparts
      cases hcomponent : componentOf? part with
      | none =>
        rw [List.filterMap_cons_none hcomponent]
        exact (ih hrest).cons _
      | some c =>
        rw [List.filterMap_cons_some hcomponent, List.map_cons,
          (isPlain_of_componentOf? hcomponent hpart).1]
        exact (ih hrest).cons_cons _
  have hparts : ∀ part ∈ path.segments, '/' ∉ part.toList := fun _ => not_mem_of_mem_segments
  rw [components]
  split
  · next habsolute =>
    obtain ⟨part, parts, hsegments⟩ := (isAbsolute_iff path).1 habsolute
    rw [hsegments] at hparts ⊢
    exact (hkeeps (part :: parts) (List.forall_mem_cons.1 hparts).2).cons_cons _
  split
  · next hhere =>
    obtain ⟨parts, hsegments⟩ := List.head?_eq_some_iff.1 hhere
    rw [hsegments] at hparts ⊢
    exact (hkeeps parts (List.forall_mem_cons.1 hparts).2).cons_cons _
  · exact hkeeps _ hparts

namespace IsAncestor

variable {path around : Path} (h : IsAncestor path around)

include h

theorem components_ne_nil : around.components ≠ [] := by
  obtain ⟨steps, more, hcomponents, hsteps, -, rfl⟩ := h
  rwa [components_ofComponents (hcomponents ▸ isRoute_components path).of_append]

theorem ne_empty : around ≠ "" := by
  rintro rfl
  exact h.components_ne_nil rfl

theorem withoutLastSlashes_eq : around.withoutLastSlashes = around := by
  obtain ⟨steps, more, hcomponents, -, -, rfl⟩ := h
  exact withoutLastSlashes_ofComponents (hcomponents ▸ isRoute_components path).of_append

/-- A path that leads a part of the way starts where the whole way starts. -/
theorem isAbsolute_eq : around.isAbsolute = path.isAbsolute := by
  obtain ⟨steps, more, hcomponents, hsteps, -, rfl⟩ := h
  have hroute := (hcomponents ▸ isRoute_components path).of_append
  obtain ⟨first, rest, rfl⟩ := List.exists_cons_of_ne_nil hsteps
  rw [Bool.eq_iff_iff, ← head?_components, ← head?_components, components_ofComponents hroute,
    hcomponents, List.cons_append, List.head?_cons, List.head?_cons]

/-- **A path that leads a part of the way has no characters but those of the whole way.** -/
theorem toList_sublist : around.toList.Sublist path.toList := by
  obtain ⟨steps, more, hcomponents, -, -, rfl⟩ := h
  have htexts := map_componentText_sublist path
  rw [hcomponents, List.map_append] at htexts
  have hsteps := (List.sublist_append_left _ _).trans htexts
  by_cases hroot : steps = [.root]
  · have habsolute := (head?_components path).1 (by rw [hcomponents, hroot]; rfl)
    rw [isAbsolute, decide_eq_true_iff] at habsolute
    rw [hroot]
    exact List.singleton_sublist.2 (List.mem_of_mem_head? habsolute)
  · rw [ofComponents_eq hroot, ← congrArg String.toList (intercalate_segments path)]
    exact intercalate_sublist hsteps

end IsAncestor

end RpcReference.Path
