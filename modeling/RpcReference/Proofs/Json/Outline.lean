import RpcReference.Proofs.Json.Extent
import RpcReference.Proofs.Table

/-!
# The outline of an object

Which members an object has can be seen without knowing what they are for: each value is passed
over.

* `Json.outline` — **the members of an object, each with the text from its value on.**  A list of
  values has the members that the keys name in their order.
* `Json.Shape.Reads` — one member after another is read into a state; unknown ones change nothing.
* `Json.exists_outline_of_readShape` — **what is read from an object with known keys is read from
  its outline**, and from nothing else.
* `Json.Shape.Reads.eq_of_unread`, `Json.Shape.Reads.exists_read` — what becomes of a part of the
  state that only one key changes.
-/

set_option autoImplicit false

namespace RpcReference.Json

/-! ## Outlines

An outline is read by the functions that read lists and objects, with a reader of values that passes
over each of them and gives back where it started.  Nothing in it depends on what the keys mean. -/

/-- Passes over a value, and gives the text from its start. -/
def readExtent (text : List Char) : Reading (List Char) := (skipValue text).map fun _ => text

theorem readExtent_of_passes {text rest : List Char} (h : Passes text rest) :
    readExtent text = .done text rest := by
  rw [readExtent, skipValue_eq_done_iff.2 h, Reading.map_done]

theorem delimits_readExtent : Delimits readExtent := by
  intro text value rest h
  obtain ⟨_, hskip, rfl⟩ := Reading.map_eq_done.1 h
  exact skipValue_eq_done_iff.1 hskip

/-- The members of the object at the start of a text, each with the text from its value on.  A list
of values has the members that the keys name in their order. -/
def outline (keys : List String) (text : List Char) : Reading (Table String (List Char)) :=
  match skipBlanks text with
  | '{' :: rest => readMembers readExtent (rest.length + 1) true rest
  | '[' :: rest => (readItems readExtent (rest.length + 1) true rest).map keys.zip
  | rest => refuse "a map" rest

/-- An outline ends where the object or the list ends. -/
theorem delimits_outline (keys : List String) : Delimits (outline keys) := by
  intro text members rest h
  rw [outline] at h
  split at h
  · next hopen =>
    refine .of_skipBlanks ?_
    rw [hopen]
    exact steps_of_readMembers delimits_readExtent h
  · next hopen =>
    obtain ⟨values, hitems, rfl⟩ := Reading.map_eq_done.1 h
    refine .of_skipBlanks ?_
    rw [hopen]
    exact steps_of_readItems delimits_readExtent hitems
  · exact absurd h refuse_ne_done

/-! ## Reading by an outline

A reader that knows the keys of an object decides at each key what to do with the value: it reads
the value into what it knows so far, or passes over it.  Both end at the same place, since readers
delimit.  So the reader sees the same keys as the outline does, and every value it reads is read
from the text that the outline has for it.

`Reads` is what is left of the reader when the punctuation is taken away. -/

variable {σ : Type} {shape : Shape σ}

namespace Shape

/-- Members are read one after another.  A known key is not among those `seen` before, and its value
is read; an unknown one is passed by. -/
inductive Reads (shape : Shape σ) : List String → σ → Table String (List Char) → σ → Prop where
  | nil {seen : List String} {state : σ} : Reads shape seen state [] state
  | known {seen : List String} {state mid final : σ} {key : String} {value rest : List Char}
      {members : Table String (List Char)} (hkey : key ∈ shape.keys) (hnew : key ∉ seen)
      (hvalue : shape.value key state value = .done mid rest)
      (hmore : Reads shape (key :: seen) mid members final) :
      Reads shape seen state ((key, value) :: members) final
  | unknown {seen : List String} {state final : σ} {key : String} {value : List Char}
      {members : Table String (List Char)} (hkey : key ∉ shape.keys)
      (hmore : Reads shape seen state members final) :
      Reads shape seen state ((key, value) :: members) final

end Shape

section Fields

variable {first isList : Bool} {seen seen' : List String} {state final : σ} {text rest : List Char}
  (hvalue : ∀ key ∈ shape.keys, ∀ state, Delimits (shape.value key state))

include hvalue

/-- The members of an object are those of its outline. -/
theorem exists_reads_of_readFields {fuel : Nat}
    (h : readFields shape fuel first seen state text = .done (seen', final) rest) :
    ∃ members, readMembers readExtent fuel first text = .done members rest ∧
      shape.Reads seen state members final := by
  induction fuel generalizing first seen state text with
  | zero => cases h
  | succ fuel ih =>
    obtain ⟨more, atKey, hstart, h⟩ := Reading.bind_eq_done.1 h
    rw [readMembers, hstart, Reading.bind_done]
    cases more with
    | false =>
      cases h
      exact ⟨[], rfl, .nil⟩
    | true =>
      obtain ⟨key, afterKey, hkey, h⟩ := Reading.bind_eq_done.1 h
      -- a key that was there before is refused, so this one is new
      split at h
      · cases h
      next hnew =>
      obtain ⟨_, atValue, hcolon, h⟩ := Reading.bind_eq_done.1 h
      rw [if_pos rfl, hkey, Reading.bind_done, hcolon, Reading.bind_done]
      split at h
      · next hknown =>
        obtain ⟨mid, afterValue, hread, h⟩ := Reading.bind_eq_done.1 h
        obtain ⟨members, hmembers, hreads⟩ := ih h
        rw [readExtent_of_passes (hvalue key hknown state _ _ _ hread), Reading.bind_done, hmembers]
        exact ⟨_, rfl, .known hknown hnew hread hreads⟩
      · next hunknown =>
        obtain ⟨_, afterValue, hskip, h⟩ := Reading.bind_eq_done.1 h
        obtain ⟨members, hmembers, hreads⟩ := ih h
        rw [readExtent_of_passes (skipValue_eq_done_iff.1 hskip), Reading.bind_done, hmembers]
        exact ⟨_, rfl, .unknown hunknown hreads⟩

/-- The values of a list are those of its outline, under the keys from the first one on.  The
induction is on the keys; the outline counts characters instead, so its fuel has to be enough for
the text. -/
theorem exists_reads_of_readFieldList {fuel : Nat} {keys : List String}
    (hkeys : ∀ key ∈ keys, key ∈ shape.keys) (hnodup : keys.Nodup) (hnew : ∀ key ∈ keys, key ∉ seen)
    (hfuel : text.length < fuel)
    (h : readFieldList shape keys first seen state text = .done (seen', final) rest) :
    ∃ values, readItems readExtent fuel first text = .done values rest ∧
      shape.Reads seen state (keys.zip values) final := by
  induction keys generalizing fuel first seen state text with
  | nil =>
    obtain ⟨fuel, rfl⟩ := Nat.exists_eq_succ_of_ne_zero (Nat.ne_of_gt (Nat.zero_lt_of_lt hfuel))
    obtain ⟨_, hend, hdone⟩ := Reading.map_eq_done.1 h
    cases hdone
    exact ⟨[], by rw [readItems, readItemStart_of_readListEnd hend]; rfl, .nil⟩
  | cons key keys ih =>
    obtain ⟨fuel, rfl⟩ := Nat.exists_eq_succ_of_ne_zero (Nat.ne_of_gt (Nat.zero_lt_of_lt hfuel))
    obtain ⟨more, atItem, hstart, h⟩ := Reading.bind_eq_done.1 h
    rw [readItems, hstart, Reading.bind_done]
    cases more with
    | false =>
      cases h
      exact ⟨[], rfl, .nil⟩
    | true =>
      obtain ⟨mid, afterItem, hread, h⟩ := Reading.bind_eq_done.1 h
      have hknown := hkeys key List.mem_cons_self
      have hpasses := hvalue key hknown state _ _ _ hread
      -- every value has a character, so the fuel of the outline lasts
      have hshorter : afterItem.length < fuel := by
        have := hpasses.length_lt
        have := (itemStart_of_readItemStart hstart).length_le
        omega
      obtain ⟨hfresh, hnodup⟩ := List.nodup_cons.1 hnodup
      have hkeys' : ∀ other ∈ keys, other ∈ shape.keys := fun other hother =>
        hkeys other (List.mem_cons_of_mem _ hother)
      have hnew' : ∀ other ∈ keys, other ∉ key :: seen := by
        intro other hother hseen
        rcases List.mem_cons.1 hseen with rfl | hseen
        · exact hfresh hother
        · exact hnew other (List.mem_cons_of_mem _ hother) hseen
      obtain ⟨values, hvalues, hreads⟩ := ih hkeys' hnodup hnew' hshorter h
      rw [if_pos rfl, readExtent_of_passes hpasses, Reading.bind_done, hvalues]
      exact ⟨_, rfl, .known hknown (hnew key List.mem_cons_self) hread hreads⟩

/-- **An object with known keys is read by its outline.** -/
theorem exists_outline_of_readShape (hnodup : shape.keys.Nodup)
    (h : readShape shape text = .done (isList, seen, final) rest) :
    ∃ members, outline shape.keys text = .done members rest ∧
      shape.Reads [] shape.start members final := by
  rw [readShape] at h
  split at h
  · next hopen =>
    obtain ⟨_, hread, hdone⟩ := Reading.map_eq_done.1 h
    cases hdone
    rw [outline, hopen]
    exact exists_reads_of_readFields hvalue hread
  · next hopen =>
    obtain ⟨_, hread, hdone⟩ := Reading.map_eq_done.1 h
    cases hdone
    obtain ⟨values, hvalues, hreads⟩ := exists_reads_of_readFieldList hvalue (fun _ hkey => hkey)
      hnodup (fun _ _ => List.not_mem_nil) (Nat.lt_succ_self _) hread
    rw [outline, hopen]
    exact ⟨_, congrArg (Reading.map shape.keys.zip) hvalues, hreads⟩
  · exact absurd h refuse_ne_done

/-- So does a reader that knows the keys, since it goes on like the outline. -/
theorem delimits_readComplete (hnodup : shape.keys.Nodup) : Delimits (readComplete shape) := by
  intro text value rest h
  obtain ⟨⟨isList, seen, final⟩, rest', hread, h⟩ := Reading.bind_eq_done.1 h
  obtain ⟨members, hmembers, -⟩ := exists_outline_of_readShape hvalue hnodup hread
  dsimp only at h
  split at h
  · cases h
    exact delimits_outline _ _ _ _ hmembers
  · split at h <;> cases h

end Fields

/-! ## Known keys are there once

The outline keeps repeated keys, and so does a look-up of the last one.  For known keys the question
does not arise. -/

/-- A known key that was seen is not there again. -/
theorem Shape.Reads.get?_eq_none {key : String} {seen : List String} {state final : σ}
    {members : Table String (List Char)} (h : shape.Reads seen state members final)
    (hkey : key ∈ shape.keys) (hseen : key ∈ seen) : Table.get? key members = none := by
  induction h with
  | nil => rfl
  | @known seen state mid final other value rest members _ hnew _ _ ih =>
    have hne : other ≠ key := by
      rintro rfl
      exact hnew hseen
    rw [Table.get?, if_neg hne]
    exact ih (List.mem_cons_of_mem _ hseen)
  | @unknown seen state final other value members hunknown _ ih =>
    have hne : other ≠ key := by
      rintro rfl
      exact hunknown hkey
    rw [Table.get?, if_neg hne]
    exact ih hseen

/-- **Of a known key the first value is the last one**: another one would have been refused. -/
theorem Shape.Reads.lastOf_eq_get? {key : String} {seen : List String} {state final : σ}
    {members : Table String (List Char)} (h : shape.Reads seen state members final)
    (hkey : key ∈ shape.keys) : Table.lastOf key members = Table.get? key members := by
  induction h with
  | nil => rfl
  | @known seen state mid final other value rest members _ _ _ hmore ih =>
    rw [Table.lastOf_cons, Table.get?]
    split
    · next heq =>
      subst heq
      rw [Table.lastOf_eq_none_iff.2 (hmore.get?_eq_none hkey List.mem_cons_self), Option.none_or]
    · rw [Option.or_none, ih]
  | @unknown seen state final other value members hunknown _ ih =>
    have hne : other ≠ key := by
      rintro rfl
      exact hunknown hkey
    rw [Table.lastOf_cons, Table.get?, if_neg hne, if_neg hne, Option.or_none, ih]

/-! ## Parts of the state

What is read from one key is often all that matters of an object.  If no other key has to do with a
part of the state, that part is what it was at the start, or what was read from its own key; where
in the object that key stands makes no difference. -/

namespace Shape.Reads

variable {β : Type} {part : σ → β} {key : String} {seen : List String} {state final : σ}
  {members : Table String (List Char)}
  (hothers : ∀ other ∈ shape.keys, other ≠ key → ∀ state value mid rest,
    shape.value other state value = .done mid rest → part mid = part state)

include hothers

/-- **What only one key changes stays without it**, or after it was read. -/
theorem eq_of_unread (h : shape.Reads seen state members final)
    (hunread : key ∈ seen ∨ Table.get? key members = none) : part final = part state := by
  induction h with
  | nil => rfl
  | @known seen state mid final other value rest members hkey hnew hvalue _ ih =>
    have hne : other ≠ key := by
      rintro rfl
      rcases hunread with hseen | hnone
      · exact hnew hseen
      · simp [Table.get?] at hnone
    rw [ih ?_, hothers other hkey hne state value mid rest hvalue]
    rw [Table.get?, if_neg hne] at hunread
    exact hunread.imp_left (List.mem_cons_of_mem _)
  | @unknown seen state final other value members hkey _ ih =>
    refine ih (hunread.imp_right fun hnone => ?_)
    rw [Table.get?] at hnone
    split at hnone
    · cases hnone
    · exact hnone

/-- **What only one key changes is what was read from the value under it.** -/
theorem exists_read (h : shape.Reads seen state members final) (hkey : key ∈ shape.keys)
    {value : List Char} (hget : Table.get? key members = some value) :
    ∃ before after rest, shape.value key before value = .done after rest ∧
      part final = part after := by
  induction h with
  | nil => cases hget
  | @known seen state mid final other value' rest members _ _ hvalue hmore ih =>
    rw [Table.get?] at hget
    split at hget
    · next heq =>
      subst heq
      cases hget
      exact ⟨state, mid, rest, hvalue, hmore.eq_of_unread hothers (.inl List.mem_cons_self)⟩
    · exact ih hget
  | @unknown seen state final other value' members hunknown _ ih =>
    rw [Table.get?] at hget
    split at hget
    · next heq => exact absurd (heq ▸ hkey) hunknown
    · exact ih hget

end Shape.Reads
end RpcReference.Json
