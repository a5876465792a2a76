import Mathlib.Data.List.Basic
import RpcReference.Json.Basic
import RpcReference.Proofs.Table

/-!
# Edits of JSON values

Small changes of a value, and what someone sees of them who only looks values up.

* `Json.MemberEdit` — one member of an object is added, changed or removed; **under every other key
  the same is found** (`Json.MemberEdit.exists_key`).
* `Json.Reordered` — the members of one object, somewhere inside a value, stand in another order;
  **no string is found in another place** (`Json.Reordered.textAt?_eq`).
-/

set_option autoImplicit false

namespace RpcReference

namespace Table

variable {κ β : Type} [DecidableEq κ]

/-- A table with one entry, or without one if there is no value. -/
def single (key : κ) (value : Option β) : Table κ β := (value.map fun v => (key, v)).toList

theorem get?_single_self (key : κ) (value : Option β) : get? key (single key value) = value := by
  cases value with
  | none => rfl
  | some v => simp [single, get?]

theorem get?_single_of_ne {key other : κ} (value : Option β) (hne : other ≠ key) :
    get? other (single key value) = none := by
  cases value with
  | none => rfl
  | some v => simp [single, get?, hne.symm]

end Table

namespace Json

/-! ## One member

An object is cut into what stands before a key, what stands under it and what stands after it.  As
the key is in neither of the other parts, a look-up for any key can be followed through the
three. -/

/-- One member of an object is added, changed or removed.  `allowed` says which changes are meant:
it is given the key, what stood under it and what stands there afterwards. -/
inductive MemberEdit (allowed : String → Option Json → Option Json → Prop) : Json → Json → Prop where
  | intro {before after : List (String × Json)} {key : String} {old new : Option Json}
      (hbefore : key ∉ Table.keys before) (hafter : key ∉ Table.keys after)
      (h : allowed key old new) :
      MemberEdit allowed (object (before ++ Table.single key old ++ after))
        (object (before ++ Table.single key new ++ after))

/-- What is found in an object made of members before, under and after a key. -/
theorem get?_around {before after : List (String × Json)} {key : String}
    (hbefore : key ∉ Table.keys before) (hafter : key ∉ Table.keys after) (value : Option Json) :
    (object (before ++ Table.single key value ++ after)).get? key = value ∧
    ∀ other, other ≠ key → (object (before ++ Table.single key value ++ after)).get? other =
      (Table.get? other before).or (Table.get? other after) := by
  refine ⟨?_, fun other hne => ?_⟩
  · show Table.get? key _ = _
    rw [Table.get?_append, Table.get?_append, Table.get?_eq_none_iff.2 hbefore,
      Table.get?_eq_none_iff.2 hafter, Table.get?_single_self, Option.none_or, Option.or_none]
  · show Table.get? other _ = _
    rw [Table.get?_append, Table.get?_append, Table.get?_single_of_ne _ hne, Option.or_none]

variable {allowed : String → Option Json → Option Json → Prop} {v v' : Json}

/-- **Under one key there is an allowed change, and under the others there is none.** -/
theorem MemberEdit.exists_key (h : MemberEdit allowed v v') :
    ∃ key, allowed key (v.get? key) (v'.get? key) ∧
      ∀ other, other ≠ key → v'.get? other = v.get? other := by
  cases h with
  | @intro before after key old new hbefore hafter h =>
    obtain ⟨hold, hothers⟩ := get?_around hbefore hafter old
    obtain ⟨hnew, hothers'⟩ := get?_around hbefore hafter new
    refine ⟨key, ?_, fun other hne => ?_⟩
    · rwa [hold, hnew]
    · rw [hothers other hne, hothers' other hne]

/-! ## The order of members

Members may change places in one object at a time, on top of a value or anywhere inside it.  Someone
who looks up a key may then find a value that is itself in another order, but a string has no
members, so the strings that are found are the same. -/

/-- The members of one object stand in another order, on top or somewhere inside. -/
inductive Reordered : Json → Json → Prop where
  /-- The members of the value itself. -/
  | members {members members' : List (String × Json)} (hnodup : (Table.keys members).Nodup)
      (h : members.Perm members') : Reordered (object members) (object members')
  /-- Those of an object inside a member. -/
  | inMember {before after : List (String × Json)} {key : String} {v v' : Json}
      (h : Reordered v v') :
      Reordered (object (before ++ (key, v) :: after)) (object (before ++ (key, v') :: after))
  /-- Those of an object inside an item. -/
  | inItem {before after : List Json} {v v' : Json} (h : Reordered v v') :
      Reordered (array (before ++ v :: after)) (array (before ++ v' :: after))

namespace Reordered

theorem text?_eq (h : Reordered v v') : v'.text? = v.text? := by
  cases h <;> rfl

theorem isSome_members?_eq (h : Reordered v v') : v'.members?.isSome = v.members?.isSome := by
  cases h <;> rfl

/-- Under a key the same is found, or the same but for an order inside it. -/
theorem get?_eq_or (h : Reordered v v') (key : String) :
    v'.get? key = v.get? key ∨
      ∃ x x', v.get? key = some x ∧ v'.get? key = some x' ∧ Reordered x x' := by
  cases h with
  | members hnodup h => exact .inl (Table.get?_eq_of_perm hnodup h key)
  | inItem h => exact .inl rfl
  | @inMember before after other x x' h =>
    have hget : ∀ y, (object (before ++ (other, y) :: after)).get? key =
        (Table.get? key before).or (if other = key then some y else Table.get? key after) := fun y =>
      Table.get?_append key before ((other, y) :: after)
    rw [hget, hget]
    by_cases hkey : other = key
    · rw [if_pos hkey, if_pos hkey]
      cases Table.get? key before with
      | some y => exact .inl rfl
      | none => exact .inr ⟨x, x', rfl, rfl, h⟩
    · rw [if_neg hkey, if_neg hkey]
      exact .inl rfl

/-- **The same strings are found under the same keys.** -/
theorem textAt?_eq (h : Reordered v v') (key : String) : v'.textAt? key = v.textAt? key := by
  rw [textAt?, textAt?]
  rcases h.get?_eq_or key with heq | ⟨x, x', hx, hx', hinside⟩
  · rw [heq]
  · rw [hx, hx', Option.bind_some, Option.bind_some, hinside.text?_eq]

end Reordered
end Json
end RpcReference
