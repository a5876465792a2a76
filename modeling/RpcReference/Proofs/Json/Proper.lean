import RpcReference.Json.Reader
import RpcReference.Proofs.Json.Values
import RpcReference.Proofs.Table

/-!
# What the reader gives

* `Json.proper_of_parse` — **a value that was read is proper**: its integers are in range and its
  objects have no key twice.  So what is read can be written and read again.
* `Json.depth_le_of_parse` — it is not nested more deeply than the reader allows.
-/

set_option autoImplicit false

namespace RpcReference

/-! ## What a reading can give

Most of what is read on the way to a value has nothing to do with the property in question: words,
keys, and what stands between values.  Of these the trivial property is enough, which every reading
has, and a reading that fails has any property. -/

namespace Reading

variable {α β : Type}

/-- Whether a reading gives only values with a property. -/
def Only (p : α → Prop) (reading : Reading α) : Prop :=
  ∀ value rest, reading = done value rest → p value

theorem only_done {p : α → Prop} {value : α} {rest : List Char} (h : p value) :
    (done value rest).Only p := by
  intro v r heq
  cases heq
  exact h

theorem only_fault {p : α → Prop} (f : JsonFault) : (fault f).Only p := nofun

theorem only_true (reading : Reading α) : reading.Only fun _ => True := fun _ _ _ => trivial

theorem Only.bind {p : α → Prop} {q : β → Prop} {reading : Reading α}
    {next : α → List Char → Reading β} (h : reading.Only p)
    (hnext : ∀ value, p value → ∀ rest, (next value rest).Only q) : (reading.bind next).Only q := by
  intro value rest heq
  obtain ⟨v, r, hv, hn⟩ := bind_eq_done.1 heq
  exact hnext v (h v r hv) r value rest hn

theorem Only.map {p : α → Prop} {q : β → Prop} {reading : Reading α} {f : α → β}
    (h : reading.Only p) (hf : ∀ value, p value → q (f value)) : (reading.map f).Only q :=
  h.bind fun value hv _ => only_done (hf value hv)

end Reading

namespace Json

open Reading (only_done only_fault only_true)

/-! ## Numbers

An integer is made from a numeral only if it fits 64 bits; all other numbers are floating point
numbers, and of those nothing has to be shown. -/

/-- An integer is taken from a numeral only if it is in range. -/
theorem Numeral.isReadableInt_of_integer? {n : Numeral} {value : Int}
    (h : n.integer? = some value) : IsReadableInt value := by
  have hleast : Number.leastInt < 0 := by decide
  have hgreatest : 0 < Number.greatestInt := by decide
  rw [integer?] at h
  split at h
  · cases h
  dsimp only at h
  split at h
  · split at h
    · next hrange =>
      obtain rfl := Option.some_inj.1 h
      exact ⟨hrange.2, by omega⟩
    · cases h
  · split at h
    · next hrange =>
      obtain rfl := Option.some_inj.1 h
      exact ⟨by omega, hrange⟩
    · cases h

/-- Every number that is read can be written and read again. -/
theorem only_readNumber (negative : Bool) (text : List Char) :
    (readNumber negative text).Only fun n => (number n).Proper := by
  refine (only_true _).bind fun numeral _ rest => ?_
  rw [Numeral.number]
  cases hinteger : numeral.integer? with
  | some value => exact only_done (.int value (Numeral.isReadableInt_of_integer? hinteger))
  | none => exact (only_true _).map fun x _ => .float x

/-! ## Values

The depth cannot be bounded without counting the levels, so both properties are shown together, for
all values that are read with a number of levels.  The members of an object are put into a table
after they were read, which is what makes its keys different. -/

/-- What is shown of the values that are read with a number of levels. -/
def IsReadWithin (levels : Nat) (v : Json) : Prop := v.Proper ∧ v.depth ≤ levels

/-- A scalar opens no level. -/
theorem only_readScalar (fuel : Nat) (c : Char) (rest : List Char) (levels : Nat) :
    (readScalar fuel c rest).Only (IsReadWithin levels) := by
  rw [readScalar]
  split
  · exact (only_true _).map fun _ _ => ⟨.null, Nat.zero_le _⟩
  split
  · exact (only_true _).map fun _ _ => ⟨.bool true, Nat.zero_le _⟩
  split
  · exact (only_true _).map fun _ _ => ⟨.bool false, Nat.zero_le _⟩
  split
  · exact (only_true _).map fun s _ => ⟨.string s, Nat.zero_le _⟩
  split
  · exact (only_readNumber _ _).map fun n hn => ⟨hn, Nat.zero_le _⟩
  split
  · exact (only_readNumber _ _).map fun n hn => ⟨hn, Nat.zero_le _⟩
  · exact only_fault _

section Containers

variable {α : Type} {p : α → Prop} {value : List Char → Reading α}
  (hvalue : ∀ text, (value text).Only p)

include hvalue

/-- What holds of every value holds of the items. -/
theorem only_readItems (fuel : Nat) (first : Bool) (text : List Char) :
    (readItems value fuel first text).Only fun items => ∀ item ∈ items, p item := by
  induction fuel generalizing first text with
  | zero => exact only_fault _
  | succ fuel ih =>
    refine (only_true _).bind fun more _ text => ?_
    split
    · refine (hvalue text).bind fun x hx text => (ih false text).map fun items hitems => ?_
      exact List.forall_mem_cons.2 ⟨hx, hitems⟩
    · exact only_done (by simp)

/-- And of the members, whatever their keys. -/
theorem only_readMembers (fuel : Nat) (first : Bool) (text : List Char) :
    (readMembers value fuel first text).Only fun members => ∀ member ∈ members, p member.2 := by
  induction fuel generalizing first text with
  | zero => exact only_fault _
  | succ fuel ih =>
    refine (only_true _).bind fun more _ text => ?_
    split
    · refine (only_true _).bind fun key _ text => (only_true _).bind fun _ _ text =>
        (hvalue text).bind fun v hv text => (ih false text).map fun members hmembers => ?_
      exact List.forall_mem_cons.2 ⟨hv, hmembers⟩
    · exact only_done (by simp)

end Containers

/-- Values inside lists and objects are read with one level less. -/
theorem only_readValue (fuel levels : Nat) (text : List Char) :
    (readValue fuel levels text).Only (IsReadWithin levels) := by
  induction levels generalizing text with
  | zero =>
    rw [readValue, readValueWith]
    split
    · exact only_fault _
    · exact only_fault _
    · exact only_fault _
    · exact only_readScalar _ _ _ _
  | succ levels ih =>
    rw [readValue, readValueWith]
    split
    · exact only_fault _
    · refine (only_readItems ih fuel true _).map fun items hitems => ⟨.array items ?_, ?_⟩
      · exact fun item hitem => (hitems item hitem).1
      · exact depth_array_le_succ_iff.2 fun item hitem => (hitems item hitem).2
    · refine (only_readMembers ih fuel true _).map fun members hmembers => ?_
      -- of a key that is read twice the last value is kept, and it was read like the others
      have hall : ∀ member ∈ Table.putAll [] members, IsReadWithin levels member.2 :=
        Table.forall_mem_putAll (by simp) hmembers
      refine ⟨.object _ (Table.nodup_keys_putAll members List.nodup_nil) ?_, ?_⟩
      · exact fun member hmember => (hall member hmember).1
      · exact depth_object_le_succ_iff.2 fun member hmember => (hall member hmember).2
    · exact only_readScalar _ _ _ _

/-! ## Whole texts

A text is read with as many levels as the reader allows. -/

/-- **A whole text is read if a value is read from its start, and only blanks follow.** -/
theorem exists_read_of_readWhole? {α : Type} {read : List Char → Reading α} {text : String} {value : α}
    (h : readWhole? read text = .ok value) :
    ∃ mid rest, read text.toList = .done value mid ∧ readEnd mid = .done () rest := by
  rw [readWhole?] at h
  split at h
  · next value' rest hread =>
    cases h
    obtain ⟨v, mid, hv, hmap⟩ := Reading.bind_eq_done.1 hread
    obtain ⟨_, hend, rfl⟩ := Reading.map_eq_done.1 hmap
    exact ⟨mid, rest, hv, hend⟩
  · cases h

theorem isReadWithin_of_parse {text : String} {v : Json} (h : parse text = .ok v) :
    IsReadWithin nestingLimit v := by
  obtain ⟨mid, -, hread, -⟩ := exists_read_of_readWhole? h
  exact only_readValue _ _ _ v mid hread

/-- **A value that was read is proper.** -/
theorem proper_of_parse {text : String} {v : Json} (h : parse text = .ok v) : v.Proper :=
  (isReadWithin_of_parse h).1

theorem depth_le_of_parse {text : String} {v : Json} (h : parse text = .ok v) :
    v.depth ≤ nestingLimit :=
  (isReadWithin_of_parse h).2

end Json
end RpcReference
