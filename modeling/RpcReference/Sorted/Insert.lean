import RpcReference.Table

/-!
# Inserting into sorted tables

Texts are ordered by their code points, one after another; that is also the order of their UTF-8
bytes.  A sorted table lists its keys in strictly increasing order.

* `Table.insertSorted` — puts a value under a key: **a known key takes the new value, a new one goes
  to its place in the order**.
* `Table.IsSorted` — strictly increasing keys, which `insertSorted` keeps.
-/

set_option autoImplicit false

namespace RpcReference.Table

variable {β : Type}

/-- Strictly increasing keys. -/
def IsSorted (table : Table String β) : Prop := (keys table).Pairwise (· < ·)

/-- Puts a value under a key into a sorted table. -/
def insertSorted (key : String) (value : β) : Table String β → Table String β
  | [] => [(key, value)]
  | (k, v) :: rest =>
      if key < k then (key, value) :: (k, v) :: rest
      else if key = k then (key, value) :: rest
      else (k, v) :: insertSorted key value rest

/-- The keys after an insertion. -/
theorem mem_keys_insertSorted {key other : String} {value : β} {table : Table String β} :
    other ∈ keys (insertSorted key value table) ↔ other = key ∨ other ∈ keys table := by
  induction table with
  | nil => simp [insertSorted]
  | cons entry rest ih =>
    obtain ⟨k, v⟩ := entry
    by_cases h : key < k
    · simp [insertSorted, h]
    · by_cases h2 : key = k
      · subst h2; simp [insertSorted]
      · simp [insertSorted, h, h2, ih]
        constructor <;> rintro (h | h | h) <;> simp [h]

theorem isSorted_nil : IsSorted ([] : Table String β) := List.Pairwise.nil

/-- An insertion keeps a table sorted. -/
theorem isSorted_insertSorted {key : String} {value : β} {table : Table String β}
    (h : IsSorted table) : IsSorted (insertSorted key value table) := by
  induction table with
  | nil => simp [insertSorted, IsSorted]
  | cons entry rest ih =>
    obtain ⟨k, v⟩ := entry
    simp only [IsSorted, keys_cons, List.pairwise_cons] at h
    by_cases hlt : key < k
    · simp only [insertSorted, hlt, if_true, IsSorted, keys_cons, List.pairwise_cons]
      exact ⟨by
        intro other ho
        rcases List.mem_cons.1 ho with rfl | ho
        · exact hlt
        · exact String.lt_trans hlt (h.1 other ho), h.1, h.2⟩
    · by_cases heq : key = k
      · subst heq
        simpa [insertSorted, hlt, IsSorted] using h
      · simp only [insertSorted, hlt, heq, if_false, IsSorted, keys_cons, List.pairwise_cons]
        refine ⟨fun other ho => ?_, ih h.2⟩
        rcases mem_keys_insertSorted.1 ho with rfl | ho
        · rcases Std.lt_trichotomy other k with hl | he | hg
          · exact absurd hl hlt
          · exact absurd he heq
          · exact hg
        · exact h.1 other ho

end RpcReference.Table
