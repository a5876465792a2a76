import Mathlib.Data.List.Basic
import Mathlib.Data.String.Lemmas

/-!
# Joined texts

Texts that are joined with a character between them, and numbers in texts.

* `Text.splitOn_intercalate` — **joined texts are found again if the character is in none of them**,
  so two lists that are joined to one text are equal (`Text.eq_of_intercalate_eq`).
* `Text.exists_intercalate_concat` — joined texts end with the last of them.
* `Text.toString_injective` — different numbers are written differently.
-/

set_option autoImplicit false

namespace RpcReference.Text

section Joined

variable {c : Char} {separator : String} {parts parts' : List String}

/-- **Joining texts without a character with that character keeps them apart.** -/
theorem splitOn_intercalate (hseparator : separator.toList = [c]) (hparts : parts ≠ [])
    (h : ∀ part ∈ parts, c ∉ part.toList) :
    (String.intercalate separator parts).toList.splitOn c = parts.map String.toList := by
  rw [String.toList_intercalate, hseparator]
  refine List.splitOn_intercalate c ?_ (mt List.map_eq_nil_iff.1 hparts)
  simpa only [List.forall_mem_map] using h

/-- **Two lists that are joined to one text are equal**, if the character is in none of their
texts. -/
theorem eq_of_intercalate_eq (hseparator : separator.toList = [c]) (hparts : parts ≠ [])
    (hparts' : parts' ≠ []) (h : ∀ part ∈ parts, c ∉ part.toList)
    (h' : ∀ part ∈ parts', c ∉ part.toList)
    (heq : String.intercalate separator parts = String.intercalate separator parts') :
    parts = parts' := by
  refine List.map_injective_iff.2 (fun _ _ => String.toList_injective) ?_
  rw [← splitOn_intercalate hseparator hparts h, heq, splitOn_intercalate hseparator hparts' h']

/-- Joined texts end with the last one. -/
theorem exists_intercalate_concat (separator : String) (parts : List String) (last : String) :
    ∃ start, (String.intercalate separator (parts ++ [last])).toList = start ++ last.toList := by
  simp only [String.toList_intercalate, List.map_append, List.map_singleton]
  induction parts with
  | nil => exact ⟨[], List.intercalate_singleton⟩
  | cons part parts ih =>
    obtain ⟨start, hstart⟩ := ih
    rw [List.map_cons, List.cons_append, List.intercalate_cons_of_ne_nil (by simp), hstart]
    exact ⟨_, (List.append_assoc _ _ _).symm⟩

end Joined

/-! ## Numbers

A number is written with its digits, and these are read back as the number. -/

theorem toList_toString (n : Nat) : (toString n).toList = Nat.toDigits 10 n := Nat.toList_repr

/-- **Different numbers are written differently.** -/
theorem toString_injective : Function.Injective (toString : Nat → String) := by
  intro m n h
  rw [← Nat.ofDigitChars_ten_toDigits (n := m), ← toList_toString, h, toList_toString,
    Nat.ofDigitChars_ten_toDigits]

end RpcReference.Text
