import Mathlib.Data.List.Lex

/-!
# The order of texts

Texts are compared code point by code point.  A file system or a sorted map of another program
compares the bytes of their UTF-8 form instead.  **The two orders are the same**: of two different
characters the greater one has the greater bytes, and neither form is the start of the other, so the
first character in which two texts differ decides both comparisons.

* `Text.utf8`, `Text.codePoints` — the two views of a text.
* `Text.utf8_lt_iff`, `Text.codePoints_lt_iff` — both order texts as `<` does.
-/

set_option autoImplicit false

namespace RpcReference.Text

/-- The bytes of a text in UTF-8. -/
def utf8 (s : String) : List UInt8 := s.toByteArray.data.toList

/-- The code points of a text. -/
def codePoints (s : String) : List Nat := s.toList.map Char.toNat

theorem utf8_eq_flatMap (s : String) : utf8 s = s.toList.flatMap String.utf8EncodeChar := by
  rw [utf8, ← String.utf8Encode_toList, List.utf8Encode]
  simp

/-! ## One character

A character has one to four bytes, and the first byte tells how many: it is below 128 for one, and
grows with the number of the others.  So of characters with different numbers of bytes the first
bytes decide.  With the same number, the bytes are the digits of the code point, from the highest
on. -/

theorem ofNat_lt_ofNat {m n : Nat} (hn : n < 256) (h : m < n) : UInt8.ofNat m < UInt8.ofNat n := by
  have hm : m < 256 := Nat.lt_trans h hn
  rw [UInt8.lt_iff_toNat_lt, UInt8.toNat_ofNat_of_lt' hm, UInt8.toNat_ofNat_of_lt' hn]
  exact h

/-- A smaller byte decides. -/
theorem cons_lt_cons_of_lt {m n : Nat} {u v : List UInt8} (hn : n < 256) (h : m < n) :
    UInt8.ofNat m :: u < UInt8.ofNat n :: v :=
  List.Lex.rel (ofNat_lt_ofNat hn h)

/-- A smaller byte decides, and equal bytes leave the decision to those after them. -/
theorem cons_lt_cons_of_le {m n : Nat} {u v : List UInt8} (hn : n < 256) (hle : m ≤ n)
    (htail : m = n → u < v) : UInt8.ofNat m :: u < UInt8.ofNat n :: v := by
  rcases Nat.lt_or_eq_of_le hle with h | rfl
  · exact cons_lt_cons_of_lt hn h
  · exact List.Lex.cons (htail rfl)

/-- **A greater character has greater bytes**, whatever follows the two. -/
theorem utf8EncodeChar_append_lt {c d : Char} (h : c < d) (u v : List UInt8) :
    String.utf8EncodeChar c ++ u < String.utf8EncodeChar d ++ v := by
  have hcd : c.val.toNat < d.val.toNat := h
  have hd : d.val.toNat < 0x110000 := by rcases d.valid with h | h <;> omega
  generalize hm : c.val.toNat = m at hcd
  generalize hn : d.val.toNat = n at hcd hd
  simp only [String.utf8EncodeChar, hm, hn]
  -- one case for each pair of lengths, of which those with the longer form first cannot be
  split_ifs <;> try omega
  -- `c` has one byte: `d` has one too, or its first byte is greater than any single one
  · exact cons_lt_cons_of_lt (by omega) hcd
  · exact cons_lt_cons_of_lt (by omega) (by omega)
  · exact cons_lt_cons_of_lt (by omega) (by omega)
  · exact cons_lt_cons_of_lt (by omega) (by omega)
  -- two bytes
  · refine cons_lt_cons_of_le (by omega) (by omega) fun h1 => ?_
    exact cons_lt_cons_of_lt (by omega) (by omega)
  · exact cons_lt_cons_of_lt (by omega) (by omega)
  · exact cons_lt_cons_of_lt (by omega) (by omega)
  -- three bytes
  · refine cons_lt_cons_of_le (by omega) (by omega) fun h1 => ?_
    refine cons_lt_cons_of_le (by omega) (by omega) fun h2 => ?_
    exact cons_lt_cons_of_lt (by omega) (by omega)
  · exact cons_lt_cons_of_lt (by omega) (by omega)
  -- four bytes
  · refine cons_lt_cons_of_le (by omega) (by omega) fun h1 => ?_
    refine cons_lt_cons_of_le (by omega) (by omega) fun h2 => ?_
    refine cons_lt_cons_of_le (by omega) (by omega) fun h3 => ?_
    exact cons_lt_cons_of_lt (by omega) (by omega)

/-! ## Whole texts

Both orders are lexicographic.  What is shown is that they agree where one text is below another;
since both are total, that is all that is needed. -/

/-- The first character that differs decides, and so do its bytes. -/
theorem flatMap_utf8EncodeChar_lt {s t : List Char} (h : s < t) :
    s.flatMap String.utf8EncodeChar < t.flatMap String.utf8EncodeChar := by
  induction h with
  | @nil d t =>
    obtain ⟨x, u, hx⟩ := List.exists_cons_of_ne_nil (String.utf8EncodeChar_ne_nil (c := d))
    rw [List.flatMap_cons, hx]
    exact List.Lex.nil
  | @cons c s t _ ih =>
    rw [List.flatMap_cons, List.flatMap_cons]
    exact List.append_left_lt ih
  | rel h =>
    rw [List.flatMap_cons, List.flatMap_cons]
    exact utf8EncodeChar_append_lt h _ _

/-- A view that keeps the order of texts gives no other order. -/
theorem view_lt_iff {α : Type} [LT α] [Std.Irrefl (α := α) (· < ·)] [Std.Asymm (α := α) (· < ·)]
    {view : String → α} (mono : ∀ {s t : String}, s < t → view s < view t) {s t : String} :
    view s < view t ↔ s < t := by
  refine ⟨fun h => ?_, mono⟩
  rcases Std.lt_trichotomy s t with hlt | rfl | hgt
  · exact hlt
  · exact absurd h (Std.Irrefl.irrefl _)
  · exact absurd h (Std.Asymm.asymm _ _ (mono hgt))

/-- **The bytes of two texts are ordered as the texts are.** -/
theorem utf8_lt_iff {s t : String} : utf8 s < utf8 t ↔ s < t := by
  refine view_lt_iff fun {s t} h => ?_
  rw [utf8_eq_flatMap, utf8_eq_flatMap]
  exact flatMap_utf8EncodeChar_lt h

theorem map_toNat_lt {s t : List Char} (h : s < t) : s.map Char.toNat < t.map Char.toNat := by
  induction h with
  | nil => exact List.Lex.nil
  | cons _ ih => exact List.Lex.cons ih
  | rel h => exact List.Lex.rel h

/-- The code points of two texts are ordered as the texts are. -/
theorem codePoints_lt_iff {s t : String} : codePoints s < codePoints t ↔ s < t :=
  view_lt_iff fun h => map_toNat_lt h

end RpcReference.Text
