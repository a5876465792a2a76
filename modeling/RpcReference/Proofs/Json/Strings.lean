import RpcReference.Json.Reader
import RpcReference.Json.Writer

/-!
# Reading back strings

The reader skips blanks, and it takes every escape that the writer makes for the character that it
stands for.

* `Json.skipBlanks_append` — blanks before a text make no difference.
* `Json.readString_stringCharacters` — **a written string is read as the string that it was**, and
  the text after it is left.
-/

set_option autoImplicit false

namespace RpcReference.Json

/-! ## Blanks

The writer puts blanks between values, and the reader skips them before it looks at anything. -/

theorem skipBlanks_append {blanks : List Char} (h : ∀ c ∈ blanks, isBlank c = true)
    (text : List Char) : skipBlanks (blanks ++ text) = skipBlanks text :=
  List.dropWhile_append_of_pos h

/-- A character that is no blank stays. -/
theorem skipBlanks_cons {c : Char} (h : isBlank c = false) (text : List Char) :
    skipBlanks (c :: text) = c :: text := by
  rw [skipBlanks, List.dropWhile_cons, h, if_neg Bool.false_ne_true]

theorem isBlank_newLine (level : Nat) : ∀ c ∈ newLine level, isBlank c = true := by
  intro c hc
  rcases List.mem_cons.1 hc with rfl | hc
  · decide
  · rw [List.eq_of_mem_replicate hc]
    decide

/-! ## Escapes

An escape is read for the character that it was made for.  Seven of them are two fixed characters
each.  The other control characters are written with four digits, of which the first two are zeros:
their numbers are below 32, too small for half of a pair. -/

theorem hexDigit?_digitChar : ∀ n < 16, Text.hexDigit? (Nat.digitChar n) = some n := by decide

/-- Four digits, of which the first two are zeros. -/
theorem readHex_digitChar {n : Nat} (h : n < 256) (rest : List Char) :
    readHex ('0' :: '0' :: Nat.digitChar (n / 16) :: Nat.digitChar (n % 16) :: rest) =
      .done n rest := by
  have hzero : Text.hexDigit? '0' = some 0 := by decide
  have hhigh := hexDigit?_digitChar (n / 16) (by omega)
  have hlow := hexDigit?_digitChar (n % 16) (by omega)
  have hvalue : hexValue4? '0' '0' (Nat.digitChar (n / 16)) (Nat.digitChar (n % 16)) = some n := by
    simp only [hexValue4?, hzero, hhigh, hlow, Option.bind_eq_bind, Option.bind_some, Option.pure_def]
    congr 1
    omega
  rw [readHex, hvalue]

/-- The escape of a control character. -/
theorem readEscape_digitChar {c : Char} (h : c < ' ') (rest : List Char) :
    readEscape ('u' :: '0' :: '0' :: Nat.digitChar (c.toNat / 16) ::
      Nat.digitChar (c.toNat % 16) :: rest) = .done c rest := by
  have hlt : c.toNat < 32 := h
  have htrailing : isTrailingSurrogate c.toNat = false := decide_eq_false (by omega)
  have hleading : isLeadingSurrogate c.toNat = false := decide_eq_false (by omega)
  rw [readEscape, readHex_digitChar (by omega), Reading.bind_done, htrailing, hleading,
    Char.ofNat_toNat]
  rfl

/-- One character is read back, whether it is escaped or not. -/
theorem readCharacters_escapedCharacter (fuel : Nat) (c : Char) (rest : List Char) :
    readCharacters (fuel + 1) (escapedCharacter c ++ rest) =
      (readCharacters fuel rest).map (c :: ·) := by
  rw [escapedCharacter]
  split
  · next h => subst h; rfl
  split
  · next h => subst h; rfl
  split
  · next h => subst h; rfl
  split
  · next h => subst h; rfl
  split
  · next h => subst h; rfl
  split
  · next h => subst h; rfl
  split
  · next h => subst h; rfl
  split
  · next hcontrol =>
    change (readEscape ('u' :: '0' :: '0' :: Nat.digitChar (c.toNat / 16) ::
      Nat.digitChar (c.toNat % 16) :: rest)).bind _ = _
    rw [readEscape_digitChar hcontrol, Reading.bind_done]
  -- any other character stands for itself, because it is neither a quote nor a backslash nor a
  -- control
  · next hquote hbackslash _ _ _ _ _ hcontrol =>
    rw [List.singleton_append, readCharacters]
    · rw [if_neg hcontrol]
    · exact hquote
    · exact hbackslash

/-! ## Strings

The fuel of the reader counts characters of the string and not of its text, so it is enough for a
string that the text is at least as long. -/

theorem readCharacters_flatMap (fuel : Nat) (text rest : List Char) (h : text.length < fuel) :
    readCharacters fuel (text.flatMap escapedCharacter ++ '"' :: rest) = .done text rest := by
  induction text generalizing fuel with
  | nil =>
    obtain ⟨fuel, rfl⟩ := Nat.exists_eq_succ_of_ne_zero (Nat.ne_of_gt h)
    rfl
  | cons c text ih =>
    obtain ⟨fuel, rfl⟩ := Nat.exists_eq_succ_of_ne_zero (Nat.ne_of_gt (Nat.zero_lt_of_lt h))
    rw [List.flatMap_cons, List.append_assoc, readCharacters_escapedCharacter,
      ih fuel (Nat.lt_of_succ_lt_succ h), Reading.map_done]

/-- **A string is read back**, if the fuel is enough for its characters. -/
theorem readString_stringCharacters {fuel : Nat} {s : String} (h : s.toList.length < fuel)
    (rest : List Char) :
    readString fuel (s.toList.flatMap escapedCharacter ++ '"' :: rest) = .done s rest := by
  rw [readString, readCharacters_flatMap fuel _ rest h, Reading.map_done, String.ofList_toList]

/-- No character is written as nothing. -/
theorem length_le_length_flatMap_escapedCharacter (text : List Char) :
    text.length ≤ (text.flatMap escapedCharacter).length := by
  have hpos : ∀ c, 1 ≤ (escapedCharacter c).length := by
    intro c
    unfold escapedCharacter
    repeat' split
    all_goals exact Nat.succ_le_succ (Nat.zero_le _)
  induction text with
  | nil => exact Nat.le_refl 0
  | cons c text ih =>
    rw [List.flatMap_cons, List.length_append, List.length_cons]
    have := hpos c
    omega

end RpcReference.Json
