import RpcReference.Proofs.Json.Outline
import RpcReference.Proofs.Json.Proper

/-!
# Readers that agree

One text can be read in several ways: as a value, by a reader that knows its type, or by passing
over it.  **What two of these readers accept, they read alike.**  They need not accept the same
texts: only the reader of values counts levels, and a reader that knows a type refuses the others.

* `Json.delimits_readValue` — the reader of values stops where the others do.
* `Json.aligned_of_readMembers` — two readers go through an object in step: they see the same keys,
  and values that are related by what one value is read as.
* `Json.eq_object_of_readTexts` — an object of texts is the value that holds these texts.
* `Json.exists_aligned_of_outline` — the value under a key of an object is read from the text that
  the outline has under it.
-/

set_option autoImplicit false

namespace RpcReference.Json

variable {text rest rest' : List Char}

/-! ## Strings

Every reader gives the characters of a string a fuel of its own, which it takes from the length of
the text or from its own fuel.  A string that is read to its end is the same with any of them. -/

/-- With more fuel the same characters are read. -/
theorem readCharacters_of_le {fuel fuel' : Nat} (hle : fuel ≤ fuel') {characters : List Char}
    (h : readCharacters fuel text = .done characters rest) :
    readCharacters fuel' text = .done characters rest := by
  induction fuel generalizing fuel' text characters with
  | zero => cases h
  | succ fuel ih =>
    obtain ⟨fuel', rfl⟩ := Nat.exists_eq_succ_of_ne_zero (Nat.ne_of_gt (Nat.zero_lt_of_lt hle))
    have hmore : fuel ≤ fuel' := Nat.le_of_succ_le_succ hle
    rw [readCharacters.eq_def] at h ⊢
    dsimp only at h ⊢
    split at h
    · cases h
    · exact h
    · obtain ⟨c, afterEscape, hescape, h⟩ := Reading.bind_eq_done.1 h
      obtain ⟨characters', hread, rfl⟩ := Reading.map_eq_done.1 h
      rw [hescape, Reading.bind_done, ih hmore hread]
      rfl
    · split at h
      · cases h
      · next hcontrol =>
        obtain ⟨characters', hread, rfl⟩ := Reading.map_eq_done.1 h
        rw [if_neg hcontrol, ih hmore hread]
        rfl

/-- **A string does not depend on the fuel** with which it is read. -/
theorem readString_agree {fuel fuel' : Nat} {s s' : String} (h : readString fuel text = .done s rest)
    (h' : readString fuel' text = .done s' rest') : s = s' ∧ rest = rest' := by
  obtain ⟨characters, hread, rfl⟩ := Reading.map_eq_done.1 h
  obtain ⟨characters', hread', rfl⟩ := Reading.map_eq_done.1 h'
  -- both are read with the sum of the two fuels
  have heq := (readCharacters_of_le (Nat.le_add_right fuel fuel') hread).symm.trans
    (readCharacters_of_le (Nat.le_add_left fuel' fuel) hread')
  cases heq
  exact ⟨rfl, rfl⟩

/-! ## Values end in one place

A number is read in parts, and passed over in the same parts; nothing is read after them.  With
that, the lemmas on lists and objects apply to the reader of values, level by level. -/

theorem skipDigits_of_takeWhile {c : Char} {more : List Char}
    (h : text.takeWhile isDigit = c :: more) : skipDigits text = .done () (text.dropWhile isDigit) := by
  rw [skipDigits, h]
  rfl

/-- A point has digits after it; without a point nothing is read. -/
theorem skipFraction_of_readFraction {fraction : Option (List Char)}
    (h : readFraction text = .done fraction rest) : skipFraction text = .done () rest := by
  rw [readFraction.eq_def] at h
  split at h
  · dsimp only at h
    split at h
    · split at h <;> cases h
    · next hdigits =>
      cases h
      rw [skipFraction, skipDigits, if_neg hdigits]
  · next hpoint =>
    cases h
    rw [skipFraction.eq_def]
    split
    · next text' => exact absurd rfl (hpoint text')
    · rfl

theorem skipDigits_of_readExponentDigits {negative : Bool} {exponent : Option (Bool × List Char)}
    (h : readExponentDigits negative text = .done exponent rest) : skipDigits text = .done () rest := by
  rw [readExponentDigits] at h
  split at h
  · split at h <;> cases h
  · next hdigits =>
    cases h
    rw [skipDigits, if_neg hdigits]

/-- The letter may be followed by a sign of either kind, or by none. -/
theorem skipExponent_of_readExponent {exponent : Option (Bool × List Char)}
    (h : readExponent text = .done exponent rest) : skipExponent text = .done () rest := by
  cases text with
  | nil =>
    cases h
    rfl
  | cons c text =>
    rw [readExponent.eq_def] at h
    dsimp only at h
    split at h
    · next hletter =>
      split at h
      · rw [skipExponent, if_pos hletter]
        exact skipDigits_of_readExponentDigits h
      · rw [skipExponent, if_pos hletter]
        exact skipDigits_of_readExponentDigits h
      · next hplus hminus =>
        rw [skipExponent, if_pos hletter]
        · exact skipDigits_of_readExponentDigits h
        · exact hplus
        · exact hminus
    · next hletter =>
      cases h
      rw [skipExponent.eq_def]
      exact if_neg hletter

/-- The digits before the point are passed over: a zero among others is alone. -/
theorem skipNumber_of_readWhole {whole : List Char} (h : readWhole text = .done whole rest) :
    skipNumber text = (skipFraction rest).bind fun _ text => skipExponent text := by
  rw [readWhole] at h
  split at h
  · split at h <;> cases h
  · cases h
  · next hempty hzero =>
    cases h
    rw [skipNumber.eq_def]
    dsimp only
    split
    -- a zero with a digit behind it was refused, and the others are passed over as they are read
    · next _ d after =>
      split
      · next hd =>
        refine absurd ?_ (hzero d (after.takeWhile isDigit))
        rw [List.takeWhile_cons_of_pos (by decide), List.takeWhile_cons_of_pos hd]
      · next hd =>
        rw [List.dropWhile_cons_of_pos (by decide), List.dropWhile_cons_of_neg hd, Reading.bind_done]
    · obtain ⟨c, more, heq⟩ := List.exists_cons_of_ne_nil hempty
      rw [skipDigits_of_takeWhile heq, Reading.bind_done]

/-- **A numeral is passed over in the parts in which it is read.** -/
theorem skipNumber_of_readNumeral {negative : Bool} {n : Numeral}
    (h : readNumeral negative text = .done n rest) : skipNumber text = .done () rest := by
  obtain ⟨whole, afterWhole, hwhole, h⟩ := Reading.bind_eq_done.1 h
  obtain ⟨fraction, afterFraction, hfraction, h⟩ := Reading.bind_eq_done.1 h
  obtain ⟨exponent, hexponent, -⟩ := Reading.map_eq_done.1 h
  rw [skipNumber_of_readWhole hwhole, skipFraction_of_readFraction hfraction]
  exact skipExponent_of_readExponent hexponent

/-- A floating point number is made from its numeral without looking at the text. -/
theorem rest_eq_of_float {n : Numeral} {x : Binary64} (h : n.float rest = .done x rest') :
    rest' = rest := by
  rw [Numeral.float] at h
  split at h
  split at h
  split at h
  split at h
  · split at h
    · cases h
    · cases h
      rfl
  · dsimp only at h
    split at h
    · cases h
      rfl
    · cases h

theorem rest_eq_of_number {n : Numeral} {value : Number} (h : n.number rest = .done value rest') :
    rest' = rest := by
  rw [Numeral.number] at h
  split at h
  · cases h
    rfl
  · obtain ⟨x, hfloat, -⟩ := Reading.map_eq_done.1 h
    exact rest_eq_of_float hfloat

theorem skipNumber_of_readNumber {negative : Bool} {value : Number}
    (h : readNumber negative text = .done value rest) : skipNumber text = .done () rest := by
  obtain ⟨n, mid, hnumeral, hvalue⟩ := Reading.bind_eq_done.1 h
  exact rest_eq_of_number hvalue ▸ skipNumber_of_readNumeral hnumeral

/-- Both look at the first character to know what to do. -/
theorem skipScalar_of_readScalar {fuel : Nat} {c : Char} {v : Json}
    (h : readScalar fuel c text = .done v rest) : skipScalar c text = .done () rest := by
  rw [readScalar] at h
  rw [skipScalar]
  split_ifs at h ⊢
  · obtain ⟨_, hword, -⟩ := Reading.map_eq_done.1 h
    exact hword
  · obtain ⟨_, hword, -⟩ := Reading.map_eq_done.1 h
    exact hword
  · obtain ⟨_, hword, -⟩ := Reading.map_eq_done.1 h
    exact hword
  · obtain ⟨s, hstring, -⟩ := Reading.map_eq_done.1 h
    exact skipString_of_readString hstring
  · obtain ⟨n, hnumber, -⟩ := Reading.map_eq_done.1 h
    exact skipNumber_of_readNumber hnumber
  · obtain ⟨n, hnumber, -⟩ := Reading.map_eq_done.1 h
    exact skipNumber_of_readNumber hnumber
  · cases h

/-- **A value that is read is passed over**, by induction on the levels that may still be opened. -/
theorem delimits_readValue (fuel levels : Nat) : Delimits (readValue fuel levels) := by
  induction levels with
  -- without levels no list and no object is opened, so what is read is a scalar
  | zero =>
    intro text v rest h
    rw [readValue, readValueWith] at h
    split at h
    · cases h
    · cases h
    · cases h
    · next hlist hobject hstart =>
      exact .of_step (.scalar hstart hlist hobject (skipScalar_of_readScalar h)) .refl
  | succ levels ih =>
    intro text v rest h
    rw [readValue, readValueWith] at h
    split at h
    · cases h
    · next hopen =>
      obtain ⟨items, hitems, -⟩ := Reading.map_eq_done.1 h
      refine .of_skipBlanks ?_
      rw [hopen]
      exact steps_of_readItems ih hitems
    · next hopen =>
      obtain ⟨members, hmembers, -⟩ := Reading.map_eq_done.1 h
      refine .of_skipBlanks ?_
      rw [hopen]
      exact steps_of_readMembers ih hmembers
    · next hlist hobject hstart =>
      exact .of_step (.scalar hstart hlist hobject (skipScalar_of_readScalar h)) .refl

/-! ## Two readers in step

Both readers stop at the end of a value, and that end is one place.  So they meet again after each
value, and what they have read up to there can be compared value by value. -/

/-- **A value ends in one place**: there is one function that passes over it. -/
theorem Passes.rest_eq (h : Passes text rest) (h' : Passes text rest') : rest = rest' :=
  (Reading.done.inj ((skipValue_eq_done_iff.2 h).symm.trans (skipValue_eq_done_iff.2 h'))).2

/-- **Two readers see the same members of an object.**  The induction is on the fuel of the first;
the second may have another one. -/
theorem aligned_of_readMembers {α β : Type} {value : List Char → Reading α}
    {value' : List Char → Reading β} {R : α → β → Prop} (hvalue : Delimits value)
    (hvalue' : Delimits value')
    (hR : ∀ text v v' rest, value text = .done v rest → value' text = .done v' rest → R v v')
    {fuel fuel' : Nat} {first : Bool} {members : Table String α} {members' : Table String β}
    (h : readMembers value fuel first text = .done members rest)
    (h' : readMembers value' fuel' first text = .done members' rest') :
    Table.Aligned R members members' := by
  induction fuel generalizing fuel' first text members members' with
  | zero => cases h
  | succ fuel ih =>
    cases fuel' with
    | zero => cases h'
    | succ fuel' =>
      obtain ⟨more, atKey, hstart, h⟩ := Reading.bind_eq_done.1 h
      rw [readMembers, hstart, Reading.bind_done] at h'
      cases more with
      | false =>
        cases h
        cases h'
        exact .nil
      | true =>
        rw [if_pos rfl] at h h'
        obtain ⟨key, afterKey, hkey, h⟩ := Reading.bind_eq_done.1 h
        obtain ⟨key', afterKey', hkey', h'⟩ := Reading.bind_eq_done.1 h'
        obtain ⟨rfl, rfl⟩ := readString_agree hkey hkey'
        obtain ⟨_, atValue, hcolon, h⟩ := Reading.bind_eq_done.1 h
        rw [hcolon, Reading.bind_done] at h'
        obtain ⟨v, afterValue, hv, h⟩ := Reading.bind_eq_done.1 h
        obtain ⟨v', afterValue', hv', h'⟩ := Reading.bind_eq_done.1 h'
        -- the two readers of values have stopped at one place and go on together
        obtain rfl := (hvalue _ _ _ hv).rest_eq (hvalue' _ _ _ hv')
        obtain ⟨members, hmore, rfl⟩ := Reading.map_eq_done.1 h
        obtain ⟨members', hmore', rfl⟩ := Reading.map_eq_done.1 h'
        exact .cons ⟨rfl, hR _ _ _ _ hv hv'⟩ (ih hmore hmore')

/-! ## Texts as values

The readers of strings and of objects of strings are compared with the reader of values.  Where the
former read something, the first character has told the latter what to read. -/

/-- A text is the value that holds it. -/
theorem eq_string_of_readText {fuel levels : Nat} {s : String} {v : Json}
    (h : readText text = .done s rest) (h' : readValue fuel levels text = .done v rest') :
    v = .string s := by
  rw [readText] at h
  split at h
  · next characters hquote =>
    -- the quote is seen by the reader of values as well, whatever levels it may open
    have hscalar : readValue fuel levels text = (readString fuel characters).map string := by
      cases levels <;> simp only [readValue, readValueWith, hquote] <;> rfl
    rw [hscalar] at h'
    obtain ⟨s', hread, rfl⟩ := Reading.map_eq_done.1 h'
    rw [(readString_agree h hread).1]
  · exact absurd h refuse_ne_done

/-- **An object of texts is the value that holds these texts**, of a repeated key the last one. -/
theorem eq_object_of_readTexts {fuel levels : Nat} {entries : Table String String} {v : Json}
    (h : readTexts text = .done entries rest) (h' : readValue fuel levels text = .done v rest') :
    v = .object (Table.putAll [] (entries.map fun entry => (entry.1, .string entry.2))) := by
  rw [readTexts] at h
  split at h
  · next hopen =>
    cases levels with
    | zero =>
      simp only [readValue, readValueWith, hopen] at h'
      cases h'
    | succ levels =>
      simp only [readValue, readValueWith, hopen] at h'
      obtain ⟨members, hmembers, rfl⟩ := Reading.map_eq_done.1 h'
      have haligned : Table.Aligned (fun s v => v = string s) entries members :=
        aligned_of_readMembers delimits_readText (delimits_readValue fuel levels)
          (fun _ _ _ _ => eq_string_of_readText) h hmembers
      rw [Table.aligned_iff_eq_map.1 haligned]
  · exact absurd h refuse_ne_done

/-! ## Values under the keys of an outline

An outline is made by a reader, too: one that gives where a value starts.  In step with the reader
of values it shows from which text each value of an object is read. -/

/-- **The members of a whole text are read from its outline.** -/
theorem exists_aligned_of_outline {keys : List String} {text : String} {rest : List Char}
    {extents : Table String (List Char)} {members : Table String Json}
    (houtline : outline keys text.toList = .done extents rest)
    (hparse : parse text = .ok (.object members)) :
    ∃ values, members = Table.putAll [] values ∧ Table.Aligned (fun extent v =>
      ∃ fuel levels rest, readValue fuel levels extent = .done v rest) extents values := by
  -- the outline has found an opening brace, and the reader of values has found the same
  obtain ⟨mid, -, hread, -⟩ := exists_read_of_readWhole? hparse
  rw [outline] at houtline
  rw [nestingLimit, readValue, readValueWith] at hread
  split at houtline
  · next hopen =>
    simp only [hopen] at hread
    obtain ⟨values, hvalues, heq⟩ := Reading.map_eq_done.1 hread
    cases heq
    refine ⟨values, rfl, aligned_of_readMembers delimits_readExtent (delimits_readValue _ _) ?_
      houtline hvalues⟩
    intro extent extent' v mid' hextent hv
    obtain ⟨_, -, rfl⟩ := Reading.map_eq_done.1 hextent
    exact ⟨_, _, _, hv⟩
  · next hopen =>
    simp only [hopen] at hread
    obtain ⟨items, -, heq⟩ := Reading.map_eq_done.1 hread
    cases heq
  · exact absurd houtline refuse_ne_done

end RpcReference.Json
