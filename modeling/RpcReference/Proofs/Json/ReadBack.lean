import RpcReference.Proofs.Json.Floats
import RpcReference.Proofs.Json.Values
import RpcReference.Proofs.Table

/-!
# Reading back what was written

A written value is read as itself, but for its floating point numbers (`Json.reread`).  The one
thing that can go wrong is its nesting.

* `Reading.Gives` — a reading that succeeds under a condition and otherwise finds the text nested
  too deep.
* `Json.Proper.readsBack` — **reading a written value succeeds exactly if the value is not nested
  more deeply than the reader allows**, wherever the text stands and whatever its blanks.
* `Json.parse_spaced` — the same for whole texts, with `Json.parse_pretty` and `Json.parse_compact`
  for the two ways of writing.
-/

set_option autoImplicit false

namespace RpcReference

/-! ## Readings that depend on the nesting

The depth of a value is known only after all of it has been read, but the reader refuses a list or
an object as soon as one too many is open.  So "succeeds exactly if" cannot be shown for the success
alone and then for the failure alone: each step of an induction needs both, and `Gives` carries
both.

The rules below are those of a conjunction.  A reading that goes on after another one needs the
conditions of both, and a failure of either is the one failure that is allowed. -/

namespace Reading

variable {α β : Type}

/-- A reading that gives a value if the text is not nested too deep. -/
structure Gives (reading : Reading α) (fits : Prop) (value : α) (rest : List Char) : Prop where
  /-- The value is read. -/
  done_of_fits : fits → reading = done value rest
  /-- The nesting is the only fault. -/
  fault_of_not_fits : ¬ fits → ∃ f, reading = fault f ∧ f.cause = .tooDeep

theorem gives_done (value : α) (rest : List Char) : (done value rest).Gives True value rest :=
  ⟨fun _ => rfl, fun h => absurd trivial h⟩

/-- The condition may be replaced by an equivalent one; that is where depths of parts become the
depth of the whole. -/
theorem Gives.congr {reading : Reading α} {p q : Prop} {value : α} {rest : List Char}
    (h : reading.Gives p value rest) (hpq : p ↔ q) : reading.Gives q value rest := by
  rwa [propext hpq] at h

/-- Two readings one after the other need the conditions of both. -/
theorem Gives.bind {reading : Reading α} {next : α → List Char → Reading β} {p q : Prop} {value : α}
    {value' : β} {rest rest' : List Char} (h : reading.Gives p value rest)
    (hnext : (next value rest).Gives q value' rest') :
    (reading.bind next).Gives (p ∧ q) value' rest' := by
  constructor
  · rintro ⟨hp, hq⟩
    rw [h.done_of_fits hp, bind_done]
    exact hnext.done_of_fits hq
  · intro hnot
    by_cases hp : p
    · rw [h.done_of_fits hp, bind_done]
      exact hnext.fault_of_not_fits fun hq => hnot ⟨hp, hq⟩
    · obtain ⟨f, hf, hcause⟩ := h.fault_of_not_fits hp
      exact ⟨f, by rw [hf, bind_fault], hcause⟩

theorem Gives.map {reading : Reading α} {p : Prop} {value : α} {rest : List Char}
    (h : reading.Gives p value rest) (f : α → β) : (reading.map f).Gives p (f value) rest :=
  (h.bind (gives_done (f value) rest)).congr (and_iff_left trivial)

end Reading

namespace Json

/-! ## Values that are no lists and no objects

These values are told apart by their first character, and the number of levels does not matter to
them.  For words and strings the first character is fixed.  For numbers it is a digit or a minus
sign, so it first has to be said of digits that they are none of the characters with another
meaning. -/

/-- A value that starts with another character than a blank or a bracket. -/
theorem readValue_eq_readScalar {c : Char} {rest : List Char} (fuel levels : Nat)
    (hblank : isBlank c = false) (hlist : c ≠ '[') (hobject : c ≠ '{') :
    readValue fuel levels (c :: rest) = readScalar fuel c rest := by
  have h : ∀ inner, readValueWith fuel inner (c :: rest) = readScalar fuel c rest := by
    intro inner
    rw [readValueWith, skipBlanks_cons hblank]
    split
    · next heq => cases heq
    · next heq => exact absurd (List.cons.inj heq).1 hlist
    · next heq => exact absurd (List.cons.inj heq).1 hobject
    · next heq =>
      obtain ⟨rfl, rfl⟩ := List.cons.inj heq
      rfl
  cases levels with
  | zero => exact h none
  | succ levels => exact h _

/-- Digits are none of the other characters with a meaning. -/
theorem ne_of_isDigit {c d : Char} (h : isDigit c = true) (hd : isDigit d = false) : c ≠ d := by
  rintro rfl
  rw [h] at hd
  cases hd

theorem readScalar_digit {c : Char} (h : isDigit c = true) (fuel : Nat) (rest : List Char) :
    readScalar fuel c rest = (readNumber false (c :: rest)).map number := by
  simp only [readScalar, ne_of_isDigit h (d := 'n') (by decide), ne_of_isDigit h (d := 't') (by decide),
    ne_of_isDigit h (d := 'f') (by decide), ne_of_isDigit h (d := '"') (by decide),
    ne_of_isDigit h (d := '-') (by decide), if_false, h, if_true]

theorem isBlank_of_isDigit {c : Char} (h : isDigit c = true) : isBlank c = false := by
  simp only [isBlank, ne_of_isDigit h (d := ' ') (by decide), ne_of_isDigit h (d := '\t') (by decide),
    ne_of_isDigit h (d := '\n') (by decide), ne_of_isDigit h (d := '\r') (by decide), decide_false,
    Bool.or_self]

/-- The text of a numeral starts with a digit. -/
theorem Numeral.WellFormed.characters_eq_cons {n : Numeral} (h : n.WellFormed) :
    ∃ c more, n.characters = c :: more ∧ isDigit c = true := by
  cases hwhole : n.whole with
  | nil => exact absurd hwhole h.whole_ne_nil
  | cons c more =>
    simp only [Numeral.characters, hwhole, List.cons_append]
    exact ⟨c, _, rfl, h.isDigit_whole c (hwhole ▸ List.mem_cons_self)⟩

/-- A number is read where a value is expected if its numeral is. -/
theorem readValue_number {n : Numeral} {x : Number} {rest : List Char} (fuel levels : Nat)
    (h : n.WellFormed) (hread : readNumber n.negative (n.characters ++ rest) = .done x rest) :
    readValue fuel levels ((if n.negative then ['-'] else []) ++ n.characters ++ rest) =
      .done (number x) rest := by
  obtain ⟨c, more, hchars, hdigit⟩ := h.characters_eq_cons
  cases hneg : n.negative with
  | true =>
    rw [hneg] at hread
    rw [if_pos rfl, List.append_assoc, List.singleton_append,
      readValue_eq_readScalar fuel levels (by decide) (by decide) (by decide)]
    change (readNumber true _).map number = _
    rw [hread, Reading.map_done]
  | false =>
    rw [hneg] at hread
    rw [if_neg Bool.false_ne_true, List.nil_append]
    rw [hchars, List.cons_append] at hread ⊢
    rw [readValue_eq_readScalar fuel levels (isBlank_of_isDigit hdigit)
      (ne_of_isDigit hdigit (by decide)) (ne_of_isDigit hdigit (by decide)),
      readScalar_digit hdigit, hread, Reading.map_done]

/-- An integer that is in range is read as itself. -/
theorem readValue_numberCharacters_int {n : Int} {rest : List Char} (fuel levels : Nat)
    (h : IsReadableInt n) (hrest : EndsNumber rest) :
    readValue fuel levels (numberCharacters (.int n) ++ rest) = .done (number (.int n)) rest := by
  have hread := readValue_number fuel levels
    (Numeral.wellFormed_ofNat (decide (n < 0)) n.natAbs) (readNumber_ofNat h hrest)
  rw [numberCharacters, intCharacters_eq]
  simpa only [Numeral.ofNat, decide_eq_true_eq] using hread

/-- A floating point number is read as some number, which may be another one. -/
theorem readValue_numberCharacters_float {x : Binary64} {rest : List Char} (fuel levels : Nat)
    (hrest : EndsNumber rest) :
    readValue fuel levels (numberCharacters (.float x) ++ rest) =
      .done (number (.float (reread x))) rest := by
  have hnumber := readNumber_floatNumeral x hrest
  rw [← negative_floatNumeral] at hnumber
  have hread := readValue_number fuel levels (isFloat_floatNumeral x).wellFormed hnumber
  rwa [negative_floatNumeral, ← text_eq] at hread

/-- A string is read as itself. -/
theorem readValue_stringCharacters {s : String} {fuel : Nat} (levels : Nat)
    (h : s.toList.length < fuel) (rest : List Char) :
    readValue fuel levels (stringCharacters s ++ rest) = .done (string s) rest := by
  rw [stringCharacters, List.cons_append, List.cons_append, List.append_assoc, List.singleton_append,
    readValue_eq_readScalar fuel levels (by decide) (by decide) (by decide)]
  change (readString fuel _).map string = _
  rw [readString_stringCharacters h, Reading.map_done]

/-! ## The first character of a value

After an opening bracket the reader looks at the next character to see whether the list is empty,
and after a comma to see whether it ends in one.  Both looks fail to find what they look for because
of the character that a written value starts with, so all that matters about it is which characters
it is
not. -/

/-- Whether a character can be the first of a written value: no blank, and nothing that ends or
separates values. -/
def StartsValue (c : Char) : Prop := isBlank c = false ∧ c ≠ ']' ∧ c ≠ '}' ∧ c ≠ ','

instance (c : Char) : Decidable (StartsValue c) :=
  inferInstanceAs (Decidable (isBlank c = false ∧ c ≠ ']' ∧ c ≠ '}' ∧ c ≠ ','))

theorem startsValue_of_isDigit {c : Char} (h : isDigit c = true) : StartsValue c :=
  ⟨isBlank_of_isDigit h, ne_of_isDigit h (by decide), ne_of_isDigit h (by decide),
    ne_of_isDigit h (by decide)⟩

/-- A number starts with a digit or with its sign. -/
theorem numberCharacters_eq_cons (n : Number) :
    ∃ c more, numberCharacters n = c :: more ∧ StartsValue c := by
  have hsigned : ∀ (negative : Bool) {numeral : Numeral}, numeral.WellFormed →
      ∃ c more, (if negative then ['-'] else []) ++ numeral.characters = c :: more ∧
        StartsValue c := by
    intro negative numeral h
    cases negative with
    | true => exact ⟨'-', numeral.characters, rfl, by decide⟩
    | false =>
      obtain ⟨c, more, hchars, hdigit⟩ := h.characters_eq_cons
      exact ⟨c, more, hchars, startsValue_of_isDigit hdigit⟩
  cases n with
  | int n =>
    have h := hsigned (decide (n < 0)) (Numeral.wellFormed_ofNat (decide (n < 0)) n.natAbs)
    rw [numberCharacters, intCharacters_eq]
    simpa only [decide_eq_true_eq] using h
  | float x =>
    rw [numberCharacters, text_eq]
    exact hsigned x.negative (isFloat_floatNumeral x).wellFormed

/-- Every value starts with a character by which the reader knows what it is. -/
theorem spaced_eq_cons (s : Spacing) (level : Nat) (v : Json) :
    ∃ c more, spaced s level v = c :: more ∧ StartsValue c := by
  cases v with
  | null => exact ⟨_, _, rfl, by decide⟩
  | bool b => cases b <;> exact ⟨_, _, rfl, by decide⟩
  | number n => exact numberCharacters_eq_cons n
  | string text => exact ⟨'"', _, rfl, by decide⟩
  | array items => cases items <;> exact ⟨_, _, rfl, by decide⟩
  | object members =>
    cases members with
    | nil => exact ⟨_, _, rfl, by decide⟩
    | cons member members => exact ⟨_, _, rfl, by decide⟩

/-! ## What stands between values

Between two values stand a comma, a bracket and blanks, in an order that the spacing fixes.  The
lemmas here say what the reader does with each, for any blanks; only the blanks that the writer puts
there are needed later, but nothing depends on which they are.

A number has no end of its own: it ends where something follows that cannot go on with it.  That is
the one fact about what follows a value that its reading rests on, and it has to hold of everything
that the writer puts after one. -/

/-- Nothing between values goes on with a number. -/
theorem endsNumber_append {blanks rest : List Char} (h : ∀ c ∈ blanks, isBlank c = true)
    (hrest : EndsNumber rest) : EndsNumber (blanks ++ rest) := by
  cases blanks with
  | nil => exact hrest
  | cons c blanks =>
    refine endsNumber_cons ?_
    have hc := h c List.mem_cons_self
    refine ⟨?_, ?_, ?_, ?_⟩
    · rw [← Bool.not_eq_true]
      exact fun hdigit => by simp [isBlank_of_isDigit hdigit] at hc
    · rintro rfl
      exact absurd hc (by decide)
    · rintro rfl
      exact absurd hc (by decide)
    · rintro rfl
      exact absurd hc (by decide)

/-- What follows an item of a list is a comma, or blanks and the closing bracket. -/
theorem endsNumber_spacedItems (s : Spacing) (level : Nat) (items : List Json) (rest : List Char) :
    EndsNumber (spacedItems s level items ++ rest) := by
  cases items with
  | nil =>
    rw [spacedItems, List.append_assoc]
    exact endsNumber_append (s.isBlank_line level) (endsNumber_cons (by decide))
  | cons item items => exact endsNumber_cons (by decide)

/-- What follows a member of an object is alike. -/
theorem endsNumber_spacedMembers (s : Spacing) (level : Nat) (members : List (String × Json))
    (rest : List Char) : EndsNumber (spacedMembers s level members ++ rest) := by
  cases members with
  | nil =>
    rw [spacedMembers, List.append_assoc]
    exact endsNumber_append (s.isBlank_line level) (endsNumber_cons (by decide))
  | cons member members => exact endsNumber_cons (by decide)

section Between

variable {blanks : List Char} (h : ∀ c ∈ blanks, isBlank c = true)

include h

/-- The first character of a written value is not that of the end. -/
theorem readItemStart_first {c : Char} (hc : StartsValue c) (rest : List Char) :
    readItemStart true (blanks ++ c :: rest) = .done true (c :: rest) := by
  rw [readItemStart, skipBlanks_append h, skipBlanks_cons hc.1]
  split
  · next heq => cases heq
  · next heq => exact absurd (List.cons.inj heq).1 hc.2.1
  · next heq => exact absurd (List.cons.inj heq).1 hc.2.2.2
  · rfl

/-- After a comma another item has to follow, and does. -/
theorem readItemStart_comma {c : Char} (hc : StartsValue c) (rest : List Char) :
    readItemStart false (',' :: (blanks ++ c :: rest)) = .done true (c :: rest) := by
  rw [readItemStart, skipBlanks_cons (by decide)]
  simp only [Bool.false_eq_true, if_false, skipBlanks_append h, skipBlanks_cons hc.1]
  split
  · next heq => exact absurd (List.cons.inj heq).1 hc.2.1
  · rfl

theorem readItemStart_end (first : Bool) (rest : List Char) :
    readItemStart first (blanks ++ ']' :: rest) = .done false rest := by
  rw [readItemStart, skipBlanks_append h, skipBlanks_cons (by decide)]
  rfl

theorem readKeyStart_first (rest : List Char) :
    readKeyStart true (blanks ++ '"' :: rest) = .done true rest := by
  rw [readKeyStart, skipBlanks_append h, skipBlanks_cons (by decide)]
  rfl

theorem readKeyStart_comma (rest : List Char) :
    readKeyStart false (',' :: (blanks ++ '"' :: rest)) = .done true rest := by
  rw [readKeyStart, skipBlanks_cons (by decide)]
  simp only [Bool.false_eq_true, if_false, skipBlanks_append h]
  rw [skipBlanks_cons (by decide)]
  rfl

theorem readKeyStart_end (first : Bool) (rest : List Char) :
    readKeyStart first (blanks ++ '}' :: rest) = .done false rest := by
  rw [readKeyStart, skipBlanks_append h, skipBlanks_cons (by decide)]
  rfl

/-- Blanks before a value make no difference. -/
theorem readValue_append (fuel levels : Nat) (text : List Char) :
    readValue fuel levels (blanks ++ text) = readValue fuel levels text := by
  cases levels with
  | zero => rw [readValue, readValueWith, readValueWith, skipBlanks_append h]
  | succ levels => rw [readValue, readValueWith, readValueWith, skipBlanks_append h]

end Between

/-! ## Lists and objects

The statement about values says more than that one text is read.  A value inside a list stands in
the middle of a text, with a fuel that was counted for the whole text and with fewer levels than the
whole; so the fuel, the levels, the indentation and what follows are all arbitrary.  With them fixed
the induction would not go through.

The reader and the writer both treat the first item apart from the others, but not in the same way:
the writer puts the comma before an item, the reader looks for it after one.  The lemmas on items
therefore start after an item, where the two agree. -/

/-- What is to be shown of a value, and may be assumed of the values inside it. -/
def ReadsBack (v : Json) : Prop :=
  ∀ (s : Spacing) (fuel levels level : Nat) (rest : List Char),
    (spaced s level v).length ≤ fuel → EndsNumber rest →
      (readValue fuel levels (spaced s level v ++ rest)).Gives (v.depth ≤ levels)
        (v.mapFloats reread) rest

theorem stringCharacters_append (text : String) (rest : List Char) :
    stringCharacters text ++ rest =
      '"' :: (text.toList.flatMap escapedCharacter ++ '"' :: rest) := by
  rw [stringCharacters, List.cons_append, List.cons_append, List.append_assoc, List.singleton_append]

theorem length_lt_length_stringCharacters (text : String) :
    text.toList.length + 2 ≤ (stringCharacters text).length := by
  have := length_le_length_flatMap_escapedCharacter text.toList
  rw [stringCharacters, List.cons_append, List.length_cons, List.length_append,
    List.length_singleton]
  omega

section Containers

variable {s : Spacing} {level levels fuel whole : Nat} {rest : List Char}

/-- An item and what follows it. -/
theorem gives_item {item : Json} {items : List Json} (hitem : item.ReadsBack)
    (hlength : (spaced s (level + 1) item).length ≤ whole)
    (hitems : (readItems (readValue whole levels) fuel false
      (spacedItems s level items ++ rest)).Gives (∀ item ∈ items, item.depth ≤ levels)
        (items.map (mapFloats reread)) rest) :
    ((readValue whole levels (spaced s (level + 1) item ++ (spacedItems s level items ++ rest))).bind
      fun x text => (readItems (readValue whole levels) fuel false text).map (x :: ·)).Gives
        (∀ i ∈ item :: items, i.depth ≤ levels) ((item :: items).map (mapFloats reread)) rest := by
  have hread := hitem s whole levels (level + 1) _ hlength
    (endsNumber_spacedItems s level items rest)
  exact (hread.bind (hitems.map _)).congr
    (List.forall_mem_cons (p := fun i : Json => i.depth ≤ levels)).symm

/-- The items after the first one, by induction on them. -/
theorem gives_spacedItems {items : List Json} (hitems : ∀ item ∈ items, item.ReadsBack)
    (hwhole : fuel ≤ whole) (hfuel : (spacedItems s level items).length ≤ fuel) :
    (readItems (readValue whole levels) fuel false (spacedItems s level items ++ rest)).Gives
      (∀ item ∈ items, item.depth ≤ levels) (items.map (mapFloats reread)) rest := by
  induction items generalizing fuel with
  | nil =>
    rw [spacedItems, List.length_append, List.length_singleton] at hfuel
    obtain ⟨fuel, rfl⟩ := Nat.exists_eq_succ_of_ne_zero (n := fuel) (by omega)
    rw [spacedItems, List.append_assoc, List.singleton_append, readItems,
      readItemStart_end (s.isBlank_line level), Reading.bind_done]
    exact (Reading.gives_done _ _).congr (by simp)
  | cons item items ih =>
    -- a comma is in front of the item, so there is fuel for one more round
    rw [spacedItems, List.length_cons, List.length_append, List.length_append] at hfuel
    obtain ⟨fuel, rfl⟩ := Nat.exists_eq_succ_of_ne_zero (n := fuel) (by omega)
    have htail := ih (fun i hi => hitems i (List.mem_cons_of_mem _ hi)) (by omega : fuel ≤ whole)
      (by omega)
    have hboth := gives_item (hitems item List.mem_cons_self) (by omega) htail
    obtain ⟨c, more, hchars, hc⟩ := spaced_eq_cons s (level + 1) item
    rw [spacedItems, List.cons_append, List.append_assoc, List.append_assoc]
    -- the reader has to see the first character of the item to know that the list goes on
    rw [hchars, List.cons_append] at hboth ⊢
    rw [readItems, readItemStart_comma (s.isBlank_line (level + 1)) hc, Reading.bind_done]
    exact hboth

/-- A member after its opening quote, and what follows it. -/
theorem gives_member {key : String} {value : Json} {members : List (String × Json)}
    (hvalue : value.ReadsBack) (hkey : key.toList.length < fuel)
    (hlength : (spaced s (level + 1) value).length ≤ whole)
    (hmembers : (readMembers (readValue whole levels) fuel false
      (spacedMembers s level members ++ rest)).Gives (∀ member ∈ members, member.2.depth ≤ levels)
        (members.map fun member => (member.1, member.2.mapFloats reread)) rest) :
    ((readString fuel (key.toList.flatMap escapedCharacter ++ '"' :: ':' ::
        (s.afterColon ++ (spaced s (level + 1) value ++ (spacedMembers s level members ++ rest))))).bind
      fun key text => (readColon text).bind fun _ text =>
        (readValue whole levels text).bind fun v text =>
          (readMembers (readValue whole levels) fuel false text).map ((key, v) :: ·)).Gives
        (∀ member ∈ (key, value) :: members, member.2.depth ≤ levels)
        (((key, value) :: members).map fun member => (member.1, member.2.mapFloats reread)) rest := by
  have hread := hvalue s whole levels (level + 1) _ hlength
    (endsNumber_spacedMembers s level members rest)
  -- key and colon are read as they are; only the value after them can be nested too deep
  rw [readString_stringCharacters hkey, Reading.bind_done, readColon, skipBlanks_cons (by decide)]
  change ((readValue whole levels _).bind _).Gives _ _ _
  rw [readValue_append s.isBlank_afterColon]
  exact (hread.bind (hmembers.map _)).congr
    (List.forall_mem_cons (p := fun m : String × Json => m.2.depth ≤ levels) (a := (key, value))).symm

/-- The members after the first one, by induction on them. -/
theorem gives_spacedMembers {members : List (String × Json)}
    (hmembers : ∀ member ∈ members, member.2.ReadsBack) (hwhole : fuel ≤ whole)
    (hfuel : (spacedMembers s level members).length ≤ fuel) :
    (readMembers (readValue whole levels) fuel false (spacedMembers s level members ++ rest)).Gives
      (∀ member ∈ members, member.2.depth ≤ levels)
      (members.map fun member => (member.1, member.2.mapFloats reread)) rest := by
  induction members generalizing fuel with
  | nil =>
    rw [spacedMembers, List.length_append, List.length_singleton] at hfuel
    obtain ⟨fuel, rfl⟩ := Nat.exists_eq_succ_of_ne_zero (n := fuel) (by omega)
    rw [spacedMembers, List.append_assoc, List.singleton_append, readMembers,
      readKeyStart_end (s.isBlank_line level), Reading.bind_done]
    exact (Reading.gives_done _ _).congr (by simp)
  | cons member members ih =>
    obtain ⟨key, value⟩ := member
    have hkey := length_lt_length_stringCharacters key
    simp only [spacedMembers, List.length_cons, List.length_append] at hfuel
    obtain ⟨fuel, rfl⟩ := Nat.exists_eq_succ_of_ne_zero (n := fuel) (by omega)
    have hvalue : value.ReadsBack := hmembers _ List.mem_cons_self
    have htail := ih (fun m hm => hmembers m (List.mem_cons_of_mem _ hm)) (by omega : fuel ≤ whole)
      (by omega)
    have hboth := gives_member hvalue (by omega : key.toList.length < fuel) (by omega) htail
    simp only [spacedMembers, List.cons_append, List.append_assoc]
    rw [stringCharacters_append, readMembers, readKeyStart_comma (s.isBlank_line (level + 1)),
      Reading.bind_done]
    exact hboth

end Containers

/-! ## All values

Where no level is left, an opening bracket is the fault that was announced.  Otherwise one level is
spent on the bracket, and the depth of a list or an object is at most the number of levels exactly
if the depths of its parts are at most one less. -/

/-- A list in a place where one may be opened. -/
theorem readsBack_array {items : List Json} (h : ∀ item ∈ items, item.ReadsBack) :
    (array items).ReadsBack := by
  intro s fuel levels level rest hfuel hrest
  rw [mapFloats_array]
  cases levels with
  | zero =>
    refine ⟨fun hdepth => by simp [depth] at hdepth, fun _ => ?_⟩
    cases items <;> exact ⟨_, rfl, rfl⟩
  | succ levels =>
    refine Reading.Gives.congr ?_ depth_array_le_succ_iff.symm
    cases items with
    | nil =>
      rw [spaced, List.length_cons] at hfuel
      obtain ⟨fuel, rfl⟩ := Nat.exists_eq_succ_of_ne_zero (n := fuel) (by omega)
      exact (Reading.gives_done _ _).congr (by simp)
    | cons item items =>
      rw [spaced, List.length_cons, List.length_append, List.length_append] at hfuel
      obtain ⟨fuel, rfl⟩ := Nat.exists_eq_succ_of_ne_zero (n := fuel) (by omega)
      have htail : (readItems (readValue (fuel + 1) levels) fuel false
          (spacedItems s level items ++ rest)).Gives (∀ i ∈ items, i.depth ≤ levels)
            (items.map (mapFloats reread)) rest :=
        gives_spacedItems (fun i hi => h i (List.mem_cons_of_mem _ hi)) (Nat.le_succ fuel) (by omega)
      have hboth := gives_item (h item List.mem_cons_self) (by omega) htail
      obtain ⟨c, more, hchars, hc⟩ := spaced_eq_cons s (level + 1) item
      rw [spaced, List.cons_append, List.append_assoc, List.append_assoc]
      rw [hchars, List.cons_append] at hboth ⊢
      refine Reading.Gives.map ?_ array
      rw [readItems, readItemStart_first (s.isBlank_line (level + 1)) hc, Reading.bind_done]
      exact hboth

/-- An object in a place where one may be opened. -/
theorem readsBack_object {members : List (String × Json)} (hnodup : (Table.keys members).Nodup)
    (h : ∀ member ∈ members, member.2.ReadsBack) : (object members).ReadsBack := by
  intro s fuel levels level rest hfuel hrest
  rw [mapFloats_object]
  cases levels with
  | zero =>
    refine ⟨fun hdepth => by simp [depth] at hdepth, fun _ => ?_⟩
    cases members <;> exact ⟨_, rfl, rfl⟩
  | succ levels =>
    refine Reading.Gives.congr ?_ depth_object_le_succ_iff.symm
    have hkeys : Table.keys (members.map fun member => (member.1, member.2.mapFloats reread)) =
        Table.keys members := by
      simp [Table.keys, Function.comp_def]
    -- the reader puts the members into a table, which keeps them as they are because no key is
    -- there twice
    have hputAll := Table.putAll_nil (hkeys ▸ hnodup)
    cases members with
    | nil =>
      rw [spaced, List.length_cons] at hfuel
      obtain ⟨fuel, rfl⟩ := Nat.exists_eq_succ_of_ne_zero (n := fuel) (by omega)
      exact (Reading.gives_done _ _).congr (by simp)
    | cons member members =>
      obtain ⟨key, value⟩ := member
      have hkey := length_lt_length_stringCharacters key
      simp only [spaced, List.length_cons, List.length_append] at hfuel
      obtain ⟨fuel, rfl⟩ := Nat.exists_eq_succ_of_ne_zero (n := fuel) (by omega)
      have hvalue : value.ReadsBack := h _ List.mem_cons_self
      have htail : (readMembers (readValue (fuel + 1) levels) fuel false
          (spacedMembers s level members ++ rest)).Gives
            (∀ member ∈ members, member.2.depth ≤ levels)
            (members.map fun member => (member.1, member.2.mapFloats reread)) rest :=
        gives_spacedMembers (fun m hm => h m (List.mem_cons_of_mem _ hm)) (Nat.le_succ fuel) (by omega)
      have hboth := gives_member hvalue (by omega : key.toList.length < fuel) (by omega) htail
      simp only [spaced, List.cons_append, List.append_assoc]
      rw [stringCharacters_append]
      change (((readMembers (readValue (fuel + 1) levels) (fuel + 1) true _).map
        fun members => object (Table.putAll [] members))).Gives _ _ _
      rw [readMembers, readKeyStart_first (s.isBlank_line (level + 1)), Reading.bind_done, ← hputAll]
      exact hboth.map fun members => object (Table.putAll [] members)

/-- **A written value is read back**, unless it is nested too deep. -/
theorem Proper.readsBack {v : Json} (h : v.Proper) : v.ReadsBack := by
  -- a value without depth fits wherever it stands
  have hscalar : ∀ {v w : Json} {levels : Nat} {reading : Reading Json} {rest : List Char},
      v.depth = 0 → reading = .done w rest → reading.Gives (v.depth ≤ levels) w rest := by
    rintro v w levels _ rest hdepth rfl
    exact (Reading.gives_done _ _).congr (by simp [hdepth])
  induction h with
  | null =>
    intro s fuel levels level rest _ _
    exact hscalar rfl (readValue_eq_readScalar fuel levels (by decide) (by decide) (by decide))
  | bool b =>
    intro s fuel levels level rest _ _
    cases b with
    | true =>
      exact hscalar rfl (readValue_eq_readScalar fuel levels (by decide) (by decide) (by decide))
    | false =>
      exact hscalar rfl (readValue_eq_readScalar fuel levels (by decide) (by decide) (by decide))
  | int n hn =>
    intro s fuel levels level rest _ hrest
    exact hscalar rfl (readValue_numberCharacters_int fuel levels hn hrest)
  | float x =>
    intro s fuel levels level rest _ hrest
    exact hscalar rfl (readValue_numberCharacters_float fuel levels hrest)
  | string text =>
    intro s fuel levels level rest hfuel _
    have hlength := length_lt_length_stringCharacters text
    rw [spaced] at hfuel
    exact hscalar rfl (readValue_stringCharacters levels (by omega) rest)
  | array items _ ih => exact readsBack_array ih
  | object members hnodup _ ih => exact readsBack_object hnodup ih

/-! ## Whole texts

A whole text is read with the fuel of its own length, from its start, and nothing but blanks may be
left.  The text of a file ends in a line feed, which is why blanks at the end are allowed for
here. -/

/-- **The text of a value holds the value**, and is refused exactly if the value is nested too deep.
Blanks may follow. -/
theorem parse_spaced (s : Spacing) {v : Json} (h : v.Proper) {blanks : List Char}
    (hblanks : ∀ c ∈ blanks, isBlank c = true) :
    (v.depth ≤ nestingLimit →
      parse (String.ofList (spaced s 0 v ++ blanks)) = .ok (v.mapFloats reread)) ∧
    (nestingLimit < v.depth → ∃ error,
      parse (String.ofList (spaced s 0 v ++ blanks)) = .error error ∧ error.cause = .tooDeep) := by
  have hlength : (String.ofList (spaced s 0 v ++ blanks)).length + 1 =
      (spaced s 0 v).length + blanks.length + 1 := by
    rw [String.length_ofList, List.length_append]
  have hends : EndsNumber blanks := by
    simpa using endsNumber_append hblanks endsNumber_nil
  have hread := h.readsBack s ((spaced s 0 v).length + blanks.length + 1) nestingLimit 0 blanks
    (by omega) hends
  -- what is left after the value are the blanks
  have hend : readEnd blanks = .done () [] := by
    have := skipBlanks_append hblanks []
    rw [List.append_nil] at this
    rw [readEnd, this]
    rfl
  rw [parse, hlength, readWhole?, String.toList_ofList]
  refine ⟨fun hdepth => ?_, fun hdepth => ?_⟩
  · rw [hread.done_of_fits hdepth, Reading.bind_done, hend, Reading.map_done]
  · obtain ⟨f, hf, hcause⟩ := hread.fault_of_not_fits (by omega)
    rw [hf, Reading.bind_fault]
    exact ⟨_, rfl, hcause⟩

theorem parse_pretty {v : Json} (h : v.Proper) (hdepth : v.depth ≤ nestingLimit) :
    parse v.pretty = .ok (v.mapFloats reread) := by
  have hparse := (@parse_spaced .lines v h [] (by simp)).1 hdepth
  rwa [List.append_nil, spaced_lines] at hparse

theorem parse_compact {v : Json} (h : v.Proper) (hdepth : v.depth ≤ nestingLimit) :
    parse v.compact = .ok (v.mapFloats reread) := by
  have hparse := (@parse_spaced .tight v h [] (by simp)).1 hdepth
  rwa [List.append_nil, spaced_tight] at hparse

theorem parse_pretty_lineFeed {v : Json} (h : v.Proper) (hdepth : v.depth ≤ nestingLimit) :
    parse (v.pretty ++ "\n") = .ok (v.mapFloats reread) := by
  have hparse := (@parse_spaced .lines v h ['\n'] (List.forall_mem_singleton.2 (by decide))).1 hdepth
  rwa [spaced_lines, String.ofList_append] at hparse

/-- **A value without floating point numbers is what its texts hold.** -/
theorem Integral.parse_eq {v : Json} (h : v.Integral) (hproper : v.Proper)
    (hdepth : v.depth ≤ nestingLimit) {text : String}
    (htext : text ∈ [v.compact, v.pretty, v.pretty ++ "\n"]) : parse text = .ok v := by
  have hparse : parse text = .ok (v.mapFloats reread) := by
    rcases List.mem_cons.1 htext with rfl | htext
    · exact parse_compact hproper hdepth
    rcases List.mem_cons.1 htext with rfl | htext
    · exact parse_pretty hproper hdepth
    · rw [List.mem_singleton.1 htext]
      exact parse_pretty_lineFeed hproper hdepth
  rw [hparse, h.mapFloats_eq]

end Json
end RpcReference
