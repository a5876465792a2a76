import RpcReference.Json.Typed
import RpcReference.Proofs.Json.Passing
import RpcReference.Proofs.Json.Strings

/-!
# The extent of JSON values

**Where a value ends does not depend on who reads it.**  A reader that knows the type of a value
stops at the same place as the one that passes over it; a value that is read in part only is
refused.

* `Json.skipString_of_readString` — strings, also those with pairs of surrogates.
* `Json.Delimits` — readers that stop at the end of a value: `Json.delimits_readText`,
  `Json.delimits_readOptional`, `Json.delimits_readList`, `Json.delimits_readTexts`.
* `Json.ItemStart`, `Json.KeyStart` — what can be read between two items and between two members.
* `Json.steps_of_readItems`, `Json.steps_of_readMembers` — a list or an object that is read is
  passed over if its items and values are, step by step from any place in it.
-/

set_option autoImplicit false

namespace RpcReference.Json

variable {text rest : List Char}

/-! ## Strings

The reader of strings and the function that passes over them count differently.  Half of a pair of
surrogates is an escape of its own for the one that passes over, while the reader takes both halves
for one character; so what is one step for the reader may be two for the other.  The number of its
steps is therefore not the fuel of the reader, but some number that the length of the text
bounds. -/

/-- What an escape is read from is one escape, or two of them for a pair of surrogates. -/
theorem skipEscape_of_readEscape {c : Char} (h : readEscape text = .done c rest) :
    skipEscape text = .done () rest ∨
      ∃ mid, skipEscape text = .done () ('\\' :: mid) ∧ skipEscape mid = .done () rest := by
  rw [readEscape.eq_def] at h
  split at h
  case h_10 rest' =>
    obtain ⟨n, mid, hhex, h⟩ := Reading.bind_eq_done.1 h
    have hskip : skipEscape ('u' :: rest') = .done () mid := by
      rw [skipEscape, hhex, Reading.map_done]
    split at h
    · cases h
    split at h
    · rw [readTrailingSurrogate.eq_def] at h
      split at h
      · cases h
      · cases h
      · next trailing =>
        obtain ⟨n', last, hhex', h⟩ := Reading.bind_eq_done.1 h
        split at h
        · obtain ⟨-, rfl⟩ := Reading.done.inj h
          refine .inr ⟨_, hskip, ?_⟩
          rw [skipEscape, hhex', Reading.map_done]
        · cases h
      · cases h
      · cases h
    · cases h
      exact .inl hskip
  all_goals first | (cases h; exact .inl rfl) | cases h

/-- The characters of a string that is read are passed over, by induction on the fuel of the reader.
The count may exceed that fuel: a pair of surrogates is one character and two escapes. -/
theorem skipCharacters_of_readCharacters {fuel : Nat} {characters : List Char}
    (h : readCharacters fuel text = .done characters rest) :
    ∃ count, count + rest.length ≤ text.length ∧
      ∀ more, skipCharacters (more + count) text = .done () rest := by
  induction fuel generalizing text characters with
  | zero => cases h
  | succ fuel ih =>
    rw [readCharacters.eq_def] at h
    dsimp only at h
    split at h
    · cases h
    · cases h
      exact ⟨1, by simp only [List.length_cons]; omega, fun _ => rfl⟩
    · next escaped =>
      obtain ⟨c, afterEscape, hescape, h⟩ := Reading.bind_eq_done.1 h
      obtain ⟨characters', hmore, rfl⟩ := Reading.map_eq_done.1 h
      obtain ⟨count, hle, hskip⟩ := ih hmore
      -- one character of the string is one escape, or two
      rcases skipEscape_of_readEscape hescape with hone | ⟨mid, hfirst, hsecond⟩
      · have hlt := length_lt_of_skipEscape hone
        refine ⟨count + 1, by simp only [List.length_cons]; omega, fun more => ?_⟩
        rw [← Nat.add_assoc, skipCharacters, hone]
        exact hskip more
      · have hlt := length_lt_of_skipEscape hfirst
        have hlt' := length_lt_of_skipEscape hsecond
        simp only [List.length_cons] at hlt
        refine ⟨count + 2, by simp only [List.length_cons]; omega, fun more => ?_⟩
        rw [← Nat.add_assoc, skipCharacters, hfirst, Reading.bind_done, skipCharacters, hsecond]
        exact hskip more
    · next c afterFirst hquote hescape =>
      split at h
      · cases h
      · next hcontrol =>
        obtain ⟨characters', hmore, rfl⟩ := Reading.map_eq_done.1 h
        obtain ⟨count, hle, hskip⟩ := ih hmore
        refine ⟨count + 1, by simp only [List.length_cons]; omega, fun more => ?_⟩
        rw [← Nat.add_assoc, skipCharacters, if_neg hcontrol, hskip more]
        · exact hquote
        · exact hescape

/-- **A string that is read is passed over.** -/
theorem skipString_of_readString {fuel : Nat} {s : String} (h : readString fuel text = .done s rest) :
    skipString text = .done () rest := by
  obtain ⟨characters, hread, rfl⟩ := Reading.map_eq_done.1 h
  obtain ⟨count, hle, hskip⟩ := skipCharacters_of_readCharacters hread
  have hfuel : text.length + 1 = (text.length + 1 - count) + count := by omega
  rw [skipString, hfuel, hskip]

/-! ## Readers

`Delimits` is all that has to be known of the reader of a part to pass over the whole.  It says
nothing about a reader that fails: a reader that knows the type of a value may refuse one that can
be passed over. -/

/-- **A reader that stops at the end of a value.** -/
def Delimits {α : Type} (read : List Char → Reading α) : Prop :=
  ∀ text value rest, read text = .done value rest → Passes text rest

theorem Delimits.map {α β : Type} {read : List Char → Reading α} (h : Delimits read) (f : α → β) :
    Delimits fun text => (read text).map f := by
  intro text value rest hread
  obtain ⟨v, hv, rfl⟩ := Reading.map_eq_done.1 hread
  exact h text v rest hv

theorem Delimits.ite {α : Type} {p : Prop} [Decidable p] {read read' : List Char → Reading α}
    (h : Delimits read) (h' : Delimits read') :
    Delimits fun text => if p then read text else read' text := by
  intro text value rest hread
  dsimp only at hread
  split at hread
  · exact h text value rest hread
  · exact h' text value rest hread

/-- Nothing is read from a value of another type. -/
theorem refuse_ne_done {α : Type} {expected : String} {value : α} :
    refuse expected text ≠ .done value rest := by
  intro h
  rw [refuse.eq_def] at h
  split at h
  · cases h
  · cases h
  · cases h
  · obtain ⟨v, rest', -, hfault⟩ := Reading.bind_eq_done.1 h
    cases hfault

/-- A string is read up to its last quote. -/
theorem delimits_readText : Delimits readText := by
  intro text value rest h
  rw [readText] at h
  split at h
  · next hquote =>
    refine .of_step (.scalar hquote (by decide) (by decide) ?_) .refl
    exact skipString_of_readString h
  · exact absurd h refuse_ne_done

/-- A value that may be left out is a value or `null`. -/
theorem delimits_readOptional {α : Type} {value : List Char → Reading α} (hvalue : Delimits value) :
    Delimits (readOptional value) := by
  intro text v rest h
  rw [readOptional] at h
  split at h
  · next hnull =>
    obtain ⟨_, hword, rfl⟩ := Reading.map_eq_done.1 h
    exact .of_step (.scalar hnull (by decide) (by decide) hword) .refl
  · exact (hvalue.map some _ _ _ h).of_skipBlanks

/-! ## Lists

A list is read by one function for all lists, which is given the reader of its items.  Passing over
knows lists by what is open around a value.  The two meet before the first item and after each item,
so the induction is about these places, and an item is what leads from one to the next. -/

/-- **What is read between two items of a list**, or before the first one: the end of the list, or
what leads to the next item. -/
inductive ItemStart (text : List Char) : Bool → Bool → List Char → Prop where
  /-- The list ends. -/
  | atEnd {first : Bool} {rest : List Char} (h : skipBlanks text = ']' :: rest) :
      ItemStart text first false rest
  /-- The first item starts.  A comma counts as one and is left to the reader of the item. -/
  | first {c : Char} {rest : List Char} (h : skipBlanks text = c :: rest) (hc : c ≠ ']') :
      ItemStart text true true (c :: rest)
  /-- Another item follows a comma. -/
  | next {rest : List Char} (h : skipBlanks text = ',' :: rest) :
      ItemStart text false true (skipBlanks rest)

/-- The reader of a list looks at one character, and after a comma at another one. -/
theorem itemStart_of_readItemStart {first more : Bool}
    (h : readItemStart first text = .done more rest) : ItemStart text first more rest := by
  rw [readItemStart] at h
  split at h
  · cases h
  · next hend =>
    cases h
    exact .atEnd hend
  · next hcomma =>
    cases first with
    | true =>
      cases h
      exact .first hcomma (by decide)
    | false =>
      rw [if_neg Bool.false_ne_true] at h
      split at h
      · cases h
      · cases h
        exact .next hcomma
  · next hempty hend _ =>
    cases first with
    | true =>
      cases h
      obtain ⟨c, rest', heq⟩ := List.exists_cons_of_ne_nil hempty
      rw [heq]
      exact .first heq fun hc => hend rest' (hc ▸ heq)
    | false => cases h

theorem ItemStart.length_le {first more : Bool} (h : ItemStart text first more rest) :
    rest.length ≤ text.length := by
  cases h with
  | atEnd h => exact (length_lt_of_skipBlanks h).le
  | first h hc => exact h ▸ length_skipBlanks_le text
  | next h => exact (length_skipBlanks_le _).trans (length_lt_of_skipBlanks h).le

/-- The end of a list whose values are all read is that of any list. -/
theorem readItemStart_of_readListEnd {first : Bool} (h : readListEnd text = .done () rest) :
    readItemStart first text = .done false rest := by
  rw [readListEnd] at h
  split at h
  · cases h
  · next hend =>
    cases h
    simp only [readItemStart, hend]
  · split at h <;> cases h
  · cases h

/-- Where passing over stands in a list that is read up to the text: at its start, or after an
item. -/
def listAt (first : Bool) (text : List Char) : Skipping :=
  if first then ⟨.value, [], '[' :: text⟩ else ⟨.after, [.list], text⟩

/-- The end of a list, which may be empty. -/
theorem ItemStart.steps_of_end {first : Bool} (h : ItemStart text first false rest) :
    Steps (listAt first text) ⟨.after, [], rest⟩ := by
  cases h with
  | atEnd h =>
    cases first with
    | true => exact .single (.emptyList (skipBlanks_cons (by decide) text) h)
    | false => exact .single (.endList h)

/-- One item of a list. -/
theorem ItemStart.steps_of_passes {first : Bool} {mid : List Char} (h : ItemStart text first true mid)
    (hitem : Passes mid rest) : Steps (listAt first text) (listAt false rest) := by
  cases h with
  | first h hc => exact .head (.openList (skipBlanks_cons (by decide) text) h hc) (hitem.inside [.list])
  | next h => exact .head (.nextItem h) (hitem.of_skipBlanks.inside [.list])

section Lists

variable {α : Type} {value : List Char → Reading α}
  (hvalue : Delimits value)

include hvalue

/-- **A list that is read is passed over**, from its start or after any of its items. -/
theorem steps_of_readItems {fuel : Nat} {first : Bool} {items : List α}
    (h : readItems value fuel first text = .done items rest) :
    Steps (listAt first text) ⟨.after, [], rest⟩ := by
  induction fuel generalizing first text items with
  | zero => cases h
  | succ fuel ih =>
    obtain ⟨more, mid, hstart, h⟩ := Reading.bind_eq_done.1 h
    cases more with
    | false =>
      cases h
      exact (itemStart_of_readItemStart hstart).steps_of_end
    | true =>
      obtain ⟨v, afterItem, hitem, h⟩ := Reading.bind_eq_done.1 h
      obtain ⟨items', hmore, rfl⟩ := Reading.map_eq_done.1 h
      have hstep := (itemStart_of_readItemStart hstart).steps_of_passes (hvalue _ _ _ hitem)
      exact hstep.trans (ih hmore)

/-- **A reader of lists stops where the list ends**, if the reader of its items does so. -/
theorem delimits_readList : Delimits (readList value) := by
  intro text items rest h
  rw [readList] at h
  split at h
  · next hopen =>
    refine .of_skipBlanks ?_
    rw [hopen]
    exact steps_of_readItems hvalue h
  · exact absurd h refuse_ne_done

end Lists

/-! ## Objects

An object is read in the same way, with a key and a colon before each value.  The key may be read
with any fuel, as it is passed over in any case. -/

/-- **What is read between two members of an object**, or before the first one: the end of the
object, or what leads to the next key. -/
inductive KeyStart (text : List Char) : Bool → Bool → List Char → Prop where
  /-- The object ends. -/
  | atEnd {first : Bool} {rest : List Char} (h : skipBlanks text = '}' :: rest) :
      KeyStart text first false rest
  /-- The first key starts. -/
  | first {rest : List Char} (h : skipBlanks text = '"' :: rest) : KeyStart text true true rest
  /-- Another key follows a comma. -/
  | next {mid rest : List Char} (h : skipBlanks text = ',' :: mid)
      (hkey : skipBlanks mid = '"' :: rest) :
      KeyStart text false true rest

/-- The reader of an object looks for a quote where that of a list would start with a value. -/
theorem keyStart_of_readKeyStart {first more : Bool} (h : readKeyStart first text = .done more rest) :
    KeyStart text first more rest := by
  rw [readKeyStart] at h
  split at h
  · cases h
  · next hend =>
    cases h
    exact .atEnd hend
  · next hcomma =>
    cases first with
    | true => cases h
    | false =>
      rw [if_neg Bool.false_ne_true] at h
      split at h
      · cases h
      · next hkey =>
        cases h
        exact .next hcomma hkey
      · cases h
      · cases h
  · next hkey =>
    cases first with
    | true =>
      cases h
      exact .first hkey
    | false => cases h
  · cases first <;> cases h

theorem skipBlanks_of_readColon (h : readColon text = .done () rest) :
    skipBlanks text = ':' :: rest := by
  rw [readColon] at h
  split at h
  · cases h
  · next hcolon =>
    cases h
    exact hcolon
  · cases h

/-- Where passing over stands in an object that is read up to the text: at its start, or after a
member. -/
def objectAt (first : Bool) (text : List Char) : Skipping :=
  if first then ⟨.value, [], '{' :: text⟩ else ⟨.after, [.object], text⟩

/-- The end of an object, which may be empty. -/
theorem KeyStart.steps_of_end {first : Bool} (h : KeyStart text first false rest) :
    Steps (objectAt first text) ⟨.after, [], rest⟩ := by
  cases h with
  | atEnd h =>
    cases first with
    | true => exact .single (.emptyObject (skipBlanks_cons (by decide) text) h)
    | false => exact .single (.endObject h)

/-- The key of a member, and what is left of the object from its value on. -/
theorem KeyStart.steps_of_readString {first : Bool} {fuel : Nat} {key : String}
    {atKey afterKey : List Char} (h : KeyStart text first true atKey)
    (hkey : readString fuel atKey = .done key afterKey) (hcolon : readColon afterKey = .done () rest) :
    Steps (objectAt first text) ⟨.value, [.object], rest⟩ := by
  have hskip := skipString_of_readString hkey
  have hblanks := skipBlanks_of_readColon hcolon
  cases h with
  | first h =>
    refine .head (.openObject (skipBlanks_cons (by decide) text) h (by decide)) (.single ?_)
    exact .member (skipBlanks_cons (by decide) atKey) hskip hblanks
  | next h hquote => exact .head (.nextMember h) (.single (.member hquote hskip hblanks))

/-- **An object that is read is passed over**, from its start or after any of its members. -/
theorem steps_of_readMembers {α : Type} {value : List Char → Reading α} (hvalue : Delimits value)
    {fuel : Nat} {first : Bool} {members : List (String × α)}
    (h : readMembers value fuel first text = .done members rest) :
    Steps (objectAt first text) ⟨.after, [], rest⟩ := by
  induction fuel generalizing first text members with
  | zero => cases h
  | succ fuel ih =>
    obtain ⟨more, atKey, hstart, h⟩ := Reading.bind_eq_done.1 h
    cases more with
    | false =>
      cases h
      exact (keyStart_of_readKeyStart hstart).steps_of_end
    | true =>
      obtain ⟨key, afterKey, hkey, h⟩ := Reading.bind_eq_done.1 h
      obtain ⟨_, atValue, hcolon, h⟩ := Reading.bind_eq_done.1 h
      obtain ⟨v, afterValue, hv, h⟩ := Reading.bind_eq_done.1 h
      obtain ⟨members', hmore, rfl⟩ := Reading.map_eq_done.1 h
      have hsteps := (keyStart_of_readKeyStart hstart).steps_of_readString hkey hcolon
      have hmember := (hvalue _ _ _ hv).inside [.object]
      exact (hsteps.trans hmember).trans (ih hmore)

/-- So does the reader of texts under keys. -/
theorem delimits_readTexts : Delimits readTexts := by
  intro text members rest h
  rw [readTexts] at h
  split at h
  · next hopen =>
    refine .of_skipBlanks ?_
    rw [hopen]
    exact steps_of_readMembers delimits_readText h
  · exact absurd h refuse_ne_done

end RpcReference.Json
