import Mathlib.Data.List.DropRight
import Mathlib.Logic.Relation
import RpcReference.Json.Skip

/-!
# Passing over values, step by step

A value that nobody asked for is passed over with a list of the brackets that are open around it.

* `Json.Step` — **what passing over can do next**, as a relation between states that knows no fuel.
  Every step reads something (`Json.Step.length_lt`), so the fuel is enough.
* `Json.Passes` — the steps from the start of a value to its end.  `Json.skipValue_eq_done_iff` says
  that **these are the values that are passed over**, and `Json.Passes.inside` that nothing around
  them matters.
-/

set_option autoImplicit false

namespace RpcReference.Json

/-! ## What is left of a text

Passing over is a recursion with fuel, and the fuel is enough because everything that is passed over
makes the text shorter.  There is one lemma for each part of a value that is passed over, from
blanks to numbers; some parts may be empty and only leave no more than there was. -/

theorem length_skipBlanks_le (text : List Char) : (skipBlanks text).length ≤ text.length :=
  List.length_dropWhile_le _ _

@[simp] theorem skipBlanks_skipBlanks (text : List Char) :
    skipBlanks (skipBlanks text) = skipBlanks text :=
  List.dropWhile_idempotent _ _

/-- What follows the first character that is no blank is shorter. -/
theorem length_lt_of_skipBlanks {text rest : List Char} {c : Char}
    (h : skipBlanks text = c :: rest) : rest.length < text.length :=
  calc rest.length < (skipBlanks text).length := by rw [h]; exact Nat.lt_succ_self _
    _ ≤ text.length := length_skipBlanks_le text

/-- A word is read character by character. -/
theorem length_le_of_readWord {word text rest : List Char} (h : readWord word text = .done () rest) :
    rest.length ≤ text.length := by
  induction word generalizing text with
  | nil =>
    cases h
    exact Nat.le_refl _
  | cons expected word ih =>
    cases text with
    | nil => cases h
    | cons c text =>
      rw [readWord] at h
      split at h
      · exact Nat.le_succ_of_le (ih h)
      · cases h

theorem length_lt_of_readHex {text rest : List Char} {n : Nat} (h : readHex text = .done n rest) :
    rest.length < text.length := by
  rw [readHex.eq_def] at h
  split at h
  · split at h
    · cases h
      simp only [List.length_cons]
      omega
    · cases h
  · split at h <;> cases h

/-- An escape is a character, or a letter with four digits after it. -/
theorem length_lt_of_skipEscape {text rest : List Char} (h : skipEscape text = .done () rest) :
    rest.length < text.length := by
  rw [skipEscape.eq_def] at h
  split at h
  · cases h
  · obtain ⟨n, hhex, -⟩ := Reading.map_eq_done.1 h
    exact Nat.lt_succ_of_lt (length_lt_of_readHex hhex)
  · split at h
    · cases h
      exact Nat.lt_succ_self _
    · cases h

/-- A string ends with a quote, so something is read even of an empty one. -/
theorem length_lt_of_skipCharacters {fuel : Nat} {text rest : List Char}
    (h : skipCharacters fuel text = .done () rest) : rest.length < text.length := by
  induction fuel generalizing text with
  | zero => cases h
  | succ fuel ih =>
    rw [skipCharacters.eq_def] at h
    dsimp only at h
    split at h
    · cases h
    · cases h
      exact Nat.lt_succ_self _
    · obtain ⟨_, mid, hescape, hmore⟩ := Reading.bind_eq_done.1 h
      exact (ih hmore).trans (Nat.lt_succ_of_lt (length_lt_of_skipEscape hescape))
    · split at h
      · cases h
      · exact Nat.lt_succ_of_lt (ih h)

/-- Where digits are expected there is at least one. -/
theorem length_lt_of_skipDigits {text rest : List Char} (h : skipDigits text = .done () rest) :
    rest.length < text.length := by
  rw [skipDigits] at h
  split at h
  · cases h
  · next hdigits =>
    cases h
    have hsplit : (text.takeWhile isDigit).length + (text.dropWhile isDigit).length = text.length := by
      rw [← List.length_append, List.takeWhile_append_dropWhile]
    have hpos : 0 < (text.takeWhile isDigit).length :=
      List.length_pos_iff.2 (mt List.isEmpty_iff.2 hdigits)
    omega

/-- Without a point nothing is read. -/
theorem length_le_of_skipFraction {text rest : List Char} (h : skipFraction text = .done () rest) :
    rest.length ≤ text.length := by
  rw [skipFraction.eq_def] at h
  split at h
  · exact Nat.le_succ_of_le (length_lt_of_skipDigits h).le
  · cases h
    exact Nat.le_refl _

/-- Without a letter for an exponent nothing is read, and a sign may follow the letter. -/
theorem length_le_of_skipExponent {text rest : List Char} (h : skipExponent text = .done () rest) :
    rest.length ≤ text.length := by
  rw [skipExponent.eq_def] at h
  split at h
  · split at h
    · split at h
      all_goals
        have := length_lt_of_skipDigits h
        simp only [List.length_cons] at *
        omega
    · cases h
      exact Nat.le_refl _
  · cases h
    exact Nat.le_refl _

/-- A number has digits before the point, and may have nothing else. -/
theorem length_lt_of_skipNumber {text rest : List Char} (h : skipNumber text = .done () rest) :
    rest.length < text.length := by
  obtain ⟨_, afterWhole, hwhole, h⟩ := Reading.bind_eq_done.1 h
  obtain ⟨_, afterFraction, hfraction, hexponent⟩ := Reading.bind_eq_done.1 h
  have hlt : afterWhole.length < text.length := by
    split at hwhole
    · split at hwhole
      · cases hwhole
      · cases hwhole
        exact Nat.lt_succ_self _
    · exact length_lt_of_skipDigits hwhole
  exact ((length_le_of_skipExponent hexponent).trans (length_le_of_skipFraction hfraction)).trans_lt hlt

/-- The first character of a scalar was read before, so nothing more need be. -/
theorem length_le_of_skipScalar {c : Char} {text rest : List Char}
    (h : skipScalar c text = .done () rest) : rest.length ≤ text.length := by
  rw [skipScalar] at h
  split at h
  · exact length_le_of_readWord h
  split at h
  · exact length_le_of_readWord h
  split at h
  · exact length_le_of_readWord h
  split at h
  · exact (length_lt_of_skipCharacters h).le
  split at h
  · exact (length_lt_of_skipNumber h).le
  split at h
  · exact Nat.le_of_lt_succ (length_lt_of_skipNumber h)
  · cases h

/-! ## Passing over, step by step

Three functions pass over a value: one at the start of a value, one after a value and one at a key.
They call each other, and each call takes one from the fuel.  What they do is written down here
once, as a relation between what is open and left before a call and after it.  From then on no proof
opens the three functions again.

A value that is opened is closed by the same functions, so the brackets around are a list of which
only the first ones ever change. -/

/-- What is read next while a value is passed over. -/
inductive Place where
  /-- A value. -/
  | value
  /-- What follows a value. -/
  | after
  /-- A member of an object, from its key on. -/
  | member

/-- How far the passing over has come. -/
structure Skipping where
  /-- What is read next. -/
  place : Place
  /-- The lists and objects that are open, innermost first.  The object of a member that is read
  next is not among them. -/
  around : List Bracket
  /-- The text that is left. -/
  text : List Char

namespace Skipping

/-- Passes over the rest. -/
def run : Skipping → Nat → Reading Unit
  | ⟨.value, around, text⟩, fuel => skipOpen fuel around text
  | ⟨.after, around, text⟩, fuel => skipAfter fuel around text
  | ⟨.member, around, text⟩, fuel => skipMember fuel around text

/-- The same with more lists and objects around everything. -/
def inside (s : Skipping) (more : List Bracket) : Skipping := { s with around := s.around ++ more }

end Skipping

/-- **One step of passing over.** -/
inductive Step : Skipping → Skipping → Prop where
  | emptyList {around : List Bracket} {text rest rest' : List Char}
      (h : skipBlanks text = '[' :: rest) (h' : skipBlanks rest = ']' :: rest') :
      Step ⟨.value, around, text⟩ ⟨.after, around, rest'⟩
  | openList {around : List Bracket} {text rest rest' : List Char} {c : Char}
      (h : skipBlanks text = '[' :: rest) (h' : skipBlanks rest = c :: rest') (hc : c ≠ ']') :
      Step ⟨.value, around, text⟩ ⟨.value, .list :: around, c :: rest'⟩
  | emptyObject {around : List Bracket} {text rest rest' : List Char}
      (h : skipBlanks text = '{' :: rest) (h' : skipBlanks rest = '}' :: rest') :
      Step ⟨.value, around, text⟩ ⟨.after, around, rest'⟩
  | openObject {around : List Bracket} {text rest rest' : List Char} {c : Char}
      (h : skipBlanks text = '{' :: rest) (h' : skipBlanks rest = c :: rest') (hc : c ≠ '}') :
      Step ⟨.value, around, text⟩ ⟨.member, around, c :: rest'⟩
  | scalar {around : List Bracket} {text rest rest' : List Char} {c : Char}
      (h : skipBlanks text = c :: rest) (hlist : c ≠ '[') (hobject : c ≠ '{')
      (h' : skipScalar c rest = .done () rest') :
      Step ⟨.value, around, text⟩ ⟨.after, around, rest'⟩
  | nextItem {around : List Bracket} {text rest : List Char} (h : skipBlanks text = ',' :: rest) :
      Step ⟨.after, .list :: around, text⟩ ⟨.value, .list :: around, rest⟩
  | endList {around : List Bracket} {text rest : List Char} (h : skipBlanks text = ']' :: rest) :
      Step ⟨.after, .list :: around, text⟩ ⟨.after, around, rest⟩
  | nextMember {around : List Bracket} {text rest : List Char} (h : skipBlanks text = ',' :: rest) :
      Step ⟨.after, .object :: around, text⟩ ⟨.member, around, rest⟩
  | endObject {around : List Bracket} {text rest : List Char} (h : skipBlanks text = '}' :: rest) :
      Step ⟨.after, .object :: around, text⟩ ⟨.after, around, rest⟩
  | member {around : List Bracket} {text rest rest' rest'' : List Char}
      (h : skipBlanks text = '"' :: rest) (hkey : skipString rest = .done () rest')
      (hcolon : skipBlanks rest' = ':' :: rest'') :
      Step ⟨.member, around, text⟩ ⟨.value, .object :: around, rest''⟩

namespace Step

variable {s s' : Skipping}

/-- A step is made by the first of the fuel. -/
theorem run_eq (h : Step s s') (fuel : Nat) : s.run (fuel + 1) = s'.run fuel := by
  cases h with
  | emptyList h h' => simp only [Skipping.run, skipOpen, h, h']
  | openList h h' hc =>
    -- the first item decides between an empty list and an open one
    simp only [Skipping.run, skipOpen, h, h']
    split
    · next heq => cases heq
    · next heq => exact absurd (List.cons.inj heq).1 hc
    · rfl
  | emptyObject h h' => simp only [Skipping.run, skipOpen, h, h']
  | openObject h h' hc =>
    simp only [Skipping.run, skipOpen, h, h']
    split
    · next heq => cases heq
    · next heq => exact absurd (List.cons.inj heq).1 hc
    · rfl
  | scalar h hlist hobject h' => simp only [Skipping.run, skipOpen, h, h', Reading.bind_done]
  | nextItem h => simp only [Skipping.run, skipAfter, h]
  | endList h => simp only [Skipping.run, skipAfter, h]
  | nextMember h => simp only [Skipping.run, skipAfter, h]
  | endObject h => simp only [Skipping.run, skipAfter, h]
  | member h hkey hcolon => simp only [Skipping.run, skipMember, h, hkey, hcolon, Reading.bind_done]

/-- Every step reads something. -/
theorem length_lt (h : Step s s') : s'.text.length < s.text.length := by
  cases h with
  | emptyList h h' => exact (length_lt_of_skipBlanks h').trans (length_lt_of_skipBlanks h)
  | openList h h' hc =>
    exact lt_of_le_of_lt (h' ▸ length_skipBlanks_le _) (length_lt_of_skipBlanks h)
  | emptyObject h h' => exact (length_lt_of_skipBlanks h').trans (length_lt_of_skipBlanks h)
  | openObject h h' hc =>
    exact lt_of_le_of_lt (h' ▸ length_skipBlanks_le _) (length_lt_of_skipBlanks h)
  | scalar h hlist hobject h' => exact (length_le_of_skipScalar h').trans_lt (length_lt_of_skipBlanks h)
  | nextItem h => exact length_lt_of_skipBlanks h
  | endList h => exact length_lt_of_skipBlanks h
  | nextMember h => exact length_lt_of_skipBlanks h
  | endObject h => exact length_lt_of_skipBlanks h
  | member h hkey hcolon =>
    exact ((length_lt_of_skipBlanks hcolon).trans (length_lt_of_skipCharacters hkey)).trans
      (length_lt_of_skipBlanks h)

/-- **No step looks at what is open further out.** -/
theorem inside (h : Step s s') (more : List Bracket) : Step (s.inside more) (s'.inside more) := by
  cases h with
  | emptyList h h' => exact .emptyList h h'
  | openList h h' hc => exact .openList h h' hc
  | emptyObject h h' => exact .emptyObject h h'
  | openObject h h' hc => exact .openObject h h' hc
  | scalar h hlist hobject h' => exact .scalar h hlist hobject h'
  | nextItem h => exact .nextItem h
  | endList h => exact .endList h
  | nextMember h => exact .nextMember h
  | endObject h => exact .endObject h
  | member h hkey hcolon => exact .member h hkey hcolon

/-- Blanks before a value make no difference. -/
theorem of_skipBlanks {around : List Bracket} {text : List Char}
    (h : Step ⟨.value, around, skipBlanks text⟩ s') : Step ⟨.value, around, text⟩ s' := by
  cases h with
  | emptyList h h' => exact .emptyList (skipBlanks_skipBlanks text ▸ h) h'
  | openList h h' hc => exact .openList (skipBlanks_skipBlanks text ▸ h) h' hc
  | emptyObject h h' => exact .emptyObject (skipBlanks_skipBlanks text ▸ h) h'
  | openObject h h' hc => exact .openObject (skipBlanks_skipBlanks text ▸ h) h' hc
  | scalar h hlist hobject h' => exact .scalar (skipBlanks_skipBlanks text ▸ h) hlist hobject h'

end Step

/-! ## From the start of a value to its end

A run of the functions is a chain of steps, and a chain of steps is a run with enough fuel.  The
first direction goes by induction on the fuel and needs to know that every call that ends well is a
step; the second by induction on the chain and needs the lengths. -/

/-- Any number of steps. -/
abbrev Steps : Skipping → Skipping → Prop := Relation.ReflTransGen Step

namespace Steps

variable {s s' : Skipping}

theorem inside (h : Steps s s') (more : List Bracket) : Steps (s.inside more) (s'.inside more) :=
  h.lift (fun s => s.inside more) fun _ _ hstep => hstep.inside more

/-- Steps take as much fuel as they are, and there are no more of them than characters they read. -/
theorem exists_run_eq (h : Steps s s') :
    ∃ count, count + s'.text.length ≤ s.text.length ∧
      ∀ fuel, s.run (fuel + count) = s'.run fuel := by
  induction h using Relation.ReflTransGen.head_induction_on with
  | refl => exact ⟨0, by omega, fun _ => rfl⟩
  | head hstep _ ih =>
    obtain ⟨count, hle, hrun⟩ := ih
    have hlt := hstep.length_lt
    exact ⟨count + 1, by omega, fun fuel => (hstep.run_eq (fuel + count)).trans (hrun fuel)⟩

end Steps

/-- **A text starts with a value, after which `rest` is left.** -/
def Passes (text rest : List Char) : Prop := Steps ⟨.value, [], text⟩ ⟨.after, [], rest⟩

variable {text rest : List Char}

/-- **What is around a value does not matter to it.** -/
theorem Passes.inside (h : Passes text rest) (around : List Bracket) :
    Steps ⟨.value, around, text⟩ ⟨.after, around, rest⟩ :=
  Steps.inside h around

/-- A value is passed over by its first step and all others. -/
theorem Passes.of_step {s : Skipping} (h : Step ⟨.value, [], text⟩ s)
    (hmore : Steps s ⟨.after, [], rest⟩) : Passes text rest :=
  .head h hmore

/-- There is no value without a character. -/
theorem Passes.length_lt (h : Passes text rest) : rest.length < text.length := by
  rcases Relation.ReflTransGen.cases_head h with heq | ⟨s, hstep, hmore⟩
  · cases heq
  · obtain ⟨count, hle, -⟩ := Steps.exists_run_eq hmore
    exact lt_of_le_of_lt (Nat.le_trans (Nat.le_add_left _ _) hle) hstep.length_lt

/-- Blanks before a value make no difference. -/
theorem Passes.of_skipBlanks (h : Passes (skipBlanks text) rest) : Passes text rest := by
  rcases Relation.ReflTransGen.cases_head h with heq | ⟨s, hstep, hmore⟩
  · cases heq
  · exact .of_step hstep.of_skipBlanks hmore

/-- **What is passed over to the end is at the end, or can take a step** and be passed over from
there. -/
theorem exists_step {fuel : Nat} {s : Skipping} (h : s.run (fuel + 1) = .done () rest) :
    s = ⟨.after, [], rest⟩ ∨ ∃ s', Step s s' ∧ s'.run fuel = .done () rest := by
  -- one case for each of the three functions, and in it one for each of their branches that ends
  -- well
  obtain ⟨place, around, text⟩ := s
  cases place with
  | value =>
    simp only [Skipping.run, skipOpen] at h
    split at h
    · cases h
    · next hlist =>
      split at h
      · cases h
      · next hend => exact .inr ⟨_, .emptyList hlist hend, h⟩
      · next hempty hend =>
        obtain ⟨c, rest', heq⟩ := List.exists_cons_of_ne_nil hempty
        rw [heq] at h
        exact .inr ⟨_, .openList hlist heq fun hc => hend rest' (hc ▸ heq), h⟩
    · next hobject =>
      split at h
      · cases h
      · next hend => exact .inr ⟨_, .emptyObject hobject hend, h⟩
      · next hempty hend =>
        obtain ⟨c, rest', heq⟩ := List.exists_cons_of_ne_nil hempty
        rw [heq] at h
        exact .inr ⟨_, .openObject hobject heq fun hc => hend rest' (hc ▸ heq), h⟩
    · next hlist hobject hstart =>
      obtain ⟨_, mid, hscalar, hmore⟩ := Reading.bind_eq_done.1 h
      exact .inr ⟨_, .scalar hstart hlist hobject hscalar, hmore⟩
  | after =>
    cases around with
    | nil =>
      cases h
      exact .inl rfl
    | cons bracket around =>
      cases bracket with
      | list =>
        simp only [Skipping.run, skipAfter] at h
        split at h
        · cases h
        · next hnext => exact .inr ⟨_, .nextItem hnext, h⟩
        · next hend => exact .inr ⟨_, .endList hend, h⟩
        · cases h
      | object =>
        simp only [Skipping.run, skipAfter] at h
        split at h
        · cases h
        · next hnext => exact .inr ⟨_, .nextMember hnext, h⟩
        · next hend => exact .inr ⟨_, .endObject hend, h⟩
        · cases h
  | member =>
    simp only [Skipping.run, skipMember] at h
    split at h
    · cases h
    · next hquote =>
      obtain ⟨_, mid, hkey, hmore⟩ := Reading.bind_eq_done.1 h
      split at hmore
      · cases hmore
      · next hcolon => exact .inr ⟨_, .member hquote hkey hcolon, hmore⟩
      · cases hmore
    · cases h

/-- What is passed over to the end is passed over step by step. -/
theorem steps_of_run {fuel : Nat} {s : Skipping} (h : s.run fuel = .done () rest) :
    Steps s ⟨.after, [], rest⟩ := by
  induction fuel generalizing s with
  | zero =>
    obtain ⟨place, around, text⟩ := s
    cases place with
    | value => cases h
    | member => cases h
    | after =>
      cases around with
      | nil =>
        cases h
        exact .refl
      | cons bracket around => cases h
  | succ fuel ih =>
    rcases exists_step h with rfl | ⟨s', hstep, hmore⟩
    · exact .refl
    · exact .head hstep (ih hmore)

/-- **A value is passed over exactly if there are steps from its start to its end.** -/
theorem skipValue_eq_done_iff : skipValue text = .done () rest ↔ Passes text rest := by
  refine ⟨fun h => steps_of_run (s := ⟨.value, [], text⟩) h, fun h => ?_⟩
  obtain ⟨count, hle, hrun⟩ := h.exists_run_eq
  dsimp only at hle
  have hfuel : 2 * text.length + 2 = (2 * text.length + 2 - count) + count := by omega
  rw [skipValue, hfuel]
  refine (hrun _).trans ?_
  rw [Skipping.run, skipAfter.eq_def]

end RpcReference.Json
