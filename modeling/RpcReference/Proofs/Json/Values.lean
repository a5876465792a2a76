import RpcReference.Proofs.Json.Numerals
import RpcReference.Proofs.Json.Strings

/-!
# Properties of JSON values

What it depends on whether a value can be written and read back, by recursion on values: its
nesting, its keys and its numbers.

* `Json.depth` — how many lists and objects stand inside one another.
* `Json.Proper` — **the values that texts can hold**: integers in range, and no key twice in an
  object.
* `Json.mapFloats` — a value with other floating point numbers in it, which is the same value if it
  is `Json.Integral`.
* `Json.spaced` — a value as it is written with given blanks; `Json.spaced_lines` and
  `Json.spaced_tight` say that both ways of writing are this one.
-/

set_option autoImplicit false

namespace RpcReference.Json

/-! ## Nesting

The reader counts the lists and objects that are open, so the depth of a value is the number of
levels that reading it needs.  A bound on the depth says something about all parts alike; as a
number the depth is a maximum, and of a maximum nothing else is ever needed. -/

mutual

/-- How many lists and objects stand inside one another. -/
def depth : Json → Nat
  | null => 0
  | bool _ => 0
  | number _ => 0
  | string _ => 0
  | array items => depthOfItems items + 1
  | object members => depthOfMembers members + 1

/-- The greatest depth of the items of a list. -/
def depthOfItems : List Json → Nat
  | [] => 0
  | item :: items => max (depth item) (depthOfItems items)

/-- The greatest depth of the members of an object. -/
def depthOfMembers : List (String × Json) → Nat
  | [] => 0
  | (_, value) :: members => max (depth value) (depthOfMembers members)

end

theorem depthOfItems_le_iff {items : List Json} {n : Nat} :
    depthOfItems items ≤ n ↔ ∀ item ∈ items, item.depth ≤ n := by
  induction items with
  | nil => simp [depthOfItems]
  | cons item items ih => simp only [depthOfItems, Nat.max_le, ih, List.forall_mem_cons]

theorem depthOfMembers_le_iff {members : List (String × Json)} {n : Nat} :
    depthOfMembers members ≤ n ↔ ∀ member ∈ members, member.2.depth ≤ n := by
  induction members with
  | nil => simp [depthOfMembers]
  | cons member members ih =>
    obtain ⟨key, value⟩ := member
    simp only [depthOfMembers, Nat.max_le, ih, List.forall_mem_cons]

@[simp] theorem depth_array_le_succ_iff {items : List Json} {n : Nat} :
    (array items).depth ≤ n + 1 ↔ ∀ item ∈ items, item.depth ≤ n := by
  rw [depth, Nat.succ_le_succ_iff, depthOfItems_le_iff]

@[simp] theorem depth_object_le_succ_iff {members : List (String × Json)} {n : Nat} :
    (object members).depth ≤ n + 1 ↔ ∀ member ∈ members, member.2.depth ≤ n := by
  rw [depth, Nat.succ_le_succ_iff, depthOfMembers_le_iff]

/-! ## Values that texts can hold

Two things that a value can hold are lost in any text.  An integer of more than 64 bits is read as a
floating point number, and of two members with one key only the last one is kept.  Values that are
read hold neither, so nothing is lost of those. -/

/-- **Integers are in range, and no object has a key twice.** -/
inductive Proper : Json → Prop where
  | null : Proper null
  | bool (b : Bool) : Proper (bool b)
  | int (n : Int) (h : IsReadableInt n) : Proper (number (.int n))
  | float (x : Binary64) : Proper (number (.float x))
  | string (s : String) : Proper (string s)
  | array (items : List Json) (h : ∀ item ∈ items, Proper item) : Proper (array items)
  | object (members : List (String × Json)) (hnodup : (Table.keys members).Nodup)
      (h : ∀ member ∈ members, Proper member.2) : Proper (object members)

theorem proper_array_iff {items : List Json} :
    (array items).Proper ↔ ∀ item ∈ items, item.Proper := by
  refine ⟨fun h => ?_, .array items⟩
  cases h with
  | array _ h => exact h

theorem proper_object_iff {members : List (String × Json)} :
    (object members).Proper ↔
      (Table.keys members).Nodup ∧ ∀ member ∈ members, member.2.Proper := by
  refine ⟨fun h => ?_, fun h => .object members h.1 h.2⟩
  cases h with
  | object _ hnodup h => exact ⟨hnodup, h⟩

/-! ## Floating point numbers in a value

The text of a floating point number need not be read as that number.  What is read from the text of
a value is therefore the value with its floating point numbers replaced, all by one function, and
the value itself if there are none. -/

mutual

/-- A value in which every floating point number is changed. -/
def mapFloats (f : Binary64 → Binary64) : Json → Json
  | null => null
  | bool b => bool b
  | number (.int n) => number (.int n)
  | number (.float x) => number (.float (f x))
  | string s => string s
  | array items => array (mapFloatsItems f items)
  | object members => object (mapFloatsMembers f members)

/-- The items of a list with their floating point numbers changed. -/
def mapFloatsItems (f : Binary64 → Binary64) : List Json → List Json
  | [] => []
  | item :: items => mapFloats f item :: mapFloatsItems f items

/-- The members of an object with their floating point numbers changed. -/
def mapFloatsMembers (f : Binary64 → Binary64) : List (String × Json) → List (String × Json)
  | [] => []
  | (key, value) :: members => (key, mapFloats f value) :: mapFloatsMembers f members

end

theorem mapFloatsItems_eq (f : Binary64 → Binary64) (items : List Json) :
    mapFloatsItems f items = items.map (mapFloats f) := by
  induction items with
  | nil => rfl
  | cons item items ih => rw [mapFloatsItems, ih, List.map_cons]

theorem mapFloatsMembers_eq (f : Binary64 → Binary64) (members : List (String × Json)) :
    mapFloatsMembers f members = members.map fun member => (member.1, mapFloats f member.2) := by
  induction members with
  | nil => rfl
  | cons member members ih => rw [mapFloatsMembers, ih, List.map_cons]

@[simp] theorem mapFloats_array (f : Binary64 → Binary64) (items : List Json) :
    (array items).mapFloats f = array (items.map (mapFloats f)) := by
  rw [mapFloats, mapFloatsItems_eq]

@[simp] theorem mapFloats_object (f : Binary64 → Binary64) (members : List (String × Json)) :
    (object members).mapFloats f =
      object (members.map fun member => (member.1, mapFloats f member.2)) := by
  rw [mapFloats, mapFloatsMembers_eq]

/-- **A value whose numbers are all integers.** -/
inductive Integral : Json → Prop where
  | null : Integral null
  | bool (b : Bool) : Integral (bool b)
  | int (n : Int) : Integral (number (.int n))
  | string (s : String) : Integral (string s)
  | array (items : List Json) (h : ∀ item ∈ items, Integral item) : Integral (array items)
  | object (members : List (String × Json)) (h : ∀ member ∈ members, Integral member.2) :
      Integral (object members)

theorem integral_array_iff {items : List Json} :
    (array items).Integral ↔ ∀ item ∈ items, item.Integral := by
  refine ⟨fun h => ?_, .array items⟩
  cases h with
  | array _ h => exact h

theorem integral_object_iff {members : List (String × Json)} :
    (object members).Integral ↔ ∀ member ∈ members, member.2.Integral := by
  refine ⟨fun h => ?_, .object members⟩
  cases h with
  | object _ h => exact h

/-- There is nothing to change in a value without floating point numbers. -/
theorem Integral.mapFloats_eq {v : Json} (h : v.Integral) (f : Binary64 → Binary64) :
    v.mapFloats f = v := by
  induction h with
  | null => rfl
  | bool b => rfl
  | int n => rfl
  | string s => rfl
  | array items _ ih => rw [mapFloats_array, List.map_congr_left ih, List.map_id']
  | object members _ ih =>
    have hmembers : ∀ member ∈ members, (member.1, mapFloats f member.2) = member :=
      fun member hmember => Prod.ext rfl (ih member hmember)
    rw [mapFloats_object, List.map_congr_left hmembers, List.map_id']

/-! ## Writing with given blanks

There are two writers, one that puts every item on a line of its own and one that puts no blanks at
all.  The reader does not care, and what is proved about reading back should not be proved twice.
So both writers are shown to be one that takes its blanks as a parameter, and the rest is about that
one.

The writer goes through a value together with its lists of items and members; the proofs that the
writers agree follow it and are recursive in the same way. -/

/-- The blanks between the parts of a written value. -/
structure Spacing where
  /-- What stands before an item, a member and the end of a list or object, by its level. -/
  line : Nat → List Char
  /-- What stands after a colon. -/
  afterColon : List Char
  /-- There are only blanks before items. -/
  isBlank_line : ∀ level, ∀ c ∈ line level, isBlank c = true
  /-- There are only blanks after colons. -/
  isBlank_afterColon : ∀ c ∈ afterColon, isBlank c = true

namespace Spacing

/-- One item or member a line. -/
def lines : Spacing := ⟨newLine, [' '], isBlank_newLine, List.forall_mem_singleton.2 (by decide)⟩

/-- No blanks at all. -/
def tight : Spacing := ⟨fun _ => [], [], by simp, by simp⟩

end Spacing

mutual

/-- A value as it is written with the given blanks. -/
def spaced (s : Spacing) (level : Nat) : Json → List Char
  | null => ['n', 'u', 'l', 'l']
  | bool true => ['t', 'r', 'u', 'e']
  | bool false => ['f', 'a', 'l', 's', 'e']
  | number n => numberCharacters n
  | string text => stringCharacters text
  | array [] => ['[', ']']
  | array (item :: items) =>
      '[' :: (s.line (level + 1) ++ (spaced s (level + 1) item ++ spacedItems s level items))
  | object [] => ['{', '}']
  | object ((key, value) :: members) =>
      '{' :: (s.line (level + 1) ++ (stringCharacters key ++
        ':' :: (s.afterColon ++ (spaced s (level + 1) value ++ spacedMembers s level members))))

/-- The items after the first one, and the end of their list. -/
def spacedItems (s : Spacing) (level : Nat) : List Json → List Char
  | [] => s.line level ++ [']']
  | item :: items =>
      ',' :: (s.line (level + 1) ++ (spaced s (level + 1) item ++ spacedItems s level items))

/-- The members after the first one, and the end of their object. -/
def spacedMembers (s : Spacing) (level : Nat) : List (String × Json) → List Char
  | [] => s.line level ++ ['}']
  | (key, value) :: members =>
      ',' :: (s.line (level + 1) ++ (stringCharacters key ++
        ':' :: (s.afterColon ++ (spaced s (level + 1) value ++ spacedMembers s level members))))

end

mutual

/-- Writing one item a line is writing with line breaks. -/
theorem spaced_lines (level : Nat) : ∀ v : Json, spaced .lines level v = prettyCharacters level v
  | null => rfl
  | bool true => rfl
  | bool false => rfl
  | number _ => rfl
  | string _ => rfl
  | array [] => rfl
  | array (item :: items) => by
    simp only [spaced, prettyCharacters, spaced_lines (level + 1) item, spacedItems_lines level items]
    simp [Spacing.lines]
  | object [] => rfl
  | object ((key, value) :: members) => by
    simp only [spaced, prettyCharacters, spaced_lines (level + 1) value,
      spacedMembers_lines level members]
    simp [Spacing.lines]

/-- The same for the rest of a list. -/
theorem spacedItems_lines (level : Nat) :
    ∀ items : List Json, spacedItems .lines level items = prettyItems level items
  | [] => rfl
  | item :: items => by
    simp only [spacedItems, prettyItems, spaced_lines (level + 1) item,
      spacedItems_lines level items]
    simp [Spacing.lines]

/-- And for the rest of an object. -/
theorem spacedMembers_lines (level : Nat) :
    ∀ members : List (String × Json), spacedMembers .lines level members = prettyMembers level members
  | [] => rfl
  | (key, value) :: members => by
    simp only [spacedMembers, prettyMembers, spaced_lines (level + 1) value,
      spacedMembers_lines level members]
    simp [Spacing.lines]

end

mutual

/-- Writing on one line is writing without blanks. -/
theorem spaced_tight (level : Nat) : ∀ v : Json, spaced .tight level v = compactCharacters v
  | null => rfl
  | bool true => rfl
  | bool false => rfl
  | number _ => rfl
  | string _ => rfl
  | array [] => rfl
  | array (item :: items) => by
    simp only [spaced, compactCharacters, spaced_tight (level + 1) item,
      spacedItems_tight level items]
    simp [Spacing.tight]
  | object [] => rfl
  | object ((key, value) :: members) => by
    simp only [spaced, compactCharacters, spaced_tight (level + 1) value,
      spacedMembers_tight level members]
    simp [Spacing.tight]

theorem spacedItems_tight (level : Nat) :
    ∀ items : List Json, spacedItems .tight level items = compactItems items
  | [] => rfl
  | item :: items => by
    simp only [spacedItems, compactItems, spaced_tight (level + 1) item,
      spacedItems_tight level items]
    simp [Spacing.tight]

theorem spacedMembers_tight (level : Nat) :
    ∀ members : List (String × Json), spacedMembers .tight level members = compactMembers members
  | [] => rfl
  | (key, value) :: members => by
    simp only [spacedMembers, compactMembers, spaced_tight (level + 1) value,
      spacedMembers_tight level members]
    simp [Spacing.tight]

end

end RpcReference.Json
