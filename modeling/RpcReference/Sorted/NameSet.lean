/-!
# Sets of names

A set of names is the list of its members in increasing order, each once.  Two sets are equal
exactly if they have the same members.

* `NameSet.insert`, `NameSet.ofList`, `NameSet.diff` — the operations, each with its members beside
  it.
* `NameSet.ext` — a set is determined by its members.
-/

set_option autoImplicit false

namespace RpcReference

/-- A finite set of names. -/
structure NameSet where
  /-- The names in increasing order. -/
  toList : List String
  /-- The order is strict, so no name is there twice. -/
  sorted : toList.Pairwise (· < ·)
deriving DecidableEq

namespace NameSet

/-- The set without names. -/
def empty : NameSet := ⟨[], List.Pairwise.nil⟩

instance : EmptyCollection NameSet := ⟨empty⟩

instance : Membership String NameSet := ⟨fun set name => name ∈ set.toList⟩

instance (name : String) (set : NameSet) : Decidable (name ∈ set) :=
  inferInstanceAs (Decidable (name ∈ set.toList))

theorem mem_toList {name : String} {set : NameSet} : name ∈ set.toList ↔ name ∈ set := Iff.rfl

/-- The number of names. -/
def size (set : NameSet) : Nat := set.toList.length

/-- Whether there is no name. -/
def isEmpty (set : NameSet) : Bool := set.toList.isEmpty

/-! ## Insertion -/

/-- Puts a name into an increasing list, unless it is there. -/
def insertInto (name : String) : List String → List String
  | [] => [name]
  | n :: rest =>
      if name < n then name :: n :: rest
      else if name = n then n :: rest
      else n :: insertInto name rest

theorem mem_insertInto {name other : String} {names : List String} :
    other ∈ insertInto name names ↔ other = name ∨ other ∈ names := by
  induction names with
  | nil => simp [insertInto]
  | cons n rest ih =>
    by_cases h : name < n
    · simp [insertInto, h]
    · by_cases h2 : name = n
      · simp [insertInto, h2]
      · simp only [insertInto, h, h2, if_false, List.mem_cons, ih]
        constructor <;> rintro (h | h | h) <;> simp [h]

/-- An increasing list stays increasing. -/
theorem pairwise_insertInto {name : String} {names : List String}
    (h : names.Pairwise (· < ·)) : (insertInto name names).Pairwise (· < ·) := by
  induction names with
  | nil => simp [insertInto]
  | cons n rest ih =>
    rw [List.pairwise_cons] at h
    by_cases hlt : name < n
    · simp only [insertInto, hlt, if_true, List.pairwise_cons]
      exact ⟨fun other ho => (List.mem_cons.1 ho).elim (fun e => e ▸ hlt)
        (fun ho => String.lt_trans hlt (h.1 other ho)), h⟩
    · by_cases heq : name = n
      · simpa [insertInto, heq] using h
      · simp only [insertInto, hlt, heq, if_false, List.pairwise_cons]
        refine ⟨fun other ho => ?_, ih h.2⟩
        rcases mem_insertInto.1 ho with rfl | ho
        · rcases Std.lt_trichotomy other n with hl | he | hg
          · exact absurd hl hlt
          · exact absurd he heq
          · exact hg
        · exact h.1 other ho

/-- The set with one more name. -/
def insert (name : String) (set : NameSet) : NameSet :=
  ⟨insertInto name set.toList, pairwise_insertInto set.sorted⟩

@[simp] theorem mem_insert {name other : String} {set : NameSet} :
    other ∈ set.insert name ↔ other = name ∨ other ∈ set := mem_insertInto

/-! ## The names of a list -/

/-- The names of a list. -/
def ofList (names : List String) : NameSet := names.foldr insert empty

/-- **The set of a list has its members.** -/
@[simp] theorem mem_ofList {name : String} {names : List String} :
    name ∈ ofList names ↔ name ∈ names := by
  induction names with
  | nil => exact Iff.rfl
  | cons n rest ih => simp [ofList, List.foldr_cons, ← ih]

/-! ## Differences -/

/-- The names of `s` that are not in `t`. -/
def diff (s t : NameSet) : NameSet :=
  ⟨s.toList.filter fun name => name ∉ t, s.sorted.filter _⟩

@[simp] theorem mem_diff {name : String} {s t : NameSet} :
    name ∈ s.diff t ↔ name ∈ s ∧ name ∉ t := by
  rw [← mem_toList, diff, List.mem_filter, decide_eq_true_iff]; rfl

/-! ## Sets are determined by their members -/

theorem ext_toList {a b : List String} (ha : a.Pairwise (· < ·)) (hb : b.Pairwise (· < ·))
    (h : ∀ name, name ∈ a ↔ name ∈ b) : a = b := by
  induction a generalizing b with
  | nil =>
    cases b with
    | nil => rfl
    | cons y ys => exact absurd ((h y).2 (List.mem_cons_self ..)) (List.not_mem_nil)
  | cons x xs ih =>
    cases b with
    | nil => exact absurd ((h x).1 (List.mem_cons_self ..)) (List.not_mem_nil)
    | cons y ys =>
      rw [List.pairwise_cons] at ha hb
      have hxy : x = y := by
        rcases List.mem_cons.1 ((h x).1 (List.mem_cons_self ..)) with e | hx
        · exact e
        · rcases List.mem_cons.1 ((h y).2 (List.mem_cons_self ..)) with e | hy
          · exact e.symm
          · exact absurd (String.lt_trans (hb.1 x hx) (ha.1 y hy)) (String.lt_irrefl y)
      subst hxy
      congr 1
      refine ih ha.2 hb.2 fun name => ⟨fun hn => ?_, fun hn => ?_⟩
      · rcases List.mem_cons.1 ((h name).1 (List.mem_cons_of_mem _ hn)) with rfl | hm
        · exact absurd (ha.1 _ hn) (String.lt_irrefl _)
        · exact hm
      · rcases List.mem_cons.1 ((h name).2 (List.mem_cons_of_mem _ hn)) with rfl | hm
        · exact absurd (hb.1 _ hn) (String.lt_irrefl _)
        · exact hm

/-- **Two sets with the same members are equal.** -/
theorem ext {s t : NameSet} (h : ∀ name, name ∈ s ↔ name ∈ t) : s = t := by
  obtain ⟨a, ha⟩ := s
  obtain ⟨b, hb⟩ := t
  obtain rfl := ext_toList ha hb h
  rfl

end NameSet
end RpcReference
