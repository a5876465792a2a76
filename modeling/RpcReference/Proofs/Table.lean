import Mathlib.Data.List.Basic
import Mathlib.Data.List.Forall2
import Mathlib.Data.List.Induction
import RpcReference.Table

/-!
# Tables and first occurrences

The keys of a table that was filled one entry after another are the **first occurrences** of the
keys that were given, in the order in which they were given; their values are the **last** that were
given.

* `Table.pairwise_eraseDups` — first occurrences stand in the order of the places at which they
  occur first, and leaving elements out of a list (`Table.idxOf_lt_of_filter`) does not change that
  order.
* `Table.eraseDups_append_singleton` — one more element, as an insertion into a table sees it;
  `Table.eraseDups_filter` — leaving elements out, before or after.
* `Table.values_eq` — a table without repeated keys lists what is found under its keys.
* `Table.putAll_nil` — such a table is what it is filled with.
* `Table.keys_putAll`, `Table.get?_putAll` — **the keys of a filled table and their values**: old
  keys first, the value that is given last.  `Table.putAll_putAll` says that filling it so once more
  changes nothing.
* `Table.Aligned` — tables with the same keys, and related values under them.
-/

set_option autoImplicit false

namespace RpcReference.Table

/-! ## First occurrences

The library takes first occurrences from the front of a list, and a table that is filled meets its
keys one after the other at the end.  The two are brought together by
`Table.eraseDups_append_singleton`; with it, what holds of first occurrences is shown by induction
from the end of the list. -/

section FirstOccurrence

variable {α : Type} [BEq α] [LawfulBEq α]

/-- Two elements that both stay occur first in the same order as before. -/
theorem idxOf_lt_of_filter {p : α → Bool} {a b : α} {l : List α} (ha : p a = true)
    (hb : p b = true) (h : (l.filter p).idxOf a < (l.filter p).idxOf b) :
    l.idxOf a < l.idxOf b := by
  induction l with
  | nil => simp at h
  | cons c rest ih =>
    by_cases hcb : c = b
    · subst hcb
      simp [List.filter_cons_of_pos hb] at h
    by_cases hca : c = a
    · subst hca
      rw [List.idxOf_cons_self, List.idxOf_cons_ne _ hcb]
      exact Nat.succ_pos _
    rw [List.idxOf_cons_ne _ hca, List.idxOf_cons_ne _ hcb]
    refine Nat.succ_lt_succ (ih ?_)
    by_cases hc : p c = true
    · rw [List.filter_cons_of_pos hc, List.idxOf_cons_ne _ hca, List.idxOf_cons_ne _ hcb] at h
      exact Nat.lt_of_succ_lt_succ h
    · rwa [List.filter_cons_of_neg hc] at h

/-- **First occurrences stand in the order in which they occur.** -/
theorem pairwise_eraseDups (l : List α) :
    l.eraseDups.Pairwise fun a b => l.idxOf a < l.idxOf b := by
  -- by the recursion of `eraseDups`, which goes on with a shorter list and not with the rest
  match l with
  | [] => exact List.Pairwise.nil
  | c :: rest =>
    have hne : ∀ b ∈ (rest.filter fun b => !b == c).eraseDups, c ≠ b := by
      intro b hb
      have := (List.mem_filter.1 (List.mem_eraseDups.1 hb)).2
      exact fun h => by simp [h] at this
    rw [List.eraseDups_cons, List.pairwise_cons]
    refine ⟨fun b hb => ?_, ?_⟩
    · rw [List.idxOf_cons_self, List.idxOf_cons_ne _ (hne b hb)]
      exact Nat.succ_pos _
    · refine (pairwise_eraseDups (rest.filter fun b => !b == c)).imp_of_mem ?_
      intro a b ha hb hlt
      rw [List.idxOf_cons_ne _ (hne a ha), List.idxOf_cons_ne _ (hne b hb)]
      refine Nat.succ_lt_succ (idxOf_lt_of_filter (p := fun b => !b == c) ?_ ?_ hlt)
      · simpa using (hne a ha).symm
      · simpa using (hne b hb).symm
termination_by l.length
decreasing_by exact Nat.lt_succ_of_le (List.length_filter_le _ _)

theorem nodup_eraseDups (l : List α) : l.eraseDups.Nodup :=
  (pairwise_eraseDups l).imp fun h => fun e => Nat.ne_of_lt h (by rw [e])

/-- One more element is a first occurrence unless it was there. -/
theorem eraseDups_append_singleton [DecidableEq α] (l : List α) (a : α) :
    (l ++ [a]).eraseDups = if a ∈ l then l.eraseDups else l.eraseDups ++ [a] := by
  rw [List.eraseDups_append]
  by_cases h : a ∈ l
  · simp [List.removeAll, h]
  · simp [List.removeAll, h, List.eraseDups_cons]

/-- Different elements are all first occurrences. -/
theorem eraseDups_eq_self [DecidableEq α] {l : List α} (h : l.Nodup) : l.eraseDups = l := by
  induction l using List.reverseRecOn with
  | nil => rfl
  | append_singleton l a ih =>
    obtain ⟨hl, -, hdisjoint⟩ := List.nodup_append.1 h
    have hnew : a ∉ l := fun hmem => hdisjoint a hmem a (List.mem_singleton_self a) rfl
    rw [eraseDups_append_singleton, if_neg hnew, ih hl]

/-- What is appended meets the same first occurrences. -/
theorem eraseDups_append_congr {l l' : List α} (h : l.eraseDups = l'.eraseDups) (more : List α) :
    (l ++ more).eraseDups = (l' ++ more).eraseDups := by
  have hmem : ∀ a, a ∈ l ↔ a ∈ l' := fun a => by
    rw [← List.mem_eraseDups, h, List.mem_eraseDups]
  rw [List.eraseDups_append, List.eraseDups_append, h]
  congr 2
  refine List.filter_congr fun a _ => ?_
  rw [Bool.eq_iff_iff]
  simp [hmem]

/-- It is the same whether elements are left out before first occurrences are taken, or after. -/
theorem eraseDups_filter [DecidableEq α] (p : α → Bool) (l : List α) :
    (l.filter p).eraseDups = l.eraseDups.filter p := by
  induction l using List.reverseRecOn with
  | nil => rfl
  | append_singleton l a ih =>
    rw [List.filter_append, eraseDups_append_singleton]
    cases hp : p a with
    | false =>
      rw [List.filter_cons_of_neg (by simp [hp]), List.filter_nil, List.append_nil, ih]
      split
      · rfl
      · rw [List.filter_append, List.filter_cons_of_neg (by simp [hp]), List.filter_nil,
          List.append_nil]
    | true =>
      rw [List.filter_cons_of_pos hp, List.filter_nil, eraseDups_append_singleton]
      by_cases hmem : a ∈ l
      · rw [if_pos hmem, if_pos (List.mem_filter.2 ⟨hmem, hp⟩), ih]
      · rw [if_neg hmem, if_neg fun h => hmem (List.mem_filter.1 h).1, ih, List.filter_append,
          List.filter_cons_of_pos hp, List.filter_nil]

end FirstOccurrence

/-! ## Keys and values

What is found under a key is the first entry with it.  Where no key is repeated it is the only one,
and then a table is as good as the set of its entries. -/

variable {κ β : Type} [DecidableEq κ]

/-- What is found under a key stands beside it. -/
theorem mem_of_get? {key : κ} {value : β} {table : Table κ β} (h : get? key table = some value) :
    (key, value) ∈ table := by
  induction table with
  | nil => simp at h
  | cons entry rest ih =>
    obtain ⟨k, v⟩ := entry
    by_cases hk : k = key
    · simp only [get?, hk, if_true, Option.some_inj] at h
      simp [hk, h]
    · simp only [get?, hk, if_false] at h
      exact List.mem_cons_of_mem _ (ih h)

/-- Without repeated keys, what stands beside a key is found under it. -/
theorem get?_eq_some_iff {key : κ} {value : β} {table : Table κ β} (hnd : (keys table).Nodup) :
    get? key table = some value ↔ (key, value) ∈ table := by
  refine ⟨mem_of_get?, fun h => ?_⟩
  induction table with
  | nil => simp at h
  | cons entry rest ih =>
    obtain ⟨k, v⟩ := entry
    rw [keys_cons, List.nodup_cons] at hnd
    rcases List.mem_cons.1 h with he | hm
    · cases he
      simp [get?]
    · have hne : k ≠ key := by
        rintro rfl
        exact hnd.1 (List.mem_map.2 ⟨_, hm, rfl⟩)
      simp [get?, hne, ih hnd.2 hm]

theorem get?_eq_none_iff {key : κ} {table : Table κ β} :
    get? key table = none ↔ key ∉ keys table := by
  rw [← get?_isSome_iff, Option.not_isSome_iff_eq_none]

/-- The first of two tables is asked first. -/
theorem get?_append (key : κ) (table more : Table κ β) :
    get? key (table ++ more) = (get? key table).or (get? key more) := by
  induction table with
  | nil => rfl
  | cons entry rest ih =>
    obtain ⟨k, value⟩ := entry
    by_cases h : k = key
    · simp [get?, h]
    · simp [get?, h, ih]

/-- **A table without repeated keys lists what is found under its keys**, in their order. -/
theorem values_eq {table : Table κ β} (hnd : (keys table).Nodup) :
    values table = (keys table).filterMap fun key => get? key table := by
  have h : ∀ entry ∈ table, get? entry.1 table = some entry.2 := fun entry hm =>
    (get?_eq_some_iff hnd).2 hm
  rw [keys, List.filterMap_map, values, ← List.filterMap_eq_map]
  exact List.filterMap_congr fun entry hm => (h entry hm).symm

/-! ## Filling a table

`Table.put` changes the value of a key where it stands, or puts the key at the end.  A table is
filled by one `put` for each entry, so whatever one of them keeps is kept by all. -/

/-- A new key goes to the end. -/
theorem put_of_not_mem {key : κ} {table : Table κ β} (value : β) (h : key ∉ keys table) :
    put key value table = table ++ [(key, value)] := by
  induction table with
  | nil => rfl
  | cons entry rest ih =>
    obtain ⟨k, v⟩ := entry
    rw [keys_cons, List.mem_cons, not_or] at h
    rw [put, alter, if_neg (Ne.symm h.1), List.cons_append, ← ih h.2]
    rfl

/-- New keys are put at the end one after the other. -/
theorem putAll_eq_append {table more : Table κ β} (h : (keys (table ++ more)).Nodup) :
    putAll table more = table ++ more := by
  induction more generalizing table with
  | nil => rw [List.append_nil]; rfl
  | cons entry rest ih =>
    obtain ⟨key, value⟩ := entry
    have hnew : key ∉ keys table := by
      rw [keys, List.map_append, List.map_cons, List.nodup_append] at h
      exact fun hmem => h.2.2 key hmem key List.mem_cons_self rfl
    have happend : table ++ (key, value) :: rest = (table ++ [(key, value)]) ++ rest := by
      rw [List.append_assoc, List.singleton_append]
    rw [happend] at h ⊢
    rw [← ih h, putAll, List.foldl_cons, put_of_not_mem value hnew]
    rfl

/-- The keys of a filled table are different if they were before. -/
theorem nodup_keys_putAll {table : Table κ β} (more : Table κ β) (h : (keys table).Nodup) :
    (keys (putAll table more)).Nodup := by
  induction more generalizing table with
  | nil => exact h
  | cons entry rest ih => exact ih (nodup_keys_alter entry.1 _ h)

/-- An entry is there before it is put into a table, or has the value that is put in. -/
theorem mem_put {key : κ} {value : β} {table : Table κ β} {entry : κ × β}
    (h : entry ∈ put key value table) : entry ∈ table ∨ entry.2 = value := by
  induction table with
  | nil =>
    rw [put, alter, List.mem_singleton] at h
    exact .inr (by rw [h])
  | cons first rest ih =>
    obtain ⟨k, v⟩ := first
    rw [put, alter] at h
    split at h
    · rcases List.mem_cons.1 h with rfl | h
      · exact .inr rfl
      · exact .inl (List.mem_cons_of_mem _ h)
    · rcases List.mem_cons.1 h with rfl | h
      · exact .inl List.mem_cons_self
      · exact (ih h).imp (List.mem_cons_of_mem _) id

/-- Values keep a property that those put in have too. -/
theorem forall_mem_putAll {p : β → Prop} {table more : Table κ β} (h : ∀ entry ∈ table, p entry.2)
    (hmore : ∀ entry ∈ more, p entry.2) : ∀ entry ∈ putAll table more, p entry.2 := by
  induction more generalizing table with
  | nil => exact h
  | cons first rest ih =>
    refine ih (fun entry hentry => ?_) fun entry hentry => hmore entry (List.mem_cons_of_mem _ hentry)
    rcases mem_put hentry with hentry | heq
    · exact h entry hentry
    · rw [heq]
      exact hmore first List.mem_cons_self

/-- **Entries with different keys fill an empty table as they are.** -/
theorem putAll_nil {table : Table κ β} (h : (keys table).Nodup) : putAll [] table = table := by
  rw [putAll_eq_append (by rwa [List.nil_append]), List.nil_append]

/-! ## What is found in a filled table

A filled table is known from its keys and from what is found under each of them.  Both are seen from
the end of the list of entries: the last entry decides for its key, and adds a key at the end if it
is new. -/

/-- The value that a key is given last. -/
def lastOf (key : κ) (entries : Table κ β) : Option β := get? key entries.reverse

theorem putAll_append_singleton (table more : Table κ β) (entry : κ × β) :
    putAll table (more ++ [entry]) = put entry.1 entry.2 (putAll table more) := by
  rw [putAll, List.foldl_append]
  rfl

/-- **The keys that were there come first**, then the new ones in the order in which they are given
first. -/
theorem keys_putAll (table more : Table κ β) :
    keys (putAll table more) =
      keys table ++ ((keys more).filter fun key => key ∉ keys table).eraseDups := by
  induction more using List.reverseRecOn with
  | nil => exact (List.append_nil _).symm
  | append_singleton more entry ih =>
    obtain ⟨key, value⟩ := entry
    have hkeys : keys (more ++ [(key, value)]) = keys more ++ [key] := List.map_append
    rw [putAll_append_singleton, put, keys_alter, ih, hkeys, List.filter_append]
    by_cases hold : key ∈ keys table
    · rw [if_pos (List.mem_append_left _ hold), List.filter_cons_of_neg (by simpa using hold),
        List.filter_nil, List.append_nil]
    · rw [List.filter_cons_of_pos (by simpa using hold), List.filter_nil, eraseDups_append_singleton]
      by_cases hgiven : key ∈ (keys more).filter fun key => key ∉ keys table
      · rw [if_pos hgiven, if_pos (List.mem_append_right _ (List.mem_eraseDups.2 hgiven))]
      · rw [if_neg hgiven, if_neg, List.append_assoc]
        rw [List.mem_append, List.mem_eraseDups]
        exact not_or_intro hold hgiven

theorem lastOf_cons (key other : κ) (value : β) (entries : Table κ β) :
    lastOf key ((other, value) :: entries) =
      (lastOf key entries).or (if other = key then some value else none) := by
  rw [lastOf, List.reverse_cons, get?_append]
  rfl

theorem lastOf_eq_none_iff {key : κ} {entries : Table κ β} :
    lastOf key entries = none ↔ get? key entries = none := by
  rw [lastOf, get?_eq_none_iff, get?_eq_none_iff, keys, List.map_reverse, List.mem_reverse]
  rfl

/-- **A key has the value that it is given last**, or else the one that it had. -/
theorem get?_putAll (key : κ) (table more : Table κ β) :
    get? key (putAll table more) = (lastOf key more).or (get? key table) := by
  induction more using List.reverseRecOn with
  | nil => rfl
  | append_singleton more entry ih =>
    obtain ⟨other, value⟩ := entry
    rw [putAll_append_singleton, lastOf, List.reverse_append, List.reverse_singleton,
      List.singleton_append, get?]
    split
    · next heq =>
      subst heq
      exact get?_put_self _ _ _
    · next hne => exact (get?_put_of_ne value (Ne.symm hne) _).trans ih

/-- In a table without repeated keys the order of the entries does not matter. -/
theorem get?_eq_of_perm {table table' : Table κ β} (hnodup : (keys table).Nodup)
    (h : table.Perm table') (key : κ) : get? key table' = get? key table := by
  have hnodup' : (keys table').Nodup := (h.map Prod.fst).nodup_iff.1 hnodup
  refine Option.ext fun value => ?_
  rw [get?_eq_some_iff hnodup, get?_eq_some_iff hnodup', h.mem_iff]

/-- Without repeated keys there is one value to give. -/
theorem lastOf_eq_get? {table : Table κ β} (hnodup : (keys table).Nodup) (key : κ) :
    lastOf key table = get? key table :=
  get?_eq_of_perm hnodup table.reverse_perm.symm key

/-- **Two tables with the same keys in the same order and the same values under them are equal.** -/
theorem ext_get?_of_keys {table table' : Table κ β} (hnodup : (keys table).Nodup)
    (hkeys : keys table = keys table') (hget : ∀ key, get? key table = get? key table') :
    table = table' := by
  have hvalues : values table = values table' := by
    rw [values_eq hnodup, values_eq (hkeys ▸ hnodup), hkeys]
    exact List.filterMap_congr fun key _ => hget key
  rw [← List.zip_unzip table, ← List.zip_unzip table', List.unzip_eq_map, List.unzip_eq_map]
  exact congrArg₂ List.zip hkeys hvalues

/-- **Filling a table with what it was filled to changes nothing more**: every key has its place and
its value already. -/
theorem putAll_putAll {table : Table κ β} (more : Table κ β) (hnodup : (keys table).Nodup) :
    putAll table (putAll table more) = putAll table more := by
  have hfilled := nodup_keys_putAll more hnodup
  refine ext_get?_of_keys (nodup_keys_putAll _ hnodup) ?_ fun key => ?_
  · have hold : (keys table).filter (fun key => key ∉ keys table) = [] :=
      List.filter_eq_nil_iff.2 fun key hkey => by simpa using hkey
    have hnew : (((keys more).filter fun key => key ∉ keys table).eraseDups.filter
        fun key => key ∉ keys table) = ((keys more).filter fun key => key ∉ keys table).eraseDups :=
      List.filter_eq_self.2 fun key hkey =>
        (List.mem_filter.1 (List.mem_eraseDups.1 hkey)).2
    rw [keys_putAll, keys_putAll, List.filter_append, hold, List.nil_append, hnew,
      eraseDups_eq_self (nodup_eraseDups _)]
  · rw [get?_putAll, lastOf_eq_get? hfilled, get?_putAll, Option.or_assoc, Option.or_self]

/-! ## Tables of one shape

Two tables may hold different things under the same keys, as a text does and the values that are
read from it.  Look-ups in both find things that belong together. -/

section Aligned

variable {α : Type} {R : α → β → Prop} {table : Table κ α} {table' : Table κ β}

/-- **Tables that list the same keys, with related values.** -/
abbrev Aligned (R : α → β → Prop) : Table κ α → Table κ β → Prop :=
  List.Forall₂ fun entry entry' => entry.1 = entry'.1 ∧ R entry.2 entry'.2

/-- **Look-ups in aligned tables find related values**, or nothing in both. -/
theorem Aligned.rel_get? (h : Aligned R table table') (key : κ) :
    Option.Rel R (get? key table) (get? key table') := by
  induction h with
  | nil => exact .none
  | @cons entry entry' _ _ hentry _ ih =>
    obtain ⟨k, v⟩ := entry
    obtain ⟨k', v'⟩ := entry'
    obtain ⟨rfl, hR⟩ := hentry
    rw [get?, get?]
    split
    · exact .some hR
    · exact ih

/-- So do look-ups from the end. -/
theorem Aligned.rel_lastOf (h : Aligned R table table') (key : κ) :
    Option.Rel R (lastOf key table) (lastOf key table') :=
  Aligned.rel_get? (List.forall₂_reverse_iff.2 h) key

omit [DecidableEq κ] in
/-- Tables are aligned by a function if one is the other with every value changed by it. -/
theorem aligned_iff_eq_map {f : α → β} :
    Aligned (fun v v' => v' = f v) table table' ↔
      table' = table.map fun entry => (entry.1, f entry.2) := by
  refine ⟨fun h => ?_, ?_⟩
  · induction h with
    | nil => rfl
    | cons hentry _ ih => rw [List.map_cons, ← ih, hentry.1, ← hentry.2]
  · rintro rfl
    exact List.forall₂_map_right_iff.2 (List.forall₂_same.2 fun entry _ => ⟨rfl, rfl⟩)

end Aligned

end RpcReference.Table
