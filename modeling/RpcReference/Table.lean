/-!
# Tables in insertion order

A table is a list of keys with their values, kept in the order in which the keys were first put in.
JSON objects, namespace descriptions and documentation tags are such tables.

* `Table.get?` — the value of a key.
* `Table.put` — **a key keeps its first place and takes its last value**; a new key goes to the end.
* `Table.putAll` — one table put into another, entry after entry.
-/

set_option autoImplicit false

namespace RpcReference

/-- Keys with their values, in insertion order. -/
abbrev Table (κ β : Type) := List (κ × β)

namespace Table

variable {κ β : Type}

/-- The keys, in insertion order. -/
def keys (table : Table κ β) : List κ := table.map Prod.fst

/-- The values, in the order of their keys. -/
def values (table : Table κ β) : List β := table.map Prod.snd

@[simp] theorem keys_nil : keys ([] : Table κ β) = [] := rfl

@[simp] theorem keys_cons (entry : κ × β) (rest : Table κ β) :
    keys (entry :: rest) = entry.1 :: keys rest := rfl

variable [DecidableEq κ]

/-- The value of a key. -/
def get? (key : κ) : Table κ β → Option β
  | [] => none
  | (k, value) :: rest => if k = key then some value else get? key rest

/-- Whether a key is in the table. -/
def hasKey (key : κ) (table : Table κ β) : Bool := (get? key table).isSome

/-- Gives a key a value made from the one it has, in its place; a new key goes to the end. -/
def alter (key : κ) (f : Option β → β) : Table κ β → Table κ β
  | [] => [(key, f none)]
  | (k, value) :: rest =>
      if k = key then (k, f (some value)) :: rest else (k, value) :: alter key f rest

/-- Gives a key a value. -/
def put (key : κ) (value : β) (table : Table κ β) : Table κ β := alter key (fun _ => value) table

/-- Puts the entries of `more` into `table`, one after another. -/
def putAll (table more : Table κ β) : Table κ β :=
  more.foldl (fun t entry => put entry.1 entry.2 t) table

/-! ## What the operations do to look-ups and keys -/

@[simp] theorem get?_nil (key : κ) : get? key ([] : Table κ β) = none := rfl

/-- A key has a value exactly if it is among the keys. -/
theorem get?_isSome_iff (key : κ) (table : Table κ β) :
    (get? key table).isSome = true ↔ key ∈ keys table := by
  induction table with
  | nil => simp
  | cons entry rest ih =>
    obtain ⟨k, value⟩ := entry
    by_cases h : k = key
    · simp [get?, h]
    · have h' : ¬key = k := fun e => h e.symm
      simp [get?, h, h', ih]

theorem get?_alter_self (key : κ) (f : Option β → β) (table : Table κ β) :
    get? key (alter key f table) = some (f (get? key table)) := by
  induction table with
  | nil => simp [alter, get?]
  | cons entry rest ih =>
    obtain ⟨k, value⟩ := entry
    by_cases h : k = key
    · simp [alter, get?, h]
    · simp [alter, get?, h, ih]

theorem get?_alter_of_ne {key other : κ} (f : Option β → β) (hne : other ≠ key)
    (table : Table κ β) : get? other (alter key f table) = get? other table := by
  induction table with
  | nil => simp [alter, get?, hne.symm]
  | cons entry rest ih =>
    obtain ⟨k, value⟩ := entry
    by_cases h : k = key
    · subst h; simp [alter, get?, hne.symm]
    · by_cases h2 : k = other
      · subst h2; simp [alter, get?, hne]
      · simp [alter, get?, h, h2, ih]

/-- The keys after an insertion: unchanged for a known key, one more at the end for a new one. -/
theorem keys_alter (key : κ) (f : Option β → β) (table : Table κ β) :
    keys (alter key f table) = if key ∈ keys table then keys table else keys table ++ [key] := by
  induction table with
  | nil => simp [alter]
  | cons entry rest ih =>
    obtain ⟨k, value⟩ := entry
    by_cases h : k = key
    · simp [alter, h]
    · have h' : ¬key = k := fun e => h e.symm
      by_cases hk : key ∈ keys rest
      · simp [alter, h, ih, hk]
      · simp [alter, h, h', ih, hk]

/-- Distinct keys stay distinct. -/
theorem nodup_keys_alter {table : Table κ β} (key : κ) (f : Option β → β)
    (h : (keys table).Nodup) : (keys (alter key f table)).Nodup := by
  rw [keys_alter]
  split
  · exact h
  · next hk => exact List.nodup_append.2 ⟨h, by simp, fun a ha b hb e => by simp_all⟩

theorem get?_put_self (key : κ) (value : β) (table : Table κ β) :
    get? key (put key value table) = some value := get?_alter_self key _ table

theorem get?_put_of_ne {key other : κ} (value : β) (hne : other ≠ key) (table : Table κ β) :
    get? other (put key value table) = get? other table := get?_alter_of_ne _ hne table

end Table
end RpcReference
