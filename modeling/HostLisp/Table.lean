/-!
Tables from names to values that keep the order in which names were first entered.
-/

namespace HostLisp

structure Table (α : Type) where
  entries : List (String × α)

namespace Table

variable {α : Type}

def empty : Table α := ⟨[]⟩

instance : Inhabited (Table α) := ⟨empty⟩

def names (table : Table α) : List String := table.entries.map (·.1)

def get? (table : Table α) (name : String) : Option α := table.entries.lookup name

def contains (table : Table α) (name : String) : Bool := (table.get? name).isSome

/-- Replaces the value of a name where it stands, and enters a new name at the end. -/
def insertEntry (name : String) (value : α) : List (String × α) → List (String × α)
  | [] => [(name, value)]
  | (key, held) :: entries =>
    if key = name then (key, value) :: entries
    else (key, held) :: insertEntry name value entries

def insert (table : Table α) (name : String) (value : α) : Table α :=
  ⟨insertEntry name value table.entries⟩

theorem lookup_cons_eq_ite (key name : String) (held : α) (entries : List (String × α)) :
    ((key, held) :: entries).lookup name = if name = key then some held else entries.lookup name := by
  rw [List.lookup_cons]
  by_cases same : name = key
  · rw [if_pos same, beq_iff_eq.2 same]
  · rw [if_neg same, beq_false_of_ne same]

theorem lookup_insertEntry (entries : List (String × α)) (name other : String) (value : α) :
    (insertEntry name value entries).lookup other =
      if other = name then some value else entries.lookup other := by
  induction entries with
  | nil => exact lookup_cons_eq_ite name other value []
  | cons entry entries ih =>
    obtain ⟨key, held⟩ := entry
    by_cases here : key = name
    · rw [insertEntry, if_pos here, lookup_cons_eq_ite, lookup_cons_eq_ite, here]
      by_cases same : other = name
      · rw [if_pos same, if_pos same]
      · rw [if_neg same, if_neg same, if_neg same]
    · rw [insertEntry, if_neg here, lookup_cons_eq_ite, lookup_cons_eq_ite, ih]
      by_cases found : other = key
      · rw [if_pos found, if_pos found, if_neg (found ▸ here)]
      · rw [if_neg found, if_neg found]

theorem get?_insert (table : Table α) (name other : String) (value : α) :
    (table.insert name value).get? other =
      if other = name then some value else table.get? other :=
  lookup_insertEntry table.entries name other value

theorem contains_insert (table : Table α) (name other : String) (value : α) :
    (table.insert name value).contains other = (other == name || table.contains other) := by
  rw [contains, get?_insert]
  by_cases same : other = name <;> simp [same, contains]

theorem map_insertEntry (entries : List (String × α)) (name : String) (value : α) :
    (insertEntry name value entries).map (·.1) =
      if name ∈ entries.map (·.1) then entries.map (·.1) else entries.map (·.1) ++ [name] := by
  induction entries with
  | nil => rfl
  | cons entry entries ih =>
    obtain ⟨key, held⟩ := entry
    by_cases here : key = name
    · subst here
      simp [insertEntry]
    · have apart : ¬name = key := fun same => here same.symm
      rw [insertEntry, if_neg here, List.map_cons, List.map_cons, ih]
      by_cases later : name ∈ entries.map (·.1)
      · rw [if_pos later, if_pos (List.mem_cons_of_mem key later)]
      · rw [if_neg later, if_neg (List.not_mem_cons_of_ne_of_not_mem apart later),
          List.cons_append]

theorem names_insert (table : Table α) (name : String) (value : α) :
    (table.insert name value).names =
      if name ∈ table.names then table.names else table.names ++ [name] :=
  map_insertEntry table.entries name value

end Table

end HostLisp
