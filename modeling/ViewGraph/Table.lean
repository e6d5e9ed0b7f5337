/-!
# Tables

A table is a list of named entries in the order in which the names were first given. Setting a name
that is there already changes the entry at its place. Names are texts, or whatever can be compared.

* `Table.insert`: sets a name.
* `find?_insert_self`, `find?_insert_of_ne`: what a name stands for afterwards.
* `names_insert`: a new name goes last and an old one keeps its place.
-/

namespace ViewGraph.Table

variable {κ α : Type} [DecidableEq κ]

/-- What a name stands for. -/
def find? (name : κ) (t : List (κ × α)) : Option α := t.lookup name

/-- Sets a name, at its place if the table has it and at the end if not. -/
def insert (name : κ) (a : α) : List (κ × α) → List (κ × α)
  | [] => [(name, a)]
  | (key, old) :: rest =>
    if key = name then (key, a) :: rest else (key, old) :: insert name a rest

/-- Sets several names, one after the other. -/
def insertAll (entries t : List (κ × α)) : List (κ × α) :=
  entries.foldl (fun t (name, a) => insert name a t) t

/-- A table from entries that may set a name several times. -/
def ofList (entries : List (κ × α)) : List (κ × α) := insertAll entries []

theorem find?_cons (name key : κ) (a : α) (t : List (κ × α)) :
    find? name ((key, a) :: t) = if name = key then some a else find? name t := by
  by_cases h : name = key
  · simp [find?, h]
  · simp [find?, List.lookup_cons, h, beq_eq_false_iff_ne.2 h]

theorem find?_insert_self (name : κ) (a : α) (t : List (κ × α)) :
    find? name (insert name a t) = some a := by
  induction t with
  | nil => simp [insert, find?_cons]
  | cons entry rest ih =>
    obtain ⟨key, old⟩ := entry
    by_cases h : key = name
    · simp [insert, find?_cons, h]
    · have h' : name ≠ key := fun e => h e.symm
      simp [insert, find?_cons, h, h', ih]

theorem find?_insert_of_ne {name other : κ} (h : other ≠ name) (a : α)
    (t : List (κ × α)) : find? other (insert name a t) = find? other t := by
  induction t with
  | nil => simp [insert, h, find?]
  | cons entry rest ih =>
    obtain ⟨key, old⟩ := entry
    by_cases hk : key = name
    · subst hk
      simp [insert, find?_cons, h]
    · by_cases ho : other = key <;> simp [insert, find?_cons, hk, ho, ih]

theorem names_insert (name : κ) (a : α) (t : List (κ × α)) :
    (insert name a t).map (·.1) =
      if name ∈ t.map (·.1) then t.map (·.1) else t.map (·.1) ++ [name] := by
  induction t with
  | nil => simp [insert]
  | cons entry rest ih =>
    obtain ⟨key, old⟩ := entry
    by_cases h : key = name
    · simp [insert, h]
    · have h' : name ≠ key := fun e => h e.symm
      by_cases hm : name ∈ rest.map (·.1) <;> simp_all [insert]

end ViewGraph.Table
