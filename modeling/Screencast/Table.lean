/-!
Tables: keys with values, in the order in which the keys first came. A key that is put again keeps
its place.
-/

namespace Screencast

abbrev Table (κ ν : Type) := List (κ × ν)

namespace Table

variable {κ ν : Type} [DecidableEq κ]

def find? (key : κ) : Table κ ν → Option ν
  | [] => none
  | (k, v) :: rest => if k = key then some v else find? key rest

def put (key : κ) (value : ν) : Table κ ν → Table κ ν
  | [] => [(key, value)]
  | (k, v) :: rest => if k = key then (k, value) :: rest else (k, v) :: put key value rest

def erase (key : κ) (table : Table κ ν) : Table κ ν :=
  table.filter (·.1 ≠ key)

def keys (table : Table κ ν) : List κ :=
  table.map (·.1)

def ofList (entries : List (κ × ν)) : Table κ ν :=
  entries.foldl (fun table (key, value) => put key value table) []

theorem find?_put (key other : κ) (value : ν) (table : Table κ ν) :
    find? other (put key value table) = if key = other then some value else find? other table := by
  induction table with
  | nil => rfl
  | cons entry rest ih =>
    obtain ⟨k, v⟩ := entry
    by_cases same : k = key
    · subst same; by_cases h : k = other <;> simp [put, find?, h]
    · by_cases h : k = other
      · subst h
        simp [put, find?, same, Ne.symm same]
      · simp [put, find?, same, h, ih]

theorem find?_erase (key other : κ) (table : Table κ ν) :
    find? other (erase key table) = if key = other then none else find? other table := by
  induction table with
  | nil => simp [erase, find?]
  | cons entry rest ih =>
    obtain ⟨k, v⟩ := entry
    unfold erase at ih ⊢
    by_cases same : k = key
    · subst same; by_cases h : k = other <;> simp_all [find?]
    · by_cases h : k = other
      · subst h; simp [find?, same, Ne.symm same]
      · simp_all [find?]

end Table

end Screencast
