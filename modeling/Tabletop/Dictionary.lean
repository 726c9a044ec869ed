/-
# Dictionaries with names as keys

A list of pairs in ascending order of the names, without repeated names. Names are compared by
code point, which for well-formed text is the order of their encoded bytes. Storing a value under
a name that is taken replaces the old value.
-/

namespace Tabletop

abbrev Dictionary (α : Type) : Type :=
  List (String × α)

namespace Dictionary

variable {α : Type}

def empty : Dictionary α :=
  []

def find? (name : String) : Dictionary α → Option α
  | [] => none
  | (key, value) :: rest => if key = name then some value else find? name rest

def has (name : String) (d : Dictionary α) : Bool :=
  (find? name d).isSome

def put (name : String) (value : α) : Dictionary α → Dictionary α
  | [] => [(name, value)]
  | (key, old) :: rest =>
      if key = name then (name, value) :: rest
      else if name < key then (name, value) :: (key, old) :: rest
      else (key, old) :: put name value rest

def remove (name : String) (d : Dictionary α) : Dictionary α :=
  d.filter fun (key, _) => key ≠ name

def keys (d : Dictionary α) : List String :=
  d.map (·.1)

theorem mem_of_find? {name : String} {value : α} {d : Dictionary α}
    (h : find? name d = some value) : (name, value) ∈ d := by
  induction d with
  | nil => cases h
  | cons entry rest ih =>
      rw [find?] at h
      split at h
      · next hkey =>
        cases hkey
        cases h
        exact List.mem_cons_self
      · exact List.mem_cons_of_mem _ (ih h)

@[simp]
theorem find?_put_self (name : String) (value : α) (d : Dictionary α) :
    find? name (put name value d) = some value := by
  induction d with
  | nil => simp [put, find?]
  | cons entry rest ih =>
      simp only [put]
      split
      · simp [find?]
      · split
        · simp [find?]
        · simp_all [find?]

theorem find?_put_of_ne {name other : String} (h : name ≠ other) (value : α)
    (d : Dictionary α) : find? other (put name value d) = find? other d := by
  induction d with
  | nil => simp [put, find?, h]
  | cons entry rest ih =>
      simp only [put]
      split
      · simp_all [find?]
      · split
        · simp [find?, h]
        · simp [find?, ih]

@[simp]
theorem find?_remove_self (name : String) (d : Dictionary α) :
    find? name (remove name d) = none := by
  induction d with
  | nil => simp [remove, find?]
  | cons entry rest ih =>
      by_cases h : entry.1 = name
      · simpa [remove, h] using ih
      · simpa [remove, find?, h] using ih

theorem find?_remove_of_ne {name other : String} (h : name ≠ other) (d : Dictionary α) :
    find? other (remove name d) = find? other d := by
  induction d with
  | nil => simp [remove]
  | cons entry rest ih =>
      by_cases hname : entry.1 = name
      · simpa [remove, find?, hname, h] using ih
      · simp only [remove, ne_eq, hname, not_false_eq_true, decide_true, List.filter_cons_of_pos,
          find?]
        split
        · rfl
        · simpa [remove] using ih

end Dictionary

end Tabletop
