/-
# Dictionaries in order

A dictionary is meant to list its keys in ascending order, and a list of pairs that is one stays one
whatever is stored in it or removed from it. In order every key has one value at most, so looking a
key up and finding its entry in the list are the same.
-/

import Tabletop.Dictionary

namespace Tabletop.Dictionary

variable {α : Type} {name key : String} {value : α} {d rest : Dictionary α}

/-- The keys ascend, so none of them stands twice. -/
def Ascending (d : Dictionary α) : Prop :=
  d.keys.Pairwise (· < ·)

instance (d : Dictionary α) : Decidable (Ascending d) :=
  inferInstanceAs (Decidable (d.keys.Pairwise (· < ·)))

@[simp]
theorem keys_cons (name : String) (value : α) (d : Dictionary α) :
    keys ((name, value) :: d) = name :: keys d :=
  rfl

theorem mem_keys_iff : name ∈ keys d ↔ ∃ value, find? name d = some value := by
  induction d with
  | nil => simp [keys, find?]
  | cons entry rest ih =>
      obtain ⟨key, value⟩ := entry
      rw [keys_cons, List.mem_cons, find?]
      by_cases h : key = name
      · simp [h]
      · simp [h, Ne.symm h, ih]

theorem mem_keys_of_mem (h : (name, value) ∈ d) : name ∈ keys d :=
  List.mem_map.mpr ⟨_, h, rfl⟩

theorem find?_eq_none_iff : find? name d = none ↔ name ∉ keys d := by
  rw [mem_keys_iff]
  cases find? name d <;> simp

namespace Ascending

theorem of_cons (h : Ascending ((key, value) :: rest)) : Ascending rest :=
  (List.pairwise_cons.mp h).2

theorem head_lt (h : Ascending ((key, value) :: rest)) (hname : name ∈ keys rest) : key < name :=
  (List.pairwise_cons.mp h).1 name hname

theorem head_not_mem (h : Ascending ((key, value) :: rest)) : key ∉ keys rest :=
  fun hmem => String.lt_irrefl key (h.head_lt hmem)

theorem nodup (h : Ascending d) : (keys d).Nodup := by
  refine List.Pairwise.imp (fun {first second} hlt heq => ?_) h
  subst heq
  exact String.lt_irrefl first hlt

/-- In order, an entry of the list is what its key is looked up as. -/
theorem find?_of_mem (h : Ascending d) (hmem : (name, value) ∈ d) : find? name d = some value := by
  induction d with
  | nil => cases hmem
  | cons entry rest ih =>
      obtain ⟨key, first⟩ := entry
      rw [find?]
      rcases List.mem_cons.mp hmem with heq | hrest
      · cases heq
        exact if_pos rfl
      · have hne : key ≠ name := fun heq => h.head_not_mem (heq ▸ mem_keys_of_mem hrest)
        rw [if_neg hne]
        exact ih h.of_cons hrest

end Ascending

/-! ## Storing and removing -/

theorem mem_keys_put {other : String} :
    other ∈ keys (put name value d) ↔ other = name ∨ other ∈ keys d := by
  rw [mem_keys_iff, mem_keys_iff]
  by_cases h : name = other
  · subst h
    simp
  · simp [find?_put_of_ne h, Ne.symm h]

/-- What comes after everything else is stored at the end. -/
theorem put_eq_append (h : ∀ key ∈ keys d, key < name) :
    put name value d = d ++ [(name, value)] := by
  induction d with
  | nil => rfl
  | cons entry rest ih =>
      obtain ⟨key, old⟩ := entry
      have hlt : key < name := h key List.mem_cons_self
      have hne : key ≠ name := fun heq => String.lt_irrefl name (heq ▸ hlt)
      rw [put, if_neg hne, if_neg (String.lt_asymm hlt),
        ih fun other hother => h other (List.mem_cons_of_mem _ hother)]
      rfl

theorem Ascending.put (h : Ascending d) (name : String) (value : α) :
    Ascending (Dictionary.put name value d) := by
  induction d with
  | nil => exact List.pairwise_singleton _ _
  | cons entry rest ih =>
      obtain ⟨key, old⟩ := entry
      rw [Dictionary.put]
      split
      · next heq =>
        subst heq
        exact h
      · split
        · next hne hlt =>
          refine List.pairwise_cons.mpr ⟨fun other hother => ?_, h⟩
          rcases List.mem_cons.mp hother with rfl | hrest
          · exact hlt
          · exact String.lt_trans hlt (h.head_lt hrest)
        · next hne hnot =>
          refine List.pairwise_cons.mpr ⟨fun other hother => ?_, ih h.of_cons⟩
          rcases mem_keys_put.mp hother with rfl | hrest
          · exact String.not_le.mp fun hle => hne (String.le_antisymm (String.not_lt.mp hnot) hle)
          · exact h.head_lt hrest

theorem Ascending.remove (h : Ascending d) (name : String) :
    Ascending (Dictionary.remove name d) :=
  List.Pairwise.sublist (List.filter_sublist.map _) h

end Tabletop.Dictionary
