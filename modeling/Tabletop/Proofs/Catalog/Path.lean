/-
# Which tables have a path

A path is the names of a chain of tables with points between them, and looking it up takes it apart
at all of its points. So the tables that paths lead to are those at the end of a chain of names
without a point. A point in a name is taken for one between names, and there is no other way to
write it.
-/

import Tabletop.Catalog
import Tabletop.Proofs.Table.Document

namespace Tabletop.Catalog

/-- The table at the end of a chain of names: the first one is kept in the catalog, and each of the
others is nested in the one before. -/
def at? (c : Catalog) : (names : List String) → Option Table
  | [] => none
  | name :: names =>
      match c.find? name with
      | some t => t.at? names
      | none => none

variable {c : Catalog} {t s : Table} {path : String} {names : List String}

/-! ## Names without points -/

/-- A path is taken apart at its points, as lists are at a separator. -/
theorem splitPath_eq_splitOn (cs : List Char) :
    (splitPath cs).1 :: (splitPath cs).2 = cs.splitOn '.' := by
  induction cs with
  | nil => rfl
  | cons first cs ih =>
      rw [List.splitOn_cons_eq_if_modifyHead, ← ih, splitPath]
      by_cases h : first = '.' <;> simp [h]

/-- No part of a path has a point in it. -/
theorem not_mem_splitPath (cs : List Char) :
    ∀ part ∈ (splitPath cs).1 :: (splitPath cs).2, '.' ∉ part := by
  induction cs with
  | nil => simp [splitPath]
  | cons first cs ih =>
      rw [splitPath]
      obtain ⟨hhead, htail⟩ := List.forall_mem_cons.mp ih
      by_cases h : first = '.'
      · simpa [h] using ⟨hhead, htail⟩
      · simpa [h, Ne.symm h] using ⟨hhead, htail⟩

/-- The names that a path is made of. -/
def namesOf (path : String) : List String :=
  ((splitPath path.toList).1 :: (splitPath path.toList).2).map String.ofList

theorem toList_namesOf (path : String) :
    (namesOf path).map String.toList = path.toList.splitOn '.' := by
  rw [namesOf, List.map_map, splitPath_eq_splitOn]
  exact (List.map_congr_left fun cs _ => String.toList_ofList).trans (List.map_id _)

theorem not_mem_namesOf : ∀ name ∈ namesOf path, '.' ∉ name.toList := by
  intro name hname
  obtain ⟨part, hpart, rfl⟩ := List.mem_map.mp hname
  rw [String.toList_ofList]
  exact not_mem_splitPath _ part hpart

theorem intercalate_namesOf (path : String) : ".".intercalate (namesOf path) = path := by
  apply String.toList_inj.mp
  rw [String.toList_intercalate, toList_namesOf]
  exact List.intercalate_splitOn '.'

theorem namesOf_intercalate (hnames : names ≠ []) (h : ∀ name ∈ names, '.' ∉ name.toList) :
    namesOf (".".intercalate names) = names := by
  have hlists : (namesOf (".".intercalate names)).map String.toList = names.map String.toList := by
    rw [toList_namesOf, String.toList_intercalate]
    refine List.splitOn_intercalate '.' (fun cs hcs => ?_) (by simpa using hnames)
    obtain ⟨name, hname, rfl⟩ := List.mem_map.mp hcs
    exact h name hname
  exact List.map_injective_iff.mpr (fun _ _ => String.toList_inj.mp) hlists

/-! ## Looking up paths -/

theorem descend_eq_ok_iff : descend path t names = .ok s ↔ t.at? names = some s := by
  induction names generalizing t with
  | nil => simp [descend, Table.at?]
  | cons name names ih =>
      rw [descend, Table.at?]
      cases t.subtable? name with
      | none => simp
      | some sub => exact ih

/-- Looking up a path goes along its names. -/
theorem lookupPath_eq_ok_iff_at? : c.lookupPath path = .ok t ↔ c.at? (namesOf path) = some t := by
  unfold lookupPath namesOf
  generalize splitPath path.toList = parts
  obtain ⟨root, names⟩ := parts
  dsimp only
  rw [List.map_cons, at?, lookup]
  cases c.find? (String.ofList root) with
  | none => simp [bind, Except.bind]
  | some first =>
      change descend path first (names.map String.ofList) = .ok t ↔ _
      exact descend_eq_ok_iff

/-- A path leads to a table exactly if it joins a chain of names without points that leads there,
and rolling on the path is then rolling on the table. -/
theorem lookupPath_joined_iff (c : Catalog) (path : String) (t : Table) :
    (c.lookupPath path = .ok t ↔
      ∃ names, (∀ name ∈ names, '.' ∉ name.toList) ∧ ".".intercalate names = path ∧
        c.at? names = some t) ∧
    ∀ {σ : Type} [RandomSource σ] (modifier : Int64), c.lookupPath path = .ok t →
      (c.resolve path modifier : Calculation σ Table.Result) =
        t.resolve c.maxRedirects modifier := by
  refine ⟨⟨fun h => ?_, ?_⟩, fun modifier h => ?_⟩
  · exact ⟨namesOf path, not_mem_namesOf, intercalate_namesOf path,
      lookupPath_eq_ok_iff_at?.mp h⟩
  · rintro ⟨names, hnames, rfl, h⟩
    have hne : names ≠ [] := by
      rintro rfl
      cases h
    rw [lookupPath_eq_ok_iff_at?, namesOf_intercalate hne hnames]
    exact h
  · unfold resolve
    rw [h]
    rfl

/-- A catalog whose only table is kept under a name with a point in it. -/
def dotted : Catalog :=
  (empty none).insert "a.b" (.blank "a.b")

/-- The table is there, but its name is not taken for one name. -/
theorem dotted_lookupPath :
    dotted.at? ["a.b"] = some (.blank "a.b") ∧
      dotted.lookupPath (".".intercalate ["a.b"]) = .error (.notFound .table "a") :=
  ⟨rfl, rfl⟩

end Tabletop.Catalog
