/-
# How the command starts

Loading a table ends in one of three kinds of error, and of all files only those that the arguments
name have a part in a run. So the command may read these files first, and what is proved about whole
runs holds of what it does with their content.
-/

import Tabletop.CommandLine
import Tabletop.Proofs.Table.Document

namespace Tabletop

/-! ## Errors of loading -/

/-- The kinds of error in which loading a table can end. -/
inductive Error.OfLoading : Error → Prop
  | wrongShape (table key : String) (shape : EntryShape) : OfLoading (.wrongShape table key shape)
  | emptyRange (table : String) (lo hi : Int64) : OfLoading (.emptyRange table lo hi)
  | document (origin : String) (cause : DocumentError) : OfLoading (.document origin cause)

/-- On any catalog the computation fails, if it does, as loading a table may fail. -/
def Filing.FailsToLoad {α : Type} (x : Filing α) : Prop :=
  ∀ c e c', x c = .error e c' → e.OfLoading

namespace Filing.FailsToLoad

variable {α β : Type} {x : Filing α} {f : α → Filing β}

theorem of_ok (h : ∀ c, ∃ a c', x c = .ok a c') : FailsToLoad x := by
  intro c e c' hfails
  obtain ⟨a, c', hx⟩ := h c
  rw [hx] at hfails
  cases hfails

theorem throw {e : Error} (h : e.OfLoading) : FailsToLoad (MonadExcept.throw e : Filing α) := by
  rintro c _ _ ⟨⟩
  exact h

theorem bind (hx : FailsToLoad x) (hf : ∀ a, FailsToLoad (f a)) : FailsToLoad (x >>= f) := by
  intro c e c' h
  simp only [Bind.bind, EStateM.bind] at h
  split at h
  · exact hf _ _ _ _ h
  · next hfails =>
    cases h
    exact hx _ _ _ hfails

end Filing.FailsToLoad

namespace Catalog

variable (name : String)

theorem build_failsToLoad (document : Toml.Entries) : (build name document).FailsToLoad := by
  intro c e c' h
  unfold build at h
  split at h
  · cases h
  · next hfails =>
    cases h
    obtain ⟨_, _, _, href⟩ := Table.exists_refuses hfails
    rcases href.kind with ⟨table, key, shape, rfl⟩ | ⟨table, lo, hi, rfl⟩
    · exact .wrongShape table key shape
    · exact .emptyRange table lo hi

theorem readTable_failsToLoad (origin text : String) :
    (readTable name origin text).FailsToLoad := by
  unfold readTable
  split
  · exact build_failsToLoad name _
  · exact .throw (.document origin _)

theorem loadFile_failsToLoad (path : String) (content : Option ByteArray) :
    (loadFile name path content).FailsToLoad := by
  unfold loadFile
  split
  · exact .throw (.document path .missing)
  · split
    · exact .throw (.document path .notUtf8)
    · exact (readTable_failsToLoad name path _).bind fun t => .of_ok fun c => ⟨_, _, rfl⟩

end Catalog

namespace CommandLine

variable {content content' : String → Option ByteArray} {options : Options}

theorem loadTables_failsToLoad (tables : List (String × String)) :
    (loadTables content tables).FailsToLoad := by
  induction tables with
  | nil => exact .of_ok fun c => ⟨_, _, rfl⟩
  | cons table tables ih => exact (Catalog.loadFile_failsToLoad _ _ _).bind fun _ => ih

/-- Every error that keeps the command from starting is of a kind that `failure` has a form for. -/
theorem ofLoading_of_prepare {e : Error} (h : prepare options content = .error e) :
    e.OfLoading := by
  unfold prepare at h
  split at h
  · cases h
  · next hfails =>
    cases h
    exact loadTables_failsToLoad _ _ _ _ hfails

/-! ## Files -/

theorem loadTables_congr {tables : List (String × String)}
    (h : ∀ table ∈ tables, content table.2 = content' table.2) :
    loadTables content tables = loadTables content' tables := by
  induction tables with
  | nil => rfl
  | cons table tables ih =>
      obtain ⟨htable, htables⟩ := List.forall_mem_cons.mp h
      rw [loadTables, loadTables, htable, ih htables]

theorem start_congr {args : List String} (h : ∀ path ∈ paths args, content path = content' path) :
    start args content = start args content' := by
  unfold start
  split
  · rfl
  · rfl
  · next options hparse =>
    rw [paths, hparse] at h
    rw [prepare, prepare, loadTables_congr (List.forall_mem_map.mp h)]

/-- Files that the arguments do not name have no part in a run. -/
theorem run_eq_of_paths {args : List String} (h : ∀ path ∈ paths args, content path = content' path)
    (entropy : UInt64) (input : List String) :
    run args content entropy input = run args content' entropy input := by
  rw [run, run, start_congr h]

end CommandLine

end Tabletop
