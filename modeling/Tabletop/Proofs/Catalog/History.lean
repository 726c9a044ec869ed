/-
# A catalog is its history

Whatever has been asked of a catalog, what it keeps under a name is what was last stored there with
success, by hand or from a document, unless the name was removed since. Requests that are refused
leave nothing behind, also if a document was read to a good part before its fault turned up, and
rolling on tables changes the calculator only.
-/

import Mathlib.Data.Finset.Card
import Tabletop.Catalog
import Tabletop.Proofs.Attempt
import Tabletop.Proofs.Dictionary

namespace Tabletop.Catalog

/-- What may be asked of a catalog. The content of a file is part of the request. -/
inductive Request
  | register (name : String) (t : Table)
  | remove (name : String)
  | loadText (name text : String)
  | loadFile (name path : String) (content : Option ByteArray)
  | resolve (path : String) (modifier : Int64)

/-- What has come of a request. -/
inductive Deed
  | stored (name : String) (t : Table)
  | removed (name : String)
  /-- A document could not be loaded. -/
  | refused (e : Error)
  | rolled

/-- The deed changes what is kept under the name. -/
def Deed.Touches (name : String) : Deed → Prop
  | .stored other _ | .removed other => other = name
  | .refused _ | .rolled => False

/-- The table was stored under the name, and no later deed touches the name. -/
def LastStored (deeds : List Deed) (name : String) (t : Table) : Prop :=
  ∃ before after, deeds = before ++ .stored name t :: after ∧ ∀ deed ∈ after, ¬ deed.Touches name

variable {σ : Type} [RandomSource σ]

/-- What has come of loading a document under a name. -/
def loaded (name : String) (outcome : EStateM.Result Error Catalog Table) : Deed × Catalog :=
  match outcome with
  | .ok t c => (.stored name t, c)
  | .error e c => (.refused e, c)

/-- Comply with one request. Tables are rolled on with the calculator. -/
def comply : Request → Catalog × Calculator σ → Deed × Catalog × Calculator σ
  | .register name t, (c, calculator) => (.stored name t, c.insert name t, calculator)
  | .remove name, (c, calculator) => (.removed name, c.erase name, calculator)
  | .loadText name text, (c, calculator) =>
      let (deed, c) := loaded name (loadText name text c)
      (deed, c, calculator)
  | .loadFile name path content, (c, calculator) =>
      let (deed, c) := loaded name (loadFile name path content c)
      (deed, c, calculator)
  | .resolve path modifier, (c, calculator) =>
      (.rolled, c, Attempt.final (c.resolve path modifier calculator))

/-- Comply with one request after another. -/
def complyAll : List Request → Catalog × Calculator σ → List Deed × Catalog × Calculator σ
  | [], state => ([], state)
  | request :: requests, state =>
      let (deed, state) := comply request state
      let (deeds, state) := complyAll requests state
      (deed :: deeds, state)

/-! ## One request -/

section Loading

variable (c : Catalog) (name origin text : String)

/-- Reading a document changes the journal only. -/
theorem readTable_cases :
    (∃ t journal, readTable name origin text c = .ok t { c with journal }) ∨
      ∃ e journal, readTable name origin text c = .error e { c with journal } := by
  unfold readTable
  cases Toml.read text with
  | error fault => exact .inr ⟨_, c.journal, rfl⟩
  | ok document =>
      dsimp only
      unfold build
      cases Table.ofDocument name document c.journal with
      | ok t journal => exact .inl ⟨t, journal, rfl⟩
      | error e journal => exact .inr ⟨e, journal, rfl⟩

/-- What was loaded is stored, and what could not be loaded leaves the tables alone. -/
inductive Loads : EStateM.Result Error Catalog Table → Prop
  | ok {t : Table} {c' : Catalog} : c'.tables = Dictionary.put name t c.tables → Loads (.ok t c')
  | error {e : Error} {c' : Catalog} : c'.tables = c.tables → Loads (.error e c')

theorem loadText_loads : Loads c name (loadText name text c) := by
  rcases readTable_cases c name name text with ⟨t, journal, hread⟩ | ⟨e, journal, hread⟩
  · have hload : loadText name text c = .ok t (insert { c with journal } name t) := by
      simp only [loadText, bind, EStateM.bind, hread]
      rfl
    rw [hload]
    exact .ok rfl
  · have hload : loadText name text c = .error e { c with journal } := by
      simp only [loadText, bind, EStateM.bind, hread]
    rw [hload]
    exact .error rfl

theorem loadFile_loads (path : String) (content : Option ByteArray) :
    Loads c name (loadFile name path content c) := by
  unfold loadFile
  cases content with
  | none => exact .error rfl
  | some bytes =>
      dsimp only
      cases String.fromUTF8? bytes with
      | none => exact .error rfl
      | some text =>
          dsimp only
          rcases readTable_cases c name path text with ⟨t, journal, hread⟩ | ⟨e, journal, hread⟩
          · simp only [bind, EStateM.bind, hread]
            exact .ok rfl
          · simp only [bind, EStateM.bind, hread]
            exact .error rfl

end Loading

variable {c c' : Catalog} {calculator calculator' : Calculator σ} {request : Request}
  {deed : Deed} {deeds : List Deed} {name : String} {t : Table}

/-- What a deed does to the tables of a catalog. -/
inductive Changes (c c' : Catalog) : Deed → Prop
  | stored {name : String} {t : Table} :
      c'.tables = Dictionary.put name t c.tables → Changes c c' (.stored name t)
  | removed {name : String} :
      c'.tables = Dictionary.remove name c.tables → Changes c c' (.removed name)
  | refused {e : Error} : c'.tables = c.tables → Changes c c' (.refused e)
  | rolled : c'.tables = c.tables → Changes c c' .rolled

theorem changes_loaded {outcome : EStateM.Result Error Catalog Table} (h : Loads c name outcome) :
    Changes c (loaded name outcome).2 (loaded name outcome).1 := by
  cases h with
  | ok htables => exact .stored htables
  | error htables => exact .refused htables

theorem changes_comply (h : comply request (c, calculator) = (deed, c', calculator')) :
    Changes c c' deed := by
  cases request with
  | register name t =>
      cases h
      exact .stored rfl
  | remove name =>
      cases h
      exact .removed rfl
  | loadText name text =>
      cases h
      exact changes_loaded (loadText_loads c name text)
  | loadFile name path content =>
      cases h
      exact changes_loaded (loadFile_loads c name path content)
  | resolve path modifier =>
      cases h
      exact .rolled rfl

/-! ## The record of deeds -/

theorem lastStored_snoc :
    LastStored (deeds ++ [deed]) name t ↔
      deed = .stored name t ∨ ¬ deed.Touches name ∧ LastStored deeds name t := by
  constructor
  · rintro ⟨before, after, heq, hafter⟩
    rcases List.eq_nil_or_concat after with rfl | ⟨after, last, rfl⟩
    · exact .inl (List.singleton_inj.mp (List.append_inj' heq rfl).2)
    · rw [List.concat_eq_append, ← List.cons_append, ← List.append_assoc] at heq
      obtain ⟨rfl, hlast⟩ := List.append_inj' heq rfl
      obtain rfl := List.singleton_inj.mp hlast
      rw [List.concat_eq_append] at hafter
      refine .inr ⟨hafter _ (List.mem_append_right _ List.mem_cons_self), before, after, rfl, ?_⟩
      exact fun deed hdeed => hafter deed (List.mem_append_left _ hdeed)
  · rintro (rfl | ⟨hdeed, before, after, rfl, hafter⟩)
    · exact ⟨deeds, [], rfl, nofun⟩
    · refine ⟨before, after ++ [deed], ?_, ?_⟩
      · rw [List.append_assoc, List.cons_append]
      · intro later hlater
        rcases List.mem_append.mp hlater with hold | hnew
        · exact hafter later hold
        · rwa [List.mem_singleton.mp hnew]

/-- The catalog keeps what the deeds say, each name once. -/
structure Reflects (deeds : List Deed) (c : Catalog) : Prop where
  ascending : Dictionary.Ascending c.tables
  find : ∀ name t, c.find? name = some t ↔ LastStored deeds name t

theorem reflects_empty (maxRedirects : Option Nat) : Reflects [] (empty maxRedirects) where
  ascending := List.Pairwise.nil
  find name t := by
    constructor
    · nofun
    · rintro ⟨before, after, heq, -⟩
      simp at heq

namespace Reflects

theorem step (h : Reflects deeds c) (hchanges : Changes c c' deed) :
    Reflects (deeds ++ [deed]) c' := by
  have hsame : ∀ {deed : Deed}, (∀ name, ¬ deed.Touches name) → c'.tables = c.tables →
      Reflects (deeds ++ [deed]) c' := by
    intro deed hdeed htables
    refine ⟨htables ▸ h.ascending, fun name t => ?_⟩
    rw [lastStored_snoc, ← h.find, find?, htables]
    refine ⟨fun hfind => .inr ⟨hdeed name, hfind⟩, ?_⟩
    rintro (rfl | ⟨-, hfind⟩)
    · exact absurd rfl (hdeed name)
    · exact hfind
  cases hchanges with
  | @stored stored t' htables =>
      refine ⟨htables ▸ h.ascending.put stored t', fun name t => ?_⟩
      rw [lastStored_snoc, ← h.find, find?, htables]
      by_cases hname : stored = name
      · subst hname
        rw [Dictionary.find?_put_self]
        simp [Deed.Touches]
      · rw [Dictionary.find?_put_of_ne hname]
        simp [Deed.Touches, hname, find?]
  | @removed removed htables =>
      refine ⟨htables ▸ h.ascending.remove removed, fun name t => ?_⟩
      rw [lastStored_snoc, ← h.find, find?, htables]
      by_cases hname : removed = name
      · subst hname
        rw [Dictionary.find?_remove_self]
        simp [Deed.Touches]
      · rw [Dictionary.find?_remove_of_ne hname]
        simp [Deed.Touches, hname, find?]
  | refused htables => exact hsame (fun _ => id) htables
  | rolled htables => exact hsame (fun _ => id) htables

/-- By induction on the requests: what all of them have come to is added to the earlier deeds. -/
theorem run {requests : List Request} {later : List Deed} (h : Reflects deeds c)
    (hrun : complyAll requests (c, calculator) = (later, c', calculator')) :
    Reflects (deeds ++ later) c' := by
  induction requests generalizing deeds c calculator later with
  | nil =>
      cases hrun
      rwa [List.append_nil]
  | cons request requests ih =>
      obtain ⟨deed, mid, midCalculator, hstep⟩ :
          ∃ deed mid midCalculator,
            comply request (c, calculator) = (deed, mid, midCalculator) := ⟨_, _, _, rfl⟩
      obtain ⟨rest, last, lastCalculator, hrest⟩ :
          ∃ rest last lastCalculator,
            complyAll requests (mid, midCalculator) = (rest, last, lastCalculator) :=
        ⟨_, _, _, rfl⟩
      rw [complyAll, hstep] at hrun
      dsimp only at hrun
      rw [hrest] at hrun
      cases hrun
      rw [List.append_cons]
      exact ih (h.step (changes_comply hstep)) hrest

/-- The names are those that something was last stored under. -/
theorem mem_names_iff (h : Reflects deeds c) :
    name ∈ c.names ↔ ∃ t, LastStored deeds name t := by
  rw [names, Dictionary.mem_keys_iff]
  exact exists_congr fun t => h.find name t

theorem lookup_eq_ok_iff (h : Reflects deeds c) :
    c.lookup name = .ok t ↔ LastStored deeds name t := by
  rw [← h.find, lookup]
  cases c.find? name <;> simp

theorem lookup_eq_error (h : Reflects deeds c) (hnone : ∀ t, ¬ LastStored deeds name t) :
    c.lookup name = .error (.notFound .table name) := by
  cases hfind : c.find? name with
  | none => rw [lookup, hfind]
  | some t => exact absurd ((h.find name t).mp hfind) (hnone t)

end Reflects

/-- The deeds that leave every look-up as it was. -/
theorem lookup_of_changes (h : Changes c c' deed)
    (hdeed : deed = .rolled ∨ ∃ e, deed = .refused e) :
    (∀ name, c'.lookup name = c.lookup name) ∧ ∀ path, c'.lookupPath path = c.lookupPath path := by
  have htables : c'.tables = c.tables := by
    cases h with
    | refused htables | rolled htables => exact htables
    | stored | removed => rcases hdeed with ⟨⟨⟩⟩ | ⟨_, ⟨⟩⟩
  have hlookup : ∀ name, c'.lookup name = c.lookup name := by
    intro name
    rw [lookup, lookup, find?, find?, htables]
  refine ⟨hlookup, fun path => ?_⟩
  unfold lookupPath
  simp only [hlookup]

/-- After any requests a catalog that was empty in the beginning keeps under each name what was last
stored there, it has no other names, and requests that are refused or that roll on tables leave all
look-ups as they were. -/
theorem lookup_eq_lastStored (maxRedirects : Option Nat) (calculator : Calculator σ)
    (requests : List Request) :
    let (deeds, c, calculator) := complyAll requests (empty maxRedirects, calculator)
    (∀ name t, c.lookup name = .ok t ↔ LastStored deeds name t) ∧
    (∀ name, (∀ t, ¬ LastStored deeds name t) → c.lookup name = .error (.notFound .table name)) ∧
    (∃ kept : Finset String, (∀ name, name ∈ kept ↔ ∃ t, LastStored deeds name t) ∧
      c.names.length = kept.card) ∧
    ∀ request deed c' calculator', comply request (c, calculator) = (deed, c', calculator') →
      (deed = .rolled ∨ ∃ e, deed = .refused e) →
      (∀ name, c'.lookup name = c.lookup name) ∧
        ∀ path, c'.lookupPath path = c.lookupPath path := by
  obtain ⟨deeds, c, calculator', hrun⟩ : ∃ deeds c calculator',
      complyAll requests (empty maxRedirects, calculator) = (deeds, c, calculator') :=
    ⟨_, _, _, rfl⟩
  rw [hrun]
  dsimp only
  have h : Reflects deeds c := (reflects_empty maxRedirects).run hrun
  refine ⟨fun name t => h.lookup_eq_ok_iff, fun name => h.lookup_eq_error, ?_, ?_⟩
  · refine ⟨c.names.toFinset, fun name => ?_, ?_⟩
    · rw [List.mem_toFinset, h.mem_names_iff]
    · exact (List.toFinset_card_of_nodup h.ascending.nodup).symm
  · intro request deed c' calculator' hstep hdeed
    exact lookup_of_changes (changes_comply hstep) hdeed

end Tabletop.Catalog
