/-
# A table mirrors its document

Loading a document fails exactly if one of its tables, however deep, has a value under `dice`,
`rolls` or `results` that is no table and not of the shape that the key asks for. If it succeeds,
the tables that are nested in the result stand at the same paths as the tables of the document, each
has the name of its key, and the keys and entries of each are those written there, one for one.
Tables inside of arrays are items of a list and not nested tables.
-/

import Mathlib.Data.List.Forall2
import Tabletop.Proofs.Dictionary
import Tabletop.Table.Document

namespace Tabletop

/-! ## Paths -/

/-- The table of a document at a path: each key is that of a table in the table before. -/
def Toml.Entries.at? : (path : List String) → Toml.Entries → Option Toml.Entries
  | [], d => some d
  | key :: path, d =>
      match Dictionary.find? key d with
      | some (.table sub) => at? path sub
      | _ => none

/-- The table at a path of names, each nested in the one before. -/
def Table.at? : (path : List String) → Table → Option Table
  | [], t => some t
  | name :: path, t =>
      match t.subtable? name with
      | some sub => at? path sub
      | none => none

/-- All tables of the document list their keys in ascending order. -/
def Toml.Entries.Ordered (d : Toml.Entries) : Prop :=
  ∀ path sub, d.at? path = some sub → Dictionary.Ascending sub

/-! ## What a document says -/

inductive Toml.Value.IsTable : Toml.Value → Prop
  | table (entries : List (String × Toml.Value)) : IsTable (.table entries)

/-- The key that an item of a list of rolls is written as. -/
inductive Table.Key.Written : Toml.Value → Table.Key → Prop
  | exact (n : Int64) : Written (.integer n) (.exact n)
  | range {lo hi : Int64} : lo ≤ hi → Written (.array [.integer lo, .integer hi]) (.range lo hi)

/-- The entry that an item of a list of results is written as. -/
inductive Table.Entry.Written : Toml.Value → Table.Entry → Prop
  | text (s : String) : Written (.text s) (.text s)
  | integer (n : Int64) : Written (.integer n) (.number (.int n))
  | float (x : Float) : Written (.float x) (.number (.float x))

namespace Toml.Entries

/-- The text under a key, if there is one. -/
def text? (key : String) (d : Entries) : Option String :=
  match Dictionary.find? key d with
  | some (.text s) => some s
  | _ => none

/-- The items of the array under a key, if there is one. -/
def items? (key : String) (d : Entries) : Option (List Value) :=
  match Dictionary.find? key d with
  | some (.array items) => some items
  | _ => none

/-- What the values under the keys with a meaning have to be, unless they are tables. -/
structure Fits (d : Entries) : Prop where
  dice : ∀ value, Dictionary.find? "dice" d = some value → ¬ value.IsTable →
    ∃ s, value = .text s
  rolls : ∀ value, Dictionary.find? "rolls" d = some value → ¬ value.IsTable →
    ∃ items, value = .array items ∧ ∀ item ∈ items, ∃ key, Table.Key.Written item key
  results : ∀ value, Dictionary.find? "results" d = some value → ¬ value.IsTable →
    ∃ items, value = .array items ∧ ∀ item ∈ items, ∃ entry, Table.Entry.Written item entry

/-- The keys of the tables that stand in a table. -/
def tableKeys : Entries → List String
  | [] => []
  | (key, .table _) :: rest => key :: tableKeys rest
  | _ :: rest => tableKeys rest

end Toml.Entries

/-- The table says what one table of a document says. Of nested tables only the names are
compared. -/
structure Table.Mirrors (t : Table) (name : String) (d : Toml.Entries) : Prop where
  name : t.name = name
  dice : t.dice = d.text? "dice"
  rolls : Option.Rel (List.Forall₂ Key.Written) (d.items? "rolls") t.rolls
  results : Option.Rel (List.Forall₂ Entry.Written) (d.items? "results") t.results
  subtables : Dictionary.keys t.subtables = d.tableKeys

/-- Why a value under a key is refused in the table of the given name. -/
inductive Table.Refuses (table : String) : (key : String) → Toml.Value → Error → Prop
  | dice {value : Toml.Value} :
      ¬ value.IsTable → (∀ s, value ≠ .text s) →
      Refuses table "dice" value (.wrongShape table "dice" .text)
  | list {key : String} {value : Toml.Value} :
      key = "rolls" ∨ key = "results" → ¬ value.IsTable → (∀ items, value ≠ .array items) →
      Refuses table key value (.wrongShape table key .list)
  | key {items : List Toml.Value} {item : Toml.Value} :
      item ∈ items → (∀ key, ¬ Key.Written item key) →
      (∀ lo hi, item ≠ .array [.integer lo, .integer hi]) →
      Refuses table "rolls" (.array items) (.wrongShape table "rolls" .keys)
  | range {items : List Toml.Value} {lo hi : Int64} :
      .array [.integer lo, .integer hi] ∈ items → hi < lo →
      Refuses table "rolls" (.array items) (.emptyRange table lo hi)
  | entry {items : List Toml.Value} {item : Toml.Value} :
      item ∈ items → (∀ entry, ¬ Entry.Written item entry) →
      Refuses table "results" (.array items) (.wrongShape table "results" .outcomes)

namespace Table

variable {t t' : Table} {name key : String} {value item : Toml.Value} {e : Error}
  {d rest : Toml.Entries} {notes notes' : Array Note}

/-! ## Items of lists -/

theorem keyOfValue_eq_ok_iff {k : Key} : keyOfValue name item = .ok k ↔ Key.Written item k := by
  constructor
  · intro h
    unfold keyOfValue at h
    split at h
    · cases h
      exact .exact _
    · split at h
      · next hle =>
        cases h
        exact .range hle
      · cases h
    · cases h
  · intro h
    cases h with
    | exact n => rfl
    | range hle => exact if_pos hle

theorem entryOfValue_eq_ok_iff {entry : Entry} :
    entryOfValue name item = .ok entry ↔ Entry.Written item entry := by
  constructor
  · intro h
    unfold entryOfValue at h
    split at h
    · cases h
      exact .text _
    · cases h
      exact .integer _
    · cases h
      exact .float _
    · cases h
  · intro h
    cases h with
    | text | integer | float => rfl

theorem keyOfValue_eq_error (h : keyOfValue name item = .error e) :
    (∃ lo hi, item = .array [.integer lo, .integer hi] ∧ hi < lo ∧ e = .emptyRange name lo hi) ∨
      (∀ lo hi, item ≠ .array [.integer lo, .integer hi]) ∧
        e = .wrongShape name "rolls" .keys := by
  unfold keyOfValue at h
  split at h
  · cases h
  · next lo hi =>
    split at h
    · cases h
    · next hnot =>
      cases h
      exact .inl ⟨lo, hi, rfl, Int64.not_le.mp hnot, rfl⟩
  · next hinteger hrange =>
    cases h
    exact .inr ⟨hrange, rfl⟩

theorem entryOfValue_eq_error (h : entryOfValue name item = .error e) :
    e = .wrongShape name "results" .outcomes := by
  unfold entryOfValue at h
  split at h <;> cases h
  rfl

/-- Reading a list succeeds exactly if reading each of its items does. -/
theorem mapM_eq_ok_iff {α β ε : Type} {f : α → Except ε β} {xs : List α} {ys : List β} :
    xs.mapM f = .ok ys ↔ List.Forall₂ (fun x y => f x = .ok y) xs ys := by
  induction xs generalizing ys with
  | nil => cases ys <;> simp [pure, Except.pure]
  | cons x xs ih =>
      rw [List.mapM_cons]
      constructor
      · intro h
        cases hx : f x with
        | error cause => rw [hx] at h; cases h
        | ok y =>
            cases hxs : xs.mapM f with
            | error cause => rw [hx, hxs] at h; cases h
            | ok rest =>
                rw [hx, hxs] at h
                cases h
                exact .cons hx (ih.mp hxs)
      · intro h
        cases h with
        | cons hx hxs => rw [hx, ih.mpr hxs]; rfl

theorem mapM_eq_error {α β ε : Type} {f : α → Except ε β} {xs : List α} {cause : ε}
    (h : xs.mapM f = .error cause) : ∃ x ∈ xs, f x = .error cause := by
  induction xs with
  | nil => cases h
  | cons x xs ih =>
      rw [List.mapM_cons] at h
      cases hx : f x with
      | error cause' =>
          rw [hx] at h
          cases h
          exact ⟨x, List.mem_cons_self, hx⟩
      | ok y =>
          cases hxs : xs.mapM f with
          | error cause' =>
              rw [hx, hxs] at h
              cases h
              obtain ⟨x', hmem, hx'⟩ := ih hxs
              exact ⟨x', List.mem_cons_of_mem _ hmem, hx'⟩
          | ok ys => rw [hx, hxs] at h; cases h

/-! ## One entry -/

/-- What adding one entry of a document to a table can do. -/
inductive Adds (t : Table) : (key : String) → Toml.Value → Table → Prop
  | nested {key : String} {entries : Toml.Entries} {sub : Table} {notes notes' : Array Note} :
      ofDocument key entries notes = .ok sub notes' →
      Adds t key (.table entries) { t with subtables := Dictionary.put key sub t.subtables }
  | dice (s : String) : Adds t "dice" (.text s) { t with dice := some s }
  | rolls {items : List Toml.Value} {rolls : List Key} :
      List.Forall₂ Key.Written items rolls →
      Adds t "rolls" (.array items) { t with rolls := some rolls }
  | results {items : List Toml.Value} {results : List Entry} :
      List.Forall₂ Entry.Written items results →
      Adds t "results" (.array items) { t with results := some results }
  | ignored {key : String} {value : Toml.Value} :
      ¬ value.IsTable → key ≠ "dice" → key ≠ "rolls" → key ≠ "results" → Adds t key value t

theorem addEntry_plain (h : ¬ value.IsTable) : addEntry t key value = addPlain t key value := by
  cases value with
  | table entries => exact absurd (.table entries) h
  | text | integer | float | boolean | date | array => rw [addEntry]; nofun

theorem addEntry_table (entries : Toml.Entries) :
    addEntry t key (.table entries) notes =
      match ofDocument key entries notes with
      | .ok sub notes' =>
          .ok { t with subtables := Dictionary.put key sub t.subtables } notes'
      | .error e notes' => .error e notes' := by
  rw [addEntry]
  unfold ofDocument
  simp only [bind, EStateM.bind]
  cases addEntries (blank key) entries notes <;> rfl

theorem addPlain_eq_ok (hvalue : ¬ value.IsTable) (h : addPlain t key value notes = .ok t' notes') :
    t.Adds key value t' := by
  unfold addPlain at h
  split_ifs at h with hdice hrolls hresults
  · subst hdice
    split at h
    · cases h
      exact .dice _
    · cases h
  · subst hrolls
    split at h
    · next items =>
      cases hitems : items.mapM (keyOfValue t.name) with
      | ok rolls =>
          rw [hitems] at h
          cases h
          exact .rolls ((mapM_eq_ok_iff.mp hitems).imp fun _ _ => keyOfValue_eq_ok_iff.mp)
      | error cause => rw [hitems] at h; cases h
    · cases h
  · subst hresults
    split at h
    · next items =>
      cases hitems : items.mapM (entryOfValue t.name) with
      | ok results =>
          rw [hitems] at h
          cases h
          exact .results ((mapM_eq_ok_iff.mp hitems).imp fun _ _ => entryOfValue_eq_ok_iff.mp)
      | error cause => rw [hitems] at h; cases h
    · cases h
  · cases h
    exact .ignored hvalue hdice hrolls hresults

theorem addPlain_eq_error (hvalue : ¬ value.IsTable)
    (h : addPlain t key value notes = .error e notes') : Refuses t.name key value e := by
  unfold addPlain at h
  split_ifs at h with hdice hrolls hresults
  · subst hdice
    split at h
    · cases h
    · next htext =>
      cases h
      exact .dice hvalue htext
  · subst hrolls
    split at h
    · next items =>
      cases hitems : items.mapM (keyOfValue t.name) with
      | ok rolls => rw [hitems] at h; cases h
      | error cause =>
          rw [hitems] at h
          cases h
          obtain ⟨item, hmem, hitem⟩ := mapM_eq_error hitems
          rcases keyOfValue_eq_error hitem with ⟨lo, hi, rfl, hlt, rfl⟩ | ⟨hpair, rfl⟩
          · exact .range hmem hlt
          · refine .key hmem (fun k hk => ?_) hpair
            rw [keyOfValue_eq_ok_iff.mpr hk] at hitem
            cases hitem
    · next harray =>
      cases h
      exact .list (.inl rfl) hvalue harray
  · subst hresults
    split at h
    · next items =>
      cases hitems : items.mapM (entryOfValue t.name) with
      | ok results => rw [hitems] at h; cases h
      | error cause =>
          rw [hitems] at h
          cases h
          obtain ⟨item, hmem, hitem⟩ := mapM_eq_error hitems
          obtain rfl := entryOfValue_eq_error hitem
          refine .entry hmem fun entry hentry => ?_
          rw [entryOfValue_eq_ok_iff.mpr hentry] at hitem
          cases hitem
    · next harray =>
      cases h
      exact .list (.inr rfl) hvalue harray
  · cases h

theorem adds_of_addEntry (h : addEntry t key value notes = .ok t' notes') :
    t.Adds key value t' := by
  by_cases hvalue : value.IsTable
  · obtain ⟨entries⟩ := hvalue
    rw [addEntry_table] at h
    split at h
    · next hsub =>
      cases h
      exact .nested hsub
    · cases h
  · rw [addEntry_plain hvalue] at h
    exact addPlain_eq_ok hvalue h

theorem Adds.name_eq (h : t.Adds key value t') : t'.name = t.name := by
  cases h <;> rfl

/-! ## All entries -/

theorem addEntries_cons :
    addEntries t ((key, value) :: rest) notes =
      match addEntry t key value notes with
      | .ok mid notes' => addEntries mid rest notes'
      | .error e notes' => .error e notes' := by
  rw [addEntries]
  simp only [bind, EStateM.bind]
  cases addEntry t key value notes <;> rfl

/-- What adding the entries of a document one after another can do. -/
inductive AddsAll : Table → Toml.Entries → Table → Prop
  | nil {t : Table} : AddsAll t [] t
  | cons {t mid t' : Table} {key : String} {value : Toml.Value} {rest : Toml.Entries} :
      t.Adds key value mid → AddsAll mid rest t' → AddsAll t ((key, value) :: rest) t'

theorem addsAll_of_addEntries (h : addEntries t d notes = .ok t' notes') : t.AddsAll d t' := by
  induction d generalizing t notes with
  | nil =>
      rw [addEntries] at h
      cases h
      exact .nil
  | cons entry rest ih =>
      rw [addEntries_cons] at h
      split at h
      · next hentry => exact .cons (adds_of_addEntry hentry) (ih h)
      · cases h

/-- The tables of a document and what has become of them, both in the order of their keys. -/
inductive Nested : Toml.Entries → Dictionary Table → Prop
  | nil : Nested [] []
  | table {key : String} {entries rest : Toml.Entries} {sub : Table} {subs : Dictionary Table}
      {notes notes' : Array Note} :
      ofDocument key entries notes = .ok sub notes' → Nested rest subs →
      Nested ((key, .table entries) :: rest) ((key, sub) :: subs)
  | plain {key : String} {value : Toml.Value} {rest : Toml.Entries} {subs : Dictionary Table} :
      ¬ value.IsTable → Nested rest subs → Nested ((key, value) :: rest) subs

namespace Nested

variable {subs : Dictionary Table}

theorem keys (h : Nested d subs) : Dictionary.keys subs = d.tableKeys := by
  induction h with
  | nil => rfl
  | table _ _ ih => rw [Dictionary.keys_cons, ih]; rfl
  | @plain _ value _ _ hvalue _ ih =>
      rw [ih]
      cases value with
      | table entries => exact absurd (.table entries) hvalue
      | text | integer | float | boolean | date | array => rfl

theorem mem_keys (h : Nested d subs) (hname : name ∈ Dictionary.keys subs) :
    name ∈ Dictionary.keys d := by
  induction h with
  | nil => exact hname
  | table _ _ ih =>
      rcases List.mem_cons.mp hname with rfl | hrest
      · exact List.mem_cons_self
      · exact List.mem_cons_of_mem _ (ih hrest)
  | plain _ _ ih => exact List.mem_cons_of_mem _ (ih hname)

/-- A key leads to a table on both sides or on neither. -/
theorem find? (h : Nested d subs) (hd : Dictionary.Ascending d) (name : String) :
    (∃ entries sub notes notes', Dictionary.find? name d = some (.table entries) ∧
      Dictionary.find? name subs = some sub ∧ ofDocument name entries notes = .ok sub notes') ∨
    (∀ entries, Dictionary.find? name d ≠ some (.table entries)) ∧
      Dictionary.find? name subs = none := by
  induction h with
  | nil => exact .inr ⟨nofun, rfl⟩
  | @table key entries rest sub subs notes notes' hsub hrest ih =>
      rw [Dictionary.find?, Dictionary.find?]
      split_ifs with hkey
      · subst hkey
        exact .inl ⟨entries, sub, notes, notes', rfl, rfl, hsub⟩
      · exact ih hd.of_cons
  | @plain key value rest subs hvalue hrest ih =>
      rw [Dictionary.find?]
      split_ifs with hkey
      · subst hkey
        refine .inr ⟨fun entries heq => ?_, ?_⟩
        · cases heq
          exact hvalue (.table entries)
        · exact Dictionary.find?_eq_none_iff.mpr fun hmem => hd.head_not_mem (hrest.mem_keys hmem)
      · exact ih hd.of_cons

end Nested

namespace AddsAll

theorem name_eq (h : t.AddsAll d t') : t'.name = t.name := by
  induction h with
  | nil => rfl
  | cons hadds _ ih => exact ih.trans hadds.name_eq

/-- A part of the table that only the value under one key decides says what that value says, unless
it is a table. Without such a value the part is as before. -/
theorem field {α : Type} {field : Table → Option α} {key : String}
    {Says : Toml.Value → Option α → Prop}
    (hstep : ∀ {t t' : Table} {other value}, t.Adds other value t' →
      other = key ∧ ¬ value.IsTable ∧ Says value (field t') ∨
        (other ≠ key ∨ value.IsTable) ∧ field t' = field t)
    (h : t.AddsAll d t') (hd : Dictionary.Ascending d) :
    (∃ value, Dictionary.find? key d = some value ∧ ¬ value.IsTable ∧ Says value (field t')) ∨
      (∀ value, Dictionary.find? key d = some value → value.IsTable) ∧ field t' = field t := by
  induction h with
  | nil => exact .inr ⟨nofun, rfl⟩
  | @cons t mid t' first value rest hadds hrest ih =>
      rw [Dictionary.find?]
      split_ifs with heq
      · subst heq
        -- The key does not occur again, so the rest leaves the part as it is.
        have hlater : field t' = field mid := by
          rcases ih hd.of_cons with ⟨value', hvalue', -⟩ | ⟨-, hfield⟩
          · exact absurd (Dictionary.mem_keys_iff.mpr ⟨value', hvalue'⟩) hd.head_not_mem
          · exact hfield
        rcases hstep hadds with ⟨-, hvalue, hsays⟩ | ⟨hne | htable, hfield⟩
        · exact .inl ⟨value, rfl, hvalue, hlater ▸ hsays⟩
        · exact absurd rfl hne
        · refine .inr ⟨fun value' heq => ?_, hlater.trans hfield⟩
          cases heq
          exact htable
      · rcases hstep hadds with ⟨hkey, -⟩ | ⟨-, hfield⟩
        · exact absurd hkey heq
        · rw [← hfield]
          exact ih hd.of_cons

/-- The tables of the document come after those that were nested before. -/
theorem subtables (h : t.AddsAll d t') (hd : Dictionary.Ascending d)
    (hbefore : ∀ before ∈ Dictionary.keys t.subtables, ∀ key ∈ Dictionary.keys d, before < key) :
    ∃ subs, t'.subtables = t.subtables ++ subs ∧ Nested d subs := by
  induction h with
  | nil => exact ⟨[], (List.append_nil _).symm, .nil⟩
  | @cons t mid t' key value rest hadds hrest ih =>
      have hfirst : ∀ before ∈ Dictionary.keys t.subtables, before < key :=
        fun before hmem => hbefore before hmem key List.mem_cons_self
      have hlater : ∀ before ∈ Dictionary.keys t.subtables, ∀ later ∈ Dictionary.keys rest,
          before < later := fun before hmem later hrest =>
        hbefore before hmem later (List.mem_cons_of_mem _ hrest)
      cases hadds with
      | @nested _ entries sub notes notes' hsub =>
          rw [Dictionary.put_eq_append hfirst] at ih
          obtain ⟨subs, hsubs, hnested⟩ := ih hd.of_cons fun before hmem later hrest => by
            rw [Dictionary.keys, List.map_append, List.mem_append] at hmem
            rcases hmem with hold | hnew
            · exact hlater before hold later hrest
            · rw [List.mem_singleton.mp hnew]
              exact hd.head_lt hrest
          refine ⟨(key, sub) :: subs, ?_, .table hsub hnested⟩
          rw [hsubs, List.append_assoc]
          rfl
      | dice | rolls | results =>
          obtain ⟨subs, hsubs, hnested⟩ := ih hd.of_cons hlater
          exact ⟨subs, hsubs, .plain (by rintro ⟨⟩) hnested⟩
      | ignored hvalue =>
          obtain ⟨subs, hsubs, hnested⟩ := ih hd.of_cons hlater
          exact ⟨subs, hsubs, .plain hvalue hnested⟩

end AddsAll

/-! ## One table -/

/-- The part of a table that a text decides is that text. -/
def TextSays (value : Toml.Value) (part : Option String) : Prop :=
  ∃ s, value = .text s ∧ part = some s

/-- The part of a table that a list decides holds what its items are written as. -/
def ListSays {α : Type} (Written : Toml.Value → α → Prop) (value : Toml.Value)
    (part : Option (List α)) : Prop :=
  ∃ items xs, value = .array items ∧ part = some xs ∧ List.Forall₂ Written items xs

theorem Adds.dice_cases (h : t.Adds key value t') :
    key = "dice" ∧ ¬ value.IsTable ∧ TextSays value t'.dice ∨
      (key ≠ "dice" ∨ value.IsTable) ∧ t'.dice = t.dice := by
  cases h with
  | nested => exact .inr ⟨.inr (.table _), rfl⟩
  | dice s => exact .inl ⟨rfl, nofun, s, rfl, rfl⟩
  | rolls | results => exact .inr ⟨.inl (by decide), rfl⟩
  | ignored _ hdice _ _ => exact .inr ⟨.inl hdice, rfl⟩

theorem Adds.rolls_cases (h : t.Adds key value t') :
    key = "rolls" ∧ ¬ value.IsTable ∧ ListSays Key.Written value t'.rolls ∨
      (key ≠ "rolls" ∨ value.IsTable) ∧ t'.rolls = t.rolls := by
  cases h with
  | nested => exact .inr ⟨.inr (.table _), rfl⟩
  | rolls hwritten => exact .inl ⟨rfl, nofun, _, _, rfl, rfl, hwritten⟩
  | dice | results => exact .inr ⟨.inl (by decide), rfl⟩
  | ignored _ _ hrolls _ => exact .inr ⟨.inl hrolls, rfl⟩

theorem Adds.results_cases (h : t.Adds key value t') :
    key = "results" ∧ ¬ value.IsTable ∧ ListSays Entry.Written value t'.results ∨
      (key ≠ "results" ∨ value.IsTable) ∧ t'.results = t.results := by
  cases h with
  | nested => exact .inr ⟨.inr (.table _), rfl⟩
  | results hwritten => exact .inl ⟨rfl, nofun, _, _, rfl, rfl, hwritten⟩
  | dice | rolls => exact .inr ⟨.inl (by decide), rfl⟩
  | ignored _ _ _ hresults => exact .inr ⟨.inl hresults, rfl⟩

/-- What a value decides, if there is one and it is no table. -/
theorem rel_of_listSays {α : Type} {Written : Toml.Value → α → Prop} {part : Option (List α)}
    (h : (∃ value, Dictionary.find? key d = some value ∧ ¬ value.IsTable ∧
        ListSays Written value part) ∨
      (∀ value, Dictionary.find? key d = some value → value.IsTable) ∧ part = none) :
    Option.Rel (List.Forall₂ Written) (d.items? key) part ∧
      ∀ value, Dictionary.find? key d = some value → ¬ value.IsTable →
        ∃ items, value = .array items ∧ ∀ item ∈ items, ∃ x, Written item x := by
  rcases h with ⟨value, hvalue, -, items, xs, rfl, rfl, hwritten⟩ | ⟨htable, rfl⟩
  · refine ⟨?_, fun value' hvalue' _ => ?_⟩
    · rw [Toml.Entries.items?, hvalue]
      exact .some hwritten
    · obtain rfl := Option.some.inj (hvalue.symm.trans hvalue')
      refine ⟨items, rfl, ?_⟩
      exact ((List.forall₂_and_left _ _).mp (hwritten.imp fun item x hx => ⟨⟨x, hx⟩, hx⟩)).1
  · refine ⟨?_, fun value hvalue hnot => absurd (htable value hvalue) hnot⟩
    rw [Toml.Entries.items?]
    split
    · next items hitems => exact nomatch htable _ hitems
    · exact .none

/-- A table that was built from a table of a document mirrors it, and then that table has no value
of a wrong shape. -/
theorem mirrors_of_ofDocument (hd : Dictionary.Ascending d)
    (h : ofDocument name d notes = .ok t notes') :
    t.Mirrors name d ∧ d.Fits ∧ Nested d t.subtables := by
  have hadds : (blank name).AddsAll d t := addsAll_of_addEntries h
  obtain ⟨hrolls, hrollsFit⟩ := rel_of_listSays (hadds.field Adds.rolls_cases hd)
  obtain ⟨hresults, hresultsFit⟩ := rel_of_listSays (hadds.field Adds.results_cases hd)
  have hdice := hadds.field Adds.dice_cases hd
  obtain ⟨subs, hsubs, hnested⟩ := hadds.subtables hd nofun
  obtain rfl : t.subtables = subs := hsubs
  have hkeys := hnested.keys
  refine ⟨⟨hadds.name_eq, ?_, hrolls, hresults, hkeys⟩, ⟨?_, hrollsFit, hresultsFit⟩, hnested⟩
  · rcases hdice with ⟨value, hvalue, -, s, rfl, hs⟩ | ⟨htable, hnone⟩
    · rw [Toml.Entries.text?, hvalue, hs]
    · rw [hnone, Toml.Entries.text?]
      split
      · next s hs => exact nomatch htable _ hs
      · rfl
  · rcases hdice with ⟨value, hvalue, -, s, rfl, -⟩ | ⟨htable, -⟩
    · exact fun value' hvalue' _ => ⟨s, Option.some.inj (hvalue'.symm.trans hvalue)⟩
    · exact fun value hvalue hnot => absurd (htable value hvalue) hnot

/-! ## All tables -/

end Table

namespace Toml.Entries.Ordered

variable {d sub : Toml.Entries} {key : String}

theorem ascending (h : d.Ordered) : Dictionary.Ascending d :=
  h [] d rfl

theorem nested (h : d.Ordered) (hsub : Dictionary.find? key d = some (.table sub)) :
    sub.Ordered := by
  intro path s hs
  refine h (key :: path) s ?_
  rw [at?, hsub]
  exact hs

theorem of_nested (hd : Dictionary.Ascending d)
    (hsub : ∀ key (sub : Toml.Entries), Dictionary.find? key d = some (.table sub) → sub.Ordered) :
    d.Ordered := by
  intro path s hs
  cases path with
  | nil =>
      cases hs
      exact hd
  | cons key path =>
      rw [at?] at hs
      split at hs
      · next sub hfind => exact hsub key sub hfind path s hs
      · cases hs

end Toml.Entries.Ordered

namespace Table

variable {t : Table} {name key : String} {value : Toml.Value} {e : Error} {d : Toml.Entries}
  {notes notes' : Array Note}

/-- At each path there is a table on both sides or on neither. -/
theorem mirrors_at (hd : d.Ordered) (h : ofDocument name d notes = .ok t notes')
    (path : List String) :
    (∃ sub s, d.at? path = some sub ∧ t.at? path = some s ∧ s.Mirrors (path.getLastD name) sub ∧
      sub.Fits) ∨
    d.at? path = none ∧ t.at? path = none := by
  obtain ⟨hmirrors, hfits, hnested⟩ := mirrors_of_ofDocument hd.ascending h
  induction path generalizing name d t notes notes' with
  | nil => exact .inl ⟨d, t, rfl, rfl, hmirrors, hfits⟩
  | cons key path ih =>
      rw [List.getLastD_cons, Toml.Entries.at?, at?, subtable?]
      rcases hnested.find? hd.ascending key with
        ⟨entries, sub, notes, notes', hentries, hsub, hbuilt⟩ | ⟨hno, hnone⟩
      · rw [hentries, hsub]
        obtain ⟨hmirrors, hfits, hnested⟩ :=
          mirrors_of_ofDocument (hd.nested hentries).ascending hbuilt
        exact ih (hd.nested hentries) hbuilt hmirrors hfits hnested
      · rw [hnone]
        split
        · next sub hsub => exact absurd hsub (hno sub)
        · exact .inr ⟨rfl, rfl⟩

/-- The tables of the result stand where the tables of the document stand, and mirror them. -/
theorem rel_at (hd : d.Ordered) (h : ofDocument name d notes = .ok t notes')
    (path : List String) :
    Option.Rel (fun sub s => s.Mirrors (path.getLastD name) sub) (d.at? path) (t.at? path) := by
  rcases mirrors_at hd h path with ⟨sub, s, hsub, hs, hmirrors, -⟩ | ⟨hsub, hs⟩
  · rw [hsub, hs]
    exact .some hmirrors
  · rw [hsub, hs]
    exact .none

/-- Adding the entries of a document fails at one of them. -/
theorem addEntries_eq_error (h : addEntries t d notes = .error e notes') :
    (∃ key entries before after, (key, .table entries) ∈ d ∧
      ofDocument key entries before = .error e after) ∨
    ∃ key value, (key, value) ∈ d ∧ Refuses t.name key value e := by
  induction d generalizing t notes with
  | nil =>
      rw [addEntries] at h
      cases h
  | cons entry rest ih =>
      obtain ⟨key, value⟩ := entry
      rw [addEntries_cons] at h
      split at h
      · next mid notes hentry =>
        rw [← (adds_of_addEntry hentry).name_eq]
        rcases ih h with ⟨key', entries, before, after, hmem, herror⟩ | ⟨key', value', hmem, href⟩
        · exact .inl ⟨key', entries, before, after, List.mem_cons_of_mem _ hmem, herror⟩
        · exact .inr ⟨key', value', List.mem_cons_of_mem _ hmem, href⟩
      · next e' notes hentry =>
        cases h
        by_cases hvalue : value.IsTable
        · obtain ⟨entries⟩ := hvalue
          rw [addEntry_table] at hentry
          split at hentry
          · cases hentry
          · next herror =>
            cases hentry
            exact .inl ⟨key, entries, _, _, List.mem_cons_self, herror⟩
        · rw [addEntry_plain hvalue] at hentry
          exact .inr ⟨key, value, List.mem_cons_self, addPlain_eq_error hvalue hentry⟩

theorem sizeOf_lt_of_mem {key : String} {entries : Toml.Entries}
    (hmem : (key, .table entries) ∈ d) : sizeOf entries < sizeOf d := by
  have hsize := List.sizeOf_lt_of_mem hmem
  simp only [Prod.mk.sizeOf_spec, Toml.Value.table.sizeOf_spec] at hsize
  omega

/-- A document that fails to load has a value that is refused, however its keys are listed. The
recursion goes to smaller documents. -/
theorem exists_refuses {d : Toml.Entries} {name : String} {notes notes' : Array Note}
    (h : ofDocument name d notes = .error e notes') :
    ∃ table key value, Refuses table key value e := by
  rcases addEntries_eq_error h with ⟨key, entries, before, after, hmem, herror⟩ |
    ⟨key, value, -, href⟩
  · exact exists_refuses herror
  · exact ⟨_, key, value, href⟩
termination_by sizeOf d
decreasing_by exact sizeOf_lt_of_mem hmem

/-- A document that fails to load has a table with a value that is refused, and the error is that of
this value. The recursion goes to smaller documents. -/
theorem refused_at {d : Toml.Entries} {name : String} {notes notes' : Array Note}
    (hd : d.Ordered) (h : ofDocument name d notes = .error e notes') :
    ∃ path sub key value, d.at? path = some sub ∧ Dictionary.find? key sub = some value ∧
      Refuses (path.getLastD name) key value e := by
  rcases addEntries_eq_error h with ⟨key, entries, before, after, hmem, herror⟩ |
    ⟨key, value, hmem, href⟩
  · have hentries := hd.ascending.find?_of_mem hmem
    obtain ⟨path, sub, key', value, hsub, hvalue, href⟩ :=
      refused_at (hd.nested hentries) herror
    refine ⟨key :: path, sub, key', value, ?_, hvalue, ?_⟩
    · rw [Toml.Entries.at?, hentries]
      exact hsub
    · rw [List.getLastD_cons]
      exact href
  · exact ⟨[], d, key, value, rfl, hd.ascending.find?_of_mem hmem, href⟩
termination_by sizeOf d
decreasing_by exact sizeOf_lt_of_mem hmem

namespace Refuses

theorem not_fits {table : String} (h : Refuses table key value e)
    (hvalue : Dictionary.find? key d = some value) : ¬ d.Fits := by
  intro hfits
  cases h with
  | dice hnot htext =>
      obtain ⟨s, hs⟩ := hfits.dice _ hvalue hnot
      exact htext s hs
  | list hkey hnot harray =>
      rcases hkey with rfl | rfl
      · obtain ⟨items, hitems, -⟩ := hfits.rolls _ hvalue hnot
        exact harray items hitems
      · obtain ⟨items, hitems, -⟩ := hfits.results _ hvalue hnot
        exact harray items hitems
  | key hmem hno _ =>
      obtain ⟨_, ⟨⟩, hwritten⟩ := hfits.rolls _ hvalue nofun
      obtain ⟨k, hk⟩ := hwritten _ hmem
      exact hno k hk
  | range hmem hlt =>
      obtain ⟨_, ⟨⟩, hwritten⟩ := hfits.rolls _ hvalue nofun
      obtain ⟨k, hk⟩ := hwritten _ hmem
      cases hk with
      | range hle => exact Int64.not_le.mpr hlt hle
  | entry hmem hno =>
      obtain ⟨_, ⟨⟩, hwritten⟩ := hfits.results _ hvalue nofun
      obtain ⟨entry, hentry⟩ := hwritten _ hmem
      exact hno entry hentry

theorem kind {table : String} (h : Refuses table key value e) :
    (∃ table key shape, e = .wrongShape table key shape) ∨
      ∃ table lo hi, e = .emptyRange table lo hi := by
  cases h with
  | dice | list | key | entry => exact .inl ⟨_, _, _, rfl⟩
  | range => exact .inr ⟨_, _, _, rfl⟩

end Refuses

/-- Only ranges in the right order are written. -/
theorem Mirrors.range_le (h : t.Mirrors name d) {rolls : List Key} {lo hi : Int64}
    (hrolls : t.rolls = some rolls) (hmem : .range lo hi ∈ rolls) : lo ≤ hi := by
  have hrel := h.rolls
  rw [hrolls] at hrel
  cases hitems : d.items? "rolls" with
  | none => rw [hitems] at hrel; cases hrel
  | some items =>
      rw [hitems] at hrel
      cases hrel with
      | some hwritten =>
          have hall : ∀ key ∈ rolls, ∃ item, Key.Written item key :=
            ((List.forall₂_and_left _ _).mp
              (hwritten.flip.imp fun key item hkey => ⟨⟨item, hkey⟩, hkey⟩)).1
          obtain ⟨item, hitem⟩ := hall _ hmem
          cases hitem with
          | range hle => exact hle

/-- Which documents load, what they become, and how the others fail. -/
theorem ofDocument_mirrors (hd : d.Ordered) (name : String) (notes : Array Note) :
    ((∃ t notes', ofDocument name d notes = .ok t notes') ↔
      ∀ path sub, d.at? path = some sub → sub.Fits) ∧
    (∀ t notes', ofDocument name d notes = .ok t notes' →
      (∀ path, Option.Rel (fun sub s => s.Mirrors (path.getLastD name) sub)
        (d.at? path) (t.at? path)) ∧
      ∀ path s rolls lo hi, t.at? path = some s → s.rolls = some rolls →
        .range lo hi ∈ rolls → lo ≤ hi) ∧
    ∀ e notes', ofDocument name d notes = .error e notes' →
      ((∃ table key shape, e = .wrongShape table key shape) ∨
        ∃ table lo hi, e = .emptyRange table lo hi) ∧
      ∃ path sub key value, d.at? path = some sub ∧ Dictionary.find? key sub = some value ∧
        Refuses (path.getLastD name) key value e := by
  refine ⟨⟨?_, ?_⟩, ?_, ?_⟩
  · rintro ⟨t, notes', h⟩ path sub hsub
    rcases mirrors_at hd h path with ⟨_, s, hsub', -, -, hfits⟩ | ⟨hnone, -⟩
    · rwa [Option.some.inj (hsub.symm.trans hsub')]
    · rw [hsub] at hnone
      cases hnone
  · intro hfits
    cases h : ofDocument name d notes with
    | ok t notes' => exact ⟨t, notes', rfl⟩
    | error e notes' =>
        obtain ⟨path, sub, key, value, hsub, hvalue, href⟩ := refused_at hd h
        exact absurd (hfits path sub hsub) (href.not_fits hvalue)
  · intro t notes' h
    refine ⟨rel_at hd h, fun path s rolls lo hi hs hrolls hmem => ?_⟩
    rcases mirrors_at hd h path with ⟨sub, _, -, hs', hmirrors, -⟩ | ⟨-, hnone⟩
    · obtain rfl := Option.some.inj (hs.symm.trans hs')
      exact hmirrors.range_le hrolls hmem
    · rw [hs] at hnone
      cases hnone
  · intro e notes' h
    obtain ⟨path, sub, key, value, hsub, hvalue, href⟩ := refused_at hd h
    exact ⟨href.kind, path, sub, key, value, hsub, hvalue, href⟩

/-- A document with a table under a key that has a meaning of its own, and with a table of the wrong
shape inside of an array. -/
def treasury : Toml.Entries :=
  [("dice", .table
      [("dice", .text "1d6"),
        ("results", .array [.text "reroll", .float 1.5]),
        ("rolls", .array [.integer 1, .array [.integer 2, .integer 6]])]),
    ("results", .array []),
    ("vaults", .array [.table [("dice", .integer 6)]])]

theorem treasury_ordered : treasury.Ordered := by
  refine .of_nested (by decide +kernel) fun key sub hsub => ?_
  have hmem := Dictionary.mem_of_find? hsub
  simp only [treasury, List.mem_cons, Prod.mk.injEq, Toml.Value.table.injEq, reduceCtorEq,
    and_false, or_false, List.not_mem_nil] at hmem
  obtain ⟨-, rfl⟩ := hmem
  refine .of_nested (by decide +kernel) fun key sub hsub => ?_
  have hmem := Dictionary.mem_of_find? hsub
  simp at hmem

theorem treasury_mirrors :
    ∃ t notes, ofDocument "treasury" treasury #[] = .ok t notes ∧ treasury.Ordered ∧
      (t.at? ["dice"]).isSome ∧ (t.at? ["vaults"]).isNone ∧
      ∀ path, Option.Rel (fun sub s => s.Mirrors (path.getLastD "treasury") sub)
        (treasury.at? path) (t.at? path) := by
  refine ⟨_, _, rfl, treasury_ordered, rfl, rfl, ?_⟩
  exact ((ofDocument_mirrors treasury_ordered "treasury" #[]).2.1 _ _ rfl).1

end Table

end Tabletop
