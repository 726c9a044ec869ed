/-
# Documents are read in order

A document that was read lists the keys of all its tables in ascending order, in whatever order they
stood in the text. Its scalars are no tables, so every table in it came about as a branch of the
tree that grew while the text was read, and the entries of a branch are stored one by one.
-/

import Tabletop.Catalog
import Tabletop.Proofs.Table.Document

namespace Tabletop

namespace Toml

variable {α β : Type}

/-- If there is a result, it satisfies `p`. -/
def Ensures (x : Except Fault α) (p : α → Prop) : Prop :=
  ∀ a, x = .ok a → p a

namespace Ensures

variable {p : α → Prop} {q : β → Prop}

theorem pure {a : α} (h : p a) : Ensures (Pure.pure a) p := by
  rintro _ ⟨⟩
  exact h

theorem error (fault : Fault) : Ensures (.error fault : Except Fault α) p :=
  nofun

theorem any (x : Except Fault α) : Ensures x fun _ => True :=
  fun _ _ => trivial

theorem bind {x : Except Fault α} {f : α → Except Fault β} (hx : Ensures x p)
    (hf : ∀ a, p a → Ensures (f a) q) : Ensures (x >>= f) q := by
  cases x with
  | ok a => exact hf a (hx a rfl)
  | error fault => exact error fault

end Ensures

/-! ## The tree -/

/-- The scalars from which tables are reached are no tables. What stands in lists does not count,
since a path of tables does not lead there. -/
inductive Node.Plain : Node → Prop
  | scalar {v : Value} : ¬ v.IsTable → Plain (.scalar v)
  | list (items : List Node) : Plain (.list items)
  | table {origin : Origin} {branch : List (String × Node)} :
      (∀ entry ∈ branch, entry.2.Plain) → Plain (.table origin branch)
  | tables (items : List (List (String × Node))) : Plain (.tables items)

def Branch.Plain (branch : Branch) : Prop :=
  ∀ entry ∈ branch, entry.2.Plain

namespace Branch

variable {branch : Branch} {key : String} {node : Node} {origin : Origin}

theorem plain_nil : Plain [] :=
  nofun

namespace Plain

theorem put (h : branch.Plain) (hnode : node.Plain) (key : String) :
    (Branch.put key node branch).Plain := by
  induction branch with
  | nil =>
      intro entry hentry
      obtain rfl := List.mem_singleton.mp hentry
      exact hnode
  | cons first rest ih =>
      obtain ⟨other, old⟩ := first
      obtain ⟨hold, hrest⟩ := List.forall_mem_cons.mp h
      rw [Branch.put]
      split
      · exact List.forall_mem_cons.mpr ⟨hnode, hrest⟩
      · exact List.forall_mem_cons.mpr ⟨hold, ih hrest⟩

theorem remove (h : branch.Plain) (key : String) : (Branch.remove key branch).Plain :=
  fun entry hentry => h entry (List.mem_of_mem_filter hentry)

/-- What is found in a branch is plain, and if it is a table, so is its branch. -/
theorem lookup (h : branch.Plain) (hlookup : branch.lookup key = some node) : node.Plain := by
  obtain ⟨before, after, rfl, -⟩ := List.lookup_eq_some_iff.mp hlookup
  exact h (key, node) (List.mem_append_right _ List.mem_cons_self)

theorem sub {sub : Branch} (h : branch.Plain)
    (hlookup : branch.lookup key = some (.table origin sub)) : sub.Plain := by
  cases h.lookup hlookup with
  | table hsub => exact hsub

theorem under {change : Branch → Except Fault Branch}
    (hchange : ∀ branch, branch.Plain → Ensures (change branch) Plain) (path : List String)
    (h : branch.Plain) : Ensures (Branch.under change path branch) Plain := by
  induction path generalizing branch with
  | nil => exact hchange branch h
  | cons first path ih =>
      rw [Branch.under]
      split
      · exact (ih plain_nil).bind fun sub hsub => .pure (h.put (.table hsub) first)
      · next origin sub hlookup =>
        split
        · exact .error _
        · exact (ih (h.sub hlookup)).bind fun sub hsub => .pure (h.put (.table hsub) first)
      · exact (Ensures.any _).bind fun sub _ => .pure (h.put (.tables _) first)
      · exact .error _

theorem openTable (h : branch.Plain) (key : String) :
    Ensures (Branch.openTable key branch) Plain := by
  unfold Branch.openTable
  split
  · exact .pure (h.put (.table plain_nil) key)
  · next sub hlookup => exact .pure ((h.remove key).put (.table (h.sub hlookup)) key)
  · exact .error _

theorem openItem (h : branch.Plain) (key : String) :
    Ensures (Branch.openItem key branch) Plain := by
  unfold Branch.openItem
  split
  · exact .pure (h.put (.tables _) key)
  · exact .pure (h.put (.tables _) key)
  · exact .error _

theorem storeDotted (hnode : node.Plain) (path : List String) (h : branch.Plain) :
    Ensures (Branch.storeDotted key node path branch) Plain := by
  induction path generalizing branch with
  | nil =>
      rw [Branch.storeDotted, Branch.store]
      split
      · exact .error _
      · exact .pure (h.put hnode key)
  | cons first path ih =>
      rw [Branch.storeDotted]
      split
      · exact (ih plain_nil).bind fun sub hsub => .pure (h.put (.table hsub) first)
      · next origin sub hlookup =>
        split_ifs
        · exact .error _
        · exact .error _
        · exact .error _
        · exact (ih (h.sub hlookup)).bind fun sub hsub => .pure (h.put (.table hsub) first)
      · split
        · exact .error _
        · exact (Ensures.any _).bind fun sub _ => .pure (h.put (.tables _) first)
      · exact .error _

end Plain

end Branch

/-! ## Reading -/

theorem readScalar_plain (cs : List Char) : Ensures (readScalar cs) fun v => ¬ v.IsTable := by
  unfold readScalar
  split_ifs
  · exact .pure nofun
  · exact .pure nofun
  · exact .pure nofun
  · split
    · exact .pure nofun
    · exact .pure nofun
    · exact .error _

/-- Values and the entries in braces, by induction on the fuel that both of them spend. -/
theorem readValue_plain (fuel : Nat) :
    (∀ depth cs, Ensures (readValue fuel depth cs) fun parsed => parsed.1.Plain) ∧
      ∀ depth (branch : Branch) cs, branch.Plain →
        Ensures (readPairs fuel depth branch cs) fun parsed => parsed.1.Plain := by
  induction fuel with
  | zero =>
      constructor
      · intro depth cs
        rw [readValue]
        exact .error _
      · intro depth branch cs _
        rw [readPairs]
        exact .error _
  | succ fuel ih =>
      obtain ⟨ihvalue, ihpairs⟩ := ih
      constructor
      · intro depth cs
        unfold readValue
        split
        · exact (Ensures.any _).bind fun _ _ => .pure (.scalar nofun)
        · exact (Ensures.any _).bind fun _ _ => .pure (.scalar nofun)
        · split
          · exact .error _
          · exact (Ensures.any _).bind fun _ _ => .pure (.list _)
        · split
          · exact .error _
          · split
            · exact .pure (.table Branch.plain_nil)
            · refine (ihpairs _ [] _ Branch.plain_nil).bind fun parsed hbranch => ?_
              exact .pure (.table hbranch)
        · exact (readScalar_plain _).bind fun v hv => .pure (.scalar hv)
      · intro depth branch cs hbranch
        rw [readPairs]
        refine (Ensures.any _).bind fun ((path, key), rest) _ => ?_
        dsimp only
        split
        · refine (ihvalue depth _).bind fun value hvalue => ?_
          refine (hbranch.storeDotted hvalue _).bind fun branch hbranch => ?_
          split
          · exact ihpairs depth branch _ hbranch
          · exact .pure hbranch
          · exact .error _
        · exact .error _

theorem readHeader_plain {draft : Draft} (h : draft.root.Plain) (cs : List Char) :
    Ensures (readHeader draft cs) fun parsed => parsed.1.root.Plain := by
  unfold readHeader
  split
  · refine (Ensures.any _).bind fun key _ => ?_
    split
    · refine (h.under (fun branch hbranch => hbranch.openItem _) _).bind fun root hroot => ?_
      exact .pure hroot
    · exact .error _
  · refine (Ensures.any _).bind fun key _ => ?_
    split
    · refine (h.under (fun branch hbranch => hbranch.openTable _) _).bind fun root hroot => ?_
      exact .pure hroot
    · exact .error _
  · exact .error _

theorem readEntry_plain {draft : Draft} (h : draft.root.Plain) (cs : List Char) :
    Ensures (readEntry draft cs) fun parsed => parsed.1.root.Plain := by
  unfold readEntry
  refine (Ensures.any _).bind fun key _ => ?_
  split
  · refine ((readValue_plain _).1 0 _).bind fun value hvalue => ?_
    refine (h.under (fun branch hbranch => ?_) _).bind fun root hroot => .pure hroot
    exact hbranch.storeDotted hvalue _
  · exact .error _

theorem readLines_plain {draft : Draft} (h : draft.root.Plain) (fuel : Nat) (cs : List Char) :
    Ensures (readLines fuel draft cs) Branch.Plain := by
  induction fuel generalizing draft cs with
  | zero =>
      rw [readLines]
      exact .error _
  | succ fuel ih =>
      rw [readLines]
      split
      · exact .pure h
      · refine (readHeader_plain h _).bind fun parsed hparsed => ?_
        exact (Ensures.any _).bind fun rest _ => ih hparsed rest
      · split
        · exact (Ensures.any _).bind fun rest _ => ih h rest
        · refine (readEntry_plain h _).bind fun parsed hparsed => ?_
          exact (Ensures.any _).bind fun rest _ => ih hparsed rest

/-! ## The meaning -/

/-- If the value is a table, the table is in order with all tables in it. -/
def Value.Ordered (v : Value) : Prop :=
  ∀ entries : Entries, v = .table entries → entries.Ordered

theorem Entries.Ordered.put {d : Entries} {v : Value} (h : d.Ordered) (hv : v.Ordered)
    (key : String) : Entries.Ordered (Dictionary.put key v d) := by
  refine .of_nested (h.ascending.put key v) fun other sub hsub => ?_
  by_cases hkey : key = other
  · subst hkey
    rw [Dictionary.find?_put_self] at hsub
    exact hv sub (Option.some.inj hsub)
  · rw [Dictionary.find?_put_of_ne hkey] at hsub
    exact h.nested hsub

theorem branchEntries_ordered {branch : Branch}
    (h : ∀ entry ∈ branch, Ensures entry.2.toValue Value.Ordered) :
    Ensures (branchEntries branch) Entries.Ordered := by
  induction branch with
  | nil => exact .pure (.of_nested List.Pairwise.nil nofun)
  | cons first rest ih =>
      obtain ⟨key, node⟩ := first
      obtain ⟨hnode, hrest⟩ := List.forall_mem_cons.mp h
      rw [branchEntries]
      exact hnode.bind fun v hv => (ih hrest).bind fun d hd => .pure (hd.put hv key)

theorem Node.Plain.toValue {node : Node} (h : node.Plain) :
    Ensures node.toValue Value.Ordered := by
  induction h with
  | scalar hv =>
      rw [Node.toValue]
      exact .pure fun entries heq => absurd (heq ▸ .table entries) hv
  | list items =>
      rw [Node.toValue]
      exact (Ensures.any _).bind fun _ _ => .pure nofun
  | table _ ih =>
      rw [Node.toValue, tableValue]
      refine (Ensures.any _).bind fun isDate _ => ?_
      split
      · exact .pure nofun
      · refine (branchEntries_ordered ih).bind fun entries hentries => .pure ?_
        rintro _ ⟨⟩
        exact hentries
  | tables items =>
      rw [Node.toValue]
      exact (Ensures.any _).bind fun _ _ => .pure nofun

/-- A document that was read is in order. -/
theorem read_ordered {text : String} {d : Entries} (h : read text = .ok d) : d.Ordered := by
  have hread : Ensures (read text) Entries.Ordered := by
    refine (readLines_plain Branch.plain_nil _ _).bind fun root hroot => ?_
    exact branchEntries_ordered fun entry hentry => (hroot entry hentry).toValue
  exact hread d h

end Toml

/-- A table that was read from a text mirrors the document that the text is. -/
theorem Catalog.readTable_mirrors {c c' : Catalog} {name origin text : String} {t : Table}
    (h : readTable name origin text c = .ok t c') :
    ∃ d, Toml.read text = .ok d ∧ ∀ path,
      Option.Rel (fun sub s => s.Mirrors (path.getLastD name) sub) (d.at? path) (t.at? path) := by
  unfold readTable at h
  cases hd : Toml.read text with
  | error fault =>
      rw [hd] at h
      cases h
  | ok d =>
      rw [hd] at h
      change build name d c = .ok t c' at h
      unfold build at h
      split at h
      · next t' journal ht =>
        cases h
        exact ⟨d, rfl, Table.rel_at (Toml.read_ordered hd) ht⟩
      · cases h

end Tabletop
