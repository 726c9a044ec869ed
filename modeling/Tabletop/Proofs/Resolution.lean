/-
# What a roll on a table returns

A resolution is a chain of rolls. The first number that its dice show has the modifier added to it,
the later ones stand as they are. Each number but the last selects an entry that redirects, and the
last one is the result, or selects the entry that is.

The program adds a zero to the later numbers instead of leaving them alone. This changes none of
them but the negative zero, and the change is seen only if that number becomes the result. So the
chain describes all other resolutions exactly, and what happens in the remaining case is proved,
too.
-/

import Tabletop.Proofs.Binary64
import Tabletop.Proofs.Record
import Tabletop.Table.Resolution

namespace Tabletop

namespace Calculator

variable {σ : Type}

/-- Nothing but notes was taken between two states of a calculator. -/
def Noted (c c' : Calculator σ) : Prop :=
  ∃ notes : List Note, c' = { c with sampler := notes.foldl Sampler.noted c.sampler }

theorem Noted.refl (c : Calculator σ) : c.Noted c :=
  ⟨[], rfl⟩

theorem noted_note (n : Note) (c : Calculator σ) :
    c.Noted { c with sampler := c.sampler.noted n } :=
  ⟨[n], rfl⟩

theorem noted_of_note {c c' : Calculator σ} {n : Note} (h : note n c = .ok () c') : c.Noted c' := by
  rw [note_eq] at h
  cases h
  exact noted_note n c

theorem Noted.trans {c c' c'' : Calculator σ} (h : c.Noted c') (h' : c'.Noted c'') :
    c.Noted c'' := by
  obtain ⟨notes, rfl⟩ := h
  obtain ⟨notes', rfl⟩ := h'
  exact ⟨notes ++ notes', by rw [List.foldl_append]⟩

theorem Noted.alike {c c' : Calculator σ} (h : c.Noted c') : c.Alike c' := by
  obtain ⟨notes, rfl⟩ := h
  have hsource : ∀ s : Sampler σ, (notes.foldl Sampler.noted s).source = s.source := by
    induction notes with
    | nil => exact fun _ => rfl
    | cons n notes ih => exact fun s => ih (s.noted n)
  exact ⟨(hsource c.sampler).symm, rfl, rfl⟩

end Calculator

namespace Table

/-! ## Keys and entries -/

/-- The first key that matches the number stands at the place of the entry. -/
def Selects (t : Table) (x : Number) (entry : Entry) : Prop :=
  ∃ (rolls : List Key) (results : List Entry) (i : Nat) (key : Key),
    t.rolls = some rolls ∧ t.results = some results ∧ rolls[i]? = some key ∧
      key.matches x = true ∧
      (∀ j < i, ∀ earlier : Key, rolls[j]? = some earlier → earlier.matches x = false) ∧
      results[i]? = some entry

/-- The table has no entry for the number, because it has no keys, no results or no key that
matches. -/
def Unlisted (t : Table) (x : Number) : Prop :=
  t.rolls = none ∨ t.results = none ∨
    ∃ rolls, t.rolls = some rolls ∧ ∀ key ∈ rolls, key.matches x = false

/-- The entry redirects nowhere and stands for the result. -/
inductive StandsFor : Entry → Result → Prop
  | number {x : Number} : StandsFor (.number x) (.number x)
  | nothing : StandsFor (.text "None") .nothing
  | text {s : String} :
      s ≠ "None" → s ≠ "reroll" → ¬ redirectMark.toList <+: s.toList →
      StandsFor (.text s) (.text s)

/-- Which lead the text of an entry asks for. -/
inductive Means : Entry → Lead → Prop
  | done {entry : Entry} {r : Result} : StandsFor entry r → Means entry (.done r)
  | again : Means (.text "reroll") .again
  | descend {name : String} : Means (.text (redirectMark ++ name)) (.descend name)

/-- The number selects an entry that leads to another roll, on the table itself or on one of the
tables nested in it. -/
inductive Redirects (t : Table) (x : Number) : Table → Prop
  | again : t.Selects x (.text "reroll") → Redirects t x t
  | descend {name : String} {sub : Table} :
      t.Selects x (.text (redirectMark ++ name)) → t.subtable? name = some sub →
      Redirects t x sub

/-- The number is the result, or selects the entry that stands for it. -/
inductive Answers (t : Table) (x : Number) : Result → Prop
  | self : t.Unlisted x → Answers t x (.number x)
  | entry {e : Entry} {r : Result} : t.Selects x e → StandsFor e r → Answers t x r

section Keys

variable {t t' : Table} {x y : Number} {entry entry' : Entry} {r : Result}

theorem Selects.unique (h : t.Selects x entry) (h' : t.Selects x entry') : entry = entry' := by
  obtain ⟨rolls, results, i, key, hrolls, hresults, hkey, hmatch, hfirst, hentry⟩ := h
  obtain ⟨rolls', results', j, key', hrolls', hresults', hkey', hmatch', hfirst', hentry'⟩ := h'
  obtain rfl : rolls = rolls' := Option.some.inj (hrolls.symm.trans hrolls')
  obtain rfl : results = results' := Option.some.inj (hresults.symm.trans hresults')
  have hij : i = j := by
    rcases Nat.lt_trichotomy i j with hlt | heq | hgt
    · rw [hfirst' i hlt key hkey] at hmatch
      cases hmatch
    · exact heq
    · rw [hfirst j hgt key' hkey'] at hmatch'
      cases hmatch'
  subst hij
  exact Option.some.inj (hentry.symm.trans hentry')

theorem Selects.mem (h : t.Selects x entry) :
    ∃ results, t.results = some results ∧ entry ∈ results := by
  obtain ⟨rolls, results, i, key, -, hresults, -, -, -, hentry⟩ := h
  exact ⟨results, hresults, List.mem_of_getElem? hentry⟩

theorem Unlisted.not_selects (h : t.Unlisted x) : ¬ t.Selects x entry := by
  rintro ⟨rolls, results, i, key, hrolls, hresults, hkey, hmatch, -, -⟩
  rcases h with hnone | hnone | ⟨rolls', hrolls', hno⟩
  · rw [hrolls] at hnone
    cases hnone
  · rw [hresults] at hnone
    cases hnone
  · obtain rfl : rolls = rolls' := Option.some.inj (hrolls.symm.trans hrolls')
    rw [hno key (List.mem_of_getElem? hkey)] at hmatch
    cases hmatch

/-- Keys that match the same numbers select the same entries. -/
theorem Selects.congr (hsame : ∀ key : Key, key.matches x = key.matches y)
    (h : t.Selects x entry) : t.Selects y entry := by
  obtain ⟨rolls, results, i, key, hrolls, hresults, hkey, hmatch, hfirst, hentry⟩ := h
  refine ⟨rolls, results, i, key, hrolls, hresults, hkey, ?_, ?_, hentry⟩
  · rw [← hsame, hmatch]
  · intro j hj earlier hearlier
    rw [← hsame, hfirst j hj earlier hearlier]

theorem Unlisted.congr (hsame : ∀ key : Key, key.matches x = key.matches y)
    (h : t.Unlisted x) : t.Unlisted y := by
  rcases h with hnone | hnone | ⟨rolls, hrolls, hno⟩
  · exact .inl hnone
  · exact .inr (.inl hnone)
  · refine .inr (.inr ⟨rolls, hrolls, ?_⟩)
    intro key hkey
    rw [← hsame, hno key hkey]

/-- What a number leads to is the number itself, or the meaning of the entry that it selects. -/
theorem of_select {lead : Lead} (h : t.select x = .ok lead) :
    (t.Unlisted x ∧ lead = .done (.number x)) ∨ ∃ entry, t.Selects x entry ∧ lead = entry.lead := by
  unfold select at h
  split at h
  · next rolls results hrolls hresults =>
    split at h
    · next i hfind =>
      obtain ⟨hi, hmatch, hfirst⟩ := List.findIdx?_eq_some_iff_getElem.mp hfind
      split at h
      · next entry hentry =>
        refine .inr ⟨entry, ⟨rolls, results, i, rolls[i], hrolls, hresults,
          List.getElem?_eq_getElem hi, hmatch, ?_, hentry⟩, (Except.ok.inj h).symm⟩
        intro j hj earlier hearlier
        obtain ⟨hlen, rfl⟩ := List.getElem?_eq_some_iff.mp hearlier
        exact Bool.eq_false_iff.mpr (hfirst j hj)
      · cases h
    · next hfind =>
      have hno := List.findIdx?_eq_none_iff.mp hfind
      exact .inl ⟨.inr (.inr ⟨rolls, hrolls, hno⟩), (Except.ok.inj h).symm⟩
  · next hmissing =>
    refine .inl ⟨?_, (Except.ok.inj h).symm⟩
    cases hrolls : t.rolls with
    | none => exact .inl hrolls
    | some rolls =>
        cases hresults : t.results with
        | none => exact .inr (.inl hresults)
        | some results => exact absurd hresults (hmissing rolls results hrolls)

theorem means_lead (entry : Entry) : Means entry entry.lead := by
  cases entry with
  | number x => exact .done .number
  | text s =>
      unfold Entry.lead
      dsimp only
      by_cases hnone : s = "None"
      · rw [if_pos hnone, hnone]
        exact .done .nothing
      · rw [if_neg hnone]
        by_cases hagain : s = "reroll"
        · rw [if_pos hagain, hagain]
          exact .again
        · rw [if_neg hagain]
          by_cases hmark : redirectMark.toList.isPrefixOf s.toList
          · rw [if_pos hmark]
            obtain ⟨name, hname⟩ := List.isPrefixOf_iff_prefix.mp hmark
            have hs : s = redirectMark ++ String.ofList name := by
              apply String.toList_inj.mp
              rw [String.toList_append, String.toList_ofList, hname]
            rw [← hname, List.drop_left' String.length_toList]
            exact hs ▸ .descend
          · rw [if_neg hmark]
            exact .done (.text hnone hagain (mt List.isPrefixOf_iff_prefix.mpr hmark))

/-- An entry has one meaning. -/
theorem lead_of_means {lead : Lead} (h : Means entry lead) : entry.lead = lead := by
  cases h with
  | done hstands =>
      cases hstands with
      | number => rfl
      | nothing => rfl
      | text hnone hagain hmark =>
          rw [Entry.lead, if_neg hnone, if_neg hagain,
            if_neg (mt List.isPrefixOf_iff_prefix.mp hmark)]
  | again => rfl
  | @descend name =>
      have hlist : (redirectMark ++ name).toList = redirectMark.toList ++ name.toList :=
        String.toList_append
      have hlength : (redirectMark ++ name).toList.length = 7 + name.toList.length := by
        rw [hlist, List.length_append]
        rfl
      have hnone : redirectMark ++ name ≠ "None" := by
        intro h
        rw [h] at hlength
        have hfour : "None".toList.length = 4 := rfl
        omega
      have hagain : redirectMark ++ name ≠ "reroll" := by
        intro h
        rw [h] at hlength
        have hsix : "reroll".toList.length = 6 := rfl
        omega
      rw [Entry.lead, if_neg hnone, if_neg hagain, if_pos, hlist,
        List.drop_left' String.length_toList, String.ofList_toList]
      exact List.isPrefixOf_iff_prefix.mpr (hlist ▸ List.prefix_append _ _)

theorem Redirects.congr (hsame : ∀ key : Key, key.matches x = key.matches y)
    (h : t.Redirects x t') : t.Redirects y t' := by
  cases h with
  | again hselects => exact .again (hselects.congr hsame)
  | descend hselects hsub => exact .descend (hselects.congr hsame) hsub

/-- No key tells the two zeros apart. -/
theorem matches_negativeZero (key : Key) :
    key.matches (.float (-0.0)) = key.matches (.float 0.0) := by
  cases key with
  | exact n => exact Binary64.negativeZero_beq (Number.int n).toFloat
  | range lo hi =>
      simp only [Key.matches, Number.atMost, Number.order, Number.toFloat,
        Number.compareFloat_negativeZero_left, Number.compareFloat_negativeZero_right]

/-- What a redirecting number selects. -/
theorem Redirects.selects (h : t.Redirects x t') :
    ∃ e lead, t.Selects x e ∧ Means e lead ∧ t.redirect lead = .ok (.inr t') := by
  cases h with
  | again hselects => exact ⟨_, _, hselects, .again, rfl⟩
  | @descend name _ hselects hsub =>
      refine ⟨_, _, hselects, .descend, ?_⟩
      rw [redirect, hsub]

theorem Redirects.unique {u : Table} (h : t.Redirects x t') (h' : t.Redirects x u) : t' = u := by
  obtain ⟨e, lead, hselects, hmeans, hto⟩ := h.selects
  obtain ⟨e', lead', hselects', hmeans', hto'⟩ := h'.selects
  obtain rfl := hselects.unique hselects'
  obtain rfl := (lead_of_means hmeans).symm.trans (lead_of_means hmeans')
  rw [hto] at hto'
  cases hto'
  rfl

/-- A number that is the result, or selects it, redirects nowhere. -/
theorem Answers.not_redirects (h : t.Answers x r) : ¬ t.Redirects x t' := by
  intro hredirects
  obtain ⟨e, lead, hselects, hmeans, hto⟩ := hredirects.selects
  cases h with
  | self hunlisted => exact hunlisted.not_selects hselects
  | entry hselects' hstands =>
      obtain rfl := hselects.unique hselects'
      obtain rfl := (lead_of_means hmeans).symm.trans (lead_of_means (.done hstands))
      cases hto

end Keys

/-! ## One roll -/

section Rolls

variable {σ : Type}

variable [RandomSource σ] {t : Table} {c c' : Calculator σ}

/-- The dice of the table show `n`. Around the evaluation of the dice only notes are taken. -/
def Throws (t : Table) (c : Calculator σ) (n : Number) (c' : Calculator σ) : Prop :=
  ∃ dice before after, t.dice = some dice ∧ c.Noted before ∧
    Calculator.number dice before = .ok n after ∧ after.Noted c'

theorem Throws.note {n : Number} {note : Note} {c'' : Calculator σ} (h : t.Throws c n c')
    (hnote : Calculator.note note c' = .ok () c'') : t.Throws c n c'' := by
  obtain ⟨dice, before, after, hdice, hbefore, hn, hafter⟩ := h
  exact ⟨dice, before, after, hdice, hbefore, hn, hafter.trans (Calculator.noted_of_note hnote)⟩

theorem of_rollDice {modifier : Int64} {roll : Number}
    (h : t.rollDice modifier c = .ok roll c') :
    ∃ n, t.Throws c n c' ∧ n.add (.int modifier) = .ok roll := by
  cases hdice : t.dice with
  | none =>
      rw [rollDice, hdice] at h
      cases h
  | some dice =>
      rw [rollDice, hdice] at h
      obtain ⟨_, before, hrolling, hthrow⟩ := Attempt.bind_eq_ok_iff.mp h
      obtain ⟨n, after, hn, hadd⟩ := Attempt.bind_eq_ok_iff.mp hthrow
      obtain ⟨x, mid, hx, hnote⟩ := Attempt.bind_eq_ok_iff.mp hadd
      obtain ⟨hsum, rfl⟩ := Attempt.ofExcept_eq_ok_iff.mp hx
      obtain ⟨_, last, hrolled, hreturn⟩ := Attempt.bind_eq_ok_iff.mp hnote
      obtain ⟨rfl, rfl⟩ := Attempt.pure_eq_ok_iff.mp hreturn
      exact ⟨n, ⟨dice, before, _, hdice, Calculator.noted_of_note hrolling, hn,
        Calculator.noted_of_note hrolled⟩, hsum⟩

/-- One roll succeeds when all its parts do. -/
theorem rollOnce_eq_ok_iff {modifier : Int64} {out : Result ⊕ Table} :
    t.rollOnce modifier c = .ok out c' ↔
      ∃ roll rolled lead, t.rollDice modifier c = .ok roll rolled ∧ t.select roll = .ok lead ∧
        Calculator.note (.led t.name lead) rolled = .ok () c' ∧ t.redirect lead = .ok out := by
  constructor
  · intro h
    obtain ⟨roll, rolled, hroll, hrest⟩ := Attempt.bind_eq_ok_iff.mp h
    obtain ⟨lead, mid, hlead, hnote⟩ := Attempt.bind_eq_ok_iff.mp hrest
    obtain ⟨hselect, rfl⟩ := Attempt.ofExcept_eq_ok_iff.mp hlead
    obtain ⟨_, last, hled, hend⟩ := Attempt.bind_eq_ok_iff.mp hnote
    obtain ⟨hredirect, rfl⟩ := Attempt.ofExcept_eq_ok_iff.mp hend
    exact ⟨roll, _, lead, hroll, hselect, hled, hredirect⟩
  · rintro ⟨roll, rolled, lead, hroll, hselect, hled, hredirect⟩
    refine (Attempt.bind_of_ok hroll).trans (Attempt.bind_eq_ok_iff.mpr ⟨lead, rolled, ?_, ?_⟩)
    · exact Attempt.ofExcept_eq_ok_iff.mpr ⟨hselect, rfl⟩
    · refine (Attempt.bind_of_ok hled).trans ?_
      exact Attempt.ofExcept_eq_ok_iff.mpr ⟨hredirect, rfl⟩

/-- One roll ends with a result or with the table to roll on next, whatever its number leads to. -/
theorem of_rollOnce {modifier : Int64} {out : Result ⊕ Table}
    (h : t.rollOnce modifier c = .ok out c') :
    ∃ n roll, t.Throws c n c' ∧ n.add (.int modifier) = .ok roll ∧
      ((∃ r, out = .inl r ∧ t.Answers roll r) ∨
        ∃ next, out = .inr next ∧ t.Redirects roll next) := by
  obtain ⟨roll, rolled, lead, hroll, hselect, hled, hredirect⟩ := rollOnce_eq_ok_iff.mp h
  obtain ⟨n, hthrows, hadd⟩ := of_rollDice hroll
  refine ⟨n, roll, hthrows.note hled, hadd, ?_⟩
  rcases of_select hselect with ⟨hunlisted, rfl⟩ | ⟨entry, hselects, rfl⟩
  · cases hredirect
    exact .inl ⟨_, rfl, .self hunlisted⟩
  · have hmeans := means_lead entry
    generalize entry.lead = lead at hmeans hredirect
    cases hmeans with
    | done hstands =>
        cases hredirect
        exact .inl ⟨_, rfl, .entry hselects hstands⟩
    | again =>
        cases hredirect
        exact .inr ⟨_, rfl, .again hselects⟩
    | @descend name =>
        cases hsub : t.subtable? name with
        | none => rw [redirect, hsub] at hredirect; cases hredirect
        | some sub =>
            rw [redirect, hsub] at hredirect
            cases hredirect
            exact .inr ⟨_, rfl, .descend hselects hsub⟩

/-! ## Chains of rolls -/

/-- The number that counts when the dice show `n`. Only a first roll has a modifier. -/
def Counts : Option Int64 → Number → Number → Prop
  | some modifier, n, x => n.add (.int modifier) = .ok x
  | none, n, x => x = n

/-- `Chain modifier t c k last x c'`: rolling on `t` redirects `k` times, to `last` in the end,
where the number `x` comes up. -/
inductive Chain :
    Option Int64 → Table → Calculator σ → Nat → Table → Number → Calculator σ → Prop
  | stop {modifier : Option Int64} {t : Table} {n x : Number} {c c' : Calculator σ} :
      t.Throws c n c' → Counts modifier n x → Chain modifier t c 0 t x c'
  | next {modifier : Option Int64} {t sub last : Table} {n x y : Number} {k : Nat}
      {c mid c' : Calculator σ} :
      t.Throws c n mid → Counts modifier n x → t.Redirects x sub →
      Chain none sub mid k last y c' → Chain modifier t c (k + 1) last y c'

/-- The negative zero came up in a later roll, and no entry is listed for it. -/
def SignLost (modifier : Option Int64) (k : Nat) (t : Table) (x : Number) : Prop :=
  (modifier = none ∨ 0 < k) ∧ x = .float (-0.0) ∧ t.Unlisted x

/-- The program adds a modifier of zero to a later number. Keys do not notice. -/
theorem counts_of_add {modifier : Option Int64} {n roll : Number}
    (h : n.add (.int (modifier.getD 0)) = .ok roll) :
    ∃ x, Counts modifier n x ∧ (∀ key : Key, key.matches roll = key.matches x) ∧
      if modifier = none ∧ x = .float (-0.0) then roll = .float 0.0 else roll = x := by
  cases modifier with
  | some modifier => exact ⟨roll, h, fun _ => rfl, by rw [if_neg (by simp)]⟩
  | none =>
      by_cases hzero : n = .float (-0.0)
      · subst hzero
        obtain rfl := Except.ok.inj (Number.negativeZero_add_zero.symm.trans h)
        exact ⟨_, rfl, fun key => (matches_negativeZero key).symm, by rw [if_pos ⟨rfl, rfl⟩]⟩
      · obtain rfl := Except.ok.inj ((Number.add_zero_of_ne hzero).symm.trans h)
        exact ⟨n, rfl, fun _ => rfl, by rw [if_neg (fun hnone => hzero hnone.2)]⟩

/-- One roll of the program, seen as a link of a chain. -/
theorem link_of_rollOnce {modifier : Option Int64} {out : Result ⊕ Table}
    (h : t.rollOnce (modifier.getD 0) c = .ok out c') :
    ∃ n x, t.Throws c n c' ∧ Counts modifier n x ∧
      match out with
      | .inl r =>
          SignLost modifier 0 t x ∧ r = .number (.float 0.0) ∨
          ¬ SignLost modifier 0 t x ∧ t.Answers x r
      | .inr next => t.Redirects x next := by
  obtain ⟨n, roll, hthrows, hadd, hout⟩ := of_rollOnce h
  obtain ⟨x, hcounts, hkeys, hroll⟩ := counts_of_add hadd
  refine ⟨n, x, hthrows, hcounts, ?_⟩
  rcases hout with ⟨r, rfl, hanswers⟩ | ⟨next, rfl, hredirects⟩
  · cases hanswers with
    | self hunlisted =>
        by_cases hlost : modifier = none ∧ x = .float (-0.0)
        · rw [if_pos hlost] at hroll
          exact .inl ⟨⟨.inl hlost.1, hlost.2, hunlisted.congr hkeys⟩, by rw [hroll]⟩
        · rw [if_neg hlost] at hroll
          refine .inr ⟨?_, hroll ▸ .self hunlisted⟩
          rintro ⟨hnone | hpos, hx, -⟩
          · exact hlost ⟨hnone, hx⟩
          · exact absurd hpos (Nat.lt_irrefl 0)
    | entry hselects hstands =>
        have hselects' := hselects.congr hkeys
        exact .inr ⟨fun hlost => hlost.2.2.not_selects hselects', .entry hselects' hstands⟩
  · exact hredirects.congr hkeys

/-- A resolution that returns ends after one roll or goes on with one redirection less. -/
theorem of_follow {exhausted : Table → Halt Error} {budget : Nat} {modifier : Int64} {r : Result}
    (h : follow exhausted budget t modifier c = .ok r c') :
    t.rollOnce modifier c = .ok (.inl r) c' ∨
      ∃ next mid rest, t.rollOnce modifier c = .ok (.inr next) mid ∧ budget = rest + 1 ∧
        follow exhausted rest next 0 mid = .ok r c' := by
  unfold follow at h
  obtain ⟨out, mid, hroll, hrest⟩ := Attempt.bind_eq_ok_iff.mp h
  cases out with
  | inl r' =>
      obtain ⟨rfl, rfl⟩ := Attempt.pure_eq_ok_iff.mp hrest
      exact .inl hroll
  | inr next =>
      cases budget with
      | zero => cases hrest
      | succ rest => exact .inr ⟨next, mid, rest, hroll, rfl, hrest⟩

/-- A resolution that returns has rolled along a chain. Its result is what the chain asks for,
unless a sign was lost. -/
theorem chain_of_follow {exhausted : Table → Halt Error} {budget : Nat} {modifier : Option Int64}
    {r : Result} (h : follow exhausted budget t (modifier.getD 0) c = .ok r c') :
    ∃ k last x, Chain modifier t c k last x c' ∧
      (SignLost modifier k last x ∧ r = .number (.float 0.0) ∨
        ¬ SignLost modifier k last x ∧ last.Answers x r) := by
  induction budget using Nat.strongRecOn generalizing modifier t c with
  | ind budget ih =>
      rcases of_follow h with hroll | ⟨next, mid, rest, hroll, rfl, hrest⟩
      · obtain ⟨n, x, hthrows, hcounts, hout⟩ := link_of_rollOnce hroll
        exact ⟨0, t, x, .stop hthrows hcounts, hout⟩
      · obtain ⟨n, x, hthrows, hcounts, hredirects⟩ := link_of_rollOnce hroll
        have hnone : follow exhausted rest next ((none : Option Int64).getD 0) mid = .ok r c' :=
          hrest
        obtain ⟨k, last, y, hchain, hout⟩ := ih rest (Nat.lt_succ_self rest) hnone
        have hlost : SignLost modifier (k + 1) last y ↔ SignLost none k last y := by
          simp [SignLost]
        refine ⟨k + 1, last, y, .next hthrows hcounts hredirects hchain, ?_⟩
        rw [hlost]
        exact hout

/-! ## There is one chain -/

theorem Counts.unique {modifier : Option Int64} {n x y : Number} (h : Counts modifier n x)
    (h' : Counts modifier n y) : x = y := by
  cases modifier with
  | some modifier => exact Except.ok.inj (h.symm.trans h')
  | none => exact h.trans h'.symm

/-- Dice show the same number on calculators that are alike. -/
theorem Throws.unique {d d' : Calculator σ} {n m : Number} (h : t.Throws c n c')
    (h' : t.Throws d m d') (halike : c.Alike d) : n = m ∧ c'.Alike d' := by
  obtain ⟨dice, before, after, hdice, hbefore, hn, hafter⟩ := h
  obtain ⟨dice', before', after', hdice', hbefore', hm, hafter'⟩ := h'
  obtain rfl := Option.some.inj (hdice.symm.trans hdice')
  have hstart : before.Alike before' :=
    (hbefore.alike.symm.trans halike).trans hbefore'.alike
  obtain ⟨end', hend, halike'⟩ := hstart.number hn
  rw [hm] at hend
  cases hend
  exact ⟨rfl, (hafter.alike.symm.trans halike').trans hafter'.alike⟩

/-- Two chains from calculators that are alike agree, if neither could be continued. -/
theorem Chain.unique {modifier : Option Int64} {k : Nat} {last : Table} {x : Number}
    (h : Chain modifier t c k last x c') (hstop : ∀ sub, ¬ last.Redirects x sub) :
    ∀ {d d' : Calculator σ} {k' : Nat} {last' : Table} {x' : Number}, c.Alike d →
      Chain modifier t d k' last' x' d' → (∀ sub, ¬ last'.Redirects x' sub) →
      k = k' ∧ last = last' ∧ x = x' := by
  induction h with
  | stop hthrows hcounts =>
      intro d d' k' last' x' halike h' hstop'
      cases h' with
      | stop hthrows' hcounts' =>
          obtain ⟨rfl, -⟩ := hthrows.unique hthrows' halike
          exact ⟨rfl, rfl, hcounts.unique hcounts'⟩
      | next hthrows' hcounts' hredirects' _ =>
          obtain ⟨rfl, -⟩ := hthrows.unique hthrows' halike
          obtain rfl := hcounts.unique hcounts'
          exact absurd hredirects' (hstop _)
  | next hthrows hcounts hredirects _ ih =>
      intro d d' k' last' x' halike h' hstop'
      cases h' with
      | stop hthrows' hcounts' =>
          obtain ⟨rfl, -⟩ := hthrows.unique hthrows' halike
          obtain rfl := hcounts.unique hcounts'
          exact absurd hredirects (hstop' _)
      | next hthrows' hcounts' hredirects' hchain' =>
          obtain ⟨rfl, hmid⟩ := hthrows.unique hthrows' halike
          obtain rfl := hcounts.unique hcounts'
          obtain rfl := hredirects.unique hredirects'
          obtain ⟨rfl, hsame⟩ := ih hstop hmid hchain' hstop'
          exact ⟨rfl, hsame⟩

/-- A result that is asked for is a number, or what a text stands for that is none of the three
texts with a meaning of their own. -/
theorem Answers.text {x : Number} {s : String} (h : t.Answers x (.text s)) :
    s ≠ "None" ∧ s ≠ "reroll" ∧ ¬ redirectMark.toList <+: s.toList := by
  cases h with
  | entry _ hstands =>
      cases hstands with
      | text hnone hagain hmark => exact ⟨hnone, hagain, hmark⟩

theorem Answers.nothing {x : Number} (h : t.Answers x .nothing) : t.Selects x (.text "None") := by
  cases h with
  | entry hselects hstands =>
      cases hstands with
      | nothing => exact hselects

/-- A negative zero that no entry is listed for asks for itself. -/
theorem SignLost.of_answers {modifier : Option Int64} {k : Nat} {x : Number} {r : Result}
    (h : SignLost modifier k t x) (hanswers : t.Answers x r) : r = .number (.float (-0.0)) := by
  obtain ⟨-, rfl, hunlisted⟩ := h
  cases hanswers with
  | self => rfl
  | entry hselects => exact absurd hselects hunlisted.not_selects

theorem SignLost.not_redirects {modifier : Option Int64} {k : Nat} {x : Number}
    (h : SignLost modifier k t x) (sub : Table) : ¬ t.Redirects x sub :=
  (Answers.self h.2.2).not_redirects

end Rolls

/-! ## A table that redirects once -/

/-- A table without entries whose dice show a number. -/
def shows (number : String) : Table :=
  { blank "z" with dice := some number }

/-- A table whose only roll redirects to one nested in it. -/
def redirecting (number : String) : Table :=
  { blank "t" with
    dice := some "1"
    rolls := some [.exact 1]
    results := some [.text "reroll:z"]
    subtables := [("z", shows number)] }

/-- A calculator with a source that draws nothing of interest. -/
def idle : Calculator Script :=
  .new
    { current := 1
      step := 1
      fractions := .ofList 0 []
      deviations := .ofList 0 []
      paretos := .ofList 0 [] }

theorem redirecting_redirects (number : String) :
    (redirecting number).Redirects (.int 1) (shows number) := by
  have hselects : (redirecting number).Selects (.int 1) (.text (redirectMark ++ "z")) :=
    ⟨[.exact 1], [.text "reroll:z"], 0, .exact 1, rfl, rfl, rfl, rfl, nofun, rfl⟩
  exact .descend hselects rfl

/-- Dice that are written as a literal show it. -/
theorem throws_literal {σ : Type} [RandomSource σ] {t : Table} {dice : String} {n : Number}
    (hdice : t.dice = some dice) (h : Statement.read dice = .ok (.evaluate (.literal n)))
    (c : Calculator σ) : ∃ c', t.Throws c n c' :=
  ⟨_, dice, c, _, hdice, .refl c, Calculator.number_literal h c, .refl _⟩

/-- The chain of rolls on the table, where the nested dice show a literal. -/
theorem chain_redirecting {σ : Type} [RandomSource σ] {number : String} {n : Number}
    (h : Statement.read number = .ok (.evaluate (.literal n))) (c : Calculator σ) :
    ∃ c', Chain (some 0) (redirecting number) c 1 (shows number) n c' := by
  have hread : Statement.read "1" = .ok (.evaluate (.literal (.int 1))) := by decide +kernel
  obtain ⟨mid, hone⟩ := throws_literal (t := redirecting number) rfl hread c
  obtain ⟨c', hn⟩ := throws_literal (t := shows number) rfl h mid
  have hsum : Counts (some 0) (.int 1) (.int 1) := rfl
  exact ⟨c', .next hone hsum (redirecting_redirects number) (.stop hn rfl)⟩

/-! ## Resolutions -/

/-- A resolution that returns has rolled along a chain: the modifier counts for the first number
only, every number but the last redirects, and the last one is the result or selects the entry that
stands for it. The one exception is a last number that is the negative zero, is not the first and
has no entry: the positive zero is returned. In any case a text that is returned is not one of the
texts with a meaning of their own, and nothing is returned only for the text that means it. -/
theorem resolve_returns {σ : Type} [RandomSource σ] {t : Table} {c c' : Calculator σ}
    {maxRedirects : Option Nat} {modifier : Int64} {r : Result}
    (h : t.resolve maxRedirects modifier c = .ok r c') :
    ∃ k last x, Chain (some modifier) t c k last x c' ∧ (∀ sub, ¬ last.Redirects x sub) ∧
      (SignLost (some modifier) k last x → r = .number (.float 0.0)) ∧
      ((∃ k last x, Chain (some modifier) t c k last x c' ∧ last.Answers x r) ↔
        ¬ SignLost (some modifier) k last x) ∧
      (∀ s, r = .text s → s ≠ "None" ∧ s ≠ "reroll" ∧ ¬ redirectMark.toList <+: s.toList) ∧
      (r = .nothing → last.Selects x (.text "None")) := by
  have hfollow : ∃ exhausted budget,
      follow exhausted budget t ((some modifier).getD 0) c = .ok r c' := by
    cases maxRedirects with
    | none => exact ⟨_, _, h⟩
    | some limit => exact ⟨_, _, h⟩
  obtain ⟨exhausted, budget, hfollow⟩ := hfollow
  obtain ⟨k, last, x, hchain, hcases⟩ := chain_of_follow hfollow
  rcases hcases with ⟨hlost, rfl⟩ | ⟨hkept, hanswers⟩
  · refine ⟨k, last, x, hchain, hlost.not_redirects, fun _ => rfl, ⟨?_, ?_⟩, nofun, nofun⟩
    · rintro ⟨k', last', x', hchain', hanswers'⟩
      obtain ⟨rfl, rfl, rfl⟩ := hchain.unique hlost.not_redirects (.refl c) hchain'
        fun sub => hanswers'.not_redirects
      exact absurd (hlost.of_answers hanswers') (by decide)
    · exact fun hkept => absurd hlost hkept
  · refine ⟨k, last, x, hchain, fun sub => hanswers.not_redirects, ?_, ?_, ?_, ?_⟩
    · exact fun hlost => absurd hlost hkept
    · exact ⟨fun _ => hkept, fun _ => ⟨k, last, x, hchain, hanswers⟩⟩
    · rintro s rfl
      exact hanswers.text
    · rintro rfl
      exact hanswers.nothing

theorem redirecting_returns :
    ∃ c', (redirecting "1.5").resolve none 0 idle = .ok (.number (.float 1.5)) c' ∧
      ∃ k last x, Chain (some 0) (redirecting "1.5") idle k last x c' ∧
        ∀ sub, ¬ last.Redirects x sub := by
  have hrun : Attempt.value? ((redirecting "1.5").resolve none 0 idle) =
      some (.number (.float 1.5)) := by decide +kernel
  obtain ⟨c', hresolve⟩ := Attempt.exists_of_value? hrun
  obtain ⟨k, last, x, hchain, hends, -⟩ := resolve_returns hresolve
  exact ⟨c', hresolve, k, last, x, hchain, hends⟩

/-- The nested table shows the negative zero and has no entry for it, but the positive zero is
returned. No chain of rolls asks for that. -/
theorem redirecting_negativeZero :
    (∃ c', (redirecting "-0.0").resolve none 0 idle = .ok (.number (.float 0.0)) c') ∧
    ¬ ∃ k last x c', Chain (some 0) (redirecting "-0.0") idle k last x c' ∧
      last.Answers x (.number (.float 0.0)) := by
  constructor
  · have hrun : Attempt.value? ((redirecting "-0.0").resolve none 0 idle) =
        some (.number (.float 0.0)) := by decide +kernel
    exact Attempt.exists_of_value? hrun
  · rintro ⟨k, last, x, c', hchain, hanswers⟩
    have hread : Statement.read "-0.0" = .ok (.evaluate (.literal (.float (-0.0)))) := by
      decide +kernel
    obtain ⟨d', hzero⟩ := chain_redirecting hread idle
    have hlost : SignLost (some 0) 1 (shows "-0.0") (.float (-0.0)) :=
      ⟨.inr Nat.one_pos, rfl, .inl rfl⟩
    obtain ⟨rfl, rfl, rfl⟩ := hzero.unique hlost.not_redirects (.refl idle) hchain
      fun sub => hanswers.not_redirects
    exact absurd (hlost.of_answers hanswers) (by decide)

end Table

end Tabletop
