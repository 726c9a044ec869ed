/-
# Binding a name and setting a variable

A `let` gives a name a value for the rest of its body, a `set` line gives it one for all lines that
follow. Main statement: a line that binds a name and goes on with an expression has a value exactly
when setting the name and then evaluating the expression on a line of its own has this value. Both
draw the same, but only the second way changes a variable.

The expressions may be any, so the line with the `let` is shown to be a sentence first: white space
keeps the tokens of the two expressions apart from the words around them, and an expression stays
one wherever it stands, if no operator follows it.
-/

import Tabletop.Proofs.FreeVariables
import Tabletop.Proofs.Record
import Tabletop.Proofs.Spacing

namespace Tabletop

namespace Grammar

/-! ## Phrases inside of longer inputs -/

section Embed

/-- The tokens further to the right and with more tokens behind them. -/
def further (bytes : Nat) (more ts : List Token) : List Token :=
  ts.map (Token.shift bytes) ++ more

variable {kinds : List TokenKind} {ts rest : List Token} {bytes : Nat} {more : List Token}

theorem further_cons (t : Token) :
    further bytes more (t :: ts) = t.shift bytes :: further bytes more ts :=
  rfl

theorem Numeral.shift {negative : Bool} {t : Token} {value : Number} (h : Numeral negative t value)
    (bytes : Nat) : Numeral negative (t.shift bytes) value := by
  cases h with
  | integer hkind hdigits hvalue hlo hhi => exact .integer hkind hdigits hvalue hlo hhi
  | float hkind hwhole hfraction htext hvalue => exact .float hkind hwhole hfraction htext hvalue

theorem Literal.embed {value : Number} (h : Literal kinds ts value rest) (bytes : Nat)
    (more : List Token) :
    Literal kinds (further bytes more ts) value (further bytes more rest) := by
  cases h with
  | plain hkind hvalue => exact .plain hkind (hvalue.shift bytes)
  | negative hsign htouch hkind hvalue =>
      exact .negative hsign htouch hkind (hvalue.shift bytes)

theorem Bounds.embed {lo hi : Number} (h : Bounds kinds ts lo hi rest) (bytes : Nat)
    (more : List Token) : Bounds kinds (further bytes more ts) lo hi (further bytes more rest) := by
  cases h with
  | mk hlo hspaced hhi => exact .mk (hlo.embed bytes more) hspaced (hhi.embed bytes more)

theorem NoOperator.embed (h : NoOperator rest) (hmore : NoOperator more) (bytes : Nat) :
    NoOperator (further bytes more rest) := by
  cases rest with
  | nil => exact hmore
  | cons t rest => exact noOperator_cons rfl (h t rfl)

/-- A phrase stays one in a longer input, if no operator stands behind it there. -/
theorem Phrase.embed {level : Level} {e : Expr} (h : Phrase NoOperator level ts e rest)
    (hmore : NoOperator more) (bytes : Nat) :
    Phrase NoOperator level (further bytes more ts) e (further bytes more rest) := by
  induction h with
  | literal hliteral => exact .literal (hliteral.embed bytes more)
  | dice hkind =>
      rw [further_cons]
      exact .dice hkind
  | name hkind =>
      rw [further_cons]
      exact .name hkind
  | uniformInt hopen hbounds hclose =>
      exact .uniformInt hopen (hbounds.embed bytes more) hclose
  | uniformFloat hopen hbounds hclose =>
      exact .uniformFloat hopen (hbounds.embed bytes more) hclose
  | bellInt hopen hbounds hclose => exact .bellInt hopen (hbounds.embed bytes more) hclose
  | bellFloat hopen hbounds hclose => exact .bellFloat hopen (hbounds.embed bytes more) hclose
  | fuzz hopen _ hcomma hdistance hclose ih =>
      exact .fuzz hopen ih hcomma (hdistance.embed bytes more) hclose
  | paren hopen _ hclose ih => exact .paren hopen ih hclose
  | letIn hword hname hequal _ hin _ hends ihvalue ihbody =>
      rw [further_cons, further_cons, further_cons]
      exact .letIn hword hname hequal ihvalue hin ihbody (hends.embed hmore bytes)
  | ofTerm _ ih => exact .ofTerm ih
  | product _ hop _ ihleft ihright => exact .product ihleft hop ihright
  | ofFactor _ ih => exact .ofFactor ih
  | sum _ hop _ ihleft ihright => exact .sum ihleft hop ihright

end Embed

/-! ## Names and expressions as texts -/

/-- The text is a name: letters, but no word that the language keeps for itself. -/
def IsName (text : String) : Prop :=
  text.toList ≠ [] ∧ (∀ c ∈ text.toList, Token.isLetter c) ∧ text ∉ ["in", "let", "set"]

/-- The text is an expression of the calculator language. -/
def IsExpression (text : String) : Prop :=
  ∃ e, Phrase Anything .expr (Token.scan text) e []

/-- The text stands for an expression wherever there is white space before it and no operator
behind it. -/
def StandsFor (text : String) (e : Expr) : Prop :=
  ∀ (position : Nat) (more : List Token), NoOperator more →
    Phrase NoOperator .expr (Token.scanFrom position true text.toList ++ more) e more

/-- A line that is read as something to evaluate is an expression. -/
theorem IsExpression.of_read {text : String} {e : Expr}
    (h : Statement.read text = .ok (.evaluate e)) : IsExpression text := by
  have hs := (Reading.read_eq_ok_iff.mp h).weaken
  unfold IsExpression
  generalize Token.scan text = ts at hs ⊢
  cases hs with
  | evaluate he => exact ⟨e, he⟩

theorem IsExpression.standsFor {text : String} (h : IsExpression text) :
    ∃ e, StandsFor text e := by
  obtain ⟨_, hplain⟩ := h
  obtain ⟨e, he⟩ := hplain.extend noOperator_nil
  refine ⟨e, fun position more hmore => ?_⟩
  rw [← Nat.zero_add position, Token.scanFrom_add]
  exact he.embed hmore position

theorem StandsFor.phrase {text : String} {e : Expr} (h : StandsFor text e) (position : Nat) :
    Phrase NoOperator .expr (Token.scanFrom position true text.toList) e [] := by
  have hphrase := h position [] noOperator_nil
  rwa [List.append_nil] at hphrase

theorem scanFrom_name {x : String} (hx : IsName x) (position : Nat) (spaced : Bool) :
    Token.scanFrom position spaced x.toList = [⟨.variable, x, spaced, position⟩] := by
  obtain ⟨hne, hletters, hreserved⟩ := hx
  obtain ⟨c, cs, htext⟩ := List.exists_cons_of_ne_nil hne
  rw [htext] at hletters
  obtain ⟨hc, hcs⟩ := List.forall_mem_cons.mp hletters
  have hseparator : ¬ Token.isSeparator c := fun h => Token.not_isLetter_of_isSeparator h hc
  have hrun : Token.run Token.isLetter cs = cs.length := by
    rw [Token.run, List.takeWhile_eq_self_iff.mpr hcs]
  have hname : String.ofList (c :: cs) = x := by
    rw [← htext, String.ofList_toList]
  have hkind : Token.wordKind x = .variable := by
    simp only [List.mem_cons, List.not_mem_nil, or_false, not_or] at hreserved
    simp only [Token.wordKind, hreserved, if_false]
  have hlongest : Token.longest c cs = (.variable, cs.length) := by
    rw [Token.longest, if_neg (Token.not_isDigit_of_isLetter hc), if_pos hc, Token.word, hrun,
      List.drop_length, List.take_length, hname, hkind]
    rfl
  rw [htext, Token.scanFrom, if_neg hseparator, hlongest]
  simp only [List.take_length, List.drop_length, hname, Token.scanFrom]

variable {x text₁ text₂ : String} {value body : Expr}

/-- Setting a name to an expression is a sentence. -/
theorem sentence_set (hx : IsName x) (hvalue : StandsFor text₁ value) :
    Sentence NoOperator (Token.scan ("set " ++ x ++ " " ++ text₁)) (.assign x value) := by
  have htext : ("set " ++ x ++ " " ++ text₁).toList =
      "set".toList ++ ' ' :: (x.toList ++ ' ' :: text₁.toList) := by
    simp
  have hset : Token.scan "set" = [⟨.setWord, "set", true, 0⟩] := by decide +kernel
  have hspace : Token.isSeparator ' ' := rfl
  obtain ⟨p, hp⟩ := Token.scanFrom_append hspace 0 true "set".toList _
  obtain ⟨q, hq⟩ := Token.scanFrom_append hspace p true x.toList text₁.toList
  rw [Token.scan, htext, hp, Token.scanFrom_of_scan hset, hq, scanFrom_name hx]
  exact .assign rfl rfl (hvalue.phrase q)

/-- Binding a name to an expression and going on with another one is a sentence. -/
theorem sentence_let (hx : IsName x) (hvalue : StandsFor text₁ value)
    (hbody : StandsFor text₂ body) :
    Sentence NoOperator (Token.scan ("let " ++ x ++ " = " ++ text₁ ++ " in " ++ text₂))
      (.evaluate (.letIn x value body)) := by
  have htext : ("let " ++ x ++ " = " ++ text₁ ++ " in " ++ text₂).toList =
      "let".toList ++ ' ' :: (x.toList ++ ' ' :: ("=".toList ++ ' ' ::
        (text₁.toList ++ ' ' :: ("in".toList ++ ' ' :: text₂.toList)))) := by
    simp
  have hlet : Token.scan "let" = [⟨.letWord, "let", true, 0⟩] := by decide +kernel
  have hequal : Token.scan "=" = [⟨.equal, "=", true, 0⟩] := by decide +kernel
  have hin : Token.scan "in" = [⟨.inWord, "in", true, 0⟩] := by decide +kernel
  have hspace : Token.isSeparator ' ' := rfl
  obtain ⟨p, hp⟩ := Token.scanFrom_append hspace 0 true "let".toList _
  obtain ⟨q, hq⟩ := Token.scanFrom_append hspace p true x.toList _
  obtain ⟨r, hr⟩ := Token.scanFrom_append hspace q true "=".toList _
  obtain ⟨u, hu⟩ := Token.scanFrom_append hspace r true text₁.toList _
  obtain ⟨w, hw⟩ := Token.scanFrom_append hspace u true "in".toList text₂.toList
  rw [Token.scan, htext, hp, Token.scanFrom_of_scan hlet, hq, scanFrom_name hx, hr,
    Token.scanFrom_of_scan hequal, hu, hw, Token.scanFrom_of_scan hin]
  refine .evaluate (.ofFactor (.ofTerm ?_))
  have hends : NoOperator
      (Token.shift u ⟨.inWord, "in", true, 0⟩ :: Token.scanFrom w true text₂.toList) :=
    noOperator_cons (rfl : _ = TokenKind.inWord)
  exact .letIn rfl rfl rfl (hvalue r _ hends) rfl (hbody.phrase w) noOperator_nil

end Grammar

/-! ## Two ways to give a name a value -/

/-- A name that is set means the same as one that is bound outside of everything. -/
theorem Scope.resolve_put (globals : Globals) (x name : String) (n : Number) :
    Scope.resolve (Dictionary.put x n globals) [] name = Scope.resolve globals [(x, n)] name := by
  rw [resolve_cons]
  split_ifs with hname
  · rw [hname]
    exact Dictionary.find?_put_self x n globals
  · exact Dictionary.find?_put_of_ne (Ne.symm hname) n globals

variable {σ : Type} [RandomSource σ]

theorem Expr.yields_put_iff {globals : Globals} {x : String} {n value : Number} {e : Expr}
    {s s' : Sampler σ} :
    Yields (Dictionary.put x n globals) [] e s value s' ↔
      Yields globals [(x, n)] e s value s' := by
  rw [← eval_eq_ok_iff, ← eval_eq_ok_iff,
    eval_congr fun name _ => Scope.resolve_put globals x name n]

namespace Calculator

/-- An expression that is a line of input. -/
theorem calculate_expression_iff {text : String} {e : Expr} (he : Grammar.StandsFor text e)
    {c c' : Calculator σ} {w : Value} :
    calculate text c = .ok w c' ↔ Runs c (.evaluate e) (.ok w c') := by
  rw [calculate_of_sentence (.evaluate (he.phrase 0)), runStatement_eq_iff]

/-- Binding a name in front of an expression has the value, the draws and the final source that
setting the name first and then evaluating the expression has, and it leaves the variables as they
are. -/
theorem let_eq_set {x text₁ text₂ : String} (hx : Grammar.IsName x)
    (h₁ : Grammar.IsExpression text₁) (h₂ : Grammar.IsExpression text₂) (c : Calculator σ) :
    (∀ (w : Value) (source : σ) (draws : List Draw),
      (∃ v c₁ c₂, calculate ("set " ++ x ++ " " ++ text₁) c = .ok v c₁ ∧
        calculate text₂ c₁ = .ok w c₂ ∧ c₂.sampler.source = source ∧ c₂.draws = draws) ↔
      ∃ c', calculate ("let " ++ x ++ " = " ++ text₁ ++ " in " ++ text₂) c = .ok w c' ∧
        c'.sampler.source = source ∧ c'.draws = draws) ∧
    (Attempt.final
      (calculate ("let " ++ x ++ " = " ++ text₁ ++ " in " ++ text₂) c)).globals = c.globals := by
  obtain ⟨value, hvalue⟩ := h₁.standsFor
  obtain ⟨body, hbody⟩ := h₂.standsFor
  simp only [calculate_of_sentence (Grammar.sentence_set hx hvalue),
    calculate_of_sentence (Grammar.sentence_let hx hvalue hbody), calculate_expression_iff hbody,
    runStatement_eq_iff]
  refine ⟨fun w source draws => ⟨?_, ?_⟩, ?_⟩
  · rintro ⟨v, c₁, c₂, hset, hthen, rfl, rfl⟩
    cases hset with
    | @assign _ _ n s hn =>
      cases hthen with
      | evaluate hm =>
        -- The note of the assignment stands between the two runs, and it is no draw.
        obtain ⟨mid, hm', hsource, hdraws⟩ := hm.resume (t := s) rfl (Sampler.draws_noted s _)
        have hlet := Expr.Yields.letIn hn (Expr.yields_put_iff.mp hm')
        refine ⟨_, .evaluate hlet, hsource.symm, ?_⟩
        simp only [draws, Sampler.draws_noted, hdraws]
  · rintro ⟨c', hruns, rfl, rfl⟩
    cases hruns with
    | evaluate hlet =>
      cases hlet with
      | @letIn _ _ _ _ n _ _ s _ hn hm =>
        have hnoted := (Sampler.draws_noted s (.assigned x n)).symm
        obtain ⟨mid, hm', hsource, hdraws⟩ :=
          (Expr.yields_put_iff.mpr hm).resume (t := s.noted (.assigned x n)) rfl hnoted
        refine ⟨_, _, _, .assign hn, .evaluate hm', hsource.symm, ?_⟩
        simp only [draws, Sampler.draws_noted, hdraws]
  · obtain ⟨outcome, hruns⟩ := exists_runs c (.evaluate (.letIn x value body))
    rw [runStatement_of_runs hruns]
    cases hruns with
    | evaluate | halt => rfl

/-- Two dice are thrown for the name either way. -/
theorem let_eq_set_dice :
    let script : Script := ⟨1, 1, .ofList 0 [], .ofList 0 [], .ofList 0 []⟩
    let c : Calculator Script := new script
    Grammar.IsName "x" ∧ Grammar.IsExpression "2d6" ∧ Grammar.IsExpression "let y = x in x * y" ∧
    (∀ (w : Value) (source : Script) (draws : List Draw),
      (∃ v c₁ c₂, calculate "set x 2d6" c = .ok v c₁ ∧
        calculate "let y = x in x * y" c₁ = .ok w c₂ ∧ c₂.sampler.source = source ∧
        c₂.draws = draws) ↔
      ∃ c', calculate "let x = 2d6 in let y = x in x * y" c = .ok w c' ∧
        c'.sampler.source = source ∧ c'.draws = draws) ∧
    (Attempt.final (calculate "let x = 2d6 in let y = x in x * y" c)).globals = c.globals := by
  intro script c
  have hx : Grammar.IsName "x" := by simp [Grammar.IsName, Token.isLetter]
  have h₁ : Grammar.IsExpression "2d6" := .of_read (e := .dice "2d6") (by decide +kernel)
  have h₂ : Grammar.IsExpression "let y = x in x * y" :=
    .of_read (e := .letIn "y" (.variable "x") (.binary .mul (.variable "x") (.variable "y")))
      (by decide +kernel)
  exact ⟨hx, h₁, h₂, let_eq_set hx h₁ h₂ c⟩

end Calculator

end Tabletop
