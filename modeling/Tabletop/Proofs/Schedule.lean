/-
# What luck cannot change

The kinds of the draws that an expression makes and their order can be read off its tree, and so can
whether its value is an integer, once this is known of the variables. Values may flow anywhere, but
no draw is made or left out because of one. So two runs of a line that both come to a value, on any
two sources, make draws of the same kinds in the same order and have values of the same kind.
-/

import Tabletop.Proofs.DiceNotation
import Tabletop.Proofs.FreeVariables

namespace Tabletop

open Grammar

variable {σ α β : Type}

/-! ## Kinds of draws -/

/-- A draw without its parameters. -/
inductive DrawKind
  | uniformInt | uniformFloat | gaussian | pareto
  deriving DecidableEq, Repr

def Draw.kind : Draw → DrawKind
  | .uniformInt _ _ => .uniformInt
  | .uniformFloat _ _ => .uniformFloat
  | .gaussian _ _ => .gaussian
  | .pareto _ => .pareto

/-- Between `s` and `s'` draws of these kinds were made, in this order. -/
def Sampler.Made (kinds : List DrawKind) (s s' : Sampler σ) : Prop :=
  ∃ made : List Draw, s'.draws = s.draws ++ made ∧ made.map Draw.kind = kinds

namespace Sampler.Made

variable {kinds later : List DrawKind} {s mid s' : Sampler σ}

theorem of_draws_eq (h : s'.draws = s.draws) : Made [] s s' :=
  ⟨[], by rw [h, List.append_nil], rfl⟩

theorem trans (h : Made kinds s mid) (h' : Made later mid s') : Made (kinds ++ later) s s' := by
  obtain ⟨made, hmid, rfl⟩ := h
  obtain ⟨more, hs', rfl⟩ := h'
  exact ⟨made ++ more, by rw [hs', hmid, List.append_assoc], List.map_append⟩

/-- Notes are no draws. -/
theorem noted (h : Made kinds s s') (note : Note) : Made kinds s (s'.noted note) := by
  obtain ⟨made, hs', hmap⟩ := h
  exact ⟨made, by rw [draws_noted, hs'], hmap⟩

end Sampler.Made

/-! ## Computations whose draws are known -/

/-- Whenever the computation has a value, it has made draws of these kinds. -/
def Scheduled (x : Evaluation σ α) (kinds : List DrawKind) : Prop :=
  ∀ s a s', x s = .ok a s' → Sampler.Made kinds s s'

namespace Scheduled

variable {kinds later : List DrawKind}

theorem pure (a : α) : Scheduled (Pure.pure a : Evaluation σ α) [] := by
  intro s b s' h
  obtain ⟨-, rfl⟩ := Attempt.pure_eq_ok_iff.mp h
  exact .of_draws_eq rfl

theorem bind {x : Evaluation σ α} {f : α → Evaluation σ β} (hx : Scheduled x kinds)
    (hf : ∀ a, Scheduled (f a) later) : Scheduled (x >>= f) (kinds ++ later) := by
  intro s b s' h
  obtain ⟨a, mid, hrun, h⟩ := Attempt.bind_eq_ok_iff.mp h
  exact (hx _ _ _ hrun).trans (hf a _ _ _ h)

theorem ofExcept {ε : Type} (f : ε → EvalError) (x : Except ε α) :
    Scheduled (Attempt.ofExcept f x : Evaluation σ α) [] := by
  intro s a s' h
  obtain ⟨-, rfl⟩ := Attempt.ofExcept_eq_ok_iff.mp h
  exact .of_draws_eq rfl

/-- What comes after the draws may depend on them, but makes no draws itself. -/
theorem andThen {x : Evaluation σ α} {f : α → Evaluation σ β} (hx : Scheduled x kinds)
    (hf : ∀ a, Scheduled (f a) []) : Scheduled (x >>= f) kinds := by
  have h : Scheduled (x >>= f) (kinds ++ []) := hx.bind hf
  rwa [List.append_nil] at h

theorem primitive (d : Draw) (act : Attempt DrawError σ α) :
    Scheduled (Sampler.primitive d act) [d.kind] :=
  fun _ _ _ h => ⟨[d], Sampler.draws_primitive h, rfl⟩

variable [RandomSource σ]

theorem uniformInt (lo hi : Int64) :
    Scheduled (Sampler.uniformInt lo hi : Evaluation σ Int64) [.uniformInt] :=
  primitive _ _

theorem uniformFloat (lo hi : Float) :
    Scheduled (Sampler.uniformFloat lo hi : Evaluation σ Float) [.uniformFloat] :=
  primitive _ _

theorem bell (lo hi : Float) :
    Scheduled (Sampler.bell lo hi : Evaluation σ Float) [.gaussian] :=
  (primitive _ _).andThen fun _ => pure _

theorem bellInt (lo hi : Int64) :
    Scheduled (Sampler.bellInt lo hi : Evaluation σ Int64) [.gaussian] :=
  (bell _ _).andThen fun _ => pure _

/-- Fuzzing draws the direction and the distance. -/
theorem fuzz (x distance : Float) :
    Scheduled (Sampler.fuzz x distance : Evaluation σ Float) [.uniformFloat, .uniformFloat] := by
  have hsign : Scheduled (Sampler.sign : Evaluation σ Float) [.uniformFloat] :=
    (uniformFloat 0.0 1.0).andThen fun _ => pure _
  exact hsign.bind fun _ => (uniformFloat _ _).andThen fun _ => pure _

theorem throwEach (sides : UInt32) (modifier : Int64) (count : Nat) :
    Scheduled (Dice.fair.throwEach sides modifier count : Evaluation σ (List Int64))
      (List.replicate count .uniformInt) := by
  induction count with
  | zero => exact pure []
  | succ count ih =>
      refine (uniformInt _ _).bind fun face => ?_
      exact (ofExcept _ _).bind fun value => ih.andThen fun values => pure _

/-- Fair dice make one draw each, unless there is nothing to throw. -/
theorem throwAll (spec : DiceSpec) :
    Scheduled (Dice.fair.throwAll spec : Evaluation σ (List Int64))
      (List.replicate (if spec.isEmpty then 0 else spec.count.toNat) .uniformInt) := by
  unfold Dice.throwAll
  split_ifs
  · exact pure _
  · exact nofun
  · exact throwEach _ _ _

theorem sum (spec : DiceSpec) :
    Scheduled (Dice.fair.sum spec : Evaluation σ Int64)
      (List.replicate (if spec.isEmpty then 0 else spec.count.toNat) .uniformInt) := by
  have hroll : Scheduled (Dice.fair.roll spec false : Evaluation σ (List Int64)) _ :=
    (ofExcept _ _).bind fun _ => (throwAll spec).andThen fun _ => pure _
  exact hroll.andThen fun _ => ofExcept _ _

end Scheduled

/-! ## The draws of an expression -/

/-- `e.Draws kinds`: the expression makes draws of these kinds, whatever the values are. -/
inductive Expr.Draws : Expr → List DrawKind → Prop
  | literal {value : Number} : Draws (.literal value) []
  | name {name : String} : Draws (.variable name) []
  | dice {text : String} {count sides : Nat} :
      IsDice text count sides →
      Draws (.dice text)
        (List.replicate (if count = 0 ∨ sides = 0 then 0 else count) .uniformInt)
  | uniformInt {lo hi : Int64} : Draws (.uniformInt lo hi) [.uniformInt]
  | uniformFloat {lo hi : Float} : Draws (.uniformFloat lo hi) [.uniformFloat]
  | bellInt {lo hi : Int64} : Draws (.bellInt lo hi) [.gaussian]
  | bellFloat {lo hi : Float} : Draws (.bellFloat lo hi) [.gaussian]
  | fuzz {value : Expr} {distance : Float} {kinds : List DrawKind} :
      Draws value kinds →
      Draws (.fuzz value distance) (kinds ++ [.uniformFloat, .uniformFloat])
  | binary {op : BinaryOp} {lhs rhs : Expr} {kinds later : List DrawKind} :
      Draws lhs kinds → Draws rhs later → Draws (.binary op lhs rhs) (kinds ++ later)
  | letIn {name : String} {value body : Expr} {kinds later : List DrawKind} :
      Draws value kinds → Draws body later → Draws (.letIn name value body) (kinds ++ later)

/-- Every expression that is read from an input has a schedule of draws. -/
theorem Grammar.Phrase.exists_draws {bodyEnds : List Token → Prop} {level : Level}
    {ts rest : List Token} {e : Expr} (h : Phrase bodyEnds level ts e rest)
    (hdice : ∀ t ∈ ts, t.kind = .dice → ∃ count sides, IsDice t.text count sides) :
    ∃ kinds, e.Draws kinds := by
  induction h with
  | literal => exact ⟨_, .literal⟩
  | name => exact ⟨_, .name⟩
  | dice hkind =>
      obtain ⟨count, sides, hdice⟩ := hdice _ List.mem_cons_self hkind
      exact ⟨_, .dice hdice⟩
  | uniformInt => exact ⟨_, .uniformInt⟩
  | uniformFloat => exact ⟨_, .uniformFloat⟩
  | bellInt => exact ⟨_, .bellInt⟩
  | bellFloat => exact ⟨_, .bellFloat⟩
  | fuzz _ _ _ _ _ ih =>
      obtain ⟨kinds, hkinds⟩ := ih fun t ht => hdice t (List.mem_cons_of_mem _ ht)
      exact ⟨_, .fuzz hkinds⟩
  | paren _ _ _ ih => exact ih fun t ht => hdice t (List.mem_cons_of_mem _ ht)
  | letIn _ _ _ hvalue _ _ _ ihvalue ihbody =>
      have hinner := fun t ht => hdice t
        (List.mem_cons_of_mem _ (List.mem_cons_of_mem _ (List.mem_cons_of_mem _ ht)))
      obtain ⟨kinds, hkinds⟩ := ihvalue hinner
      obtain ⟨later, hlater⟩ := ihbody fun t ht =>
        hinner t (hvalue.suffix.subset (List.mem_cons_of_mem _ ht))
      exact ⟨_, .letIn hkinds hlater⟩
  | ofTerm _ ih | ofFactor _ ih => exact ih hdice
  | product hleft _ _ ihleft ihright | sum hleft _ _ ihleft ihright =>
      obtain ⟨kinds, hkinds⟩ := ihleft hdice
      obtain ⟨later, hlater⟩ := ihright fun t ht =>
        hdice t (hleft.suffix.subset (List.mem_cons_of_mem _ ht))
      exact ⟨_, .binary hkinds hlater⟩

theorem Grammar.Sentence.exists_draws {input : String} {s : Statement}
    (h : Sentence NoOperator (Token.scan input) s) : ∃ kinds, s.expr.Draws kinds := by
  have hdice : ∀ t ∈ Token.scan input, t.kind = .dice →
      ∃ count sides, IsDice t.text count sides := fun t ht hkind => Token.exists_isDice ht hkind
  generalize Token.scan input = ts at h hdice
  cases h with
  | evaluate he => exact he.exists_draws hdice
  | assign _ _ he =>
      exact he.exists_draws fun t ht =>
        hdice t (List.mem_cons_of_mem _ (List.mem_cons_of_mem _ ht))
  | quantity _ he => exact he.exists_draws fun t ht => hdice t (List.mem_cons_of_mem _ ht)

variable [RandomSource σ]

/-- A value is only found by making the draws of the schedule. -/
theorem Expr.Yields.made {globals : Globals} {scope : Scope} {e : Expr} {value : Number}
    {s s' : Sampler σ} {kinds : List DrawKind} (h : Yields globals scope e s value s')
    (hkinds : e.Draws kinds) : Sampler.Made kinds s s' := by
  -- The schedule has one rule for each constructor, so each case leaves few rules of evaluation.
  induction hkinds generalizing scope value s s' with
  | literal =>
      cases h with
      | literal => exact .of_draws_eq rfl
  | name =>
      cases h with
      | bound | global => exact .of_draws_eq rfl
      | undefined => exact .of_draws_eq (Sampler.draws_noted _ _)
  | dice hdice =>
      cases h with
      | @dice _ _ spec _ _ _ hread hsum =>
        obtain ⟨rfl, rfl, -⟩ := (DiceSpec.read_dice_eq_ok_iff hdice).mp hread
        simpa only [DiceSpec.isEmpty_iff] using Scheduled.sum spec _ _ _ hsum
  | uniformInt =>
      cases h with
      | uniformInt hdraw => exact Scheduled.uniformInt _ _ _ _ _ hdraw
  | uniformFloat =>
      cases h with
      | uniformFloat hdraw => exact Scheduled.uniformFloat _ _ _ _ _ hdraw
  | bellInt =>
      cases h with
      | bellInt hdraw => exact Scheduled.bellInt _ _ _ _ _ hdraw
  | bellFloat =>
      cases h with
      | bellFloat hdraw => exact Scheduled.bell _ _ _ _ _ hdraw
  | fuzz _ ih =>
      cases h with
      | fuzz hvalue hfuzz => exact (ih hvalue).trans (Scheduled.fuzz _ _ _ _ _ hfuzz)
  | binary _ _ ihlhs ihrhs =>
      cases h with
      | binary hlhs hrhs _ => exact (ihlhs hlhs).trans (ihrhs hrhs)
  | letIn _ _ ihvalue ihbody =>
      cases h with
      | letIn hvalue hbody => exact (ihvalue hvalue).trans (ihbody hbody)

/-! ## Integers and doubles -/

/-- Whether the value of an expression is an integer, where `ints` says it of the names. -/
def Expr.isInt (ints : String → Bool) : Expr → Bool
  | .literal value => value.isInt
  | .dice _ | .uniformInt _ _ | .bellInt _ _ => true
  | .uniformFloat _ _ | .bellFloat _ _ | .fuzz _ _ => false
  | .binary _ lhs rhs => lhs.isInt ints && rhs.isInt ints
  | .letIn name value body => body.isInt (Function.update ints name (value.isInt ints))
  | .variable name => ints name

/-- Whether a name stands for an integer. A name without a value stands for the integer zero. -/
def Scope.isInt (globals : Globals) (scope : Scope) (name : String) : Bool :=
  ((scope.resolve globals name).getD .zero).isInt

theorem Scope.isInt_cons (globals : Globals) (scope : Scope) (name : String) (x : Number) :
    isInt globals ((name, x) :: scope) = Function.update (isInt globals scope) name x.isInt := by
  funext other
  rw [isInt, resolve_cons, Function.update_apply]
  split_ifs <;> rfl

theorem isInt_of_map_int {result : Except ArithmeticError Int64} {value : Number}
    (h : result.map Number.int = .ok value) : value.isInt := by
  cases result with
  | error e => cases h
  | ok n =>
      cases h
      rfl

/-- Two integers give an integer, all other pairs a double. -/
theorem BinaryOp.isInt_apply {op : BinaryOp} {x y value : Number} (h : op.apply x y = .ok value) :
    value.isInt = (x.isInt && y.isInt) := by
  cases op with
  | add | sub | mul =>
      cases x <;> cases y <;> first | exact isInt_of_map_int h | (cases h; rfl)
  | div =>
      change Number.div x y = .ok value at h
      unfold Number.div at h
      split_ifs at h
      cases x <;> cases y <;> first | exact isInt_of_map_int h | (cases h; rfl)

theorem Expr.Yields.isInt_eq {globals : Globals} {scope : Scope} {e : Expr} {value : Number}
    {s s' : Sampler σ} (h : Yields globals scope e s value s') :
    value.isInt = e.isInt (scope.isInt globals) := by
  induction h with
  | literal | dice | uniformInt | uniformFloat | bellInt | bellFloat | fuzz => rfl
  | binary _ _ happly ihlhs ihrhs => rw [BinaryOp.isInt_apply happly, ihlhs, ihrhs, Expr.isInt]
  | letIn _ _ ihvalue ihbody => rw [ihbody, Scope.isInt_cons, ihvalue, Expr.isInt]
  | bound hbound => simp [Expr.isInt, Scope.isInt, Scope.resolve, hbound]
  | global hbound hglobal => simp [Expr.isInt, Scope.isInt, Scope.resolve, hbound, hglobal]
  | undefined hbound hglobal => simp [Expr.isInt, Scope.isInt, Scope.resolve, hbound, hglobal]

/-! ## Lines of input -/

/-- What the value of a statement is an amount of. -/
def Statement.unit? : Statement → Option String
  | .evaluate _ | .assign _ _ => none
  | .quantity _ unit => some unit

/-- A line with a value has the unit and the kind of number that its statement says, and it has made
the draws of its schedule. -/
theorem Runs.settled {c c' : Calculator σ} {s : Statement} {value : Value} {kinds : List DrawKind}
    (h : Runs c s (.ok value c')) (hkinds : s.expr.Draws kinds) :
    value.unit? = s.unit? ∧ value.number.isInt = s.expr.isInt (Scope.isInt c.globals []) ∧
      Sampler.Made kinds c.sampler c'.sampler := by
  cases h with
  | evaluate hvalue | assign hvalue | quantity hvalue =>
      exact ⟨rfl, hvalue.isInt_eq, (hvalue.made hkinds).noted _⟩

namespace Calculator

variable {τ : Type} [RandomSource τ]

/-- Two runs of a line that both have a value, on any two sources: the values have the same unit, if
any, and are both integers or both doubles. Both runs make draws of the kinds that the expression
asks for, in its order. -/
theorem calculate_settled {input : String} {c c' : Calculator σ} {d d' : Calculator τ}
    {v w : Value} (hglobals : c.globals = d.globals) (hc : calculate input c = .ok v c')
    (hd : calculate input d = .ok w d') :
    v.unit? = w.unit? ∧ v.number.isInt = w.number.isInt ∧
      ∃ s kinds, Sentence NoOperator (Token.scan input) s ∧ s.expr.Draws kinds ∧
        Sampler.Made kinds c.sampler c'.sampler ∧ Sampler.Made kinds d.sampler d'.sampler := by
  obtain ⟨s, hs, hruns⟩ := runs_of_ok hc
  obtain ⟨kinds, hkinds⟩ := hs.exists_draws
  rw [calculate_of_sentence hs, runStatement_eq_iff] at hd
  obtain ⟨hunit, hint, hmade⟩ := hruns.settled hkinds
  obtain ⟨hunit', hint', hmade'⟩ := hd.settled hkinds
  rw [hunit, hunit', hint, hint', hglobals]
  exact ⟨rfl, rfl, s, kinds, hs, hkinds, hmade, hmade'⟩

/-- A script that begins with ones and one that begins with fours, where the dice show different
numbers. -/
theorem calculate_settled_scripts :
    let input := "u(fuzz(let x = 2d6 in x + [1 3], 2), gold)"
    let low : Script := ⟨1, 1, .ofList 0 [], .ofList 0 [], .ofList 0 []⟩
    let high : Script := ⟨4, 2, .ofList 0 [], .ofList 0 [], .ofList 0 []⟩
    ∃ v w c' d', calculate input (new low) = .ok v c' ∧ calculate input (new high) = .ok w d' ∧
      (new low).globals = (new high).globals ∧
      v.unit? = w.unit? ∧ v.number.isInt = w.number.isInt ∧
      ∃ s kinds, Sentence NoOperator (Token.scan input) s ∧ s.expr.Draws kinds ∧
        Sampler.Made kinds (new low).sampler c'.sampler ∧
        Sampler.Made kinds (new high).sampler d'.sampler := by
  intro input low high
  have hlow : Attempt.value? (calculate input (new low)) =
      some (.quantity (.float 6.0) "gold") := by decide +kernel
  have hhigh : Attempt.value? (calculate input (new high)) =
      some (.quantity (.float 12.0) "gold") := by decide +kernel
  obtain ⟨c', hc⟩ := Attempt.exists_of_value? hlow
  obtain ⟨d', hd⟩ := Attempt.exists_of_value? hhigh
  exact ⟨_, _, c', d', hc, hd, rfl, calculate_settled rfl hc hd⟩

end Calculator

end Tabletop
