/-
# One pass does what two passes do

The parser that evaluates while it reads and the machine that reads a tree are the same program:
the outcome of the machine in a context is the work in the context and then the parser, with the
continuation that the context stands for. This is proved for all tokens at once, by induction on
how many of them are left, and it covers the lines that break off, too.
-/

import Tabletop.Proofs.OnePass.Place
import Tabletop.Proofs.Reading.Complete

namespace Tabletop.Calculator

open Tabletop.Calculator.Parser Reading Grammar

variable {σ α β : Type} [RandomSource σ]

/-! ## The machine, token by token -/

section Machine

variable (size : Nat)

/-- What a state does before it breaks off is what `run` does. -/
def BreaksOff (state : State) (run : (β → Calculation σ Value) → Calculation σ Value) : Prop :=
  ∀ error, breakOff state.work error = run fun _ => Attempt.fail (.badSyntax error)

theorem breaksOff_context {state : State} {ctx : Context} (h : state.work = ctx.work) :
    BreaksOff state (inContext size ctx : (Place σ → Calculation σ Value) → _) := by
  intro error
  have hwork := inContext_work size ctx [] (Attempt.fail (.badSyntax error) : Calculation σ Value)
  simp only [List.append_nil, performIn_nil, pure_bind] at hwork
  rw [breakOff_eq, h, hwork]

/-- Read the rest of a line from a state of the machine, then evaluate. -/
def twoPasses (state : State) (ts : List Token) : Calculation σ Value :=
  runRead (readFrom size state ts)

variable {size} {state next : State} {t : Token} {ts : List Token}
  {run : (β → Calculation σ Value) → Calculation σ Value}

theorem twoPasses_step (h : state.step t = .ok next) :
    (twoPasses size state (t :: ts) : Calculation σ Value) = twoPasses size next ts := by
  rw [twoPasses, readFrom, h]
  rfl

/-- The machine needs more where the input ends. -/
theorem twoPasses_ended (hwork : BreaksOff state run) {expected : List Expected}
    (h : state.finish = .error expected) :
    twoPasses size state [] = run fun _ => ended size expected := by
  rw [twoPasses, readFrom, h]
  exact hwork _

/-- The machine refuses the token that it is given or goes on. -/
theorem twoPasses_accept (hwork : BreaksOff state run) {reading : Except Complaint α}
    {f : α → State} {k : α → β → Calculation σ Value}
    (hstep : state.step t = reading >>= fun a => .ok (f a))
    (hnext : ∀ a, reading = .ok a → twoPasses size (f a) ts = run (k a)) :
    twoPasses size state (t :: ts) = run fun b => accept t reading >>= fun a => k a b := by
  cases reading with
  | ok a =>
      rw [twoPasses_step hstep, hnext a rfl]
      rfl
  | error complaint =>
      rw [twoPasses, readFrom, hstep]
      exact hwork _

/-- The machine refuses the token. -/
theorem twoPasses_refuse (hwork : BreaksOff state run) {expected : List Expected}
    (hstep : state.step t = refuse t expected) (k : α → β → Calculation σ Value) :
    twoPasses size state (t :: ts) =
      run fun b => accept t (refuse t expected) >>= fun a => k a b := by
  rw [twoPasses, readFrom, hstep]
  exact hwork _

/-- One kind of token is needed. -/
theorem twoPasses_consume (hwork : BreaksOff state run) {kind : TokenKind} {f : Token → State}
    {k : β → Return σ Token} (hstep : ∀ t ∈ ts.head?, state.step t = require t kind (f t))
    (hfinish : state.finish = .error [.token kind])
    (hnext : ∀ t rest, ts = t :: rest → t.kind = kind →
      twoPasses size (f t) rest = run fun b => k b t rest) :
    twoPasses size state ts = run fun b => andThen (consume size kind ts) (k b) := by
  cases ts with
  | nil => exact twoPasses_ended hwork hfinish
  | cons t rest =>
      simp only [andThen_consume]
      refine twoPasses_accept (f := fun _ => f t) (k := fun _ b => k b t rest) hwork ?_ ?_
      · rw [hstep t rfl, require]
        split <;> rfl
      · intro _ h
        by_cases hkind : t.kind = kind
        · exact hnext t rest rfl hkind
        · rw [if_neg hkind] at h
          cases h

/-- A number literal is needed, with or without a sign. -/
theorem twoPasses_signed (afterSign : Bool → State) (f : Number → State)
    (hwork : BreaksOff state run) (hwork' : ∀ separated, BreaksOff (afterSign separated) run)
    {kinds : List TokenKind} {read : Bool → Bool → Token → Except Complaint Number}
    {k : β → Return σ Number}
    (hsign : ∀ t ∈ ts.head?, t.kind = .minus → state.step t = .ok (afterSign t.spaced))
    (hplain : ∀ t ∈ ts.head?, t.kind ≠ .minus →
      state.step t = read false t.spaced t >>= fun x => .ok (f x))
    (hdigits : ∀ separated t,
      (afterSign separated).step t = read true separated t >>= fun x => .ok (f x))
    (hfinish : ts = [] → state.finish = .error (expectedTokens kinds))
    (hfinish' : ∀ separated, (afterSign separated).finish = .error (expectedTokens kinds))
    (hnext : ∀ x rest, rest.length < ts.length →
      twoPasses size (f x) rest = run fun b => k b x rest) :
    twoPasses size state ts = run fun b => andThen (signed size kinds read ts) (k b) := by
  cases ts with
  | nil => exact twoPasses_ended hwork (hfinish rfl)
  | cons t rest =>
      by_cases hminus : t.kind = .minus
      · rw [twoPasses_step (hsign t rfl hminus)]
        cases rest with
        | nil =>
            rw [twoPasses_ended (hwork' _) (hfinish' _)]
            simp only [andThen, signed, if_pos hminus]
            rfl
        | cons digits rest =>
            simp only [andThen, signed, if_pos hminus, bind_assoc, pure_bind]
            exact twoPasses_accept (k := fun x b => k b x rest) (hwork' _) (hdigits _ digits)
              fun x _ => hnext x rest (Nat.lt_succ_of_lt (Nat.lt_succ_self _))
      · simp only [andThen, signed, if_neg hminus, bind_assoc, pure_bind]
        exact twoPasses_accept (k := fun x b => k b x rest) hwork (hplain t rfl hminus)
          fun x _ => hnext x rest (Nat.lt_succ_self _)

end Machine

/-! ## Terms -/

/-- On these tokens the machine does what the parser does, whatever is open before them. -/
structure Agrees (σ : Type) [RandomSource σ] (size : Nat) (ts : List Token) : Prop where
  term (ctx : Context) :
    twoPasses size (.term ctx) ts = inContext size ctx fun place : Place σ =>
      andThen (term size place.scope ts) place.ret
  operand (ctx : Context) (e : Expr) :
    twoPasses size (.operand ctx e) ts = inContext size ctx fun place : Place σ => do
      let x ← evalIn place.scope e
      place.ret x ts

section Terms

variable {size : Nat} {ctx : Context} {ts : List Token}
  (hshorter : ∀ rest : List Token, rest.length < ts.length → Agrees σ size rest)

include hshorter

/-- The closing bracket of a range is needed. -/
theorem twoPasses_closing (kind : RangeKind) (lo hi : Number) {rest : List Token}
    (hrest : rest.length < ts.length) :
    twoPasses size (.range ctx kind (.closing lo hi)) rest =
      inContext size ctx (fun place : Place σ =>
        andThen (consume size kind.close rest) fun _ rest => do
          let x ← evaluate (draw lo hi kind)
          place.ret x rest) := by
  refine twoPasses_consume (breaksOff_context size rfl) (fun _ _ => rfl) rfl ?_
  rintro t rest' rfl -
  have hoperand := (hshorter rest' (Nat.lt_of_succ_lt hrest)).operand ctx (kind.toExpr lo hi)
  simpa only [evalIn_range] using hoperand

/-- The upper bound of a range is needed. -/
theorem twoPasses_high (kind : RangeKind) (lo : Number) {rest : List Token}
    (hrest : rest.length < ts.length) :
    twoPasses size (.range ctx kind (.high lo)) rest =
      inContext size ctx (fun place : Place σ =>
        andThen (upperBound size kind.bounds rest) fun hi rest =>
        andThen (consume size kind.close rest) fun _ rest => do
          let x ← evaluate (draw lo hi kind)
          place.ret x rest) := by
  have hread : ∀ negative separated t,
      stepRange.high ctx kind t lo negative separated = (do
        let hi ← (do
          let text ← literalText kind.bounds negative t
          if separated then literalValue t.kind text else .error ⟨.boundsTouch, text⟩)
        .ok (.range ctx kind (.closing lo hi))) := by
    intro negative separated t
    unfold stepRange.high
    cases literalText kind.bounds negative t with
    | error complaint => rfl
    | ok text => cases separated <;> rfl
  refine twoPasses_signed (fun separated => .range ctx kind (.highSigned lo separated))
    (fun hi => .range ctx kind (.closing lo hi))
    (breaksOff_context size rfl) (fun _ => breaksOff_context size rfl) ?_ ?_ ?_ ?_ ?_ ?_
  · intro t _ hminus
    rw [State.step, stepRange, if_pos hminus]
  · intro t _ hminus
    rw [State.step, stepRange, if_neg hminus]
    exact hread false t.spaced t
  · exact fun separated t => hread true separated t
  · exact fun _ => rfl
  · exact fun _ => rfl
  · exact fun hi rest' hrest' => twoPasses_closing hshorter kind lo hi (hrest'.trans hrest)

/-- The bounds of a range are needed. -/
theorem twoPasses_range (kind : RangeKind) :
    twoPasses size (.range ctx kind .low) ts = inContext size ctx fun place : Place σ =>
      andThen (range size kind ts) place.ret := by
  have hbounds : ∀ place : Place σ, andThen (range size kind ts) place.ret =
      andThen (Parser.number size kind.bounds ts) fun lo rest =>
      andThen (upperBound size kind.bounds rest) fun hi rest =>
      andThen (consume size kind.close rest) fun _ rest => (do
        let x ← evaluate (draw lo hi kind)
        place.ret x rest) := by
    intro place
    simp only [andThen, range, bind_assoc, pure_bind]
  simp only [hbounds]
  refine twoPasses_signed (fun _ => .range ctx kind .lowSigned)
    (fun lo => .range ctx kind (.high lo))
    (breaksOff_context size rfl) (fun _ => breaksOff_context size rfl) ?_ ?_ ?_ ?_ ?_ ?_
  · intro t _ hminus
    rw [State.step, stepRange, if_pos hminus]
  · intro t _ hminus
    rw [State.step, stepRange, if_neg hminus]
    rfl
  · exact fun _ _ => rfl
  · exact fun _ => rfl
  · exact fun _ => rfl
  · exact fun lo rest hrest => twoPasses_high hshorter kind lo hrest

/-- A number is needed where a term can stand. -/
theorem twoPasses_number {t : Token} {rest : List Token} (hts : ts = t :: rest)
    (hkind : t.kind = .minus ∨ t.kind = .float ∨ t.kind = .integer) :
    twoPasses size (.term ctx) ts = inContext size ctx fun place : Place σ =>
      andThen (Parser.number size numberKinds ts) place.ret := by
  refine twoPasses_signed (fun _ => .negative ctx) (fun x => .operand ctx (.literal x))
    (breaksOff_context size rfl) (fun _ => breaksOff_context size rfl) ?_ ?_ ?_ ?_ ?_ ?_
  · rintro first hfirst hminus
    simp only [State.step, stepTerm, hminus]
  · rintro first hfirst hminus
    subst hts
    obtain rfl : t = first := Option.some.inj hfirst
    rcases hkind with hkind | hkind | hkind
    · exact absurd hkind hminus
    · simp only [State.step, stepTerm, hkind]
      rfl
    · simp only [State.step, stepTerm, hkind]
      rfl
  · exact fun _ _ => rfl
  · rintro rfl
    cases hts
  · exact fun _ => rfl
  · intro x rest hrest
    have hoperand := (hshorter rest hrest).operand ctx (.literal x)
    simpa only [evalIn_literal, pure_bind] using hoperand

end Terms

/-! ## Nested expressions -/

section Nested

variable {size : Nat} {ctx : Context} {ts : List Token}

/-- Behind a frame that has just been opened, the parser reads an expression where the frame
says. -/
theorem twoPasses_push (ctx : Context) (hagrees : Agrees σ size ts) (frame : Pending → Frame)
    (houter : ∀ p, outer (frame p) = p) :
    twoPasses size (.term (ctx.push frame)) ts = inContext size ctx fun place : Place σ =>
      enter size (frame ctx.pending) place fun place =>
        andThen (expr size place.scope ts) place.ret := by
  simp only [hagrees.term, inContext, Context.push, inFrames, houter, onLevel_empty, andThen_expr]
  rfl

/-- The name, the value and the body of a `let` are needed. -/
theorem twoPasses_letName (hshorter : ∀ rest : List Token, rest.length ≤ ts.length →
      Agrees σ size rest) :
    twoPasses size (.letName ctx) ts = inContext size ctx fun place : Place σ =>
      andThen (consume size .variable ts) fun name ts =>
      andThen (consume size .equal ts) fun _ ts =>
      andThen (expr size place.scope ts) (valuePlace size name.text place).ret := by
  refine twoPasses_consume (breaksOff_context size rfl) (fun _ _ => rfl) rfl ?_
  rintro name ts' rfl -
  refine twoPasses_consume (breaksOff_context size rfl) (fun _ _ => rfl) rfl ?_
  rintro equal ts'' rfl -
  have hagrees : Agrees σ size ts'' :=
    hshorter ts'' (Nat.le_of_lt (Nat.lt_succ_of_lt (Nat.lt_succ_self _)))
  exact twoPasses_push ctx hagrees (.letValue name.text) fun _ => rfl

end Nested

/-- The parser reads a range from the token that begins it. -/
theorem andThen_term_range {size : Nat} {kind : RangeKind} {t : Token} {ts : List Token}
    (hopen : t.kind = kind.opening) {scope : Scope} (k : Return σ Number) :
    andThen (term size scope (t :: ts)) k = andThen (range size kind ts) k := by
  cases kind <;> simp only [andThen, term, hopen, RangeKind.opening] <;> rfl

/-- The machine does what the parser does on a term. -/
theorem twoPasses_term {size : Nat} {ts : List Token}
    (hshorter : ∀ rest : List Token, rest.length < ts.length → Agrees σ size rest)
    (ctx : Context) :
    twoPasses size (.term ctx) ts = inContext size ctx fun place : Place σ =>
      andThen (term size place.scope ts) place.ret := by
  cases ts with
  | nil =>
      simp only [andThen, term]
      exact twoPasses_ended (breaksOff_context size rfl) rfl
  | cons t rest =>
      have hrest := hshorter rest (Nat.lt_succ_self _)
      have hoperand : ∀ e, (State.term ctx).step t = .ok (.operand ctx e) →
          twoPasses size (.term ctx) (t :: rest) = inContext size ctx fun place : Place σ => (do
            let x ← evalIn place.scope e
            place.ret x rest) :=
        fun e hstep => (twoPasses_step hstep).trans (hrest.operand ctx e)
      have hrange : ∀ kind : RangeKind, t.kind = kind.opening →
          twoPasses size (.term ctx) (t :: rest) = inContext size ctx fun place : Place σ =>
            andThen (term size place.scope (t :: rest)) place.ret := by
        intro kind hopen
        have hnext := fun r hr => hshorter r (Nat.lt_succ_of_lt hr)
        simp only [andThen_term_range hopen]
        exact (twoPasses_step (step_opening hopen)).trans (twoPasses_range hnext kind)
      cases hkind : t.kind with
      | dice =>
          rw [hoperand (.dice t.text) (by simp only [State.step, stepTerm, hkind])]
          simp only [andThen, term, hkind, evalIn_dice, bind_assoc, pure_bind]
      | leftBracket => exact hrange .uniformInt hkind
      | leftBrace => exact hrange .uniformFloat hkind
      | bellInt => exact hrange .bellInt hkind
      | bellFloat => exact hrange .bellFloat hkind
      | fuzz =>
          have hstep : (State.term ctx).step t = .ok (.term (ctx.push .fuzz)) := by
            simp only [State.step, stepTerm, hkind]
          rw [twoPasses_step hstep, twoPasses_push ctx hrest .fuzz fun _ => rfl]
          simp only [enter, andThen, term, hkind, fuzzPlace, distancePlace, bind_assoc, pure_bind]
      | leftParen =>
          have hstep : (State.term ctx).step t = .ok (.term (ctx.push .paren)) := by
            simp only [State.step, stepTerm, hkind]
          rw [twoPasses_step hstep, twoPasses_push ctx hrest .paren fun _ => rfl]
          simp only [enter, andThen, term, hkind, parenPlace, bind_assoc, pure_bind]
      | letWord =>
          have hstep : (State.term ctx).step t = .ok (.letName ctx) := by
            simp only [State.step, stepTerm, hkind]
          have hnext := fun r hr => hshorter r (Nat.lt_succ_of_le hr)
          rw [twoPasses_step hstep, twoPasses_letName hnext]
          simp only [andThen, term, hkind, valuePlace, bodyPlace, bind_assoc, pure_bind]
      | «variable» =>
          rw [hoperand (.variable t.text) (by simp only [State.step, stepTerm, hkind])]
          simp only [andThen, term, hkind, evalIn_variable, bind_assoc, pure_bind]
      | minus | float | integer =>
          rw [twoPasses_number hshorter rfl (by simp [hkind])]
          simp only [andThen, term, hkind]
      | _ =>
          simp only [andThen, term, hkind]
          exact twoPasses_refuse (breaksOff_context size rfl)
            (by simp only [State.step, stepTerm, hkind]) _

/-! ## Complete expressions -/

section Complete

variable (size : Nat)

/-- Evaluate what was complete in a context and the term `e` in it, and go on behind the term. -/
def withValue (ctx : Context) (e : Expr) (k : Number × Place σ → Calculation σ Value) :
    Calculation σ Value :=
  inContext size ctx fun place => do
    let x ← evalIn place.scope e
    k (x, place)

theorem breaksOff_value {state : State} {ctx : Context} {e : Expr}
    (h : state.work = ctx.work ++ [.evaluate e]) :
    BreaksOff state (withValue size ctx e : (Number × Place σ → Calculation σ Value) → _) := by
  intro error
  rw [breakOff_eq, h, inContext_work size ctx]
  simp only [performIn_evaluate, performIn_nil, bind_assoc, pure_bind]
  rfl

variable {size} {ctx : Context} {goal : Goal} {frames : List Frame} {pending : Pending} {e : Expr}
  {ts : List Token}

/-- Inside a frame that is no `let` body, an expression is complete once its value is known. -/
theorem breaksOff_frame {frame : Frame}
    (hlets : ∀ frames e, closeLets (frame :: frames) e = (frame :: frames, e))
    (hwork : frame.work = (outer frame).work) :
    BreaksOff (.operand ⟨goal, frame :: frames, pending⟩ e)
      (withValue size ⟨goal, frames, outer frame⟩ (pending.closeSum e) :
        (Number × Place σ → Calculation σ Value) → _) := by
  apply breaksOff_value
  simp only [State.work, Context.complete, hlets, Context.work, framesWork_cons, hwork]

theorem step_operand (h : NoOperator ts) {t : Token} (ht : t ∈ ts.head?) :
    (State.operand ctx e).step t = stepClose ctx.goal t (ctx.complete e) :=
  stepOperand_close (h t ht).1 (h t ht).2

/-- The distance of a `fuzz(` term is needed. -/
theorem twoPasses_fuzzDistance
    (hshorter : ∀ rest : List Token, rest.length ≤ ts.length → Agrees σ size rest) :
    twoPasses size (.fuzzDistance ctx e false) ts =
      withValue size ctx e fun value : Number × Place σ =>
        andThen (Parser.number size numberKinds ts) (distancePlace size value.1 value.2).ret := by
  refine twoPasses_signed (fun _ => .fuzzDistance ctx e true) (fun x => .fuzzClose ctx e x)
    (breaksOff_value size rfl) (fun _ => breaksOff_value size rfl) ?_ ?_ ?_ ?_ ?_ ?_
  · rintro first - hminus
    rw [State.step, if_pos (by simpa using hminus)]
  · rintro first - hminus
    rw [State.step, if_neg (by simpa using hminus)]
    rfl
  · intro _ t
    rw [State.step, if_neg (by simp)]
    rfl
  · exact fun _ => rfl
  · exact fun _ => rfl
  · intro x rest hrest
    refine twoPasses_consume (k := fun value _ ts => (do
      let y ← evaluate (Sampler.fuzz value.1.toFloat x.toFloat)
      value.2.ret (.float y) ts)) (breaksOff_value size rfl) (fun _ _ => rfl) rfl ?_
    rintro closing rest' rfl -
    have hagrees := hshorter rest' (Nat.le_of_lt (Nat.lt_of_succ_lt hrest))
    rw [hagrees.operand ctx (.fuzz e x.toFloat), withValue]
    simp only [evalIn_fuzz, bind_assoc, pure_bind]

/-- The body of a `let` ends where its expression does: the whole term is an operand of the level
around it. -/
theorem twoPasses_letBody (h : NoOperator ts) (name : String) (value : Expr) (outer : Pending) :
    (twoPasses size (.operand ⟨goal, .letBody name value outer :: frames, pending⟩ e) ts :
        Calculation σ Value) =
      twoPasses size (.operand ⟨goal, frames, outer⟩ (.letIn name value (pending.closeSum e)))
        ts := by
  cases ts with
  | nil => rfl
  | cons t rest =>
      rw [twoPasses, twoPasses, readFrom, readFrom, step_operand h rfl, step_operand h rfl]
      rfl

/-- The goal decides what must follow an expression that nothing encloses. -/
theorem twoPasses_goal (h : NoOperator ts) :
    twoPasses size (.operand ⟨goal, [], pending⟩ e) ts = (do
      let x ← evalIn [] (pending.closeSum e)
      (goalPlace size goal : Place σ).ret x ts) := by
  have hend : ∀ {state : State}, state.work = [.evaluate (pending.closeSum e)] →
      BreaksOff state fun k : Number → Calculation σ Value =>
        evalIn [] (pending.closeSum e) >>= k := by
    intro state hwork error
    rw [breakOff_eq, hwork]
    simp only [performIn_evaluate, performIn_nil, bind_assoc, pure_bind]
  cases goal with
  | evaluate | assign name =>
      cases ts with
      | nil => rfl
      | cons t rest => exact twoPasses_refuse (hend rfl) (step_operand h rfl) _
  | quantity =>
      refine twoPasses_consume (k := fun x _ ts =>
        andThen (consume size .variable ts) fun unit ts =>
        andThen (consume size .rightParen ts) fun _ ts => do
          expectEnd [.endOfInput] ts
          note (.answeredQuantity x unit.text)
          return .quantity x unit.text) (hend rfl) (fun _ => step_operand h) rfl ?_
      rintro comma ts rfl -
      refine twoPasses_consume (hend rfl) (fun _ _ => rfl) rfl ?_
      rintro unit ts rfl -
      refine twoPasses_consume (hend rfl) (fun _ _ => rfl) rfl ?_
      rintro closing ts rfl -
      cases ts with
      | nil => rfl
      | cons t rest => exact twoPasses_refuse (hend rfl) rfl _

/-- An expression that no operator follows is complete. The innermost construct that is still open
decides what must follow it. -/
theorem twoPasses_close (hshorter : ∀ rest : List Token, rest.length < ts.length →
      Agrees σ size rest) (h : NoOperator ts) :
    twoPasses size (.operand ⟨goal, frames, pending⟩ e) ts =
      inFrames size goal frames (fun place : Place σ => do
        let x ← evalIn place.scope (pending.closeSum e)
        place.ret x ts) := by
  induction frames generalizing pending e with
  | nil => exact twoPasses_goal h
  | cons frame frames ih =>
      rw [inFrames]
      cases frame with
      | letBody name value outer =>
          rw [twoPasses_letBody h, ih]
          congr
          funext place
          rw [← onLevel_close h]
          simp only [evalIn_letIn, bind_assoc]
          rfl
      | paren outer =>
          refine twoPasses_consume (k := fun value _ ts => value.2.ret value.1 ts)
            (breaksOff_frame (fun _ _ => rfl) rfl) (fun _ => step_operand h) rfl ?_
          rintro closing rest rfl -
          exact (hshorter rest (Nat.lt_succ_self _)).operand ⟨goal, frames, outer⟩ _
      | fuzz outer =>
          refine twoPasses_consume (k := fun value _ ts =>
              andThen (Parser.number size numberKinds ts)
                (distancePlace size value.1 value.2).ret)
            (breaksOff_frame (fun _ _ => rfl) rfl) (fun _ => step_operand h) rfl ?_
          rintro comma rest rfl -
          exact twoPasses_fuzzDistance fun r hr => hshorter r (Nat.lt_succ_of_le hr)
      | letValue name outer =>
          refine twoPasses_consume (k := fun value _ ts =>
              andThen (expr size (bodyPlace name value.1 value.2).scope ts)
                (bodyPlace name value.1 value.2).ret)
            (breaksOff_frame (fun _ _ => rfl) rfl) (fun _ => step_operand h) rfl ?_
          rintro inWord rest rfl -
          have hrest := hshorter rest (Nat.lt_succ_self _)
          exact twoPasses_push ⟨goal, frames, outer⟩ hrest (.letBody name _) fun _ => rfl

/-- The machine does what the parser does behind a term. -/
theorem twoPasses_operand (hshorter : ∀ rest : List Token, rest.length < ts.length →
      Agrees σ size rest) (ctx : Context) (e : Expr) :
    twoPasses size (.operand ctx e) ts = inContext size ctx (fun place : Place σ => do
      let x ← evalIn place.scope e
      place.ret x ts) := by
  have hclose : NoOperator ts → twoPasses size (.operand ctx e) ts =
      inContext size ctx (fun place : Place σ => do
        let x ← evalIn place.scope e
        place.ret x ts) := by
    intro h
    rw [twoPasses_close hshorter h, inContext]
    simp only [onLevel_close h]
  cases ts with
  | nil => exact hclose noOperator_nil
  | cons t rest =>
      have hrest := hshorter rest (Nat.lt_succ_self _)
      cases hproduct : productOp? t.kind with
      | some op =>
          have hstep : (State.operand ctx e).step t = _ := stepOperand_product hproduct
          rw [twoPasses_step hstep, hrest.term, inContext, inContext]
          simp only [onLevel_times hproduct]
      | none =>
          cases hsum : sumOp? t.kind with
          | some op =>
              have hstep : (State.operand ctx e).step t = _ := stepOperand_sum hsum
              rw [twoPasses_step hstep, hrest.term, inContext, inContext]
              simp only [onLevel_plus hsum]
          | none => exact hclose (noOperator_cons rfl ⟨hsum, hproduct⟩)

end Complete

/-! ## Whole lines -/

theorem agrees (size : Nat) (ts : List Token) : Agrees σ size ts := by
  induction hlength : ts.length using Nat.strongRecOn generalizing ts with
  | ind n ih =>
      have hshorter : ∀ rest : List Token, rest.length < ts.length → Agrees σ size rest :=
        fun rest hrest => ih rest.length (hlength ▸ hrest) rest rfl
      exact ⟨twoPasses_term hshorter, twoPasses_operand hshorter⟩

/-- At the beginning of an expression that nothing encloses, the parser reads the expression. -/
theorem twoPasses_expr (size : Nat) (goal : Goal) (ts : List Token) :
    (twoPasses size (.term ⟨goal, [], .empty⟩) ts : Calculation σ Value) =
      andThen (expr size [] ts) (goalPlace size goal : Place σ).ret := by
  have hplace : (goalPlace size goal : Place σ).scope = [] := rfl
  rw [(agrees size ts).term, inContext, inFrames, onLevel_empty, ← hplace, andThen_expr]
  rfl

theorem twoPasses_start (size : Nat) (ts : List Token) :
    (twoPasses size .start ts : Calculation σ Value) = goal size ts := by
  have hanswer : ∀ ts, twoPasses size (.term ⟨.evaluate, [], .empty⟩) ts =
      (answer size ts : Calculation σ Value) := twoPasses_expr size .evaluate
  cases ts with
  | nil => exact hanswer []
  | cons t rest =>
      rw [goal]
      split
      · next hset =>
        have hstep : State.start.step t = .ok .setName := by simp only [State.step, hset]
        have hwork : BreaksOff .setName fun k : Unit → Calculation σ Value => k () :=
          fun _ => rfl
        rw [twoPasses_step hstep]
        refine twoPasses_consume (k := fun _ name ts => andThen (expr size [] ts)
          (goalPlace size (.assign name.text) : Place σ).ret) hwork (fun _ _ => rfl) rfl ?_
        rintro name ts rfl -
        exact twoPasses_expr size (.assign name.text) ts
      · next hunit =>
        have hstep : State.start.step t = .ok (.term ⟨.quantity, [], .empty⟩) := by
          simp only [State.step, hunit]
        rw [twoPasses_step hstep]
        exact twoPasses_expr size .quantity rest
      · next hset hunit =>
        rw [← hanswer, twoPasses, twoPasses, readFrom, readFrom, step_start hset hunit]
        rfl

/-- The parser that evaluates while it reads does what reading a line and evaluating it then does:
it has the same outcome and leaves the calculator in the same state, also when it fails. -/
theorem calculate_eq_runRead (input : String) :
    (calculate input : Calculation σ Value) = runRead (Statement.read input) :=
  (twoPasses_start input.utf8ByteSize (Token.scan input)).symm

end Tabletop.Calculator
