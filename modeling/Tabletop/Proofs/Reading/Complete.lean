/-
# Every sentence is read

A derivation of the grammar drives the machine that reads statements. Whatever context the machine
is in before a phrase, it reads the phrase to its end and arrives with a term whose completion is
the tree of the phrase. The induction is on the derivation. What the machine has built so far is
known exactly only if an operator follows; at the end of a `let` body it is known up to closing
what can be closed there, and that is all the next token looks at.
-/

import Tabletop.Proofs.Grammar.Numeral

namespace Tabletop.Reading

open Grammar

/-! ## Single steps -/

theorem require_self {t : Token} {kind : TokenKind} {next : State} (h : t.kind = kind) :
    require t kind next = .ok next :=
  if_pos h

theorem stepOperand_sum {ctx : Context} {e : Expr} {t : Token} {op : BinaryOp}
    (h : sumOp? t.kind = some op) :
    stepOperand ctx e t = .ok (.term { ctx with pending := ctx.pending.plus e op }) := by
  unfold stepOperand
  cases hkind : t.kind <;> rw [hkind] at h <;> cases h <;> rfl

theorem stepOperand_product {ctx : Context} {e : Expr} {t : Token} {op : BinaryOp}
    (h : productOp? t.kind = some op) :
    stepOperand ctx e t = .ok (.term { ctx with pending := ctx.pending.times e op }) := by
  unfold stepOperand
  cases hkind : t.kind <;> rw [hkind] at h <;> cases h <;> rfl

/-- A token that is no operator completes the expression before it. -/
theorem stepOperand_close {ctx : Context} {e : Expr} {t : Token} (hsum : sumOp? t.kind = none)
    (hproduct : productOp? t.kind = none) :
    stepOperand ctx e t = stepClose ctx.goal t (ctx.complete e) := by
  unfold stepOperand
  split
  · next hkind => rw [hkind] at hproduct; cases hproduct
  · next hkind => rw [hkind] at hproduct; cases hproduct
  · next hkind => rw [hkind] at hsum; cases hsum
  · next hkind => rw [hkind] at hsum; cases hsum
  · rfl

/-- The upper bound of a range is a literal that was separated from the lower bound. -/
theorem stepRange_high_eq_ok_iff {ctx : Context} {kind : RangeKind} {t : Token} {lo : Number}
    {signed separated : Bool} {next : State} :
    stepRange.high ctx kind t lo signed separated = .ok next ↔
      separated = true ∧ ∃ hi, literal kind.bounds signed t = .ok hi ∧
        next = .range ctx kind (.closing lo hi) := by
  unfold stepRange.high literal
  cases literalText kind.bounds signed t with
  | error complaint => simp [bind, Except.bind]
  | ok text =>
      cases separated with
      | false => simp [bind, Except.bind]
      | true =>
          cases hvalue : literalValue t.kind text with
          | error complaint => simp [bind, Except.bind, hvalue]
          | ok hi => simp [bind, Except.bind, pure, Except.pure, hvalue, eq_comm]

/-- A number that the grammar has for a literal is read. -/
theorem literal_eq_ok {kinds : List TokenKind} {signed : Bool} {t : Token} {value : Number}
    (hkind : t.kind ∈ kinds) (htouch : signed = true → t.spaced = false)
    (hvalue : Numeral signed t value) : literal kinds signed t = .ok value := by
  unfold literal
  rw [literalText_eq_ok_iff.mpr ⟨hkind, htouch, rfl⟩]
  exact (literalValue_eq_ok_iff hvalue.numeric hvalue.number).mpr hvalue

/-! ## Waiting operators -/

namespace Pending

variable {p q : Pending} {e e' lhs rhs : Expr} {op : BinaryOp}

theorem closeProduct_of_none (h : p.product = none) : p.closeProduct e = e := by
  rw [closeProduct, h]

theorem closeSum_of_none (h : p.sum = none) : p.closeSum e = p.closeProduct e := by
  rw [closeSum, h]

theorem closeSum_congr (hsum : p.sum = q.sum) (hproduct : p.closeProduct e = q.closeProduct e') :
    p.closeSum e = q.closeSum e' := by
  rw [closeSum, closeSum, hsum, hproduct]

theorem closeProduct_times :
    (p.times lhs op).closeProduct rhs = .binary op (p.closeProduct lhs) rhs :=
  rfl

theorem closeSum_plus : (p.plus lhs op).closeSum rhs = .binary op (p.closeSum lhs) rhs :=
  rfl

end Pending

/-! ## Runs -/

/-- Reading the tokens `ts` from one state is the same as reading `rest` from another. -/
def Reaches (state : State) (ts : List Token) (next : State) (rest : List Token) : Prop :=
  ∀ size, readFrom size state ts = readFrom size next rest

theorem Reaches.trans {first second third : State} {ts mid rest : List Token}
    (h : Reaches first ts second mid) (h' : Reaches second mid third rest) :
    Reaches first ts third rest :=
  fun size => (h size).trans (h' size)

theorem Reaches.step {state next : State} {t : Token} {ts : List Token}
    (h : state.step t = .ok next) : Reaches state (t :: ts) next ts := by
  intro size
  rw [readFrom, h]

/-- Go on from a state that has been reached. -/
theorem Reaches.next {first state next : State} {ts rest : List Token} {t : Token}
    (h : Reaches first ts state (t :: rest)) (hstep : state.step t = .ok next) :
    Reaches first ts next rest :=
  h.trans (.step hstep)

/-! ## Literals and bounds -/

theorem step_negative {ctx : Context} {t : Token} {value : Number}
    (h : literal numbers true t = .ok value) :
    (State.negative ctx).step t = .ok (.operand ctx (.literal value)) := by
  have hkinds : literal numberKinds true t = .ok value := h
  simp only [State.step, hkinds]
  rfl

theorem stepTerm_number {ctx : Context} {t : Token} {value : Number} (hkind : t.kind ∈ numbers)
    (h : literal numbers false t = .ok value) :
    stepTerm ctx t = .ok (.operand ctx (.literal value)) := by
  have hkinds : literal numberKinds false t = .ok value := h
  have hnumber : t.kind = .float ∨ t.kind = .integer := by simpa [numbers] using hkind
  rcases hnumber with hfloat | hinteger
  · simp only [stepTerm, hfloat, hkinds]
    rfl
  · simp only [stepTerm, hinteger, hkinds]
    rfl

/-- A literal is read as a term. -/
theorem reaches_literal {ctx : Context} {ts rest : List Token} {value : Number}
    (h : Literal numbers ts value rest) :
    Reaches (.term ctx) ts (.operand ctx (.literal value)) rest := by
  cases h with
  | plain hkind hvalue =>
      exact .step (stepTerm_number hkind (literal_eq_ok hkind nofun hvalue))
  | @negative sign _ _ _ hminus htouch hkind hvalue =>
      have hsign : (State.term ctx).step sign = .ok (.negative ctx) := by
        simp only [State.step, stepTerm, hminus]
      have hdigits := literal_eq_ok hkind (fun _ => htouch) hvalue
      exact (Reaches.step hsign).next (step_negative hdigits)

/-- The lower bound of a range is read. -/
theorem reaches_low (ctx : Context) {kind : RangeKind} {ts rest : List Token} {lo : Number}
    (h : Literal kind.bounds ts lo rest) :
    Reaches (.range ctx kind .low) ts (.range ctx kind (.high lo)) rest := by
  cases h with
  | @plain t _ _ hkind hvalue =>
      have hread : literal kind.bounds false t = .ok lo := literal_eq_ok hkind nofun hvalue
      apply Reaches.step
      rw [State.step, stepRange, if_neg hvalue.not_minus, hread]
      rfl
  | @negative sign t _ _ hminus htouch hkind hvalue =>
      have hsign : (State.range ctx kind .low).step sign = .ok (.range ctx kind .lowSigned) := by
        rw [State.step, stepRange, if_pos hminus]
      apply (Reaches.step hsign).next
      rw [State.step, stepRange, literal_eq_ok hkind (fun _ => htouch) hvalue]
      rfl

/-- The upper bound of a range is read if white space stands before it. -/
theorem reaches_high {ctx : Context} {kind : RangeKind} {mid rest : List Token} {t : Token}
    {lo hi : Number} (h : Literal kind.bounds (t :: mid) hi rest) (hspaced : t.spaced = true) :
    Reaches (.range ctx kind (.high lo)) (t :: mid) (.range ctx kind (.closing lo hi)) rest := by
  cases h with
  | plain hkind hvalue =>
      apply Reaches.step
      rw [State.step, stepRange, if_neg hvalue.not_minus]
      exact stepRange_high_eq_ok_iff.mpr ⟨hspaced, _, literal_eq_ok hkind nofun hvalue, rfl⟩
  | negative hminus htouch hkind hvalue =>
      have hsign : (State.range ctx kind (.high lo)).step t =
          .ok (.range ctx kind (.highSigned lo true)) := by
        rw [State.step, stepRange, if_pos hminus, hspaced]
      apply (Reaches.step hsign).next
      exact stepRange_high_eq_ok_iff.mpr
        ⟨rfl, _, literal_eq_ok hkind (fun _ => htouch) hvalue, rfl⟩

/-- The token that begins a range. -/
def RangeKind.opening : RangeKind → TokenKind
  | .uniformInt => .leftBracket
  | .uniformFloat => .leftBrace
  | .bellInt => .bellInt
  | .bellFloat => .bellFloat

theorem step_opening {ctx : Context} {kind : RangeKind} {t : Token} (h : t.kind = kind.opening) :
    (State.term ctx).step t = .ok (.range ctx kind .low) := by
  rw [State.step, stepTerm, h]
  cases kind <;> rfl

/-- A range is read from the token that begins it to the bracket behind its bounds. -/
theorem reaches_range (kind : RangeKind) {ctx : Context} {ts rest : List Token}
    {opening closing : Token} {lo hi : Number} (hopen : opening.kind = kind.opening)
    (hbounds : Bounds kind.bounds ts lo hi (closing :: rest))
    (hclose : closing.kind = kind.close) :
    Reaches (.term ctx) (opening :: ts) (.operand ctx (kind.toExpr lo hi)) rest := by
  cases hbounds with
  | mk hlo hspaced hhi =>
      have hread := (reaches_low ctx hlo).trans (reaches_high hhi hspaced)
      exact (Reaches.step (step_opening hopen)).trans (hread.next (require_self hclose))

/-- The distance of a `fuzz(` and the bracket behind it are read. -/
theorem reaches_fuzz {ctx : Context} {value : Expr} {ts rest : List Token} {closing : Token}
    {distance : Number} (h : Literal numbers ts distance (closing :: rest))
    (hclose : closing.kind = .rightParen) :
    Reaches (.fuzzDistance ctx value false) ts (.operand ctx (.fuzz value distance.toFloat))
      rest := by
  have hclosing : (State.fuzzClose ctx value distance).step closing =
      .ok (.operand ctx (.fuzz value distance.toFloat)) := require_self hclose
  cases h with
  | @plain t _ _ hkind hvalue =>
      have hdigits : (State.fuzzDistance ctx value false).step t =
          .ok (.fuzzClose ctx value distance) := by
        have hread : literal numberKinds false t = .ok distance := literal_eq_ok hkind nofun hvalue
        rw [State.step, if_neg (by simpa using hvalue.not_minus), hread]
        rfl
      exact (Reaches.step hdigits).next hclosing
  | @negative sign t _ _ hminus htouch hkind hvalue =>
      have hsign : (State.fuzzDistance ctx value false).step sign =
          .ok (.fuzzDistance ctx value true) := by
        rw [State.step, if_pos (by simpa using hminus)]
      have hdigits : (State.fuzzDistance ctx value true).step t =
          .ok (.fuzzClose ctx value distance) := by
        have hread : literal numberKinds true t = .ok distance :=
          literal_eq_ok hkind (fun _ => htouch) hvalue
        rw [State.step, if_neg (by simp), hread]
        rfl
      exact ((Reaches.step hsign).next hdigits).next hclosing

/-! ## Phrases -/

/-- No operator of the same or a higher level waits for an operand. -/
def Ready (ctx : Context) : Level → Prop
  | .term => True
  | .factor => ctx.pending.product = none
  | .expr => ctx.pending = .empty

/-- The phrase is an operand of the operator that follows it. -/
def Operand (ctx ctx' : Context) (e e' : Expr) : Level → Prop
  | .term => ctx'.pending = ctx.pending ∧ e' = e
  | .factor => ctx'.pending.sum = ctx.pending.sum ∧ ctx'.pending.closeProduct e' = e
  | .expr => ctx'.pending.closeSum e' = e

/-- A phrase that stands for `e` was read in `ctx`, and the last term of it is `e'`. -/
structure Lands (level : Level) (ctx : Context) (e : Expr) (rest : List Token) (ctx' : Context)
    (e' : Expr) : Prop where
  goal : ctx'.goal = ctx.goal
  complete : ctx'.complete e' = ctx.complete e
  operand : ¬ NoOperator rest → ctx'.frames = ctx.frames ∧ Operand ctx ctx' e e' level

/-- A term that is no `let`. -/
theorem Lands.refl {ctx : Context} {e : Expr} {rest : List Token} :
    Lands .term ctx e rest ctx e where
  goal := rfl
  complete := rfl
  operand := fun _ => ⟨rfl, rfl, rfl⟩

theorem not_noOperator_of_sum {t : Token} {rest : List Token} {op : BinaryOp}
    (h : sumOp? t.kind = some op) : ¬ NoOperator (t :: rest) := by
  intro hnone
  have hsum := (hnone t rfl).1
  rw [h] at hsum
  cases hsum

theorem not_noOperator_of_product {t : Token} {rest : List Token} {op : BinaryOp}
    (h : productOp? t.kind = some op) : ¬ NoOperator (t :: rest) := by
  intro hnone
  have hproduct := (hnone t rfl).2
  rw [h] at hproduct
  cases hproduct

/-- The first three tokens of a `let` are read. -/
theorem reaches_letValue (ctx : Context) {word name equal : Token} {ts : List Token}
    (hword : word.kind = .letWord) (hname : name.kind = .variable) (hequal : equal.kind = .equal) :
    Reaches (.term ctx) (word :: name :: equal :: ts) (.term (ctx.push (.letValue name.text)))
      ts := by
  have hletName : (State.term ctx).step word = .ok (.letName ctx) := by
    simp only [State.step, stepTerm, hword]
  have hletEqual : (State.letName ctx).step name = .ok (.letEqual ctx name.text) :=
    require_self hname
  have hterm : (State.letEqual ctx name.text).step equal =
      .ok (.term (ctx.push (.letValue name.text))) := require_self hequal
  exact ((Reaches.step hletName).next hletEqual).next hterm

/-- After a phrase, a token that is no operator meets what was open before the phrase. -/
theorem Lands.step_close {level : Level} {ctx ctx' : Context} {e e' : Expr} {rest : List Token}
    {t : Token} (h : Lands level ctx e (t :: rest) ctx' e') {kind : TokenKind}
    (hkind : t.kind = kind)
    (hnone : sumOp? kind = none ∧ productOp? kind = none := by decide) :
    (State.operand ctx' e').step t = stepClose ctx.goal t (ctx.complete e) := by
  rw [State.step, stepOperand_close (by rw [hkind]; exact hnone.1) (by rw [hkind]; exact hnone.2),
    h.goal, h.complete]

namespace Lands

variable {ctx ctx' ctx'' : Context} {e e' lhs lhs' rhs rhs' : Expr} {op : BinaryOp}
  {t : Token} {ts rest : List Token}

theorem factor (hready : Ready ctx .factor) (h : Lands .term ctx e rest ctx' e') :
    Lands .factor ctx e rest ctx' e' := by
  refine ⟨h.goal, h.complete, fun hmore => ?_⟩
  obtain ⟨hframes, hpending, rfl⟩ := h.operand hmore
  have hproduct : ctx'.pending.product = none := hpending ▸ hready
  exact ⟨hframes, congrArg _ hpending, Pending.closeProduct_of_none hproduct⟩

theorem expr (hready : Ready ctx .expr) (h : Lands .factor ctx e rest ctx' e') :
    Lands .expr ctx e rest ctx' e' := by
  refine ⟨h.goal, h.complete, fun hmore => ?_⟩
  obtain ⟨hframes, hsame, hclosed⟩ := h.operand hmore
  have hsum : ctx.pending.sum = none := by rw [hready]; rfl
  exact ⟨hframes, (Pending.closeSum_of_none (hsame.trans hsum)).trans hclosed⟩

/-- The body of a `let` is its end, unless an operator follows, and none does. -/
theorem letIn {name : String} {value body : Expr}
    (h : Lands .expr (ctx.push (.letBody name value)) body rest ctx' e') (hends : NoOperator rest) :
    Lands .term ctx (.letIn name value body) rest ctx' e' :=
  ⟨h.goal, h.complete, absurd hends⟩

/-- The right operand of a product is read with the left one waiting. -/
theorem product (hready : Ready ctx .factor) (hop : productOp? t.kind = some op)
    (h : Lands .factor ctx lhs (t :: ts) ctx' lhs')
    (h' : Lands .term { ctx' with pending := ctx'.pending.times lhs' op } rhs rest ctx'' rhs') :
    Lands .factor ctx (.binary op lhs rhs) rest ctx'' rhs' := by
  obtain ⟨hframes, hsum, hclosed⟩ := h.operand (not_noOperator_of_product hop)
  have hbinary : (ctx'.pending.times lhs' op).closeProduct rhs = .binary op lhs rhs := by
    rw [Pending.closeProduct_times, hclosed]
  refine ⟨h'.goal.trans h.goal, ?_, fun hmore => ?_⟩
  · have hsame : (ctx'.pending.times lhs' op).closeSum rhs =
        ctx.pending.closeSum (.binary op lhs rhs) :=
      Pending.closeSum_congr hsum (hbinary.trans (Pending.closeProduct_of_none hready).symm)
    rw [h'.complete, Context.complete, Context.complete, hsame, hframes]
  · obtain ⟨hframes', hpending, rfl⟩ := h'.operand hmore
    refine ⟨hframes'.trans hframes, ?_, ?_⟩
    · rw [hpending]
      exact hsum
    · rw [hpending]
      exact hbinary

/-- The right operand of a sum is read with the left one waiting. -/
theorem sum (hready : Ready ctx .expr) (hop : sumOp? t.kind = some op)
    (h : Lands .expr ctx lhs (t :: ts) ctx' lhs')
    (h' : Lands .factor { ctx' with pending := ctx'.pending.plus lhs' op } rhs rest ctx'' rhs') :
    Lands .expr ctx (.binary op lhs rhs) rest ctx'' rhs' := by
  obtain ⟨hframes, hclosed⟩ := h.operand (not_noOperator_of_sum hop)
  have hbinary : (ctx'.pending.plus lhs' op).closeSum rhs = .binary op lhs rhs := by
    rw [Pending.closeSum_plus, hclosed]
  refine ⟨h'.goal.trans h.goal, ?_, fun hmore => ?_⟩
  · have hsame : ctx.pending.closeSum (.binary op lhs rhs) = .binary op lhs rhs := by
      rw [hready]; rfl
    rw [h'.complete, Context.complete, Context.complete, hbinary, hsame, hframes]
  · obtain ⟨hframes', hsum, hclosed'⟩ := h'.operand hmore
    have hopen : (ctx'.pending.plus lhs' op).closeProduct rhs = rhs :=
      Pending.closeProduct_of_none rfl
    have hclose := Pending.closeSum_congr hsum (hclosed'.trans hopen.symm)
    exact ⟨hframes'.trans hframes, hclose.trans hbinary⟩

end Lands

/-- From every context where a phrase of the level can stand, the machine reads `ts` up to `rest` as
a phrase that stands for `e`. -/
def Reads (level : Level) (ts : List Token) (e : Expr) (rest : List Token) : Prop :=
  ∀ ctx, Ready ctx level →
    ∃ ctx' e', Reaches (.term ctx) ts (.operand ctx' e') rest ∧ Lands level ctx e rest ctx' e'

namespace Reads

variable {ts mid rest first : List Token} {e lhs rhs : Expr} {t : Token} {op : BinaryOp}

theorem term (h : ∀ ctx, Reaches (.term ctx) ts (.operand ctx e) rest) : Reads .term ts e rest :=
  fun ctx _ => ⟨ctx, e, h ctx, .refl⟩

/-- An expression is read inside of a frame that some tokens have opened, and the token behind it is
read in the context outside. -/
theorem framed (h : Reads .expr ts e (t :: rest)) {ctx : Context} {frame : Pending → Frame}
    {kind : TokenKind} {next : State}
    (hopen : Reaches (.term ctx) first (.term (ctx.push frame)) ts) (hkind : t.kind = kind)
    (hclose : stepClose ctx.goal t ((ctx.push frame).complete e) = .ok next)
    (hnone : sumOp? kind = none ∧ productOp? kind = none := by decide) :
    Reaches (.term ctx) first next rest := by
  obtain ⟨ctx', e', hread, hlands⟩ := h (ctx.push frame) rfl
  exact (hopen.trans hread).next ((hlands.step_close hkind hnone).trans hclose)

theorem factor (h : Reads .term ts e rest) : Reads .factor ts e rest := by
  intro ctx hready
  obtain ⟨ctx', e', hread, hlands⟩ := h ctx trivial
  exact ⟨ctx', e', hread, hlands.factor hready⟩

theorem expr (h : Reads .factor ts e rest) : Reads .expr ts e rest := by
  intro ctx hready
  have hproduct : Ready ctx .factor := by rw [Ready, hready]; rfl
  obtain ⟨ctx', e', hread, hlands⟩ := h ctx hproduct
  exact ⟨ctx', e', hread, hlands.expr hready⟩

theorem product (h : Reads .factor ts lhs (t :: mid)) (hop : productOp? t.kind = some op)
    (h' : Reads .term mid rhs rest) : Reads .factor ts (.binary op lhs rhs) rest := by
  intro ctx hready
  obtain ⟨ctx', lhs', hleft, hlands⟩ := h ctx hready
  obtain ⟨ctx'', rhs', hright, hlands'⟩ := h' _ trivial
  exact ⟨ctx'', rhs', (hleft.next (stepOperand_product hop)).trans hright,
    hlands.product hready hop hlands'⟩

theorem sum (h : Reads .expr ts lhs (t :: mid)) (hop : sumOp? t.kind = some op)
    (h' : Reads .factor mid rhs rest) : Reads .expr ts (.binary op lhs rhs) rest := by
  intro ctx hready
  obtain ⟨ctx', lhs', hleft, hlands⟩ := h ctx hready
  obtain ⟨ctx'', rhs', hright, hlands'⟩ :=
    h' { ctx' with pending := ctx'.pending.plus lhs' op } rfl
  exact ⟨ctx'', rhs', (hleft.next (stepOperand_sum hop)).trans hright,
    hlands.sum hready hop hlands'⟩

/-- The value of a `let` moves into the frame of the body, which begins a level of its own. -/
theorem letIn {word name equal inWord : Token} {value body : Expr} (hword : word.kind = .letWord)
    (hname : name.kind = .variable) (hequal : equal.kind = .equal)
    (hvalue : Reads .expr ts value (inWord :: mid)) (hin : inWord.kind = .inWord)
    (hbody : Reads .expr mid body rest) (hends : NoOperator rest) :
    Reads .term (word :: name :: equal :: ts) (.letIn name.text value body) rest := by
  intro ctx _
  have hopen : Reaches (.term ctx) (word :: name :: equal :: ts)
      (.term (ctx.push (.letBody name.text value))) mid :=
    hvalue.framed (reaches_letValue ctx hword hname hequal) hin (require_self hin)
  obtain ⟨ctx', body', hread, hlands⟩ := hbody (ctx.push (.letBody name.text value)) rfl
  exact ⟨ctx', body', hopen.trans hread, hlands.letIn hends⟩

end Reads

/-- Every phrase is read to its end in every context where it can stand. -/
theorem reads_phrase {level : Level} {ts rest : List Token} {e : Expr}
    (h : Phrase NoOperator level ts e rest) : Reads level ts e rest := by
  induction h with
  | literal hliteral => exact .term fun _ => reaches_literal hliteral
  | dice hkind | name hkind =>
      exact .term fun _ => .step (by simp only [State.step, stepTerm, hkind])
  | uniformInt hopen hbounds hclose =>
      exact .term fun _ => reaches_range .uniformInt hopen hbounds hclose
  | uniformFloat hopen hbounds hclose =>
      exact .term fun _ => reaches_range .uniformFloat hopen hbounds hclose
  | bellInt hopen hbounds hclose =>
      exact .term fun _ => reaches_range .bellInt hopen hbounds hclose
  | bellFloat hopen hbounds hclose =>
      exact .term fun _ => reaches_range .bellFloat hopen hbounds hclose
  | @fuzz opening _ _ _ _ _ _ _ hopen _ hcomma hdistance hclose ih =>
      refine .term fun ctx => .trans ?_ (reaches_fuzz hdistance hclose)
      have hstep : (State.term ctx).step opening = .ok (.term (ctx.push .fuzz)) := by
        simp only [State.step, stepTerm, hopen]
      exact ih.framed (.step hstep) hcomma (require_self hcomma)
  | @paren opening _ _ _ _ hopen _ hclose ih =>
      refine .term fun ctx => ?_
      have hstep : (State.term ctx).step opening = .ok (.term (ctx.push .paren)) := by
        simp only [State.step, stepTerm, hopen]
      exact ih.framed (.step hstep) hclose (require_self hclose)
  | letIn hword hname hequal _ hin _ hends ihvalue ihbody =>
      exact .letIn hword hname hequal ihvalue hin ihbody hends
  | ofTerm _ ih => exact ih.factor
  | ofFactor _ ih => exact ih.expr
  | product _ hop _ ihleft ihright => exact ihleft.product hop ihright
  | sum _ hop _ ihleft ihright => exact ihleft.sum hop ihright

/-! ## Sentences -/

/-- An expression begins with neither of the tokens that only begin a sentence. -/
theorem exists_first {bodyEnds : List Token → Prop} {level : Level} {ts rest : List Token}
    {e : Expr} (h : Phrase bodyEnds level ts e rest) :
    ∃ t ts', ts = t :: ts' ∧ t.kind ≠ .setWord ∧ t.kind ≠ .unit := by
  induction h with
  | literal hliteral =>
      cases hliteral with
      | plain hkind =>
          refine ⟨_, _, rfl, ?_, ?_⟩
          · intro hset
            rw [hset] at hkind
            exact absurd hkind (by decide)
          · intro hunit
            rw [hunit] at hkind
            exact absurd hkind (by decide)
      | negative hminus => exact ⟨_, _, rfl, by rw [hminus]; decide, by rw [hminus]; decide⟩
  | dice h | uniformInt h | uniformFloat h | bellInt h | bellFloat h | fuzz h | paren h | letIn h
  | name h => exact ⟨_, _, rfl, by rw [h]; decide, by rw [h]; decide⟩
  | ofTerm _ ih | product _ _ _ ih _ | ofFactor _ ih | sum _ _ _ ih _ => exact ih

theorem step_start {t : Token} (hset : t.kind ≠ .setWord) (hunit : t.kind ≠ .unit) :
    State.start.step t = (State.term ⟨.evaluate, [], .empty⟩).step t := by
  simp only [State.step]

/-- At the beginning, an expression is read like any other term. -/
theorem reaches_start {bodyEnds : List Token → Prop} {level : Level} {ts rest : List Token}
    {e : Expr} (h : Phrase bodyEnds level ts e rest) :
    Reaches .start ts (.term ⟨.evaluate, [], .empty⟩) ts := by
  intro size
  obtain ⟨t, ts', rfl, hset, hunit⟩ := exists_first h
  rw [readFrom, readFrom, step_start hset hunit]
  rfl

/-- The end of the input after an expression that nothing encloses. -/
theorem Lands.finish {goal : Goal} {e e' : Expr} {ctx' : Context}
    (h : Lands .expr ⟨goal, [], .empty⟩ e [] ctx' e') :
    (State.operand ctx' e').finish = finishClose goal ([], e) := by
  rw [State.finish, h.goal, h.complete]
  rfl

theorem readFrom_nil {size : Nat} {state : State} {s : Statement} (h : state.finish = .ok s) :
    readFrom size state [] = .ok s := by
  rw [readFrom, h]

/-- A sentence whose bodies extend as far as possible is read as the statement that it stands
for. -/
theorem readFrom_sentence {ts : List Token} {s : Statement} (h : Sentence NoOperator ts s)
    (size : Nat) : readFrom size .start ts = .ok s := by
  cases h with
  | evaluate he =>
      obtain ⟨ctx', e', hreach, hlands⟩ := reads_phrase he ⟨.evaluate, [], .empty⟩ rfl
      rw [reaches_start he size, hreach size]
      exact readFrom_nil hlands.finish
  | @assign word name _ _ hword hname he =>
      have hset : State.start.step word = .ok .setName := by simp only [State.step, hword]
      have hterm : State.setName.step name = .ok (.term ⟨.assign name.text, [], .empty⟩) :=
        require_self hname
      obtain ⟨ctx', e', hreach, hlands⟩ :=
        reads_phrase he ⟨.assign name.text, [], .empty⟩ rfl
      rw [((Reaches.step hset).next hterm).trans hreach size]
      exact readFrom_nil hlands.finish
  | @quantity opening comma unit closing _ amount hopen he hcomma hunit hclose =>
      have hterm : State.start.step opening = .ok (.term ⟨.quantity, [], .empty⟩) := by
        simp only [State.step, hopen]
      obtain ⟨ctx', e', hreach, hlands⟩ := reads_phrase he ⟨.quantity, [], .empty⟩ rfl
      have hcomma' : (State.operand ctx' e').step comma = .ok (.unitName amount) :=
        (hlands.step_close hcomma).trans (require_self hcomma)
      have hunit' : (State.unitName amount).step unit = .ok (.unitClose amount unit.text) :=
        require_self hunit
      have hclose' : (State.unitClose amount unit.text).step closing =
          .ok (.unitEnd amount unit.text) := require_self hclose
      have hamount := (Reaches.step hterm).trans hreach
      rw [((hamount.next hcomma').next hunit').next hclose' size]
      exact readFrom_nil rfl

end Tabletop.Reading
