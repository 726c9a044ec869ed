/-
# Only sentences are read

Each state of the machine says what has been read so far: which constructs are open and where each
of them began, which operators wait between complete phrases, and which part of a term is still
missing. One step keeps this true, so a statement that comes out at the end of the input is one
that the grammar derives from all of it. Together with the derivations that drive the machine this
makes reading and the grammar the same relation.
-/

import Tabletop.Proofs.Reading.Complete

namespace Tabletop.Reading

open Grammar

/-! ## What has been read -/

/-- A sum from `first` to `ts`, where its right operand begins, or nothing at all. -/
def SumFrom (first ts : List Token) : Option (Expr × BinaryOp) → Prop
  | none => ts = first
  | some (lhs, op) => ∃ t, sumOp? t.kind = some op ∧ Phrase NoOperator .expr first lhs (t :: ts)

/-- A product from `first` to `ts`, where its right operand begins, or nothing at all. -/
def ProductFrom (first ts : List Token) : Option (Expr × BinaryOp) → Prop
  | none => ts = first
  | some (lhs, op) =>
      ∃ t, productOp? t.kind = some op ∧ Phrase NoOperator .factor first lhs (t :: ts)

/-- An expression that begins at `first` has been read up to `ts`, where a term must follow. -/
def Waits (p : Pending) (first ts : List Token) : Prop :=
  ∃ mid, SumFrom first mid p.sum ∧ ProductFrom mid ts p.product

/-- The tokens before the expression that a goal is about. -/
def Begins (all first : List Token) : Goal → Prop
  | .evaluate => all = first
  | .assign name => ∃ word t, word.kind = .setWord ∧ t.kind = .variable ∧ t.text = name ∧
      all = word :: t :: first
  | .quantity => ∃ opening, opening.kind = .unit ∧ all = opening :: first

/-- The constructs in `frames` are open, and the innermost expression begins at `first`. -/
inductive Opened (all : List Token) (goal : Goal) : List Frame → List Token → Prop
  | base {first : List Token} : Begins all first goal → Opened all goal [] first
  | paren {frames : List Frame} {outer : Pending} {first inner : List Token} {opening : Token} :
      Opened all goal frames first → Waits outer first (opening :: inner) →
      opening.kind = .leftParen → Opened all goal (.paren outer :: frames) inner
  | fuzz {frames : List Frame} {outer : Pending} {first inner : List Token} {opening : Token} :
      Opened all goal frames first → Waits outer first (opening :: inner) →
      opening.kind = .fuzz → Opened all goal (.fuzz outer :: frames) inner
  | letValue {frames : List Frame} {outer : Pending} {first inner : List Token}
      {word name equal : Token} :
      Opened all goal frames first → Waits outer first (word :: name :: equal :: inner) →
      word.kind = .letWord → name.kind = .variable → equal.kind = .equal →
      Opened all goal (.letValue name.text outer :: frames) inner
  | letBody {frames : List Frame} {outer : Pending} {first ts inner : List Token}
      {word name equal inWord : Token} {value : Expr} :
      Opened all goal frames first → Waits outer first (word :: name :: equal :: ts) →
      word.kind = .letWord → name.kind = .variable → equal.kind = .equal →
      Phrase NoOperator .expr ts value (inWord :: inner) → inWord.kind = .inWord →
      Opened all goal (.letBody name.text value outer :: frames) inner

/-- A term must follow at `ts` in a context. -/
def Here (all : List Token) (ctx : Context) (ts : List Token) : Prop :=
  ∃ first, Opened all ctx.goal ctx.frames first ∧ Waits ctx.pending first ts

/-- The bounds that begin at `ts` have been read up to `rest`. -/
def BoundsRead (kinds : List TokenKind) (ts rest : List Token) : BoundsStage → Prop
  | .low => ts = rest
  | .lowSigned => ∃ sign, sign.kind = .minus ∧ ts = sign :: rest
  | .high lo => Literal kinds ts lo rest
  | .highSigned lo separated => ∃ sign, sign.kind = .minus ∧ sign.spaced = separated ∧
      Literal kinds ts lo (sign :: rest)
  | .closing lo hi => Bounds kinds ts lo hi rest

/-- The value of a `fuzz(` term has been read, up to the tokens behind its comma. -/
def FuzzRead (all : List Token) (ctx : Context) (value : Expr) (mid : List Token) : Prop :=
  ∃ opening comma ts, opening.kind = .fuzz ∧ comma.kind = .comma ∧ Here all ctx (opening :: ts) ∧
    Phrase NoOperator .expr ts value (comma :: mid)

/-- The amount of a quantity has been read, up to the tokens behind its comma. -/
def AmountRead (all : List Token) (amount : Expr) (mid : List Token) : Prop :=
  ∃ opening comma ts, opening.kind = .unit ∧ comma.kind = .comma ∧ all = opening :: ts ∧
    Phrase NoOperator .expr ts amount (comma :: mid)

/-- What a state says about the tokens that have been read, where `rest` are left of `all`. -/
def At (all rest : List Token) : State → Prop
  | .start => all = rest
  | .setName => ∃ word, word.kind = .setWord ∧ all = word :: rest
  | .term ctx => Here all ctx rest
  | .negative ctx => ∃ sign, sign.kind = .minus ∧ Here all ctx (sign :: rest)
  | .operand ctx e => ∃ ts, Here all ctx ts ∧ Phrase NoOperator .term ts e rest
  | .letName ctx => ∃ word, word.kind = .letWord ∧ Here all ctx (word :: rest)
  | .letEqual ctx name => ∃ word t, word.kind = .letWord ∧ t.kind = .variable ∧ t.text = name ∧
      Here all ctx (word :: t :: rest)
  | .range ctx kind stage => ∃ opening ts, opening.kind = kind.opening ∧
      Here all ctx (opening :: ts) ∧ BoundsRead kind.bounds ts rest stage
  | .fuzzDistance ctx value false => FuzzRead all ctx value rest
  | .fuzzDistance ctx value true => ∃ sign, sign.kind = .minus ∧
      FuzzRead all ctx value (sign :: rest)
  | .fuzzClose ctx value distance => ∃ mid, FuzzRead all ctx value mid ∧
      Literal numbers mid distance rest
  | .unitName amount => AmountRead all amount rest
  | .unitClose amount unit => ∃ t, t.kind = .variable ∧ t.text = unit ∧
      AmountRead all amount (t :: rest)
  | .unitEnd amount unit => ∃ t closing, t.kind = .variable ∧ t.text = unit ∧
      closing.kind = .rightParen ∧ AmountRead all amount (t :: closing :: rest)

/-! ## Waiting operators -/

section Waiting

variable {p : Pending} {first ts rest : List Token} {e : Expr} {t : Token} {op : BinaryOp}

theorem waits_empty : Waits .empty ts ts :=
  ⟨ts, rfl, rfl⟩

/-- A construct that has just been opened. -/
theorem Here.innermost {all : List Token} {goal : Goal} {frames : List Frame}
    (h : Opened all goal frames ts) : Here all ⟨goal, frames, .empty⟩ ts :=
  ⟨ts, h, waits_empty⟩

theorem ProductFrom.close {product : Option (Expr × BinaryOp)} {sum : Option (Expr × BinaryOp)}
    (hproduct : ProductFrom first ts product) (he : Phrase NoOperator .term ts e rest) :
    Phrase NoOperator .factor first (Pending.closeProduct ⟨sum, product⟩ e) rest := by
  cases product with
  | none =>
      cases hproduct
      exact .ofTerm he
  | some waiting =>
      obtain ⟨t, hop, hlhs⟩ := hproduct
      exact .product hlhs hop he

theorem SumFrom.close {sum : Option (Expr × BinaryOp)} (hsum : SumFrom first ts sum)
    (he : Phrase NoOperator .factor ts (p.closeProduct e) rest) (hp : p.sum = sum) :
    Phrase NoOperator .expr first (p.closeSum e) rest := by
  cases sum with
  | none =>
      cases hsum
      rw [Pending.closeSum_of_none hp]
      exact .ofFactor he
  | some waiting =>
      obtain ⟨t, hop, hlhs⟩ := hsum
      rw [Pending.closeSum, hp]
      exact .sum hlhs hop he

/-- A term ends the expression that waits for it. -/
theorem Waits.close (h : Waits p first ts) (he : Phrase NoOperator .term ts e rest) :
    Phrase NoOperator .expr first (p.closeSum e) rest := by
  obtain ⟨mid, hsum, hproduct⟩ := h
  exact hsum.close (hproduct.close he) rfl

theorem Waits.times (h : Waits p first ts) (he : Phrase NoOperator .term ts e (t :: rest))
    (hop : productOp? t.kind = some op) : Waits (p.times e op) first rest := by
  obtain ⟨mid, hsum, hproduct⟩ := h
  exact ⟨mid, hsum, t, hop, hproduct.close he⟩

theorem Waits.plus (h : Waits p first ts) (he : Phrase NoOperator .term ts e (t :: rest))
    (hop : sumOp? t.kind = some op) : Waits (p.plus e op) first rest :=
  ⟨rest, ⟨t, hop, h.close he⟩, rfl⟩

end Waiting

/-! ## Completing an expression -/

theorem refuse_ne_ok {t : Token} {expected : List Expected} {next : State} :
    refuse t expected ≠ .ok next :=
  nofun

theorem of_require {t : Token} {kind : TokenKind} {next next' : State}
    (h : require t kind next = .ok next') : t.kind = kind ∧ next' = next := by
  unfold require at h
  by_cases hkind : t.kind = kind
  · rw [if_pos hkind] at h
    exact ⟨hkind, (Except.ok.inj h).symm⟩
  · rw [if_neg hkind] at h
    exact absurd h refuse_ne_ok

section Complete

variable {all : List Token} {goal : Goal} {ctx : Context} {t : Token} {rest : List Token}

/-- An expression that nothing continues is complete: the `let` terms around it end there too, and
what is still open is something else. -/
theorem Opened.closeLets {frames : List Frame} {first : List Token}
    (h : Opened all goal frames first) (hends : NoOperator rest) {e : Expr}
    (he : Phrase NoOperator .expr first e rest) :
    ∃ first', Opened all goal (closeLets frames e).1 first' ∧
      Phrase NoOperator .expr first' (closeLets frames e).2 rest ∧
      ∀ name value outer frames',
        (closeLets frames e).1 ≠ .letBody name value outer :: frames' := by
  induction h generalizing e with
  | base hbegins => exact ⟨_, .base hbegins, he, nofun⟩
  | paren houter hwaits hopen => exact ⟨_, .paren houter hwaits hopen, he, nofun⟩
  | fuzz houter hwaits hopen => exact ⟨_, .fuzz houter hwaits hopen, he, nofun⟩
  | letValue houter hwaits hword hname hequal =>
      exact ⟨_, .letValue houter hwaits hword hname hequal, he, nofun⟩
  | letBody _ hwaits hword hname hequal hvalue hin ih =>
      exact ih (hwaits.close (.letIn hword hname hequal hvalue hin he hends))

/-- A token that is no operator closes the innermost open construct, or ends the expression of the
goal. -/
theorem at_stepClose {frames : List Frame} {first : List Token} {e : Expr} {next : State}
    (hopened : Opened all goal frames first) (he : Phrase NoOperator .expr first e (t :: rest))
    (hlets : ∀ name value outer frames', frames ≠ .letBody name value outer :: frames')
    (hstep : stepClose goal t (frames, e) = .ok next) : At all rest next := by
  cases hopened with
  | base hbegins =>
      cases goal with
      | evaluate => exact absurd hstep refuse_ne_ok
      | assign name => exact absurd hstep refuse_ne_ok
      | quantity =>
          obtain ⟨hcomma, rfl⟩ := of_require hstep
          obtain ⟨opening, hopen, hall⟩ := hbegins
          exact ⟨opening, t, first, hopen, hcomma, hall, he⟩
  | paren houter hwaits hopen =>
      obtain ⟨hclose, rfl⟩ := of_require hstep
      exact ⟨_, ⟨_, houter, hwaits⟩, .paren hopen he hclose⟩
  | fuzz houter hwaits hopen =>
      obtain ⟨hcomma, rfl⟩ := of_require hstep
      exact ⟨_, t, first, hopen, hcomma, ⟨_, houter, hwaits⟩, he⟩
  | letValue houter hwaits hword hname hequal =>
      obtain ⟨hin, rfl⟩ := of_require hstep
      exact .innermost (.letBody houter hwaits hword hname hequal he hin)
  | letBody => exact absurd rfl (hlets _ _ _ _)

end Complete

/-! ## Steps -/

section Step

variable {all : List Token} {ctx : Context} {t : Token} {rest : List Token} {next : State}

theorem at_stepOperand {ts : List Token} {e : Expr} (hhere : Here all ctx ts)
    (he : Phrase NoOperator .term ts e (t :: rest)) (hstep : stepOperand ctx e t = .ok next) :
    At all rest next := by
  obtain ⟨first, hopened, hwaits⟩ := hhere
  cases hproduct : productOp? t.kind with
  | some op =>
      rw [stepOperand_product hproduct] at hstep
      obtain rfl := Except.ok.inj hstep
      exact ⟨first, hopened, hwaits.times he hproduct⟩
  | none =>
      cases hsum : sumOp? t.kind with
      | some op =>
          rw [stepOperand_sum hsum] at hstep
          obtain rfl := Except.ok.inj hstep
          exact ⟨first, hopened, hwaits.plus he hsum⟩
      | none =>
          rw [stepOperand_close hsum hproduct] at hstep
          have hends : NoOperator (t :: rest) := noOperator_cons rfl ⟨hsum, hproduct⟩
          obtain ⟨first', hopened', he', hlets⟩ := hopened.closeLets hends (hwaits.close he)
          exact at_stepClose hopened' he' hlets hstep

/-- A number token that is read as a literal is one of the grammar's literals. -/
theorem literal_plain (rest : List Token) {kinds : List TokenKind} {value : Number} (ht : Numeric t)
    (hkinds : ∀ kind ∈ kinds, kind = .integer ∨ kind = .float)
    (h : literal kinds false t = .ok value) : Literal kinds (t :: rest) value rest := by
  obtain ⟨hkind, -, hvalue⟩ := (literal_eq_ok_iff hkinds ht).mp h
  exact .plain hkind hvalue

theorem literal_negative (rest : List Token) {kinds : List TokenKind} {value : Number}
    {sign : Token} (ht : Numeric t)
    (hkinds : ∀ kind ∈ kinds, kind = .integer ∨ kind = .float) (hsign : sign.kind = .minus)
    (h : literal kinds true t = .ok value) : Literal kinds (sign :: t :: rest) value rest := by
  obtain ⟨hkind, htouch, hvalue⟩ := (literal_eq_ok_iff hkinds ht).mp h
  exact .negative hsign (htouch rfl) hkind hvalue

theorem isNumber_of_mem_bounds {kind : RangeKind} :
    ∀ k ∈ kind.bounds, k = .integer ∨ k = .float := by
  cases kind <;> decide

theorem isNumber_of_mem_numbers : ∀ k ∈ numbers, k = .integer ∨ k = .float := by
  decide

/-- A step that goes on with the number of a literal. -/
theorem of_literal_bind {kinds : List TokenKind} {signed : Bool} {f : Number → State}
    (h : (do let value ← literal kinds signed t
             return f value) = Except.ok next) :
    ∃ value, literal kinds signed t = .ok value ∧ f value = next := by
  cases hvalue : literal kinds signed t with
  | error complaint => rw [hvalue] at h; cases h
  | ok value =>
      rw [hvalue] at h
      exact ⟨value, rfl, Except.ok.inj h⟩

/-- The first token of a term. -/
theorem at_stepTerm (hhere : Here all ctx (t :: rest)) (ht : Numeric t)
    (hstep : stepTerm ctx t = .ok next) : At all rest next := by
  have hnumber : ∀ {next}, (do let value ← literal numberKinds false t
                               return State.operand ctx (.literal value)) = Except.ok next →
      At all rest next := by
    intro next hread
    obtain ⟨value, hvalue, rfl⟩ := of_literal_bind hread
    exact ⟨_, hhere, .literal (literal_plain rest ht isNumber_of_mem_numbers hvalue)⟩
  unfold stepTerm at hstep
  split at hstep
  · next hkind => cases hstep; exact ⟨_, hhere, .dice hkind⟩
  · next hkind => cases hstep; exact ⟨t, rest, hkind, hhere, rfl⟩
  · next hkind => cases hstep; exact ⟨t, rest, hkind, hhere, rfl⟩
  · next hkind => cases hstep; exact ⟨t, rest, hkind, hhere, rfl⟩
  · next hkind => cases hstep; exact ⟨t, rest, hkind, hhere, rfl⟩
  · next hkind =>
    cases hstep
    obtain ⟨first, hopened, hwaits⟩ := hhere
    exact .innermost (.fuzz hopened hwaits hkind)
  · next hkind =>
    cases hstep
    obtain ⟨first, hopened, hwaits⟩ := hhere
    exact .innermost (.paren hopened hwaits hkind)
  · next hkind => cases hstep; exact ⟨t, hkind, hhere⟩
  · next hkind => cases hstep; exact ⟨_, hhere, .name hkind⟩
  · next hkind => cases hstep; exact ⟨t, hkind, hhere⟩
  · exact hnumber hstep
  · exact hnumber hstep
  · exact absurd hstep refuse_ne_ok

/-- Behind its sign, a literal is a number. -/
theorem exists_numeral {kinds : List TokenKind} {ts : List Token} {value : Number}
    (h : Literal kinds ts value rest) :
    ∃ negative t, t.kind ∈ kinds ∧ Numeral negative t value := by
  cases h with
  | plain hkind hvalue => exact ⟨_, _, hkind, hvalue⟩
  | negative _ _ hkind hvalue => exact ⟨_, _, hkind, hvalue⟩

theorem int_of_literal {ts : List Token} {value : Number}
    (h : Literal [.integer] ts value rest) : value = .int value.toInt64 := by
  obtain ⟨negative, t, hkind, hvalue⟩ := exists_numeral h
  cases hvalue with
  | integer => rfl
  | float hfloat =>
      rw [hfloat] at hkind
      exact absurd hkind (by decide)

theorem float_of_literal {ts : List Token} {value : Number}
    (h : Literal [.float] ts value rest) : value = .float value.toFloat := by
  obtain ⟨negative, t, hkind, hvalue⟩ := exists_numeral h
  cases hvalue with
  | integer hinteger =>
      rw [hinteger] at hkind
      exact absurd hkind (by decide)
  | float => rfl

/-- The bounds of a range of integers are integers. -/
theorem int_bounds {ts : List Token} {lo hi : Number} (h : Bounds [.integer] ts lo hi rest) :
    Bounds [.integer] ts (.int lo.toInt64) (.int hi.toInt64) rest := by
  obtain ⟨hlo, hspaced, hhi⟩ := h
  rw [int_of_literal hlo] at hlo
  rw [int_of_literal hhi] at hhi
  exact .mk hlo hspaced hhi

theorem float_bounds {ts : List Token} {lo hi : Number} (h : Bounds [.float] ts lo hi rest) :
    Bounds [.float] ts (.float lo.toFloat) (.float hi.toFloat) rest := by
  obtain ⟨hlo, hspaced, hhi⟩ := h
  rw [float_of_literal hlo] at hlo
  rw [float_of_literal hhi] at hhi
  exact .mk hlo hspaced hhi

/-- The brackets of a range and the bounds between them are a term. -/
theorem range_term {kind : RangeKind} {opening closing : Token} {ts : List Token} {lo hi : Number}
    (hopen : opening.kind = kind.opening) (hbounds : Bounds kind.bounds ts lo hi (closing :: rest))
    (hclose : closing.kind = kind.close) :
    Phrase NoOperator .term (opening :: ts) (kind.toExpr lo hi) rest := by
  cases kind with
  | uniformInt => exact .uniformInt hopen (int_bounds hbounds) hclose
  | uniformFloat => exact .uniformFloat hopen hbounds hclose
  | bellInt => exact .bellInt hopen (int_bounds hbounds) hclose
  | bellFloat => exact .bellFloat hopen (float_bounds hbounds) hclose

/-- A token inside the brackets of a range. -/
theorem at_stepRange {kind : RangeKind} {stage : BoundsStage}
    (hat : At all (t :: rest) (.range ctx kind stage)) (ht : Numeric t)
    (hstep : stepRange ctx kind t stage = .ok next) : At all rest next := by
  obtain ⟨opening, ts, hopen, hhere, hread⟩ := hat
  cases stage with
  | low =>
      cases hread
      rw [stepRange] at hstep
      by_cases hminus : t.kind = .minus
      · rw [if_pos hminus] at hstep
        cases hstep
        exact ⟨opening, _, hopen, hhere, t, hminus, rfl⟩
      · rw [if_neg hminus] at hstep
        obtain ⟨lo, hlo, rfl⟩ := of_literal_bind hstep
        exact ⟨opening, _, hopen, hhere, literal_plain rest ht isNumber_of_mem_bounds hlo⟩
  | lowSigned =>
      obtain ⟨sign, hsign, rfl⟩ := hread
      obtain ⟨lo, hlo, rfl⟩ := of_literal_bind hstep
      exact ⟨opening, _, hopen, hhere, literal_negative rest ht isNumber_of_mem_bounds hsign hlo⟩
  | high lo =>
      rw [stepRange] at hstep
      by_cases hminus : t.kind = .minus
      · rw [if_pos hminus] at hstep
        cases hstep
        exact ⟨opening, ts, hopen, hhere, t, hminus, rfl, hread⟩
      · rw [if_neg hminus] at hstep
        obtain ⟨hspaced, hi, hhi, rfl⟩ := stepRange_high_eq_ok_iff.mp hstep
        have hliteral := literal_plain rest ht isNumber_of_mem_bounds hhi
        exact ⟨opening, ts, hopen, hhere, .mk hread hspaced hliteral⟩
  | highSigned lo separated =>
      obtain ⟨sign, hsign, rfl, hlo⟩ := hread
      obtain ⟨hspaced, hi, hhi, rfl⟩ := stepRange_high_eq_ok_iff.mp hstep
      have hliteral := literal_negative rest ht isNumber_of_mem_bounds hsign hhi
      exact ⟨opening, ts, hopen, hhere, .mk hlo hspaced hliteral⟩
  | closing lo hi =>
      obtain ⟨hclose, rfl⟩ := of_require hstep
      exact ⟨_, hhere, range_term hopen hread hclose⟩

theorem at_fuzzDistance {value : Expr} {signed : Bool}
    (hat : At all (t :: rest) (.fuzzDistance ctx value signed)) (ht : Numeric t)
    (hstep : (State.fuzzDistance ctx value signed).step t = .ok next) : At all rest next := by
  rw [State.step] at hstep
  cases signed with
  | false =>
      by_cases hminus : t.kind = .minus
      · rw [if_pos (by simpa using hminus)] at hstep
        cases hstep
        exact ⟨t, hminus, hat⟩
      · rw [if_neg (by simpa using hminus)] at hstep
        obtain ⟨distance, hdistance, rfl⟩ := of_literal_bind hstep
        exact ⟨_, hat, literal_plain rest ht isNumber_of_mem_numbers hdistance⟩
  | true =>
      obtain ⟨sign, hsign, hread⟩ := hat
      rw [if_neg (by simp)] at hstep
      obtain ⟨distance, hdistance, rfl⟩ := of_literal_bind hstep
      exact ⟨_, hread, literal_negative rest ht isNumber_of_mem_numbers hsign hdistance⟩

/-- One step keeps what is known about the tokens that have been read. -/
theorem at_step {state : State} (hat : At all (t :: rest) state) (ht : Numeric t)
    (hstep : state.step t = .ok next) : At all rest next := by
  cases state with
  | start =>
      have hhere : Here all ⟨.evaluate, [], .empty⟩ (t :: rest) := .innermost (.base hat)
      rw [At] at hat
      rw [State.step] at hstep
      split at hstep
      · next hset => cases hstep; exact ⟨t, hset, hat⟩
      · next hunit => cases hstep; exact .innermost (.base ⟨t, hunit, hat⟩)
      · exact at_stepTerm hhere ht hstep
  | setName =>
      obtain ⟨word, hset, hall⟩ := hat
      obtain ⟨hname, rfl⟩ := of_require hstep
      exact .innermost (.base ⟨word, t, hset, hname, rfl, hall⟩)
  | term ctx => exact at_stepTerm hat ht hstep
  | negative ctx =>
      obtain ⟨sign, hsign, hhere⟩ := hat
      obtain ⟨value, hvalue, rfl⟩ := of_literal_bind hstep
      exact ⟨_, hhere, .literal (literal_negative rest ht isNumber_of_mem_numbers hsign hvalue)⟩
  | operand ctx e =>
      obtain ⟨ts, hhere, he⟩ := hat
      exact at_stepOperand hhere he hstep
  | letName ctx =>
      obtain ⟨word, hword, hhere⟩ := hat
      obtain ⟨hname, rfl⟩ := of_require hstep
      exact ⟨word, t, hword, hname, rfl, hhere⟩
  | letEqual ctx name =>
      obtain ⟨word, n, hword, hname, rfl, first, hopened, hwaits⟩ := hat
      obtain ⟨hequal, rfl⟩ := of_require hstep
      exact .innermost (.letValue hopened hwaits hword hname hequal)
  | range ctx kind stage => exact at_stepRange hat ht hstep
  | fuzzDistance ctx value signed => exact at_fuzzDistance hat ht hstep
  | fuzzClose ctx value distance =>
      obtain ⟨mid, ⟨opening, comma, ts, hopen, hcomma, hhere, hvalue⟩, hdistance⟩ := hat
      obtain ⟨hclose, rfl⟩ := of_require hstep
      exact ⟨_, hhere, .fuzz hopen hvalue hcomma hdistance hclose⟩
  | unitName amount =>
      obtain ⟨hunit, rfl⟩ := of_require hstep
      exact ⟨t, hunit, rfl, hat⟩
  | unitClose amount unit =>
      obtain ⟨n, hunit, hname, hamount⟩ := hat
      obtain ⟨hclose, rfl⟩ := of_require hstep
      exact ⟨n, t, hunit, hname, hclose, hamount⟩
  | unitEnd amount unit => exact absurd hstep refuse_ne_ok

end Step

/-! ## Whole inputs -/

section Whole

variable {all ts : List Token} {s : Statement}

/-- The end of the input ends the expression of a goal, if nothing else is open. -/
theorem sentence_of_finishClose {goal : Goal} {frames : List Frame} {first : List Token} {e : Expr}
    (hopened : Opened all goal frames first) (he : Phrase NoOperator .expr first e [])
    (hlets : ∀ name value outer frames', frames ≠ .letBody name value outer :: frames')
    (hfinish : finishClose goal (frames, e) = .ok s) : Sentence NoOperator all s := by
  cases hopened with
  | base hbegins =>
      cases goal with
      | evaluate =>
          cases hfinish
          cases hbegins
          exact .evaluate he
      | assign name =>
          cases hfinish
          obtain ⟨word, n, hword, hname, rfl, rfl⟩ := hbegins
          exact .assign hword hname he
      | quantity => cases hfinish
  | paren | fuzz | letValue => cases hfinish
  | letBody => exact absurd rfl (hlets _ _ _ _)

/-- A statement that comes out at the end is derived from everything that was read. -/
theorem sentence_of_finish {state : State} (hat : At all [] state)
    (hfinish : state.finish = .ok s) : Sentence NoOperator all s := by
  cases state with
  | operand ctx e =>
      obtain ⟨ts, ⟨first, hopened, hwaits⟩, he⟩ := hat
      obtain ⟨first', hopened', he', hlets⟩ := hopened.closeLets noOperator_nil (hwaits.close he)
      exact sentence_of_finishClose hopened' he' hlets hfinish
  | unitEnd amount unit =>
      obtain ⟨n, closing, hunit, rfl, hclose, hread⟩ := hat
      obtain ⟨opening, comma, ts, hopen, hcomma, rfl, hamount⟩ := hread
      obtain rfl := Except.ok.inj hfinish
      exact .quantity hopen hamount hcomma hunit hclose
  | range ctx kind stage => cases stage <;> cases hfinish
  | _ => cases hfinish

/-- What is known about the tokens that have been read leads through a whole run. -/
theorem sentence_of_readFrom {size : Nat} {state : State} (hat : At all ts state)
    (hnumeric : ∀ t ∈ ts, Numeric t) (hread : readFrom size state ts = .ok s) :
    Sentence NoOperator all s := by
  induction ts generalizing state with
  | nil =>
      cases hfinish : state.finish with
      | ok s' =>
          rw [readFrom, hfinish] at hread
          obtain rfl := Except.ok.inj hread
          exact sentence_of_finish hat hfinish
      | error expected => rw [readFrom, hfinish] at hread; cases hread
  | cons t ts ih =>
      obtain ⟨ht, hts⟩ := List.forall_mem_cons.mp hnumeric
      cases hstep : state.step t with
      | ok next =>
          rw [readFrom, hstep] at hread
          exact ih (at_step hat ht hstep) hts hread
      | error complaint => rw [readFrom, hstep] at hread; cases hread

end Whole

/-- Reading is the grammar whose `let` bodies extend as far as possible: a line of input is read as
a statement exactly when it is a sentence that stands for it. -/
theorem read_eq_ok_iff {input : String} {s : Statement} :
    Statement.read input = .ok s ↔ Sentence NoOperator (Token.scan input) s := by
  constructor
  · intro hread
    have hstart : At (Token.scan input) (Token.scan input) .start := rfl
    exact sentence_of_readFrom hstart (fun _ ht => numeric_of_mem_scan ht) hread
  · exact fun hsentence => readFrom_sentence hsentence _

end Tabletop.Reading
