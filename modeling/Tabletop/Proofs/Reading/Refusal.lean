/-
# Where reading breaks off

The machine reads tokens as long as they fit. It breaks off at the first one that does not, and what
stands behind that token has no influence, or it breaks off at the end of the input. Each state has
one list of what it accepts. A token is refused for its kind only if its kind is not in the list,
and the end of the input is refused only if the end is not in it. Numbers are refused for other
reasons, too: for white space behind their sign, for touching another number, and for their size.
-/

import Tabletop.Proofs.Reading.Sound

namespace Tabletop.Reading

/-! ## Runs up to a fault -/

/-- The tokens are accepted one after another, and lead from the first state to the last. -/
inductive Steps : State → List Token → State → Prop
  | here (state : State) : Steps state [] state
  | step {state next last : State} {t : Token} {ts : List Token} :
      state.step t = .ok next → Steps next ts last → Steps state (t :: ts) last

/-- Where reading breaks off, and after which work: all tokens are accepted but more is needed, or
the tokens `pre` are accepted and the one behind them is refused. -/
inductive Faults (size : Nat) (state : State) (ts : List Token) : List Step → SyntaxError → Prop
  | ended {last : State} {expected : List Expected} :
      Steps state ts last → last.finish = .error expected →
      Faults size state ts last.work ⟨.inputEnded expected, size, size, ""⟩
  | refused {pre post : List Token} {t : Token} {last : State} {c : Complaint} :
      ts = pre ++ t :: post → Steps state pre last → last.step t = .error c →
      Faults size state ts last.work (c.locate t.stop)

section Runs

variable {size : Nat} {state next last : State} {t : Token} {ts : List Token} {work : List Step}
  {e : SyntaxError}

theorem Steps.readFrom (h : Steps state ts last) (size : Nat) (rest : List Token) :
    readFrom size state (ts ++ rest) = Reading.readFrom size last rest := by
  induction h with
  | here => rfl
  | step hstep _ ih => rw [List.cons_append, Reading.readFrom, hstep, ← ih]

theorem Faults.cons (hstep : state.step t = .ok next) (h : Faults size next ts work e) :
    Faults size state (t :: ts) work e := by
  cases h with
  | ended hsteps hfinish => exact .ended (.step hstep hsteps) hfinish
  | refused hts hsteps hc => exact .refused (by rw [hts, List.cons_append]) (.step hstep hsteps) hc

/-- Reading breaks off where the first fault is. -/
theorem readFrom_eq_error_iff :
    readFrom size state ts = .error ⟨work, e⟩ ↔ Faults size state ts work e := by
  constructor
  · intro h
    -- Each token that is accepted is one more step before the fault.
    induction ts generalizing state with
    | nil =>
        unfold readFrom at h
        cases hfinish : state.finish with
        | ok s => rw [hfinish] at h; cases h
        | error expected =>
            rw [hfinish] at h
            cases h
            exact .ended (.here state) hfinish
    | cons t ts ih =>
        unfold readFrom at h
        cases hstep : state.step t with
        | ok next =>
            rw [hstep] at h
            exact (ih h).cons hstep
        | error c =>
            rw [hstep] at h
            cases h
            exact .refused (List.nil_append _).symm (.here state) hstep
  · intro h
    cases h with
    | ended hsteps hfinish =>
        rw [← List.append_nil ts, hsteps.readFrom, readFrom, hfinish]
    | refused hts hsteps hc =>
        rw [hts, hsteps.readFrom, readFrom, hc]

end Runs

/-! ## What a state accepts -/

/-- What a complete expression may be followed by where `frames` are open. Operators are listed only
where nothing else has to follow. -/
def expectedClose (goal : Goal) : List Frame → List Expected
  | .paren _ :: _ => [.token .rightParen]
  | .fuzz _ :: _ => [.token .comma]
  | .letValue _ _ :: _ => [.token .inWord]
  | _ =>
      match goal with
      | .quantity => [.token .comma]
      | .evaluate | .assign _ => afterExpression

/-- What a state lists when it refuses a token or the end of the input. -/
def State.expected : State → List Expected
  | .start | .term _ => expectedTokens termKinds
  | .setName | .letName _ | .unitName _ => [.token .variable]
  | .negative _ | .fuzzDistance _ _ _ => expectedTokens numberKinds
  | .operand ctx e => expectedClose ctx.goal (ctx.complete e).1
  | .letEqual _ _ => [.token .equal]
  | .range _ kind (.closing _ _) => [.token kind.close]
  | .range _ kind _ => expectedTokens kind.bounds
  | .fuzzClose _ _ _ | .unitClose _ _ => [.token .rightParen]
  | .unitEnd _ _ => [.endOfInput]

/-- Whether a minus sign has been read that belongs to the next token. -/
def State.signed : State → Bool
  | .negative _ | .range _ _ .lowSigned | .range _ _ (.highSigned _ _) => true
  | .fuzzDistance _ _ signed => signed
  | _ => false

/-- Why the token `t` is refused where `expected` is accepted. Where `signed` is true, a minus sign
stands before it. -/
inductive Refuses (expected : List Expected) (signed : Bool) (t : Token) : Complaint → Prop
  | kind : .token t.kind ∉ expected →
      Refuses expected signed t
        ⟨if t.kind = .unknown then .noToken expected else .wrongToken t.kind expected, t.text⟩
  | apart : signed = true → t.spaced = true → Refuses expected signed t ⟨.signApart, t.text⟩
  | value {refusal : Refusal} :
      refusal = .boundsTouch ∨ refusal = .outOfRange → (signed = true → t.spaced = false) →
      Refuses expected signed t ⟨refusal, if signed then "-" ++ t.text else t.text⟩

theorem Refuses.ne_inputEnded {expected : List Expected} {signed : Bool} {t : Token} {c : Complaint}
    (h : Refuses expected signed t c) (expected' : List Expected) :
    c.refusal ≠ .inputEnded expected' := by
  cases h with
  | kind => dsimp only; split_ifs <;> nofun
  | apart => nofun
  | value hrefusal => rcases hrefusal with rfl | rfl <;> nofun

/-! ## Why a token is refused -/

section Refused

variable {α β : Type} {expected : List Expected} {kinds : List TokenKind} {signed : Bool}
  {t : Token} {c : Complaint}

/-- What a sequence complains about is a complaint of one of its members. -/
theorem of_bind_error {x : Except Complaint α} {f : α → Except Complaint β}
    (h : x >>= f = .error c) : x = .error c ∨ ∃ a, x = .ok a ∧ f a = .error c := by
  cases x with
  | ok a => exact .inr ⟨a, rfl, h⟩
  | error c' => exact .inl (by cases h; rfl)

/-- A token of a kind that is accepted is refused for what it says, whatever else is accepted. -/
theorem Refuses.relist {expected' : List Expected} (h : Refuses expected signed t c)
    (hmem : .token t.kind ∈ expected) : Refuses expected' signed t c := by
  cases h with
  | kind hkind => exact absurd hmem hkind
  | apart hsigned hspaced => exact .apart hsigned hspaced
  | value hrefusal htouch => exact .value hrefusal htouch

theorem refuses_refuse (hkind : .token t.kind ∉ expected)
    (h : refuse t expected = (.error c : Except Complaint α)) : Refuses expected signed t c := by
  cases h
  exact .kind hkind

theorem refuses_require {kind : TokenKind} {next : State} (h : require t kind next = .error c) :
    Refuses [.token kind] signed t c := by
  unfold require at h
  by_cases hkind : t.kind = kind
  · rw [if_pos hkind] at h
    cases h
  · rw [if_neg hkind] at h
    exact refuses_refuse (by simpa using hkind) h

theorem mem_expectedTokens {kind : TokenKind} :
    .token kind ∈ expectedTokens kinds ↔ kind ∈ kinds := by
  simp [expectedTokens]

theorem refuses_literalText (h : literalText kinds signed t = .error c) :
    Refuses (expectedTokens kinds) signed t c := by
  unfold literalText at h
  split_ifs at h with hkind happart
  · exact refuses_refuse (by simpa [mem_expectedTokens] using hkind) h
  · cases h
    rw [Bool.and_eq_true] at happart
    exact .apart happart.1 happart.2

/-- The text of a literal is refused for the number that it stands for, or for where it stands. -/
theorem Refuses.of_text {text : String} {refusal : Refusal}
    (htext : literalText kinds signed t = .ok text)
    (hrefusal : refusal = .boundsTouch ∨ refusal = .outOfRange) :
    Refuses expected signed t ⟨refusal, text⟩ := by
  obtain ⟨-, htouch, rfl⟩ := literalText_eq_ok_iff.mp htext
  exact .value hrefusal htouch

theorem refuses_literalValue {text : String} (htext : literalText kinds signed t = .ok text)
    (h : literalValue t.kind text = .error c) : Refuses expected signed t c := by
  unfold literalValue at h
  split at h
  · cases h
  · split at h
    · cases h
    · cases h
      exact .of_text htext (.inr rfl)

theorem refuses_literal (h : literal kinds signed t = .error c) :
    Refuses (expectedTokens kinds) signed t c := by
  rcases of_bind_error h with htext | ⟨text, htext, hvalue⟩
  · exact refuses_literalText htext
  · exact refuses_literalValue htext hvalue

/-- A state that needs a literal refuses what is none. -/
theorem refuses_literal_bind {f : Number → State}
    (h : (do let value ← literal kinds signed t
             return f value) = Except.error c) :
    Refuses (expectedTokens kinds) signed t c := by
  rcases of_bind_error h with hliteral | ⟨value, -, hnext⟩
  · exact refuses_literal hliteral
  · cases hnext

theorem refuses_high {ctx : Context} {kind : RangeKind} {lo : Number} {separated : Bool}
    (h : stepRange.high ctx kind t lo signed separated = .error c) :
    Refuses (expectedTokens kind.bounds) signed t c := by
  rcases of_bind_error h with htext | ⟨text, htext, hhigh⟩
  · exact refuses_literalText htext
  · cases separated with
    | true =>
        rcases of_bind_error hhigh with hvalue | ⟨hi, -, hnext⟩
        · exact refuses_literalValue htext hvalue
        · cases hnext
    | false =>
        cases hhigh
        exact .of_text htext (.inl rfl)

theorem refuses_stepTerm {ctx : Context} (h : stepTerm ctx t = .error c) :
    Refuses (expectedTokens termKinds) false t c := by
  have hnumber : t.kind ∈ numberKinds → (do let value ← literal numberKinds false t
                                            return State.operand ctx (.literal value)) = .error c →
      Refuses (expectedTokens termKinds) false t c := fun hkind hread =>
    -- Numbers are accepted, so one is refused for its value only.
    (refuses_literal_bind hread).relist (mem_expectedTokens.mpr hkind)
  unfold stepTerm at h
  split at h
  case h_11 hkind => exact hnumber (by rw [hkind]; decide) h
  case h_12 hkind => exact hnumber (by rw [hkind]; decide) h
  case h_13 => exact refuses_refuse (by simp_all [mem_expectedTokens, termKinds]) h
  all_goals cases h

theorem refuses_stepRange {ctx : Context} {kind : RangeKind} {stage : BoundsStage}
    (h : stepRange ctx kind t stage = .error c) :
    Refuses (State.range ctx kind stage).expected (State.range ctx kind stage).signed t c := by
  cases stage with
  | low =>
      unfold stepRange at h
      split_ifs at h
      exact refuses_literal_bind h
  | lowSigned => exact refuses_literal_bind h
  | high lo =>
      unfold stepRange at h
      split_ifs at h
      exact refuses_high h
  | highSigned lo separated => exact refuses_high h
  | closing lo hi => exact refuses_require h

/-- The innermost construct that is open says what must follow a complete expression. -/
theorem refuses_stepClose {goal : Goal} {complete : List Frame × Expr}
    (hafter : .token t.kind ∉ afterExpression) (h : stepClose goal t complete = .error c) :
    Refuses (expectedClose goal complete.1) false t c := by
  obtain ⟨frames, e⟩ := complete
  have hgoal (h : stepClose goal t ([], e) = .error c) :
      Refuses (expectedClose goal []) false t c := by
    cases goal with
    | quantity => exact refuses_require h
    | evaluate | assign => exact refuses_refuse hafter h
  cases frames with
  | nil => exact hgoal h
  | cons frame frames =>
      cases frame with
      | paren | fuzz | letValue => exact refuses_require h
      | letBody => exact hgoal h

/-- An operator goes on with the expression. -/
theorem refuses_stepOperand {ctx : Context} {e : Expr} (h : stepOperand ctx e t = .error c) :
    Refuses (State.operand ctx e).expected false t c := by
  unfold stepOperand at h
  split at h
  case h_5 => exact refuses_stepClose (by simp_all [afterExpression]) h
  all_goals cases h

/-- A token is refused for its kind only where the state does not accept that kind. -/
theorem refuses_of_step {state : State} (h : state.step t = .error c) :
    Refuses state.expected state.signed t c := by
  cases state with
  | start =>
      unfold State.step at h
      dsimp only at h
      split at h
      · cases h
      · cases h
      · exact refuses_stepTerm h
  | setName | letName | letEqual | fuzzClose | unitName | unitClose => exact refuses_require h
  | term ctx => exact refuses_stepTerm h
  | negative ctx => exact refuses_literal_bind h
  | operand ctx e => exact refuses_stepOperand h
  | range ctx kind stage => exact refuses_stepRange h
  | fuzzDistance ctx value signed =>
      unfold State.step at h
      dsimp only at h
      split_ifs at h
      exact refuses_literal_bind h
  | unitEnd => exact refuses_refuse (by simp [State.expected]) h

end Refused

/-! ## The sign of a number -/

section Signed

variable {ctx : Context} {state next last : State} {t : Token} {ts : List Token}

theorem not_signed_of_require {kind : TokenKind} (h : require t kind state = .ok next)
    (hstate : ¬ state.signed) : ¬ next.signed := by
  obtain ⟨-, rfl⟩ := of_require h
  exact hstate

theorem not_signed_of_literal {kinds : List TokenKind} {signed : Bool} {f : Number → State}
    (h : (do let value ← literal kinds signed t
             return f value) = Except.ok next)
    (hf : ∀ value, ¬ (f value).signed) : ¬ next.signed := by
  obtain ⟨value, -, rfl⟩ := of_literal_bind h
  exact hf value

theorem minus_of_stepTerm (h : stepTerm ctx t = .ok next) (hsigned : next.signed) :
    t.kind = .minus := by
  unfold stepTerm at h
  split at h
  case h_10 hkind => exact hkind
  case h_11 | h_12 => exact absurd hsigned (not_signed_of_literal h fun _ => Bool.false_ne_true)
  case h_13 => exact absurd h refuse_ne_ok
  all_goals
    cases h
    cases hsigned

theorem not_signed_of_high {kind : RangeKind} {lo : Number} {signed separated : Bool}
    (h : stepRange.high ctx kind t lo signed separated = .ok next) : ¬ next.signed := by
  obtain ⟨-, hi, -, rfl⟩ := stepRange_high_eq_ok_iff.mp h
  nofun

theorem minus_of_stepRange {kind : RangeKind} {stage : BoundsStage}
    (h : stepRange ctx kind t stage = .ok next) (hsigned : next.signed) : t.kind = .minus := by
  by_contra hminus
  refine absurd hsigned ?_
  cases stage with
  | low =>
      rw [stepRange, if_neg hminus] at h
      exact not_signed_of_literal h fun _ => Bool.false_ne_true
  | lowSigned => exact not_signed_of_literal h fun _ => Bool.false_ne_true
  | high lo =>
      rw [stepRange, if_neg hminus] at h
      exact not_signed_of_high h
  | highSigned lo separated => exact not_signed_of_high h
  | closing lo hi => exact not_signed_of_require h Bool.false_ne_true

theorem not_signed_of_stepClose {goal : Goal} {complete : List Frame × Expr}
    (h : stepClose goal t complete = .ok next) : ¬ next.signed := by
  unfold stepClose at h
  split at h
  case h_4 =>
    split at h
    · exact not_signed_of_require h Bool.false_ne_true
    · exact absurd h refuse_ne_ok
    · exact absurd h refuse_ne_ok
  all_goals exact not_signed_of_require h Bool.false_ne_true

theorem not_signed_of_stepOperand {e : Expr} (h : stepOperand ctx e t = .ok next) :
    ¬ next.signed := by
  unfold stepOperand at h
  split at h
  case h_5 => exact not_signed_of_stepClose h
  all_goals
    cases h
    nofun

/-- Only a minus sign is kept for the token behind it. -/
theorem minus_of_step (h : state.step t = .ok next) (hsigned : next.signed) : t.kind = .minus := by
  cases state with
  | start =>
      unfold State.step at h
      dsimp only at h
      split at h
      · cases h
        cases hsigned
      · cases h
        cases hsigned
      · exact minus_of_stepTerm h hsigned
  | setName | letName | letEqual | fuzzClose | unitName | unitClose =>
      exact absurd hsigned (not_signed_of_require h Bool.false_ne_true)
  | term ctx => exact minus_of_stepTerm h hsigned
  | negative ctx => exact absurd hsigned (not_signed_of_literal h fun _ => Bool.false_ne_true)
  | operand ctx e => exact absurd hsigned (not_signed_of_stepOperand h)
  | range ctx kind stage => exact minus_of_stepRange h hsigned
  | fuzzDistance ctx value signed =>
      unfold State.step at h
      dsimp only at h
      split_ifs at h with hsign
      · rw [Bool.and_eq_true, decide_eq_true_eq] at hsign
        exact hsign.1
      · exact absurd hsigned (not_signed_of_literal h fun _ => Bool.false_ne_true)
  | unitEnd => exact absurd h refuse_ne_ok

/-- Where a sign has been read that belongs to the next token, it was the last token. -/
theorem Steps.minus (h : Steps state ts last) (hsigned : last.signed) :
    ts = [] ∧ state = last ∨ ∃ before sign, ts = before ++ [sign] ∧ sign.kind = .minus := by
  induction h with
  | here => exact .inl ⟨rfl, rfl⟩
  | @step _ _ _ t _ hstep _ ih =>
      rcases ih hsigned with ⟨rfl, rfl⟩ | ⟨before, sign, rfl, hminus⟩
      · exact .inr ⟨[], t, rfl, minus_of_step hstep hsigned⟩
      · exact .inr ⟨t :: before, sign, rfl, hminus⟩

end Signed

/-! ## The end of the input -/

theorem expectedClose_ne_nil (goal : Goal) (frames : List Frame) :
    expectedClose goal frames ≠ [] := by
  unfold expectedClose
  split
  case h_4 => cases goal <;> simp [afterExpression]
  all_goals simp

theorem expected_ne_nil (state : State) : state.expected ≠ [] := by
  cases state with
  | operand ctx e => exact expectedClose_ne_nil _ _
  | range ctx kind stage =>
      have hbounds : expectedTokens kind.bounds ≠ [] := by cases kind <;> nofun
      cases stage with
      | closing lo hi => nofun
      | _ => exact hbounds
  | _ => nofun

/-- A complete expression ends the input, or else something must follow it. -/
theorem finishClose_cases (goal : Goal) (complete : List Frame × Expr) :
    (∃ s, finishClose goal complete = .ok s) ∨
      finishClose goal complete = .error (expectedClose goal complete.1) ∧
        .endOfInput ∉ expectedClose goal complete.1 := by
  obtain ⟨frames, e⟩ := complete
  have hgoal : (∃ s, finishClose goal ([], e) = .ok s) ∨
      finishClose goal ([], e) = .error (expectedClose goal []) ∧
        .endOfInput ∉ expectedClose goal [] := by
    cases goal with
    | evaluate | assign => exact .inl ⟨_, rfl⟩
    | quantity => exact .inr ⟨rfl, by simp [expectedClose]⟩
  cases frames with
  | nil => exact hgoal
  | cons frame frames =>
      cases frame with
      | paren | fuzz | letValue => exact .inr ⟨rfl, by simp [expectedClose]⟩
      | letBody => exact hgoal

/-- The input may end in a state, or the end is not listed there and is refused with the list. -/
theorem finish_cases (state : State) :
    (∃ s, state.finish = .ok s) ∨
      state.finish = .error state.expected ∧ .endOfInput ∉ state.expected := by
  have htokens {kinds : List TokenKind} : .endOfInput ∉ expectedTokens kinds := by
    simp [expectedTokens]
  cases state with
  | operand ctx e => exact finishClose_cases _ _
  | range ctx kind stage =>
      cases stage with
      | closing lo hi => exact .inr ⟨rfl, by simp [State.expected]⟩
      | _ => exact .inr ⟨rfl, htokens⟩
  | unitEnd => exact .inl ⟨_, rfl⟩
  | start | term | negative | fuzzDistance => exact .inr ⟨rfl, htokens⟩
  | _ => exact .inr ⟨rfl, by simp [State.expected]⟩

end Tabletop.Reading
