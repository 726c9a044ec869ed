/-
# What syntax errors say

A syntax error marks the piece of input that was refused, which ends where reading came to. What
stands behind that piece was not looked at: any other text there leads to the same error, after the
same draws. Where the error lists what would have been accepted, each token of the list is read on
from the same place, and if the end of the input is in the list, then the text before the refused
piece is a line with a value.
-/

import Tabletop.Proofs.Calculation
import Tabletop.Proofs.Reading.Refusal
import Tabletop.Proofs.Token.Tiling
import Tabletop.Source.Script

namespace Tabletop

open Reading

/-- The error is about the piece of the input between `before` and `after`, and names its first byte
and the one behind its last. So both ends lie in the input and on boundaries of characters. -/
structure SyntaxError.Marks (e : SyntaxError) (input before after : String) : Prop where
  text : input = before ++ e.slice ++ after
  start : e.start = before.utf8ByteSize
  stop : e.stop = before.utf8ByteSize + e.slice.utf8ByteSize

theorem SyntaxError.Marks.start_lt_stop {e : SyntaxError} {input before after : String}
    (h : e.Marks input before after) (hne : e.slice ≠ "") : e.start < e.stop := by
  have hsize : e.slice.utf8ByteSize ≠ 0 := by simpa using hne
  have hstart := h.start
  have hstop := h.stop
  omega

namespace Reading

/-! ## The piece of input that is refused -/

section Refused

variable {input before after : String} {pre post : List Token} {t : Token} {last : State}
  {c : Complaint}

/-- A complaint about a token and what stands directly before it marks both. -/
theorem marks_of_stands (sign : String)
    (h : Token.Stands 0 true input.toList pre t post (before ++ sign) after)
    (hslice : c.slice = sign ++ t.text) : (c.locate t.stop).Marks input before after := by
  have hstart : t.start = before.utf8ByteSize + sign.utf8ByteSize := by simpa using h.start
  have hsize : c.slice.utf8ByteSize = sign.utf8ByteSize + t.text.utf8ByteSize := by simp [hslice]
  refine ⟨?_, ?_, ?_⟩
  · show input = before ++ c.slice ++ after
    simp [← String.toList_inj, h.text, hslice]
  · show t.stop - c.slice.utf8ByteSize = before.utf8ByteSize
    unfold Token.stop
    omega
  · show t.stop = before.utf8ByteSize + c.slice.utf8ByteSize
    unfold Token.stop
    omega

/-- A complaint about a token by itself marks the token. -/
theorem marks_token (h : Token.Stands 0 true input.toList pre t post before after)
    (hslice : c.slice = t.text) : (c.locate t.stop).Marks input before after :=
  marks_of_stands "" (by simpa using h) (by simpa using hslice)

/-- A refused token is marked, together with the sign before it if that belongs to it. The text up
to the end of what is marked has the tokens up to there. -/
theorem exists_marks (hscan : Token.scan input = pre ++ t :: post) (hsteps : Steps .start pre last)
    (hc : last.step t = .error c) :
    ∃ before after, (c.locate t.stop).Marks input before after ∧ c.slice ≠ "" ∧
      Token.scan (before ++ c.slice) = pre ++ [t] := by
  obtain ⟨before, after, hstands⟩ := Token.exists_stands hscan
  have halone (hslice : c.slice = t.text) :
      ∃ before after, (c.locate t.stop).Marks input before after ∧ c.slice ≠ "" ∧
        Token.scan (before ++ c.slice) = pre ++ [t] := by
    refine ⟨before, after, marks_token hstands hslice, ?_, ?_⟩
    · simpa [hslice] using hstands.cut.ne_nil
    · simpa [Token.scan, hslice] using hstands.through
  cases refuses_of_step hc with
  | kind | apart => exact halone rfl
  | value hrefusal htouch =>
      -- Only here a sign is named, and then no white space stands between it and the token.
      by_cases hsigned : last.signed = true
      · rcases hsteps.minus hsigned with ⟨-, rfl⟩ | ⟨earlier, sign, rfl, hminus⟩
        · cases hsigned
        · have hsign : Token.scan input = earlier ++ sign :: t :: post := by simpa using hscan
          obtain ⟨before, after, hstands, hcut⟩ :=
            Token.exists_stands_touching hsign (htouch hsigned)
          rw [hminus] at hcut
          have hdash : sign.text = "-" := String.toList_inj.mp (Token.text_of_minus hcut)
          refine ⟨before, after, marks_of_stands "-" (hdash ▸ hstands) (if_pos hsigned), ?_, ?_⟩
          · simp [hsigned]
          · simpa [Token.scan, hsigned, hdash] using hstands.through
      · exact halone (if_neg hsigned)

end Refused

/-- White space ends the last token of a text, whatever stands behind it. -/
theorem scan_append_space (line text : String) :
    ∃ later, Token.scan (line ++ " " ++ text) =
      Token.scan line ++ Token.scanFrom later true text.toList := by
  have hspace : Token.isSeparator ' ' := by decide
  obtain ⟨later, hscan⟩ := Token.scanFrom_append hspace 0 true line.toList text.toList
  exact ⟨later, by simpa [Token.scan] using hscan⟩

/-- The refused token is the last one that is looked at. -/
theorem read_of_refused {line : String} {pre : List Token} {t : Token} {last : State}
    {c : Complaint} (hscan : Token.scan line = pre ++ [t]) (hsteps : Steps .start pre last)
    (hc : last.step t = .error c) (text : String) :
    Statement.read (line ++ " " ++ text) = .error ⟨last.work, c.locate t.stop⟩ := by
  obtain ⟨later, happend⟩ := scan_append_space line text
  apply readFrom_eq_error_iff.mpr
  exact .refused (by rw [happend, hscan, List.append_assoc, List.singleton_append]) hsteps hc

end Reading

namespace Calculator

variable {σ : Type} [RandomSource σ] {input : String} {e : SyntaxError} {c c' : Calculator σ}

/-- What halts an evaluation is no syntax error. -/
theorem map_eval_ne_badSyntax (cause : Halt EvalError) :
    cause.map Error.eval ≠ .failed (.badSyntax e) := by
  cases cause <;> nofun

theorem runStatement_ne_badSyntax (s : Statement) :
    runStatement s c ≠ .error (.failed (.badSyntax e)) c' := by
  intro h
  have hruns := runStatement_eq_iff.mp h
  generalize houtcome : EStateM.Result.error (Halt.failed (Error.badSyntax e)) c' = outcome at hruns
  cases hruns with
  | @halt _ cause => exact map_eval_ne_badSyntax cause (EStateM.Result.error.inj houtcome).1.symm
  | evaluate | assign | quantity => cases houtcome

theorem breakOff_eq_badSyntax_iff {work : List Step} {e' : SyntaxError} :
    breakOff work e' c = .error (.failed (.badSyntax e)) c' ↔
      e' = e ∧ evaluate (perform c.globals [] work) c = .ok () c' := by
  have hrun : breakOff work e' c = (do
      evaluate (perform c.globals [] work)
      Attempt.fail (.badSyntax e') : Calculation σ Value) c := rfl
  rw [hrun]
  constructor
  · intro h
    rcases Attempt.bind_eq_error_iff.mp h with hwork | ⟨_, mid, hwork, hfail⟩
    · obtain ⟨cause, s, -, hcause, -⟩ := evaluate_eq_error_iff.mp hwork
      exact absurd hcause (map_eval_ne_badSyntax cause)
    · cases hfail
      exact ⟨rfl, hwork⟩
  · rintro ⟨rfl, hwork⟩
    exact Attempt.bind_of_ok hwork

/-- A syntax error is reported when the work before it has come to its end. -/
theorem calculate_eq_badSyntax_iff :
    calculate input c = .error (.failed (.badSyntax e)) c' ↔
      ∃ work, Statement.read input = .error ⟨work, e⟩ ∧
        evaluate (perform c.globals [] work) c = .ok () c' := by
  rw [calculate_eq_runRead]
  cases hread : Statement.read input with
  | ok s => simpa [runRead] using runStatement_ne_badSyntax s
  | error b =>
      obtain ⟨work, e'⟩ := b
      simp [runRead, breakOff_eq_badSyntax_iff, and_assoc]

/-- A syntax error marks the piece of the input that was refused, which is empty and stands at the
end exactly when more input was needed. Otherwise it depends on what stands up to the end of that
piece only: with any other text behind it, the same error is reported, and the calculator is left in
the same state. -/
theorem calculate_badSyntax (h : calculate input c = .error (.failed (.badSyntax e)) c') :
    ∃ before after, e.Marks input before after ∧
      (e.start = input.utf8ByteSize ∧ e.stop = input.utf8ByteSize ↔
        ∃ expected, e.refusal = .inputEnded expected) ∧
      ((∀ expected, e.refusal ≠ .inputEnded expected) →
        ∀ text, calculate (before ++ e.slice ++ " " ++ text) c =
          .error (.failed (.badSyntax e)) c') := by
  obtain ⟨work, hread, hwork⟩ := calculate_eq_badSyntax_iff.mp h
  cases readFrom_eq_error_iff.mp hread with
  | ended hsteps hfinish =>
      refine ⟨input, "", ⟨by simp, rfl, by simp⟩, ⟨fun _ => ⟨_, rfl⟩, fun _ => ⟨rfl, rfl⟩⟩, ?_⟩
      exact fun hrefusal => absurd rfl (hrefusal _)
  | @refused pre post t last complaint hscan hsteps hc =>
      obtain ⟨before, after, hmarks, hne, hline⟩ := exists_marks hscan hsteps hc
      have hlt := hmarks.start_lt_stop hne
      have hrefusal := (refuses_of_step hc).ne_inputEnded
      refine ⟨before, after, hmarks, iff_of_false (by omega) ?_, fun _ text => ?_⟩
      · rintro ⟨expected, hended⟩
        exact hrefusal expected hended
      · have hread' := read_of_refused hline hsteps hc text
        exact calculate_eq_badSyntax_iff.mpr ⟨_, hread', hwork⟩

/-- A bound that is too small for 64 bits is marked with its sign, behind dice that are thrown. -/
theorem calculate_badSyntax_bound :
    let input := "2d6+[1 -99999999999999999999] é"
    let e : SyntaxError := ⟨.outOfRange, 7, 28, "-99999999999999999999"⟩
    let c : Calculator Script := new ⟨1, 1, .ofList 0 [], .ofList 0 [], .ofList 0 []⟩
    ∃ c', calculate input c = .error (.failed (.badSyntax e)) c' ∧
      ∃ before after, e.Marks input before after ∧
        (e.start = input.utf8ByteSize ∧ e.stop = input.utf8ByteSize ↔
          ∃ expected, e.refusal = .inputEnded expected) ∧
        ((∀ expected, e.refusal ≠ .inputEnded expected) →
          ∀ text, calculate (before ++ e.slice ++ " " ++ text) c =
            .error (.failed (.badSyntax e)) c') := by
  intro input e c
  have hrun : Attempt.halt? (calculate input c) = some (.failed (.badSyntax e)) := by
    decide +kernel
  obtain ⟨c', hcalculate⟩ := Attempt.exists_of_halt? hrun
  exact ⟨c', hcalculate, calculate_badSyntax hcalculate⟩

end Calculator

/-! ## What would have been accepted -/

/-- The list that a refusal gives of what would have been accepted. -/
def Refusal.expected? : Refusal → Option (List Expected)
  | .wrongToken _ expected | .inputEnded expected | .noToken expected => some expected
  | .boundsTouch | .signApart | .outOfRange => none

namespace Reading

/-- A token is refused with a list only for its kind, and the list is the state's. -/
theorem Refuses.of_expected? {expected listed : List Expected} {signed : Bool} {t : Token}
    {c : Complaint} (h : Refuses expected signed t c)
    (hlist : c.refusal.expected? = some listed) :
    listed = expected ∧ .token t.kind ∉ expected ∧ c.slice = t.text := by
  cases h with
  | kind hkind =>
      refine ⟨?_, hkind, rfl⟩
      dsimp only at hlist
      split_ifs at hlist <;> exact (Option.some.inj hlist).symm
  | apart => cases hlist
  | value hrefusal => rcases hrefusal with rfl | rfl <;> cases hlist

section Listed

variable {input before word : String} {work : List Step} {e : SyntaxError} {last : State}
  {expected : List Expected} {t : Token}

/-- An error with a list marks what stands behind the tokens that lead to a state with that list. -/
theorem exists_listing (hread : Statement.read input = .error ⟨work, e⟩)
    (hlist : e.refusal.expected? = some expected) :
    ∃ before after last, e.Marks input before after ∧ Steps .start (Token.scan before) last ∧
      last.work = work ∧ last.expected = expected := by
  cases readFrom_eq_error_iff.mp hread with
  | @ended last _ hsteps hfinish =>
      refine ⟨input, "", last, ⟨by simp, rfl, by simp⟩, hsteps, rfl, ?_⟩
      rcases finish_cases last with ⟨s, hok⟩ | ⟨herror, -⟩
      · rw [hok] at hfinish
        cases hfinish
      · rw [herror] at hfinish
        exact (Except.error.inj hfinish).trans (Option.some.inj hlist)
  | refused hscan hsteps hc =>
      obtain ⟨hlisted, -, hslice⟩ := (refuses_of_step hc).of_expected? hlist
      obtain ⟨before, after, hstands⟩ := Token.exists_stands hscan
      have hpre : Token.scan before = _ := hstands.left
      exact ⟨before, after, _, marks_token hstands hslice, hpre ▸ hsteps, rfl, hlisted.symm⟩

/-- Reading goes on behind a token that is listed, so an error with a list is at the end. -/
theorem ended_of_listed (hsteps : Steps .start (Token.scan before) last)
    (hword : Token.scan word = [t]) (hmem : .token t.kind ∈ last.expected)
    (hread : Statement.read (before ++ " " ++ word) = .error ⟨work, e⟩)
    (hlist : e.refusal.expected? = some expected) :
    e.refusal = .inputEnded expected ∧ e.start = (before ++ " " ++ word).utf8ByteSize := by
  obtain ⟨later, hscan⟩ := scan_append_space before word
  rw [Token.scanFrom_of_scan hword] at hscan
  rw [Statement.read, hscan, hsteps.readFrom] at hread
  cases readFrom_eq_error_iff.mp hread with
  | ended =>
      exact ⟨congrArg Refusal.inputEnded (Option.some.inj hlist), rfl⟩
  | refused hts hlast hc =>
      obtain ⟨rfl, hts⟩ | ⟨-, ⟨⟩⟩ := List.singleton_eq_append_iff.mp hts
      obtain ⟨rfl, -⟩ := List.cons.inj hts
      cases hlast
      exact absurd hmem ((refuses_of_step hc).of_expected? hlist).2.1

/-- A token ends where its text does, or before. -/
theorem stop_le_utf8ByteSize (h : Token.scan word = [t]) : t.stop ≤ word.utf8ByteSize := by
  have hscan : Token.scan word = [] ++ t :: [] := h
  obtain ⟨before, after, hstands⟩ := Token.exists_stands hscan
  obtain rfl : word = before ++ t.text ++ after := by
    simp [← String.toList_inj, hstands.text]
  rw [Token.stop, hstands.start, String.utf8ByteSize_append, String.utf8ByteSize_append]
  omega

end Listed

/-! ## The end of the input -/

section Finish

variable {state : State} {s : Statement}

/-- The bodies of all `let` terms end with a complete expression. -/
theorem closeLets_ne_letBody (frames : List Frame) (e : Expr) (name : String) (value : Expr)
    (outer : Pending) (rest : List Frame) :
    (closeLets frames e).1 ≠ .letBody name value outer :: rest := by
  induction frames generalizing e with
  | nil => nofun
  | cons frame frames ih =>
      cases frame with
      | letBody => exact ih _
      | paren | fuzz | letValue => nofun

/-- Where the input may end behind a complete expression, that is the expression of the statement,
and nothing is open. -/
theorem complete_of_finish {ctx : Context} {e : Expr}
    (h : finishClose ctx.goal (ctx.complete e) = .ok s) : ctx.complete e = ([], s.expr) := by
  have hlets := closeLets_ne_letBody ctx.frames (ctx.pending.closeSum e)
  unfold Context.complete at h ⊢
  generalize closeLets ctx.frames (ctx.pending.closeSum e) = complete at h hlets ⊢
  obtain ⟨frames, e⟩ := complete
  cases frames with
  | nil =>
      cases hgoal : ctx.goal <;> rw [hgoal] at h <;> cases h <;> rfl
  | cons frame frames =>
      cases frame with
      | paren | fuzz | letValue => cases h
      | letBody => exact absurd rfl (hlets _ _ _ _)

/-- Nothing but the expression of a complete statement is left to be evaluated. -/
theorem work_of_finish (h : state.finish = .ok s) : state.work = [.evaluate s.expr] := by
  cases state with
  | operand ctx e => simp [State.work, complete_of_finish h, framesWork]
  | unitEnd amount unit => cases h; rfl
  | range ctx kind stage => cases stage <;> cases h
  | _ => cases h

end Finish

end Reading

namespace Calculator

variable {σ : Type} [RandomSource σ] {input : String} {e : SyntaxError} {c c' : Calculator σ}

/-- A statement runs to its end when its expression has a value. -/
theorem exists_value_of_perform {s : Statement}
    (h : evaluate (perform c.globals [] [.evaluate s.expr]) c = .ok () c') :
    ∃ value c'', runStatement s c = .ok value c'' := by
  obtain ⟨sampler, hwork, -⟩ := evaluate_eq_ok_iff.mp h
  obtain ⟨value, mid, hvalue, -⟩ := Attempt.bind_eq_ok_iff.mp hwork
  have hexpr : evalExpr s.expr c = .ok value { c with sampler := mid } :=
    evaluate_eq_ok_iff.mpr ⟨mid, hvalue, rfl⟩
  cases s with
  | evaluate | assign | quantity => exact ⟨_, _, Attempt.bind_of_ok hexpr⟩

/-- The list of a syntax error is not empty. If any token of the list stands behind the text before
the refused piece, then reading gets past it, and if the end of the input is in the list, then the
text before the refused piece has a value. -/
theorem calculate_expected {expected : List Expected}
    (h : calculate input c = .error (.failed (.badSyntax e)) c')
    (hlist : e.refusal.expected? = some expected) :
    expected ≠ [] ∧ ∃ before after, e.Marks input before after ∧
      (∀ word t, Token.scan word = [t] → .token t.kind ∈ expected →
        ∀ e' c'' expected',
          calculate (before ++ " " ++ word) c = .error (.failed (.badSyntax e')) c'' →
          e'.refusal.expected? = some expected' →
          e'.refusal = .inputEnded expected' ∧ (before ++ " ").utf8ByteSize + t.stop ≤ e'.start) ∧
      (.endOfInput ∈ expected → ∃ value c'', calculate before c = .ok value c'') := by
  obtain ⟨work, hread, hwork⟩ := calculate_eq_badSyntax_iff.mp h
  obtain ⟨before, after, last, hmarks, hsteps, rfl, rfl⟩ := exists_listing hread hlist
  refine ⟨expected_ne_nil last, before, after, hmarks, ?_, ?_⟩
  · intro word t hword hmem e' c'' expected' hcalculate hlist'
    obtain ⟨work', hread', -⟩ := calculate_eq_badSyntax_iff.mp hcalculate
    obtain ⟨hended, hstart⟩ := ended_of_listed hsteps hword hmem hread' hlist'
    have hstop := stop_le_utf8ByteSize hword
    rw [String.utf8ByteSize_append] at hstart
    exact ⟨hended, by omega⟩
  · intro hend
    rcases finish_cases last with ⟨s, hfinish⟩ | ⟨-, hnone⟩
    · have hstatement : Statement.read before = .ok s := by
        have hall := hsteps.readFrom before.utf8ByteSize []
        rw [List.append_nil] at hall
        rw [Statement.read, hall, readFrom, hfinish]
      rw [work_of_finish hfinish] at hwork
      rw [calculate_eq_runRead, hstatement]
      exact exists_value_of_perform hwork
    · exact absurd hend hnone

/-- Behind the body of a `let`, an operator or the end would have been accepted. -/
theorem calculate_expected_end :
    let input := "let x = 2d6 in x*2 é"
    let e : SyntaxError := ⟨.noToken afterExpression, 19, 21, "é"⟩
    let c : Calculator Script := new ⟨1, 1, .ofList 0 [], .ofList 0 [], .ofList 0 []⟩
    ∃ c', calculate input c = .error (.failed (.badSyntax e)) c' ∧
      e.refusal.expected? = some afterExpression ∧
      afterExpression ≠ [] ∧ ∃ before after, e.Marks input before after ∧
        (∀ word t, Token.scan word = [t] → .token t.kind ∈ afterExpression →
          ∀ e' c'' expected',
            calculate (before ++ " " ++ word) c = .error (.failed (.badSyntax e')) c'' →
            e'.refusal.expected? = some expected' →
            e'.refusal = .inputEnded expected' ∧
              (before ++ " ").utf8ByteSize + t.stop ≤ e'.start) ∧
        (.endOfInput ∈ afterExpression → ∃ value c'', calculate before c = .ok value c'') := by
  intro input e c
  have hrun : Attempt.halt? (calculate input c) = some (.failed (.badSyntax e)) := by
    decide +kernel
  obtain ⟨c', hcalculate⟩ := Attempt.exists_of_halt? hrun
  exact ⟨c', hcalculate, rfl, calculate_expected hcalculate rfl⟩

end Calculator

end Tabletop
