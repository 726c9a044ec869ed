/-
# Lines that halt without a draw

A line of input that halts has changed nothing but its sampler, and it has changed this by an
evaluation. All that an evaluation does to a source are draws, and they are on record. So a line
that halts before any draw leaves the calculator as it was, but for notes on its record. On a tape
the same can be told from the reading position, which also covers draws that the source refused.
-/

import Tabletop.Proofs.Capture
import Tabletop.Proofs.Record

namespace Tabletop

variable {σ α β : Type}

/-! ## Evaluations -/

/-- The evaluation keeps the draws on record, and it puts a draw on record before it touches the
source. -/
def OnRecord (x : Evaluation σ α) : Prop :=
  ∀ s, s.draws <+: (Attempt.final (x s)).draws ∧
    ((Attempt.final (x s)).draws = s.draws → (Attempt.final (x s)).source = s.source)

namespace OnRecord

theorem pure (a : α) : OnRecord (Pure.pure a : Evaluation σ α) :=
  fun _ => ⟨List.prefix_rfl, fun _ => rfl⟩

theorem throw (halt : Halt EvalError) : OnRecord (MonadExcept.throw halt : Evaluation σ α) :=
  fun _ => ⟨List.prefix_rfl, fun _ => rfl⟩

theorem bind {x : Evaluation σ α} {f : α → Evaluation σ β} (hx : OnRecord x)
    (hf : ∀ a, OnRecord (f a)) : OnRecord (x >>= f) := by
  intro s
  obtain ⟨hfirst, hsource⟩ := hx s
  cases hrun : x s with
  | error halt mid =>
      rw [hrun] at hfirst hsource
      rw [Attempt.bind_of_error hrun]
      exact ⟨hfirst, hsource⟩
  | ok a mid =>
      rw [hrun] at hfirst hsource
      rw [Attempt.bind_of_ok hrun]
      obtain ⟨hlater, hlast⟩ := hf a mid
      refine ⟨hfirst.trans hlater, fun hnone => ?_⟩
      -- No draw was added in all, so none was added on the way.
      have hmid : mid.draws = s.draws :=
        (hfirst.eq_of_length_le (hnone ▸ hlater.length_le)).symm
      exact (hlast (hnone.trans hmid.symm)).trans (hsource hmid)

theorem primitive (d : Draw) (act : Attempt DrawError σ α) :
    OnRecord (Sampler.primitive d act) := by
  intro s
  have hdraws : (Attempt.final (Sampler.primitive d act s)).draws = s.draws ++ [d] := by
    have hsource : Attempt.Keeps (fun _ => ([] : List Draw)) act := fun _ => rfl
    have hact : Attempt.Keeps Sampler.draws
        (Attempt.onPart Sampler.splitSource EvalError.draw act) :=
      hsource.onPart fun _ _ _ => rfl
    refine (hact ⟨s.source, s.journal.push (.draw d)⟩).trans ?_
    simp only [Sampler.draws, Array.toList_push, List.filterMap_append]
    rfl
  rw [hdraws]
  exact ⟨List.prefix_append _ _, fun hnone => absurd hnone (by simp)⟩

theorem noted (n : Note) : OnRecord (Sampler.note n : Evaluation σ Unit) := by
  intro s
  have hdraws : (Attempt.final ((Sampler.note n : Evaluation σ Unit) s)).draws = s.draws :=
    s.draws_noted n
  exact ⟨hdraws ▸ List.prefix_rfl, fun _ => rfl⟩

theorem compositional [RandomSource σ] : Compositional (σ := σ) OnRecord :=
  .of_primitive ⟨pure, throw, bind⟩ (fun d _ _ => primitive d _) fun _ => noted _

end OnRecord

/-- Whatever is evaluated, the words of a tape stay the same. -/
theorem Sampler.compositional_keeps_word :
    Compositional (Attempt.Keeps fun s : Sampler Tape => s.source.word) := by
  refine .of_primitive (Attempt.Keeps.sequential _) (fun d act hact => ?_) fun _ _ => rfl
  refine .bind (fun _ => rfl) fun _ => ?_
  exact (Tape.keeps_of_isDraw hact).onPart fun _ _ hpart => hpart

/-! ## Lines -/

namespace Calculator

/-- A line that halts leaves what an evaluation on its source has left. -/
theorem exists_evaluation_of_error [RandomSource σ] {input : String} {c c' : Calculator σ}
    {halt : Halt Error} (h : calculate input c = .error halt c') :
    ∃ (α : Type) (x : Evaluation σ α), MadeOfDraws x ∧
      c' = { c with sampler := Attempt.final (x c.sampler) } := by
  rw [calculate_eq_runRead] at h
  cases hread : Statement.read input with
  | ok s =>
      rw [hread] at h
      have hruns := runStatement_eq_iff.mp h
      cases hruns with
      | halt hhalt =>
          refine ⟨_, s.expr.eval c.globals [], fun _ hP => hP.eval c.globals [] s.expr, ?_⟩
          rw [Expr.eval_eq_error_iff.mpr hhalt]
          rfl
  | error breakoff =>
      rw [hread] at h
      refine ⟨_, perform c.globals [] breakoff.work,
        fun _ hP => hP.perform c.globals [] breakoff.work, ?_⟩
      have hrun : (do
          evaluate (perform c.globals [] breakoff.work)
          Attempt.fail (.badSyntax breakoff.error) : Calculation σ Value) c = .error halt c' := h
      rcases Attempt.bind_eq_error_iff.mp hrun with hhalt | ⟨_, mid, hdone, hfail⟩
      · obtain ⟨cause, s, hwork, -, rfl⟩ := evaluate_eq_error_iff.mp hhalt
        rw [hwork]
        rfl
      · obtain ⟨s, hwork, rfl⟩ := evaluate_eq_ok_iff.mp hdone
        cases hfail
        rw [hwork]
        rfl

/-- A calculator that halted without a draw still has the same source. -/
theorem source_of_error [RandomSource σ] {input : String} {c c' : Calculator σ} {halt : Halt Error}
    (h : calculate input c = .error halt c') (hdraws : c'.draws = c.draws) :
    c'.sampler.source = c.sampler.source := by
  obtain ⟨α, x, hx, rfl⟩ := exists_evaluation_of_error h
  exact (hx OnRecord.compositional c.sampler).2 hdraws

theorem word_of_error {input : String} {c c' : Calculator Tape} {halt : Halt Error}
    (h : calculate input c = .error halt c') :
    c'.sampler.source.word = c.sampler.source.word := by
  obtain ⟨α, x, hx, rfl⟩ := exists_evaluation_of_error h
  exact hx Sampler.compositional_keeps_word c.sampler

/-- Between `c` and `c'` the source was not asked for a draw, or none of its words was read for the
draws that it refused. -/
def Undrawn (c c' : Calculator Tape) : Prop :=
  c'.draws = c.draws ∨ c'.sampler.source.position = c.sampler.source.position

/-- A line that halts without having drawn changes nothing but the record. -/
theorem alike_of_error {input : String} {c c' : Calculator Tape} {halt : Halt Error}
    (h : calculate input c = .error halt c') (hundrawn : Undrawn c c') : c'.Alike c := by
  have hglobals := globals_of_error h
  have hinitial : c'.initial = c.initial := by
    obtain ⟨α, x, -, rfl⟩ := exists_evaluation_of_error h
    rfl
  refine ⟨?_, hglobals, hinitial⟩
  rcases hundrawn with hdraws | hposition
  · exact source_of_error h hdraws
  · have hword := word_of_error h
    obtain ⟨⟨⟨word, position⟩, journal⟩, globals, initial⟩ := c'
    cases hword
    cases hposition
    rfl

end Calculator

end Tabletop
