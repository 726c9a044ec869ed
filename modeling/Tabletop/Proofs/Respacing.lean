/-
# How much white space there is

Reading a line looks at the kind and the text of each token and at whether white space stands before
it, and never at the place of a token. Places come in only when a fault is reported. So two lines of
the same words do the same: they have the same value or halt for the same reason, with the same
draws and the same variables. If both are refused, then for the same piece of input, which may stand
in another place.
-/

import Tabletop.Proofs.OnePass
import Tabletop.Proofs.Reading.Refusal
import Tabletop.Proofs.Spacing
import Tabletop.Source.Script

namespace Tabletop

/-- The same fault in the same piece of input, which may stand in another place. -/
structure SyntaxError.Moved (e e' : SyntaxError) : Prop where
  refusal : e.refusal = e'.refusal
  slice : e.slice = e'.slice
  span : ∃ offset : Int, (e'.start : Int) = e.start + offset ∧ (e'.stop : Int) = e.stop + offset

namespace Reading

variable {α β : Type}

/-! ## The piece of input that is refused -/

/-- Only the token itself is refused, or the token together with a sign before it. -/
def Cuts (signed : Bool) (t : Token) (reading : Except Complaint α) : Prop :=
  ∀ c, reading = .error c → c.slice = t.text ∨ signed = true ∧ c.slice = "-" ++ t.text

theorem Cuts.step (state : State) (t : Token) : Cuts state.signed t (state.step t) := by
  intro c hc
  cases refuses_of_step hc with
  | kind | apart => exact .inl rfl
  | value =>
      by_cases hsigned : state.signed = true
      · exact .inr ⟨hsigned, if_pos hsigned⟩
      · exact .inl (if_neg hsigned)

/-! ## Reading without places -/

theorem Complaint.locate_moved (c : Complaint) {stop stop' : Nat}
    (h : c.slice.utf8ByteSize ≤ stop) (h' : c.slice.utf8ByteSize ≤ stop') :
    (c.locate stop).Moved (c.locate stop') where
  refusal := rfl
  slice := rfl
  span := ⟨stop' - stop, by dsimp only [locate]; omega, by dsimp only [locate]; omega⟩

/-- The tokens stand far enough to the right for what was read before them: the first one behind the
sign that belongs to it, if there is one, and the others behind a token. -/
def Follows (signed : Bool) (ts : List Token) : Prop :=
  (signed = true → ∀ t ∈ ts.head?, 0 < t.start) ∧ ∀ t ∈ ts.tail, 0 < t.start

theorem Follows.next {signed signed' : Bool} {t : Token} {ts : List Token}
    (h : Follows signed (t :: ts)) : Follows signed' ts :=
  ⟨fun _ _ ht => h.2 _ (List.mem_of_mem_head? ht), fun _ ht => h.2 _ (List.mem_of_mem_tail ht)⟩

/-- The refused piece lies in the input. -/
theorem Follows.slice_le {signed : Bool} {t : Token} {ts : List Token}
    {reading : Except Complaint α} {c : Complaint} (h : Follows signed (t :: ts))
    (hcuts : Cuts signed t reading) (hc : reading = .error c) :
    c.slice.utf8ByteSize ≤ t.stop := by
  unfold Token.stop
  rcases hcuts c hc with hslice | ⟨hsigned, hslice⟩
  · rw [hslice]
    omega
  · have hpos := h.1 hsigned t rfl
    have hsign : "-".utf8ByteSize = 1 := rfl
    rw [hslice, String.utf8ByteSize_append, hsign]
    omega

/-- A token is read by its kind, its text and the white space before it. -/
theorem step_unplaced (state : State) (t : Token) : state.step t.unplaced = state.step t :=
  rfl

theorem step_eq_of_unplaced {t t' : Token} (h : t.unplaced = t'.unplaced) (state : State) :
    state.step t = state.step t' := by
  rw [← step_unplaced state t, h, step_unplaced]

/-- Both texts were read as the same, or reading broke off at the same piece after the same work. -/
inductive ReadAlike : Except Breakoff Statement → Except Breakoff Statement → Prop
  | statement (s : Statement) : ReadAlike (.ok s) (.ok s)
  | breakoff {work : List Step} {e e' : SyntaxError} :
      e.Moved e' → ReadAlike (.error ⟨work, e⟩) (.error ⟨work, e'⟩)

/-- Tokens that differ in their places only are read alike. -/
theorem readFrom_alike (size size' : Nat) {state : State} {ts ts' : List Token}
    (h : ts.map Token.unplaced = ts'.map Token.unplaced) (hts : Follows state.signed ts)
    (hts' : Follows state.signed ts') :
    ReadAlike (readFrom size state ts) (readFrom size' state ts') := by
  induction ts generalizing state ts' with
  | nil =>
      obtain rfl : ts' = [] := by simpa using h.symm
      unfold readFrom
      cases state.finish with
      | ok s => exact .statement s
      | error expected =>
          have hsize : (size' : Int) = size + (size' - size) := by omega
          exact .breakoff ⟨rfl, rfl, _, hsize, hsize⟩
  | cons t ts ih =>
      obtain ⟨t', rest, rfl, ht, hrest⟩ := List.map_eq_cons_iff.mp h.symm
      have hstep := step_eq_of_unplaced ht.symm state
      unfold readFrom
      rw [← hstep]
      cases hread : state.step t with
      | ok next => exact ih hrest.symm hts.next hts'.next
      | error c =>
          -- Here the places come in: the refused piece must not begin before the input does.
          have hfits := hts.slice_le (Cuts.step state t) hread
          have hfits' := hts'.slice_le (Cuts.step state t') (hstep ▸ hread)
          exact .breakoff (c.locate_moved hfits hfits')

end Reading

theorem Statement.read_alike {input input' : String}
    (h : Token.words input.toList = Token.words input'.toList) :
    Reading.ReadAlike (read input) (read input') := by
  have hfollows : ∀ input, Reading.Follows false (Token.scan input) :=
    fun _ => ⟨nofun, fun _ => Token.pos_of_mem_tail⟩
  exact Reading.readFrom_alike _ _ (Token.map_unplaced_scan_eq h) (hfollows _) (hfollows _)

/-! ## Lines of input -/

namespace Calculator

variable {σ : Type}

/-- The outcomes are the same, with the same record and the same variables, but that a syntax error
may name another place. -/
inductive AlikeUpToSpan (outcome : EStateM.Result (Halt Error) (Calculator σ) Value) :
    EStateM.Result (Halt Error) (Calculator σ) Value → Prop
  | same : AlikeUpToSpan outcome outcome
  | badSyntax {e e' : SyntaxError} {c : Calculator σ} :
      outcome = .error (.failed (.badSyntax e)) c → e.Moved e' →
      AlikeUpToSpan outcome (.error (.failed (.badSyntax e')) c)

variable [RandomSource σ]

theorem breakOff_alike (work : List Reading.Step) {e e' : SyntaxError} (h : e.Moved e')
    (c : Calculator σ) : AlikeUpToSpan (breakOff work e c) (breakOff work e' c) := by
  have hrun : ∀ e, breakOff work e c = (do
      evaluate (perform c.globals [] work)
      Attempt.fail (.badSyntax e) : Calculation σ Value) c := fun _ => rfl
  cases hwork : evaluate (perform c.globals [] work) c with
  | ok _ c' =>
      have hfail : ∀ e, breakOff work e c = .error (.failed (.badSyntax e)) c' :=
        fun e => (hrun e).trans (Attempt.bind_of_ok hwork)
      rw [hfail e']
      exact .badSyntax (hfail e) h
  | error halt c' =>
      have hhalt : ∀ e, breakOff work e c = .error halt c' :=
        fun e => (hrun e).trans (Attempt.bind_of_error hwork)
      rw [hhalt, hhalt]
      exact .same

theorem runRead_alike {reading reading' : Except Reading.Breakoff Statement}
    (h : Reading.ReadAlike reading reading') (c : Calculator σ) :
    AlikeUpToSpan (runRead reading c) (runRead reading' c) := by
  cases h with
  | statement s => exact .same
  | breakoff hmoved => exact breakOff_alike _ hmoved c

/-- Two lines with the same pieces between their white space do the same. How much white space
stands between two pieces, which characters it is made of and whether any stands at the ends makes
no difference. -/
theorem calculate_respaced {input input' : String}
    (h : Token.words input.toList = Token.words input'.toList) (c : Calculator σ) :
    AlikeUpToSpan (calculate input c) (calculate input' c) := by
  rw [calculate_eq_runRead, calculate_eq_runRead]
  exact runRead_alike (Statement.read_alike h) c

/-- The upper bound is refused for its value in both, and it is named with its sign. -/
theorem calculate_respaced_range :
    let input := "2d6+[1 -99999999999999999999]"
    let input' := "\t2d6+[1 \r\n -99999999999999999999]\n"
    let script : Script := ⟨1, 1, .ofList 0 [], .ofList 0 [], .ofList 0 []⟩
    Token.words input.toList = Token.words input'.toList ∧
      AlikeUpToSpan (calculate input (new script)) (calculate input' (new script)) := by
  intro input input' script
  have hwords : Token.words input.toList = Token.words input'.toList := by decide +kernel
  exact ⟨hwords, calculate_respaced hwords _⟩

end Calculator

end Tabletop
