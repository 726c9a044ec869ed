/-
# What a line of a session leaves behind

A session is the row of its answers with a prompt before each of them. A line of input that fails
before it draws anything is only seen where it stands: without it the session would give the same
answers to all other lines, and write one prompt less. After a blank line nothing is read at all.
-/

import Tabletop.CommandLine
import Tabletop.Proofs.Text
import Tabletop.Proofs.Undrawn

namespace Tabletop

namespace Console

/-! ## Blank lines -/

/-- There is nothing but blanks on the line. -/
def IsBlank (line : String) : Prop :=
  Text.AllBlank line.toList

instance (line : String) : Decidable (IsBlank line) :=
  List.decidableBAll (fun c => Text.isBlank c) line.toList

theorem isEmpty_trimLine_iff {line : String} : (trimLine line).isEmpty ↔ IsBlank line := by
  rw [String.isEmpty_iff, trimLine, ← String.toList_eq_nil_iff, String.toList_ofList]
  exact Text.trim_eq_nil_iff

/-! ## Answers -/

/-- What a session writes if these are its answers: a prompt before each of them, and one more. -/
def written : List Transcript → Transcript
  | [] => ⟨prompt, ""⟩
  | said :: later => ⟨prompt ++ said.out ++ (written later).out, said.err ++ (written later).err⟩

/-- An answer more or less changes nothing of what is written before and after it. -/
theorem exists_written_append (said : List Transcript) :
    ∃ out err, ∀ later,
      written (said ++ later) = ⟨out ++ (written later).out, err ++ (written later).err⟩ := by
  induction said with
  | nil => exact ⟨"", "", fun later => by simp⟩
  | cons first said ih =>
      obtain ⟨out, err, ih⟩ := ih
      refine ⟨prompt ++ first.out ++ out, first.err ++ err, fun later => ?_⟩
      rw [List.cons_append, written, ih]
      simp only [String.append_assoc]

variable {σ : Type} [RandomSource σ] (catalog : Catalog)

/-- The answers of a session, up to the first blank line. -/
def replies : Calculator σ → List String → List Transcript
  | _, [] => []
  | c, line :: lines =>
      if IsBlank line then []
      else
        (reply catalog c (trimLine line)).1 :: replies (reply catalog c (trimLine line)).2 lines

/-- The calculator after some lines have been answered. -/
def after (c : Calculator σ) (lines : List String) : Calculator σ :=
  lines.foldl (fun c line => (reply catalog c (trimLine line)).2) c

variable {catalog} {c d : Calculator σ} {line : String} {lines earlier : List String}

theorem after_cons :
    after catalog c (line :: lines) = after catalog (reply catalog c (trimLine line)).2 lines :=
  List.foldl_cons ..

theorem replies_cons_blank (h : IsBlank line) : replies catalog c (line :: lines) = [] :=
  if_pos h

theorem replies_cons (h : ¬ IsBlank line) :
    replies catalog c (line :: lines) =
      (reply catalog c (trimLine line)).1 ::
        replies catalog (reply catalog c (trimLine line)).2 lines :=
  if_neg h

theorem turn_blank (h : IsBlank line) : turn catalog c line = none :=
  if_pos (isEmpty_trimLine_iff.mpr h)

theorem turn_some (h : ¬ IsBlank line) :
    turn catalog c line = some (reply catalog c (trimLine line)) :=
  if_neg (mt isEmpty_trimLine_iff.mp h)

theorem session_eq (c : Calculator σ) (lines : List String) :
    session catalog c lines = written (replies catalog c lines) := by
  induction lines generalizing c with
  | nil => rfl
  | cons line lines ih =>
      rw [session]
      by_cases h : IsBlank line
      · rw [turn_blank h, replies_cons_blank h, written]
      · rw [turn_some h, replies_cons h, written, ← ih]

theorem replies_append (h : ∀ line ∈ earlier, ¬ IsBlank line) :
    replies catalog c (earlier ++ lines) =
      replies catalog c earlier ++ replies catalog (after catalog c earlier) lines := by
  induction earlier generalizing c with
  | nil => rfl
  | cons line earlier ih =>
      obtain ⟨hline, hearlier⟩ := List.forall_mem_cons.mp h
      rw [List.cons_append, replies_cons hline, replies_cons hline, ih hearlier, after_cons,
        List.cons_append]

/-- Nothing is answered from a blank line on. -/
theorem replies_append_blank (h : IsBlank line) :
    replies catalog c (earlier ++ line :: lines) = replies catalog c earlier := by
  induction earlier generalizing c with
  | nil => exact replies_cons_blank h
  | cons first earlier ih =>
      rw [List.cons_append]
      by_cases hfirst : IsBlank first
      · rw [replies_cons_blank hfirst, replies_cons_blank hfirst]
      · rw [replies_cons hfirst, replies_cons hfirst, ih]

theorem length_replies (h : ∀ line ∈ earlier, ¬ IsBlank line) :
    (replies catalog c earlier).length = earlier.length := by
  induction earlier generalizing c with
  | nil => rfl
  | cons line earlier ih =>
      obtain ⟨hline, hearlier⟩ := List.forall_mem_cons.mp h
      rw [replies_cons hline, List.length_cons, List.length_cons, ih hearlier]

/-! ## The record makes no difference -/

section Twins

open Calculator

variable {T : σ → σ → Prop} {j k : Array Event} {initial : σ}
  (hT : RandomSource.Bisimulation T)
include hT

theorem answer_respects (catalog : Catalog) (line : String) :
    Attempt.Respects (Twins T j k initial) (answer catalog line : Calculation σ String) := by
  unfold answer
  split
  · exact (Twins.catalog_resolve_respects hT _ _ _).bind fun _ => .pure _
  · exact ((Twins.linewise hT).calculate _).bind fun _ => .pure _

theorem reply_same (h : Twins T j k initial c d) (line : String) :
    (reply catalog c line).1 = (reply catalog d line).1 ∧
      Twins T j k initial (reply catalog c line).2 (reply catalog d line).2 := by
  have hanswer := answer_respects hT catalog line c d h
  unfold reply
  generalize answer catalog line c = outcome at hanswer ⊢
  generalize answer catalog line d = outcome' at hanswer ⊢
  cases hanswer with
  | ok hnext => exact ⟨rfl, hnext⟩
  | @error halt _ _ hnext =>
      cases halt with
      | failed e => exact ⟨rfl, hnext⟩
      | unfinished => exact ⟨rfl, hnext⟩

/-- By induction on the lines: twins give the same answers. -/
theorem replies_same (h : Twins T j k initial c d) (lines : List String) :
    replies catalog c lines = replies catalog d lines := by
  induction lines generalizing c d with
  | nil => rfl
  | cons line lines ih =>
      by_cases hline : IsBlank line
      · rw [replies_cons_blank hline, replies_cons_blank hline]
      · obtain ⟨hsaid, hnext⟩ := reply_same hT h (trimLine line)
        rw [replies_cons hline, replies_cons hline, hsaid, ih hnext]

end Twins

/-- What is on record does not change the answers. -/
theorem replies_alike (h : c.Alike d) (lines : List String) :
    replies catalog c lines = replies catalog d lines := by
  have htwins : Calculator.Twins Eq c.sampler.journal d.sampler.journal d.initial c d :=
    ⟨⟨h.source, #[], Array.append_empty.symm, Array.append_empty.symm⟩, h.globals, h.initial, rfl⟩
  exact replies_same .eq htwins lines

/-! ## Lines that fail -/

/-- On the calculator the line is input that fails, and nothing is drawn for it. -/
structure FailsUndrawn (c : Calculator Tape) (line : String) (e : Error) : Prop where
  some : ¬ IsBlank line
  input : ¬ rollWord.toList <+: (trimLine line).toList
  fails : ∃ c', Calculator.calculate (trimLine line) c = .error (.failed e) c' ∧
    Calculator.Undrawn c c'

namespace FailsUndrawn

variable {c : Calculator Tape} {line : String} {e : Error} (h : FailsUndrawn c line e)
include h

/-- The line is answered with a complaint, and only the record remembers it. -/
theorem exists_reply (catalog : Catalog) :
    ∃ c', reply catalog c (trimLine line) = (⟨"", complaint e⟩, c') ∧ c'.Alike c := by
  obtain ⟨c', hfails, hundrawn⟩ := h.fails
  refine ⟨c', ?_, Calculator.alike_of_error hfails hundrawn⟩
  have hanswer : answer catalog (trimLine line) c = .error (.failed e) c' := by
    rw [answer, if_neg (mt List.isPrefixOf_iff_prefix.mp h.input)]
    exact Attempt.bind_of_error hfails
  rw [reply, hanswer]

/-- Among the answers of a session there is one complaint more, and no other answer changes. -/
theorem replies_cons_eq (lines : List String) :
    replies catalog c (line :: lines) = ⟨"", complaint e⟩ :: replies catalog c lines := by
  obtain ⟨c', hreply, halike⟩ := h.exists_reply catalog
  rw [replies_cons h.some, hreply, replies_alike halike]

end FailsUndrawn

end Console

/-! ## Whole runs -/

namespace CommandLine

open Console

variable {args : List String} {content : String → Option ByteArray} {options : Options}
  {catalog : Catalog}

theorem run_eq (hparse : parse args = .ok (.run options))
    (hprepare : prepare options content = .ok catalog) (entropy : UInt64) (input : List String) :
    run args content entropy input =
      ⟨0, written (replies catalog (calculator options entropy) input)⟩ := by
  have hstart : start args content = .session catalog options := by
    simp only [start, hparse, hprepare]
  rw [run, hstart]
  dsimp only
  rw [session_eq]

/-- Inputs that make the same session, whatever the tables and the calculator are, make the same
run. -/
theorem run_congr {entropy : UInt64} {input input' : List String}
    (h : ∀ catalog (c : Calculator Tape), session catalog c input = session catalog c input') :
    run args content entropy input = run args content entropy input' := by
  simp only [run, h]

/-- A line of input that fails before anything is drawn changes no other answer of the session and
adds one prompt to what is written. A blank line is like the end of the input. -/
theorem run_transparent (args : List String) (content : String → Option ByteArray)
    (entropy : UInt64) (before after : List String) (line : String) :
    (∀ options catalog e, parse args = .ok (.run options) →
      prepare options content = .ok catalog → (∀ earlier ∈ before, ¬ IsBlank earlier) →
      let c := Console.after catalog (calculator options entropy) before
      FailsUndrawn c line e →
      let said := replies catalog (calculator options entropy) before
      let later := replies catalog c after
      let whole := run args content entropy (before ++ line :: after)
      let without := run args content entropy (before ++ after)
      said.length = before.length ∧
      whole = ⟨0, written (said ++ ⟨"", Console.complaint e⟩ :: later)⟩ ∧
      without = ⟨0, written (said ++ later)⟩ ∧
      ∃ out err,
        whole.written = ⟨out ++ prompt ++ (written later).out,
          err ++ Console.complaint e ++ (written later).err⟩ ∧
        without.written = ⟨out ++ (written later).out, err ++ (written later).err⟩) ∧
    (IsBlank line →
      run args content entropy (before ++ line :: after) = run args content entropy before) := by
  constructor
  · intro options catalog e hparse hprepare hbefore c hfails said later whole without
    have hwhole : whole = ⟨0, written (said ++ ⟨"", Console.complaint e⟩ :: later)⟩ := by
      rw [← hfails.replies_cons_eq, ← replies_append hbefore]
      exact run_eq hparse hprepare entropy _
    have hwithout : without = ⟨0, written (said ++ later)⟩ := by
      rw [← replies_append hbefore]
      exact run_eq hparse hprepare entropy _
    obtain ⟨out, err, hwritten⟩ := exists_written_append said
    refine ⟨length_replies hbefore, hwhole, hwithout, out, err, ?_, ?_⟩
    · rw [hwhole, hwritten, written]
      simp only [String.append_empty, String.append_assoc]
    · rw [hwithout, hwritten]
  · intro hblank
    refine run_congr fun catalog c => ?_
    rw [session_eq, session_eq, replies_append_blank hblank]

/-- Between an assignment and its use, a sum breaks off at an empty range, before its dice. -/
theorem run_transparent_range :
    let args := ["--seed", "7"]
    let content : String → Option ByteArray := fun _ => none
    let options : Options := ⟨[], some 7, none⟩
    let c := Console.after (.empty none) (calculator options 0) ["set gold 5"]
    let e : Error := .eval (.draw (.emptyRange 6 1))
    parse args = .ok (.run options) ∧ prepare options content = .ok (.empty none) ∧
    FailsUndrawn c "[6 1] + 2d6" e ∧
    run args content 0 ["set gold 5", "[6 1] + 2d6", "gold"] =
      ⟨0, "> 5\n> > 5\n> ", "Error: empty range for random integer: [6 1]\n"⟩ ∧
    run args content 0 ["set gold 5", "gold"] = ⟨0, "> 5\n> 5\n> ", ""⟩ := by
  intro args content options c e
  have hparse : parse args = .ok (.run options) := by decide +kernel
  have hprepare : prepare options content = .ok (.empty none) := rfl
  have hbefore : ∀ earlier ∈ ["set gold 5"], ¬ IsBlank earlier := by decide +kernel
  have hhalt : Attempt.halt? (Calculator.calculate (trimLine "[6 1] + 2d6") c) =
      some (.failed e) := by decide +kernel
  have hfails : FailsUndrawn c "[6 1] + 2d6" e := by
    have hposition :
        (Attempt.final (Calculator.calculate (trimLine "[6 1] + 2d6") c)).sampler.source.position =
          c.sampler.source.position := by decide +kernel
    obtain ⟨c', hc'⟩ := Attempt.exists_of_halt? hhalt
    rw [hc'] at hposition
    exact ⟨by decide +kernel, by decide +kernel, c', hc', .inr hposition⟩
  obtain ⟨-, hwhole, hwithout, -⟩ :=
    (run_transparent args content 0 ["set gold 5"] ["gold"] "[6 1] + 2d6").1 options _ e hparse
      hprepare hbefore hfails
  exact ⟨hparse, hprepare, hfails, hwhole.trans (by decide +kernel),
    hwithout.trans (by decide +kernel)⟩

end CommandLine

end Tabletop
