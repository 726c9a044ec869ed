/-
# Blanks around a text

Trimming takes away the blanks at both ends of a text and nothing else. A text that holds no blank
is found again when it is surrounded by blanks, and nothing is found exactly where there is nothing
but blanks.
-/

import Mathlib.Data.List.TakeWhile
import Tabletop.Text

namespace Tabletop.Text

/-- Nothing but blanks. -/
def AllBlank (cs : List Char) : Prop :=
  ∀ c ∈ cs, isBlank c

/-- What trimming leaves was surrounded by blanks. -/
theorem exists_trim (cs : List Char) :
    ∃ before after, AllBlank before ∧ AllBlank after ∧ cs = before ++ trim cs ++ after := by
  have hstart : cs.takeWhile isBlank ++ trimStart cs = cs := List.takeWhile_append_dropWhile
  have hend : (trimStart cs).reverse.takeWhile isBlank ++ (trim cs).reverse =
      (trimStart cs).reverse := by
    rw [trim, trimEnd, List.reverse_reverse, List.takeWhile_append_dropWhile]
  refine ⟨cs.takeWhile isBlank, ((trimStart cs).reverse.takeWhile isBlank).reverse, ?_, ?_, ?_⟩
  · exact fun c hc => List.mem_takeWhile_imp hc
  · exact fun c hc => List.mem_takeWhile_imp (List.mem_reverse.mp hc)
  · have hback := congrArg List.reverse hend
    rw [List.reverse_append, List.reverse_reverse, List.reverse_reverse] at hback
    rw [List.append_assoc, hback, hstart]

/-- A text without blanks is what is left of it among blanks. -/
theorem trim_surrounded {before core after : List Char} (hbefore : AllBlank before)
    (hcore : ∀ c ∈ core, ¬ isBlank c) (hafter : AllBlank after) :
    trim (before ++ core ++ after) = core := by
  have hstart : trimStart (before ++ core ++ after) = (core ++ after).dropWhile isBlank := by
    rw [List.append_assoc, trimStart, List.dropWhile_append_of_pos hbefore]
  cases core with
  | nil =>
      have hnone : after.dropWhile isBlank = [] := List.dropWhile_eq_nil_iff.mpr hafter
      rw [trim, hstart, List.nil_append, hnone]
      rfl
  | cons c cs =>
      have hreverse : ∀ d ∈ after.reverse, isBlank d := fun d hd =>
        hafter d (List.mem_reverse.mp hd)
      have hlast : (c :: cs).reverse.dropWhile isBlank = (c :: cs).reverse := by
        apply List.dropWhile_eq_self_iff.mpr
        exact fun hpos => hcore _ (List.mem_reverse.mp (List.getElem_mem hpos))
      rw [trim, hstart, List.cons_append,
        List.dropWhile_cons_of_neg (hcore c List.mem_cons_self), ← List.cons_append, trimEnd,
        List.reverse_append, List.dropWhile_append_of_pos hreverse, hlast, List.reverse_reverse]

/-- The text without blanks at its ends is the text itself if it has none at all. -/
theorem trim_eq_self {cs : List Char} (h : ∀ c ∈ cs, ¬ isBlank c) : trim cs = cs := by
  have hsurrounded : trim ([] ++ cs ++ []) = cs := trim_surrounded nofun h nofun
  rwa [List.nil_append, List.append_nil] at hsurrounded

theorem trim_eq_nil_iff {cs : List Char} : trim cs = [] ↔ AllBlank cs := by
  constructor
  · intro h
    obtain ⟨before, after, hbefore, hafter, hcs⟩ := exists_trim cs
    rw [h, List.append_nil] at hcs
    rw [hcs]
    intro c hc
    rcases List.mem_append.mp hc with hc | hc
    · exact hbefore c hc
    · exact hafter c hc
  · intro h
    have hsurrounded : trim (cs ++ [] ++ []) = [] := trim_surrounded h nofun nofun
    rwa [List.append_nil, List.append_nil] at hsurrounded

end Tabletop.Text
