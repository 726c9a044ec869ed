/-
# White space between tokens

No token holds white space, and nothing behind a separator has an influence on the tokens before
it. So the tokens of a text are those of its words, the pieces between the separators. Only the
places where they stand depend on how much white space there is.
-/

import Mathlib.Data.List.TakeWhile
import Tabletop.Token.Lexer

namespace Tabletop.Token

/-! ## The longest token before a separator -/

theorem eq_of_isSeparator {c : Char} (h : isSeparator c) :
    c = ' ' ∨ c = '\t' ∨ c = '\n' ∨ c = '\r' := by
  simpa [isSeparator, or_assoc] using h

theorem not_isDigit_of_isSeparator {c : Char} (h : isSeparator c) : ¬ isDigit c := by
  rcases eq_of_isSeparator h with rfl | rfl | rfl | rfl <;> decide

theorem not_isLetter_of_isSeparator {c : Char} (h : isSeparator c) : ¬ isLetter c := by
  rcases eq_of_isSeparator h with rfl | rfl | rfl | rfl <;> decide

theorem not_isDigit_of_isLetter {c : Char} (h : isLetter c) : ¬ isDigit c := by
  intro hdigit
  have hle : 48 ≤ c.toNat ∧ c.toNat ≤ 57 := by
    simpa [isDigit, Char.le_def, UInt32.le_iff_toNat_le] using hdigit
  have hletter : (97 ≤ c.toNat ∧ c.toNat ≤ 122 ∨ 65 ≤ c.toNat ∧ c.toNat ≤ 90) ∨ c = '_' := by
    simpa [isLetter, Char.le_def, UInt32.le_iff_toNat_le] using h
  rcases hletter with hrange | rfl
  · omega
  · cases hdigit

theorem run_le_length (p : Char → Bool) (cs : List Char) : run p cs ≤ cs.length :=
  (List.takeWhile_prefix p).length_le

/-- A run ends before a character that is not in its class. -/
theorem run_append {p : Char → Bool} {c : Char} (hc : ¬ p c) (cs rest : List Char) :
    run p (cs ++ c :: rest) = run p cs := by
  rw [run, run, List.takeWhile_append]
  split
  · next hall =>
    rw [List.takeWhile_cons_of_neg hc, List.append_nil, hall]
  · rfl

theorem drop_run_append (p : Char → Bool) (cs rest : List Char) :
    (cs ++ rest).drop (run p cs) = cs.drop (run p cs) ++ rest :=
  List.drop_append_of_le_length (run_le_length p cs)

variable {sep : Char}

theorem number_append (hsep : isSeparator sep) (cs rest : List Char) :
    number (cs ++ sep :: rest) = number cs := by
  have hdigit := not_isDigit_of_isSeparator hsep
  rw [number.eq_1, number.eq_1, run_append hdigit, drop_run_append]
  cases cs.drop (run isDigit cs) with
  | nil => rcases eq_of_isSeparator hsep with rfl | rfl | rfl | rfl <;> rfl
  | cons first more =>
      by_cases hd : first = 'd'
      · subst hd
        simp only [List.cons_append, run_append hdigit]
      · by_cases hpoint : first = '.'
        · subst hpoint
          simp only [List.cons_append, run_append hdigit]
        · simp only [List.cons_append]
          split <;> split <;> simp_all

theorem word_append (hsep : isSeparator sep) (first : Char) (cs rest : List Char) :
    word first (cs ++ sep :: rest) = word first cs := by
  have hletter := not_isLetter_of_isSeparator hsep
  rw [word.eq_1, word.eq_1, run_append hletter, drop_run_append,
    List.take_append_of_le_length (run_le_length isLetter cs)]
  cases cs.drop (run isLetter cs) with
  | nil => rcases eq_of_isSeparator hsep with rfl | rfl | rfl | rfl <;> rfl
  | cons next more => rfl

/-- The longest token at a place is cut from what stands before the next separator. -/
theorem longest_append (hsep : isSeparator sep) (first : Char) (cs rest : List Char) :
    longest first (cs ++ sep :: rest) = longest first cs := by
  rw [longest, longest, number_append hsep, word_append hsep]

theorem number_le_length (cs : List Char) : (number cs).2 ≤ cs.length := by
  have hwhole := run_le_length isDigit cs
  have htail : ∀ {c : Char} {rest : List Char}, cs.drop (run isDigit cs) = c :: rest →
      run isDigit cs + 1 + run isDigit rest ≤ cs.length := by
    intro c rest hrest
    have hlength := congrArg List.length hrest
    have hrun := run_le_length isDigit rest
    rw [List.length_drop, List.length_cons] at hlength
    omega
  rw [number.eq_1]
  split
  · next rest hrest =>
    dsimp only
    split
    · exact hwhole
    · exact htail hrest
  · next rest hrest =>
    dsimp only
    split
    · exact hwhole
    · exact htail hrest
  · exact hwhole

theorem word_le_length (c : Char) (cs : List Char) : (word c cs).2 ≤ cs.length := by
  have hrun := run_le_length isLetter cs
  rw [word.eq_1]
  cases hrest : cs.drop (run isLetter cs) with
  | nil => exact hrun
  | cons next rest =>
      have hlength := congrArg List.length hrest
      rw [List.length_drop, List.length_cons] at hlength
      dsimp only [List.head?_cons]
      split <;> (try split_ifs) <;> dsimp only <;> omega

theorem longest_le_length (c : Char) (cs : List Char) : (longest c cs).2 ≤ cs.length := by
  unfold longest
  split_ifs
  · exact number_le_length cs
  · exact word_le_length c cs
  · exact Nat.zero_le _

/-- What stands behind a separator is split by itself. -/
theorem scanFrom_append (hsep : isSeparator sep) (position : Nat) (spaced : Bool)
    (cs rest : List Char) :
    ∃ later, scanFrom position spaced (cs ++ sep :: rest) =
      scanFrom position spaced cs ++ scanFrom later true rest := by
  fun_induction scanFrom position spaced cs with
  | case1 position spaced =>
      refine ⟨position + sep.utf8Size, ?_⟩
      rw [List.nil_append, scanFrom, if_pos hsep, List.nil_append]
  | case2 position spaced c cs hseparator ih =>
      obtain ⟨later, ih⟩ := ih
      refine ⟨later, ?_⟩
      rw [List.cons_append, scanFrom, if_pos hseparator, ih]
  | case3 position spaced c cs hseparator kind more hlongest text ih =>
      obtain ⟨later, ih⟩ := ih
      have hmore : more ≤ cs.length := by
        simpa [hlongest] using longest_le_length c cs
      refine ⟨later, ?_⟩
      rw [List.cons_append, scanFrom, if_neg hseparator, longest_append hsep, hlongest]
      simp only [List.take_append_of_le_length hmore, List.drop_append_of_le_length hmore]
      rw [ih]
      rfl

/-! ## Places -/

/-- The token some bytes further to the right. -/
def shift (bytes : Nat) (t : Token) : Token :=
  { t with start := t.start + bytes }

/-- The same text in another place has the same tokens, each as far from its old place. -/
theorem scanFrom_add (position bytes : Nat) (spaced : Bool) (cs : List Char) :
    scanFrom (position + bytes) spaced cs = (scanFrom position spaced cs).map (shift bytes) := by
  fun_induction scanFrom position spaced cs with
  | case1 position spaced => rw [scanFrom, List.map_nil]
  | case2 position spaced c cs hseparator ih =>
      rw [scanFrom, if_pos hseparator, Nat.add_right_comm, ih]
  | case3 position spaced c cs hseparator kind more hlongest text ih =>
      rw [scanFrom, if_neg hseparator, hlongest]
      dsimp only
      rw [Nat.add_right_comm, ih]
      rfl

/-- A text of one token is one token wherever white space stands before it. -/
theorem scanFrom_of_scan {text : String} {t : Token} (h : scan text = [t]) (position : Nat) :
    scanFrom position true text.toList = [t.shift position] := by
  rw [← Nat.zero_add position, scanFrom_add, Nat.zero_add]
  exact congrArg (List.map (shift position)) h

theorem le_start_of_mem_scanFrom {position : Nat} {spaced : Bool} {cs : List Char} {t : Token}
    (h : t ∈ scanFrom position spaced cs) : position ≤ t.start := by
  fun_induction scanFrom position spaced cs with
  | case1 => cases h
  | case2 position spaced c cs hseparator ih => exact Nat.le_trans (Nat.le_add_right _ _) (ih h)
  | case3 position spaced c cs hseparator kind more hlongest text ih =>
      rcases List.mem_cons.mp h with rfl | h
      · exact Nat.le_refl position
      · exact Nat.le_trans (Nat.le_add_right _ _) (ih h)

/-- Every token but the first stands behind another one. -/
theorem pos_of_mem_tail {position : Nat} {spaced : Bool} {cs : List Char} {t : Token}
    (h : t ∈ (scanFrom position spaced cs).tail) : 0 < t.start := by
  fun_induction scanFrom position spaced cs with
  | case1 => cases h
  | case2 position spaced c cs hseparator ih => exact ih h
  | case3 position spaced c cs hseparator kind more hlongest text ih =>
      have hle := le_start_of_mem_scanFrom h
      have hc := c.utf8Size_pos
      have htext : text.utf8ByteSize =
          c.utf8Size + (String.ofList (cs.take more)).utf8ByteSize := by
        simp [text, String.ofList_cons]
      omega

/-- The token without its place. -/
def unplaced (t : Token) : Token :=
  { t with start := 0 }

theorem map_unplaced_scanFrom (position : Nat) (spaced : Bool) (cs : List Char) :
    (scanFrom position spaced cs).map unplaced = (scanFrom 0 spaced cs).map unplaced := by
  rw [← Nat.zero_add position, scanFrom_add, List.map_map]
  rfl

/-! ## Words -/

/-- The pieces of a text between its separators. -/
def words (cs : List Char) : List (List Char) :=
  (cs.splitOnP isSeparator).filter (· ≠ [])

theorem words_append (hsep : isSeparator sep) (cs rest : List Char) :
    words (cs ++ sep :: rest) = words cs ++ words rest := by
  rw [words, List.splitOnP_append_cons cs rest hsep, List.filter_append]
  rfl

theorem words_of_forall_not {cs : List Char} (h : ∀ c ∈ cs, isSeparator c = false)
    (hne : cs ≠ []) :
    words cs = [cs] := by
  rw [words, List.splitOnP_eq_singleton h]
  simp [hne]

/-- Up to their places, the tokens of a text are those of its words. -/
theorem map_unplaced_scanFrom_eq_flatMap (position : Nat) (cs : List Char) :
    (scanFrom position true cs).map unplaced =
      (words cs).flatMap fun word => (scanFrom 0 true word).map unplaced := by
  induction hlength : cs.length using Nat.strongRecOn generalizing cs position with
  | ind n ih =>
      by_cases hsome : ∃ sep ∈ cs, isSeparator sep
      · obtain ⟨sep, hmem, hsep⟩ := hsome
        obtain ⟨before, after, rfl⟩ := List.append_of_mem hmem
        rw [List.length_append, List.length_cons] at hlength
        obtain ⟨later, happend⟩ := scanFrom_append hsep position true before after
        rw [happend, List.map_append, words_append hsep, List.flatMap_append,
          ih before.length (by omega) position before rfl,
          ih after.length (by omega) later after rfl]
      · have hnone : ∀ c ∈ cs, isSeparator c = false := by simpa using hsome
        by_cases hempty : cs = []
        · rw [hempty, scanFrom]
          rfl
        · rw [words_of_forall_not hnone hempty, List.flatMap_singleton, map_unplaced_scanFrom]

/-- Texts of the same words have the same tokens, up to their places. -/
theorem map_unplaced_scan_eq {input input' : String}
    (h : words input.toList = words input'.toList) :
    (scan input).map unplaced = (scan input').map unplaced := by
  rw [scan, scan, map_unplaced_scanFrom_eq_flatMap, map_unplaced_scanFrom_eq_flatMap, h]

end Tabletop.Token
