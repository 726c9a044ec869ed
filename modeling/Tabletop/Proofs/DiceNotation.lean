/-
# Dice literals

A dice literal is a line of input by itself: the digits of a count, a `d` and the digits of a number
of sides. It is one token, and its dice are those which the digits say. So on a source whose
integers stay in range, the line has a value, and the value lies between as many ones and as many
top faces.
-/

import Tabletop.Proofs.Dice
import Tabletop.Proofs.Record

namespace Tabletop

open Grammar

/-- The text is `NdS` in decimal digits. -/
def Grammar.IsDice (text : String) (count sides : Nat) : Prop :=
  ∃ n s : List Char, IsDigits n ∧ IsDigits s ∧ text.toList = n ++ 'd' :: s ∧
    Decimal.ofDigits n = count ∧ Decimal.ofDigits s = sides

namespace Token

theorem not_isSeparator_of_isDigit {c : Char} (h : isDigit c) : ¬ isSeparator c := by
  intro hseparator
  simp only [isSeparator, Bool.or_eq_true, beq_iff_eq] at hseparator
  rcases hseparator with ((rfl | rfl) | rfl) | rfl <;> exact absurd h (by decide)

/-! ## One token -/

/-- Digits on both sides of a `d` are one token with the digit before them. -/
theorem number_dice {cs sides : List Char} (hcs : ∀ c ∈ cs, isDigit c) (hsides : IsDigits sides) :
    number (cs ++ 'd' :: sides) = (.dice, cs.length + 1 + sides.length) := by
  have hwhole : run isDigit (cs ++ 'd' :: sides) = cs.length := by
    rw [run, List.takeWhile_append_of_pos hcs, List.takeWhile_cons_of_neg (by decide),
      List.append_nil]
  have hrun : run isDigit sides = sides.length := by
    rw [run, List.takeWhile_eq_self_iff.mpr hsides.2]
  have hsome : sides.length ≠ 0 := mt List.length_eq_zero_iff.mp hsides.1
  rw [number, hwhole, List.drop_left]
  simp only [hrun, if_neg hsome]

/-- A dice literal is a single token. -/
theorem scan_dice {text : String} {count sides : Nat} (h : IsDice text count sides) :
    scan text = [⟨.dice, text, true, 0⟩] := by
  obtain ⟨n, s, ⟨hne, hn⟩, hs, htext, -, -⟩ := h
  obtain ⟨c, cs, rfl⟩ := List.exists_cons_of_ne_nil hne
  obtain ⟨hc, hcs⟩ := List.forall_mem_cons.mp hn
  have hlongest : longest c (cs ++ 'd' :: s) = (.dice, cs.length + 1 + s.length) := by
    rw [longest, if_pos hc, number_dice hcs hs]
  have hlength : (cs ++ 'd' :: s).length ≤ cs.length + 1 + s.length := by
    rw [List.length_append, List.length_cons]
    omega
  have htoken : String.ofList (c :: (cs ++ 'd' :: s)) = text := by
    rw [← List.cons_append, ← htext, String.ofList_toList]
  rw [scan, htext, List.cons_append, scanFrom, if_neg (not_isSeparator_of_isDigit hc), hlongest]
  dsimp only
  rw [List.take_of_length_le hlength, List.drop_of_length_le hlength, scanFrom, htoken]

/-- Every dice token is a dice literal. -/
theorem exists_isDice {input : String} {t : Token} (h : t ∈ scan input) (hkind : t.kind = .dice) :
    ∃ count sides, IsDice t.text count sides := by
  obtain ⟨c, rest, hlongest, htext⟩ := exists_longest_of_mem_scanFrom h
  rw [hkind] at hlongest
  have hdice : TokenKind.dice ∈ digitKinds := by decide
  obtain ⟨hdigit, hnumber⟩ := longest_of_digitKinds (hlongest ▸ hdice)
  rw [hnumber] at hlongest htext
  rcases number_cases rest with ⟨-, sides, hsides, htake⟩ | ⟨hinteger, -⟩ | ⟨hfloat, -⟩
  · refine ⟨_, _, _, sides, .cons_takeWhile hdigit rest, hsides, ?_, rfl, rfl⟩
    rw [htext, String.toList_ofList, htake, List.cons_append]
  · rw [hinteger] at hlongest
    cases hlongest
  · rw [hfloat] at hlongest
    cases hlongest

end Token

/-! ## The dice of a literal -/

/-- A dice literal is read as the dice that its digits say, without a modifier, and as no others. -/
theorem DiceSpec.read_dice_eq_ok_iff {text : String} {count sides : Nat}
    (h : IsDice text count sides) {spec : DiceSpec} :
    read text.toList = .ok spec ↔
      spec.count.toNat = count ∧ spec.sides.toNat = sides ∧ spec.modifier = 0 := by
  obtain ⟨n, s, hn, hs, htext, rfl, rfl⟩ := h
  rw [← List.append_nil s] at htext
  have htrim : Text.trim text.toList = n ++ 'd' :: (s ++ []) := by
    rw [htext, Text.trim_eq_self]
    exact not_isBlank_notation (fun c hc => .inr (hn.2 c hc)) hs.2 nofun
  have hd : ∀ c ∈ n, c ≠ 'd' := by
    rintro c hc rfl
    exact absurd (hn.2 'd' hc) (by decide)
  have hsign : ∀ c ∈ s, ¬ isSign c := fun c hc => not_isSign_of_isDigit (hs.2 c hc)
  have hcount : IsCount n spec.count.toNat ↔ spec.count.toNat = Decimal.ofDigits n := by
    constructor
    · rintro ⟨digits, -, rfl | rfl, hvalue⟩
      · exact hvalue.symm
      · exact absurd (hn.2 '+' List.mem_cons_self) (by decide)
    · exact fun hvalue => ⟨n, hn, .inl rfl, hvalue.symm⟩
  have hsides : IsSides s spec.sides.toNat ↔ spec.sides.toNat = Decimal.ofDigits s := by
    constructor
    · rintro (⟨hempty, -⟩ | ⟨-, hvalue⟩)
      · exact absurd hempty hs.1
      · exact hvalue.symm
    · exact fun hvalue => .inr ⟨hs, hvalue.symm⟩
  have hmodifier : IsModifier [] spec.modifier.toInt ↔ spec.modifier = 0 := by
    rw [isModifier_nil_iff, ← Int64.toInt_inj, Int64.toInt_zero]
  rw [read_eq_ok_iff_parts htrim hd hsign nofun, hcount, hsides, hmodifier]

theorem DiceSpec.read_dice {text : String} {count sides : Nat} (h : IsDice text count sides)
    (hcount : count < UInt32.size) (hsides : sides < UInt32.size) :
    read text.toList = .ok ⟨UInt32.ofNat count, UInt32.ofNat sides, 0⟩ :=
  (read_dice_eq_ok_iff h).mpr
    ⟨UInt32.toNat_ofNat_of_lt hcount, UInt32.toNat_ofNat_of_lt hsides, rfl⟩

/-- A dice literal stands for its dice. -/
theorem sentence_dice {text : String} {count sides : Nat} (h : IsDice text count sides) :
    Sentence NoOperator (Token.scan text) (.evaluate (.dice text)) := by
  rw [Token.scan_dice h]
  exact .evaluate (.ofFactor (.ofTerm (.dice rfl)))

/-- The value of a dice literal lies between as many ones and as many top faces. -/
theorem Calculator.returns_number_dice {σ : Type} [RandomSource σ] (hσ : RandomSource.Bounded σ)
    {text : String} {count sides : Nat} (h : IsDice text count sides) (hcount : 0 < count)
    (hlimit : count ≤ Dice.limit) (hsides : 0 < sides) (hsize : sides < UInt32.size) :
    (number text : Calculation σ Number).Returns fun x =>
      ∃ n : Int64, x = .int n ∧ count ≤ n.toInt ∧ n.toInt ≤ count * sides := by
  have hcount32 : count < UInt32.size := Nat.lt_of_le_of_lt hlimit (by decide)
  have hcountNat : (UInt32.ofNat count).toNat = count := UInt32.toNat_ofNat_of_lt hcount32
  have hsidesNat : (UInt32.ofNat sides).toNat = sides := UInt32.toNat_ofNat_of_lt hsize
  have hsum := Dice.returns_sum_plain (UInt32.ofNat count) (UInt32.ofNat sides) hσ
  rw [hcountNat, hsidesNat] at hsum
  intro c
  obtain ⟨n, s, hthrown, hrange⟩ := hsum hcount hlimit hsides c.sampler
  have hruns := Runs.evaluate (.dice (DiceSpec.read_dice h hcount32 hsize) hthrown)
  have hvalue := (calculate_of_sentence (sentence_dice h)).trans (runStatement_of_runs hruns)
  exact ⟨.int n, _, number_eq_ok_iff.mpr hvalue, n, rfl, hrange⟩

end Tabletop
