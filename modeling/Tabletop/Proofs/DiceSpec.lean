/-
# Dice notation, read and written

Dice notation is a count, a `d`, sides and a modifier, with blanks around all of it. The count is
digits, perhaps with a plus sign before them. The sides are digits and default to six. The modifier
is a sign and digits, where the digits may be left out, and so may the sign together with them. The
reader accepts these texts and no others.

What is written for dice is notation for them, with one exception. The reader takes the digits of a
modifier for a number of their own, before it looks at the sign, and the digits of the least 64-bit
integer are one more than such a number may be.
-/

import Mathlib.Data.List.Basic
import Tabletop.DiceSpec
import Tabletop.Proofs.Grammar.Numeral
import Tabletop.Proofs.Text

namespace Tabletop

open Grammar

/-! ## Digits -/

namespace Text

theorem not_isBlank_of_isDigit {c : Char} (h : Token.isDigit c) : ¬ isBlank c := by
  have hrange : 48 ≤ c.toNat ∧ c.toNat ≤ 57 := by
    simpa [Token.isDigit, Char.le_def, UInt32.le_iff_toNat_le] using h
  simp only [isBlank, Bool.or_eq_true, Bool.and_eq_true, decide_eq_true_eq, beq_iff_eq]
  omega

theorem isDigit_of_digit? {c : Char} {d : Nat} (h : digit? c = some d) : Token.isDigit c := by
  unfold digit? at h
  split_ifs at h with hrange
  simpa [Token.isDigit] using hrange

/-- Nothing but digits is read as digits. -/
theorem isDigit_of_readDigits {limit value n : Nat} {overflow : IntegerError} {cs : List Char}
    (h : readDigits limit overflow value cs = .ok n) : ∀ c ∈ cs, Token.isDigit c := by
  induction cs generalizing value with
  | nil => nofun
  | cons c cs ih =>
      rw [readDigits] at h
      cases hdigit : digit? c with
      | none => rw [hdigit] at h; cases h
      | some d =>
          rw [hdigit] at h
          dsimp only at h
          split_ifs at h
          exact List.forall_mem_cons.mpr ⟨isDigit_of_digit? hdigit, ih h⟩

/-- A number up to a limit is read from its digits, with or without a plus sign before them. -/
theorem readNatural_eq_ok_iff {limit n : Nat} {cs : List Char} :
    readNatural limit cs = .ok n ↔
      ∃ digits, IsDigits digits ∧ (cs = digits ∨ cs = '+' :: digits) ∧
        Decimal.ofDigits digits = n ∧ n ≤ limit := by
  have hread {digits : List Char} (hdigits : ∀ c ∈ digits, Token.isDigit c) :
      readDigits limit .tooLarge 0 digits = .ok n ↔
        Decimal.ofDigits digits = n ∧ n ≤ limit := by
    rw [readDigits_eq hdigits (Nat.zero_le _), ← Decimal.ofDigits_eq]
    constructor
    · intro h
      split_ifs at h with hle
      cases h
      exact ⟨rfl, hle⟩
    · rintro ⟨rfl, hle⟩
      exact if_pos hle
  constructor
  · intro h
    unfold readNatural at h
    split at h
    · cases h
    · next digits =>
      unfold readSigned at h
      split_ifs at h with hempty
      have hdigits := isDigit_of_readDigits h
      exact ⟨digits, ⟨by simpa using hempty, hdigits⟩, .inr rfl, (hread hdigits).mp h⟩
    · next hne _ =>
      have hdigits := isDigit_of_readDigits h
      exact ⟨_, ⟨hne, hdigits⟩, .inl rfl, (hread hdigits).mp h⟩
  · rintro ⟨digits, hdigits, rfl | rfl, hn, hle⟩
    · rw [readNatural_digits hdigits, hn, if_pos hle]
    · rw [readNatural, readSigned, if_neg (by simpa using hdigits.1)]
      exact (hread hdigits.2).mpr ⟨hn, hle⟩

/-- The digits that are written for a number are digits, and read as that number. -/
theorem isDigits_toDigits (n : Nat) :
    IsDigits (Nat.toDigits 10 n) ∧ Decimal.ofDigits (Nat.toDigits 10 n) = n := by
  have hdigit : ∀ c ∈ Nat.toDigits 10 n, c.isDigit := fun c hc =>
    Nat.isDigit_of_mem_toDigits (by decide) (by decide) hc
  refine ⟨⟨Nat.toDigits_ne_nil, fun c hc => ?_⟩, ?_⟩
  · simpa [Token.isDigit, Char.isDigit, Char.le_def] using hdigit c hc
  · calc Decimal.ofDigits (Nat.toDigits 10 n)
      _ = Nat.ofDigitChars 10 (Nat.toDigits 10 n) 0 :=
        List.foldl_ext _ _ _ fun value c hc => by rw [if_pos (hdigit c hc)]
      _ = n := Nat.ofDigitChars_toDigits (by decide) (by decide)

end Text

namespace DiceSpec

theorem isEmpty_iff (spec : DiceSpec) :
    spec.isEmpty ↔ spec.count.toNat = 0 ∨ spec.sides.toNat = 0 := by
  simp only [isEmpty, Bool.or_eq_true, beq_iff_eq, ← UInt32.toNat_inj, UInt32.toNat_zero]

theorem not_isEmpty_iff (spec : DiceSpec) :
    ¬ spec.isEmpty ↔ 0 < spec.count.toNat ∧ 0 < spec.sides.toNat := by
  rw [isEmpty_iff, not_or, Nat.pos_iff_ne_zero, Nat.pos_iff_ne_zero]

/-! ## The notation -/

/-- At least one digit, and perhaps a plus sign before the digits. -/
def IsCount (text : List Char) (n : Nat) : Prop :=
  ∃ digits, IsDigits digits ∧ (text = digits ∨ text = '+' :: digits) ∧
    Decimal.ofDigits digits = n

/-- Digits, or nothing, which stands for six. -/
def IsSides (text : List Char) (n : Nat) : Prop :=
  text = [] ∧ n = 6 ∨ IsDigits text ∧ Decimal.ofDigits text = n

/-- A sign and digits behind it, if any, or nothing at all. The number that the digits write is a
64-bit integer by itself, also where the sign is a minus. -/
inductive IsModifier : List Char → Int → Prop
  | omitted : IsModifier [] 0
  | plus {digits : List Char} :
      (∀ c ∈ digits, Token.isDigit c) → (Decimal.ofDigits digits : Int) ≤ Int64.maxValue.toInt →
      IsModifier ('+' :: digits) (Decimal.ofDigits digits)
  | minus {digits : List Char} :
      (∀ c ∈ digits, Token.isDigit c) → (Decimal.ofDigits digits : Int) ≤ Int64.maxValue.toInt →
      IsModifier ('-' :: digits) (-(Decimal.ofDigits digits : Int))

/-- The text is dice notation for the dice, with blanks around it at most. -/
def Writes (text : List Char) (spec : DiceSpec) : Prop :=
  ∃ before count sides modifier after,
    text = before ++ (count ++ 'd' :: (sides ++ modifier)) ++ after ∧
    Text.AllBlank before ∧ Text.AllBlank after ∧ IsCount count spec.count.toNat ∧
    IsSides sides spec.sides.toNat ∧ IsModifier modifier spec.modifier.toInt

/-! ## Reading the parts -/

section Parts

variable {text : List Char}

theorem readCount_eq_ok_iff {n : UInt32} : readCount text = .ok n ↔ IsCount text n.toNat := by
  have hsize : UInt32.size = 2 ^ 32 := rfl
  have hn := n.toNat_lt
  unfold readCount
  constructor
  · intro h
    split_ifs at h
    split at h
    · next m hread =>
      obtain ⟨digits, hdigits, htext, rfl, hle⟩ := Text.readNatural_eq_ok_iff.mp hread
      cases h
      exact ⟨digits, hdigits, htext, (UInt32.toNat_ofNat_of_lt (by omega)).symm⟩
    · cases h
  · rintro ⟨digits, hdigits, htext, hvalue⟩
    have hread : Text.readNatural (UInt32.size - 1) text = .ok n.toNat :=
      Text.readNatural_eq_ok_iff.mpr ⟨digits, hdigits, htext, hvalue, by omega⟩
    have hne : text.isEmpty = false := by
      rcases htext with rfl | rfl
      · simpa using hdigits.1
      · rfl
    rw [hne, hread]
    exact congrArg Except.ok UInt32.ofNat_toNat

theorem readSides_eq_ok_iff {n : UInt32} (hsign : ∀ c ∈ text, ¬ isSign c) :
    readSides text = .ok n ↔ IsSides text n.toNat := by
  have hsize : UInt32.size = 2 ^ 32 := rfl
  have hn := n.toNat_lt
  have hplus : ∀ digits, text ≠ '+' :: digits := by
    rintro digits rfl
    exact hsign '+' List.mem_cons_self rfl
  unfold readSides
  constructor
  · intro h
    split_ifs at h with hempty
    · cases h
      exact .inl ⟨by simpa using hempty, rfl⟩
    · split at h
      · next m hread =>
        obtain ⟨digits, hdigits, htext, rfl, hle⟩ := Text.readNatural_eq_ok_iff.mp hread
        obtain rfl := htext.resolve_right (hplus digits)
        cases h
        exact .inr ⟨hdigits, (UInt32.toNat_ofNat_of_lt (by omega)).symm⟩
      · cases h
  · rintro (⟨rfl, hvalue⟩ | ⟨hdigits, hvalue⟩)
    · have hsix : n = defaultSides := UInt32.toNat_inj.mp hvalue
      rw [hsix]
      rfl
    · have hread : Text.readNatural (UInt32.size - 1) text = .ok n.toNat :=
        Text.readNatural_eq_ok_iff.mpr ⟨text, hdigits, .inl rfl, hvalue, by omega⟩
      rw [if_neg (by simpa using hdigits.1), hread]
      exact congrArg Except.ok UInt32.ofNat_toNat

theorem isSign_iff {c : Char} : isSign c ↔ c = '+' ∨ c = '-' := by
  simp [isSign]

theorem not_isSign_of_isDigit {c : Char} (h : Token.isDigit c) : ¬ isSign c := by
  intro hsign
  rcases isSign_iff.mp hsign with rfl | rfl <;> exact absurd h (by decide)

theorem isModifier_nil_iff {i : Int} : IsModifier [] i ↔ i = 0 := by
  constructor
  · rintro ⟨⟩
    rfl
  · rintro rfl
    exact .omitted

/-- Behind a sign stand digits, and the sign says what becomes of their number. -/
theorem isModifier_cons_iff {sign : Char} {digits : List Char} {i : Int} (hsign : isSign sign) :
    IsModifier (sign :: digits) i ↔
      (∀ c ∈ digits, Token.isDigit c) ∧
        (Decimal.ofDigits digits : Int) ≤ Int64.maxValue.toInt ∧
        i = if sign = '-' then -(Decimal.ofDigits digits : Int) else Decimal.ofDigits digits := by
  constructor
  · intro h
    cases h with
    | plus hdigits hle => exact ⟨hdigits, hle, rfl⟩
    | minus hdigits hle => exact ⟨hdigits, hle, rfl⟩
  · rintro ⟨hdigits, hle, rfl⟩
    rcases isSign_iff.mp hsign with rfl | rfl
    · exact .plus hdigits hle
    · exact .minus hdigits hle

theorem readModifier_eq_ok_iff {m : Int64} (hsign : ∀ c ∈ text.head?, isSign c) :
    readModifier text = .ok m ↔ IsModifier text m.toInt := by
  have hzero : (Except.ok 0 : Except ReadError Int64) = .ok m ↔ m.toInt = 0 := by
    rw [Except.ok.injEq, ← Int64.toInt_inj, Int64.toInt_zero, eq_comm]
  match text with
  | [] => rw [readModifier, isModifier_nil_iff, hzero]
  | [sign] =>
      have hnone : (Decimal.ofDigits [] : Int) ≤ Int64.maxValue.toInt := by decide
      rw [readModifier, hzero, isModifier_cons_iff (hsign sign rfl)]
      have hvalue : (if sign = '-' then -(Decimal.ofDigits [] : Int) else Decimal.ofDigits []) =
          0 := by
        split_ifs <;> rfl
      rw [hvalue]
      exact ⟨fun h => ⟨nofun, hnone, h⟩, fun h => h.2.2⟩
  | sign :: first :: rest =>
      have hmax : Int64.maxValue.toInt = (Nat.pow 2 63 - 1 : Nat) := by decide
      have hpow : Nat.pow 2 63 = 2 ^ 63 := rfl
      rw [isModifier_cons_iff (hsign sign rfl), readModifier]
      constructor
      · intro h
        by_cases hfirst : isSign first
        · rw [if_pos hfirst] at h
          cases h
        rw [if_neg hfirst] at h
        split at h
        · next n hread =>
          obtain ⟨digits, hdigits, htext, rfl, hle⟩ := Text.readNatural_eq_ok_iff.mp hread
          have hrest : first :: rest = digits := by
            refine htext.resolve_right fun hplus => ?_
            exact hfirst (isSign_iff.mpr (.inl (List.cons.inj hplus).1))
          rw [hrest]
          cases h
          refine ⟨hdigits.2, by omega, ?_⟩
          apply Int64.toInt_ofInt_of_le <;> split_ifs <;> omega
        · cases h
      · rintro ⟨hdigits, hle, hvalue⟩
        have hfirst : ¬ isSign first := not_isSign_of_isDigit (hdigits first List.mem_cons_self)
        have hread : Text.readNatural (Nat.pow 2 63 - 1) (first :: rest) =
            .ok (Decimal.ofDigits (first :: rest)) :=
          Text.readNatural_eq_ok_iff.mpr
            ⟨_, ⟨List.cons_ne_nil _ _, hdigits⟩, .inl rfl, rfl, by omega⟩
        rw [if_neg hfirst, hread]
        dsimp only
        rw [← hvalue, Int64.ofInt_toInt]

end Parts

/-! ## Reading the whole -/

section Whole

variable {text count sides modifier : List Char} {spec : DiceSpec}

/-- The parts are found where the first `d` and the first sign behind it stand. -/
theorem read_eq (htext : Text.trim text = count ++ 'd' :: (sides ++ modifier))
    (hcount : ∀ c ∈ count, c ≠ 'd') (hsides : ∀ c ∈ sides, ¬ isSign c)
    (hmodifier : ∀ c ∈ modifier.head?, isSign c) :
    read text = (do
      let count ← readCount count
      let sides ← readSides sides
      let modifier ← readModifier modifier
      return ⟨count, sides, modifier⟩) := by
  have hd : ∀ c ∈ count, decide (c ≠ 'd') := fun c hc => decide_eq_true (hcount c hc)
  have hsign : ∀ c ∈ sides, !isSign c := fun c hc => by simpa using hsides c hc
  have htake : modifier.takeWhile (fun c => !isSign c) = [] :=
    List.takeWhile_eq_nil_iff.mpr fun hpos => by
      simpa using hmodifier _ (List.head?_eq_getElem? ▸ List.getElem?_eq_getElem hpos)
  have hdrop : modifier.dropWhile (fun c => !isSign c) = modifier :=
    List.dropWhile_eq_self_iff.mpr fun hpos => by
      simpa using hmodifier _ (List.head?_eq_getElem? ▸ List.getElem?_eq_getElem hpos)
  rw [read, htext, List.dropWhile_append_of_pos hd, List.takeWhile_append_of_pos hd,
    List.dropWhile_cons_of_neg (by simp), List.takeWhile_cons_of_neg (by simp), List.append_nil]
  dsimp only
  rw [List.takeWhile_append_of_pos hsign, List.dropWhile_append_of_pos hsign, htake, hdrop,
    List.append_nil]

theorem read_eq_ok_iff_parts (htext : Text.trim text = count ++ 'd' :: (sides ++ modifier))
    (hcount : ∀ c ∈ count, c ≠ 'd') (hsides : ∀ c ∈ sides, ¬ isSign c)
    (hmodifier : ∀ c ∈ modifier.head?, isSign c) :
    read text = .ok spec ↔ IsCount count spec.count.toNat ∧ IsSides sides spec.sides.toNat ∧
      IsModifier modifier spec.modifier.toInt := by
  rw [← readCount_eq_ok_iff, ← readSides_eq_ok_iff hsides, ← readModifier_eq_ok_iff hmodifier,
    read_eq htext hcount hsides hmodifier]
  obtain ⟨n, m, i⟩ := spec
  cases readCount count with
  | error => exact ⟨nofun, nofun⟩
  | ok =>
      cases readSides sides with
      | error => exact ⟨nofun, nofun⟩
      | ok =>
          cases readModifier modifier with
          | error => exact ⟨nofun, nofun⟩
          | ok =>
              change Except.ok _ = Except.ok _ ↔ _
              simp only [Except.ok.injEq, mk.injEq]

theorem IsCount.forall_mem {n : Nat} (h : IsCount count n) :
    ∀ c ∈ count, c = '+' ∨ Token.isDigit c := by
  obtain ⟨digits, hdigits, rfl | rfl, -⟩ := h
  · exact fun c hc => .inr (hdigits.2 c hc)
  · exact List.forall_mem_cons.mpr ⟨.inl rfl, fun c hc => .inr (hdigits.2 c hc)⟩

theorem IsSides.forall_mem {n : Nat} (h : IsSides sides n) : ∀ c ∈ sides, Token.isDigit c := by
  rcases h with ⟨rfl, -⟩ | ⟨hdigits, -⟩
  · nofun
  · exact hdigits.2

theorem signed_forall_mem {sign : Char} {digits : List Char} (hsign : isSign sign)
    (hdigits : ∀ c ∈ digits, Token.isDigit c) :
    (∀ c ∈ (sign :: digits).head?, isSign c) ∧
      ∀ c ∈ sign :: digits, isSign c ∨ Token.isDigit c :=
  ⟨fun c hc => by cases hc; exact hsign,
    List.forall_mem_cons.mpr ⟨.inl hsign, fun c hc => .inr (hdigits c hc)⟩⟩

theorem IsModifier.forall_mem {i : Int} (h : IsModifier modifier i) :
    (∀ c ∈ modifier.head?, isSign c) ∧ ∀ c ∈ modifier, isSign c ∨ Token.isDigit c := by
  cases h with
  | omitted => exact ⟨nofun, nofun⟩
  | plus hdigits => exact signed_forall_mem rfl hdigits
  | minus hdigits => exact signed_forall_mem rfl hdigits

/-- No character of the notation is a blank. -/
theorem not_isBlank_notation (hcount : ∀ c ∈ count, c = '+' ∨ Token.isDigit c)
    (hsides : ∀ c ∈ sides, Token.isDigit c)
    (hmodifier : ∀ c ∈ modifier, isSign c ∨ Token.isDigit c) :
    ∀ c ∈ count ++ 'd' :: (sides ++ modifier), ¬ Text.isBlank c := by
  have hsign {c : Char} (h : isSign c) : ¬ Text.isBlank c := by
    rcases isSign_iff.mp h with rfl | rfl <;> decide
  intro c hc
  simp only [List.mem_append, List.mem_cons] at hc
  rcases hc with hc | rfl | hc | hc
  · rcases hcount c hc with rfl | hdigit
    · decide
    · exact Text.not_isBlank_of_isDigit hdigit
  · decide
  · exact Text.not_isBlank_of_isDigit (hsides c hc)
  · exact (hmodifier c hc).elim hsign Text.not_isBlank_of_isDigit

/-- The dice that are read are those which the text writes. -/
theorem read_eq_ok_iff : read text = .ok spec ↔ Writes text spec := by
  constructor
  · intro h
    obtain ⟨before, after, hbefore, hafter, htext⟩ := Text.exists_trim text
    cases hdrop : (Text.trim text).dropWhile (· ≠ 'd') with
    | nil =>
        rw [read, hdrop] at h
        cases h
    | cons d rest =>
        obtain rfl : d = 'd' := by
          have hfirst := List.head?_dropWhile_not (· ≠ 'd') (Text.trim text)
          rw [hdrop] at hfirst
          simpa using hfirst
        have hsplit : Text.trim text = (Text.trim text).takeWhile (· ≠ 'd') ++
            'd' :: (rest.takeWhile (fun c => !isSign c) ++ rest.dropWhile fun c => !isSign c) := by
          rw [List.takeWhile_append_dropWhile, ← hdrop, List.takeWhile_append_dropWhile]
        have hcount : ∀ c ∈ (Text.trim text).takeWhile (· ≠ 'd'), c ≠ 'd' := fun c hc => by
          simpa using List.mem_takeWhile_imp hc
        have hsides : ∀ c ∈ rest.takeWhile (fun c => !isSign c), ¬ isSign c := fun c hc => by
          simpa using List.mem_takeWhile_imp hc
        have hmodifier : ∀ c ∈ (rest.dropWhile fun c => !isSign c).head?, isSign c := by
          intro c hc
          have hfirst := List.head?_dropWhile_not (fun c => !isSign c) rest
          rw [hc] at hfirst
          simpa using hfirst
        rw [hsplit] at htext
        exact ⟨_, _, _, _, _, htext, hbefore, hafter,
          (read_eq_ok_iff_parts hsplit hcount hsides hmodifier).mp h⟩
  · rintro ⟨before, count, sides, modifier, after, htext, hbefore, hafter, hcount, hsides,
      hmodifier⟩
    have hplain := not_isBlank_notation hcount.forall_mem hsides.forall_mem hmodifier.forall_mem.2
    have htrim : Text.trim text = count ++ 'd' :: (sides ++ modifier) := by
      rw [htext, Text.trim_surrounded hbefore hplain hafter]
    have hd : ∀ c ∈ count, c ≠ 'd' := by
      rintro c hc rfl
      exact absurd (hcount.forall_mem 'd' hc) (by decide)
    have hsign : ∀ c ∈ sides, ¬ isSign c := fun c hc =>
      not_isSign_of_isDigit (hsides.forall_mem c hc)
    exact (read_eq_ok_iff_parts htrim hd hsign hmodifier.forall_mem.1).mpr
      ⟨hcount, hsides, hmodifier⟩

end Whole

/-- The reader accepts exactly the texts that are dice notation, and every other text is refused.
The numbers are the ones that the digits write, so nothing is lost to the width of an integer on the
way. -/
theorem read_accepts (s : String) :
    (∀ spec, read s.toList = .ok spec ↔ Writes s.toList spec) ∧
      ((∃ e, read s.toList = .error e) ↔ ∀ spec, ¬ Writes s.toList spec) := by
  refine ⟨fun spec => read_eq_ok_iff, ?_⟩
  simp only [← read_eq_ok_iff]
  cases read s.toList with
  | error e => exact ⟨fun _ => nofun, fun _ => ⟨e, rfl⟩⟩
  | ok spec => exact ⟨nofun, fun h => absurd rfl (h spec)⟩

/-! ## Reading what was written -/

/-- What is written for a modifier: nothing for zero, and else a sign and digits. -/
def modifierText (m : Int64) : List Char :=
  if m = 0 then [] else (if 0 < m then '+' else '-') :: Nat.toDigits 10 m.toInt.natAbs

theorem modifierText_forall_mem (m : Int64) :
    (∀ c ∈ (modifierText m).head?, isSign c) ∧
      ∀ c ∈ modifierText m, isSign c ∨ Token.isDigit c := by
  have hdigits := (Text.isDigits_toDigits m.toInt.natAbs).1.2
  unfold modifierText
  split_ifs with hzero hplus
  · exact ⟨nofun, nofun⟩
  · exact signed_forall_mem rfl hdigits
  · exact signed_forall_mem rfl hdigits

theorem toList_render (spec : DiceSpec) :
    (render spec).toList = Nat.toDigits 10 spec.count.toNat ++
      'd' :: (Nat.toDigits 10 spec.sides.toNat ++ modifierText spec.modifier) := by
  have hnat (n : Nat) : (toString n).toList = Nat.toDigits 10 n := Nat.toList_repr
  have hnonneg {i : Int} (hi : 0 ≤ i) : (toString i).toList = Nat.toDigits 10 i.natAbs := by
    obtain ⟨n, rfl⟩ := Int.eq_ofNat_of_zero_le hi
    exact Nat.toList_repr
  have hneg {i : Int} (hi : i < 0) : (toString i).toList = '-' :: Nat.toDigits 10 i.natAbs := by
    obtain ⟨n, rfl⟩ := Int.eq_negSucc_of_lt_zero hi
    rw [← Nat.toList_repr]
    exact String.toList_append
  unfold render modifierText
  split_ifs with hzero hpos
  · simp only [String.toList_append, hnat, List.append_nil, List.append_assoc]
    rfl
  · have hle : 0 ≤ spec.modifier.toInt :=
      Int.le_of_lt (by simpa using Int64.lt_iff_toInt_lt.mp hpos)
    simp only [String.toList_append, hnat, hnonneg hle, List.append_assoc]
    rfl
  · have hlt : spec.modifier.toInt < 0 := by
      have hne := mt Int64.toInt_inj.mp hzero
      rw [Int64.lt_iff_toInt_lt] at hpos
      simp only [Int64.toInt_zero] at hne hpos
      omega
    simp only [String.toList_append, hnat, hneg hlt, List.append_assoc]
    rfl

/-- What is written for a modifier is one, if its digits are not too many. -/
theorem isModifier_modifierText {m : Int64} (hleast : m ≠ Int64.minValue) :
    IsModifier (modifierText m) m.toInt := by
  obtain ⟨hdigits, hvalue⟩ := Text.isDigits_toDigits m.toInt.natAbs
  have hmin : Int64.minValue.toInt = -(Int64.maxValue.toInt + 1) := by decide
  have hne := mt Int64.toInt_inj.mp hleast
  have hlo := m.minValue_le_toInt
  have hhi := m.toInt_le
  have hpos : 0 < m ↔ 0 < m.toInt := by rw [Int64.lt_iff_toInt_lt, Int64.toInt_zero]
  unfold modifierText
  split_ifs with hzero hplus
  · rw [hzero, Int64.toInt_zero]
    exact .omitted
  · rw [isModifier_cons_iff rfl, hvalue]
    rw [hpos] at hplus
    exact ⟨hdigits.2, by omega, by rw [if_neg (by decide)]; omega⟩
  · rw [isModifier_cons_iff rfl, hvalue]
    rw [hpos] at hplus
    exact ⟨hdigits.2, by omega, by rw [if_pos rfl]; omega⟩

/-- A modifier is read back from its text, except the least one. -/
theorem readModifier_modifierText (m : Int64) :
    readModifier (modifierText m) =
      if m = Int64.minValue then .error (.invalidModifier .tooLarge) else .ok m := by
  split_ifs with hleast
  · rw [hleast]
    decide +kernel
  · have hmodifier := isModifier_modifierText hleast
    exact (readModifier_eq_ok_iff hmodifier.forall_mem.1).mpr hmodifier

/-- Dice are read back from what is written for them, unless their modifier is the least of all.
In that case the digits of the modifier are refused for their size. -/
theorem read_render (spec : DiceSpec) :
    read (render spec).toList =
      if spec.modifier = Int64.minValue then .error (.invalidModifier .tooLarge) else .ok spec := by
  obtain ⟨hcount, hcountValue⟩ := Text.isDigits_toDigits spec.count.toNat
  obtain ⟨hsides, hsidesValue⟩ := Text.isDigits_toDigits spec.sides.toNat
  obtain ⟨hhead, hmodifier⟩ := modifierText_forall_mem spec.modifier
  have hd : ∀ c ∈ Nat.toDigits 10 spec.count.toNat, c ≠ 'd' := by
    rintro c hc rfl
    exact absurd (hcount.2 'd' hc) (by decide)
  have hsign : ∀ c ∈ Nat.toDigits 10 spec.sides.toNat, ¬ isSign c := fun c hc =>
    not_isSign_of_isDigit (hsides.2 c hc)
  have hplain := not_isBlank_notation (fun c hc => .inr (hcount.2 c hc)) hsides.2 hmodifier
  rw [← toList_render] at hplain
  have htrim := (Text.trim_eq_self hplain).trans (toList_render spec)
  have hcountRead : readCount (Nat.toDigits 10 spec.count.toNat) = .ok spec.count :=
    readCount_eq_ok_iff.mpr ⟨_, hcount, .inl rfl, hcountValue⟩
  have hsidesRead : readSides (Nat.toDigits 10 spec.sides.toNat) = .ok spec.sides :=
    (readSides_eq_ok_iff hsign).mpr (.inr ⟨hsides, hsidesValue⟩)
  rw [read_eq htrim hd hsign hhead, hcountRead, hsidesRead, readModifier_modifierText]
  split_ifs <;> rfl

/-- Dice with the least modifier are not read back. -/
theorem render_unread :
    read (render ⟨1, 6, Int64.minValue⟩).toList ≠ .ok ⟨1, 6, Int64.minValue⟩ := by
  decide +kernel

end DiceSpec

end Tabletop
