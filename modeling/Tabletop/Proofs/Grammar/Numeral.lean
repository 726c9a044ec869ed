/-
# Number literals

A number token carries the digits that its kind promises, and reading them gives the number that
the grammar assigns to them. Together these make reading a literal the same thing as the grammar's
rule for it: a literal is refused exactly when no rule applies.
-/

import Mathlib.Data.List.TakeWhile
import Tabletop.Proofs.Grammar
import Tabletop.Statement.Reading

namespace Tabletop

/-! ## The text of number tokens -/

namespace Token

/-- Every token was cut from the input as the longest one at its place. -/
theorem exists_longest_of_mem_scanFrom {position : Nat} {spaced : Bool} {cs : List Char}
    {t : Token} (h : t ∈ scanFrom position spaced cs) :
    ∃ c rest, t.kind = (longest c rest).1 ∧
      t.text = String.ofList (c :: rest.take (longest c rest).2) := by
  fun_induction scanFrom position spaced cs with
  | case1 => simp at h
  | case2 position spaced c cs hseparator ih => exact ih h
  | case3 position spaced c cs hseparator kind more hlongest text ih =>
      rcases List.mem_cons.mp h with rfl | h
      · exact ⟨c, cs, by simp [hlongest], by simp [hlongest, text]⟩
      · exact ih h

theorem take_run (p : Char → Bool) (cs : List Char) : cs.take (run p cs) = cs.takeWhile p :=
  (List.prefix_iff_eq_take.mp (List.takeWhile_prefix p)).symm

theorem isDigits_takeWhile {cs : List Char} (h : run isDigit cs ≠ 0) :
    Grammar.IsDigits (cs.takeWhile isDigit) :=
  ⟨List.ne_nil_of_length_pos (Nat.pos_of_ne_zero h), fun _ hc => List.mem_takeWhile_imp hc⟩

/-- Digits, a mark and digits are cut out together. -/
theorem take_marked {cs rest : List Char} {mark : Char}
    (h : cs.drop (run isDigit cs) = mark :: rest) :
    cs.take (run isDigit cs + 1 + run isDigit rest) =
      cs.takeWhile isDigit ++ mark :: rest.takeWhile isDigit := by
  rw [Nat.add_assoc, List.take_add, h, take_run, Nat.add_comm 1, List.take_succ_cons, take_run]

/-- The text after the first digit of a number token: digits alone, or digits around a `d` or a
point. -/
theorem number_cases (cs : List Char) :
    ((number cs).1 = .dice ∧ ∃ sides, Grammar.IsDigits sides ∧
      cs.take (number cs).2 = cs.takeWhile isDigit ++ 'd' :: sides) ∨
    ((number cs).1 = .integer ∧ cs.take (number cs).2 = cs.takeWhile isDigit) ∨
    ((number cs).1 = .float ∧ ∃ fraction, Grammar.IsDigits fraction ∧
      cs.take (number cs).2 = cs.takeWhile isDigit ++ '.' :: fraction) := by
  rw [number.eq_1]
  split
  · next rest hrest =>
    dsimp only
    split
    · exact .inr (.inl ⟨rfl, take_run isDigit cs⟩)
    · next hsides => exact .inl ⟨rfl, _, isDigits_takeWhile hsides, take_marked hrest⟩
  · next rest hrest =>
    dsimp only
    split
    · exact .inr (.inl ⟨rfl, take_run isDigit cs⟩)
    · next hfraction =>
      exact .inr (.inr ⟨rfl, _, isDigits_takeWhile hfraction, take_marked hrest⟩)
  · exact .inr (.inl ⟨rfl, take_run isDigit cs⟩)

/-- The kinds of the tokens that begin with a digit. -/
def digitKinds : List TokenKind :=
  [.dice, .float, .integer]

theorem wordKind_not_digit (name : String) : wordKind name ∉ digitKinds := by
  unfold wordKind
  split_ifs <;> decide

theorem word_not_digit (c : Char) (cs : List Char) : (word c cs).1 ∉ digitKinds := by
  have hword := wordKind_not_digit
  unfold word
  dsimp only
  split <;> (try split_ifs) <;> first | exact hword _ | simp [digitKinds]

theorem markKind_not_digit (c : Char) : markKind c ∉ digitKinds := by
  unfold markKind
  split <;> decide

/-- A token of one of these kinds was cut by the rule for numbers. -/
theorem longest_of_digitKinds {c : Char} {cs : List Char} (h : (longest c cs).1 ∈ digitKinds) :
    isDigit c ∧ longest c cs = number cs := by
  unfold longest at h ⊢
  split at h
  · next hdigit => exact ⟨hdigit, if_pos hdigit⟩
  · split at h
    · exact absurd h (word_not_digit c cs)
    · exact absurd h (markKind_not_digit c)

end Token

namespace Grammar

theorem IsDigits.cons_takeWhile {c : Char} (hc : Token.isDigit c) (cs : List Char) :
    IsDigits (c :: cs.takeWhile Token.isDigit) := by
  refine ⟨List.cons_ne_nil _ _, ?_⟩
  intro c' hc'
  rcases List.mem_cons.mp hc' with rfl | hc'
  · exact hc
  · exact List.mem_takeWhile_imp hc'

/-- A number token carries the digits that its kind promises. -/
inductive Numeric (t : Token) : Prop
  | integer : t.kind = .integer → IsDigits t.text.toList → Numeric t
  | float {whole fraction : List Char} :
      t.kind = .float → IsDigits whole → IsDigits fraction →
      t.text.toList = whole ++ '.' :: fraction → Numeric t
  | other : t.kind ≠ .integer → t.kind ≠ .float → Numeric t

/-- The lexer cuts no other number tokens. -/
theorem numeric_of_mem_scan {input : String} {t : Token} (h : t ∈ Token.scan input) :
    Numeric t := by
  obtain ⟨c, rest, hkind, htext⟩ := Token.exists_longest_of_mem_scanFrom h
  by_cases hdigits : t.kind ∈ Token.digitKinds
  · obtain ⟨hdigit, hlongest⟩ := Token.longest_of_digitKinds (hkind ▸ hdigits)
    rw [hlongest] at hkind htext
    rcases Token.number_cases rest with
      ⟨hdice, -⟩ | ⟨hinteger, htake⟩ | ⟨hfloat, fraction, hf, htake⟩
    · exact .other (by simp [hkind, hdice]) (by simp [hkind, hdice])
    · refine .integer (hkind.trans hinteger) ?_
      rw [htext, String.toList_ofList, htake]
      exact .cons_takeWhile hdigit rest
    · refine .float (hkind.trans hfloat) (.cons_takeWhile hdigit rest) hf ?_
      rw [htext, String.toList_ofList, htake, List.cons_append]
  · refine .other ?_ ?_
    · rintro hinteger
      exact hdigits (hinteger ▸ by decide)
    · rintro hfloat
      exact hdigits (hfloat ▸ by decide)

theorem Numeral.numeric {negative : Bool} {t : Token} {value : Number}
    (h : Numeral negative t value) : Numeric t := by
  cases h with
  | integer hkind hdigits => exact .integer hkind hdigits
  | float hkind hwhole hfraction htext => exact .float hkind hwhole hfraction htext

theorem Numeral.number {negative : Bool} {t : Token} {value : Number}
    (h : Numeral negative t value) : t.kind = .integer ∨ t.kind = .float := by
  cases h with
  | integer hkind => exact .inl hkind
  | float hkind => exact .inr hkind

theorem Numeral.not_minus {negative : Bool} {t : Token} {value : Number}
    (h : Numeral negative t value) : t.kind ≠ .minus := by
  intro hminus
  rcases h.number with hkind | hkind
  · rw [hminus] at hkind
    cases hkind
  · rw [hminus] at hkind
    cases hkind

end Grammar

/-! ## Reading digits -/

namespace Decimal

/-- The number written by some digits after the digits of another number. -/
def appendDigits (value : Nat) (digits : List Char) : Nat :=
  digits.foldl (fun n c => 10 * n + (if c.isDigit then c.toNat - '0'.toNat else 0)) value

theorem ofDigits_eq (digits : List Char) : ofDigits digits = appendDigits 0 digits :=
  rfl

theorem le_appendDigits (digits : List Char) (value : Nat) : value ≤ appendDigits value digits := by
  induction digits generalizing value with
  | nil => exact Nat.le_refl value
  | cons c cs ih =>
      have hstep := ih (10 * value + (if c.isDigit then c.toNat - '0'.toNat else 0))
      exact Nat.le_trans (by omega) hstep

end Decimal

namespace Text

open Grammar

theorem digit?_of_isDigit {c : Char} (h : Token.isDigit c) :
    digit? c = some (if c.isDigit then c.toNat - '0'.toNat else 0) := by
  have hrange : '0' ≤ c ∧ c ≤ '9' := by simpa [Token.isDigit] using h
  have hdigit : c.isDigit := by
    simp only [Char.isDigit, Bool.and_eq_true, decide_eq_true_eq]
    exact hrange
  rw [digit?, if_pos hrange, if_pos hdigit]

/-- Digits are read as the number that they write, if it is within the limit. -/
theorem readDigits_eq {limit : Nat} {overflow : IntegerError} {cs : List Char}
    (hcs : ∀ c ∈ cs, Token.isDigit c) {value : Nat} (hvalue : value ≤ limit) :
    readDigits limit overflow value cs =
      if Decimal.appendDigits value cs ≤ limit then .ok (Decimal.appendDigits value cs)
      else .error overflow := by
  induction cs generalizing value with
  | nil => exact (if_pos hvalue).symm
  | cons c cs ih =>
      obtain ⟨hc, hcs⟩ := List.forall_mem_cons.mp hcs
      rw [readDigits, digit?_of_isDigit hc]
      dsimp only
      by_cases hlimit : limit < 10 * value + (if c.isDigit then c.toNat - '0'.toNat else 0)
      · rw [if_pos hlimit]
        have hle := Decimal.le_appendDigits cs
          (10 * value + (if c.isDigit then c.toNat - '0'.toNat else 0))
        exact (if_neg (Nat.not_le_of_lt (Nat.lt_of_lt_of_le hlimit hle))).symm
      · rw [if_neg hlimit]
        exact ih hcs (Nat.le_of_not_lt hlimit)

theorem readNatural_digits {cs : List Char} (hcs : IsDigits cs) (limit : Nat) :
    readNatural limit cs =
      if Decimal.ofDigits cs ≤ limit then .ok (Decimal.ofDigits cs) else .error .tooLarge := by
  obtain ⟨hne, hdigits⟩ := hcs
  obtain ⟨c, rest, rfl⟩ := List.exists_cons_of_ne_nil hne
  have hplus : c ≠ '+' := by
    rintro rfl
    exact absurd (hdigits '+' List.mem_cons_self) (by decide)
  rw [readNatural.eq_3 _ _ (by simp) (by simp [hplus]), readDigits_eq hdigits (Nat.zero_le _),
    Decimal.ofDigits_eq]

theorem readInt64_digits {cs : List Char} (hcs : IsDigits cs) :
    readInt64 cs =
      if Decimal.ofDigits cs ≤ Nat.pow 2 63 - 1 then .ok (Int64.ofInt (Decimal.ofDigits cs))
      else .error .tooLarge := by
  have hminus : ∀ digits, cs ≠ '-' :: digits := by
    rintro digits rfl
    exact absurd (hcs.2 '-' List.mem_cons_self) (by decide)
  rw [readInt64.eq_2 _ hminus, readNatural_digits hcs]
  split_ifs <;> rfl

theorem readInt64_minus {cs : List Char} (hcs : IsDigits cs) :
    readInt64 ('-' :: cs) =
      if Decimal.ofDigits cs ≤ Nat.pow 2 63 then .ok (Int64.ofInt (-(Decimal.ofDigits cs : Int)))
      else .error .tooSmall := by
  obtain ⟨hne, hdigits⟩ := hcs
  rw [readInt64, readSigned, if_neg (by simpa using hne), readDigits_eq hdigits (Nat.zero_le _),
    Decimal.ofDigits_eq]
  split_ifs <;> rfl

/-- Digits with or without a minus sign before them are read as the integer that they write, if it
has 64 bits. -/
theorem readInt64_eq_ok_iff {cs : List Char} (hcs : IsDigits cs) (negative : Bool) (n : Int64) :
    readInt64 (if negative then '-' :: cs else cs) = .ok n ↔
      ∃ i : Int, i = (if negative then -(Decimal.ofDigits cs : Int) else Decimal.ofDigits cs) ∧
        Int64.minValue.toInt ≤ i ∧ i ≤ Int64.maxValue.toInt ∧ n = Int64.ofInt i := by
  have hmin : Int64.minValue.toInt = -(2 ^ 63 : Nat) := by decide
  have hmax : Int64.maxValue.toInt = (2 ^ 63 : Nat) - 1 := by decide
  have hpow : Nat.pow 2 63 = 2 ^ 63 := rfl
  cases negative with
  | false =>
      rw [if_neg Bool.false_ne_true, if_neg Bool.false_ne_true, readInt64_digits hcs]
      constructor
      · intro hread
        split_ifs at hread with hlimit
        exact ⟨_, rfl, by omega, by omega, (Except.ok.inj hread).symm⟩
      · rintro ⟨_, rfl, -, hle, rfl⟩
        exact if_pos (by omega)
  | true =>
      rw [if_pos rfl, if_pos rfl, readInt64_minus hcs]
      constructor
      · intro hread
        split_ifs at hread with hlimit
        exact ⟨_, rfl, by omega, by omega, (Except.ok.inj hread).symm⟩
      · rintro ⟨_, rfl, hle, -, rfl⟩
        exact if_pos (by omega)

end Text

/-! ## Literals -/

namespace Reading

open Grammar

theorem readFloat_digits {whole fraction : List Char} (hwhole : IsDigits whole) :
    readFloat (whole ++ '.' :: fraction) = (Decimal.ofParts whole fraction).toFloat := by
  obtain ⟨hne, hdigits⟩ := hwhole
  have hpoint : ∀ c ∈ whole, decide (c ≠ '.') = true := by
    intro c hc
    have hdigit := hdigits c hc
    rw [decide_eq_true_iff]
    rintro rfl
    exact absurd hdigit (by decide)
  have hminus : ∀ text, whole ++ '.' :: fraction = '-' :: text → False := by
    obtain ⟨c, rest, rfl⟩ := List.exists_cons_of_ne_nil hne
    intro text htext
    obtain ⟨rfl, -⟩ := List.cons.inj htext
    exact absurd (hdigits '-' List.mem_cons_self) (by decide)
  rw [readFloat.eq_2 _ hminus, List.takeWhile_append_of_pos hpoint,
    List.dropWhile_append_of_pos hpoint]
  simp

theorem literalValue_integer {negative : Bool} {t : Token} {value : Number}
    (hkind : t.kind = .integer) (hdigits : IsDigits t.text.toList) :
    literalValue t.kind (if negative then "-" ++ t.text else t.text) = .ok value ↔
      Numeral negative t value := by
  have htext : (if negative then "-" ++ t.text else t.text).toList =
      if negative then '-' :: t.text.toList else t.text.toList := by
    cases negative <;> simp
  have hread := Text.readInt64_eq_ok_iff hdigits negative
  rw [literalValue, if_neg (by simp [hkind]), htext]
  constructor
  · intro h
    split at h
    · next n hn =>
      obtain ⟨i, hi, hlo, hhi, rfl⟩ := (hread n).mp hn
      rw [← Except.ok.inj h]
      exact .integer hkind hdigits hi hlo hhi
    · cases h
  · intro h
    cases h with
    | integer _ _ hi hlo hhi => rw [(hread _).mpr ⟨_, hi, hlo, hhi, rfl⟩]
    | float hfloat => rw [hkind] at hfloat; cases hfloat

theorem readFloat_signed {negative : Bool} {text : String} {whole fraction : List Char}
    (hwhole : IsDigits whole) (htext : text.toList = whole ++ '.' :: fraction) :
    readFloat (if negative then "-" ++ text else text).toList =
      if negative then -(Decimal.ofParts whole fraction).toFloat
      else (Decimal.ofParts whole fraction).toFloat := by
  cases negative with
  | false => simpa [htext] using readFloat_digits hwhole
  | true => simpa [htext, readFloat] using congrArg (fun x => -x) (readFloat_digits hwhole)

theorem literalValue_float {negative : Bool} {t : Token} {whole fraction : List Char}
    {value : Number} (hkind : t.kind = .float) (hwhole : IsDigits whole)
    (hfraction : IsDigits fraction) (htext : t.text.toList = whole ++ '.' :: fraction) :
    literalValue t.kind (if negative then "-" ++ t.text else t.text) = .ok value ↔
      Numeral negative t value := by
  rw [literalValue, if_pos hkind]
  constructor
  · intro h
    rw [← Except.ok.inj h, readFloat_signed hwhole htext]
    exact .float hkind hwhole hfraction htext rfl
  · intro h
    cases h with
    | integer hinteger => rw [hkind] at hinteger; cases hinteger
    | float _ hwhole' _ htext' hx => rw [readFloat_signed hwhole' htext', hx]

/-- The digits of a token and the sign before them are read as the number that the grammar assigns
to them. -/
theorem literalValue_eq_ok_iff {negative : Bool} {t : Token} {value : Number} (ht : Numeric t)
    (hkind : t.kind = .integer ∨ t.kind = .float) :
    literalValue t.kind (if negative then "-" ++ t.text else t.text) = .ok value ↔
      Numeral negative t value := by
  cases ht with
  | integer hinteger hdigits => exact literalValue_integer hinteger hdigits
  | float hfloat hwhole hfraction htext => exact literalValue_float hfloat hwhole hfraction htext
  | other hinteger hfloat => exact absurd hkind (by simp [hinteger, hfloat])

theorem literalText_eq_ok_iff {kinds : List TokenKind} {signed : Bool} {t : Token} {text : String} :
    literalText kinds signed t = .ok text ↔
      t.kind ∈ kinds ∧ (signed = true → t.spaced = false) ∧
        text = if signed then "-" ++ t.text else t.text := by
  have hapart : ¬ (signed && t.spaced) = true ↔ (signed = true → t.spaced = false) := by
    cases signed <;> simp
  unfold literalText
  constructor
  · intro h
    by_cases hkind : t.kind ∈ kinds
    · rw [if_neg (by simpa using hkind)] at h
      by_cases hspaced : (signed && t.spaced) = true
      · rw [if_pos hspaced] at h
        cases h
      · rw [if_neg hspaced] at h
        exact ⟨hkind, hapart.mp hspaced, (Except.ok.inj h).symm⟩
    · rw [if_pos (by simpa using hkind)] at h
      cases h
  · rintro ⟨hkind, htouch, rfl⟩
    rw [if_neg (by simpa using hkind), if_neg (hapart.mpr htouch)]

/-- A literal is read exactly when the grammar has a number for it. -/
theorem literal_eq_ok_iff {kinds : List TokenKind} {signed : Bool} {t : Token} {value : Number}
    (hkinds : ∀ kind ∈ kinds, kind = .integer ∨ kind = .float) (ht : Numeric t) :
    literal kinds signed t = .ok value ↔
      t.kind ∈ kinds ∧ (signed = true → t.spaced = false) ∧ Numeral signed t value := by
  have hvalue : t.kind = .integer ∨ t.kind = .float →
      (literalValue t.kind (if signed then "-" ++ t.text else t.text) = .ok value ↔
        Numeral signed t value) := literalValue_eq_ok_iff ht
  unfold literal
  constructor
  · intro h
    cases htext : literalText kinds signed t with
    | error complaint => rw [htext] at h; cases h
    | ok text =>
        rw [htext] at h
        obtain ⟨hkind, htouch, rfl⟩ := literalText_eq_ok_iff.mp htext
        exact ⟨hkind, htouch, (hvalue (hkinds _ hkind)).mp h⟩
  · rintro ⟨hkind, htouch, hnumeral⟩
    rw [literalText_eq_ok_iff.mpr ⟨hkind, htouch, rfl⟩]
    exact (hvalue (hkinds _ hkind)).mpr hnumeral

end Reading
end Tabletop
