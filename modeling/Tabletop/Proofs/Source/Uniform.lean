/-
# Fair integers

An integer between two bounds comes from the first word that is accepted. The high half of the
product of the word with the span is the offset from the lower bound, so the words with one offset
have their multiples of the span in one interval as long as a word has values. The acceptance of the
low half keeps the beginning of each interval, a power of two times the span long. An interval of
that length holds this power of two of multiples wherever it begins. So every integer of the range
has the same number of words, and together they have at least half of all words, since the power is
the largest with which the span still fits into a word.
-/

import Mathlib
import Tabletop.Dice
import Tabletop.Proofs.Dice
import Tabletop.Proofs.Record
import Tabletop.Source.Ziggurat

namespace Tabletop.Tape

/-! ## Offsets from the lower bound -/

section Offset

variable {lo hi n : Int64}

/-- How many integers lie between two bounds, both included. -/
def width (lo hi : Int64) : Nat :=
  (hi.toInt - lo.toInt + 1).toNat

theorem toNat_toUInt64 (n : Int64) : (n.toUInt64.toNat : Int) = n.toInt % 2 ^ 64 := by
  have hvalue : n.toInt = (n.toUInt64.toNat : Int).bmod (2 ^ 64) :=
    BitVec.toInt_eq_toNat_bmod n.toBitVec
  have hlt := n.toUInt64.toNat_lt
  rw [hvalue]
  exact (Int.bmod_emod.trans (Int.emod_eq_of_lt (by omega) (by omega))).symm

theorem toNat_sub_toUInt64 (n lo : Int64) :
    ((n - lo).toUInt64.toNat : Int) = (n.toInt - lo.toInt) % 2 ^ 64 := by
  rw [toNat_toUInt64, Int64.toInt_sub]
  exact Int.bmod_emod

/-- The offset of an integer of the range is exact, also where the difference of the two
overflows. -/
theorem toNat_offset (h : lo ≤ n) : (n - lo).toUInt64.toNat = (n.toInt - lo.toInt).toNat := by
  have hle := Int64.le_iff_toInt_le.mp h
  have hlo := lo.le_toInt
  have hn := n.toInt_lt
  have hoffset := toNat_sub_toUInt64 n lo
  omega

theorem add_offset_eq_iff {offset : UInt64} :
    lo + offset.toInt64 = n ↔ offset = (n - lo).toUInt64 := by
  constructor
  · rintro rfl
    have hback : lo + offset.toInt64 - lo = offset.toInt64 := by grind
    rw [hback]
    rfl
  · rintro rfl
    change lo + (n - lo) = n
    grind

theorem width_pos (h : lo ≤ hi) : 0 < width lo hi := by
  have hle := Int64.le_iff_toInt_le.mp h
  unfold width
  omega

theorem width_le (lo hi : Int64) : width lo hi ≤ 2 ^ 64 := by
  have hlo := lo.le_toInt
  have hhi := hi.toInt_lt
  unfold width
  omega

theorem toNat_span (h : lo ≤ hi) : (span lo hi).toNat = width lo hi % 2 ^ 64 := by
  have hle := Int64.le_iff_toInt_le.mp h
  rw [span, Int64.toUInt64_add, UInt64.toNat_add, toNat_offset h]
  change ((hi.toInt - lo.toInt).toNat + 1) % 2 ^ 64 = _
  unfold width
  congr 1
  omega

/-- Only the range of all integers has a span that wraps around. -/
theorem span_eq_zero_iff (h : lo ≤ hi) : span lo hi = 0 ↔ width lo hi = 2 ^ 64 := by
  have hpos := width_pos h
  have hle := width_le lo hi
  rw [← UInt64.toNat_inj, toNat_span h]
  change width lo hi % 2 ^ 64 = 0 ↔ _
  omega

theorem toNat_span_of_ne (h : lo ≤ hi) (hspan : span lo hi ≠ 0) :
    (span lo hi).toNat = width lo hi := by
  have hne := mt (span_eq_zero_iff h).mpr hspan
  have hle := width_le lo hi
  rw [toNat_span h, Nat.mod_eq_of_lt (by omega)]

end Offset

/-! ## Accepted words -/

section Accept

variable {span word offset : UInt64} {count : Nat}

/-- How many words lead to each of `count` integers. -/
def share (count : Nat) : Nat :=
  2 ^ (63 - count.log2)

theorem share_pos (count : Nat) : 0 < share count :=
  Nat.two_pow_pos _

/-- The accepted words fill at least half of all words. -/
theorem le_mul_share (hpos : 0 < count) (hlt : count < 2 ^ 64) : 2 ^ 63 ≤ count * share count := by
  have hlog : count.log2 < 64 := (Nat.log2_lt (by omega)).mpr hlt
  calc 2 ^ 63 = 2 ^ count.log2 * 2 ^ (63 - count.log2) := by
        rw [← Nat.pow_add, Nat.add_sub_cancel' (by omega)]
    _ ≤ count * share count := Nat.mul_le_mul_right _ (Nat.log2_self_le (by omega))

/-- Doubling that often, the span loses no bits. -/
theorem mul_share_lt (hpos : 0 < count) (hlt : count < 2 ^ 64) : count * share count < 2 ^ 64 := by
  have hlog : count.log2 < 64 := (Nat.log2_lt (by omega)).mpr hlt
  calc count * share count < 2 ^ (count.log2 + 1) * 2 ^ (63 - count.log2) :=
        Nat.mul_lt_mul_of_pos_right Nat.lt_log2_self (share_pos count)
    _ = 2 ^ 64 := by rw [← Nat.pow_add]; congr 1; omega

theorem toNat_zone (hpos : 0 < span.toNat) :
    (zone span).toNat + 1 = span.toNat * share span.toNat := by
  have hlt := mul_share_lt hpos span.toNat_lt
  have hbig := Nat.mul_pos hpos (share_pos span.toNat)
  have hplaces : (UInt64.ofNat (63 - span.toNat.log2)).toNat = 63 - span.toNat.log2 :=
    UInt64.toNat_ofNat_of_lt' (Nat.lt_of_le_of_lt (Nat.sub_le _ _) (by decide))
  have hshift : (span <<< UInt64.ofNat (63 - span.toNat.log2)).toNat =
      span.toNat * share span.toNat := by
    rw [UInt64.toNat_shiftLeft, hplaces, Nat.shiftLeft_eq,
      Nat.mod_eq_of_lt (Nat.lt_of_le_of_lt (Nat.sub_le _ _) (by decide))]
    exact Nat.mod_eq_of_lt hlt
  rw [zone, UInt64.toNat_sub_of_le _ _ (by rw [UInt64.le_iff_toNat_le, hshift]; exact hbig), hshift]
  exact Nat.sub_add_cancel hbig

/-- A word leads to an offset when its multiple of the span lies in the accepted beginning of the
offset's interval. -/
theorem accept?_eq_some_iff (hpos : 0 < span.toNat) :
    accept? span word = some offset ↔
      offset.toNat * 2 ^ 64 ≤ span.toNat * word.toNat ∧
        span.toNat * word.toNat < offset.toNat * 2 ^ 64 + span.toNat * share span.toNat := by
  have hlt := mul_share_lt hpos span.toNat_lt
  have hzone := toNat_zone hpos
  have hproduct : span.toNat * word.toNat < 2 ^ 64 * 2 ^ 64 :=
    Nat.mul_lt_mul'' span.toNat_lt word.toNat_lt
  have hsize : UInt64.size = 2 ^ 64 := rfl
  rw [accept?, Nat.mul_comm word.toNat, hsize]
  generalize span.toNat * word.toNat = product at hproduct ⊢
  have hhigh : (UInt64.ofNat (product / 2 ^ 64)).toNat = product / 2 ^ 64 :=
    UInt64.toNat_ofNat_of_lt' (Nat.div_lt_of_lt_mul hproduct)
  split_ifs with hlow
  · rw [Option.some.injEq, ← UInt64.toNat_inj, hhigh]
    omega
  · constructor
    · exact nofun
    · omega

theorem accept?_lt (hpos : 0 < span.toNat) (h : accept? span word = some offset) :
    offset.toNat < span.toNat := by
  have hle := ((accept?_eq_some_iff hpos).mp h).1
  have hword := Nat.mul_lt_mul_of_pos_left word.toNat_lt hpos
  exact Nat.lt_of_mul_lt_mul_right (hle.trans_lt hword)

/-- An interval that is `share` times as long as a number holds `share` multiples of it, wherever
it begins. -/
theorem mul_mem_interval_iff {count base share n : Nat} (hpos : 0 < count) :
    base ≤ count * n ∧ count * n < base + count * share ↔
      n ∈ Finset.Ico (base ⌈/⌉ count) (base ⌈/⌉ count + share) := by
  rw [Finset.mem_Ico, ceilDiv_le_iff_le_mul hpos]
  refine and_congr_right fun _ => ?_
  by_cases hshort : n < share
  · have hmul := Nat.mul_lt_mul_of_pos_left hshort hpos
    omega
  · obtain ⟨m, rfl⟩ := Nat.exists_eq_add_of_le (Nat.le_of_not_lt hshort)
    have hless := (ceilDiv_le_iff_le_mul (b := base) (c := m) hpos).not
    rw [Nat.mul_add]
    omega

/-- There is one word for each number below `2 ^ 64`. -/
theorem card_filter_toNat {values : Finset Nat} (hfits : ∀ n ∈ values, n < 2 ^ 64) :
    (Finset.univ.filter fun word : UInt64 => word.toNat ∈ values).card = values.card := by
  rw [← Finset.card_image_of_injective _ fun _ _ => UInt64.toNat_inj.mp]
  congr 1
  ext n
  simp only [Finset.mem_image, Finset.mem_filter, Finset.mem_univ, true_and]
  constructor
  · rintro ⟨word, hword, rfl⟩
    exact hword
  · intro hn
    have hword : (UInt64.ofNat n).toNat = n := UInt64.toNat_ofNat_of_lt' (hfits n hn)
    exact ⟨UInt64.ofNat n, hword.symm ▸ hn, hword⟩

theorem card_univ : (Finset.univ : Finset UInt64).card = 2 ^ 64 := by
  have hall : (Finset.univ.filter fun word : UInt64 => word.toNat ∈ Finset.range (2 ^ 64)).card =
      (Finset.range (2 ^ 64)).card := card_filter_toNat fun n => Finset.mem_range.mp
  rwa [Finset.filter_true_of_mem fun word _ => Finset.mem_range.mpr word.toNat_lt,
    Finset.card_range] at hall

/-- The words of an offset follow one another, and there are as many as the share says. -/
theorem card_accept? (hoffset : offset.toNat < span.toNat) :
    (Finset.univ.filter fun word => accept? span word = some offset).card = share span.toNat := by
  have hpos := Nat.zero_lt_of_lt hoffset
  have hlt := mul_share_lt hpos span.toNat_lt
  simp only [accept?_eq_some_iff hpos, mul_mem_interval_iff hpos]
  rw [card_filter_toNat, Nat.card_Ico, Nat.add_sub_cancel_left]
  intro n hn
  -- A multiple that lies in the interval of an offset belongs to a word.
  have hless := ((mul_mem_interval_iff hpos).mpr hn).2
  have hscaled := calc
    span.toNat * n < offset.toNat * 2 ^ 64 + span.toNat * share span.toNat := hless
    _ ≤ offset.toNat * 2 ^ 64 + 2 ^ 64 := Nat.add_le_add_left hlt.le _
    _ = (offset.toNat + 1) * 2 ^ 64 := (Nat.succ_mul _ _).symm
    _ ≤ span.toNat * 2 ^ 64 := Nat.mul_le_mul_right _ hoffset
  exact Nat.lt_of_mul_lt_mul_left hscaled

theorem card_isSome_accept? (hpos : 0 < span.toNat) :
    (Finset.univ.filter fun word => (accept? span word).isSome).card =
      span.toNat * share span.toNat := by
  rw [Finset.card_eq_sum_card_fiberwise (f := fun word => ((accept? span word).getD 0).toNat)
    (t := Finset.range span.toNat), Finset.sum_const_nat (m := share span.toNat), Finset.card_range]
  · intro n hn
    have hlt := Finset.mem_range.mp hn
    have hoffset : (UInt64.ofNat n).toNat = n :=
      UInt64.toNat_ofNat_of_lt' (hlt.trans span.toNat_lt)
    have hoffset' : (UInt64.ofNat n).toNat < span.toNat := hoffset.symm ▸ hlt
    rw [← card_accept? hoffset', Finset.filter_filter]
    refine congrArg Finset.card (Finset.filter_congr fun word _ => ?_)
    cases accept? span word with
    | none => exact ⟨nofun, nofun⟩
    | some offset => simp [← UInt64.toNat_inj, hoffset]
  · intro word hword
    obtain ⟨offset, hoffset⟩ := Option.isSome_iff_exists.mp (Finset.mem_filter.mp hword).2
    have hlt := accept?_lt hpos hoffset
    simpa only [hoffset, Option.getD_some, Finset.coe_range, Set.mem_Iio] using hlt

end Accept

/-! ## Integers from words -/

section Word

variable {lo hi n : Int64} {word : UInt64}

/-- The integer that a word leads to, if the word is accepted. Where all integers are asked for, a
word is an integer already. -/
def intOfWord? (lo hi : Int64) (word : UInt64) : Option Int64 :=
  if span lo hi = 0 then some word.toInt64
  else (accept? (span lo hi) word).map fun offset => lo + offset.toInt64

theorem intOfWord?_eq_some_iff (hspan : span lo hi ≠ 0) :
    intOfWord? lo hi word = some n ↔ accept? (span lo hi) word = some (n - lo).toUInt64 := by
  simp only [intOfWord?, if_neg hspan, Option.map_eq_some_iff, add_offset_eq_iff,
    exists_eq_right]

theorem toNat_span_pos (hspan : span lo hi ≠ 0) : 0 < (span lo hi).toNat :=
  Nat.pos_of_ne_zero fun h => hspan (UInt64.toNat_inj.mp h)

/-- All integers lie in the range whose span wraps around. -/
theorem between_of_span_eq_zero (hrange : lo ≤ hi) (hspan : span lo hi = 0) (n : Int64) :
    lo ≤ n ∧ n ≤ hi := by
  have hwidth := (span_eq_zero_iff hrange).mp hspan
  have hlo := lo.le_toInt
  have hhi := hi.toInt_lt
  have hn := n.le_toInt
  have hn' := n.toInt_lt
  rw [Int64.le_iff_toInt_le, Int64.le_iff_toInt_le]
  unfold width at hwidth
  omega

theorem between_of_intOfWord? (hrange : lo ≤ hi) (h : intOfWord? lo hi word = some n) :
    lo ≤ n ∧ n ≤ hi := by
  by_cases hspan : span lo hi = 0
  · exact between_of_span_eq_zero hrange hspan n
  · have hlt := accept?_lt (toNat_span_pos hspan) ((intOfWord?_eq_some_iff hspan).mp h)
    rw [toNat_span_of_ne hrange hspan, width] at hlt
    have hoffset := toNat_sub_toUInt64 n lo
    have hle := Int64.le_iff_toInt_le.mp hrange
    have hlo := lo.le_toInt
    have hhi := hi.toInt_lt
    have hn := n.le_toInt
    have hn' := n.toInt_lt
    rw [Int64.le_iff_toInt_le, Int64.le_iff_toInt_le]
    omega

theorem share_two_pow_64 : share (2 ^ 64) = 1 := by
  rw [share, Nat.log2_two_pow]
  rfl

/-- Every integer of the range has the same number of words. -/
theorem card_intOfWord? (hlo : lo ≤ n) (hhi : n ≤ hi) :
    (Finset.univ.filter fun word => intOfWord? lo hi word = some n).card =
      share (width lo hi) := by
  have hrange := Int64.le_trans hlo hhi
  by_cases hspan : span lo hi = 0
  · rw [(span_eq_zero_iff hrange).mp hspan, share_two_pow_64, Finset.card_eq_one]
    refine ⟨n.toUInt64, ?_⟩
    ext word
    simp only [intOfWord?, if_pos hspan, Option.some.injEq, Finset.mem_filter, Finset.mem_univ,
      true_and, Finset.mem_singleton]
    exact ⟨fun h => h ▸ rfl, fun h => h ▸ rfl⟩
  · have hlt : (n - lo).toUInt64.toNat < (span lo hi).toNat := by
      have hle := Int64.le_iff_toInt_le.mp hlo
      have hle' := Int64.le_iff_toInt_le.mp hhi
      rw [toNat_offset hlo, toNat_span_of_ne hrange hspan, width]
      omega
    simp only [intOfWord?_eq_some_iff hspan]
    rw [card_accept? hlt, toNat_span_of_ne hrange hspan]

theorem card_isSome_intOfWord? (hrange : lo ≤ hi) :
    (Finset.univ.filter fun word => (intOfWord? lo hi word).isSome).card =
      width lo hi * share (width lo hi) := by
  by_cases hspan : span lo hi = 0
  · rw [(span_eq_zero_iff hrange).mp hspan, share_two_pow_64]
    simp only [intOfWord?, if_pos hspan, Option.isSome_some, Finset.filter_true]
    exact card_univ
  · simp only [intOfWord?, if_neg hspan, Option.isSome_map]
    rw [card_isSome_accept? (toNat_span_pos hspan), toNat_span_of_ne hrange hspan]

/-- At least half of all words are accepted. -/
theorem le_card_isSome_intOfWord? (hrange : lo ≤ hi) :
    2 ^ 63 ≤ (Finset.univ.filter fun word => (intOfWord? lo hi word).isSome).card := by
  rw [card_isSome_intOfWord? hrange]
  rcases Nat.eq_or_lt_of_le (width_le lo hi) with hwidth | hwidth
  · rw [hwidth, share_two_pow_64]
    decide
  · exact le_mul_share (width_pos hrange) hwidth

end Word

/-! ## Reading until a word is accepted -/

section Reading

variable {lo hi n : Int64} {tape : Tape}

/-- The draw of an integer, given up after `allowance` words. -/
def uniformIntWithin (allowance : Nat) (lo hi : Int64) : Attempt DrawError Tape Int64 := do
  if span lo hi = 0 then return (← next).toInt64
  else return lo + (← firstAccepted (span lo hi) allowance).toInt64

theorem uniformInt_eq (hrange : lo ≤ hi) : uniformInt lo hi = uniformIntWithin patience lo hi := by
  rw [uniformInt, if_neg (Int64.not_lt.mpr hrange), uniformIntWithin]

/-- The words that a draw reads: all but the last one are rejected, and the last one leads to the
integer. -/
def Leads (lo hi : Int64) (tape : Tape) (rejected : Nat) (n : Int64) : Prop :=
  (∀ k < rejected, intOfWord? lo hi (tape.word (tape.position + k)) = none) ∧
    intOfWord? lo hi (tape.word (tape.position + rejected)) = some n

/-- The tape after a number of words more. -/
def skip (tape : Tape) (count : Nat) : Tape :=
  { tape with position := tape.position + count }

theorem skip_skip (tape : Tape) (m n : Nat) : (tape.skip m).skip n = tape.skip (m + n) := by
  rw [skip, skip, skip, Nat.add_assoc]

/-- A word further on is a word of the tape without its first one. -/
theorem word_skip_one (tape : Tape) (k : Nat) :
    (tape.skip 1).word ((tape.skip 1).position + k) = tape.word (tape.position + (k + 1)) := by
  rw [skip, Nat.add_assoc, Nat.add_comm 1]

theorem firstAccepted_succ (span : UInt64) (allowance : Nat) (tape : Tape) :
    firstAccepted span (allowance + 1) tape =
      match accept? span (tape.word tape.position) with
      | some offset => .ok offset (tape.skip 1)
      | none => firstAccepted span allowance (tape.skip 1) := by
  rw [firstAccepted, Attempt.bind_of_ok (x := next) rfl]
  cases accept? span (tape.word tape.position) <;> rfl

/-- Reading ends with the first accepted word, if it comes within the allowance. -/
theorem firstAccepted_of_accept? {span offset : UInt64} {rejected allowance : Nat}
    (hnone : ∀ k < rejected, accept? span (tape.word (tape.position + k)) = none)
    (hsome : accept? span (tape.word (tape.position + rejected)) = some offset)
    (hallowance : rejected < allowance) :
    firstAccepted span allowance tape = .ok offset (tape.skip (rejected + 1)) := by
  induction allowance generalizing tape rejected with
  | zero => omega
  | succ allowance ih =>
      rw [firstAccepted_succ]
      cases rejected with
      | zero => rw [← Nat.add_zero tape.position, hsome]
      | succ rejected =>
          have hfirst := hnone 0 (Nat.succ_pos rejected)
          rw [Nat.add_zero] at hfirst
          rw [hfirst]
          have hnone' (k : Nat) (hk : k < rejected) :
              accept? span ((tape.skip 1).word ((tape.skip 1).position + k)) = none := by
            rw [word_skip_one]
            exact hnone (k + 1) (Nat.succ_lt_succ hk)
          have hsome' : accept? span ((tape.skip 1).word ((tape.skip 1).position + rejected)) =
              some offset := by
            rw [word_skip_one]
            exact hsome
          rw [ih hnone' hsome' (Nat.lt_of_succ_lt_succ hallowance), skip_skip, Nat.add_comm 1]

/-- Reading is given up only when no word that the allowance admits is accepted. -/
theorem firstAccepted_eq_error {span : UInt64} {allowance : Nat} {halt : Halt DrawError}
    {last : Tape} (h : firstAccepted span allowance tape = .error halt last) :
    halt = .unfinished ∧ ∀ k < allowance, accept? span (tape.word (tape.position + k)) = none := by
  induction allowance generalizing tape with
  | zero =>
      cases h
      exact ⟨rfl, nofun⟩
  | succ allowance ih =>
      rw [firstAccepted_succ] at h
      cases hfirst : accept? span (tape.word tape.position) with
      | some offset => rw [hfirst] at h; cases h
      | none =>
          rw [hfirst] at h
          obtain ⟨hhalt, hlater⟩ := ih h
          refine ⟨hhalt, fun k hk => ?_⟩
          cases k with
          | zero => exact hfirst
          | succ k =>
              have hword := hlater k (by omega)
              rwa [word_skip_one] at hword

theorem uniformIntWithin_of_leads {rejected allowance : Nat} (h : Leads lo hi tape rejected n)
    (hallowance : rejected < allowance) :
    uniformIntWithin allowance lo hi tape = .ok n (tape.skip (rejected + 1)) := by
  obtain ⟨hnone, hsome⟩ := h
  by_cases hspan : span lo hi = 0
  · -- No word is rejected here.
    simp only [intOfWord?, if_pos hspan, reduceCtorEq, imp_false] at hnone
    obtain rfl : rejected = 0 := Nat.eq_zero_of_not_pos (hnone 0)
    simp only [intOfWord?, if_pos hspan, Option.some.injEq] at hsome
    rw [uniformIntWithin, if_pos hspan, ← hsome]
    rfl
  · simp only [intOfWord?, if_neg hspan, Option.map_eq_none_iff] at hnone
    rw [intOfWord?_eq_some_iff hspan] at hsome
    rw [uniformIntWithin, if_neg hspan, Attempt.bind_of_ok
      (firstAccepted_of_accept? hnone hsome hallowance), add_offset_eq_iff.mpr rfl]
    rfl

theorem uniformInt_eq_error (hrange : lo ≤ hi) {halt : Halt DrawError} {last : Tape}
    (h : uniformInt lo hi tape = .error halt last) :
    halt = .unfinished ∧
      ∀ k < patience, intOfWord? lo hi (tape.word (tape.position + k)) = none := by
  rw [uniformInt_eq hrange, uniformIntWithin] at h
  by_cases hspan : span lo hi = 0
  · rw [if_pos hspan] at h
    cases h
  · rw [if_neg hspan] at h
    rcases Attempt.bind_eq_error_iff.mp h with hloop | ⟨_, _, -, hreturn⟩
    · simp only [intOfWord?, if_neg hspan, Option.map_eq_none_iff]
      exact firstAccepted_eq_error hloop
    · exact absurd hreturn Attempt.pure_ne_error

/-- A fair die shows what the draw of an integer from one to its sides gives. -/
theorem face_of_leads {sides : UInt32} {journal : Array Event} {rejected : Nat}
    (hsides : 0 < sides.toNat) (h : Leads 1 (Dice.sidesInt64 sides) tape rejected n)
    (hpatience : rejected < patience) :
    Dice.fair.face sides ⟨tape, journal⟩ = .ok n ⟨tape.skip (rejected + 1),
      journal.push (.draw (.uniformInt 1 (Dice.sidesInt64 sides)))⟩ := by
  have hdraw := uniformIntWithin_of_leads h hpatience
  rw [← uniformInt_eq (Dice.one_le_sidesInt64 hsides)] at hdraw
  exact Sampler.primitive_of_ok hdraw

end Reading

theorem width_sides (sides : UInt32) (hsides : 0 < sides.toNat) :
    width 1 (Dice.sidesInt64 sides) = sides.toNat := by
  rw [width, Dice.sidesInt64_toInt, Int64.toInt_one]
  omega

/-- Integer draws are in range and fair. A draw reads words up to the first accepted one and gives
the integer to which this word leads. It is given up only if no word of a century is accepted. An
accepted word leads to an integer between the bounds, and to every such integer lead equally many of
all `2 ^ 64` words: one for the full range, and else as often twice as many as the span can be
doubled within a word. So at least half of all words are accepted. A fair die draws in this way from
one to its sides, and therefore shows each of its faces for equally many words. -/
theorem uniformInt_fair (lo hi : Int64) (hrange : lo ≤ hi) :
    uniformInt lo hi = uniformIntWithin patience lo hi ∧
    (∀ tape rejected n allowance, Leads lo hi tape rejected n → rejected < allowance →
      uniformIntWithin allowance lo hi tape = .ok n (tape.skip (rejected + 1))) ∧
    (∀ tape halt last, uniformInt lo hi tape = .error halt last → halt = .unfinished ∧
      ∀ k < patience, intOfWord? lo hi (tape.word (tape.position + k)) = none) ∧
    (∀ word n, intOfWord? lo hi word = some n → lo ≤ n ∧ n ≤ hi) ∧
    (∀ n, lo ≤ n → n ≤ hi →
      (Finset.univ.filter fun word => intOfWord? lo hi word = some n).card =
        2 ^ (63 - (width lo hi).log2)) ∧
    2 ^ 64 ≤ 2 * (Finset.univ.filter fun word => (intOfWord? lo hi word).isSome).card ∧
    ∀ sides : UInt32, 0 < sides.toNat →
      (∀ tape journal rejected n, Leads 1 (Dice.sidesInt64 sides) tape rejected n →
        rejected < patience →
        Dice.fair.face sides ⟨tape, journal⟩ = .ok n ⟨tape.skip (rejected + 1),
          journal.push (.draw (.uniformInt 1 (Dice.sidesInt64 sides)))⟩) ∧
      ∀ n : Int64, 1 ≤ n.toInt → n.toInt ≤ sides.toNat →
        (Finset.univ.filter fun word =>
          intOfWord? 1 (Dice.sidesInt64 sides) word = some n).card =
            2 ^ (63 - sides.toNat.log2) := by
  refine ⟨uniformInt_eq hrange, fun _ _ _ _ => uniformIntWithin_of_leads,
    fun _ _ _ => uniformInt_eq_error hrange, fun _ _ => between_of_intOfWord? hrange,
    fun _ => card_intOfWord?, ?_, fun sides hsides => ⟨fun _ _ _ _ => face_of_leads hsides, ?_⟩⟩
  · have hhalf := le_card_isSome_intOfWord? hrange
    omega
  · intro n hone hsidesn
    rw [← Int64.toInt_one, ← Int64.le_iff_toInt_le] at hone
    rw [← Dice.sidesInt64_toInt, ← Int64.le_iff_toInt_le] at hsidesn
    rw [card_intOfWord? hone hsidesn, width_sides sides hsides, share]

/-- An eighth of all words leads to each face of an ordinary die. -/
theorem uniformInt_fair_six : (1 : Int64) ≤ 6 ∧
    (Finset.univ.filter fun word => intOfWord? 1 6 word = some 4).card = 2 ^ 61 := by
  have hrange : (1 : Int64) ≤ 6 := by decide
  obtain ⟨-, -, -, -, hshare, -⟩ := uniformInt_fair 1 6 hrange
  exact ⟨hrange, hshare 4 (by decide) (by decide)⟩

end Tabletop.Tape
