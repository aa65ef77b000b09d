import Mathlib.Data.Int.Bitwise
import Mathlib.Tactic.Positivity
import Reckoner.Proofs.Arithmetic.Range

/-!
Bits and shifts are exact.

A 64-bit integer has the bits of its value, with the sign repeated to the left
(`testBit_toInt`), so an operation bit by bit is the same on words and on integers.
Shifting back undoes a shift to the left exactly when the result is in range
(`shiftRight_shiftLeft_eq_iff`), which is how the operation finds an overflow.
-/

namespace Reckoner.Arithmetic

/-! ### Bits -/

/-- An integer is determined by its bits. -/
theorem eq_of_testBit_eq {m n : Int} (h : ∀ i, m.testBit i = n.testBit i) : m = n := by
  -- Far to the left, the bits of an integer repeat its sign.
  have hsigns : ∀ a b : Nat, ¬ ∀ i, (Int.ofNat a).testBit i = (Int.negSucc b).testBit i := by
    intro a b hbits
    have ha : a < 2 ^ (a + b) :=
      Nat.lt_of_lt_of_le Nat.lt_two_pow_self (Nat.pow_le_pow_right (by decide) (by omega))
    have hb : b < 2 ^ (a + b) :=
      Nat.lt_of_lt_of_le Nat.lt_two_pow_self (Nat.pow_le_pow_right (by decide) (by omega))
    have hbit := hbits (a + b)
    simp [Int.testBit, Nat.testBit_lt_two_pow ha, Nat.testBit_lt_two_pow hb] at hbit
  cases m with
  | ofNat a =>
    cases n with
    | ofNat b => exact congrArg Int.ofNat (Nat.eq_of_testBit_eq h)
    | negSucc b => exact absurd h (hsigns a b)
  | negSucc a =>
    cases n with
    | ofNat b => exact absurd (fun i => (h i).symm) (hsigns b a)
    | negSucc b =>
      refine congrArg Int.negSucc (Nat.eq_of_testBit_eq ?_)
      intro i
      simpa [Int.testBit] using h i

/-- The bits of a value are those of the word, with the sign repeated to the left. -/
theorem testBit_toInt (a : Int64) (i : Nat) :
    a.toInt.testBit i = if i < 64 then a.toBitVec.getLsbD i else a.toBitVec.msb := by
  have hword : a.toInt = a.toBitVec.toInt := rfl
  cases hmsb : a.toBitVec.msb with
  | false =>
    have hnat : a.toInt = Int.ofNat a.toBitVec.toNat := by
      rw [hword, BitVec.toInt_eq_toNat_of_msb hmsb]
      rfl
    rw [hnat]
    change a.toBitVec.getLsbD i = _
    split
    · rfl
    · next hi => exact BitVec.getLsbD_of_ge _ _ (Nat.not_lt.mp hi)
  | true =>
    have hneg : a.toInt = Int.negSucc (~~~a.toBitVec).toNat := by
      have hlt := a.toBitVec.isLt
      rw [hword, BitVec.toInt_eq_msb_cond, if_pos hmsb, BitVec.toNat_not, Int.negSucc_eq]
      omega
    rw [hneg]
    change (!(~~~a.toBitVec).getLsbD i) = _
    split
    · next hi => simp [hi]
    · next hi => simp [hi]

/-- An operation that acts on words bit by bit acts so on values. -/
theorem toInt_eq_of_bits {f : Bool → Bool → Bool} {a b c : Int64} {n : Int}
    (hbits : ∀ i, c.toBitVec.getLsbD i = f (a.toBitVec.getLsbD i) (b.toBitVec.getLsbD i))
    (hsign : c.toBitVec.msb = f a.toBitVec.msb b.toBitVec.msb)
    (hn : ∀ i, n.testBit i = f (a.toInt.testBit i) (b.toInt.testBit i)) : c.toInt = n := by
  apply eq_of_testBit_eq
  intro i
  rw [hn, testBit_toInt, testBit_toInt, testBit_toInt]
  split
  · exact hbits i
  · exact hsign

theorem toInt_or (a b : Int64) : (a ||| b).toInt = Int.lor a.toInt b.toInt :=
  toInt_eq_of_bits (fun _ => BitVec.getLsbD_or) (BitVec.msb_or ..) (Int.testBit_lor _ _)

theorem toInt_xor (a b : Int64) : (a ^^^ b).toInt = Int.xor a.toInt b.toInt :=
  toInt_eq_of_bits (fun _ => BitVec.getLsbD_xor) (BitVec.msb_xor ..) (Int.testBit_lxor _ _)

theorem toInt_and (a b : Int64) : (a &&& b).toInt = Int.land a.toInt b.toInt :=
  toInt_eq_of_bits (fun _ => BitVec.getLsbD_and) (BitVec.msb_and ..) (Int.testBit_land _ _)

theorem toInt_not (a : Int64) : (~~~a).toInt = -a.toInt - 1 := by
  obtain ⟨hmin, hmax⟩ := inRange_toInt a
  rw [Int64.toInt_not, bmod_of_inRange]
  constructor <;> omega

/-! ### Counts -/

theorem shiftCount_of_neg {n : Int64} (h : n.toInt < 0) :
    shiftCount n = .error .negativeShiftCount := by
  rw [shiftCount, if_pos (lt_zero_iff.mpr h)]

/-- A number that is not negative has a count, which is the number itself if it is below the width
and is not below it otherwise. -/
theorem exists_shiftCount {n : Int64} (h : 0 ≤ n.toInt) :
    ∃ count : UInt32, shiftCount n = .ok count ∧
      (count < 64 ∧ count.toNat = n.toInt.toNat ∨ 64 ≤ count ∧ 64 ≤ n.toInt.toNat) := by
  have hnot : ¬ n < 0 := fun hlt => absurd (lt_zero_iff.mp hlt) (Int.not_lt.mpr h)
  refine ⟨(count? n).getD maxCount, by rw [shiftCount, if_neg hnot], ?_⟩
  by_cases hle : n.toInt ≤ maxCount.toNat
  · obtain ⟨count, hcount, hnat⟩ := exists_count? h hle
    rw [hcount, Option.getD_some, UInt32.lt_iff_toNat_lt, UInt32.le_iff_toNat_le, hnat]
    change n.toInt.toNat < 64 ∧ _ ∨ 64 ≤ n.toInt.toNat ∧ _
    omega
  · have hlt := Int.not_le.mp hle
    rw [count?_of_lt hlt, Option.getD_none]
    refine .inr ⟨by decide, ?_⟩
    change (4294967295 : Int) < n.toInt at hlt
    omega

/-- Of a count below the width, the machine uses every bit. -/
theorem toNat_smod_count {count : UInt32} (h : count < 64) :
    (count.toUInt64.toInt64.toBitVec.smod 64).toNat = count.toNat := by
  have hall : ∀ n < 64, ((BitVec.ofNat 64 n).smod 64).toNat = n := by decide
  have hbits : count.toUInt64.toInt64.toBitVec = BitVec.ofNat 64 count.toNat := by
    apply BitVec.eq_of_toNat_eq
    simp
  rw [hbits]
  exact hall _ (UInt32.lt_iff_toNat_lt.mp h)

/-! ### Shifts of the machine -/

theorem toInt_shiftRight (a : Int64) {count : UInt32} (h : count < 64) :
    (Step.shiftRight a count).value.toInt = a.toInt / 2 ^ count.toNat := by
  have hbits : (Step.shiftRight a count).value.toBitVec = a.toBitVec.sshiftRight count.toNat := by
    rw [Step.value, Int64.toBitVec_shiftRight, BitVec.sshiftRight', toNat_smod_count h]
  calc (Step.shiftRight a count).value.toInt
      = (a.toBitVec.sshiftRight count.toNat).toInt := congrArg BitVec.toInt hbits
    _ = a.toInt >>> count.toNat := BitVec.toInt_sshiftRight
    _ = a.toInt / 2 ^ count.toNat := by rw [Int.shiftRight_eq_div_pow]; norm_cast

theorem toInt_shiftLeft (a : Int64) {count : UInt32} (h : count < 64) :
    (Step.shiftLeft a count).value.toInt = (a.toInt * 2 ^ count.toNat).bmod (2 ^ 64) := by
  have hbits : (Step.shiftLeft a count).value.toBitVec = a.toBitVec <<< count.toNat := by
    rw [Step.value, Int64.toBitVec_shiftLeft, BitVec.shiftLeft_eq', toNat_smod_count h]
  calc (Step.shiftLeft a count).value.toInt
      = (a.toBitVec <<< count.toNat).toInt := congrArg BitVec.toInt hbits
    _ = ((a.toBitVec.toNat : Int) * 2 ^ count.toNat).bmod (2 ^ 64) := by
      rw [BitVec.toInt_shiftLeft, Nat.shiftLeft_eq]
      norm_cast
    _ = (a.toInt * 2 ^ count.toNat).bmod (2 ^ 64) := by
      rw [← Int.bmod_mul_bmod, ← BitVec.toInt_eq_toNat_bmod]
      rfl

/-- A shift to the left is exact if its result is in range. -/
theorem toInt_shiftLeft_eq_iff (a : Int64) {count : UInt32} (h : count < 64) :
    (Step.shiftLeft a count).value.toInt = a.toInt * 2 ^ count.toNat ↔
      InRange (a.toInt * 2 ^ count.toNat) := by
  constructor
  · intro hexact
    rw [← hexact]
    exact inRange_toInt _
  · intro hrange
    rw [toInt_shiftLeft a h, bmod_of_inRange hrange]

/-- Shifting back undoes a shift to the left if its result is in range. -/
theorem shiftRight_shiftLeft_eq_iff (a : Int64) {count : UInt32} (h : count < 64) :
    (Step.shiftRight (Step.shiftLeft a count).value count).value = a ↔
      InRange (a.toInt * 2 ^ count.toNat) := by
  rw [← toInt_shiftLeft_eq_iff a h, ← Int64.toInt_inj, toInt_shiftRight _ h]
  constructor
  · intro hback
    -- What is lost at the top is a multiple of `2 ^ 64`, so of the power of the shift as well.
    have hlost : (2 : Int) ^ count.toNat ∣
        (Step.shiftLeft a count).value.toInt - a.toInt * 2 ^ count.toNat := by
      have hpow : (2 : Int) ^ count.toNat ∣ ((2 ^ 64 : Nat) : Int) := by
        exact_mod_cast pow_dvd_pow 2 (UInt32.lt_iff_toNat_lt.mp h).le
      rw [toInt_shiftLeft a h]
      exact hpow.trans Int.dvd_bmod_sub_self
    have hdvd := (Int.dvd_iff_dvd_of_dvd_sub hlost).mpr (dvd_mul_left _ a.toInt)
    rw [← hback, Int.ediv_mul_cancel hdvd]
  · intro hexact
    rw [hexact, Int.mul_ediv_cancel _ (by positivity)]

/-! ### The operations -/

/-- A shift by the whole width leaves the sign. -/
theorem ediv_two_pow {a : Int64} {n : Nat} (hn : 64 ≤ n) :
    a.toInt / 2 ^ n = if a < 0 then -1 else 0 := by
  obtain ⟨hmin, hmax⟩ := inRange_toInt a
  have hwide : (2 : Int) ^ 64 ≤ 2 ^ n := pow_le_pow_right₀ (by decide) hn
  by_cases hneg : a < 0
  · rw [if_pos hneg]
    exact Int.ediv_eq_neg_one_of_neg_of_le (lt_zero_iff.mp hneg) (by omega)
  · rw [if_neg hneg]
    have hnonneg := Int.not_lt.mp (mt lt_zero_iff.mpr hneg)
    exact Int.ediv_eq_zero_of_lt hnonneg (by omega)

theorem shiftRight_gives (a n : Int64) :
    (shiftRight a n).Gives (if n.toInt < 0 then .error .negativeShiftCount
      else bounded ">>" (a.toInt.fdiv (2 ^ n.toInt.toNat))) := by
  unfold shiftRight
  by_cases hneg : n.toInt < 0
  · rw [shiftCount_of_neg hneg, if_pos hneg]
    exact .error _
  rw [if_neg hneg, Int.fdiv_eq_ediv_of_nonneg _ (by positivity)]
  obtain ⟨count, hcount, ⟨hlow, hnat⟩ | ⟨hhigh, hnat⟩⟩ := exists_shiftCount (Int.not_lt.mp hneg)
  · simp only [hcount]
    rw [if_neg (UInt32.not_le.mpr hlow), ← hnat]
    exact .andThen hlow (.ok (toInt_shiftRight a hlow) _)
  · simp only [hcount]
    rw [if_pos hhigh]
    refine .ok ?_ _
    rw [ediv_two_pow hnat]
    split <;> rfl

/-- A shift by the whole width moves every bit out of range. -/
theorem not_inRange_mul_two_pow {a : Int64} (ha : a ≠ 0) {n : Nat} (hn : 64 ≤ n) :
    ¬ InRange (a.toInt * 2 ^ n) := by
  have hne := mt toInt_eq_zero_iff.mp ha
  have hwide : (2 : Int) ^ 64 ≤ 2 ^ n := pow_le_pow_right₀ (by decide) hn
  rintro ⟨hmin, hmax⟩
  rcases Int.lt_or_gt_of_ne hne with hneg | hpos
  · nlinarith
  · nlinarith

theorem shiftLeft_gives (a n : Int64) :
    (shiftLeft a n).Gives (if n.toInt < 0 then .error .negativeShiftCount
      else bounded "<<" (a.toInt * 2 ^ n.toInt.toNat)) := by
  unfold shiftLeft
  by_cases hneg : n.toInt < 0
  · rw [shiftCount_of_neg hneg, if_pos hneg]
    exact .error _
  rw [if_neg hneg]
  obtain ⟨count, hcount, hcases⟩ := exists_shiftCount (Int.not_lt.mp hneg)
  simp only [hcount]
  by_cases ha : a = 0
  · rw [if_pos ha]
    exact .ok (by simp [ha]) _
  rw [if_neg ha]
  rcases hcases with ⟨hlow, hnat⟩ | ⟨hhigh, hnat⟩
  · rw [if_neg (UInt32.not_le.mpr hlow), ← hnat]
    refine .andThen hlow (.andThen hlow ?_)
    by_cases hrange : InRange (a.toInt * 2 ^ count.toNat)
    · rw [if_pos ((shiftRight_shiftLeft_eq_iff a hlow).mpr hrange)]
      exact .ok ((toInt_shiftLeft_eq_iff a hlow).mpr hrange) _
    · rw [if_neg (mt (shiftRight_shiftLeft_eq_iff a hlow).mp hrange)]
      exact .overflow hrange _
  · rw [if_pos hhigh]
    exact .overflow (not_inRange_mul_two_pow ha hnat) _

end Reckoner.Arithmetic
