import Mathlib.Algebra.Ring.Parity
import Mathlib.Tactic.Ring
import Reckoner.Proofs.Arithmetic.Range

/-!
Powers are exact.

Squaring step by step overflows only where the power itself is out of range
(`scaledPower?_eq`): an odd factor that leaves the range is only multiplied by
squares after that, and a square that leaves it is too large for any other factor
to bring it back.
-/

namespace Reckoner.Arithmetic

/-! ### Squaring -/

/-- A square out of range is out of range for both signs. -/
theorem two_pow_lt_of_not_inRange {b : Int} (h : ¬ InRange (b * b)) : 2 ^ 63 < b * b := by
  have hnonneg : 0 ≤ b * b := mul_self_nonneg b
  have hbound : 2 ^ 63 ≤ b * b := by
    by_contra hnot
    exact h ⟨by omega, by omega⟩
  -- The bound itself, `2 ^ 63`, is no square.
  have hne : b.natAbs * b.natAbs ≠ 2 ^ 63 := by
    intro heq
    rcases Nat.lt_or_ge b.natAbs 3037000500 with hlow | hhigh
    · have hlow := Nat.le_of_lt_succ hlow
      have := Nat.mul_le_mul hlow hlow
      omega
    · have := Nat.mul_le_mul hhigh hhigh
      omega
  have habs : (b.natAbs : Int) * b.natAbs = b * b := Int.natAbs_mul_self' b
  omega

theorem not_inRange_mul_of_square {b m : Int} (hb : ¬ InRange (b * b)) (hm : m ≠ 0) :
    ¬ InRange (b * b * m) := by
  have hwide := two_pow_lt_of_not_inRange hb
  rintro ⟨hmin, hmax⟩
  rcases Int.lt_or_gt_of_ne hm with hneg | hpos
  · nlinarith
  · nlinarith

/-- A power is its last factor, if the exponent is odd, and a power of the square. -/
theorem mul_pow_eq (acc base : Int) (n : Nat) :
    acc * base ^ n = acc * base ^ (n % 2) * (base * base) ^ (n / 2) := by
  conv_lhs => rw [← Nat.mod_add_div n 2, pow_add, pow_mul, sq]
  rw [mul_assoc]

/-- If the last factor leads out of range, so does the power. -/
theorem not_inRange_of_factor {acc base : Int} {n : Nat} (hacc : InRange acc)
    (h : ¬ InRange (acc * base ^ (n % 2))) : ¬ InRange (acc * base ^ n) := by
  have hbase : base ≠ 0 := by
    rintro rfl
    apply h
    rcases Nat.mod_two_eq_zero_or_one n with hmod | hmod
    · simpa [hmod] using hacc
    · simpa [hmod] using inRange_toInt 0
  rw [mul_pow_eq]
  exact not_inRange_mul h (pow_pos (mul_self_pos.mpr hbase) _)

/-- If the square leads out of range, so does the power. -/
theorem not_inRange_of_square {acc base : Int} {n : Nat} (hn : 2 ≤ n) (hacc : acc ≠ 0)
    (h : ¬ InRange (base * base)) : ¬ InRange (acc * base ^ n) := by
  have hbase : base ≠ 0 := by
    rintro rfl
    exact h (inRange_toInt 0)
  obtain ⟨k, rfl⟩ := Nat.exists_eq_add_of_le hn
  have heq : acc * base ^ (2 + k) = base * base * (acc * base ^ k) := by ring
  rw [heq]
  exact not_inRange_mul_of_square h (mul_ne_zero hacc (pow_ne_zero k hbase))

theorem factor_eq_narrow? (acc base : Int64) (n : Nat) :
    (if n % 2 = 1 then product? acc base else some acc) =
      narrow? (acc.toInt * base.toInt ^ (n % 2)) := by
  rcases Nat.mod_two_eq_zero_or_one n with hmod | hmod
  · rw [hmod, if_neg (by decide), pow_zero, mul_one]
    exact (narrow?_eq_some_iff.mpr rfl).symm
  · rw [hmod, if_pos rfl, pow_one, product?]

/-- **Squaring gives the exact power** if it is in range, and nothing otherwise. A factor of zero
would hide a square out of range, but comes from a base of zero only. -/
theorem scaledPower?_eq {acc base : Int64} (n : Nat) (h : acc = 0 → base = 0) :
    scaledPower? acc base n = narrow? (acc.toInt * base.toInt ^ n) := by
  induction n using Nat.strongRecOn generalizing acc base with
  | ind n ih =>
    rw [scaledPower?]
    by_cases hzero : n = 0
    · rw [if_pos hzero, hzero, pow_zero, mul_one]
      exact (narrow?_eq_some_iff.mpr rfl).symm
    by_cases hone : n = 1
    · rw [if_neg hzero, if_pos hone, hone, pow_one, product?]
    rw [if_neg hzero, if_neg hone, factor_eq_narrow?, product?]
    cases hfactor : narrow? (acc.toInt * base.toInt ^ (n % 2)) with
    | none =>
      have hout := not_inRange_of_factor (inRange_toInt acc) (narrow?_eq_none_iff.mp hfactor)
      exact (narrow?_eq_none_iff.mpr hout).symm
    | some acc' =>
      cases hsquare : narrow? (base.toInt * base.toInt) with
      | none =>
        rw [narrow?_eq_none_iff] at hsquare
        have hacc : acc.toInt ≠ 0 := by
          intro hacc
          have hbase := h (toInt_eq_zero_iff.mp hacc)
          exact hsquare (by simpa [hbase] using inRange_toInt 0)
        exact (narrow?_eq_none_iff.mpr (not_inRange_of_square (by omega) hacc hsquare)).symm
      | some square =>
        rw [narrow?_eq_some_iff] at hfactor hsquare
        rw [mul_pow_eq, ← hfactor, ← hsquare]
        refine ih (n / 2) (by omega) ?_
        rintro rfl
        have hbase : base.toInt = 0 := by
          rcases mul_eq_zero.mp hfactor.symm with hacc | hpow
          · exact toInt_eq_zero_iff.mpr (h (toInt_eq_zero_iff.mp hacc))
          · exact eq_zero_of_pow_eq_zero hpow
        rw [← toInt_eq_zero_iff, hsquare, hbase, mul_zero]

/-! ### High exponents -/

theorem not_inRange_pow {b : Int} {n : Nat} (hb : 2 ≤ b.natAbs) (hn : 64 ≤ n) :
    ¬ InRange (b ^ n) := by
  rintro ⟨hmin, hmax⟩
  have hwide : 2 ^ 64 ≤ (b ^ n).natAbs := by
    rw [Int.natAbs_pow]
    calc 2 ^ 64 ≤ 2 ^ n := Nat.pow_le_pow_right (by decide) hn
      _ ≤ b.natAbs ^ n := Nat.pow_le_pow_left hb n
  omega

/-- The parity of an exponent decides the power of `-1`. -/
theorem toInt_parity {exponent : Int64} (h : 0 ≤ exponent.toInt) :
    (if exponent % 2 = 0 then (1 : Int64) else -1).toInt = (-1) ^ exponent.toInt.toNat := by
  have hmod : exponent % 2 = 0 ↔ exponent.toInt.toNat % 2 = 0 := by
    rw [← toInt_eq_zero_iff, Int64.toInt_mod, Int.tmod_eq_emod_of_nonneg h]
    change exponent.toInt % 2 = 0 ↔ _
    omega
  by_cases heven : exponent % 2 = 0
  · rw [if_pos heven, (Nat.even_iff.mpr (hmod.mp heven)).neg_one_pow]
    rfl
  · have hodd : exponent.toInt.toNat % 2 = 1 := by
      have hnot := mt hmod.mpr heven
      omega
    rw [if_neg heven, (Nat.odd_iff.mpr hodd).neg_one_pow]
    rfl

/-! ### The operation -/

theorem power_gives (base exponent : Int64) :
    (power base exponent).Gives (if exponent.toInt < 0 then .error .negativeExponent
      else bounded "**" (base.toInt ^ exponent.toInt.toNat)) := by
  unfold power
  by_cases hneg : exponent.toInt < 0
  · rw [if_pos (lt_zero_iff.mpr hneg), if_pos hneg]
    exact .error _
  rw [if_neg (mt lt_zero_iff.mp hneg), if_neg hneg]
  have hnonneg := Int.not_lt.mp hneg
  by_cases hle : exponent.toInt ≤ maxCount.toNat
  · obtain ⟨count, hcount, hnat⟩ := exists_count? hnonneg hle
    simp only [hcount, hnat]
    rw [scaledPower?_eq _ (by simp), Int64.toInt_one, one_mul]
    exact .orOverflow _ _
  have hlong : 64 ≤ exponent.toInt.toNat := by
    change ¬ exponent.toInt ≤ 4294967295 at hle
    omega
  rw [count?_of_lt (Int.not_le.mp hle)]
  dsimp only
  by_cases hsmall : base = 0 ∨ base = 1
  · rw [if_pos hsmall]
    refine .ok ?_ _
    rcases hsmall with rfl | rfl
    · exact (zero_pow (by omega)).symm
    · exact (one_pow _).symm
  rw [if_neg hsmall]
  by_cases hminus : base = -1
  · rw [if_pos hminus, hminus]
    refine .andThen ⟨by decide, ?_⟩ (.ok (toInt_parity hnonneg) _)
    rw [← Int64.toInt_div_of_ne_right exponent 2 (by decide)]
    exact inRange_toInt _
  · rw [if_neg hminus]
    refine .overflow (not_inRange_pow ?_ hlong) _
    simp only [← Int64.toInt_inj, Int64.toInt_zero, Int64.toInt_one, not_or] at hsmall hminus
    change ¬ base.toInt = -1 at hminus
    omega

end Reckoner.Arithmetic
