import Mathlib.Tactic.Ring
import Reckoner.Proofs.Arithmetic.Range

/-!
Division and remainder go to the floor.

Both operations start from the quotient rounded towards zero. It is one too high
exactly where the division is not exact and the signs of the operands differ
(`RoundsUp`); the remainder tells as much by its own sign (`roundsUp_iff_mod`).
-/

namespace Reckoner.Arithmetic

/-! ### Rounding -/

/-- Rounding towards zero goes up. -/
def RoundsUp (a b : Int) : Prop :=
  a.tmod b ≠ 0 ∧ ¬ (a < 0 ↔ b < 0)

theorem fdiv_of_roundsUp {a b : Int} (hb : b ≠ 0) (h : RoundsUp a b) :
    a.fdiv b = a.tdiv b - 1 := by
  obtain ⟨hrem, hsigns⟩ := h
  have hdvd : ¬ b ∣ a := fun hdvd => hrem (Int.dvd_iff_tmod_eq_zero.mp hdvd)
  rw [Int.fdiv_eq_tdiv, if_neg hdvd]
  rcases Int.lt_or_gt_of_ne hb with hneg | hpos
  · rw [if_pos (by omega), if_neg (by omega)]
  · rw [if_neg (by omega), if_pos (by omega), Int.sign_eq_one_of_pos hpos]

theorem fdiv_of_not_roundsUp {a b : Int} (hb : b ≠ 0) (h : ¬ RoundsUp a b) :
    a.fdiv b = a.tdiv b := by
  rw [Int.fdiv_eq_tdiv]
  by_cases hrem : a.tmod b = 0
  · simp [Int.dvd_iff_tmod_eq_zero.mpr hrem]
  · have hsigns : a < 0 ↔ b < 0 := Classical.not_not.mp fun hsigns => h ⟨hrem, hsigns⟩
    rcases Int.lt_or_gt_of_ne hb with hneg | hpos
    · have ha : ¬ 0 ≤ a := by omega
      have hb : ¬ 0 ≤ b := by omega
      simp [ha, hb, Int.sign_eq_neg_one_of_neg hneg]
    · have ha : 0 ≤ a := by omega
      have hb : 0 ≤ b := by omega
      simp [ha, hb]

/-- A remainder has the sign of the dividend. -/
theorem tmod_neg_iff {a b : Int} (hrem : a.tmod b ≠ 0) : a.tmod b < 0 ↔ a < 0 := by
  constructor
  · intro hneg
    by_contra hnot
    have hnonneg := Int.tmod_nonneg b (Int.not_lt.mp hnot)
    omega
  · intro hneg
    have hnonneg := Int.tmod_nonneg b (a := -a) (by omega)
    rw [Int.neg_tmod] at hnonneg
    omega

theorem roundsUp_iff {a b : Int64} :
    RoundsUp a.toInt b.toInt ↔ a % b ≠ 0 ∧ decide (a < 0) ≠ decide (b < 0) := by
  simp only [RoundsUp, ← Int64.toInt_mod, ne_eq, toInt_eq_zero_iff, decide_eq_decide, lt_zero_iff]

/-- The sign of the remainder can stand for that of the dividend. -/
theorem roundsUp_iff_mod {a b : Int64} :
    RoundsUp a.toInt b.toInt ↔ a % b ≠ 0 ∧ decide (a % b < 0) ≠ decide (b < 0) := by
  rw [roundsUp_iff]
  refine and_congr_right fun hrem => ?_
  have hsign : a % b < 0 ↔ a < 0 := by
    rw [lt_zero_iff, lt_zero_iff, Int64.toInt_mod]
    apply tmod_neg_iff
    rwa [← Int64.toInt_mod, ne_eq, toInt_eq_zero_iff]
  rw [decide_eq_decide.mpr hsign]

/-! ### Range of the steps -/

/-- One below a quotient is in range if there is a remainder: the divisor is then at least two, so
the quotient is at most half as wide as the dividend. -/
theorem inRange_tdiv_sub_one {a b : Int} (ha : InRange a) (hb : b ≠ 0) (hrem : a.tmod b ≠ 0) :
    InRange (a.tdiv b - 1) := by
  have htwo : 2 ≤ b.natAbs := by
    by_contra hnot
    obtain rfl | rfl : b = 1 ∨ b = -1 := by omega
    · simp at hrem
    · simp at hrem
  have habs : (a.tdiv b).natAbs ≤ a.natAbs / 2 := by
    rw [Int.natAbs_tdiv]
    exact Nat.div_le_div_left htwo (by decide)
  obtain ⟨hmin, hmax⟩ := ha
  constructor <;> omega

/-- A remainder and a divisor of the other sign have a sum in range. -/
theorem inRange_mod_add {a b : Int64} (h : RoundsUp a.toInt b.toInt) :
    InRange ((a % b).toInt + b.toInt) := by
  obtain ⟨hrem, hsigns⟩ := h
  have hsign := tmod_neg_iff hrem
  rw [← Int64.toInt_mod] at hsign
  obtain ⟨hmin, hmax⟩ := inRange_toInt (a % b)
  obtain ⟨hmin', hmax'⟩ := inRange_toInt b
  constructor <;> omega

/-! ### The quotient rounded towards zero -/

theorem quotient?_eq_none_iff {a b : Int64} (hb : b ≠ 0) :
    quotient? a b = none ↔ a = Int64.minValue ∧ b = -1 := by
  simp [quotient?, hb]

theorem toInt_of_quotient? {a b quotient : Int64} (h : quotient? a b = some quotient) :
    quotient.toInt = a.toInt.tdiv b.toInt := by
  obtain ⟨hnot, hvalue⟩ := Option.ite_none_left_eq_some.mp h
  cases hvalue
  by_cases hb : b = -1
  · exact Int64.toInt_div_of_ne_left a b fun ha => hnot (.inr ⟨ha, hb⟩)
  · exact Int64.toInt_div_of_ne_right a b hb

/-! ### The operations -/

theorem floorDivide_gives (a b : Int64) :
    (floorDivide a b).Gives (if b.toInt = 0 then .error .divisionByZero
      else bounded "/" (a.toInt.fdiv b.toInt)) := by
  unfold floorDivide
  by_cases hzero : b = 0
  · rw [if_pos hzero, if_pos (toInt_eq_zero_iff.mpr hzero)]
    exact .error _
  have hne := mt toInt_eq_zero_iff.mp hzero
  rw [if_neg hzero, if_neg hne]
  cases hquotient : quotient? a b with
  | none =>
    obtain ⟨rfl, rfl⟩ := (quotient?_eq_none_iff hzero).mp hquotient
    exact .overflow (by decide) _
  | some quotient =>
    have hexact := toInt_of_quotient? hquotient
    refine .andThen ⟨hzero, hexact ▸ inRange_toInt quotient⟩ ?_
    by_cases hup : RoundsUp a.toInt b.toInt
    · have hdown : (Step.remainder a b).value ≠ 0 ∧ decide (a < 0) ≠ decide (b < 0) :=
        roundsUp_iff.mp hup
      have hrange : InRange (quotient.toInt - 1) := by
        rw [hexact]
        exact inRange_tdiv_sub_one (inRange_toInt a) hne hup.1
      rw [if_pos hdown, fdiv_of_roundsUp hne hup, ← hexact]
      refine .andThen hrange (.ok ?_ _)
      exact (Int64.toInt_sub quotient 1).trans (bmod_of_inRange hrange)
    · have hdown : ¬ ((Step.remainder a b).value ≠ 0 ∧ decide (a < 0) ≠ decide (b < 0)) :=
        mt roundsUp_iff.mpr hup
      rw [if_neg hdown, fdiv_of_not_roundsUp hne hup, ← hexact]
      exact .ok rfl _

theorem floorModulo_gives (a b : Int64) :
    (floorModulo a b).Gives (if b.toInt = 0 then .error .divisionByZero
      else bounded "%" (a.toInt - b.toInt * a.toInt.fdiv b.toInt)) := by
  unfold floorModulo
  by_cases hzero : b = 0
  · rw [if_pos hzero, if_pos (toInt_eq_zero_iff.mpr hzero)]
    exact .error _
  have hne := mt toInt_eq_zero_iff.mp hzero
  have hrem : (a % b).toInt = a.toInt - b.toInt * a.toInt.tdiv b.toInt := by
    rw [Int64.toInt_mod, Int.tmod_def]
  rw [if_neg hzero, if_neg hne]
  dsimp only
  by_cases hup : RoundsUp a.toInt b.toInt
  · have hsum : a.toInt - b.toInt * a.toInt.fdiv b.toInt = (a % b).toInt + b.toInt := by
      rw [fdiv_of_roundsUp hne hup, hrem]
      ring
    have hrange := inRange_mod_add hup
    rw [if_pos (roundsUp_iff_mod.mp hup), hsum]
    refine .andThen hrange (.ok ?_ _)
    exact (Int64.toInt_add _ b).trans (bmod_of_inRange hrange)
  · rw [if_neg (mt roundsUp_iff_mod.mpr hup), fdiv_of_not_roundsUp hne hup, ← hrem]
    exact .ok rfl _

end Reckoner.Arithmetic
