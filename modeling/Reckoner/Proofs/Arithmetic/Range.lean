import Mathlib.Tactic.Linarith
import Reckoner.Proofs.Numbers

/-!
What is asked of an operation on 64-bit integers.

An operation is measured by whole-number arithmetic: `bounded` cuts an exact value
off at the range, and `Outcome.Gives` says that an outcome is the given value or
error and that every step it left to the machine was safe there (`Step.Sound`).
There is one rule for each way to come to an outcome: a value, an error, an
overflow, a value that is looked up in the range, and a step taken before.
-/

namespace Reckoner.Arithmetic

/-! ### Range -/

/-- The values of 64-bit integers. -/
def InRange (n : Int) : Prop :=
  -2 ^ 63 ≤ n ∧ n ≤ 2 ^ 63 - 1

instance (n : Int) : Decidable (InRange n) :=
  inferInstanceAs (Decidable (_ ∧ _))

theorem inRange_toInt (a : Int64) : InRange a.toInt := by
  have hmin := a.minValue_le_toInt
  have hmax := a.toInt_lt
  rw [Int64.toInt_minValue] at hmin
  constructor <;> omega

/-- Narrowing finds nothing for a value out of range. -/
theorem narrow?_eq_none_iff {n : Int} : narrow? n = none ↔ ¬ InRange n := by
  rw [narrow?, Int64.toInt_minValue, Int64.toInt_maxValue]
  exact ite_eq_right_iff.trans (by simp [InRange])

/-- Wrapping around does nothing to a value in range. -/
theorem bmod_of_inRange {n : Int} (h : InRange n) : n.bmod (2 ^ 64) = n := by
  obtain ⟨hmin, hmax⟩ := h
  apply Int.bmod_eq_of_le <;> omega

/-- A number out of range is still so after it is multiplied by a positive one. -/
theorem not_inRange_mul {n m : Int} (hn : ¬ InRange n) (hm : 0 < m) : ¬ InRange (n * m) := by
  rintro ⟨hmin, hmax⟩
  apply hn
  constructor
  · by_contra hlow
    nlinarith
  · by_contra hhigh
    nlinarith

theorem toInt_eq_zero_iff {a : Int64} : a.toInt = 0 ↔ a = 0 := by
  rw [← Int64.toInt_inj, Int64.toInt_zero]

theorem lt_zero_iff {a : Int64} : a < 0 ↔ a.toInt < 0 :=
  Int64.lt_iff_toInt_lt

/-! ### Counts -/

/-- A number up to the highest count is its own count. -/
theorem exists_count? {n : Int64} (hnonneg : 0 ≤ n.toInt) (hle : n.toInt ≤ maxCount.toNat) :
    ∃ count, count? n = some count ∧ count.toNat = n.toInt.toNat := by
  refine ⟨UInt32.ofNat n.toInt.toNat, by rw [count?, if_pos ⟨hnonneg, hle⟩], ?_⟩
  have hmax : maxCount.toNat < 2 ^ 32 := maxCount.toNat_lt
  rw [UInt32.toNat_ofNat', Nat.mod_eq_of_lt (by omega)]

theorem count?_of_lt {n : Int64} (hlt : (maxCount.toNat : Int) < n.toInt) : count? n = none := by
  rw [count?, if_neg]
  omega

/-! ### Steps and outcomes -/

/-- The machine's result is right: a remainder is taken where there is a quotient in range, a
difference or a sum is in range, and a count is below the width. -/
def Step.Sound : Step → Prop
  | remainder a b => b ≠ 0 ∧ InRange (a.toInt.tdiv b.toInt)
  | difference a b => InRange (a.toInt - b.toInt)
  | sum a b => InRange (a.toInt + b.toInt)
  | shiftRight _ count | shiftLeft _ count => count < 64

/-- An exact value, or an overflow of the operator if the value is out of range. -/
def bounded (operator : String) (n : Int) : Except Error.Kind Int :=
  if InRange n then .ok n else .error (.overflow operator)

/-- The outcome is the given value or error, and all steps on the way to it are sound. -/
structure Outcome.Gives (outcome : Outcome) (exact : Except Error.Kind Int) : Prop where
  result : outcome.result.map Int64.toInt = exact
  sound : ∀ step ∈ outcome.steps, step.Sound

namespace Outcome.Gives

theorem error (kind : Error.Kind) : (Outcome.error kind).Gives (.error kind) :=
  ⟨rfl, by simp [Outcome.error]⟩

/-- The value of a 64-bit integer is in range. -/
theorem ok {value : Int64} {n : Int} (h : value.toInt = n) (operator : String) :
    (Outcome.ok value).Gives (bounded operator n) := by
  subst h
  rw [bounded, if_pos (inRange_toInt value)]
  exact ⟨rfl, by simp [Outcome.ok]⟩

theorem overflow {n : Int} (h : ¬ InRange n) (operator : String) :
    (Outcome.error (.overflow operator)).Gives (bounded operator n) := by
  rw [bounded, if_neg h]
  exact error _

theorem orOverflow (operator : String) (n : Int) :
    (Outcome.orOverflow operator (narrow? n)).Gives (bounded operator n) := by
  cases hvalue : narrow? n with
  | none => exact overflow (narrow?_eq_none_iff.mp hvalue) operator
  | some value => exact ok (narrow?_eq_some_iff.mp hvalue) operator

theorem andThen {step : Step} {next : Int64 → Outcome} {exact : Except Error.Kind Int}
    (hsound : step.Sound) (h : (next step.value).Gives exact) :
    (step.andThen next).Gives exact := by
  refine ⟨h.result, ?_⟩
  intro other hmem
  rcases List.mem_cons.mp hmem with rfl | hmem
  · exact hsound
  · exact h.sound other hmem

end Outcome.Gives

end Reckoner.Arithmetic
