import Reckoner.Error

/-!
Arithmetic on 64-bit integers.

Every operation either gives the exact result of whole-number arithmetic or
fails: a result out of range is an overflow that names the operator, and a zero
divisor, a negative shift count and a negative exponent are refused whatever the
other operand is. Division and remainder go to the floor, so a remainder has the
sign of the divisor.

Some steps are left to the machine, which does not look whether their result is
right. An `Outcome` keeps a list of them beside the result.
-/

namespace Reckoner.Arithmetic

/-! ### Range -/

/-- The 64-bit integer of a given value, if the value is in range. -/
def narrow? (n : Int) : Option Int64 :=
  if Int64.minValue.toInt ≤ n ∧ n ≤ Int64.maxValue.toInt then some (Int64.ofInt n) else none

/-- The highest count of 32 bits. -/
def maxCount : UInt32 := 4294967295

/-- The 32-bit count of a given value, if the value is in range. -/
def count? (n : Int64) : Option UInt32 :=
  if 0 ≤ n.toInt ∧ n.toInt ≤ maxCount.toNat then some (UInt32.ofNat n.toInt.toNat) else none

/-! ### Outcomes -/

/-- A step that is left to the machine. -/
inductive Step where
  | remainder (a b : Int64)
  | difference (a b : Int64)
  | sum (a b : Int64)
  | shiftRight (a : Int64) (count : UInt32)
  | shiftLeft (a : Int64) (count : UInt32)
deriving DecidableEq, Repr

/-- What the machine makes of a step: differences and sums wrap around, and only the last six bits
of a count matter. -/
def Step.value : Step → Int64
  | remainder a b => a % b
  | difference a b => a - b
  | sum a b => a + b
  | shiftRight a count => a >>> count.toUInt64.toInt64
  | shiftLeft a count => a <<< count.toUInt64.toInt64

/-- What came of an operation, and the steps it left to the machine, in the order in which they
were taken. -/
structure Outcome where
  result : Except Error.Kind Int64
  steps : List Step

namespace Outcome

def ok (value : Int64) : Outcome :=
  ⟨.ok value, []⟩

def error (kind : Error.Kind) : Outcome :=
  ⟨.error kind, []⟩

def orOverflow (operator : String) : Option Int64 → Outcome
  | some value => ok value
  | none => error (.overflow operator)

end Outcome

def Step.andThen (step : Step) (next : Int64 → Outcome) : Outcome :=
  ⟨(next step.value).result, step :: (next step.value).steps⟩

open Outcome (orOverflow)

/-! ### Bits -/

def bitOr (a b : Int64) : Outcome :=
  .ok (a ||| b)

def bitXor (a b : Int64) : Outcome :=
  .ok (a ^^^ b)

def bitAnd (a b : Int64) : Outcome :=
  .ok (a &&& b)

/-- The count of a shift; counts that are too high to matter are all the same. -/
def shiftCount (n : Int64) : Except Error.Kind UInt32 :=
  if n < 0 then .error .negativeShiftCount else .ok ((count? n).getD maxCount)

/-- Shifts right, filling with the sign: counts of 64 and more leave only the sign. -/
def shiftRight (a n : Int64) : Outcome :=
  match shiftCount n with
  | .error kind => .error kind
  | .ok count =>
    if 64 ≤ count then .ok (if a < 0 then -1 else 0)
    else (Step.shiftRight a count).andThen .ok

/-- Shifts left; a bit lost at the top, or moved into the sign, shows when shifting back. -/
def shiftLeft (a n : Int64) : Outcome :=
  match shiftCount n with
  | .error kind => .error kind
  | .ok count =>
    if a = 0 then .ok 0
    else if 64 ≤ count then .error (.overflow "<<")
    else
      (Step.shiftLeft a count).andThen fun shifted =>
        (Step.shiftRight shifted count).andThen fun back =>
          if back = a then .ok shifted else .error (.overflow "<<")

/-! ### Sums and products -/

def add (a b : Int64) : Outcome :=
  orOverflow "+" (narrow? (a.toInt + b.toInt))

def subtract (a b : Int64) : Outcome :=
  orOverflow "-" (narrow? (a.toInt - b.toInt))

def product? (a b : Int64) : Option Int64 :=
  narrow? (a.toInt * b.toInt)

def multiply (a b : Int64) : Outcome :=
  orOverflow "*" (product? a b)

/-! ### Division -/

/-- The quotient rounded towards zero, if there is one in range. -/
def quotient? (a b : Int64) : Option Int64 :=
  if b = 0 ∨ a = Int64.minValue ∧ b = -1 then none else some (a / b)

/-- The quotient rounded down: one less than the truncated quotient where the signs of the operands
differ and the division is not exact. -/
def floorDivide (a b : Int64) : Outcome :=
  if b = 0 then .error .divisionByZero
  else
    match quotient? a b with
    | none => .error (.overflow "/")
    | some quotient =>
      (Step.remainder a b).andThen fun remainder =>
        if remainder ≠ 0 ∧ decide (a < 0) ≠ decide (b < 0) then
          (Step.difference quotient 1).andThen .ok
        else .ok quotient

/-- The remainder with the sign of the divisor. The truncated remainder is none of the steps left
to the machine: it is `0` where the quotient is out of range. -/
def floorModulo (a b : Int64) : Outcome :=
  if b = 0 then .error .divisionByZero
  else
    let remainder := a % b
    if remainder ≠ 0 ∧ decide (remainder < 0) ≠ decide (b < 0) then
      (Step.sum remainder b).andThen .ok
    else .ok remainder

/-! ### Powers -/

/-- The product of `acc` and the `n`th power of `base`, by squaring, if every step is in range. -/
def scaledPower? (acc base : Int64) (n : Nat) : Option Int64 :=
  if n = 0 then some acc
  else if n = 1 then product? acc base
  else
    match if n % 2 = 1 then product? acc base else some acc, product? base base with
    | some acc, some square => scaledPower? acc square (n / 2)
    | _, _ => none
termination_by n

/-- The power of a base; only exponents that are not negative have one. An exponent that is no
count leaves a result to three bases only. -/
def power (base exponent : Int64) : Outcome :=
  if exponent < 0 then .error .negativeExponent
  else
    match count? exponent with
    | some n => orOverflow "**" (scaledPower? 1 base n.toNat)
    | none =>
      if base = 0 ∨ base = 1 then .ok base
      else if base = -1 then
        (Step.remainder exponent 2).andThen fun parity => .ok (if parity = 0 then 1 else -1)
      else .error (.overflow "**")

/-! ### One operand -/

def identity (a : Int64) : Outcome :=
  .ok a

def negate (a : Int64) : Outcome :=
  orOverflow "-" (narrow? (-a.toInt))

def invert (a : Int64) : Outcome :=
  .ok (~~~a)

end Reckoner.Arithmetic
