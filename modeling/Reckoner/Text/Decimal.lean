/-!
Decimal text of whole numbers.

Written numbers have no leading zeros and a sign only when negative. Reading is
more generous: one sign of either kind may stand in front of the digits, and
leading zeros are fine. Main statement: what is written reads back
(`readInt?_showInt`).
-/

namespace Reckoner.Text

/-! ### Writing -/

/-- The decimal digits of a natural number. -/
def showNat (n : Nat) : String :=
  String.ofList (Nat.toDigits 10 n)

def showInt : Int → String
  | .ofNat n => showNat n
  | .negSucc n => "-" ++ showNat (n + 1)

/-! ### Reading -/

def readDigits? (cs : List Char) : Option Nat :=
  if cs ≠ [] ∧ cs.all Char.isDigit then some (Nat.ofDigitChars 10 cs 0) else none

/-- Reads an optional sign and then one or more ASCII digits. -/
def readInt? (s : String) : Option Int :=
  match s.toList with
  | '-' :: cs => (readDigits? cs).map fun n => -(n : Int)
  | '+' :: cs => (readDigits? cs).map Int.ofNat
  | cs => (readDigits? cs).map Int.ofNat

/-! ### Reading what was written -/

/-- The digits of a number read as that number. -/
theorem readDigits?_toDigits (n : Nat) : readDigits? (Nat.toDigits 10 n) = some n := by
  have digits : ∀ c ∈ Nat.toDigits 10 n, c.isDigit = true := fun c mem =>
    Nat.isDigit_of_mem_toDigits (by decide) (by decide) mem
  simp [readDigits?, Nat.toDigits_ne_nil, Nat.ofDigitChars_toDigits, List.all_eq_true.mpr digits]

/-- What `showInt` writes, `readInt?` reads. -/
theorem readInt?_showInt (n : Int) : readInt? (showInt n) = some n := by
  cases n with
  | ofNat n =>
    have digits : ∀ c ∈ Nat.toDigits 10 n, c.isDigit = true := fun c mem =>
      Nat.isDigit_of_mem_toDigits (by decide) (by decide) mem
    simp only [readInt?, showInt, showNat, String.toList_ofList]
    split
    · next h => simp [h, Char.isDigit] at digits
    · next h => simp [h, Char.isDigit] at digits
    · simp [readDigits?_toDigits]
  | negSucc n => simp [readInt?, showInt, showNat, readDigits?_toDigits, Int.negSucc_eq]

end Reckoner.Text
