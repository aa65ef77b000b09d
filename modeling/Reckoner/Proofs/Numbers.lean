import Reckoner.Arithmetic
import Reckoner.Text.Decimal

/-!
Numbers in range and their texts.

* `narrow?_eq_some_iff` — a 64-bit integer is found exactly for its own value.
* `digits_showInt` — a number that is not negative is written as digits.
* `readInt?_of_digits`, `nonneg_of_readInt?` — digits are read as they are, as a number that is
  not negative.
* `showInt_append_inj` — a number in front of a text is known from its characters, if no digit
  follows it.
-/

namespace Reckoner.Arithmetic

/-- Narrowing finds the 64-bit integer that has the value. -/
theorem narrow?_eq_some_iff {n : Int} {value : Int64} :
    narrow? n = some value ↔ value.toInt = n := by
  unfold narrow?
  constructor
  · intro h
    obtain ⟨⟨hmin, hmax⟩, hvalue⟩ := Option.ite_none_right_eq_some.mp h
    cases hvalue
    exact Int64.toInt_ofInt_of_le hmin (Int.lt_add_one_of_le hmax)
  · rintro rfl
    rw [if_pos ⟨value.minValue_le_toInt, value.toInt_le⟩, Int64.ofInt_toInt]

end Reckoner.Arithmetic

namespace Reckoner.Text

/-- A number that is not negative is written as one or more digits. -/
theorem digits_showInt {n : Int} (h : 0 ≤ n) :
    (showInt n).toList ≠ [] ∧ ∀ c ∈ (showInt n).toList, c.isDigit = true := by
  obtain ⟨n, rfl⟩ := Int.eq_ofNat_of_zero_le h
  have hlist : (showInt n).toList = Nat.toDigits 10 n := String.toList_ofList
  rw [hlist]
  refine ⟨Nat.toDigits_ne_nil, ?_⟩
  intro c hmem
  exact Nat.isDigit_of_mem_toDigits (by decide) (by decide) hmem

/-- Digits have no sign in front of them. -/
theorem readInt?_of_digits {s : String} (hdigits : ∀ c ∈ s.toList, c.isDigit = true) :
    readInt? s = (readDigits? s.toList).map Int.ofNat := by
  unfold readInt?
  split
  · next hs => simp [hs, Char.isDigit] at hdigits
  · next hs => simp [hs, Char.isDigit] at hdigits
  · rfl

/-- Digits are read as a number that is not negative. -/
theorem nonneg_of_readInt? {s : String} (hdigits : ∀ c ∈ s.toList, c.isDigit = true) {n : Int}
    (h : readInt? s = some n) : 0 ≤ n := by
  rw [readInt?_of_digits hdigits] at h
  obtain ⟨value, _, rfl⟩ := Option.map_eq_some_iff.mp h
  exact Int.natCast_nonneg value

/-! ### Numbers in front of a text -/

/-- The text does not go on with a digit, so a number in front of it ends there. -/
def EndsNumber (rest : List Char) : Prop :=
  ∀ c ∈ rest.head?, c.isDigit = false

theorem endsNumber_nil : EndsNumber [] := nofun

theorem endsNumber_space (rest : List Char) : EndsNumber (' ' :: rest) := by
  rintro c ⟨⟩
  rfl

theorem endsNumber_paren (rest : List Char) : EndsNumber (')' :: rest) := by
  rintro c ⟨⟩
  rfl

theorem EndsNumber.takeWhile_eq {digits rest : List Char} (h : EndsNumber rest)
    (hdigits : ∀ c ∈ digits, c.isDigit = true) :
    (digits ++ rest).takeWhile Char.isDigit = digits := by
  rw [List.takeWhile_append_of_pos hdigits]
  cases rest with
  | nil => simp
  | cons c rest => simp [h c rfl]

theorem toList_showInt_negSucc (n : Nat) :
    (showInt (.negSucc n)).toList = '-' :: (showNat (n + 1)).toList := by
  simp [showInt]

/-- Only digits start a number without a sign. -/
theorem ne_showNat_append {c : Char} (h : c.isDigit = false) (cs : List Char) (n : Nat)
    (rest : List Char) : c :: cs ≠ (showNat n).toList ++ rest := by
  obtain ⟨hne, hdigits⟩ := digits_showInt (Int.natCast_nonneg n)
  intro heq
  rcases List.append_eq_cons_iff.mp heq.symm with ⟨hnil, _⟩ | ⟨ds, hcons, _⟩
  · exact hne hnil
  · have hdigit : c.isDigit = true := hdigits c (hcons ▸ List.mem_cons_self)
    simp [hdigit] at h

/-- Only digits and a `-` start a number. -/
theorem ne_showInt_append {c : Char} (h : c.isDigit = false) (hminus : c ≠ '-') (cs : List Char)
    (n : Int) (rest : List Char) : c :: cs ≠ (showInt n).toList ++ rest := by
  cases n with
  | ofNat n => exact ne_showNat_append h cs n rest
  | negSucc n =>
    rw [toList_showInt_negSucc]
    rintro ⟨⟩
    exact hminus rfl

section

variable {rest rest' : List Char} (hrest : EndsNumber rest) (hrest' : EndsNumber rest')
include hrest hrest'

theorem showNat_append_inj {m n : Nat}
    (h : (showNat m).toList ++ rest = (showNat n).toList ++ rest') : m = n ∧ rest = rest' := by
  have hdigits : (showNat m).toList = (showNat n).toList := by
    have htake := hrest.takeWhile_eq (digits_showInt (Int.natCast_nonneg m)).2
    have htake' := hrest'.takeWhile_eq (digits_showInt (Int.natCast_nonneg n)).2
    exact htake.symm.trans ((congrArg (List.takeWhile Char.isDigit) h).trans htake')
  refine ⟨?_, List.append_cancel_left (hdigits ▸ h)⟩
  simp only [showNat, String.toList_ofList] at hdigits
  have hread := readDigits?_toDigits m
  rw [hdigits, readDigits?_toDigits] at hread
  exact (Option.some.inj hread).symm

/-- A number is told from every other by its text, if no digit follows. -/
theorem showInt_append_inj {m n : Int}
    (h : (showInt m).toList ++ rest = (showInt n).toList ++ rest') : m = n ∧ rest = rest' := by
  have hminus : '-'.isDigit = false := rfl
  cases m with
  | ofNat m =>
    cases n with
    | ofNat n =>
      obtain ⟨rfl, hrests⟩ := showNat_append_inj hrest hrest' h
      exact ⟨rfl, hrests⟩
    | negSucc n =>
      rw [toList_showInt_negSucc] at h
      exact absurd h.symm (ne_showNat_append hminus _ _ _)
  | negSucc m =>
    rw [toList_showInt_negSucc] at h
    cases n with
    | ofNat n => exact absurd h (ne_showNat_append hminus _ _ _)
    | negSucc n =>
      rw [toList_showInt_negSucc] at h
      obtain ⟨hsucc, hrests⟩ := showNat_append_inj hrest hrest' (List.cons.inj h).2
      cases Nat.succ.inj hsucc
      exact ⟨rfl, hrests⟩

end

end Reckoner.Text
