import Reckoner.Text.Word
import Reckoner.Token.WordClass

/-!
The word characters of Unicode.

The program takes letters, marks, digits and connectors of any script for word
characters. None of them is a blank or belongs to an operator, so the table of
`Text.isWord` is a word class.
-/

namespace Reckoner.Text

theorem isWord_of_isDigit {c : Char} (h : c.isDigit = true) : isWord c = true := by
  have hrange : 0x30 ≤ c.toNat ∧ c.toNat ≤ 0x39 := by
    simp only [Char.isDigit, ge_iff_le, Bool.and_eq_true, decide_eq_true_eq,
      UInt32.le_iff_toNat_le] at h
    exact h
  have hnot : ¬ c.toNat < 0x30 := Nat.not_lt.mpr hrange.1
  simp only [isWord, wordRanges, wordBelow0800, List.cons_append]
  rw [inRanges, if_neg hnot]
  simp [hrange.2]

/-- A code point in the ranges lies in one of them. -/
theorem exists_of_inRanges {ranges : List (Nat × Nat)} {n : Nat} (h : inRanges ranges n = true) :
    ∃ range ∈ ranges, range.1 ≤ n ∧ n ≤ range.2 := by
  induction ranges with
  | nil => cases h
  | cons range ranges ih =>
    obtain ⟨first, last⟩ := range
    rw [inRanges] at h
    split at h
    · cases h
    · next hfirst =>
      rcases Bool.or_eq_true_iff.mp h with hlast | hrest
      · exact ⟨_, List.mem_cons_self, Nat.not_lt.mp hfirst, by simpa using hlast⟩
      · obtain ⟨range, hmem, hrange⟩ := ih hrest
        exact ⟨range, List.mem_cons_of_mem _ hmem, hrange⟩

theorem inRanges_wordRanges_of_blank : ∀ range ∈ blankRanges,
    ∀ n ∈ List.range' range.1 (range.2 + 1 - range.1), inRanges wordRanges n = false := by
  decide +kernel

theorem isWord_of_isBlank {c : Char} (h : isBlank c = true) : isWord c = false := by
  obtain ⟨range, hmem, hfirst, hlast⟩ := exists_of_inRanges h
  refine inRanges_wordRanges_of_blank range hmem _ (List.mem_range'_1.mpr ⟨hfirst, ?_⟩)
  omega

theorem isWord_of_mem_symbol :
    ∀ symbol ∈ Table.standard.symbols, ∀ c ∈ symbol.toList, isWord c = false := by
  have hnone : ∀ symbol ∈ Table.standard.symbols, symbol.toList.any isWord = false := by decide
  intro symbol hmem c hc
  simpa using List.any_eq_false.mp (hnone symbol hmem) c hc

end Reckoner.Text

namespace Reckoner

instance unicodeWords : WordClass where
  isWord := Text.isWord
  isWord_digit _ := Text.isWord_of_isDigit
  isWord_operator := Text.isWord_of_mem_symbol
  isWord_openParen := by decide
  isWord_closeParen := by decide
  isWord_blank _ := Text.isWord_of_isBlank

end Reckoner
