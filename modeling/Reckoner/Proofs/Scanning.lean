import Mathlib.Tactic.SplitIfs
import Reckoner.Token.Scan

/-!
Cutting a text into tokens, one at a time.

`cut` is the scanner on a list of characters, without bytes and with offsets of any size.
`Lexes kind text rest` says that it cuts `text` off as one token of the kind when
`rest` comes after it, and `cut_of_lexes` that it then goes on with `rest`. What can
be cut off is stated for each kind of token of an expression:

* `lexes_leftParen`, `lexes_rightParen` — a parenthesis, in front of anything;
* `lexes_operator` — an operator symbol, if no `*` follows;
* `lexes_number` — digits, if no word character follows.

In the other direction, `Piece` lists what can be cut off at all, one case for each
alternative of the scanner, and `forall_mem_cut` says that nothing else is a token.
-/

namespace Reckoner.Token

open Text (isBlank)
open WordClass (isWord)

/-! ### Operator symbols -/

theorem operatorTexts_eq :
    operatorTexts =
      [['*', '*'], ['<', '<'], ['>', '>'], ['%'], ['&'], ['*'], ['+'], ['-'], ['/'], ['^'], ['|'],
        ['~']] := by
  decide

/-- Only a character of an operator symbol starts an operator. -/
theorem operatorLength?_eq_none {c : Char} (h : ∀ text ∈ operatorTexts, c ∉ text)
    (cs : List Char) : operatorLength? (c :: cs) = none := by
  rw [operatorLength?, Option.map_eq_none_iff, List.find?_eq_none]
  intro text hmem hstarts
  cases text with
  | nil => exact absurd hmem (by decide)
  | cons first text =>
    simp only [List.isPrefixOf, Bool.and_eq_true, beq_iff_eq] at hstarts
    exact h _ hmem (hstarts.1 ▸ List.mem_cons_self)

theorem symbols_ne_empty : ∀ symbol ∈ Table.standard.symbols, symbol.toList ≠ [] := by
  decide

/-- Only a `*` can make a symbol longer. -/
theorem operatorLength?_append {symbol : String} (h : symbol ∈ Table.standard.symbols)
    {rest : List Char} (hrest : rest.head? ≠ some '*') :
    operatorLength? (symbol.toList ++ rest) = some symbol.toList.length := by
  have hmem : symbol.toList ∈ operatorTexts := List.mem_map_of_mem h
  generalize symbol.toList = text at hmem
  have hstar : ['*'].isPrefixOf rest = false := by
    cases rest with
    | nil => rfl
    | cons next rest =>
      have hnext : next ≠ '*' := by simpa using hrest
      simp [List.isPrefixOf, hnext.symm]
  rw [operatorTexts_eq] at hmem
  simp only [List.mem_cons, List.not_mem_nil, or_false] at hmem
  rcases hmem with rfl | rfl | rfl | rfl | rfl | rfl | rfl | rfl | rfl | rfl | rfl | rfl <;>
    simp [operatorLength?, operatorTexts_eq, List.isPrefixOf, hstar]

theorem isBlank_of_mem_operatorTexts :
    ∀ text ∈ operatorTexts, ∀ c ∈ text, isBlank c = false := by
  have hnone : ∀ text ∈ operatorTexts, text.any isBlank = false := by decide
  intro text hmem c hc
  simpa using List.any_eq_false.mp (hnone text hmem) c hc

variable [WordClass]

/-! ### Word characters -/

theorem isWord_of_mem_operatorTexts :
    ∀ text ∈ operatorTexts, ∀ c ∈ text, isWord c = false := by
  intro text hmem c hc
  obtain ⟨symbol, hsymbol, rfl⟩ := List.mem_map.mp hmem
  exact WordClass.isWord_operator symbol hsymbol c hc

theorem isDigit_of_not_isWord {c : Char} (h : isWord c = false) : c.isDigit = false := by
  cases hdigit : c.isDigit with
  | false => rfl
  | true => simp [WordClass.isWord_digit c hdigit] at h

theorem not_blank_of_isWord {c : Char} (h : isWord c = true) : isBlank c = false := by
  cases hblank : isBlank c with
  | false => rfl
  | true => simp [WordClass.isWord_blank c hblank] at h

theorem ne_openParen_of_isWord {c : Char} (h : isWord c = true) : c ≠ '(' := by
  rintro rfl
  simp [WordClass.isWord_openParen] at h

theorem ne_closeParen_of_isWord {c : Char} (h : isWord c = true) : c ≠ ')' := by
  rintro rfl
  simp [WordClass.isWord_closeParen] at h

/-! ### One token after the other -/

/-- The tokens of characters, the first of which has the given offset. -/
def cut (offset : Nat) : List Char → List Token
  | [] => []
  | c :: cs =>
    match lexeme? c cs with
    | none => cut (offset + 1) cs
    | some (kind, length) =>
      let text := c :: cs.take (length - 1)
      ⟨kind, String.ofList text, ⟨offset, offset + text.length⟩⟩ ::
        cut (offset + text.length) (cs.drop (length - 1))
termination_by cs => cs.length

@[simp] theorem cut_nil (offset : Nat) : cut offset [] = [] := by
  rw [cut]

/-- A character that starts no token is passed over. -/
theorem cut_of_none {c : Char} {cs : List Char} (h : lexeme? c cs = none) (offset : Nat) :
    cut offset (c :: cs) = cut (offset + 1) cs := by
  rw [cut, h]

/-- A character that starts a token is cut off with it. -/
theorem cut_of_some {c : Char} {cs : List Char} {kind : Kind} {length : Nat}
    (h : lexeme? c cs = some (kind, length)) (offset : Nat) :
    cut offset (c :: cs) =
      ⟨kind, String.ofList (c :: cs.take (length - 1)),
        ⟨offset, offset + (c :: cs.take (length - 1)).length⟩⟩ ::
        cut (offset + (c :: cs.take (length - 1)).length) (cs.drop (length - 1)) := by
  rw [cut, h]

/-- The text is cut off as one token of the kind when `rest` comes after it. -/
def Lexes (kind : Kind) (text rest : List Char) : Prop :=
  ∃ c cs, text = c :: cs ∧ lexeme? c (cs ++ rest) = some (kind, text.length)

theorem cut_of_lexes {kind : Kind} {text rest : List Char} (h : Lexes kind text rest)
    (offset : Nat) :
    cut offset (text ++ rest) =
      ⟨kind, String.ofList text, ⟨offset, offset + text.length⟩⟩ ::
        cut (offset + text.length) rest := by
  obtain ⟨c, cs, rfl, hlexeme⟩ := h
  rw [List.cons_append, cut_of_some hlexeme]
  simp

/-! ### What is cut off -/

theorem numberLength?_eq_none {c : Char} (h : c.isDigit = false) (cs : List Char) :
    numberLength? (c :: cs) = none := by
  simp [numberLength?, h]

/-- A blank starts no token. -/
theorem lexeme?_of_isBlank {c : Char} (h : isBlank c = true) (cs : List Char) :
    lexeme? c cs = none := by
  have hsymbols : ∀ text ∈ operatorTexts, c ∉ text := by
    intro text hmem hc
    simp [isBlank_of_mem_operatorTexts text hmem c hc] at h
  have hoperator := operatorLength?_eq_none hsymbols cs
  have hword := WordClass.isWord_blank c h
  have hnumber := numberLength?_eq_none (isDigit_of_not_isWord hword) cs
  have hopen : c ≠ '(' := by
    rintro rfl
    exact absurd h (by decide)
  have hclose : c ≠ ')' := by
    rintro rfl
    exact absurd h (by decide)
  simp [lexeme?, hoperator, hnumber, hopen, hclose, hword, h]

theorem lexeme?_space (cs : List Char) : lexeme? ' ' cs = none :=
  lexeme?_of_isBlank (by decide) cs

/-- Blanks in front are passed over. -/
theorem cut_blanks {blanks : List Char} (h : blanks.all isBlank = true) (offset : Nat)
    (rest : List Char) :
    cut offset (blanks ++ rest) = cut (offset + blanks.length) rest := by
  induction blanks generalizing offset with
  | nil => rfl
  | cons blank blanks ih =>
    obtain ⟨hblank, hblanks⟩ := Bool.and_eq_true_iff.mp h
    rw [List.cons_append, cut_of_none (lexeme?_of_isBlank hblank _), ih hblanks, List.length_cons,
      Nat.add_assoc, Nat.add_comm 1]

theorem lexes_leftParen (rest : List Char) : Lexes .openParen ['('] rest := by
  have hoperator := operatorLength?_eq_none (c := '(') (by decide) rest
  have hnumber := numberLength?_eq_none (c := '(') (by decide) rest
  exact ⟨'(', [], rfl, by simp [lexeme?, hoperator, hnumber]⟩

theorem lexes_rightParen (rest : List Char) : Lexes .closeParen [')'] rest := by
  have hoperator := operatorLength?_eq_none (c := ')') (by decide) rest
  have hnumber := numberLength?_eq_none (c := ')') (by decide) rest
  exact ⟨')', [], rfl, by simp [lexeme?, hoperator, hnumber]⟩

/-- A symbol is an operator in front of anything but a `*`, which could make it longer. -/
theorem lexes_operator {symbol : String} (h : symbol ∈ Table.standard.symbols) {rest : List Char}
    (hrest : rest.head? ≠ some '*') : Lexes .operator symbol.toList rest := by
  obtain ⟨c, cs, htext⟩ := List.exists_cons_of_ne_nil (symbols_ne_empty symbol h)
  have hlength := operatorLength?_append h hrest
  rw [htext, List.cons_append] at hlength
  exact ⟨c, cs, htext, by simp [lexeme?, hlength, htext]⟩

theorem numberLength?_append {digits rest : List Char} (hne : digits ≠ [])
    (hdigits : ∀ c ∈ digits, c.isDigit = true) (hrest : ∀ c ∈ rest.head?, isWord c = false) :
    numberLength? (digits ++ rest) = some digits.length := by
  have htake : (digits ++ rest).takeWhile Char.isDigit = digits ++ rest.takeWhile Char.isDigit :=
    List.takeWhile_append_of_pos hdigits
  have hdrop : (digits ++ rest).dropWhile Char.isDigit = rest.dropWhile Char.isDigit :=
    List.dropWhile_append_of_pos hdigits
  cases rest with
  | nil =>
    simp only [List.append_nil, List.takeWhile_nil, List.dropWhile_nil] at htake hdrop ⊢
    simp [numberLength?, htake, hdrop, hne]
  | cons next rest =>
    have hword : isWord next = false := hrest next rfl
    have hdigit : next.isDigit = false := isDigit_of_not_isWord hword
    simp [numberLength?, htake, hdrop, hdigit, hword, hne]

/-- Digits are a number in front of anything but a word character. -/
theorem lexes_number {digits rest : List Char} (hne : digits ≠ [])
    (hdigits : ∀ c ∈ digits, c.isDigit = true) (hrest : ∀ c ∈ rest.head?, isWord c = false) :
    Lexes .number digits rest := by
  obtain ⟨c, cs, rfl⟩ := List.exists_cons_of_ne_nil hne
  have hsymbols : ∀ text ∈ operatorTexts, text.any Char.isDigit = false := by decide
  have hnone : ∀ text ∈ operatorTexts, c ∉ text := by
    intro text hmem hc
    exact List.any_eq_false.mp (hsymbols text hmem) c hc (hdigits c List.mem_cons_self)
  have hoperator := operatorLength?_eq_none hnone (cs ++ rest)
  have hnumber := numberLength?_append hne hdigits hrest
  rw [List.cons_append] at hnumber
  exact ⟨c, cs, rfl, by simp [lexeme?, hoperator, hnumber]⟩

/-! ### What can be cut off -/

/-- `Piece c cs kind length`: a token of the kind and length starts with `c` and goes on in `cs`. -/
inductive Piece (c : Char) (cs : List Char) : Kind → Nat → Prop where
  | operator {length} : operatorLength? (c :: cs) = some length → Piece c cs .operator length
  | number {length} : numberLength? (c :: cs) = some length → Piece c cs .number length
  | openParen : c = '(' → Piece c cs .openParen 1
  | closeParen : c = ')' → Piece c cs .closeParen 1
  | word : numberLength? (c :: cs) = none → isWord c = true →
      Piece c cs .invalid (1 + (cs.takeWhile isWord).length)
  | other : operatorLength? (c :: cs) = none → c ≠ '(' → c ≠ ')' → isWord c = false →
      isBlank c = false → Piece c cs .invalid 1

theorem Piece.of_lexeme? {c : Char} {cs : List Char} {kind : Kind} {length : Nat}
    (h : lexeme? c cs = some (kind, length)) : Piece c cs kind length := by
  unfold lexeme? at h
  split at h
  · next hoperator =>
    cases h
    exact .operator hoperator
  · next hoperator =>
    split at h
    · next hnumber =>
      cases h
      exact .number hnumber
    · next hnumber =>
      split_ifs at h with hopen hclose hword hblank
      · cases h
        exact .openParen hopen
      · cases h
        exact .closeParen hclose
      · cases h
        exact .word hnumber hword
      · cases h
        exact .other hoperator hopen hclose (by simpa using hword) (by simpa using hblank)

/-! ### All tokens -/

/-- What holds of every token that can be cut off holds of all tokens. -/
theorem forall_mem_cut {P : Token → Prop}
    (h : ∀ (offset : Nat) (c : Char) (cs : List Char) (kind : Kind) (length : Nat),
      lexeme? c cs = some (kind, length) →
      P ⟨kind, String.ofList (c :: cs.take (length - 1)),
        ⟨offset, offset + (c :: cs.take (length - 1)).length⟩⟩)
    (offset : Nat) (cs : List Char) : ∀ token ∈ cut offset cs, P token := by
  fun_induction cut offset cs with
  | case1 offset => simp
  | case2 offset c cs hlexeme ih => exact ih
  | case3 offset c cs kind length hlexeme text ih =>
    exact List.forall_mem_cons.mpr ⟨h offset c cs kind length hlexeme, ih⟩

end Reckoner.Token
