import Reckoner.Proofs.Lexemes

/-!
The scanner as a pattern.

A `Pattern` matches at a place of a text in any number of ways, which are tried in
order: the first of two alternatives before the second, and more repetitions before
fewer. `lengths` lists the ways. The tokens are described by four groups of patterns,
`Token.groups`, of which the first way of the first group that matches counts. A
number takes back digits until it ends at the boundary of a word, so it is not
obvious how long it is.

* `Pattern.lengths_number` — there is no boundary inside digits, so taking digits back
  never helps.
* `Token.firstMatch?_cons` — hence the first match is the lexeme of the scanner.
* `Token.found_iff` — so the tokens of a text are its leftmost matches, one after
  the other.
-/

namespace Reckoner

open Text (isBlank)
open WordClass (isWord)

/-! ### Patterns -/

/-- What to look for at a place of a text. -/
inductive Pattern where
  /-- The given characters. -/
  | exactly (cs : List Char)
  /-- One character of a class. -/
  | oneOf (p : Char → Bool)
  /-- One or more characters of a class, as many as possible. -/
  | manyOf (p : Char → Bool)
  /-- No character, between a word character and none. -/
  | boundary
  | seq (first second : Pattern)
  | either (first second : Pattern)
  | never

namespace Pattern

def anyOf (patterns : List Pattern) : Pattern :=
  patterns.foldr either never

/-- The characters of a class that a text starts with are of the class. -/
theorem exists_getElem?_of_lt {cs : List Char} {p : Char → Bool} {k : Nat}
    (hk : k < (cs.takeWhile p).length) : ∃ c, cs[k]? = some c ∧ p c = true := by
  have hget : (cs.takeWhile p)[k]? = cs[k]? := by
    rw [List.prefix_iff_eq_take.mp (List.takeWhile_prefix p), List.getElem?_take_of_lt hk]
  rw [← hget, List.getElem?_eq_getElem hk]
  exact ⟨_, rfl, List.all_eq_true.mp List.all_takeWhile _ (List.getElem_mem hk)⟩

variable [WordClass]

/-- The lengths of the matches, in the order in which they are tried. The place has the character
`before` in front of it, if any, and the characters `cs` after it. -/
def lengths : Pattern → (before : Option Char) → (cs : List Char) → List Nat
  | exactly symbol, _, cs => if symbol.isPrefixOf cs then [symbol.length] else []
  | oneOf p, _, cs => if cs.head?.any p then [1] else []
  | manyOf p, _, cs => (List.range' 1 (cs.takeWhile p).length).reverse
  | boundary, before, cs => if before.any isWord = cs.head?.any isWord then [] else [0]
  | seq first second, before, cs =>
    (first.lengths before cs).flatMap fun n =>
      (second.lengths ((cs.take n).getLast?.or before) (cs.drop n)).map (n + ·)
  | either first second, before, cs => first.lengths before cs ++ second.lengths before cs
  | never, _, _ => []

theorem head?_lengths_texts (before : Option Char) (cs : List Char) (texts : List (List Char)) :
    ((anyOf (texts.map exactly)).lengths before cs).head? =
      (texts.find? (·.isPrefixOf cs)).map List.length := by
  induction texts with
  | nil => rfl
  | cons symbol texts ih =>
    rw [List.map_cons, anyOf, List.foldr_cons, ← anyOf, lengths, lengths, List.find?_cons]
    cases symbol.isPrefixOf cs with
    | true => rfl
    | false => simpa using ih

theorem head?_lengths_manyOf (p : Char → Bool) (before : Option Char) (cs : List Char) :
    ((manyOf p).lengths before cs).head? =
      if cs.takeWhile p = [] then none else some (cs.takeWhile p).length := by
  rw [lengths, List.head?_reverse]
  cases cs.takeWhile p with
  | nil => rfl
  | cons c run => simp [List.getLast?_range']

/-- After digits there is a boundary exactly if no word character follows. -/
theorem lengths_boundary_of_digits {cs : List Char} {n : Nat} (hpos : 0 < n)
    (hle : n ≤ (cs.takeWhile Char.isDigit).length) (before : Option Char) :
    boundary.lengths ((cs.take n).getLast?.or before) (cs.drop n) =
      if (cs.drop n).head?.any isWord then [] else [0] := by
  have hlt : n - 1 < (cs.takeWhile Char.isDigit).length := by omega
  obtain ⟨last, hlast, hdigit⟩ := exists_getElem?_of_lt hlt
  have hbefore : (cs.take n).getLast?.or before = some last := by
    rw [List.getLast?_take, if_neg (Nat.ne_of_gt hpos), hlast]
    rfl
  rw [lengths, hbefore, Option.any_some, WordClass.isWord_digit _ hdigit]
  simp only [eq_comm]

/-- Digits up to a boundary are the number that characters start with: fewer digits than there are
end inside a word, so only all of them can be followed by a boundary. -/
theorem lengths_number (before : Option Char) (cs : List Char) :
    (seq (manyOf Char.isDigit) boundary).lengths before cs = (Token.numberLength? cs).toList := by
  rw [lengths, lengths]
  cases hcount : (cs.takeWhile Char.isDigit).length with
  | zero =>
    have hnone : cs.takeWhile Char.isDigit = [] := List.length_eq_zero_iff.mp hcount
    simp [Token.numberLength?, hnone]
  | succ count =>
    have hfewer : ∀ n ∈ (List.range' 1 count).reverse,
        (boundary.lengths ((cs.take n).getLast?.or before) (cs.drop n)).map (n + ·) = [] := by
      intro n hn
      obtain ⟨hpos, hlt⟩ := List.mem_range'_1.mp (List.mem_reverse.mp hn)
      have hdigits : n < (cs.takeWhile Char.isDigit).length := by omega
      obtain ⟨next, hnext, hdigit⟩ := exists_getElem?_of_lt hdigits
      rw [lengths_boundary_of_digits hpos (Nat.le_of_lt hdigits), List.head?_drop, hnext]
      simp [WordClass.isWord_digit _ hdigit]
    have hsome : cs.takeWhile Char.isDigit ≠ [] := List.ne_nil_of_length_eq_add_one hcount
    have hrest : cs.drop (count + 1) = cs.dropWhile Char.isDigit := by
      have hdrop : (cs.takeWhile Char.isDigit ++ cs.dropWhile Char.isDigit).drop (count + 1) =
          cs.dropWhile Char.isDigit := List.drop_left' hcount
      rwa [List.takeWhile_append_dropWhile] at hdrop
    have hall := lengths_boundary_of_digits (Nat.succ_pos count) (Nat.le_of_eq hcount.symm) before
    rw [List.range'_concat, List.reverse_append, List.flatMap_append,
      List.flatMap_eq_nil_iff.mpr hfewer, Nat.one_mul, Nat.add_comm 1 count,
      List.reverse_singleton, List.flatMap_singleton, List.append_nil, hall, hrest,
      Token.numberLength?]
    cases cs.dropWhile Char.isDigit with
    | nil => simp [hsome, hcount]
    | cons next rest => cases hnext : isWord next <;> simp [hsome, hcount, hnext]

end Pattern

/-! ### Tokens -/

namespace Token

open Pattern (anyOf exactly oneOf manyOf boundary seq either)

variable [WordClass]

/-- The patterns of tokens in the order in which they are tried, with the kinds of what they
match. -/
def groups : List (Pattern × (List Char → Kind)) :=
  [(anyOf (operatorTexts.map exactly), fun _ => .operator),
    (seq (manyOf Char.isDigit) boundary, fun _ => .number),
    (oneOf fun c => c = '(' || c = ')', fun cs => if cs = ['('] then .openParen else .closeParen),
    (either (manyOf isWord) (oneOf fun c => !isBlank c), fun _ => .invalid)]

def firstMatch? (before : Option Char) (cs : List Char) : Option (Kind × Nat) :=
  groups.findSome? fun (pattern, kind) =>
    (pattern.lengths before cs).head?.map fun length => (kind (cs.take length), length)

/-- A piece that is no other token is a whole word, or a single character. -/
theorem head?_lengths_unrecognised (before : Option Char) (c : Char) (cs : List Char) :
    ((either (manyOf isWord) (oneOf fun c => !isBlank c)).lengths before (c :: cs)).head? =
      if isWord c then some (1 + (cs.takeWhile isWord).length)
      else if isBlank c then none else some 1 := by
  rw [Pattern.lengths, List.head?_append, Pattern.head?_lengths_manyOf, Pattern.lengths]
  cases hword : isWord c <;> cases hblank : isBlank c <;> simp [hword, hblank, Nat.add_comm]

/-- The first match is what the scanner cuts off. -/
theorem firstMatch?_cons (before : Option Char) (c : Char) (cs : List Char) :
    firstMatch? before (c :: cs) = lexeme? c cs := by
  have hoperator := Pattern.head?_lengths_texts before (c :: cs) operatorTexts
  rw [← operatorLength?] at hoperator
  simp only [firstMatch?, groups, List.findSome?_cons, List.findSome?_nil, hoperator,
    Pattern.lengths_number, Option.head?_toList, head?_lengths_unrecognised, lexeme?]
  cases operatorLength? (c :: cs) with
  | some length => rfl
  | none =>
    cases numberLength? (c :: cs) with
    | some length => rfl
    | none =>
      by_cases hopen : c = '('
      · simp [Pattern.lengths, hopen]
      · by_cases hclose : c = ')'
        · simp [Pattern.lengths, hclose]
        · cases hword : isWord c <;> cases hblank : isBlank c <;>
            simp [Pattern.lengths, hopen, hclose]

/-- At the end of a text there is nothing to match. -/
theorem firstMatch?_nil (before : Option Char) : firstMatch? before [] = none := by
  have hoperator := Pattern.head?_lengths_texts before [] operatorTexts
  have hnone : operatorTexts.find? (·.isPrefixOf []) = none := by decide
  rw [hnone] at hoperator
  simp only [firstMatch?, groups, List.findSome?_cons, List.findSome?_nil, hoperator,
    Pattern.lengths_number]
  rfl

/-! ### Leftmost matches -/

/-- `Found before offset cs tokens`: the tokens are the matches in `cs`, one after the other, each
at the first place that has one. The characters have the character `before` in front of them, if
any, and the first of them has the given offset. -/
inductive Found : Option Char → Nat → List Char → List Token → Prop where
  | done {before offset} : firstMatch? before [] = none → Found before offset [] []
  | skip {before offset c cs tokens} :
      firstMatch? before (c :: cs) = none → Found (some c) (offset + 1) cs tokens →
      Found before offset (c :: cs) tokens
  | token {before offset kind text rest tokens} :
      firstMatch? before (text ++ rest) = some (kind, text.length) → text ≠ [] →
      Found text.getLast? (offset + text.length) rest tokens →
      Found before offset (text ++ rest)
        (⟨kind, String.ofList text, ⟨offset, offset + text.length⟩⟩ :: tokens)

theorem Found.eq_cut {before : Option Char} {offset : Nat} {cs : List Char} {tokens : List Token}
    (h : Found before offset cs tokens) : tokens = cut offset cs := by
  induction h with
  | done _ => rw [cut_nil]
  | skip hnone _ ih =>
    rw [firstMatch?_cons] at hnone
    rw [cut_of_none hnone, ih]
  | @token before offset kind text rest tokens hmatch hne _ ih =>
    obtain ⟨c, cs, rfl⟩ := List.exists_cons_of_ne_nil hne
    rw [List.cons_append, firstMatch?_cons] at hmatch
    rw [cut_of_lexes ⟨c, cs, rfl, hmatch⟩, ih]

/-- A token is not empty, and no longer than the text it starts. -/
theorem Piece.bounds {c : Char} {cs : List Char} {kind : Kind} {length : Nat}
    (h : Piece c cs kind length) : 0 < length ∧ length ≤ (c :: cs).length := by
  cases h with
  | operator hlength =>
    obtain ⟨symbol, hmem, hstarts, rfl⟩ := exists_of_operatorLength? hlength
    exact ⟨List.length_pos_iff.mpr (symbols_ne_empty symbol hmem), hstarts.length_le⟩
  | number hlength =>
    refine ⟨(digits_of_numberLength? hlength).1, ?_⟩
    rw [numberLength?, Option.ite_none_right_eq_some] at hlength
    obtain ⟨-, ⟨⟩⟩ := hlength
    exact (List.takeWhile_prefix _).length_le
  | openParen _ | closeParen _ | other _ _ _ _ _ => simp
  | word _ _ =>
    have hle := (List.takeWhile_prefix (l := cs) isWord).length_le
    simp only [List.length_cons]
    omega

theorem found_cut (before : Option Char) (offset : Nat) (cs : List Char) :
    Found before offset cs (cut offset cs) := by
  fun_induction cut offset cs generalizing before with
  | case1 offset => exact .done (firstMatch?_nil before)
  | case2 offset c cs hlexeme ih =>
    exact .skip ((firstMatch?_cons before c cs).trans hlexeme) (ih (some c))
  | case3 offset c cs kind length hlexeme text ih =>
    have hsplit : c :: cs = text ++ cs.drop (length - 1) := by simp [text]
    have hlength : text.length = length := by
      have hbounds := (Piece.of_lexeme? hlexeme).bounds
      simp only [text, List.length_cons, List.length_take] at hbounds ⊢
      omega
    have hmatch := firstMatch?_cons before c cs
    rw [hlexeme, hsplit] at hmatch
    rw [hsplit]
    exact .token (hlength.symm ▸ hmatch) (List.cons_ne_nil _ _) (ih _)

/-- **The tokens of a text are its leftmost matches.** -/
theorem found_iff {before : Option Char} {offset : Nat} {cs : List Char} {tokens : List Token} :
    Found before offset cs tokens ↔ tokens = cut offset cs := by
  refine ⟨Found.eq_cut, ?_⟩
  rintro rfl
  exact found_cut before offset cs

end Token

end Reckoner
