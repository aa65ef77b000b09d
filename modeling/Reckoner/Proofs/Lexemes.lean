import Reckoner.Proofs.Lexing

/-!
Tokens on their own.

Each kind of token has texts of its own (`spelled_of_mem_scan`), and what comes after
a token has decided where it ends, but nothing else: a token that was cut off is cut
off again as the same token when a blank comes after it, or nothing at all
(`lexes_of_mem_scan`). So the text of a token alone says which kind it is
(`kind_eq_of_lexes`). The text stands in the source where the span of the token
starts (`standsAt_of_mem_scan`).
-/

namespace Reckoner.Token

open Text (isBlank)
open WordClass (isWord)

/-! ### Operators -/

/-- The operator that characters start with is spelled there. -/
theorem exists_of_operatorLength? {cs : List Char} {length : Nat}
    (h : operatorLength? cs = some length) :
    ∃ symbol ∈ Table.standard.symbols, symbol.toList <+: cs ∧ symbol.toList.length = length := by
  obtain ⟨text, hfind, hlength⟩ := Option.map_eq_some_iff.mp h
  obtain ⟨symbol, hsymbol, rfl⟩ := List.mem_map.mp (List.mem_of_find?_eq_some hfind)
  have hstarts := List.find?_some hfind
  exact ⟨symbol, hsymbol, List.isPrefixOf_iff_prefix.mp hstarts, hlength⟩

theorem operatorLength?_ne_none {symbol : String} (h : symbol ∈ Table.standard.symbols)
    {cs : List Char} (hstarts : symbol.toList <+: cs) : operatorLength? cs ≠ none := by
  rw [operatorLength?, Ne, Option.map_eq_none_iff, List.find?_eq_none]
  intro hnone
  exact hnone _ (List.mem_map_of_mem h) (List.isPrefixOf_iff_prefix.mpr hstarts)

/-- An operator is the symbol that characters start with, which is not empty. -/
theorem take_of_operatorLength? {cs : List Char} {length : Nat}
    (h : operatorLength? cs = some length) :
    ∃ symbol ∈ Table.standard.symbols, cs.take length = symbol.toList ∧ 0 < length := by
  obtain ⟨symbol, hmem, hstarts, rfl⟩ := exists_of_operatorLength? h
  have hpos := List.length_pos_iff.mpr (symbols_ne_empty symbol hmem)
  exact ⟨symbol, hmem, (List.prefix_iff_eq_take.mp hstarts).symm, hpos⟩

def Kind.Spelled : Kind → String → Prop
  | .number, text => text.toList ≠ [] ∧ ∀ c ∈ text.toList, c.isDigit = true
  | .operator, text => text ∈ Table.standard.symbols
  | .openParen, text => text = "("
  | .closeParen, text => text = ")"
  | .invalid, _ => True

/-- Nothing comes next, or a blank. -/
def EndsToken (rest : List Char) : Prop :=
  ∀ c ∈ rest.head?, isBlank c = true

theorem endsToken_nil : EndsToken [] := by
  simp [EndsToken]

theorem EndsToken.not_star {rest : List Char} (h : EndsToken rest) : rest.head? ≠ some '*' := by
  intro hstar
  exact absurd (h '*' hstar) (by decide)

/-- A blank does not make an operator of a character that starts none. -/
theorem EndsToken.operatorLength? {rest : List Char} (h : EndsToken rest) {c : Char}
    {cs : List Char} (hnone : operatorLength? (c :: cs) = none) :
    operatorLength? (c :: rest) = none := by
  refine Option.eq_none_iff_forall_ne_some.mpr fun length hlength => ?_
  obtain ⟨symbol, hmem, ⟨more, hmore⟩, -⟩ := exists_of_operatorLength? hlength
  cases hlist : symbol.toList with
  | nil => exact symbols_ne_empty symbol hmem hlist
  | cons first tail =>
    rw [hlist] at hmore
    obtain ⟨rfl, hrest⟩ := List.cons.inj hmore
    cases tail with
    | nil =>
      -- The symbol is the character alone, so it would have been found before.
      exact operatorLength?_ne_none hmem (hlist ▸ List.prefix_append [first] cs) hnone
    | cons second tail =>
      have hblank : isBlank second = true := h second (by simp [← hrest])
      have hsymbol := isBlank_of_mem_operatorTexts _ (List.mem_map_of_mem hmem) second
        (by simp [hlist])
      simp [hblank] at hsymbol

/-- The first character that is left after the digits, if any, is no digit. -/
theorem isDigit_of_dropWhile {cs : List Char} {next : Char} {rest : List Char}
    (h : cs.dropWhile Char.isDigit = next :: rest) : next.isDigit = false := by
  have hhead := List.head?_dropWhile_not Char.isDigit cs
  simpa [h] using hhead

variable [WordClass]

/-! ### Words and numbers -/

/-- A number is a whole word that consists of digits. -/
theorem numberLength?_eq_of_word (cs : List Char) :
    numberLength? cs =
      if cs.takeWhile isWord ≠ [] ∧ (cs.takeWhile isWord).all Char.isDigit then
        some (cs.takeWhile isWord).length
      else none := by
  have hdigits : ∀ c ∈ cs.takeWhile Char.isDigit, c.isDigit = true :=
    List.all_eq_true.mp List.all_takeWhile
  have hword : cs.takeWhile isWord =
      cs.takeWhile Char.isDigit ++ (cs.dropWhile Char.isDigit).takeWhile isWord := by
    rw [← List.takeWhile_append_of_pos fun c hmem => WordClass.isWord_digit c (hdigits c hmem),
      List.takeWhile_append_dropWhile]
  rw [hword, numberLength?]
  cases hrest : cs.dropWhile Char.isDigit with
  | nil => simp
  | cons next rest =>
    have hdigit := isDigit_of_dropWhile hrest
    cases hnext : isWord next <;> simp [hnext, hdigit]

/-- Whether there is a number depends on the first word only. -/
theorem numberLength?_congr {cs cs' : List Char}
    (h : cs.takeWhile isWord = cs'.takeWhile isWord) : numberLength? cs = numberLength? cs' := by
  rw [numberLength?_eq_of_word, numberLength?_eq_of_word, h]

/-- A number is the digits that characters start with, of which there are some. -/
theorem digits_of_numberLength? {cs : List Char} {length : Nat}
    (h : numberLength? cs = some length) :
    0 < length ∧ ∀ c ∈ cs.take length, c.isDigit = true := by
  rw [numberLength?, Option.ite_none_right_eq_some, Bool.and_eq_true] at h
  obtain ⟨⟨hsome, _⟩, hlength⟩ := h
  cases hlength
  have hprefix : cs.takeWhile Char.isDigit <+: cs := List.takeWhile_prefix _
  refine ⟨List.length_pos_iff.mpr (by simpa using hsome), ?_⟩
  rw [← List.prefix_iff_eq_take.mp hprefix]
  exact List.all_eq_true.mp List.all_takeWhile

/-! ### Kinds and their texts -/

theorem Piece.spelled {c : Char} {cs : List Char} {kind : Kind} {length : Nat}
    (h : Piece c cs kind length) : kind.Spelled (String.ofList (c :: cs.take (length - 1))) := by
  cases h with
  | operator hlength =>
    obtain ⟨symbol, hmem, htake, hpos⟩ := take_of_operatorLength? hlength
    rw [← List.take_cons hpos, htake, String.ofList_toList]
    exact hmem
  | number hlength =>
    obtain ⟨hpos, hdigits⟩ := digits_of_numberLength? hlength
    rw [List.take_cons hpos] at hdigits
    rw [Kind.Spelled, String.toList_ofList]
    exact ⟨List.cons_ne_nil _ _, hdigits⟩
  | openParen hc =>
    subst hc
    rfl
  | closeParen hc =>
    subst hc
    rfl
  | word _ _ => trivial
  | other _ _ _ _ _ => trivial

theorem spelled_of_mem_scan {source : String} {token : Token} (h : token ∈ scan source) :
    token.kind.Spelled token.text := by
  rw [scan_eq_cut] at h
  refine forall_mem_cut (P := fun token => token.kind.Spelled token.text) ?_ 0 _ token h
  intro offset c cs kind length hlexeme
  exact (Piece.of_lexeme? hlexeme).spelled

/-- A number is digits. -/
theorem digits_of_mem_scan {source : String} {token : Token} (h : token ∈ scan source)
    (hkind : token.kind = .number) : ∀ c ∈ token.text.toList, c.isDigit = true := by
  have hspelled := spelled_of_mem_scan h
  rw [hkind] at hspelled
  exact hspelled.2

/-! ### In front of a blank -/

theorem EndsToken.not_word {rest : List Char} (h : EndsToken rest) :
    ∀ c ∈ rest.head?, isWord c = false :=
  fun c hmem => WordClass.isWord_blank c (h c hmem)

/-- A word that was no number is none wherever it ends. -/
theorem lexes_word {c : Char} {cs : List Char} (hnumber : numberLength? (c :: cs) = none)
    (hword : isWord c = true) {rest : List Char} (hrest : ∀ c ∈ rest.head?, isWord c = false) :
    Lexes .invalid (c :: cs.takeWhile isWord) rest := by
  have hsymbols : ∀ text ∈ operatorTexts, c ∉ text := by
    intro text hmem hc
    simp [isWord_of_mem_operatorTexts text hmem c hc] at hword
  have hoperator := operatorLength?_eq_none hsymbols (cs.takeWhile isWord ++ rest)
  have hstop : rest.takeWhile isWord = [] := by
    cases rest with
    | nil => rfl
    | cons next rest => simp [hrest next rfl]
  have hwhole : (cs.takeWhile isWord ++ rest).takeWhile isWord = cs.takeWhile isWord := by
    rw [List.takeWhile_append_of_pos (List.all_eq_true.mp List.all_takeWhile), hstop,
      List.append_nil]
  have hnumber' : numberLength? (c :: (cs.takeWhile isWord ++ rest)) = none := by
    rw [← hnumber]
    apply numberLength?_congr
    rw [List.takeWhile_cons_of_pos hword, List.takeWhile_cons_of_pos hword, hwhole]
  have hopen := ne_openParen_of_isWord hword
  have hclose := ne_closeParen_of_isWord hword
  refine ⟨c, _, rfl, ?_⟩
  simp [lexeme?, hoperator, hnumber', hopen, hclose, hword, hwhole, Nat.add_comm]

/-- A text of an expression is cut off as a token of its kind. -/
theorem Kind.Spelled.lexes {kind : Kind} {text : String} (h : kind.Spelled text)
    (hkind : kind ≠ .invalid) {rest : List Char} (hrest : EndsToken rest) :
    Lexes kind text.toList rest := by
  cases kind with
  | number => exact lexes_number h.1 h.2 hrest.not_word
  | operator => exact lexes_operator h hrest.not_star
  | openParen =>
    subst h
    exact lexes_leftParen rest
  | closeParen =>
    subst h
    exact lexes_rightParen rest
  | invalid => exact absurd rfl hkind

/-- What was cut off once is cut off again in front of a blank. -/
theorem Piece.lexes {c : Char} {cs : List Char} {kind : Kind} {length : Nat}
    (h : Piece c cs kind length) {rest : List Char} (hrest : EndsToken rest) :
    Lexes kind (c :: cs.take (length - 1)) rest := by
  have hspelled (hkind : kind ≠ .invalid) : Lexes kind (c :: cs.take (length - 1)) rest := by
    simpa only [String.toList_ofList] using h.spelled.lexes hkind hrest
  cases h with
  | operator _ | number _ | openParen _ | closeParen _ => exact hspelled nofun
  | word hnumber hword =>
    have htake : cs.take (cs.takeWhile isWord).length = cs.takeWhile isWord :=
      (List.prefix_iff_eq_take.mp (List.takeWhile_prefix _)).symm
    rw [Nat.add_sub_cancel_left, htake]
    exact lexes_word hnumber hword hrest.not_word
  | other hoperator hopen hclose hword hblank =>
    have hoperator' := hrest.operatorLength? hoperator
    have hnumber := numberLength?_eq_none (isDigit_of_not_isWord hword) rest
    exact ⟨c, [], rfl, by simp [lexeme?, hoperator', hnumber, hopen, hclose, hword, hblank]⟩

/-- **A token is cut off again on its own**, or in front of a blank, as a token of its kind. -/
theorem lexes_of_mem_scan {source : String} {token : Token} (h : token ∈ scan source)
    {rest : List Char} (hrest : EndsToken rest) : Lexes token.kind token.text.toList rest := by
  rw [scan_eq_cut] at h
  refine forall_mem_cut (P := fun token => Lexes token.kind token.text.toList rest) ?_ 0 _ token h
  intro offset c cs kind length hlexeme
  simp only [String.toList_ofList]
  exact (Piece.of_lexeme? hlexeme).lexes hrest

/-- A text is cut off as one kind only. -/
theorem Lexes.kind_eq {kind kind' : Kind} {text rest : List Char} (h : Lexes kind text rest)
    (h' : Lexes kind' text rest) : kind = kind' := by
  obtain ⟨c, cs, rfl, hlexeme⟩ := h
  obtain ⟨c', cs', heq, hlexeme'⟩ := h'
  cases heq
  rw [hlexeme] at hlexeme'
  cases hlexeme'
  rfl

/-- The kind of a token is the kind that its text is cut off as. -/
theorem kind_eq_of_lexes {source : String} {token : Token} (h : token ∈ scan source) {kind : Kind}
    (hlexes : Lexes kind token.text.toList []) : token.kind = kind :=
  (lexes_of_mem_scan h endsToken_nil).kind_eq hlexes

/-! ### Places -/

/-- The text stands at the offset of the source. -/
def StandsAt (text : String) (source : String) (offset : Nat) : Prop :=
  text.toList <+: source.toList.drop offset

/-- Tokens stand where their spans say, counted from the offset of the first character. -/
theorem prefix_of_mem_cut (offset : Nat) (cs : List Char) :
    ∀ token ∈ cut offset cs,
      offset ≤ token.start ∧ token.text.toList <+: cs.drop (token.start - offset) := by
  fun_induction cut offset cs with
  | case1 offset => simp
  | case2 offset c cs hlexeme ih =>
    intro token hmem
    obtain ⟨hle, hprefix⟩ := ih token hmem
    have hdrop : token.start - offset = token.start - (offset + 1) + 1 := by omega
    exact ⟨by omega, by rwa [hdrop, List.drop_succ_cons]⟩
  | case3 offset c cs kind length hlexeme text ih =>
    have hsplit : c :: cs = text ++ cs.drop (length - 1) := by simp [text]
    refine List.forall_mem_cons.mpr ⟨⟨Nat.le_refl _, ?_⟩, ?_⟩
    · simp [start, text, List.take_prefix]
    · intro token hmem
      obtain ⟨hle, hprefix⟩ := ih token hmem
      have hdrop : token.start - offset =
          text.length + (token.start - (offset + text.length)) := by omega
      rw [hsplit, hdrop, List.drop_length_add_append]
      exact ⟨by omega, hprefix⟩

/-- A token stands where its span starts. -/
theorem standsAt_of_mem_scan {source : String} {token : Token} (h : token ∈ scan source) :
    StandsAt token.text source token.start := by
  rw [scan_eq_cut] at h
  exact (prefix_of_mem_cut 0 source.toList token h).2

end Reckoner.Token
