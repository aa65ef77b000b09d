import Reckoner.Proofs.Arithmetic.Range
import Reckoner.Proofs.Lexemes
import Reckoner.Proofs.Numbers
import Reckoner.Proofs.Source
import Reckoner.Proofs.Viability
import Reckoner.Token.UnicodeWords

/-!
What the error of a source text says about it.

An error points at a token and names it, so it can be checked against the source:
the text it names stands at the offset it points at, and is at fault for the reason
it gives. `Explained` lists the reasons, one for each kind of error, in terms of the
text of the token and the parentheses before it; no engine takes part in it.

* `Unclosed.unmatched_eq` — the open groups are those of a count over the tokens.
* `explained_of_stuck`, `explained_of_parse` — a token that cannot be taken, or that
  opens a group still open at the end, explains its error.
* `Engine.parseSource_error_explained` — hence every error of every engine is
  explained, unless a piece of the source is unrecognised or its end is missing.
-/

namespace Reckoner

/-! ### Open groups, counted -/

/-- The offsets of the open groups after one more token, the innermost first. -/
def openAfter (starts : List Nat) (token : Token) : List Nat :=
  match token.kind with
  | .openParen => token.start :: starts
  | .closeParen => starts.tail
  | .number | .operator | .invalid => starts

/-- The offsets of the `(` that no `)` among the tokens matches, the last one first. -/
def unmatched (tokens : List Token) : List Nat :=
  tokens.foldl openAfter []

/-- Parentheses that match each other leave the open groups as they are. -/
theorem Balanced.foldl_openAfter {tokens : List Token} (h : Balanced tokens)
    (starts : List Nat) : tokens.foldl openAfter starts = starts := by
  induction h generalizing starts with
  | nil => rfl
  | @other token rest hopen hclose _ ih =>
    have htoken : openAfter starts token = starts := by
      cases hkind : token.kind <;> simp_all [openAfter]
    rw [List.foldl_cons, htoken, ih]
  | @group opening inner closing rest hopen _ hclose _ ihInner ihRest =>
    have hopened : openAfter starts opening = opening.start :: starts := by
      simp [openAfter, hopen]
    have hclosed : openAfter (opening.start :: starts) closing = starts := by
      simp [openAfter, hclose]
    rw [List.foldl_cons, List.foldl_append, List.foldl_cons, hopened, ihInner, hclosed, ihRest]

/-- The `(` without a matching `)` are those that are counted. -/
theorem Unclosed.unmatched_eq {tokens : List Token} {starts : List Nat}
    (h : Unclosed tokens starts) : unmatched tokens = starts := by
  induction h with
  | none hbalanced => exact hbalanced.foldl_openAfter []
  | @paren before opening after starts _ hopen hafter ih =>
    have hopened : openAfter starts opening = opening.start :: starts := by
      simp [openAfter, hopen]
    rw [unmatched] at ih ⊢
    rw [List.foldl_append, List.foldl_cons, ih, hopened, hafter.foldl_openAfter]

/-! ### Numbers out of range -/

/-- Digits that are no 64-bit integer stand for a number above them all. -/
theorem Text.lt_of_digits_not_narrow {s : String} (hne : s.toList ≠ [])
    (hdigits : ∀ c ∈ s.toList, c.isDigit = true)
    (h : (readInt? s).bind Arithmetic.narrow? = none) :
    2 ^ 63 - 1 < Nat.ofDigitChars 10 s.toList 0 := by
  have hread : readDigits? s.toList = some (Nat.ofDigitChars 10 s.toList 0) :=
    if_pos ⟨hne, List.all_eq_true.mpr hdigits⟩
  rw [readInt?_of_digits hdigits, hread, Option.map_some, Option.bind_some,
    Arithmetic.narrow?_eq_none_iff, Arithmetic.InRange, Int.ofNat_eq_natCast] at h
  omega

/-! ### Reasons -/

open Token (scan StandsAt)

/-- `Explained before text kind`: a token with the text, after the given tokens, is at fault for an
error of the kind. -/
inductive Explained (before : List Token) (text : String) : Error.Kind → Prop where
  | strayRightParen : text = ")" → Explained before text .strayRightParen
  | unclosedLeftParen : text = "(" → Explained before text .unclosedLeftParen
  /-- An operator that has no form in front of an operand. -/
  | unknownUnary : text ∈ Table.standard.symbols → Table.standard.unary? text = none →
      Explained before text (.unknownUnary text)
  /-- Digits whose value exceeds every 64-bit integer. -/
  | unreadableNumber : text.toList ≠ [] → (∀ c ∈ text.toList, c.isDigit = true) →
      2 ^ 63 - 1 < Nat.ofDigitChars 10 text.toList 0 →
      Explained before text (.unreadableNumber text)
  /-- No operator between operands, outside all groups. -/
  | expectedOperator : Table.standard.binary? text = none → unmatched before = [] →
      Explained before text .expectedOperator
  /-- No operator between operands and no `)`, inside a group. -/
  | expectedOperatorOrRightParen : Table.standard.binary? text = none → text ≠ ")" →
      unmatched before ≠ [] → Explained before text .expectedOperatorOrRightParen

section

variable [WordClass]

/-- A token of a source that stands for no operator between operands spells none. -/
theorem Token.binary?_of_mem_scan {source : String} {token : Token} (hmem : token ∈ scan source)
    (h : Table.standard.binaryFor? token = none) : Table.standard.binary? token.text = none := by
  have hsymbols : ∀ entry ∈ Table.standard.binary, entry.symbol ∈ Table.standard.symbols := by
    decide
  refine Option.eq_none_iff_forall_ne_some.mpr fun entry hentry => ?_
  obtain ⟨hbinary, hsymbol⟩ := Table.mem_of_binary? hentry
  have hoperator : token.kind = .operator :=
    Token.kind_eq_of_lexes hmem (lexes_operator (hsymbol ▸ hsymbols entry hbinary) nofun)
  simp [Table.binaryFor?_eq_some_iff.mpr ⟨hoperator, hentry⟩] at h

/-- A token that cannot be taken explains its error. -/
theorem explained_of_stuck {source : String} {token : Token} (hmem : token ∈ scan source)
    (hvalid : token.kind ≠ .invalid) {before : List Token} {stack : List Frames.Frame}
    (hunclosed : Unclosed before (Frames.starts stack)) {error : Error}
    (h : Frames.Stuck .standard token stack error) :
    error.position = some token.start ∧ Explained before token.text error.kind := by
  have hspelled := Token.spelled_of_mem_scan hmem
  have hopen := hunclosed.unmatched_eq
  cases h with
  | operand hfault =>
    refine ⟨rfl, ?_⟩
    cases hfault with
    | number hkind hnone =>
      rw [hkind] at hspelled
      obtain ⟨hne, hdigits⟩ := hspelled
      exact .unreadableNumber hne hdigits (Text.lt_of_digits_not_narrow hne hdigits hnone)
    | operator hkind hnone =>
      rw [hkind] at hspelled
      exact .unknownUnary hspelled hnone
    | closeParen hkind =>
      rw [hkind] at hspelled
      exact .strayRightParen hspelled
    | invalid hkind => exact absurd hkind hvalid
  | operator hentry hnone =>
    exact ⟨rfl, .expectedOperator (Token.binary?_of_mem_scan hmem hentry) (hopen.trans hnone)⟩
  | group hentry hsome hclose =>
    have htext : token.text ≠ ")" := by
      intro htext
      exact hclose (Token.kind_eq_of_lexes hmem (htext ▸ Token.lexes_rightParen []))
    exact ⟨rfl, .expectedOperatorOrRightParen (Token.binary?_of_mem_scan hmem hentry) htext
      (hopen ▸ hsome)⟩

/-! ### Source texts -/

/-- The first unrecognised piece of a text is why it is not tokenized. -/
theorem Token.exists_of_tokenize_error {source : String} {error : Error}
    (h : tokenize source = .error error) :
    ∃ before token after, scan source = before ++ token :: after ∧
      (∀ earlier ∈ before, earlier.kind ≠ .invalid) ∧ token.kind = .invalid ∧
      error = .positioned token.start (.unrecognised token.text) := by
  simp only [tokenize] at h
  split at h
  · next token hfind =>
    cases h
    obtain ⟨hkind, before, after, hsplit, hbefore⟩ := List.find?_eq_some_iff_append.mp hfind
    refine ⟨before, token, after, hsplit, ?_, by simpa using hkind, rfl⟩
    intro earlier hmem
    simpa using hbefore earlier hmem
  · cases h

/-- An error of reading the tokens of a source without unrecognised pieces is explained by one of
them, unless an operand is missing at the end. -/
theorem explained_of_parse {source : String}
    (hvalid : ∀ token ∈ scan source, token.kind ≠ .invalid) {error : Error}
    (h : Climbing.parse .standard (scan source) = .error error) :
    error = .endOfInput ∨
      ∃ before token after, scan source = before ++ token :: after ∧
        error.position = some token.start ∧ StandsAt token.text source token.start ∧
        Explained before token.text error.kind := by
  have grouped := Table.grouped_standard
  rw [← Frames.parse_eq_climbing grouped] at h
  rcases Frames.exists_reaches_or_stuck .standard (scan source) with
    ⟨state, hreaches⟩ | ⟨before, token, after, state, found, hsplit, hreaches, hstep⟩
  · have hfinish := hreaches.parse_append []
    rw [List.append_nil, h] at hfinish
    rcases hreaches.finish_error hfinish.symm with ⟨rfl, -⟩ | ⟨start, rfl, -, hlast⟩
    · exact .inl rfl
    · obtain ⟨before, opening, after, hsplit, hkind, rfl, -⟩ := hlast
      have hmem : opening ∈ scan source := by simp [hsplit]
      have hspelled := Token.spelled_of_mem_scan hmem
      rw [hkind] at hspelled
      exact .inr ⟨before, opening, after, hsplit, rfl, Token.standsAt_of_mem_scan hmem,
        .unclosedLeftParen hspelled⟩
  · have hparse := hreaches.parse_append (token :: after)
    rw [← hsplit, h, Frames.State.run, hstep] at hparse
    cases hparse
    have hmem : token ∈ scan source := by simp [hsplit]
    have hstuck := Frames.Stuck.of_step grouped (hreaches.rooted grouped) hstep
    obtain ⟨hposition, hexplained⟩ :=
      explained_of_stuck hmem (hvalid token hmem) hreaches.unclosed hstuck
    exact .inr ⟨before, token, after, hsplit, hposition, Token.standsAt_of_mem_scan hmem,
      hexplained⟩

/-- **Every error of a source text is explained by the text it points at.** Let an engine fail on a
source. If the source has unrecognised pieces, the error is at the first of them and names it.
Otherwise the input ends where an operand is missing, which points nowhere, or the error is at a
token that stands there and explains it. -/
theorem Engine.parseSource_error_explained {engine : Engine} {source : String} {error : Error}
    (h : engine.parseSource source = .error error) :
    (∃ before token after, scan source = before ++ token :: after ∧
        (∀ earlier ∈ before, earlier.kind ≠ .invalid) ∧ token.kind = .invalid ∧
        error = .positioned token.start (.unrecognised token.text)) ∨
      (∀ token ∈ scan source, token.kind ≠ .invalid) ∧
        (error = .unpositioned .endOfInput ∨
          ∃ before token after, scan source = before ++ token :: after ∧
            error.position = some token.start ∧ StandsAt token.text source token.start ∧
            Explained before token.text error.kind) := by
  unfold parseSource at h
  cases htokens : Token.tokenize source with
  | error found =>
    rw [htokens] at h
    cases h
    exact .inl (Token.exists_of_tokenize_error htokens)
  | ok tokens =>
    obtain ⟨rfl, hvalid⟩ := Token.tokenize_eq_ok_iff.mp htokens
    rw [htokens] at h
    change engine.parse .standard (scan source) = .error error at h
    rw [parse_standard] at h
    exact .inr ⟨hvalid, explained_of_parse hvalid h⟩

end

/-- In `2 * (3 4` the second number is where an operator or a `)` should be, since a group is
open. -/
theorem Engine.explained_missing_operator :
    Engine.shuntingYard.parseSource "2 * (3 4" =
        .error (.positioned 7 .expectedOperatorOrRightParen) ∧
      ∃ before token after, scan "2 * (3 4" = before ++ token :: after ∧ token.start = 7 ∧
        StandsAt token.text "2 * (3 4" 7 ∧
        Explained before token.text .expectedOperatorOrRightParen := by
  have hparse : Engine.shuntingYard.parseSource "2 * (3 4" =
      .error (.positioned 7 .expectedOperatorOrRightParen) := by
    decide +kernel
  refine ⟨hparse, ?_⟩
  rcases Engine.parseSource_error_explained hparse with
    ⟨before, token, after, _, _, _, herror⟩ | ⟨_, herror | ⟨before, token, after, hsplit, hposition,
      hstands, hexplained⟩⟩
  · cases herror
  · cases herror
  · have hstart : token.start = 7 := (Option.some.inj hposition).symm
    exact ⟨before, token, after, hsplit, hstart, hstart ▸ hstands, hexplained⟩

end Reckoner
