import Mathlib.Data.String.Basic
import Reckoner.Proofs.Scanning

/-!
Bytes and characters.

The lexer finds its tokens by bytes and counts their places in characters, from gap
to gap, with offsets that start over. `Lexer.At` is what it keeps true meanwhile: the
end of the last match, in bytes, is the size of the characters gone over, and the
character offset is their number, up to starting over.

* `Lexer.At.skip`, `Lexer.At.takeMatch` — passing over a character and taking a match
  keep it so, and `Lexer.At.takeMatch_eq` says which token the match becomes.
* `Lexer.At.foldl_takeMatch` — hence the lexer finds the tokens of `cut`, and notices
  if the span of one of them starts over.
* `tokens_lex`, `overflowed_lex` — so does a scan after earlier tokens.
* `scan_eq_cut` — nothing starts over if offsets count the characters of the text.
-/

namespace Reckoner.Text

/-! ### Bytes of characters -/

theorem byteSize_eq_utf8Len (cs : List Char) : byteSize cs = String.utf8Len cs := by
  induction cs with
  | nil => rfl
  | cons c cs ih => rw [byteSize, ih, String.utf8Len_cons, Nat.add_comm]

theorem byteSize_append (cs cs' : List Char) :
    byteSize (cs ++ cs') = byteSize cs + byteSize cs' := by
  simp only [byteSize_eq_utf8Len, String.utf8Len_append]

theorem length_le_byteSize (cs : List Char) : cs.length ≤ byteSize cs := by
  induction cs with
  | nil => exact Nat.le_refl 0
  | cons c cs ih =>
    have hpos := c.utf8Size_pos
    rw [List.length_cons, byteSize]
    omega

theorem length_le_utf8ByteSize (s : String) : s.length ≤ s.utf8ByteSize := by
  rw [← String.utf8Len_toList, ← byteSize_eq_utf8Len, ← String.length_toList]
  exact length_le_byteSize s.toList

/-- A slice between places that fall between characters is made up of the characters there. -/
theorem slice_eq {s : String} {front text rest : List Char} (h : s.toList = front ++ text ++ rest) :
    slice s (byteSize front) (byteSize front + byteSize text) = String.ofList text := by
  rw [slice, ← String.ofList_toList (s := s), h, byteSize_eq_utf8Len, byteSize_eq_utf8Len]
  exact String.extract_of_valid front text rest

end Reckoner.Text

namespace Reckoner.Token

open Text (byteSize slice)

/-! ### Offsets that start over -/

/-- The token with what is left of its offsets when counting starts over after `highest`. -/
def wrap (highest : Nat) (token : Token) : Token :=
  { token with span := ⟨Lexer.wrap highest token.span.start, Lexer.wrap highest token.span.stop⟩ }

def endsAbove (highest : Nat) (token : Token) : Bool :=
  highest < token.span.stop

theorem Lexer.wrap_of_le {highest n : Nat} (h : n ≤ highest) : Lexer.wrap highest n = n :=
  Nat.mod_eq_of_lt (Nat.lt_succ_of_le h)

theorem Lexer.wrap_add (highest a b : Nat) :
    Lexer.wrap highest (Lexer.wrap highest a + b) = Lexer.wrap highest (a + b) :=
  Nat.mod_add_mod a (highest + 1) b

theorem wrap_eq_self {highest : Nat} {token : Token} (hle : token.span.start ≤ token.span.stop)
    (h : token.span.stop ≤ highest) : token.wrap highest = token := by
  rw [wrap, Lexer.wrap_of_le (hle.trans h), Lexer.wrap_of_le h]

/-! ### One match -/

namespace Lexer

theorem foldl_push (earlier : List Token) (lexer : Lexer) :
    earlier.foldl push lexer = { lexer with found := earlier.reverse ++ lexer.found } := by
  induction earlier generalizing lexer with
  | nil => rfl
  | cons token earlier ih => simp [ih, push]

/-- `lexer.At consumed skipped rest offset`: the last match of the lexer ends after `consumed`,
where the character offset is the given one, `skipped` has been passed over since and `rest` is
still to come. -/
structure At (lexer : Lexer) (consumed skipped rest : List Char) (offset : Nat) : Prop where
  source : lexer.source.toList = consumed ++ skipped ++ rest
  byteOffset : lexer.byteOffset = byteSize consumed
  charOffset : wrap lexer.highest lexer.charOffset = wrap lexer.highest offset
  exact : lexer.overflowed = false → lexer.charOffset = offset

variable {lexer : Lexer} {consumed skipped text rest : List Char} {offset : Nat}

theorem At.skip {c : Char} (h : lexer.At consumed skipped (c :: rest) offset) :
    lexer.At consumed (skipped ++ [c]) rest offset :=
  ⟨by simp [h.source], h.byteOffset, h.charOffset, h.exact⟩

/-- A sum of offsets is too high exactly if the token would end too high. -/
theorem At.overflows_iff (h : lexer.At consumed skipped rest offset)
    (hexact : lexer.overflowed = false) (length : Nat) :
    (lexer.highest < lexer.charOffset + skipped.length ∨
      lexer.highest < wrap lexer.highest (lexer.charOffset + skipped.length) + length) ↔
      lexer.highest < offset + skipped.length + length := by
  rw [h.exact hexact]
  by_cases hhigh : lexer.highest < offset + skipped.length
  · exact iff_of_true (.inl hhigh) (Nat.lt_add_right length hhigh)
  · rw [wrap_of_le (Nat.not_lt.mp hhigh), or_iff_right hhigh]

/-- The lexer after tokens that were found next, the last of which ends at the byte. -/
def after (lexer : Lexer) (byte : Nat) (tokens : List Token) : Lexer :=
  { lexer with
    found := (tokens.map (Token.wrap lexer.highest)).reverse ++ lexer.found
    byteOffset := byte
    overflowed := lexer.overflowed || tokens.any (endsAbove lexer.highest) }

theorem after_after (lexer : Lexer) (byte byte' : Nat) (tokens tokens' : List Token) :
    (lexer.after byte tokens).after byte' tokens' = lexer.after byte' (tokens ++ tokens') := by
  simp only [after, List.map_append, List.reverse_append, List.append_assoc, List.any_append,
    Bool.or_assoc]

/-- A match becomes the token that has its characters, at their place. -/
theorem At.takeMatch_eq (h : lexer.At consumed skipped (text ++ rest) offset) (kind : Kind) :
    let start := offset + skipped.length
    let byte := byteSize (consumed ++ skipped)
    lexer.takeMatch ⟨kind, byte, byte + byteSize text⟩ =
      lexer.after (byte + byteSize text)
        [⟨kind, String.ofList text, ⟨start, start + text.length⟩⟩] := by
  have hgap : slice lexer.source lexer.byteOffset (byteSize (consumed ++ skipped)) =
      String.ofList skipped := by
    rw [h.byteOffset, Text.byteSize_append]
    exact Text.slice_eq h.source
  have htext : slice lexer.source (byteSize (consumed ++ skipped))
      (byteSize (consumed ++ skipped) + byteSize text) = String.ofList text :=
    Text.slice_eq (h.source.trans (List.append_assoc _ _ _).symm)
  have hstart : wrap lexer.highest (lexer.charOffset + skipped.length) =
      wrap lexer.highest (offset + skipped.length) := by
    rw [← wrap_add, h.charOffset, wrap_add]
  have hflag : (lexer.overflowed || (decide (lexer.highest < lexer.charOffset + skipped.length) ||
        decide (lexer.highest <
          wrap lexer.highest (lexer.charOffset + skipped.length) + text.length))) =
      (lexer.overflowed || decide (lexer.highest < offset + skipped.length + text.length)) := by
    -- After an overflow, the character offset decides nothing any more.
    cases hoverflowed : lexer.overflowed with
    | true => rfl
    | false => simp only [Bool.false_or, ← Bool.decide_or, h.overflows_iff hoverflowed]
  simp only [takeMatch, hgap, htext, String.length_ofList, hflag]
  rw [hstart, wrap_add]
  simp [after, Token.wrap, endsAbove]

theorem At.takeMatch (h : lexer.At consumed skipped (text ++ rest) offset) (kind : Kind) :
    let byte := byteSize (consumed ++ skipped)
    (lexer.takeMatch ⟨kind, byte, byte + byteSize text⟩).At (consumed ++ skipped ++ text) [] rest
      (offset + skipped.length + text.length) := by
  intro byte
  rw [h.takeMatch_eq kind]
  refine ⟨?_, (Text.byteSize_append _ _).symm, Nat.mod_mod _ _, ?_⟩
  · simp [after, h.source]
  · intro hexact
    have hle : offset + skipped.length + text.length ≤ lexer.highest := by
      simpa [endsAbove] using (Bool.or_eq_false_iff.mp hexact).2
    exact wrap_of_le hle

end Lexer

/-! ### One match after the other -/

variable [WordClass]

theorem matchesOnto_eq_append (found : List Match) (byte : Nat) (cs : List Char) :
    matchesOnto found byte cs = found.reverse ++ matchesOnto [] byte cs := by
  match cs with
  | [] => simp [matchesOnto]
  | c :: cs =>
    rw [matchesOnto, matchesOnto]
    cases lexeme? c cs with
    | none => exact matchesOnto_eq_append found _ cs
    | some lexeme =>
      dsimp only
      rw [matchesOnto_eq_append (_ :: found), matchesOnto_eq_append [_]]
      simp
termination_by cs.length
decreasing_by all_goals simp only [List.length_cons, List.length_drop]; omega

theorem matchesOnto_of_none {c : Char} {cs : List Char} (h : lexeme? c cs = none) (byte : Nat) :
    matchesOnto [] byte (c :: cs) = matchesOnto [] (byte + c.utf8Size) cs := by
  rw [matchesOnto, h]

theorem matchesOnto_of_some {c : Char} {cs : List Char} {kind : Kind} {length : Nat}
    (h : lexeme? c cs = some (kind, length)) (byte : Nat) :
    matchesOnto [] byte (c :: cs) =
      ⟨kind, byte, byte + byteSize (c :: cs.take (length - 1))⟩ ::
        matchesOnto [] (byte + byteSize (c :: cs.take (length - 1))) (cs.drop (length - 1)) := by
  rw [matchesOnto, h]
  exact matchesOnto_eq_append [_] _ _

/-- The lexer finds the tokens of the characters that are still to come. -/
theorem Lexer.At.foldl_takeMatch {lexer : Lexer} {consumed skipped cs : List Char} {offset : Nat}
    (h : lexer.At consumed skipped cs offset) :
    ∃ byte, (matchesOnto [] (byteSize (consumed ++ skipped)) cs).foldl Lexer.takeMatch lexer =
      lexer.after byte (cut (offset + skipped.length) cs) := by
  match cs with
  | [] => exact ⟨lexer.byteOffset, by simp [matchesOnto, after]⟩
  | c :: cs =>
    cases hlexeme : lexeme? c cs with
    | none =>
      -- The gap grows by a character, in bytes and in characters.
      have hbyte : byteSize (consumed ++ skipped) + c.utf8Size =
          byteSize (consumed ++ (skipped ++ [c])) := by
        rw [← List.append_assoc, Text.byteSize_append (consumed ++ skipped)]
        rfl
      have hoffset : offset + skipped.length + 1 = offset + (skipped ++ [c]).length := by
        rw [List.length_append, List.length_singleton, Nat.add_assoc]
      rw [matchesOnto_of_none hlexeme, cut_of_none hlexeme, hbyte, hoffset]
      exact h.skip.foldl_takeMatch
    | some lexeme =>
      obtain ⟨kind, length⟩ := lexeme
      have hsplit : c :: cs = (c :: cs.take (length - 1)) ++ cs.drop (length - 1) := by simp
      rw [hsplit] at h
      obtain ⟨byte, hrest⟩ := (h.takeMatch kind).foldl_takeMatch
      rw [List.append_nil, List.length_nil, Nat.add_zero, Text.byteSize_append (_ ++ _),
        h.takeMatch_eq kind, after_after] at hrest
      rw [matchesOnto_of_some hlexeme, cut_of_some hlexeme, List.foldl_cons, h.takeMatch_eq kind]
      exact ⟨byte, hrest⟩
termination_by cs.length
decreasing_by all_goals simp only [List.length_cons, List.length_drop]; omega

/-! ### Scans after earlier tokens -/

/-- The offset after tokens: the end of the last of them. -/
def offsetAfter (earlier : List Token) : Nat :=
  (earlier.getLast?.map (·.span.stop)).getD 0

theorem exists_lex_eq (highest : Nat) (earlier : List Token) (source : String) :
    ∃ byte, lex highest earlier source =
      Lexer.after ⟨source, highest, earlier.reverse, 0, false⟩ byte
        (cut (offsetAfter earlier) source.toList) := by
  let start : Lexer := ⟨source, highest, earlier.reverse, 0, false⟩
  have hoffset : start.charOffset = offsetAfter earlier := by
    simp [start, Lexer.charOffset, offsetAfter]
  have hstart : start.At [] [] source.toList (offsetAfter earlier) :=
    ⟨rfl, rfl, by rw [hoffset], fun _ => hoffset⟩
  rw [lex, Lexer.foldl_push, List.append_nil]
  exact hstart.foldl_takeMatch

/-- Scanning after earlier tokens gives those and the tokens of the source text, up to starting
over. -/
theorem tokens_lex (highest : Nat) (earlier : List Token) (source : String) :
    (lex highest earlier source).tokens =
      earlier ++ (cut (offsetAfter earlier) source.toList).map (wrap highest) := by
  obtain ⟨byte, hlex⟩ := exists_lex_eq highest earlier source
  simp [hlex, Lexer.tokens, Lexer.after]

/-- Spans end where the characters do, if not before. -/
theorem span_of_mem_cut (offset : Nat) (cs : List Char) : ∀ token ∈ cut offset cs,
    token.span.start ≤ token.span.stop ∧ token.span.stop ≤ offset + cs.length := by
  fun_induction cut offset cs with
  | case1 offset => simp
  | case2 offset c cs hlexeme ih =>
    intro token hmem
    obtain ⟨hle, hstop⟩ := ih token hmem
    rw [List.length_cons]
    exact ⟨hle, by omega⟩
  | case3 offset c cs kind length hlexeme text ih =>
    have hlength : (c :: cs).length = text.length + (cs.drop (length - 1)).length := by
      rw [← List.length_append, List.cons_append, List.take_append_drop]
    rw [hlength, ← Nat.add_assoc]
    exact List.forall_mem_cons.mpr ⟨⟨Nat.le_add_right _ _, Nat.le_add_right _ _⟩, ih⟩

theorem map_wrap_cut {highest offset : Nat} {cs : List Char}
    (h : ∀ token ∈ cut offset cs, token.span.stop ≤ highest) :
    (cut offset cs).map (wrap highest) = cut offset cs := by
  conv_rhs => rw [← List.map_id (cut offset cs)]
  refine List.map_congr_left fun token hmem => ?_
  exact wrap_eq_self (span_of_mem_cut offset cs token hmem).1 (h token hmem)

/-- The tokens of a text do not depend on how high offsets count, if they count its characters. -/
theorem scanAfter_nil {source : String} {highest : Nat} (h : source.length ≤ highest) :
    scanAfter [] source highest = cut 0 source.toList := by
  rw [scanAfter, tokens_lex, List.nil_append]
  refine map_wrap_cut fun token hmem => ?_
  have hstop := (span_of_mem_cut _ _ token hmem).2
  rw [String.length_toList] at hstop
  exact hstop.trans (by simpa [offsetAfter] using h)

theorem scan_eq_cut (source : String) : scan source = cut 0 source.toList :=
  scanAfter_nil (Text.length_le_utf8ByteSize source)

end Reckoner.Token
