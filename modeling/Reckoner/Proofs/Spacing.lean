import Reckoner.Proofs.Lexemes
import Reckoner.Proofs.Places
import Reckoner.Token.UnicodeWords

/-!
Blanks between tokens.

Blanks keep tokens apart and say nothing else. `Respaces texts spaced` relates texts
to a source that has them in order, with blanks between them and any blanks around
them. Spacing the tokens of a source out like that gives the same tokens, up to their
places (`Token.words_of_apart`), so every engine reads the same
(`Engine.parseSource_respaced`).
-/

namespace Reckoner

open Text (isBlank)
open Token (scan cut word Lexes EndsToken)

/-! ### Texts with blanks between them -/

/-- `Apart texts cs`: the characters are the texts in order, with at least one blank after each of
them and any blanks after the last. -/
inductive Apart : List String → List Char → Prop where
  | nil : Apart [] []
  | cons {text texts gap rest} :
      gap.all isBlank = true → (texts ≠ [] → gap ≠ []) → Apart texts rest →
      Apart (text :: texts) (text.toList ++ (gap ++ rest))

/-- The source consists of the texts in order, with blanks between them and any blanks before the
first and after the last. -/
def Respaces (texts : List String) (source : String) : Prop :=
  ∃ front rest, front.all isBlank = true ∧ Apart texts rest ∧ source.toList = front ++ rest

/-- After a text comes a blank, if anything. -/
theorem Apart.endsToken {texts : List String} {gap rest : List Char} (h : Apart texts rest)
    (hgap : gap.all isBlank = true) (hsome : texts ≠ [] → gap ≠ []) : EndsToken (gap ++ rest) := by
  cases gap with
  | nil =>
    cases h with
    | nil => exact Token.endsToken_nil
    | cons _ _ _ => exact absurd rfl (hsome (List.cons_ne_nil _ _))
  | cons blank gap =>
    intro c hc
    cases hc
    exact List.all_eq_true.mp hgap blank List.mem_cons_self

/-! ### Tokens with blanks between them -/

section

variable [WordClass]

namespace Token

/-- Tokens that are cut off in front of a blank are cut off again when they are apart. -/
theorem words_of_apart {tokens : List Token}
    (hlexes : ∀ token ∈ tokens, ∀ rest, EndsToken rest →
      Lexes token.kind token.text.toList rest)
    {cs : List Char} (h : Apart (tokens.map text) cs) (offset : Nat) :
    (cut offset cs).map word = tokens.map word := by
  induction tokens generalizing cs offset with
  | nil =>
    cases h
    rw [cut_nil]
  | cons token tokens ih =>
    obtain ⟨htoken, htokens⟩ := List.forall_mem_cons.mp hlexes
    cases h with
    | cons hgap hsome hrest =>
      have hends := hrest.endsToken hgap hsome
      rw [cut_of_lexes (htoken _ hends), cut_blanks hgap, List.map_cons, List.map_cons,
        ih htokens hrest]
      simp [word]

/-- The tokens of a source, spaced out, are the same tokens at other places. -/
theorem words_of_respaces {source spaced : String} (h : Respaces ((scan source).map text) spaced) :
    (scan spaced).map word = (scan source).map word := by
  obtain ⟨front, rest, hfront, hapart, hspaced⟩ := h
  rw [scan_eq_cut spaced, hspaced, cut_blanks hfront]
  exact words_of_apart (fun token hmem rest hrest => lexes_of_mem_scan hmem hrest) hapart _

end Token

/-- **Blanks do not matter.** Let a text consist of the tokens of a source in order, with blanks
between them. It has the same kinds and texts of tokens, and every engine makes the same of both: a
tree, or an error that points nowhere, or at the token with the same index. -/
theorem Engine.parseSource_respaced {source spaced : String}
    (h : Respaces ((scan source).map Token.text) spaced) :
    (scan spaced).map word = (scan source).map word ∧
      ∀ engine : Engine, Corresponds (scan source) (scan spaced) (engine.parseSource source)
        (engine.parseSource spaced) := by
  have hwords := Token.words_of_respaces h
  exact ⟨hwords, fun engine => .of_words hwords.symm engine⟩

end

/-- The `<` of `(1<2x` is unrecognised, also when it is moved away from the word after it. -/
theorem Engine.respaced_lone_angle :
    Respaces ((scan "(1<2x").map Token.text) "\t( 1 \n<  2x" ∧
      Engine.frames.parseSource "(1<2x" = .error (.positioned 2 (.unrecognised "<")) ∧
      Corresponds (scan "(1<2x") (scan "\t( 1 \n<  2x")
        (.error (.positioned 2 (.unrecognised "<"))) (Engine.frames.parseSource "\t( 1 \n<  2x") := by
  have hscan : scan "(1<2x" = [⟨.openParen, "(", ⟨0, 1⟩⟩, ⟨.number, "1", ⟨1, 2⟩⟩,
      ⟨.invalid, "<", ⟨2, 3⟩⟩, ⟨.invalid, "2x", ⟨3, 5⟩⟩] := by
    decide +kernel
  have hparse : Engine.frames.parseSource "(1<2x" = .error (.positioned 2 (.unrecognised "<")) := by
    simp only [Engine.parseSource, Token.tokenize, hscan]
    rfl
  have hspaced : Respaces ((scan "(1<2x").map Token.text) "\t( 1 \n<  2x" := by
    have hword : Apart ["2x"] ("2x".toList ++ ([] ++ [])) := .cons rfl (absurd rfl) .nil
    have hangle : Apart ["<", "2x"] ("<".toList ++ ([' ', ' '] ++ _)) :=
      .cons (by decide) (fun _ => List.cons_ne_nil _ _) hword
    have hone : Apart ["1", "<", "2x"] ("1".toList ++ ([' ', '\n'] ++ _)) :=
      .cons (by decide) (fun _ => List.cons_ne_nil _ _) hangle
    have hopen : Apart ["(", "1", "<", "2x"] ("(".toList ++ ([' '] ++ _)) :=
      .cons (by decide) (fun _ => List.cons_ne_nil _ _) hone
    rw [hscan]
    exact ⟨['\t'], _, by decide, hopen, by decide⟩
  exact ⟨hspaced, hparse, hparse ▸ (Engine.parseSource_respaced hspaced).2 .frames⟩

end Reckoner
