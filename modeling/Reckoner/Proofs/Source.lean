import Reckoner.Engine
import Reckoner.Proofs.Agreement.ShuntingYard

/-!
From a source text to a tree, by any engine.

With the standard operators the engines agree (`Engine.parse_standard`), so a
statement about what becomes of a source text is one about its tokens and
recursion (`Engine.parseSource_eq_ok_iff`, `Engine.parseSource_eq_error_iff`).
-/

namespace Reckoner

/-- With the standard operators, all engines agree with recursion. -/
theorem Engine.parse_standard (engine : Engine) (tokens : List Token) :
    engine.parse .standard tokens = Climbing.parse .standard tokens := by
  cases engine with
  | climbing => rfl
  | frames => exact Frames.parse_eq_climbing Table.grouped_standard tokens
  | shuntingYard => exact ShuntingYard.parse_eq_climbing_of_fitsYard Table.fitsYard_standard tokens

variable [WordClass]

/-- A text is tokenized if no piece of it is unrecognised. -/
theorem Token.tokenize_eq_ok_iff {source : String} {tokens : List Token} :
    tokenize source = .ok tokens ↔
      scan source = tokens ∧ ∀ token ∈ scan source, token.kind ≠ .invalid := by
  simp only [tokenize]
  cases hfind : (scan source).find? (·.kind = .invalid) with
  | none =>
    have hnone := List.find?_eq_none.mp hfind
    simp_all
  | some invalid =>
    have hkind := List.find?_some hfind
    have hmem := List.mem_of_find?_eq_some hfind
    simp only [reduceCtorEq, false_iff, not_and, Classical.not_forall]
    exact fun _ => ⟨invalid, hmem, by simpa using hkind⟩

namespace Engine

/-- A source text has a tree if no piece of it is unrecognised and recursion reads its tokens. -/
theorem parseSource_eq_ok_iff {engine : Engine} {source : String} {expr : Expr} :
    engine.parseSource source = .ok expr ↔
      (∀ token ∈ Token.scan source, token.kind ≠ .invalid) ∧
        Climbing.parse .standard (Token.scan source) = .ok expr := by
  unfold parseSource
  cases htokens : Token.tokenize source with
  | error error =>
    simp only [bind, Except.bind, reduceCtorEq, false_iff, not_and]
    intro hvalid
    rw [Token.tokenize_eq_ok_iff.mpr ⟨rfl, hvalid⟩] at htokens
    cases htokens
  | ok tokens =>
    obtain ⟨rfl, hvalid⟩ := Token.tokenize_eq_ok_iff.mp htokens
    simp only [bind, Except.bind, parse_standard]
    exact ⟨fun h => ⟨hvalid, h⟩, fun h => h.2⟩

/-- A source text has an error if it is not tokenized, or if recursion fails on its tokens. -/
theorem parseSource_eq_error_iff {engine : Engine} {source : String} {error : Error} :
    engine.parseSource source = .error error ↔
      Token.tokenize source = .error error ∨
        (∀ token ∈ Token.scan source, token.kind ≠ .invalid) ∧
          Climbing.parse .standard (Token.scan source) = .error error := by
  unfold parseSource
  cases htokens : Token.tokenize source with
  | error found =>
    have hnot : ¬ ∀ token ∈ Token.scan source, token.kind ≠ .invalid := by
      intro hvalid
      rw [Token.tokenize_eq_ok_iff.mpr ⟨rfl, hvalid⟩] at htokens
      cases htokens
    simp [bind, Except.bind, hnot]
  | ok tokens =>
    obtain ⟨rfl, hvalid⟩ := Token.tokenize_eq_ok_iff.mp htokens
    simp only [bind, Except.bind, parse_standard, reduceCtorEq, false_or]
    exact ⟨fun h => ⟨hvalid, h⟩, fun h => h.2⟩

end Engine

end Reckoner
