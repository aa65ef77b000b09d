import Reckoner.Proofs.Reachable

/-!
Errors are found as early as possible.

A list of tokens is viable if more tokens can make an expression of it. On the
explicit stack this is a matter of one state: tokens that can all be taken are
viable (`Reaches.viable`), because an operand and a `)` for every open group
complete whatever waits, and nothing saves a token that cannot be taken
(`Reaches.not_viable`). So an error blames the first token that no continuation can
save, and an input that merely ends too early is itself viable.
-/

namespace Reckoner

def Token.rightParen : Token :=
  ⟨.closeParen, ")", ⟨0, 1⟩⟩

/-- More tokens can make an expression of these. -/
def Climbing.Viable (table : Table) (tokens : List Token) : Prop :=
  ∃ more expr, Climbing.parse table (tokens ++ more) = .ok expr

namespace Frames

open Climbing (Viable)

variable {table : Table}

/-! ### Completing -/

namespace State

/-- A `)` for every open group completes an operand. -/
theorem exists_run_of_operand (table : Table) {stack : List Frame} (rooted : Rooted stack)
    (operand : Expr) :
    ∃ n expr, run table ⟨stack, some operand⟩ (List.replicate n .rightParen) = .ok expr := by
  induction rooted generalizing operand with
  | root => exact ⟨0, operand, rfl⟩
  | paren start _ ih =>
    obtain ⟨n, expr, hrun⟩ := ih operand
    exact ⟨n + 1, expr, hrun⟩
  | @operator threshold pending below hop _ ih =>
    obtain ⟨filled, hfill, -⟩ := Pending.exists_fill hop operand
    obtain ⟨n, expr, hrun⟩ := ih filled
    -- The operator is folded by the first `)` or, if there is none, at the end of the input.
    have hfold : takeClosing (⟨threshold, pending⟩ :: below) operand .rightParen =
        takeClosing below filled .rightParen := takeClosing_fold hop hfill _
    refine ⟨n, expr, ?_⟩
    cases n with
    | zero =>
      change fold (⟨threshold, pending⟩ :: below) operand = .ok expr
      rw [fold_cons, hfill]
      exact hrun
    | succ n =>
      rw [List.replicate_succ, run_cons] at hrun ⊢
      change (takeClosing (⟨threshold, pending⟩ :: below) operand .rightParen).bind _ = _
      rw [hfold]
      exact hrun

/-- Every state that has its root can be completed. -/
theorem exists_run (table : Table) {state : State} (rooted : Rooted state.stack) :
    ∃ more expr, state.run table more = .ok expr := by
  obtain ⟨stack, operand⟩ := state
  cases operand with
  | some operand =>
    obtain ⟨n, expr, hrun⟩ := exists_run_of_operand table rooted operand
    exact ⟨_, expr, hrun⟩
  | none =>
    obtain ⟨n, expr, hrun⟩ := exists_run_of_operand table rooted (.literal 1)
    exact ⟨.one :: List.replicate n .rightParen, expr, hrun⟩

end State

/-! ### Blame -/

/-- The error blames the token, for another reason than an end that comes too early. -/
def Blames (error : Error) (token : Token) : Prop :=
  error.position = some token.start ∧ error.kind ≠ .endOfInput ∧ error.kind ≠ .unclosedLeftParen

theorem Blames.positioned {token : Token} {kind : Error.Kind} (hend : kind ≠ .endOfInput)
    (hopen : kind ≠ .unclosedLeftParen) : Blames (.positioned token.start kind) token :=
  ⟨rfl, hend, hopen⟩

/-- A step that fails blames its token. -/
theorem blames_of_step (grouped : table.Grouped) {state : State} (rooted : Rooted state.stack)
    {token : Token} {error : Error} (h : state.step table token = .error error) :
    Blames error token := by
  cases Stuck.of_step grouped rooted h with
  | operand hfault => cases hfault <;> exact .positioned (by simp) (by simp)
  | operator _ _ => exact .positioned (by simp) (by simp)
  | group _ _ _ => exact .positioned (by simp) (by simp)

/-! ### Viable lists -/

/-- A list of tokens that can go on to an expression can do so from any earlier point. -/
theorem viable_of_append {before after : List Token} (h : Viable table (before ++ after)) :
    Viable table before := by
  obtain ⟨more, expr, hparse⟩ := h
  exact ⟨after ++ more, expr, by rwa [← List.append_assoc]⟩

theorem Reaches.viable {tokens : List Token} {state : State} (h : Reaches table tokens state)
    (grouped : table.Grouped) : Viable table tokens := by
  obtain ⟨more, expr, hrun⟩ := State.exists_run table (h.rooted grouped)
  refine ⟨more, expr, ?_⟩
  rw [← parse_eq_climbing grouped, h.parse_append, hrun]

/-- No continuation saves a token that cannot be taken. -/
theorem Reaches.not_viable {tokens : List Token} {token : Token} {state : State} {error : Error}
    (h : Reaches table tokens state) (hstep : state.step table token = .error error)
    (grouped : table.Grouped) : ¬ Viable table (tokens ++ [token]) := by
  rintro ⟨more, expr, hparse⟩
  rw [← parse_eq_climbing grouped, List.append_assoc, h.parse_append, List.singleton_append,
    State.run, hstep] at hparse
  cases hparse

/-- An input that gets stuck is viable up to the token it gets stuck at, and not beyond. -/
theorem Reaches.viable_take_iff {before : List Token} {token : Token} {state : State}
    {error : Error} (h : Reaches table before state) (hstep : state.step table token = .error error)
    (grouped : table.Grouped) (after : List Token) (n : Nat) :
    Viable table ((before ++ token :: after).take n) ↔ n ≤ before.length := by
  constructor
  · intro hviable
    by_contra hnot
    obtain ⟨k, rfl⟩ := Nat.exists_eq_add_of_lt (Nat.not_le.mp hnot)
    have htake : (before ++ token :: after).take (before.length + k + 1) =
        before ++ [token] ++ after.take k := by
      rw [Nat.add_assoc, List.take_length_add_append, List.take_succ_cons]
      simp
    rw [htake] at hviable
    exact h.not_viable hstep grouped (viable_of_append hviable)
  · intro hle
    have hviable := h.viable grouped
    rw [← List.take_append_drop n before] at hviable
    rw [List.take_append_of_le_length hle]
    exact viable_of_append hviable

/-! ### Errors at the end of the input -/

/-- The last `(` without a matching `)` starts at the offset. -/
def LastUnclosed (tokens : List Token) (start : Nat) : Prop :=
  ∃ before opening after, tokens = before ++ opening :: after ∧
    opening.kind = .openParen ∧ opening.start = start ∧ Balanced after

/-- After the last token, an operand is missing or a group is still open. -/
theorem Reaches.finish_error {tokens : List Token} {state : State} {error : Error}
    (h : Reaches table tokens state) (hfinish : state.finish = .error error) :
    error = .endOfInput ∧ AwaitsOperand tokens ∨
      ∃ start, error = .unclosed start ∧ EndsOperand tokens ∧ LastUnclosed tokens start := by
  unfold State.finish at hfinish
  cases hoperand : state.operand with
  | none =>
    rw [hoperand] at hfinish
    cases hfinish
    exact .inl ⟨rfl, h.awaitsOperand hoperand⟩
  | some operand =>
    rw [hoperand] at hfinish
    obtain ⟨start, rest, hstarts, rfl⟩ := exists_starts_of_fold hfinish
    have hunclosed := h.unclosed
    rw [hstarts] at hunclosed
    refine .inr ⟨start, rfl, h.endsOperand hoperand, ?_⟩
    cases hunclosed with
    | paren _ hopen hafter => exact ⟨_, _, _, rfl, hopen, rfl, hafter⟩

/-- The ways to fail: at the end, without an operand or in an open group, or at a token. -/
theorem parse_error_cases (grouped : table.Grouped) {tokens : List Token} {error : Error}
    (h : Climbing.parse table tokens = .error error) :
    (error = .endOfInput ∧ Viable table tokens ∧ AwaitsOperand tokens) ∨
      (∃ start, error = .unclosed start ∧ Viable table tokens ∧ EndsOperand tokens ∧
        LastUnclosed tokens start) ∨
      ∃ i token, tokens[i]? = some token ∧ Blames error token ∧
        ∀ n, Viable table (tokens.take n) ↔ n ≤ i := by
  rw [← parse_eq_climbing grouped] at h
  rcases exists_reaches_or_stuck table tokens with
    ⟨state, hreaches⟩ | ⟨before, token, after, state, found, rfl, hreaches, hstep⟩
  · have hviable := hreaches.viable grouped
    have hfinish := hreaches.parse_append []
    rw [List.append_nil, h] at hfinish
    rcases hreaches.finish_error hfinish.symm with
      ⟨rfl, hlast⟩ | ⟨start, rfl, hlast, hunclosed⟩
    · exact .inl ⟨rfl, hviable, hlast⟩
    · exact .inr (.inl ⟨start, rfl, hviable, hlast, hunclosed⟩)
  · have hparse := hreaches.parse_append (token :: after)
    rw [h, State.run, hstep] at hparse
    cases hparse
    have hblames := blames_of_step grouped (hreaches.rooted grouped) hstep
    exact .inr (.inr ⟨before.length, token, by simp, hblames,
      hreaches.viable_take_iff hstep grouped after⟩)

/-- **An error blames the first token that cannot be saved.** Let the groups of the table keep
their operators, and let the input fail. If an operand is missing at the end or a group is not
closed, the input itself is viable, which of the two it is shows in its last token, and the group is
the last `(` without a matching `)`. Every other error is at the token after the longest viable
part of the input. -/
theorem parse_error_viable {table : Table}
    (grouped : ∀ entry ∈ table.binary, Power.group ≤ entry.left) {tokens : List Token}
    {error : Error} (h : Climbing.parse table tokens = .error error) :
    (error.kind = .endOfInput ∨ error.kind = .unclosedLeftParen →
      Viable table tokens ∧ (error.kind = .endOfInput ↔ AwaitsOperand tokens) ∧
        (error.kind = .unclosedLeftParen ↔ EndsOperand tokens)) ∧
      (error.kind = .unclosedLeftParen →
        ∃ start, error.position = some start ∧ LastUnclosed tokens start) ∧
      (error.kind ≠ .endOfInput → error.kind ≠ .unclosedLeftParen →
        ∃ i token, tokens[i]? = some token ∧ error.position = some token.start ∧
          ∀ n, Viable table (tokens.take n) ↔ n ≤ i) := by
  rcases parse_error_cases grouped h with
    ⟨rfl, hviable, hlast⟩ | ⟨start, rfl, hviable, hlast, hunclosed⟩ |
      ⟨i, token, hget, ⟨hposition, hend, hopen⟩, htake⟩
  · have hnot := hlast.not_endsOperand
    refine ⟨?_, nofun, ?_⟩
    · intro _
      exact ⟨hviable, iff_of_true rfl hlast, iff_of_false nofun hnot⟩
    · intro hkind
      exact absurd rfl hkind
  · have hnot : ¬ AwaitsOperand tokens := fun hawaits => hawaits.not_endsOperand hlast
    refine ⟨?_, ?_, ?_⟩
    · intro _
      exact ⟨hviable, iff_of_false nofun hnot, iff_of_true rfl hlast⟩
    · intro _
      exact ⟨start, rfl, hunclosed⟩
    · intro _ hkind
      exact absurd rfl hkind
  · refine ⟨?_, ?_, ?_⟩
    · rintro (hkind | hkind)
      · exact absurd hkind hend
      · exact absurd hkind hopen
    · intro hkind
      exact absurd hkind hopen
    · intro _ _
      exact ⟨i, token, hget, hposition, htake⟩

/-- `- ( 1` leaves a group open, and can still become an expression. -/
theorem viable_of_unclosed :
    Climbing.parse .standard [.sign "-", .leftParen, .one] = .error (.unclosed 0) ∧
      Viable .standard [.sign "-", .leftParen, .one] := by
  have hparse : Climbing.parse .standard [.sign "-", .leftParen, .one] =
      .error (.unclosed 0) := by
    rw [← parse_eq_climbing Table.grouped_standard]
    decide
  exact ⟨hparse, ((parse_error_viable Table.grouped_standard hparse).1 (.inr rfl)).1⟩

end Frames

end Reckoner
