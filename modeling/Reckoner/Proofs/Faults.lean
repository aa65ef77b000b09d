import Reckoner.Proofs.Agreement.Frames

/-!
The faults that reading can find.

Whatever its table, the explicit stack fails only for a reason that lies in the
tokens (`Frames.ofReading_of_parse`). In particular it never runs out of operands.
-/

namespace Reckoner

/-- The causes that lie in the tokens. -/
def Error.Kind.ofReading : Error.Kind → Bool
  | unrecognised _ | endOfInput | strayRightParen | unknownUnary _ | unclosedLeftParen
  | expectedOperatorOrRightParen | expectedOperator | unreadableNumber _ => true
  | divisionByZero | negativeExponent | negativeShiftCount | overflow _ | unknownOperator _
  | unsupportedNode _ | invalidState _ => false

variable {table : Table}

/-- A token is blamed for itself where it stands for no operand. -/
theorem Table.ofReading_of_atom {token : Token} {error : Error}
    (h : table.atom token = .error error) : error.kind.ofReading = true := by
  obtain ⟨kind, rfl, hfault⟩ := exists_fault_of_atom h
  cases hfault <;> rfl

namespace Frames

/-- Folding fails only at a group that is still open. -/
theorem exists_of_fold_error {frames : List Frame} {operand : Expr} {error : Error}
    (h : fold frames operand = .error error) : ∃ start, error = .unclosed start := by
  induction frames generalizing operand with
  | nil => cases h
  | cons frame frames ih =>
    obtain ⟨threshold, pending⟩ := frame
    rw [fold_cons] at h
    cases pending with
    | root => exact ih h
    | paren start => cases h; exact ⟨start, rfl⟩
    | unary operator => exact ih h
    | binary operator left => exact ih h

theorem ofReading_of_fold {frames : List Frame} {operand : Expr} {error : Error}
    (h : fold frames operand = .error error) : error.kind.ofReading = true := by
  obtain ⟨start, rfl⟩ := exists_of_fold_error h
  rfl

theorem State.ofReading_of_step {state : State} {token : Token} {error : Error}
    (h : state.step table token = .error error) : error.kind.ofReading = true := by
  obtain ⟨stack, operand⟩ := state
  cases operand with
  | none =>
    simp only [step, takeOperand] at h
    cases hatom : table.atom token with
    | error error' =>
      rw [hatom] at h
      cases h
      exact Table.ofReading_of_atom hatom
    | ok atom => cases atom <;> simp [hatom, bind, Except.bind, pure, Except.pure] at h
  | some operand =>
    simp only [step, takeOperator] at h
    cases hentry : table.binaryFor? token with
    | some entry =>
      simp only [hentry] at h
      cases hfold : fold (above entry.left stack) operand with
      | error error' =>
        rw [hfold] at h
        cases h
        exact ofReading_of_fold hfold
      | ok left => rw [hfold] at h; cases h
    | none =>
      simp only [hentry, takeClosing] at h
      cases hfold : fold (Frames.group stack) operand with
      | error error' =>
        rw [hfold] at h
        cases h
        exact ofReading_of_fold hfold
      | ok inner =>
        simp only [hfold, bind, Except.bind] at h
        split at h
        · split at h <;> cases h
          rfl
        · cases h
          rfl

theorem State.ofReading_of_run (tokens : List Token) {state : State} {error : Error}
    (h : state.run table tokens = .error error) : error.kind.ofReading = true := by
  induction tokens generalizing state with
  | nil =>
    obtain ⟨stack, operand⟩ := state
    cases operand with
    | none => cases h; rfl
    | some operand => exact ofReading_of_fold h
  | cons token tokens ih =>
    rw [run] at h
    cases hstep : state.step table token with
    | ok next => rw [hstep] at h; exact ih h
    | error error' =>
      rw [hstep] at h
      cases h
      exact ofReading_of_step hstep

/-- **Every error of the explicit stack lies in the tokens**, whatever the powers of the table. -/
theorem ofReading_of_parse {tokens : List Token} {error : Error}
    (h : parse table tokens = .error error) : error.kind.ofReading = true :=
  State.ofReading_of_run tokens h

end Frames

end Reckoner
