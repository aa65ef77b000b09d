import Reckoner.Expr.Eval
import Reckoner.Proofs.Arithmetic.Powers
import Reckoner.Proofs.Arithmetic.Quotients
import Reckoner.Proofs.Arithmetic.Shifts
import Reckoner.Proofs.Table

/-!
Evaluating is exact.

`Expr.exact` is the value of a tree by whole-number arithmetic, where only the
result of an operator is held against the range. It names the operators one by one
and does not look at a table.

* `standard_binary_gives`, `standard_unary_gives` — every operator of the
  calculator gives its exact value.
* `agrees_exact` — so does evaluation, by induction on the tree, errors included.
* `sound_steps` — no step left to the machine on the way goes wrong.
-/

namespace Reckoner

open Arithmetic

/-! ### Whole-number arithmetic -/

namespace Arithmetic

def exactBinary (operator : String) (a b : Int) : Except Error.Kind Int :=
  match operator with
  | "|" => bounded operator (Int.lor a b)
  | "^" => bounded operator (Int.xor a b)
  | "&" => bounded operator (Int.land a b)
  | ">>" => if b < 0 then .error .negativeShiftCount else bounded operator (a.fdiv (2 ^ b.toNat))
  | "<<" => if b < 0 then .error .negativeShiftCount else bounded operator (a * 2 ^ b.toNat)
  | "+" => bounded operator (a + b)
  | "-" => bounded operator (a - b)
  | "*" => bounded operator (a * b)
  | "/" => if b = 0 then .error .divisionByZero else bounded operator (a.fdiv b)
  | "%" => if b = 0 then .error .divisionByZero else bounded operator (a - b * a.fdiv b)
  | "**" => if b < 0 then .error .negativeExponent else bounded operator (a ^ b.toNat)
  | _ => .error (.unknownOperator operator)

def exactUnary (operator : String) (a : Int) : Except Error.Kind Int :=
  match operator with
  | "+" => bounded operator a
  | "-" => bounded operator (-a)
  | "~" => bounded operator (-a - 1)
  | _ => .error (.unknownOperator operator)

end Arithmetic

namespace Expr

def exact : Expr → Except Error.Kind Int
  | literal value => .ok value.toInt
  | unary operator operand => do
    let a ← operand.exact
    exactUnary operator a
  | binary operator left right => do
    let a ← left.exact
    let b ← right.exact
    exactBinary operator a b

/-- The steps that evaluating a tree leaves to the machine. -/
def steps : Expr → List Step
  | literal _ => []
  | unary operator operand =>
    operand.steps ++
      match operand.eval, Table.standard.unary? operator with
      | .ok a, some entry => (entry.apply a).steps
      | _, _ => []
  | binary operator left right =>
    left.steps ++
      match left.eval with
      | .error _ => []
      | .ok a =>
        right.steps ++
          match right.eval, Table.standard.binary? operator with
          | .ok b, some entry => (entry.apply a b).steps
          | _, _ => []

end Expr

/-! ### The operators of the calculator -/

namespace Table

theorem standard_binary_gives : ∀ entry ∈ standard.binary, ∀ a b,
    (entry.apply a b).Gives (exactBinary entry.symbol a.toInt b.toInt) := by
  have hentries : standard.binary =
      [⟨"**", 14, 13, power⟩, ⟨"%", 11, 12, floorModulo⟩, ⟨"/", 11, 12, floorDivide⟩,
        ⟨"*", 11, 12, multiply⟩, ⟨"-", 9, 10, subtract⟩, ⟨"+", 9, 10, add⟩,
        ⟨"<<", 7, 8, shiftLeft⟩, ⟨">>", 7, 8, shiftRight⟩, ⟨"&", 5, 6, bitAnd⟩,
        ⟨"^", 3, 4, bitXor⟩, ⟨"|", 1, 2, bitOr⟩] := rfl
  simp only [hentries, List.forall_mem_cons]
  refine ⟨power_gives, floorModulo_gives, floorDivide_gives, ?_, ?_, ?_, shiftLeft_gives,
    shiftRight_gives, ?_, ?_, ?_, by simp⟩
  · intro a b
    exact .orOverflow "*" (a.toInt * b.toInt)
  · intro a b
    exact .orOverflow "-" (a.toInt - b.toInt)
  · intro a b
    exact .orOverflow "+" (a.toInt + b.toInt)
  · intro a b
    exact .ok (toInt_and a b) "&"
  · intro a b
    exact .ok (toInt_xor a b) "^"
  · intro a b
    exact .ok (toInt_or a b) "|"

theorem standard_unary_gives : ∀ entry ∈ standard.unary, ∀ a,
    (entry.apply a).Gives (exactUnary entry.symbol a.toInt) := by
  have hentries : standard.unary =
      [⟨"~", 14, 13, invert⟩, ⟨"-", 14, 13, negate⟩, ⟨"+", 14, 13, identity⟩] := rfl
  simp only [hentries, List.forall_mem_cons]
  refine ⟨?_, ?_, ?_, by simp⟩
  · intro a
    exact .ok (toInt_not a) "~"
  · intro a
    exact .orOverflow "-" (-a.toInt)
  · intro a
    exact .ok rfl "+"

/-- An operator that is not registered has no exact result. -/
theorem exactBinary_of_none {operator : String} (h : standard.binary? operator = none) (a b : Int) :
    exactBinary operator a b = .error (.unknownOperator operator) := by
  unfold exactBinary
  split
  case h_12 => rfl
  all_goals cases h

theorem exactUnary_of_none {operator : String} (h : standard.unary? operator = none) (a : Int) :
    exactUnary operator a = .error (.unknownOperator operator) := by
  unfold exactUnary
  split
  case h_4 => rfl
  all_goals cases h

end Table

/-! ### Trees -/

namespace Expr

/-- The value found is the exact one, or the error found is the exact one and points nowhere. -/
def Agrees (found : Except Error Int64) (exact : Except Error.Kind Int) : Prop :=
  found.map Int64.toInt = exact.mapError Error.unpositioned

/-- Two computations that agree go on to agree. -/
theorem Agrees.bind {found : Except Error Int64} {exact : Except Error.Kind Int}
    {next : Int64 → Except Error Int64} {exactNext : Int → Except Error.Kind Int}
    (h : Agrees found exact) (hnext : ∀ a : Int64, Agrees (next a) (exactNext a.toInt)) :
    Agrees (found.bind next) (exact.bind exactNext) := by
  cases found with
  | error error =>
    cases exact with
    | error kind => simpa [Agrees, Except.map, Except.mapError, Except.bind] using h
    | ok n => simp [Agrees, Except.map, Except.mapError] at h
  | ok a =>
    cases exact with
    | error kind => simp [Agrees, Except.map, Except.mapError] at h
    | ok n =>
      cases h
      exact hnext a

theorem Agrees.ofOutcome {outcome : Outcome} {exact : Except Error.Kind Int}
    (h : outcome.Gives exact) : Agrees (ofOutcome outcome) exact := by
  have hresult := h.result
  unfold Agrees Expr.ofOutcome
  cases houtcome : outcome.result with
  | error kind =>
    rw [houtcome] at hresult
    subst hresult
    rfl
  | ok value =>
    rw [houtcome] at hresult
    subst hresult
    rfl

/-- **Evaluation agrees with whole-number arithmetic.** -/
theorem agrees_exact (expr : Expr) : Agrees expr.eval expr.exact := by
  induction expr with
  | literal value => rfl
  | unary operator operand ih =>
    refine ih.bind fun a => ?_
    cases hentry : Table.standard.unary? operator with
    | none =>
      rw [Table.exactUnary_of_none hentry]
      rfl
    | some entry =>
      obtain ⟨hmem, rfl⟩ := Table.mem_of_unary? hentry
      exact .ofOutcome (Table.standard_unary_gives entry hmem a)
  | binary operator left right ihl ihr =>
    refine ihl.bind fun a => ihr.bind fun b => ?_
    cases hentry : Table.standard.binary? operator with
    | none =>
      rw [Table.exactBinary_of_none hentry]
      rfl
    | some entry =>
      obtain ⟨hmem, rfl⟩ := Table.mem_of_binary? hentry
      exact .ofOutcome (Table.standard_binary_gives entry hmem a b)

theorem sound_steps (expr : Expr) : ∀ step ∈ expr.steps, step.Sound := by
  induction expr with
  | literal value => simp [steps]
  | unary operator operand ih =>
    intro step hmem
    rcases List.mem_append.mp hmem with hmem | hmem
    · exact ih step hmem
    split at hmem
    · next a entry _ hentry =>
      have hgives := Table.standard_unary_gives entry (Table.mem_of_unary? hentry).1 a
      exact hgives.sound step hmem
    · simp at hmem
  | binary operator left right ihl ihr =>
    intro step hmem
    rcases List.mem_append.mp hmem with hmem | hmem
    · exact ihl step hmem
    split at hmem
    · simp at hmem
    · next a _ =>
      rcases List.mem_append.mp hmem with hmem | hmem
      · exact ihr step hmem
      split at hmem
      · next b entry _ hentry =>
        have hgives := Table.standard_binary_gives entry (Table.mem_of_binary? hentry).1 a b
        exact hgives.sound step hmem
      · simp at hmem

/-- **Evaluation is exact.** On every tree, whatever its literals and operators, evaluation gives
the value of whole-number arithmetic or its first error, which points nowhere; and of the steps
that it leaves to the machine none overflows and none shifts by the width or more. -/
theorem eval_eq_exact (expr : Expr) :
    expr.eval.map Int64.toInt = expr.exact.mapError Error.unpositioned ∧
      ∀ step ∈ expr.steps, step.Sound :=
  ⟨agrees_exact expr, sound_steps expr⟩

/-- On the way to `(-7 / 2) << 3` the quotient `-3` is rounded down, which cannot overflow. -/
theorem sound_difference_of_quotient :
    .difference (-3) 1 ∈
        steps (.binary "<<" (.binary "/" (.literal (-7)) (.literal 2)) (.literal 3)) ∧
      (Step.difference (-3) 1).Sound := by
  have hmem : .difference (-3) 1 ∈
      steps (.binary "<<" (.binary "/" (.literal (-7)) (.literal 2)) (.literal 3)) := by
    decide
  exact ⟨hmem, (eval_eq_exact _).2 _ hmem⟩

end Expr

end Reckoner
