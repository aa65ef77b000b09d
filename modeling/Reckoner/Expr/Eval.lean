import Reckoner.Expr
import Reckoner.Operator

/-!
Evaluating an expression with the operators of a table.

Operands are evaluated first, the left one before the right one, then the operator
is looked up and applied; the first error met in this order is the result. No error
of evaluation points at the source.
-/

namespace Reckoner.Expr

def ofOutcome (outcome : Arithmetic.Outcome) : Except Error Int64 :=
  match outcome.result with
  | .ok value => .ok value
  | .error kind => .error (.unpositioned kind)

def valuation (table : Table) : Interpretation (Except Error Int64) where
  other shape := .error (.unpositioned (.unsupportedNode shape.name))
  literal value := .ok value
  unary operator operand := do
    let a ← operand
    match table.unary? operator with
    | some entry => ofOutcome (entry.apply a)
    | none => .error (.unpositioned (.unknownOperator operator))
  binary operator left right := do
    let a ← left
    let b ← right
    match table.binary? operator with
    | some entry => ofOutcome (entry.apply a b)
    | none => .error (.unpositioned (.unknownOperator operator))

def evalWith (table : Table) (expr : Expr) : Except Error Int64 :=
  expr.interpret (valuation table)

def eval (expr : Expr) : Except Error Int64 :=
  expr.evalWith Table.standard

end Reckoner.Expr
