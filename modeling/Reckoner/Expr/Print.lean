import Reckoner.Expr

/-!
Two texts of an expression.

The S-expression puts the operator first: `(** 2 (- 3))`. The canonical text keeps
the operators in their places and puts every node with operands in parentheses,
`(2 ** (-3))`, so it reads back to the same tree whatever the binding powers are.
-/

namespace Reckoner.Expr

/-- A placeholder for a node that a printer does not handle. -/
def Shape.placeholder (shape : Shape) : String :=
  "<" ++ shape.name ++ ">"

def prefixed : Interpretation String where
  other := Shape.placeholder
  literal value := Text.showInt value.toInt
  unary operator operand := "(" ++ operator ++ " " ++ operand ++ ")"
  binary operator left right := "(" ++ operator ++ " " ++ left ++ " " ++ right ++ ")"

def parenthesised : Interpretation String where
  other := Shape.placeholder
  literal value := Text.showInt value.toInt
  unary operator operand := "(" ++ operator ++ operand ++ ")"
  binary operator left right := "(" ++ left ++ " " ++ operator ++ " " ++ right ++ ")"

def sexpr (expr : Expr) : String :=
  expr.interpret prefixed

def canonical (expr : Expr) : String :=
  expr.interpret parenthesised

end Reckoner.Expr
