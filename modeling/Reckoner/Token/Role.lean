import Reckoner.Expr
import Reckoner.Operator
import Reckoner.Token

/-!
The role of a token in an expression.

Every engine asks the same two questions. Where an operand is expected, a token is
a literal, opens a group, is an operator in front of an operand, or is a fault
(`Table.atom`). After an operand, a token is an operator between operands or not
(`Table.binaryFor?`). The errors that blame a token are here as well, so all
engines blame in the same words.
-/

namespace Reckoner

/-! ### Errors -/

/-- The input stops where an operand was expected. -/
def Error.endOfInput : Error :=
  .unpositioned .endOfInput

/-- The `(` at the given offset is never closed. -/
def Error.unclosed (start : Nat) : Error :=
  .positioned start .unclosedLeftParen

namespace Token

def notAnOperand (token : Token) : Error :=
  .positioned token.start <|
    if token.kind = .closeParen then .strayRightParen else .unrecognised token.text

def notAnOperator (token : Token) : Error :=
  .positioned token.start .expectedOperator

/-- The error of a token that neither goes on nor closes a group. -/
def notInGroup (token : Token) : Error :=
  .positioned token.start .expectedOperatorOrRightParen

/-! ### Operands -/

def literal (token : Token) : Except Error Expr :=
  match (Text.readInt? token.text).bind Arithmetic.narrow? with
  | some value => .ok (.literal value)
  | none => .error (.positioned token.start (.unreadableNumber token.text))

end Token

/-- What a token is where an operand is expected. -/
inductive Atom where
  /-- A whole operand. -/
  | operand (expr : Expr)
  /-- A `(` at the given offset. -/
  | group (start : Nat)
  /-- An operator whose operand follows. -/
  | operator (entry : UnaryEntry)

namespace Table

/-- The operator that a token stands for in front of an operand. -/
def unaryFor (table : Table) (token : Token) : Except Error UnaryEntry :=
  match table.unary? token.text with
  | some entry => .ok entry
  | none => .error (.positioned token.start (.unknownUnary token.text))

/-- The role of a token where an operand is expected. -/
def atom (table : Table) (token : Token) : Except Error Atom :=
  match token.kind with
  | .number => token.literal.map .operand
  | .openParen => .ok (.group token.start)
  | .operator => (table.unaryFor token).map .operator
  | .closeParen | .invalid => .error token.notAnOperand

/-! ### Operators -/

/-- The operator that a token stands for after an operand. -/
def binaryFor? (table : Table) (token : Token) : Option BinaryEntry :=
  if token.kind = .operator then table.binary? token.text else none

end Table

end Reckoner
