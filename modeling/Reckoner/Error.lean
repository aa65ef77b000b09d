import Reckoner.Text.Decimal

/-!
Errors of reading and evaluating an expression.

An error is its cause, `Error.Kind`, and the character offset it points at, if
there is one: faults found while reading point at a token, running out of input
and faults of evaluation point nowhere. The wording of every cause stands here,
once as a name, once as a message and, for most, as a tip for the reader.
-/

namespace Reckoner

inductive Error.Kind where
  /-- Text that is no token of an expression. -/
  | unrecognised (text : String)
  /-- The input stops where an operand was expected. -/
  | endOfInput
  /-- A `)` where an operand was expected. -/
  | strayRightParen
  /-- An operator without a prefix form, where an operand was expected. -/
  | unknownUnary (operator : String)
  /-- A `(` that is never closed. -/
  | unclosedLeftParen
  /-- Something else after an operand inside parentheses. -/
  | expectedOperatorOrRightParen
  /-- Something else after an operand outside parentheses. -/
  | expectedOperator
  /-- Digits whose value is out of range. -/
  | unreadableNumber (text : String)
  | divisionByZero
  | negativeExponent
  | negativeShiftCount
  /-- A result out of range. -/
  | overflow (operator : String)
  /-- An operator that the table does not have in that arity. -/
  | unknownOperator (operator : String)
  /-- A node of a shape that an interpretation does not handle. -/
  | unsupportedNode (shape : String)
  /-- The operand stack does not fit the operators, which only an ill-formed table can cause. -/
  | invalidState (detail : String)
deriving DecidableEq, Repr

namespace Error.Kind

def name : Error.Kind → String
  | unrecognised _ => "UnrecognisedToken"
  | endOfInput => "UnexpectedEndOfInput"
  | strayRightParen => "UnexpectedRightParen"
  | unknownUnary _ => "UnknownUnaryOperator"
  | unclosedLeftParen => "UnclosedLeftParen"
  | expectedOperatorOrRightParen => "ExpectedOperatorOrRightParen"
  | expectedOperator => "ExpectedOperator"
  | unreadableNumber _ => "NumberParseError"
  | divisionByZero => "DivisionByZero"
  | negativeExponent => "NegativeExponent"
  | negativeShiftCount => "NegativeShiftCount"
  | overflow _ => "Overflow"
  | unknownOperator _ => "UnknownOperator"
  | unsupportedNode _ => "UnsupportedNode"
  | invalidState _ => "InvalidParserState"

/-- The message of a cause, without a position. -/
def message : Error.Kind → String
  | unrecognised text => "unrecognized token `" ++ text ++ "`"
  | endOfInput => "unexpected end of input"
  | strayRightParen => "unexpected right parenthesis"
  | unknownUnary operator => "unknown unary operator `" ++ operator ++ "`"
  | unclosedLeftParen => "unclosed left parenthesis"
  | expectedOperatorOrRightParen => "expected operator or right parenthesis"
  | expectedOperator => "expected operator"
  | unreadableNumber text => "error parsing number `" ++ text ++ "`"
  | divisionByZero => "division by zero"
  | negativeExponent => "negative exponent"
  | negativeShiftCount => "negative shift count"
  | overflow operator => "integer overflow in `" ++ operator ++ "`"
  | unknownOperator operator => "unknown operator `" ++ operator ++ "`"
  | unsupportedNode shape => "unsupported " ++ shape ++ " node"
  | invalidState detail => "invalid parser state: " ++ detail

/-- Advice for the reader of a report, where there is any. -/
def tip : Error.Kind → Option String
  | endOfInput => some "The expression ends where a number, `(` or unary operator was expected"
  | strayRightParen => some "Is there an operand missing before `)`?"
  | unknownUnary operator =>
    some ("`" ++ operator ++ "` cannot be used as a prefix operator, only `+`, `-` and `~` can")
  | unclosedLeftParen => some "Did you forget a closing `)`?"
  | expectedOperatorOrRightParen =>
    some "Inside parentheses an operand must be followed by an operator or `)`"
  | expectedOperator => some "Did you miss an operator between operands?"
  | unreadableNumber text =>
    some ("Invalid number: `" ++ text ++ "`, is it above the integer limit?")
  | negativeExponent => some "Only non-negative integer exponents are supported"
  | overflow operator =>
    some ("The result of `" ++ operator ++ "` does not fit in a 64-bit integer")
  | invalidState _ => some "This is a bug in the parser, please report it"
  | unrecognised _ | divisionByZero | negativeShiftCount | unknownOperator _
  | unsupportedNode _ => none

end Error.Kind

/-- A cause and the character offset it points at. -/
structure Error where
  kind : Error.Kind
  position : Option Nat := none
deriving DecidableEq, Repr

namespace Error

def positioned (position : Nat) (kind : Error.Kind) : Error :=
  ⟨kind, some position⟩

def unpositioned (kind : Error.Kind) : Error :=
  ⟨kind, none⟩

/-- The message of an error, with its position when it has one. -/
def message (error : Error) : String :=
  match error.position with
  | some position => error.kind.message ++ " at " ++ Text.showNat position
  | none => error.kind.message

end Error

end Reckoner
