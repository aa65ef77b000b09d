import Reckoner.Text.Decimal

/-!
Expression trees.

A tree is a literal, an operator in front of an operand, or an operator between
two operands; operators are kept by symbol. An `Interpretation` gives every node
a value from the values of its operands. One that handles only some shapes falls
back on `other` for the rest, and sees nothing below such a node.
-/

namespace Reckoner

inductive Expr where
  | literal (value : Int64)
  | unary (operator : String) (operand : Expr)
  | binary (operator : String) (left right : Expr)
deriving DecidableEq, Repr

namespace Expr

/-! ### Shapes -/

inductive Shape where
  | literal
  | unary
  | binary
deriving DecidableEq, Repr

def Shape.name : Shape → String
  | literal => "literal"
  | unary => "unary"
  | binary => "binary"

def shape : Expr → Shape
  | literal _ => .literal
  | unary _ _ => .unary
  | binary _ _ _ => .binary

/-! ### Interpretations -/

/-- A value of type `α` for every node, given the values of its operands. -/
structure Interpretation (α : Type) where
  /-- The value of a node of a shape that is not handled. -/
  other : Shape → α
  literal : Int64 → α := fun _ => other .literal
  unary : String → α → α := fun _ _ => other .unary
  binary : String → α → α → α := fun _ _ _ => other .binary

def interpret {α : Type} (meaning : Interpretation α) : Expr → α
  | literal value => meaning.literal value
  | unary operator operand => meaning.unary operator (operand.interpret meaning)
  | binary operator left right =>
    meaning.binary operator (left.interpret meaning) (right.interpret meaning)

/-! ### Equality -/

def size : Expr → Nat
  | literal _ => 1
  | unary _ operand => operand.size + 1
  | binary _ left right => left.size + right.size + 1

def leftSize : List (Expr × Expr) → Nat
  | [] => 0
  | (a, _) :: rest => a.size + leftSize rest

/-- Whether the trees of every pair are the same, taking pairs from the list and putting the pairs
of their operands back, so that the depth of a tree does not matter. -/
def allSame : List (Expr × Expr) → Bool
  | [] => true
  | (literal a, literal b) :: rest => a = b && allSame rest
  | (unary f a, unary g b) :: rest => f = g && allSame ((a, b) :: rest)
  | (binary f a c, binary g b d) :: rest => f = g && allSame ((c, d) :: (a, b) :: rest)
  | _ :: _ => false
termination_by pairs => leftSize pairs
decreasing_by all_goals simp only [leftSize, size]; omega

/-- Whether two trees are the same at every node. -/
def same (a b : Expr) : Bool :=
  allSame [(a, b)]

end Expr

end Reckoner
