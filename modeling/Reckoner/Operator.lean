import Reckoner.Arithmetic

/-!
Operators and their binding powers.

An entry gives an operator its symbol, the power with which it holds the operand
on its left, the threshold it sets for the operand on its right, and its meaning.
A symbol may be registered once between two operands and once in front of one;
the two forms are separate entries. `Table.standard` is the table of the
calculator: its left-associative operators set a threshold one above their own
power, its right-associative ones a threshold below it.
-/

namespace Reckoner

/-! ### Powers -/

/-- How tightly an operator holds an operand; higher powers hold tighter. -/
abbrev Power := Int

namespace Power

def lowest : Power := 1

def highest : Power := 14

/-- The threshold inside parentheses, below every standard operator. -/
def group : Power := lowest - 1

/-- The threshold of the bottom frame of a parse, below that of every group. -/
def base : Power := lowest - 2

/-- The power of a literal operand, above every standard operator. -/
def primary : Power := highest + 1

end Power

/-! ### Entries -/

/-- The places an operator can stand in. -/
inductive Arity where
  /-- Between two operands. -/
  | binary
  /-- In front of one operand. -/
  | unary
deriving DecidableEq, Repr

abbrev Arity.Meaning : Arity → Type
  | binary => Int64 → Int64 → Arithmetic.Outcome
  | unary => Int64 → Arithmetic.Outcome

structure Entry (Meaning : Type) where
  symbol : String
  /-- The power towards the operand on the left. -/
  left : Power
  /-- The threshold while the operand on the right is read. -/
  right : Power
  apply : Meaning

abbrev BinaryEntry := Entry (Int64 → Int64 → Arithmetic.Outcome)

abbrev UnaryEntry := Entry (Int64 → Arithmetic.Outcome)

/-! ### Tables -/

/-- The registered operators, at most one for each symbol and arity. -/
structure Table where
  binary : List BinaryEntry := []
  unary : List UnaryEntry := []

namespace Table

def empty : Table := {}

/-- Registers an operator between operands, in place of the one with its symbol. -/
def addBinary (table : Table) (entry : BinaryEntry) : Table :=
  { table with binary := entry :: table.binary.filter (·.symbol != entry.symbol) }

def addUnary (table : Table) (entry : UnaryEntry) : Table :=
  { table with unary := entry :: table.unary.filter (·.symbol != entry.symbol) }

def entries (table : Table) : (arity : Arity) → List (Entry arity.Meaning)
  | .binary => table.binary
  | .unary => table.unary

/-- The operator that a symbol stands for at a place. -/
def lookup (table : Table) (symbol : String) (arity : Arity) : Option (Entry arity.Meaning) :=
  (table.entries arity).find? (·.symbol == symbol)

def binary? (table : Table) (symbol : String) : Option BinaryEntry :=
  table.lookup symbol .binary

def unary? (table : Table) (symbol : String) : Option UnaryEntry :=
  table.lookup symbol .unary

/-! ### Symbols -/

/-- The order of alternatives: longer symbols first, counted in bytes, then by code point. -/
def comesBefore (a b : String) : Bool :=
  b.utf8ByteSize < a.utf8ByteSize || (a.utf8ByteSize == b.utf8ByteSize && a < b)

/-- Adds a symbol to an ordered list that has each symbol once. -/
def insertSymbol (symbol : String) : List String → List String
  | [] => [symbol]
  | first :: rest =>
    if comesBefore symbol first then symbol :: first :: rest
    else if symbol = first then first :: rest
    else first :: insertSymbol symbol rest

/-- Every registered symbol once, longest first, so that the first symbol a text starts with is the
longest one. -/
def symbols (table : Table) : List String :=
  (table.binary.map (·.symbol) ++ table.unary.map (·.symbol)).foldr insertSymbol []

/-! ### The standard table -/

def addStandard (table : Table) : Table :=
  let binary : List BinaryEntry :=
    [⟨"|", 1, 2, Arithmetic.bitOr⟩, ⟨"^", 3, 4, Arithmetic.bitXor⟩, ⟨"&", 5, 6, Arithmetic.bitAnd⟩,
      ⟨">>", 7, 8, Arithmetic.shiftRight⟩, ⟨"<<", 7, 8, Arithmetic.shiftLeft⟩,
      ⟨"+", 9, 10, Arithmetic.add⟩, ⟨"-", 9, 10, Arithmetic.subtract⟩,
      ⟨"*", 11, 12, Arithmetic.multiply⟩, ⟨"/", 11, 12, Arithmetic.floorDivide⟩,
      ⟨"%", 11, 12, Arithmetic.floorModulo⟩, ⟨"**", 14, 13, Arithmetic.power⟩]
  let unary : List UnaryEntry :=
    [⟨"+", 14, 13, Arithmetic.identity⟩, ⟨"-", 14, 13, Arithmetic.negate⟩,
      ⟨"~", 14, 13, Arithmetic.invert⟩]
  unary.foldl addUnary (binary.foldl addBinary table)

def standard : Table :=
  empty.addStandard

end Table

end Reckoner
