import Reckoner.Text.Decimal

/-!
Tokens of an expression.

A token keeps its text and the span of characters it was cut from. Spans count
characters, never bytes, and end before their `stop`. The tokens that are still
to be read are a plain list; `peek?` and `advance?` are the two ways to look at it.
-/

namespace Reckoner

inductive Token.Kind where
  | number
  | operator
  | openParen
  | closeParen
  /-- Text that is no part of an expression. -/
  | invalid
deriving DecidableEq, Repr

def Token.Kind.name : Token.Kind → String
  | number => "Number"
  | operator => "Operator"
  | openParen => "OpenParen"
  | closeParen => "CloseParen"
  | invalid => "Invalid"

/-- The characters from `start` up to, and without, `stop`. -/
structure Span where
  start : Nat
  stop : Nat
deriving DecidableEq, Repr

/-- A piece of a source text with its place there. -/
structure Token where
  kind : Token.Kind
  text : String
  span : Span
deriving DecidableEq, Repr

namespace Token

def start (token : Token) : Nat :=
  token.span.start

def isOneOf (token : Token) (kinds : List Kind) : Bool :=
  kinds.contains token.kind

/-- A token with its kind and place, in one line. -/
def describe (token : Token) : String :=
  token.kind.name ++ " `" ++ token.text ++ "` at " ++ Text.showNat token.start

/-- A token as the log shows it: parentheses without their text. -/
def summary (token : Token) : String :=
  if token.isOneOf [.number, .operator, .invalid] then
    token.kind.name ++ " (" ++ token.text ++ ")"
  else token.kind.name ++ " ()"

/-! ### Tokens still to be read -/

/-- The next token, which stays unread. -/
def peek? (tokens : List Token) : Option Token :=
  tokens.head?

/-- The next token and those after it. -/
def advance? : List Token → Option (Token × List Token)
  | [] => none
  | token :: rest => some (token, rest)

def position? (tokens : List Token) : Option Nat :=
  (peek? tokens).map start

end Token

end Reckoner
