import Reckoner.Engine.Climbing
import Reckoner.Engine.Frames
import Reckoner.Engine.ShuntingYard
import Reckoner.Log
import Reckoner.Text.Quoted
import Reckoner.Token.Scan

/-!
The engines, and the way from a source text to a tree.

Three engines read the same language: by recursion, on an explicit stack of
frames, and by a shunting yard. A source text is cut into tokens first, so a piece
that is no token is reported before any engine sees the text.
-/

namespace Reckoner

inductive Engine where
  | climbing
  | frames
  | shuntingYard
deriving DecidableEq, Repr

namespace Engine

/-! ### Names -/

/-- Every engine, in the order in which results are shown. -/
def all : List Engine :=
  [climbing, frames, shuntingYard]

def name : Engine → String
  | climbing => "Recursive Pratt parsing"
  | frames => "Explicit-stack Pratt parsing"
  | shuntingYard => "Shunting yard"

/-- The word that selects an engine. -/
def keyword : Engine → String
  | climbing => "recursive"
  | frames => "iterative"
  | shuntingYard => "shunting-yard"

def ofKeyword? (word : String) : Option Engine :=
  all.find? (·.keyword = word)

/-! ### Parsing -/

def parse : Engine → Table → List Token → Except Error Expr
  | climbing => Climbing.parse
  | frames => Frames.parse
  | shuntingYard => ShuntingYard.parse

variable [WordClass]

/-- The tree of a source text, with the standard operators. -/
def parseSource (engine : Engine) (source : String) : Except Error Expr := do
  let tokens ← Token.tokenize source
  engine.parse Table.standard tokens

/-! ### Log -/

def moves : Engine → Table → List Token → List String
  | climbing, table, tokens =>
    (Climbing.expression table .group tokens).thresholds.map fun threshold =>
      "parse_expr: min binding power " ++ Text.showInt threshold
  | frames, table, tokens => (Frames.events table tokens).map (·.describe)
  | shuntingYard, table, tokens => (ShuntingYard.events table tokens).map (·.describe)

def verdict (engine : Engine) : Except Error Expr → String
  | .ok expr => engine.name ++ " produced a " ++ expr.shape.name ++ " expression"
  | .error error => engine.name ++ " failed: " ++ error.message

def logTokens (engine : Engine) (tokens : List Token) : List Record :=
  ⟨.debug, "parsing " ++ Text.showNat tokens.length ++ " tokens with " ++ engine.name⟩ ::
    (engine.moves Table.standard tokens).map (⟨.trace, ·⟩) ++
    [⟨.debug, engine.verdict (engine.parse Table.standard tokens)⟩]

/-- The log of reading a source text; a text with an unrecognised piece leaves no trace. -/
def logSource (engine : Engine) (source : String) : List Record :=
  match Token.tokenize source with
  | .error _ => []
  | .ok tokens =>
    ⟨.debug, "tokenized " ++ Text.showNat tokens.length ++ " tokens from " ++ Text.quoted source⟩ ::
      tokens.map (⟨.trace, ·.summary⟩) ++ engine.logTokens tokens

end Engine

end Reckoner
