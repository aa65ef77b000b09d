import Reckoner.Engine
import Reckoner.Expr.Eval
import Reckoner.Expr.Print
import Reckoner.Report

/-!
The command line of the calculator.

The arguments, joined by spaces, are one expression; without any, every line that is
entered is one. Each expression is read and evaluated by every engine, or by the one
that follows `--strategy`. Errors of reading are reported on the error output as
well. `Plan` is what the arguments ask for and `Output` what is written, so that all
of it can be reasoned about; reading lines and writing are left to the main program.
-/

namespace Reckoner.Cli

/-! ### Output -/

/-- What is written to the two outputs, and whether all went well. -/
structure Output where
  out : String := ""
  err : String := ""
  ok : Bool := true
deriving DecidableEq, Repr

namespace Output

def append (first second : Output) : Output :=
  ⟨first.out ++ second.out, first.err ++ second.err, first.ok && second.ok⟩

def concat (outputs : List Output) : Output :=
  outputs.foldl append {}

def code (output : Output) : Nat :=
  if output.ok then 0 else 1

end Output

/-! ### Evaluating -/

variable [WordClass]

def evaluate (source : String) (engine : Engine) : Output :=
  match engine.parseSource source with
  | .error error =>
    { out := engine.name ++ " errored: " ++ error.message ++ "\n"
      err := Report.render error source
      ok := false }
  | .ok expr =>
    let tree := "   s-exp: " ++ expr.sexpr ++ "\n"
    match expr.eval with
    | .ok value =>
      { out := engine.name ++ " evaluated to " ++ Text.showInt value.toInt ++ "\n" ++ tree }
    | .error error =>
      { out := engine.name ++ " errored: " ++ error.message ++ "\n" ++ tree
        ok := false }

def evaluateAll (engines : List Engine) (source : String) : Output :=
  Output.concat (engines.map (evaluate source))

/-! ### Arguments -/

/-- What the arguments ask for. -/
inductive Plan where
  /-- Nothing that can be done; the message says why. -/
  | refuse (message : String)
  /-- One expression. -/
  | evaluate (engines : List Engine) (source : String)
  /-- Every line of the input. -/
  | interact (engines : List Engine)
deriving DecidableEq, Repr

/-- The plan for engines and the arguments that do not select them. -/
def Plan.ofWords (engines : List Engine) (words : List String) : Plan :=
  if words.isEmpty then .interact engines else .evaluate engines (" ".intercalate words)

/-- The plan of the arguments; the first `--strategy` counts, and the word after it is the engine. -/
def Plan.ofArgs (args : List String) : Plan :=
  let before := args.takeWhile (· != "--strategy")
  match args.dropWhile (· != "--strategy") with
  | [] => .ofWords Engine.all args
  | [_] => .refuse "error: --strategy needs one of: recursive, iterative, shunting-yard"
  | _ :: word :: after =>
    match Engine.ofKeyword? word with
    | some engine => .ofWords [engine] (before ++ after)
    | none => .refuse ("error: unknown strategy `" ++ word ++ "`")

/-! ### Runs -/

/-- What is written for a line that was entered; nothing for an empty one. -/
def respond (engines : List Engine) (line : String) : Output :=
  if Text.allBlank line then {} else evaluateAll engines line

def farewell : Output :=
  { out := "\n" }

/-- What the program writes for its arguments and the lines that are entered. An interactive session
always ends well. -/
def runOn (args lines : List String) : Output :=
  match Plan.ofArgs args with
  | .refuse message => { err := message ++ "\n", ok := false }
  | .evaluate engines source => evaluateAll engines source
  | .interact engines =>
    let session := Output.concat (lines.map (respond engines))
    { session.append farewell with ok := true }

end Reckoner.Cli
