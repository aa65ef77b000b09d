import Reckoner.Cli.Command
import Reckoner.Text.Backspace
import Reckoner.Token.UnicodeWords

/-!
The calculator on its whole input.

Here the command line meets what it does not depend on: which characters are word
characters, and how a line editor enters lines from an input that is no terminal.
The editor takes off the line ending, which is a newline or a carriage return and a
newline, and applies backspaces.
-/

namespace Reckoner.Cli

def chomp (line : List Char) : List Char :=
  match line.reverse with
  | '\n' :: '\r' :: rest => rest.reverse
  | '\n' :: rest => rest.reverse
  | _ => line

/-- A line of input as the editor enters it. -/
def entered (line : List Char) : String :=
  Text.applyBackspaces (String.ofList (chomp line))

/-- What the program writes for its arguments and its whole input. -/
def run (args : List String) (input : String) : Output :=
  runOn args ((lines input.toList).map entered)

end Reckoner.Cli
