import Reckoner.Cli

/-!
The calculator as a program.

This is the only module that reads and writes: it carries out the plan of the
arguments and answers each line of an interactive session as it comes.
-/

namespace Reckoner.Main

open Reckoner.Cli

def write (output : Output) : IO Unit := do
  IO.print output.out
  (← IO.getStdout).flush
  IO.eprint output.err

/-- Answers lines of input until it ends. -/
partial def session (engines : List Engine) (input : IO.FS.Stream) : IO Unit := do
  let line ← input.getLine
  if line.isEmpty then
    write farewell
  else
    write (respond engines (entered line.toList))
    session engines input

end Reckoner.Main

def main (args : List String) : IO UInt32 := do
  match Reckoner.Cli.Plan.ofArgs args with
  | .interact engines =>
    Reckoner.Main.session engines (← IO.getStdin)
    return 0
  | _ =>
    let output := Reckoner.Cli.run args ""
    Reckoner.Main.write output
    return output.code.toUInt32
