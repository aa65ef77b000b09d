import Reckoner.Error
import Reckoner.Line
import Reckoner.Text.Blank

/-!
Reports of errors.

A report has four rows: the name of the error and its tip, an empty margin, the
line of the source that the error points at, and a caret under the place. An error
that points nowhere is shown at the end of the source. Spaces in front of the line
are left out, and the caret moves with it.
-/

namespace Reckoner.Report

/-- The first row: the name of the error, with its tip in parentheses. -/
def heading (kind : Error.Kind) : String :=
  match kind.tip with
  | some tip => "Error: " ++ kind.name ++ " (" ++ tip ++ ")"
  | none => "Error: " ++ kind.name

/-- The margin of a row without a line number, as wide as the number would be. -/
def margin (number : String) : String :=
  String.ofList (List.replicate (number.length + 1) ' ') ++ "|"

def lineOf (error : Error) (source : String) : Line :=
  lineAt source (error.position.getD source.length)

def indent (line : Line) : Nat :=
  (line.text.takeWhile (· == ' ')).length

def shown (line : Line) : String :=
  String.ofList (Text.trimEnd (line.text.dropWhile (· == ' ')))

/-- Dashes up to the place in the shown line, and a caret under it. -/
def pointer (line : Line) : String :=
  String.ofList (List.replicate (line.offset - indent line) '-') ++ "^"

def render (error : Error) (source : String) : String :=
  let line := lineOf error source
  let number := Text.showNat line.number
  heading error.kind ++ "\n" ++
    margin number ++ "\n" ++
    number ++ " | " ++ shown line ++ "\n" ++
    margin number ++ " " ++ pointer line ++ "\n"

end Reckoner.Report
