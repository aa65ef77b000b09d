/-!
Lines of a source text.

A line ends with its newline, which belongs to it; the last line may have none.
`lineAt` finds the line of a character offset. An offset at or past the end of the
text is taken as the end of the last line, which is then given without its newline.
-/

namespace Reckoner

/-- A line and a place in it. -/
structure Line where
  /-- The number of the line, counted from 1. -/
  number : Nat
  text : List Char
  /-- The number of characters before the place. -/
  offset : Nat
deriving DecidableEq, Repr

/-- The lines of a text, each with its newline. -/
def lines (cs : List Char) : List (List Char) :=
  cs.splitBy fun a _ => a != '\n'

def trimNewlines (cs : List Char) : List Char :=
  (cs.reverse.dropWhile (· == '\n')).reverse

/-- Goes through lines, the first of which has the given number and starts at the offset `start`.
After the last of them, the number is one too high. -/
def lineAmong (last : List Char) (offset start number : Nat) : List (List Char) → Line
  | [] =>
    let content := trimNewlines last
    ⟨max (number - 1) 1, content, content.length⟩
  | line :: rest =>
    let stop := start + line.length
    if start ≤ offset ∧ offset < stop then ⟨number, line, offset - start⟩
    else lineAmong last offset stop (number + 1) rest

/-- The line of a source text at a character offset. -/
def lineAt (source : String) (offset : Nat) : Line :=
  let lines := lines source.toList
  lineAmong (lines.getLast?.getD []) offset 0 1 lines

end Reckoner
