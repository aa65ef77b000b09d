import Reckoner.Text.Bytes
import Reckoner.Text.Cluster

/-!
Lines with backspaces in them.

A backspace in a line of input takes back the cluster before it that has not been
taken back yet, and does nothing where there is none; it is no part of the line
itself. The size of a cluster is remembered in bytes and in one byte, so of a cluster
of 256 bytes and more only what exceeds the last multiple of 256 is taken back.
-/

namespace Reckoner.Text

/-- What is left of a text, the newest character first, without its last bytes; characters are
taken whole. -/
def dropBytes : Nat → List Char → List Char
  | _, [] => []
  | n, c :: cs => if c.utf8Size ≤ n then dropBytes (n - c.utf8Size) cs else c :: cs

structure Draft where
  /-- The line so far, the newest character first. -/
  text : List Char := []
  /-- The remembered sizes of the clusters that can be taken back, the newest first. -/
  sizes : List Nat := []
deriving DecidableEq, Repr

namespace Draft

def type (draft : Draft) (cluster : List Char) : Draft :=
  ⟨cluster.reverse ++ draft.text, byteSize cluster % 256 :: draft.sizes⟩

def takeBack (draft : Draft) : Draft :=
  match draft.sizes with
  | [] => draft
  | size :: sizes => ⟨dropBytes size draft.text, sizes⟩

/-- Adds a cluster, or takes the last one back for a backspace. -/
def key (draft : Draft) (cluster : List Char) : Draft :=
  if cluster = ['\x08'] then draft.takeBack else draft.type cluster

end Draft

/-- A line of input as its backspaces leave it. -/
def applyBackspaces (line : String) : String :=
  String.ofList ((clusters line.toList).foldl Draft.key {}).text.reverse

end Reckoner.Text
