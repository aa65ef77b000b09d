/-!
Texts by their bytes.

A text is kept in UTF-8, where a character takes one to four bytes. Places that
count bytes fall between two characters as long as they are sums of whole
characters; `slice` is what lies between two such places.
-/

namespace Reckoner.Text

def byteSize : List Char → Nat
  | [] => 0
  | c :: cs => c.utf8Size + byteSize cs

/-- The part of a text between two places, both counted in bytes. -/
def slice (s : String) (start stop : Nat) : String :=
  String.Pos.Raw.extract s ⟨start⟩ ⟨stop⟩

end Reckoner.Text
