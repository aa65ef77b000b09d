import Reckoner.Operator
import Reckoner.Text.Blank

/-!
Word characters, as far as the scanner depends on them.

Which characters make up words is a matter of the alphabet. The scanner works with
any choice that keeps the parts of an expression apart: digits are word characters,
and the characters of operators, parentheses and blanks are none.
-/

namespace Reckoner

class WordClass where
  isWord : Char → Bool
  isWord_digit : ∀ c : Char, c.isDigit = true → isWord c = true
  isWord_operator : ∀ symbol ∈ Table.standard.symbols, ∀ c ∈ symbol.toList, isWord c = false
  isWord_openParen : isWord '(' = false
  isWord_closeParen : isWord ')' = false
  isWord_blank : ∀ c : Char, Text.isBlank c = true → isWord c = false

end Reckoner
