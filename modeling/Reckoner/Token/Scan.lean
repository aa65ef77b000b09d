import Reckoner.Token
import Reckoner.Text.Bytes
import Reckoner.Token.WordClass

/-!
Cutting a source text into tokens.

At each position the alternatives are tried in a fixed order: an operator symbol,
longest first; digits that no word character follows; a parenthesis; and last an
unrecognised piece, which is a whole word or a single character. Blank characters
start no token and are passed over, so the matches of a text, in bytes, have gaps.

A `Lexer` makes tokens of the matches. It counts in characters, from the end of the
last token it has, and as far as its offsets go. `scan` keeps unrecognised pieces as
tokens, `tokenize` refuses the text at the first of them.
-/

namespace Reckoner.Token

open WordClass (isWord)

variable [WordClass]

/-! ### One token -/

/-- The symbols of the standard operators as characters, in the order in which they are tried. -/
def operatorTexts : List (List Char) :=
  Table.standard.symbols.map String.toList

def operatorLength? (cs : List Char) : Option Nat :=
  (operatorTexts.find? (·.isPrefixOf cs)).map List.length

/-- The length of the number that the characters start with: digits up to a character that is no
word character. -/
def numberLength? (cs : List Char) : Option Nat :=
  let digits := cs.takeWhile Char.isDigit
  let ends := match cs.dropWhile Char.isDigit with
    | [] => true
    | next :: _ => !isWord next
  if !digits.isEmpty && ends then some digits.length else none

/-- The kind and length of the token that starts with the character `c` and goes on in `cs`, or
nothing at a blank. -/
def lexeme? (c : Char) (cs : List Char) : Option (Kind × Nat) :=
  match operatorLength? (c :: cs) with
  | some length => some (.operator, length)
  | none =>
    match numberLength? (c :: cs) with
    | some length => some (.number, length)
    | none =>
      if c = '(' then some (.openParen, 1)
      else if c = ')' then some (.closeParen, 1)
      else if isWord c then some (.invalid, 1 + (cs.takeWhile isWord).length)
      else if Text.isBlank c then none
      else some (.invalid, 1)

/-! ### Matches -/

/-- Where the patterns of tokens match a text, in bytes. -/
structure Match where
  kind : Kind
  start : Nat
  stop : Nat
deriving DecidableEq, Repr

/-- Goes through the characters, the first of which starts at the byte; `found` holds the matches so
far, the last one first. -/
def matchesOnto (found : List Match) (byte : Nat) : List Char → List Match
  | [] => found.reverse
  | c :: cs =>
    match lexeme? c cs with
    | none => matchesOnto found (byte + c.utf8Size) cs
    | some (kind, length) =>
      let stop := byte + Text.byteSize (c :: cs.take (length - 1))
      matchesOnto (⟨kind, byte, stop⟩ :: found) stop (cs.drop (length - 1))
termination_by cs => cs.length

def matchesIn (source : String) : List Match :=
  matchesOnto [] 0 source.toList

/-! ### Offsets in characters -/

/-- A lexer at work on a source text. Its offsets are machine words: they count up to `highest` and
start over after it. -/
structure Lexer where
  source : String
  highest : Nat
  /-- The tokens so far, the last one first. -/
  found : List Token := []
  /-- The end of the last match. -/
  byteOffset : Nat := 0
  /-- Whether a sum of offsets has started over. -/
  overflowed : Bool := false

namespace Lexer

def push (lexer : Lexer) (token : Token) : Lexer :=
  { lexer with found := token :: lexer.found }

def charOffset (lexer : Lexer) : Nat :=
  (lexer.found.head?.map (·.span.stop)).getD 0

/-- What is left of an offset when counting starts over after `highest`. -/
def wrap (highest n : Nat) : Nat :=
  n % (highest + 1)

/-- Makes a token of a match. It starts after the characters that were passed over since the last
token. -/
def takeMatch (lexer : Lexer) (matched : Match) : Lexer :=
  let gap := (Text.slice lexer.source lexer.byteOffset matched.start).length
  let text := Text.slice lexer.source matched.start matched.stop
  let start := wrap lexer.highest (lexer.charOffset + gap)
  let stop := wrap lexer.highest (start + text.length)
  let overflows := lexer.highest < lexer.charOffset + gap || lexer.highest < start + text.length
  { lexer with
    found := ⟨matched.kind, text, ⟨start, stop⟩⟩ :: lexer.found
    byteOffset := matched.stop
    overflowed := lexer.overflowed || overflows }

def scan (lexer : Lexer) : Lexer :=
  (matchesIn lexer.source).foldl takeMatch lexer

def tokens (lexer : Lexer) : List Token :=
  lexer.found.reverse

end Lexer

/-! ### All tokens -/

/-- The lexer that has scanned a source text after tokens that were pushed before. -/
def lex (highest : Nat) (earlier : List Token) (source : String) : Lexer :=
  (earlier.foldl Lexer.push ⟨source, highest, [], 0, false⟩).scan

/-- The tokens of a source text after tokens that are already there: offsets go on from the end of
the last of those. Unless another highest offset is given, they have 64 bits. -/
def scanAfter (earlier : List Token) (source : String) (highest : Nat := 18446744073709551615) :
    List Token :=
  (lex highest earlier source).tokens

/-- The tokens of a source text, unrecognised pieces included. Offsets that count as high as the
text has bytes do not start over. -/
def scan (source : String) : List Token :=
  scanAfter [] source source.utf8ByteSize

/-- The tokens of a source text, or an error at the first unrecognised piece. -/
def tokenize (source : String) : Except Error (List Token) :=
  let tokens := scan source
  match tokens.find? (·.kind = .invalid) with
  | some token => .error (.positioned token.start (.unrecognised token.text))
  | none => .ok tokens

end Reckoner.Token
