import Reckoner.Text.Cluster.Class

/-!
Clusters: what a reader takes for one character.

A letter with its accents, a syllable put together from its parts, a flag and a
picture joined from several are each one cluster of several characters. Whether a
cluster goes on at a character depends on the characters before it; `continues`
states the rules, of which the first that applies decides. A text is cut wherever
no cluster goes on, so nothing of it is lost.
-/

namespace Reckoner.Text.Cluster

/-! ### Rules -/

/-- Whether the characters before, the newest first, end in a consonant and a linker, with nothing
else between them and here than what may stand between consonants. -/
def endsInLinkedConsonant (before : List Char) : Bool :=
  let between (c : Char) := isLinker c || isBetweenConsonants c
  (before.takeWhile between).any isLinker &&
    match before.dropWhile between with
    | c :: _ => classOf c.toNat = .consonant
    | [] => false

/-- Whether the characters before, the newest first, end in a pictograph with its extensions. -/
def endsInPictograph (before : List Char) : Bool :=
  match before.dropWhile fun c => classOf c.toNat = .extend with
  | c :: _ => classOf c.toNat = .pictograph
  | [] => false

/-- Whether the characters before end in an unpaired half of a flag. -/
def endsInHalfFlag (before : List Char) : Bool :=
  (before.takeWhile fun c => classOf c.toNat = .regional).length % 2 = 1

/-- Whether the cluster that ends with the characters before, the newest first, goes on at the next
character. -/
def continues (before : List Char) (next : Char) : Bool :=
  match before with
  | [] => false
  | last :: earlier =>
    match classOf last.toNat, classOf next.toNat with
    | .carriageReturn, .lineFeed => true
    | .control, _ | .carriageReturn, _ | .lineFeed, _ => false
    | _, .control | _, .carriageReturn | _, .lineFeed => false
    | .leading, .leading | .leading, .vowel | .leading, .openSyllable
    | .leading, .closedSyllable => true
    | .openSyllable, .vowel | .openSyllable, .trailing | .vowel, .vowel | .vowel, .trailing => true
    | .closedSyllable, .trailing | .trailing, .trailing => true
    | _, .extend | _, .joiner | _, .spacingMark => true
    | .prepend, _ => true
    | _, .consonant => endsInLinkedConsonant before
    | .joiner, .pictograph => endsInPictograph earlier
    | .regional, .regional => endsInHalfFlag before
    | _, _ => false

/-! ### Cutting -/

/-- Goes through characters; `found` holds the clusters so far, the newest first and each with its
newest character first, and `before` all characters so far. -/
def cutOnto (found : List (List Char)) (before : List Char) : List Char → List (List Char)
  | [] => (found.map List.reverse).reverse
  | c :: cs =>
    match found with
    | cluster :: finished =>
      if continues before c then cutOnto ((c :: cluster) :: finished) (c :: before) cs
      else cutOnto ([c] :: found) (c :: before) cs
    | [] => cutOnto [[c]] (c :: before) cs

end Cluster

def clusters (cs : List Char) : List (List Char) :=
  Cluster.cutOnto [] [] cs

end Reckoner.Text
