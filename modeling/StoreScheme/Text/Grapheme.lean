import StoreScheme.Text.GraphemeData

/-!
# Grapheme clusters

A grapheme cluster is what a reader takes for one character: a letter with its accents, a Hangul
syllable, a flag, a joined pictograph, a conjunct of consonants.  Whether a cluster goes on is
decided for each character by its kind and by the characters before it.

* `Grapheme.Kind`: how a character joins its neighbours
* `Grapheme.joins`: whether a character goes on with the cluster before it
* `Grapheme.clusters`: the clusters of a text
-/

namespace StoreScheme.Grapheme

/-- How a character joins its neighbours. -/
inductive Kind
  | carriageReturn
  | lineFeed
  | control
  | extender
  | joiner
  | spacingMark
  | prepended
  | regional
  | leading
  | vowel
  | trailing
  | openSyllable
  | closedSyllable
  | pictograph
  | consonant
  | other
deriving Repr, DecidableEq

/-! ## Kinds of characters -/

def within (ranges : List (Nat × Nat)) (c : Char) : Bool :=
  ranges.any fun (first, last) => first ≤ c.toNat && c.toNat ≤ last

/-- The kind of a part of a syllable; a whole syllable is open if it has no trailing part. -/
def syllableKind (c : Char) : Kind :=
  if within [(0x1100, 0x115f), (0xa960, 0xa97c)] c then .leading
  else if within [(0x1160, 0x11a7), (0xd7b0, 0xd7c6), (0x16d63, 0x16d63), (0x16d67, 0x16d6a)] c then
    .vowel
  else if within [(0x11a8, 0x11ff), (0xd7cb, 0xd7fb)] c then .trailing
  else if within [(0xac00, 0xd7a3)] c then
    if (c.toNat - 0xac00) % 28 = 0 then .openSyllable else .closedSyllable
  else .other

def kind (c : Char) : Kind :=
  if c = '\r' then .carriageReturn
  else if c = '\n' then .lineFeed
  else if c = '\u200d' then .joiner
  else if within controls c then .control
  else if within extenders c then .extender
  else if within spacingMarks c then .spacingMark
  else if within prepended c then .prepended
  else if within [(0x1f1e6, 0x1f1ff)] c then .regional
  else if within pictographs c then .pictograph
  else if within consonants c then .consonant
  else syllableKind c

/-- Whether a conjunct can reach over a character. -/
def inConjunct (c : Char) : Bool :=
  kind c = .joiner || kind c = .extender && c ≠ '\u200c'

/-! ## Clusters

The characters before a place are listed from the nearest one back. -/

/-- Whether the characters before a place start a conjunct: a consonant and then a linker, with
nothing else that ends it. -/
def startConjunct (linked : Bool) : List Char → Bool
  | [] => false
  | c :: before =>
    if within linkers c then startConjunct true before
    else if inConjunct c then startConjunct linked before
    else linked && kind c = .consonant

/-- Whether the characters before a place are a pictograph and what extends it. -/
def endPictograph (before : List Char) : Bool :=
  match before.dropWhile (kind · = .extender) with
  | [] => false
  | c :: _ => kind c = .pictograph

/-- Whether an odd number of regional indicators comes before a place: two of them are a flag. -/
def halfFlag (before : List Char) : Bool :=
  (before.takeWhile (kind · = .regional)).length % 2 = 1

/-- Whether a character belongs to the cluster of the one before it. -/
def joins (c : Char) : List Char → Bool
  | [] => false
  | b :: before =>
    match kind b, kind c with
    | .carriageReturn, .lineFeed => true
    | .carriageReturn, _ | .lineFeed, _ | .control, _ => false
    | _, .carriageReturn | _, .lineFeed | _, .control => false
    | _, .extender | _, .joiner | _, .spacingMark => true
    | .prepended, _ => true
    | .leading, .leading | .leading, .vowel => true
    | .leading, .openSyllable | .leading, .closedSyllable => true
    | .openSyllable, .vowel | .openSyllable, .trailing => true
    | .vowel, .vowel | .vowel, .trailing => true
    | .closedSyllable, .trailing | .trailing, .trailing => true
    | _, .consonant => startConjunct false (b :: before)
    | .joiner, .pictograph => endPictograph before
    | .regional, .regional => halfFlag (b :: before)
    | _, _ => false

/-- Cuts the rest of a text, given the characters before it and those of the cluster they end in,
both from the nearest one back. -/
def clustersFrom (before cluster : List Char) : List Char → List (List Char)
  | [] => [cluster.reverse]
  | c :: cs =>
    if joins c before then clustersFrom (c :: before) (c :: cluster) cs
    else cluster.reverse :: clustersFrom (c :: before) [c] cs

/-- The clusters of a text. -/
def clusters : List Char → List (List Char)
  | [] => []
  | c :: cs => clustersFrom [c] [c] cs

end StoreScheme.Grapheme
