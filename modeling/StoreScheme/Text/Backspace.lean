import StoreScheme.Text.Bytes
import StoreScheme.Text.Grapheme

/-!
# Backspaces

A backspace in a line of input takes back the grapheme cluster typed before it.  How much that is
has been noted in one byte, so of a cluster of 256 bytes or more only the remainder is taken back,
which fails if it ends within a character.

* `TypedLine.erase?`: takes back the last cluster
* `applyBackspaces?`: the line that a typed text stands for
-/

namespace StoreScheme

/-- A line as far as it is typed: its characters and the sizes of its clusters in bytes, both from
the last one back. -/
structure TypedLine where
  chars : List Char := []
  sizes : List UInt8 := []
deriving Repr, DecidableEq

namespace TypedLine

def push (line : TypedLine) (cluster : List Char) : TypedLine :=
  ⟨cluster.reverse ++ line.chars,
    UInt8.ofNat (String.ofList cluster).utf8ByteSize :: line.sizes⟩

/-- Takes back the last cluster, if there is one; `none` if a character would be cut. -/
def erase? (line : TypedLine) : Option TypedLine :=
  match line.sizes with
  | [] => some line
  | size :: sizes =>
    if Bytes.isBoundary size.toNat line.chars then
      some ⟨Bytes.drop size.toNat line.chars, sizes⟩
    else none

/-- Deals with one more cluster. -/
def type? (line : TypedLine) (cluster : List Char) : Option TypedLine :=
  if cluster = ['\x08'] then line.erase? else some (line.push cluster)

def text (line : TypedLine) : String := String.ofList line.chars.reverse

end TypedLine

/-- The line that is left of a typed text; `none` if it can not be made out. -/
def applyBackspaces? (text : String) : Option String :=
  ((Grapheme.clusters text.toList).foldlM TypedLine.type? {}).map TypedLine.text

end StoreScheme
