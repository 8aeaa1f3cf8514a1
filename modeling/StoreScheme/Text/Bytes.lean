/-!
# Cutting texts at byte offsets

Offsets count the bytes of the UTF-8 form of a text.  A text can be cut only between characters.

* `Bytes.isBoundary`: whether an offset lies between characters
* `Bytes.slice`: the characters between two offsets
-/

namespace StoreScheme.Bytes

/-- Whether a text can be cut at an offset. -/
def isBoundary : Nat → List Char → Bool
  | 0, _ => true
  | _ + 1, [] => false
  | n + 1, c :: cs => c.utf8Size ≤ n + 1 && isBoundary (n + 1 - c.utf8Size) cs

/-- The characters that start before an offset. -/
def take : Nat → List Char → List Char
  | 0, _ => []
  | _ + 1, [] => []
  | n + 1, c :: cs => c :: take (n + 1 - c.utf8Size) cs

/-- The characters that start at an offset or after it. -/
def drop : Nat → List Char → List Char
  | 0, cs => cs
  | _ + 1, [] => []
  | n + 1, c :: cs => drop (n + 1 - c.utf8Size) cs

/-- The text between two offsets. -/
def slice (start stop : Nat) (cs : List Char) : String :=
  String.ofList (take (stop - start) (drop start cs))

end StoreScheme.Bytes
