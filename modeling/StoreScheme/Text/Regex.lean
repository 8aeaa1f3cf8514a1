/-!
# Regular expressions

Token rules are regular expressions over characters, kept as data so that the set of rules can be
inspected as well as run.  `Regex.Matches` says which texts an expression matches, and
`Regex.longest?` finds the longest matching prefix by taking derivatives.

* `CharClass`: a union of character ranges, or the complement of one
* `Regex.Matches`: the language of an expression
* `Regex.derive`: what is left to match after one character
* `Regex.longest?`: the length of the longest prefix in the language
-/

namespace StoreScheme

/-- A set of characters: those within one of the ranges, or all others when `complemented`. -/
structure CharClass where
  ranges : List (Char × Char)
  complemented : Bool := false
deriving Repr, DecidableEq, Inhabited

namespace CharClass

/-- The characters listed in a text. -/
def ofString (text : String) : CharClass := ⟨text.toList.map fun c => (c, c), false⟩

/-- One range of characters, ends included. -/
def range (first last : Char) : CharClass := ⟨[(first, last)], false⟩

/-- The characters that a text does not list. -/
def noneOf (text : String) : CharClass := ⟨text.toList.map fun c => (c, c), true⟩

/-- The union of two classes that are not complements. -/
def union (a b : CharClass) : CharClass := ⟨a.ranges ++ b.ranges, false⟩

instance : Append CharClass := ⟨union⟩

def contains (k : CharClass) (c : Char) : Bool :=
  (k.ranges.any fun (first, last) => first ≤ c && c ≤ last) != k.complemented

end CharClass

inductive Regex
  | empty
  | epsilon
  | chars (k : CharClass)
  | seq (r s : Regex)
  | alt (r s : Regex)
  | star (r : Regex)
deriving Repr, DecidableEq, Inhabited

namespace Regex

/-- The language of an expression. -/
inductive Matches : Regex → List Char → Prop
  | epsilon : Matches .epsilon []
  | chars {k : CharClass} {c : Char} : k.contains c = true → Matches (.chars k) [c]
  | seq {r s : Regex} {u v : List Char} : Matches r u → Matches s v → Matches (.seq r s) (u ++ v)
  | altLeft {r s : Regex} {u : List Char} : Matches r u → Matches (.alt r s) u
  | altRight {r s : Regex} {u : List Char} : Matches s u → Matches (.alt r s) u
  | starNil {r : Regex} : Matches (.star r) []
  | starCons {r : Regex} {u v : List Char} :
      Matches r u → Matches (.star r) v → Matches (.star r) (u ++ v)

/-! ## Building expressions -/

/-- Exactly the given text. -/
def text (t : String) : Regex :=
  t.toList.foldr (fun c r => .seq (.chars ⟨[(c, c)], false⟩) r) .epsilon

def optional (r : Regex) : Regex := .alt r .epsilon

def plus (r : Regex) : Regex := .seq r (.star r)

/-- The concatenation of several expressions. -/
def cat (rs : List Regex) : Regex := rs.foldr .seq .epsilon

/-! ## Derivatives -/

/-- Whether the empty text matches. -/
def nullable : Regex → Bool
  | .empty => false
  | .epsilon => true
  | .chars _ => false
  | .seq r s => r.nullable && s.nullable
  | .alt r s => r.nullable || s.nullable
  | .star _ => true

/-- A concatenation without needless parts, so that derivatives stay small. -/
def mkSeq : Regex → Regex → Regex
  | .empty, _ => .empty
  | .epsilon, s => s
  | r, s => .seq r s

/-- An alternative without needless parts. -/
def mkAlt : Regex → Regex → Regex
  | .empty, s => s
  | r, .empty => r
  | r, s => .alt r s

/-- What is left to match after the character `c`. -/
def derive (c : Char) : Regex → Regex
  | .empty => .empty
  | .epsilon => .empty
  | .chars k => if k.contains c then .epsilon else .empty
  | .seq r s =>
    if r.nullable then mkAlt (mkSeq (derive c r) s) (derive c s) else mkSeq (derive c r) s
  | .alt r s => mkAlt (derive c r) (derive c s)
  | .star r => mkSeq (derive c r) (.star r)

def isEmpty : Regex → Bool
  | .empty => true
  | _ => false

/-- The longest match so far is `best`, and `n` characters have been read to get to `r`. -/
def longestFrom : Option Nat → Nat → Regex → List Char → Option Nat
  | best, n, r, [] => if r.nullable then some n else best
  | best, n, r, c :: cs =>
    if r.isEmpty then best
    else longestFrom (if r.nullable then some n else best) (n + 1) (derive c r) cs

/-- The length of the longest prefix that matches. -/
def longest? (r : Regex) (input : List Char) : Option Nat := longestFrom none 0 r input

end Regex

end StoreScheme
