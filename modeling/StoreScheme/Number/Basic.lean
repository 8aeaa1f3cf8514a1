import StoreScheme.Number.Decimal

/-!
# Numbers

A number is an exact 64-bit integer or an inexact real.  Comparisons between the two kinds compare
reals; comparisons between integers are exact.

* `Number.numEq`, `Number.numLt`: numeric comparison across exactness
* `Number.same`: equality that respects exactness
* `Number.display`, `Number.listing`: the written forms
-/

namespace StoreScheme

inductive Number
  | integer (n : Int64)
  | real (x : Binary64)
deriving Repr, DecidableEq

namespace Number

/-- The exact number `n`, if it fits into 64 bits. -/
def ofInt? (n : Int) : Option Number :=
  if Int64.minValue.toInt ≤ n ∧ n ≤ Int64.maxValue.toInt then some (.integer (Int64.ofInt n))
  else none

def toReal : Number → Binary64
  | .integer n => .ofInt n.toInt
  | .real x => x

def isZero : Number → Bool
  | .integer n => n == 0
  | .real x => x.isZero

/-- Equality of values, whatever their exactness. -/
def numEq : Number → Number → Bool
  | .integer a, .integer b => a == b
  | a, b => a.toReal.eq b.toReal

def numLt : Number → Number → Bool
  | .integer a, .integer b => a < b
  | a, b => a.toReal.lt b.toReal

/-- Equality of numbers of the same exactness. -/
def same : Number → Number → Bool
  | .integer a, .integer b => a == b
  | .real a, .real b => a.eq b
  | _, _ => false

/-! ## Written forms -/

def signText (negative : Bool) : String := if negative then "-" else ""

def realDisplay : Binary64 → String
  | .nan => "+nan.0"
  | .infinity negative => (if negative then "-" else "+") ++ "inf.0"
  | .finite negative position =>
    signText negative ++ (Decimal.shortest position).positional

/-- The text of a number in the language itself: reals have a point and never an exponent. -/
def display : Number → String
  | .integer n => toString n.toInt
  | .real x => realDisplay x

/-- In token listings, an exponent is used from `10 ^ 16` on and below `10 ^ (-4)`. -/
def usesExponent (position : Nat) : Bool :=
  position != 0 && (17 ≤ Decimal.scale position || Decimal.scale position ≤ -4)

def realListing : Binary64 → String
  | .nan => "NaN"
  | .infinity negative => signText negative ++ "inf"
  | .finite negative position =>
    let decimal := Decimal.shortest position
    signText negative ++
      if usesExponent position then decimal.scientific else decimal.positional

/-- The text of a number in a token listing. -/
def listing : Number → String
  | .integer n => s!"Integer({n.toInt})"
  | .real x => s!"Real({realListing x})"

end Number

end StoreScheme
