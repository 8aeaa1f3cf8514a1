import StoreScheme.Number.Binary64

/-!
# Decimal text of reals

A decimal is a whole number times a power of ten.  Reading one gives the nearest real; writing a
real gives the decimal with the fewest digits that reads back as it.

* `Decimal.toBinary64`: the nearest real
* `Decimal.shortest`: the fewest digits that read back, the nearest of those, a tie going up
* `Decimal.positional`, `Decimal.scientific`: the two layouts
-/

namespace StoreScheme

/-- The number `digits * 10 ^ exponent`. -/
structure Decimal where
  digits : Nat
  exponent : Int
deriving Repr, DecidableEq, Inhabited

namespace Decimal

def powerOfTen (n : Nat) : Nat := Nat.pow 10 n

/-- The nearest real.  Exponents far outside the format's range are settled without computing the
power of ten: from `8 ^ 400` on everything is infinite, and below `2 ^ (-1080)` everything is
zero. -/
def toBinary64 (negative : Bool) (d : Decimal) : Binary64 :=
  if d.digits = 0 then .zero negative
  else if 400 < d.exponent then .infinity negative
  else if (d.digits.log2 : Int) + 1 + 3 * d.exponent < -1080 then .zero negative
  else if 0 ≤ d.exponent then
    .round negative (d.digits * powerOfTen d.exponent.toNat * Binary64.unitsPerOne) 1
  else .round negative (d.digits * Binary64.unitsPerOne) (powerOfTen (-d.exponent).toNat)

/-! ## Reading -/

def digitValue (c : Char) : Nat := c.toNat - '0'.toNat

/-- The number that a sequence of decimal digits denotes. -/
def ofDigits (cs : List Char) : Nat := cs.foldl (fun n c => 10 * n + digitValue c) 0

/-- A sign, if there is one, and the rest. -/
def takeSign : List Char → Bool × List Char
  | '-' :: cs => (true, cs)
  | '+' :: cs => (false, cs)
  | cs => (false, cs)

/-- An exponent part: nothing, or `e`, a sign and digits. -/
def readExponent? : List Char → Option Int
  | [] => some 0
  | c :: cs =>
    let (negative, digits) := takeSign cs
    if (c = 'e' || c = 'E') && !digits.isEmpty && digits.all Char.isDigit then
      some (Binary64.signed negative (ofDigits digits))
    else none

/-- Digits with an optional point among them, at least one digit, and an optional exponent. -/
def readUnsigned? (cs : List Char) : Option Decimal := do
  let whole := cs.takeWhile Char.isDigit
  let rest := cs.dropWhile Char.isDigit
  let (fraction, rest) := match rest with
    | '.' :: rest => (rest.takeWhile Char.isDigit, rest.dropWhile Char.isDigit)
    | rest => ([], rest)
  if whole.isEmpty && fraction.isEmpty then none
  else
    let exponent ← readExponent? rest
    return ⟨ofDigits (whole ++ fraction), exponent - fraction.length⟩

/-- The real that a decimal text denotes. -/
def read? (cs : List Char) : Option Binary64 :=
  let (negative, rest) := takeSign cs
  (readUnsigned? rest).map (toBinary64 negative)

/-! ## The fewest digits that read back -/

/-- The number of decimal digits of a positive number. -/
def length (n : Nat) : Nat := (Nat.toDigits 10 n).length

/-- The power of ten just above the magnitude at a position: the least `p` with value below
`10 ^ p`. -/
def scale (position : Nat) : Int :=
  (length (Binary64.units position * powerOfTen 400 / Binary64.unitsPerOne) : Int) - 400

/-- The magnitude divided by `10 ^ exponent`, as numerator and denominator. -/
def quotient (position : Nat) (exponent : Int) : Nat × Nat :=
  if 0 ≤ exponent then
    (Binary64.units position, Binary64.unitsPerOne * powerOfTen exponent.toNat)
  else (Binary64.units position * powerOfTen (-exponent).toNat, Binary64.unitsPerOne)

/-- Whether a decimal reads back as the magnitude at a position. -/
def readsBack (position : Nat) (d : Decimal) : Bool :=
  match d.toBinary64 false with
  | .finite _ k => k.val == position
  | _ => false

/-- A decimal without a trailing zero if it is a power of ten, which is the only case where rounding
up can produce one. -/
def carry (count : Nat) (d : Decimal) : Decimal :=
  if d.digits = powerOfTen count then ⟨1, d.exponent + count⟩ else d

/-- Of two neighbours, the one that reads back; if both do, the upper one where it is asked for. -/
def choose? (reads : Decimal → Bool) (below above : Decimal) (up : Bool) : Option Decimal :=
  match reads below, reads above with
  | true, true => if up then some above else some below
  | true, false => some below
  | false, true => some above
  | false, false => none

/-- Of the two neighbours with `count` digits, the nearer one that reads back; a tie goes up. -/
def withDigits? (position : Nat) (count : Nat) : Option Decimal :=
  let exponent := scale position - count
  let fraction := quotient position exponent
  let below := fraction.1 / fraction.2
  choose? (readsBack position) ⟨below, exponent⟩ (carry count ⟨below + 1, exponent⟩)
    (fraction.2 ≤ 2 * (fraction.1 % fraction.2))

/-- The magnitude written out in full. -/
def exact (position : Nat) : Decimal := ⟨Binary64.units position * Nat.pow 5 1074, -1074⟩

/-- The fewest digits that read back; seventeen always suffice. -/
def shortest (position : Nat) : Decimal :=
  if position = 0 then ⟨0, 0⟩
  else ((List.range 17).findSome? fun n => withDigits? position (n + 1)).getD (exact position)

/-! ## Layouts -/

def digitText (n : Nat) : String := String.ofList (Nat.toDigits 10 n)

def zeros (n : Nat) : String := String.ofList (List.replicate n '0')

/-- Without an exponent, and with at least one digit on either side of the point. -/
def positional (d : Decimal) : String :=
  let digits := Nat.toDigits 10 d.digits
  if 0 ≤ d.exponent then digitText d.digits ++ zeros d.exponent.toNat ++ ".0"
  else
    let places := (-d.exponent).toNat
    if places < digits.length then
      let (whole, fraction) := digits.splitAt (digits.length - places)
      String.ofList whole ++ "." ++ String.ofList fraction
    else "0." ++ zeros (places - digits.length) ++ String.ofList digits

/-- One digit before the point, no point if there are no more, and the exponent. -/
def scientific (d : Decimal) : String :=
  let digits := Nat.toDigits 10 d.digits
  let exponent := d.exponent + digits.length - 1
  let fraction := if digits.length ≤ 1 then "" else "." ++ String.ofList digits.tail
  String.ofList (digits.take 1) ++ fraction ++ "e" ++ toString exponent

end Decimal

end StoreScheme
