/-!
# Binary floating point

Reals are the numbers of the 64-bit binary format.  The magnitude of a finite one is kept as its
position among all finite magnitudes in increasing order, which is also its bit pattern without the
sign bit: comparing magnitudes is comparing positions.  Every finite magnitude is a whole number of
the least positive one, `2 ^ (-1074)`, so arithmetic is exact on natural numbers up to one final
rounding.

* `Binary64.units`: a magnitude as a multiple of the least positive one
* `Binary64.round`: the nearest number to an exact quotient, a tie going to the even position
* `Binary64.add`, `sub`, `mul`, `div`: the exact result, rounded
* `Binary64.ofBits`, `toBits`: the interchange format
-/

namespace StoreScheme

/-- The number of finite magnitudes, `2047 * 2 ^ 52`; as a bit pattern it is infinity. -/
abbrev Binary64.finiteCount : Nat := 0x7ff0000000000000

/-- A 64-bit binary floating-point number; all NaNs are one. -/
inductive Binary64
  | nan
  | infinity (negative : Bool)
  | finite (negative : Bool) (position : Fin Binary64.finiteCount)
deriving Repr, DecidableEq

namespace Binary64

/-- The number of magnitudes that follow each other at the same distance, `2 ^ 52`. -/
abbrev binade : Nat := 0x10000000000000

/-- The sign bit of a bit pattern, `2 ^ 63`. -/
abbrev signBit : Nat := 0x8000000000000000

/-- The magnitude at a position, in multiples of `2 ^ (-1074)`.  Below `2 ^ 53` they follow each
other at distance one, and from there on the distance doubles with every binade. -/
def units (position : Nat) : Nat :=
  if position < 2 * binade then position
  else (binade + position % binade) <<< (position / binade - 1)

/-- The quotient to the nearest whole number, a half going to the even neighbour. -/
def roundQuotient (num den : Nat) : Nat :=
  let quotient := num / den
  let rest := num % den
  if 2 * rest < den then quotient
  else if den < 2 * rest then quotient + 1
  else quotient + quotient % 2

/-- The number nearest to `num / den` multiples of `2 ^ (-1074)`. -/
def round (negative : Bool) (num den : Nat) : Binary64 :=
  let shift := Nat.log2 (num / den) - 52
  let position := shift * binade + roundQuotient num (den <<< shift)
  if h : position < finiteCount then .finite negative ⟨position, h⟩ else .infinity negative

def zero (negative : Bool) : Binary64 := .finite negative ⟨0, by decide⟩

/-- The multiples of `2 ^ (-1074)` in one. -/
def unitsPerOne : Nat := 1 <<< 1074

def ofInt (n : Int) : Binary64 := round (n < 0) (n.natAbs * unitsPerOne) 1

/-! ## Arithmetic -/

def signed (negative : Bool) (magnitude : Nat) : Int :=
  if negative then -(magnitude : Int) else magnitude

def neg : Binary64 → Binary64
  | .nan => .nan
  | .infinity s => .infinity !s
  | .finite s k => .finite (!s) k

/-- A sum that is exactly zero is positive, unless both terms are negative. -/
def add : Binary64 → Binary64 → Binary64
  | .nan, _ => .nan
  | _, .nan => .nan
  | .infinity s, .infinity t => if s = t then .infinity s else .nan
  | .infinity s, .finite _ _ => .infinity s
  | .finite _ _, .infinity t => .infinity t
  | .finite s a, .finite t b =>
    let sum := signed s (units a) + signed t (units b)
    if sum = 0 then zero (s && t) else round (sum < 0) sum.natAbs 1

def sub (x y : Binary64) : Binary64 := add x y.neg

def mul : Binary64 → Binary64 → Binary64
  | .nan, _ => .nan
  | _, .nan => .nan
  | .infinity s, .infinity t => .infinity (s != t)
  | .infinity s, .finite t b => if b.val = 0 then .nan else .infinity (s != t)
  | .finite s a, .infinity t => if a.val = 0 then .nan else .infinity (s != t)
  | .finite s a, .finite t b => round (s != t) (units a * units b) unitsPerOne

def div : Binary64 → Binary64 → Binary64
  | .nan, _ => .nan
  | _, .nan => .nan
  | .infinity _, .infinity _ => .nan
  | .infinity s, .finite t _ => .infinity (s != t)
  | .finite s _, .infinity t => zero (s != t)
  | .finite s a, .finite t b =>
    if b.val = 0 then
      if a.val = 0 then .nan else .infinity (s != t)
    else round (s != t) (units a * unitsPerOne) (units b)

/-! ## Comparison -/

/-- A key that orders all numbers but NaN; both zeros have the same. -/
def orderKey : Binary64 → Option Int
  | .nan => none
  | .infinity s => some (signed s finiteCount)
  | .finite s k => some (signed s k)

/-- Numeric equality: NaN differs from itself, and the zeros are equal. -/
def eq (x y : Binary64) : Bool :=
  match x.orderKey, y.orderKey with
  | some a, some b => a == b
  | _, _ => false

def lt (x y : Binary64) : Bool :=
  match x.orderKey, y.orderKey with
  | some a, some b => a < b
  | _, _ => false

def isZero (x : Binary64) : Bool := x.eq (zero false)

/-! ## Interchange format -/

def ofBits (bits : UInt64) : Binary64 :=
  let negative := signBit ≤ bits.toNat
  let position := bits.toNat % signBit
  if h : position < finiteCount then .finite negative ⟨position, h⟩
  else if position = finiteCount then .infinity negative
  else .nan

def toBits : Binary64 → UInt64
  | .nan => UInt64.ofNat (finiteCount + binade / 2)
  | .infinity s => UInt64.ofNat (s.toNat * signBit + finiteCount)
  | .finite s k => UInt64.ofNat (s.toNat * signBit + k)

end Binary64

end StoreScheme
