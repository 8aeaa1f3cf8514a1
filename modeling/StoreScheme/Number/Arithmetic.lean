import StoreScheme.Number.Basic

/-!
# Arithmetic

Integers stay exact or overflow; a real operand makes the result real.  A division of integers is
exact when it comes out even and real otherwise.
-/

namespace StoreScheme

inductive ArithmeticError
  | divisionByZero
  | overflow
deriving Repr, DecidableEq

def ArithmeticError.message : ArithmeticError → String
  | .divisionByZero => "division by zero"
  | .overflow => "integer overflow"

namespace Number

/-- An exact result, unless it does not fit. -/
def exact (n : Int) : Except ArithmeticError Number :=
  match ofInt? n with
  | some x => .ok x
  | none => .error .overflow

def add : Number → Number → Except ArithmeticError Number
  | .integer a, .integer b => exact (a.toInt + b.toInt)
  | a, b => .ok (.real (a.toReal.add b.toReal))

def sub : Number → Number → Except ArithmeticError Number
  | .integer a, .integer b => exact (a.toInt - b.toInt)
  | a, b => .ok (.real (a.toReal.sub b.toReal))

def mul : Number → Number → Except ArithmeticError Number
  | .integer a, .integer b => exact (a.toInt * b.toInt)
  | a, b => .ok (.real (a.toReal.mul b.toReal))

def div (a b : Number) : Except ArithmeticError Number :=
  if b.isZero then .error .divisionByZero
  else match a, b with
    | .integer m, .integer n =>
      if m.toInt.tmod n.toInt = 0 then exact (m.toInt.tdiv n.toInt)
      else .ok (.real (a.toReal.div b.toReal))
    | a, b => .ok (.real (a.toReal.div b.toReal))

end Number

end StoreScheme
