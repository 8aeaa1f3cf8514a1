import StoreScheme.Number.Arithmetic
import StoreScheme.Value.Display

/-!
# Applying primitives

Primitives work on values that are already evaluated; `and` and `or` are no exception.

* `PrimitiveError`: what can go wrong
* `Primitive.apply`: the result of a primitive
-/

namespace StoreScheme

inductive PrimitiveError
  | wrongArity (op : Primitive) (given : Nat)
  | wrongType (op : Primitive) (expected : String) (found : Value)
  | arithmetic (e : ArithmeticError)

def PrimitiveError.message : PrimitiveError → String
  | .wrongArity op given =>
    s!"{op.name}: expected {op.arity.display} argument(s), got {given}"
  | .wrongType op expected found => s!"{op.name}: expected a {expected}, got {found.display}"
  | .arithmetic e => e.message

namespace Primitive

/-- An operation on two numbers. -/
abbrev Operation := Number → Number → Except ArithmeticError Number

/-- An argument that has to be a number. -/
def number (op : Primitive) (v : Value) : Except PrimitiveError Number :=
  match v.number? with
  | some n => .ok n
  | none => .error (.wrongType op "number" v)

def numbers (op : Primitive) : List Value → Except PrimitiveError (List Number)
  | [] => .ok []
  | v :: vs => do
    let n ← op.number v
    let ns ← op.numbers vs
    return n :: ns

def strings (op : Primitive) : List Value → Except PrimitiveError (List String)
  | [] => .ok []
  | v :: vs => do
    let s ← match v.string? with
      | some s => .ok s
      | none => .error (.wrongType op "string" v)
    let rest ← op.strings vs
    return s :: rest

def pair (op : Primitive) (v : Value) : Except PrimitiveError (Value × Value) :=
  match v.pair? with
  | some p => .ok p
  | none => .error (.wrongType op "pair" v)

def operate (f : Operation) (a b : Number) : Except PrimitiveError Number :=
  match f a b with
  | .ok n => .ok n
  | .error e => .error (.arithmetic e)

/-- Combines the arguments with a number from left to right. -/
def fold (op : Primitive) (f : Operation) : Number → List Value → Except PrimitiveError Number
  | acc, [] => .ok acc
  | acc, v :: vs => do
    let n ← op.number v
    let acc ← operate f acc n
    op.fold f acc vs

/-- Combines a single argument with the unit, and several from the first one on. -/
def reduce (op : Primitive) (f : Operation) (unit : Number) :
    List Value → Except PrimitiveError Number
  | [] => .ok unit
  | [v] => op.fold f unit [v]
  | v :: vs => do
    let n ← op.number v
    op.fold f n vs

/-- Whether a relation holds between all neighbours. -/
def holdsAlong {α : Type} (r : α → α → Bool) : List α → Bool
  | a :: b :: rest => r a b && holdsAlong r (b :: rest)
  | _ => true

def compare (op : Primitive) (r : Number → Number → Bool) (args : List Value) :
    Except PrimitiveError Value := do
  let ns ← op.numbers args
  return .boolean (holdsAlong r ns)

/-- The first false argument, or else the last one. -/
def conjunction : List Value → Value
  | [] => .boolean true
  | [v] => v
  | v :: vs => if v.isTrue then conjunction vs else v

/-- The first true argument, or else false. -/
def disjunction : List Value → Value
  | [] => .boolean false
  | v :: vs => if v.isTrue then v else disjunction vs

/-- The primitives that make no new pairs, on as many arguments as they accept. -/
def compute (op : Primitive) (args : List Value) : Except PrimitiveError Value :=
  let test (b : Bool) : Except PrimitiveError Value := .ok (.boolean b)
  match op, args with
  | .add, args => (op.fold Number.add (.integer 0) args).map .number
  | .mul, args => (op.fold Number.mul (.integer 1) args).map .number
  | .sub, args => (op.reduce Number.sub (.integer 0) args).map .number
  | .div, args => (op.reduce Number.div (.integer 1) args).map .number
  | .less, args => op.compare Number.numLt args
  | .greater, args => op.compare (fun a b => b.numLt a) args
  | .numEq, args => op.compare Number.numEq args
  | .and, args => .ok (conjunction args)
  | .or, args => .ok (disjunction args)
  | .stringEq, args => (op.strings args).map fun ss => .boolean (holdsAlong (· == ·) ss)
  | .eq, [a, b] => test (a.eqv b)
  | .equal, [a, b] => test (a.equal b)
  | .not, [v] => test !v.isTrue
  | .car, [v] => (op.pair v).map Prod.fst
  | .cdr, [v] => (op.pair v).map Prod.snd
  | .isPair, [v] => test v.isPair
  | .isList, [v] => test v.isList
  | .isNull, [v] => test v.isNull
  | .isNumber, [v] => test v.isNumber
  | .isBoolean, [v] => test v.isBoolean
  | .isSymbol, [v] => test v.isSymbol
  | .isString, [v] => test v.isString
  | .isProcedure, [v] => test v.isProcedure
  | op, args => .error (.wrongArity op args.length)

/-- The result of a primitive.  New pairs take their identities from `fresh` on, and the next free
one is part of the result. -/
def apply (op : Primitive) (args : List Value) (fresh : Identity) :
    Except PrimitiveError (Value × Identity) :=
  if op.arity.accepts args.length then
    match op, args with
    | .cons, [a, b] => .ok (.pair fresh a b, fresh + 1)
    | .list, args => .ok (Value.list fresh args)
    | op, args => (op.compute args).map fun v => (v, fresh)
  else .error (.wrongArity op args.length)

end Primitive

end StoreScheme
