/-!
# Primitive procedures

Their names and the numbers of arguments they take.
-/

namespace StoreScheme

/-- How many arguments a procedure takes. -/
inductive Arity
  | exactly (n : Nat)
  | atLeast (n : Nat)
deriving Repr, DecidableEq

namespace Arity

def accepts : Arity → Nat → Bool
  | exactly n, given => n == given
  | atLeast n, given => n ≤ given

def display : Arity → String
  | exactly n => toString n
  | atLeast n => s!"at least {n}"

end Arity

inductive Primitive
  | add
  | sub
  | mul
  | div
  | less
  | greater
  | numEq
  | not
  | and
  | or
  | eq
  | equal
  | stringEq
  | cons
  | car
  | cdr
  | list
  | isPair
  | isList
  | isNull
  | isNumber
  | isBoolean
  | isSymbol
  | isString
  | isProcedure
deriving Repr, DecidableEq

namespace Primitive

def all : List Primitive :=
  [add, sub, mul, div, less, greater, numEq, not, and, or, eq, equal, stringEq, cons, car, cdr,
    list, isPair, isList, isNull, isNumber, isBoolean, isSymbol, isString, isProcedure]

def name : Primitive → String
  | add => "+"
  | sub => "-"
  | mul => "*"
  | div => "/"
  | less => "<"
  | greater => ">"
  | numEq => "="
  | not => "not"
  | and => "and"
  | or => "or"
  | eq => "eq?"
  | equal => "equal?"
  | stringEq => "string=?"
  | cons => "cons"
  | car => "car"
  | cdr => "cdr"
  | list => "list"
  | isPair => "pair?"
  | isList => "list?"
  | isNull => "null?"
  | isNumber => "number?"
  | isBoolean => "boolean?"
  | isSymbol => "symbol?"
  | isString => "string?"
  | isProcedure => "procedure?"

def ofName? (name : String) : Option Primitive := all.find? (·.name == name)

def arity : Primitive → Arity
  | add | mul | and | or | list => .atLeast 0
  | sub | div | less | greater | numEq | stringEq => .atLeast 1
  | eq | equal | cons => .exactly 2
  | not | car | cdr | isPair | isList | isNull | isNumber | isBoolean | isSymbol | isString
  | isProcedure => .exactly 1

end Primitive

end StoreScheme
