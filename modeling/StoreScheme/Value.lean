import StoreScheme.Env
import StoreScheme.Expr

/-!
# Values

What expressions evaluate to.  Pairs and closures carry an identity, which `eq?` compares.

* `Value`: the values
* `Value.equal`: structural equality, as `equal?` tests it
* `Value.eqv`: identity, as `eq?` tests it
-/

namespace StoreScheme

inductive Value
  /-- The value of assignments and of an `if` without a branch to take. -/
  | void
  | number (n : Number)
  | boolean (b : Bool)
  | string (s : String)
  | symbol (name : String)
  | null
  | pair (id : Identity) (car cdr : Value)
  | primitive (p : Primitive)
  /-- A procedure with the environment where its `lambda` was evaluated. -/
  | closure (id : Identity) (params : List String) (body : List Expr) (env : Env)

namespace Value

def ofLiteral : Literal → Value
  | .number n => .number n
  | .boolean b => .boolean b
  | .string s => .string s
  | .symbol name => .symbol name
  | .null => .null
  | .pair id car cdr => .pair id (ofLiteral car) (ofLiteral cdr)

/-- Only `#f` is false. -/
def isTrue : Value → Bool
  | .boolean false => false
  | _ => true

/-- Whether a value is the empty list or a chain of pairs that ends in it. -/
def isList : Value → Bool
  | .null => true
  | .pair _ _ cdr => cdr.isList
  | _ => false

def isPair : Value → Bool
  | .pair _ _ _ => true
  | _ => false

def isNull : Value → Bool
  | .null => true
  | _ => false

def isNumber : Value → Bool
  | .number _ => true
  | _ => false

def isBoolean : Value → Bool
  | .boolean _ => true
  | _ => false

def isSymbol : Value → Bool
  | .symbol _ => true
  | _ => false

def isString : Value → Bool
  | .string _ => true
  | _ => false

def isProcedure : Value → Bool
  | .primitive _ => true
  | .closure _ _ _ _ => true
  | _ => false

def number? : Value → Option Number
  | .number n => some n
  | _ => none

def pair? : Value → Option (Value × Value)
  | .pair _ car cdr => some (car, cdr)
  | _ => none

def string? : Value → Option String
  | .string s => some s
  | _ => none

/-- The number of arguments a closure takes. -/
def arity? : Value → Option Arity
  | .closure _ params _ _ => some (.exactly params.length)
  | _ => none

def typeName : Value → String
  | .void => "void"
  | .number _ => "number"
  | .boolean _ => "boolean"
  | .string _ => "string"
  | .symbol _ => "symbol"
  | .null => "null"
  | .pair _ _ _ => "pair"
  | .primitive _ => "procedure"
  | .closure _ _ _ _ => "procedure"

/-- A proper list of pairs with new identities, and the next free identity after them. -/
def list (fresh : Identity) : List Value → Value × Identity
  | [] => (.null, fresh)
  | v :: vs =>
    let (cdr, next) := list fresh vs
    (.pair next v cdr, next + 1)

/-! ## Equality -/

/-- Structural equality.  The identical pair is equal to itself whatever it holds; closures are
equal only to themselves. -/
def equal : Value → Value → Bool
  | .void, .void => true
  | .number a, .number b => a.same b
  | .boolean a, .boolean b => a == b
  | .string a, .string b => a == b
  | .symbol a, .symbol b => a == b
  | .null, .null => true
  | .pair i a c, .pair j b d => i == j || (a.equal b && c.equal d)
  | .primitive a, .primitive b => a == b
  | .closure i _ _ _, .closure j _ _ _ => i == j
  | _, _ => false

/-- Atoms compare by value, pairs and closures by identity. -/
def eqv : Value → Value → Bool
  | .pair i _ _, .pair j _ _ => i == j
  | .closure i _ _ _, .closure j _ _ _ => i == j
  | a, b => a.equal b

end Value

end StoreScheme
