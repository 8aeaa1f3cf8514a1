import StoreScheme.Primitive.Apply
import StoreScheme.Store

/-!
# Evaluation

A recursive, applicative-order evaluator.  Every binding form makes new cells, and `set!` writes to
the cell of its variable, so closures that share a frame share its updates.

Evaluation may not end, so it is given fuel, which bounds the depth of the recursion.  An evaluation
has a value, fails with the first error, or runs out of fuel; the memory reached so far is kept in
the first two cases.

* `Memory`: the store, the global names and the supply of identities
* `Outcome`: how an evaluation ends
* `Eval.step`: one level of evaluation, given a way to evaluate what is below
* `eval`: evaluation with fuel
-/

namespace StoreScheme

/-- What can go wrong while evaluating. -/
inductive EvalError
  | unboundVariable (name : String)
  | outOfBounds (address : Address)
  | badProcedure (v : Value)
  | emptyProgram
  | arityMismatch (expected given : Nat)
  | primitive (e : PrimitiveError)

def EvalError.message : EvalError → String
  | .unboundVariable name => s!"unbound variable: {name}"
  | .outOfBounds address => s!"address out of bounds: {address}"
  | .badProcedure v => s!"bad procedure: {v.display}"
  | .emptyProgram => "empty program"
  | .arityMismatch expected given => s!"procedure expects {expected} argument(s), got {given}"
  | .primitive e => e.message

/-- What evaluation reads and changes. -/
structure Memory where
  store : Store := {}
  globals : Globals := {}
  /-- The next free identity. -/
  fresh : Identity := 0

inductive Outcome (α : Type)
  | value (a : α) (m : Memory)
  | error (e : EvalError) (m : Memory)
  | outOfFuel

/-- A computation on the memory. -/
def Eval (α : Type) := Memory → Outcome α

namespace Eval

def pure {α : Type} (a : α) : Eval α := fun m => .value a m

/-- Goes on with the value of a computation; an error ends both. -/
def bind {α β : Type} (x : Eval α) (f : α → Eval β) : Eval β := fun m =>
  match x m with
  | .value a m => f a m
  | .error e m => .error e m
  | .outOfFuel => .outOfFuel

instance : Monad Eval where
  pure := Eval.pure
  bind := Eval.bind

def fail {α : Type} (e : EvalError) : Eval α := fun m => .error e m

/-! ## Memory -/

def lookup (env : Env) (name : String) : Eval Address := fun m =>
  match env.lookup? m.globals name with
  | some address => .value address m
  | none => .error (.unboundVariable name) m

def read (address : Address) : Eval Value := fun m =>
  match m.store.read? address with
  | some v => .value v m
  | none => .error (.outOfBounds address) m

def write (address : Address) (v : Value) : Eval Unit := fun m =>
  match m.store.write? address v with
  | some store => .value () { m with store }
  | none => .error (.outOfBounds address) m

/-- New cells for some values. -/
def allocate (vs : List Value) : Eval (List Address) := fun m =>
  let (addresses, store) := m.store.allocateAll vs
  .value addresses { m with store }

/-- A closure with a new identity. -/
def close (params : List String) (body : List Expr) (env : Env) : Eval Value := fun m =>
  .value (.closure m.fresh params body env) { m with fresh := m.fresh + 1 }

def applyPrimitive (op : Primitive) (args : List Value) : Eval Value := fun m =>
  match op.apply args m.fresh with
  | .ok (v, fresh) => .value v { m with fresh }
  | .error e => .error (.primitive e) m

/-! ## One level of evaluation -/

/-- Evaluates expressions below the current one. -/
abbrev Evaluator := Expr → Env → Eval Value

/-- The values of some expressions, strictly from left to right. -/
def all (ev : Evaluator) (env : Env) : List Expr → Eval (List Value)
  | [] => pure []
  | e :: es => do
    let v ← ev e env
    let vs ← all ev env es
    return v :: vs

/-- The value of the last expression of a body; an empty body is an error. -/
def body (ev : Evaluator) (env : Env) : List Expr → Eval Value
  | [] => fail .emptyProgram
  | [e] => ev e env
  | e :: es => do
    let _ ← ev e env
    body ev env es

/-- Evaluates a body with names bound to new cells for some values. -/
def bodyWith (ev : Evaluator) (env : Env) (names : List String) (es : List Expr)
    (vs : List Value) : Eval Value := do
  let addresses ← allocate vs
  body ev (⟨names, addresses⟩ :: env) es

/-- Applies an evaluated operator to evaluated operands.  A closure's body is evaluated in the
environment it captured. -/
def apply (ev : Evaluator) (procedure : Value) (args : List Value) : Eval Value :=
  match procedure with
  | .primitive op => applyPrimitive op args
  | .closure _ params es env =>
    if params.length = args.length then bodyWith ev env params es args
    else fail (.arityMismatch params.length args.length)
  | v => fail (.badProcedure v)

/-- One level of evaluation, given a way to evaluate what is below. -/
def step (ev : Evaluator) (e : Expr) (env : Env) : Eval Value :=
  match e with
  | .number n => pure (.number n)
  | .boolean b => pure (.boolean b)
  | .string s => pure (.string s)
  | .literal l => pure (.ofLiteral l)
  | .primitive p => pure (.primitive p)
  | .ref name => do
    let address ← lookup env name
    read address
  | .ifElse test consequent alternative => do
    let v ← ev test env
    if v.isTrue then ev consequent env
    else match alternative with
      | some e => ev e env
      | none => return .void
  | .lambda params es => close params es env
  | .letIn names values es => do
    let vs ← all ev env values
    bodyWith ev env names es vs
  | .apply operator operands => do
    let procedure ← ev operator env
    let args ← all ev env operands
    apply ev procedure args
  | .assign name value => do
    let v ← ev value env
    let address ← lookup env name
    write address v
    return .void

end Eval

/-- Evaluates an expression with the given fuel. -/
def eval : (fuel : Nat) → Eval.Evaluator
  | 0 => fun _ _ _ => .outOfFuel
  | fuel + 1 => Eval.step (eval fuel)

end StoreScheme
