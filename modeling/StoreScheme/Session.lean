import StoreScheme.Eval
import StoreScheme.Expr.OfDatum
import StoreScheme.Tree.Parser

/-!
# Sessions

A session keeps its memory from one source to the next, so that later sources see earlier
definitions.  A source that can not be read leaves no trace; one that fails while it runs keeps what
it did up to there.

* `Session.read`: the forms of a source
* `Session.runForm`, `Session.runEach`, `Session.runForms`: running forms
* `Session.run`: reading and running a source
-/

namespace StoreScheme

/-- Why a source has no value. -/
inductive SourceError
  | parse (errors : List ParseError)
  | form (e : SyntaxError)
  | eval (e : EvalError)

def SourceError.message : SourceError → String
  | .parse errors => "; ".intercalate (errors.map (·.message))
  | .form e => e.message
  | .eval e => e.message

structure Options where
  redefine : RedefinePolicy := .latestWins
  /-- Whether identifiers fold case where no directive says otherwise. -/
  foldCase : Bool := false
deriving Repr, DecidableEq

structure Session where
  options : Options := {}
  memory : Memory := {}

/-- Reads a source, with new identities from `fresh` on. -/
def readForms (foldCase : Bool) (fresh : Identity) (source : String) :
    Except SourceError (List Form × Identity) :=
  let parsed := parse source
  if parsed.errors.isEmpty then
    match (Form.ofTree foldCase parsed.tree).run fresh with
    | .ok result => .ok result
    | .error e => .error (.form e)
  else .error (.parse parsed.errors)

namespace Eval

/-- A definition binds a global name to a new cell. -/
def define (policy : RedefinePolicy) (name : String) (v : Value) : Eval Unit := fun m =>
  let (address, store) := m.store.allocate v
  .value () { m with store, globals := m.globals.define policy name address }

/-- Runs one top-level form.  A definition has no value to speak of. -/
def form (fuel : Nat) (policy : RedefinePolicy) : Form → Eval Value
  | .define name e => do
    let v ← eval fuel e []
    define policy name v
    return .void
  | .expr e => eval fuel e []

/-- Runs top-level forms in order.  The last has to be an expression, and its value is the result;
a definition in its place is made before it is reported. -/
def forms (fuel : Nat) (policy : RedefinePolicy) : List Form → Eval Value
  | [] => fail .emptyProgram
  | [.define name e] => do
    let _ ← form fuel policy (.define name e)
    fail .emptyProgram
  | [.expr e] => eval fuel e []
  | x :: xs => do
    let _ ← form fuel policy x
    forms fuel policy xs

end Eval

namespace Session

/-- The depth of recursion that programs are given. -/
def defaultFuel : Nat := 1000000000

/-- Reads a source.  Only success takes identities from the supply. -/
def read (s : Session) (source : String) : Except SourceError (List Form) × Session :=
  match readForms s.options.foldCase s.memory.fresh source with
  | .ok (forms, fresh) => (.ok forms, { s with memory := { s.memory with fresh } })
  | .error e => (.error e, s)

/-- Runs a computation on the memory; `none` stands for running out of fuel. -/
def compute {α : Type} (s : Session) (x : Eval α) : Option (Except EvalError α × Session) :=
  match x s.memory with
  | .value a memory => some (.ok a, { s with memory })
  | .error e memory => some (.error e, { s with memory })
  | .outOfFuel => none

def runForm (s : Session) (fuel : Nat) (x : Form) : Option (Except EvalError Value × Session) :=
  s.compute (Eval.form fuel s.options.redefine x)

/-- Runs forms one by one up to the first error, and gives the result of each that was run. -/
def runEach (s : Session) (fuel : Nat) :
    List Form → Option (List (Except EvalError Value) × Session)
  | [] => some ([], s)
  | x :: xs =>
    match s.runForm fuel x with
    | some (.ok v, s) => (runEach s fuel xs).map fun (results, s) => (.ok v :: results, s)
    | some (.error e, s) => some ([.error e], s)
    | none => none

/-- Runs forms as one sequence, whose value is that of the last. -/
def runForms (s : Session) (fuel : Nat) (xs : List Form) :
    Option (Except EvalError Value × Session) :=
  s.compute (Eval.forms fuel s.options.redefine xs)

/-- Reads and runs a source. -/
def run (s : Session) (fuel : Nat) (source : String) :
    Option (Except SourceError Value × Session) :=
  match s.read source with
  | (.error e, s) => some (.error e, s)
  | (.ok xs, s) =>
    (s.runForms fuel xs).map fun (result, s) => (result.mapError .eval, s)

/-- Applies a value of the session to others. -/
def apply (s : Session) (fuel : Nat) (procedure : Value) (args : List Value) :
    Option (Except EvalError Value × Session) :=
  s.compute (Eval.apply (eval fuel) procedure args)

end Session

end StoreScheme
