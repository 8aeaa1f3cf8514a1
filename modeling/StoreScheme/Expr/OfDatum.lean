import StoreScheme.Expr

/-!
# From data to expressions

Everything that can be rejected without running a program is rejected here: malformed special forms,
nested definitions, dotted applications, names bound twice in one frame and reserved names.
Building threads the supply of identities for the pairs of quoted data.

* `Literal.ofDatum`: a quoted datum
* `Expr.ofDatum`: an expression
* `Form.ofDatum`: a top-level form
* `Form.ofTree`: all forms of a source
-/

namespace StoreScheme

/-- Building takes the next free identity and gives a result with the next free one after it, or the
first error. -/
abbrev Build (α : Type) := StateT Identity (Except SyntaxError) α

namespace Build

def fail {α : Type} (span : Span) (kind : SyntaxErrorKind) : Build α := throw ⟨span, kind⟩

/-- A pair with a new identity. -/
def cons (car cdr : Literal) : Build Literal := do
  let id ← get
  set (id + 1)
  return .pair id car cdr

end Build

/-! ## Names -/

/-- Names of primitives and keywords can not be bound. -/
def isReserved (name : String) : Bool :=
  (Primitive.ofName? name).isSome || (Keyword.ofName? name).isSome

/-- The name that a datum to be bound or assigned stands for. -/
def bindable (f : FoldCase) : Datum → Build String
  | .atom span (.symbol identifier) =>
    let name := f.name span identifier
    if isReserved name then Build.fail span (.reservedName name) else return name
  | d => Build.fail d.span .expectedSymbol

/-- Names bound together in one frame, different from each other and from those `seen` before. -/
def distinctNames (f : FoldCase) : (seen : List String) → List Datum → Build (List String)
  | _, [] => return []
  | seen, d :: ds => do
    let name ← bindable f d
    if seen.contains name then Build.fail d.span (.duplicateName name)
    else
      let names ← distinctNames f (name :: seen) ds
      return name :: names

/-! ## Quoted data -/

namespace Literal

mutual

/-- The data that a quoted datum stands for. -/
def ofDatum (f : FoldCase) : Datum → Build Literal
  | .atom _ (.number n) => return .number n
  | .atom _ (.string s) => return .string s
  | .atom _ (.boolean b) => return .boolean b
  | .atom span (.symbol identifier) => return .symbol (f.name span identifier)
  | .quoted span none => Build.fail span .unsupportedLiteral
  | .quoted _ (some d) => do
    let quoted ← ofDatum f d
    let rest ← Build.cons quoted .null
    Build.cons (.symbol Keyword.quote.name) rest
  | .list _ before none => ofItems f .null before
  | .list _ before (some after) => do
    let tail ← ofTail f after
    ofItems f tail before

/-- The tail of a dotted list: the last datum after the dot. -/
def ofTail (f : FoldCase) : List Datum → Build Literal
  | [] => return .null
  | [d] => ofDatum f d
  | _ :: ds => ofTail f ds

/-- Pairs of the items in front of a tail; the last item is converted first. -/
def ofItems (f : FoldCase) (tail : Literal) : List Datum → Build Literal
  | [] => return tail
  | d :: ds => do
    let cdr ← ofItems f tail ds
    let car ← ofDatum f d
    Build.cons car cdr

end

end Literal

/-! ## Expressions -/

namespace Expr

/-- A symbol is a primitive or a variable; a keyword by itself is neither. -/
def ofName (span : Span) (name : String) : Build Expr :=
  match Primitive.ofName? name, Keyword.ofName? name with
  | some p, _ => return .primitive p
  | none, some k => Build.fail span (.malformed k)
  | none, none => return .ref name

/-- The data that stand for the names of a binding list. -/
def bindingTargets : List Datum → List Datum
  | .list _ [target, _] none :: ds => target :: bindingTargets ds
  | _ => []

mutual

def ofDatum (f : FoldCase) : Datum → Build Expr
  | .atom _ (.number n) => return .number n
  | .atom _ (.string s) => return .string s
  | .atom _ (.boolean b) => return .boolean b
  | .atom span (.symbol identifier) => ofName span (f.name span identifier)
  | .quoted span none => Build.fail span (.malformed .quote)
  | .quoted _ (some d) => .literal <$> Literal.ofDatum f d
  | .list span before (some after) =>
    if Keyword.ofItems? f (Datum.items before (some after)) = some .quote then
      Build.fail span (.malformed .quote)
    else Build.fail span .dottedList
  | .list span [] none => Build.fail span .emptyApplication
  | .list span (head :: rest) none =>
    match Keyword.ofItems? f [head], rest with
    | none, operands => do
      let operator ← ofDatum f head
      let operands ← ofData f operands
      return .apply operator operands
    | some .quote, [d] => .literal <$> Literal.ofDatum f d
    | some .define, _ => Build.fail span .nestedDefine
    | some .set, [target, value] => do
      let name ← bindable f target
      let value ← ofDatum f value
      return .assign name value
    | some .ifElse, [test, consequent] => do
      let test ← ofDatum f test
      let consequent ← ofDatum f consequent
      return .ifElse test consequent none
    | some .ifElse, [test, consequent, alternative] => do
      let test ← ofDatum f test
      let consequent ← ofDatum f consequent
      let alternative ← ofDatum f alternative
      return .ifElse test consequent (some alternative)
    | some .lambda, .list _ params none :: body => do
      let params ← distinctNames f [] params
      let body ← ofData f body
      return .lambda params body
    | some .letIn, .list _ bindings none :: body => do
      let values ← ofBindings f bindings
      let names ← distinctNames f [] (bindingTargets bindings)
      let body ← ofData f body
      return .letIn names values body
    | some k, _ => Build.fail span (.malformed k)

def ofData (f : FoldCase) : List Datum → Build (List Expr)
  | [] => return []
  | d :: ds => do
    let e ← ofDatum f d
    let es ← ofData f ds
    return e :: es

/-- The value expressions of a binding list. -/
def ofBindings (f : FoldCase) : List Datum → Build (List Expr)
  | [] => return []
  | .list _ [_, value] none :: ds => do
    let e ← ofDatum f value
    let es ← ofBindings f ds
    return e :: es
  | d :: _ => Build.fail d.span (.malformed .letIn)

end

end Expr

/-! ## Top-level forms -/

namespace Form

/-- A definition, `(define name value)` or `(define (name param …) body …)`, from what follows the
keyword. -/
def ofDefinition (f : FoldCase) (span : Span) : List Datum → Build Form
  | .list target _ (some _) :: _ => Build.fail target .dottedList
  | .list _ [] none :: _ => Build.fail span (.malformed .define)
  | .list _ (target :: params) none :: body => do
    let name ← bindable f target
    let params ← distinctNames f [] params
    let body ← Expr.ofData f body
    return .define name (.lambda params body)
  | [target, value] => do
    let name ← bindable f target
    let value ← Expr.ofDatum f value
    return .define name value
  | _ => Build.fail span (.malformed .define)

def ofDatum (f : FoldCase) (d : Datum) : Build Form :=
  match d with
  | .list span before after =>
    if Keyword.ofItems? f (Datum.items before after) = some .define then
      match after with
      | some _ => Build.fail span .dottedList
      | none => ofDefinition f span before.tail
    else .expr <$> Expr.ofDatum f d
  | d => .expr <$> Expr.ofDatum f d

def ofData (f : FoldCase) : List Datum → Build (List Form)
  | [] => return []
  | d :: ds => do
    let form ← ofDatum f d
    let forms ← ofData f ds
    return form :: forms

/-- All forms of a source, with case folded as its directives say. -/
def ofTree (folds : Bool) (t : Tree) : Build (List Form) :=
  ofData (FoldCase.ofTree folds t) t.data

end Form

end StoreScheme
