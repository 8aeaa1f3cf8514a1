import StoreScheme.Keyword
import StoreScheme.Primitive

/-!
# Expressions

What the evaluator works on: the data of a source with special forms recognised, identifiers folded,
primitives resolved and quoted data converted.

* `Literal`: quoted data, which holds no procedures
* `Expr`, `Form`: expressions and top-level forms
* `SyntaxError`: why a datum is not an expression
-/

namespace StoreScheme

/-- Tells pairs and closures apart from others with the same content. -/
abbrev Identity := Nat

/-- A quoted datum.  Its pairs are made when the source is read. -/
inductive Literal
  | number (n : Number)
  | boolean (b : Bool)
  | string (s : String)
  | symbol (name : String)
  | null
  | pair (id : Identity) (car cdr : Literal)
deriving Repr, DecidableEq

inductive Expr
  | number (n : Number)
  | boolean (b : Bool)
  | string (s : String)
  | literal (l : Literal)
  | primitive (p : Primitive)
  | ref (name : String)
  | ifElse (test consequent : Expr) (alternative : Option Expr)
  | lambda (params : List String) (body : List Expr)
  | letIn (names : List String) (values body : List Expr)
  | apply (operator : Expr) (operands : List Expr)
  | assign (name : String) (value : Expr)

/-- A top-level form. -/
inductive Form
  | define (name : String) (value : Expr)
  | expr (e : Expr)

inductive SyntaxErrorKind
  | emptyApplication
  | malformed (k : Keyword)
  | nestedDefine
  | duplicateName (name : String)
  | expectedSymbol
  | dottedList
  | unsupportedLiteral
  | reservedName (name : String)
deriving Repr, DecidableEq

structure SyntaxError where
  span : Span
  kind : SyntaxErrorKind
deriving Repr, DecidableEq

def SyntaxErrorKind.message : SyntaxErrorKind → String
  | .emptyApplication => "empty application (write '() for the empty list)"
  | .malformed k => s!"malformed {k.name} form"
  | .nestedDefine => "define is only allowed at top level"
  | .duplicateName name => s!"`{name}` is bound more than once"
  | .expectedSymbol => "expected a symbol"
  | .dottedList => "dotted lists can only appear quoted"
  | .unsupportedLiteral => "unsupported literal"
  | .reservedName name => s!"`{name}` is reserved and cannot be bound"

def SyntaxError.message (e : SyntaxError) : String := e.kind.message

end StoreScheme
