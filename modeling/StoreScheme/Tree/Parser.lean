import StoreScheme.Token.Lexer
import StoreScheme.Tree

/-!
# Parsing

One pass over the lexemes builds the tree of a source and collects the errors in it.  Parsing never
gives up: whatever is out of place becomes an error leaf, and what is still open at the end is
closed there.

The state is the innermost open level (the root or a list) together with the levels around it.  The
open quotes of a level wait for the datum they apply to.

* `ParseError`: what can be wrong, and where
* `Parser.step`: the effect of one lexeme
* `parse`: the tree and the errors of a source
-/

namespace StoreScheme

inductive ParseErrorKind
  | unexpectedCloseParen
  | unclosedList
  | danglingQuote
  | misplacedDot
  | lexer (e : LexError)
deriving Repr, DecidableEq

structure ParseError where
  span : Span
  kind : ParseErrorKind
deriving Repr, DecidableEq

def ParseErrorKind.message : ParseErrorKind → String
  | .unexpectedCloseParen => "unexpected `)`"
  | .unclosedList => "list is never closed"
  | .danglingQuote => "quote is not followed by a datum"
  | .misplacedDot => "`.` must be followed by exactly one datum and preceded by at least one"
  | .lexer e => e.message

def ParseError.message (e : ParseError) : String := e.kind.message

/-- The outcome of parsing: a tree for any source, and the errors found on the way. -/
structure Parsed where
  tree : Tree
  errors : List ParseError

def Parsed.isOk (p : Parsed) : Bool := p.errors.isEmpty

namespace Parser

/-- What has been read of the root or of a list.  Trees are kept newest first. -/
structure Level where
  children : List Tree := []
  /-- The children of each open quote, innermost first. -/
  quotes : List (List Tree) := []
  /-- The number of data before the dot. -/
  before : Nat := 0
  /-- The number of data after the dot. -/
  after : Nat := 0
  /-- The first dot. -/
  dot : Option Span := none

namespace Level

def quotedDatum (children : List Tree) : Tree := .node .datum [.node .quoted children.reverse]

def listDatum (v : Level) : Tree := .node .datum [.node .list v.children.reverse]

/-- Adds a leaf that is not a datum, inside the innermost open quote if there is one. -/
def addLeaf (v : Level) (t : Tree) : Level :=
  match v.quotes with
  | [] => { v with children := t :: v.children }
  | q :: qs => { v with quotes := (t :: q) :: qs }

/-- Adds a datum, which ends all open quotes, and counts the result. -/
def addDatum (v : Level) (d : Tree) : Level :=
  let whole := v.quotes.foldl (fun d q => quotedDatum (d :: q)) d
  let counted := if v.dot.isSome then { v with after := v.after + 1 }
    else { v with before := v.before + 1 }
  { counted with children := whole :: v.children, quotes := [] }

/-- Ends the innermost open quote without a datum, and the quotes around it with it. -/
def endQuote (v : Level) : Level :=
  match v.quotes with
  | [] => v
  | q :: qs => { v with quotes := qs }.addDatum (quotedDatum q)

/-- Adds an error leaf, which takes the place of a datum under an open quote. -/
def addError (v : Level) (l : Lexeme) : Level := (v.addLeaf (.leaf .error l)).endQuote

/-- The error of a list whose dot is not between at least one datum and exactly one. -/
def dotError (v : Level) : List ParseError :=
  match v.dot with
  | some span => if v.before = 0 ∨ v.after ≠ 1 then [⟨span, .misplacedDot⟩] else []
  | none => []

end Level

structure State where
  /-- The innermost open level. -/
  level : Level := {}
  /-- Each open list's opening parenthesis with the level around the list, innermost first. -/
  enclosing : List (Span × Level) := []
  /-- The errors so far, newest first. -/
  errors : List ParseError := []
  /-- The end of the last lexeme. -/
  stop : Nat := 0

namespace State

def report (s : State) (span : Span) (kind : ParseErrorKind) : State :=
  { s with errors := ⟨span, kind⟩ :: s.errors }

/-- Closes the innermost list, which is then a datum of the level around it. -/
def closeList (s : State) (outer : Level) (enclosing : List (Span × Level)) : State :=
  { s with
    level := outer.addDatum s.level.listDatum
    enclosing := enclosing
    errors := s.level.dotError.reverse ++ s.errors }

/-- Where a datum can not start, an open quote is left dangling. -/
def settleQuote (s : State) (span : Span) : State :=
  if s.level.quotes.isEmpty then s
  else { s.report span .danglingQuote with level := s.level.endQuote }

def openParen (s : State) (l : Lexeme) : State :=
  { s with
    level := { children := [.leaf .openParen l] }
    enclosing := (l.span, s.level) :: s.enclosing }

def closeParen (s : State) (l : Lexeme) : State :=
  let s := s.settleQuote l.span
  match s.enclosing with
  | [] => { s.report l.span .unexpectedCloseParen with level := s.level.addError l }
  | (_, outer) :: enclosing =>
    { s with level := s.level.addLeaf (.leaf .closeParen l) }.closeList outer enclosing

def dot (s : State) (l : Lexeme) : State :=
  let s := s.settleQuote l.span
  if s.enclosing.isEmpty || s.level.dot.isSome then
    { s.report l.span .misplacedDot with level := s.level.addError l }
  else { s with level := { s.level.addLeaf (.leaf .dot l) with dot := some l.span } }

def quote (s : State) (l : Lexeme) : State :=
  { s with level := { s.level with quotes := [.leaf .quoteMark l] :: s.level.quotes } }

/-- The effect of one lexeme. -/
def step (s : State) (l : Lexeme) : State :=
  let s := { s with stop := l.stop }
  match l.result with
  | .error e => { s.report l.span (.lexer e) with level := s.level.addError l }
  | .ok .openParen => s.openParen l
  | .ok .closeParen => s.closeParen l
  | .ok .quote => s.quote l
  | .ok .dot => s.dot l
  | .ok token =>
    let leaf : Tree := .leaf token.leafKind l
    { s with
      level := if token.isTrivia then s.level.addLeaf leaf
        else s.level.addDatum (.node .datum [leaf]) }

/-- Closes the lists that are still open at the end, innermost first. -/
def closeAll (s : State) : List (Span × Level) → State
  | [] => { s with enclosing := [] }
  | (opening, outer) :: rest =>
    ((s.report opening .unclosedList).closeList outer rest).closeAll rest

def finish (s : State) : Parsed :=
  let s := s.settleQuote ⟨s.stop, s.stop⟩
  let s := s.closeAll s.enclosing
  ⟨.node .root s.level.children.reverse, s.errors.reverse⟩

end State

def ofLexemes (ls : List Lexeme) : Parsed := (ls.foldl State.step {}).finish

end Parser

/-- The tree of a source and the errors in it, in the order in which they are found. -/
def parse (source : String) : Parsed := Parser.ofLexemes (lex source)

end StoreScheme
