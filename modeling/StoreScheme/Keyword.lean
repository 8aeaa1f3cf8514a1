import StoreScheme.Datum.FoldCase

/-!
# Keywords

The names that make the list they head a special form.
-/

namespace StoreScheme

inductive Keyword
  | quote
  | define
  | set
  | ifElse
  | lambda
  | letIn
deriving Repr, DecidableEq

namespace Keyword

def all : List Keyword := [quote, define, set, ifElse, lambda, letIn]

def name : Keyword → String
  | quote => "quote"
  | define => "define"
  | set => "set!"
  | ifElse => "if"
  | lambda => "lambda"
  | letIn => "let"

def ofName? (name : String) : Option Keyword := all.find? (·.name == name)

/-- The keyword that heads a list of data. -/
def ofItems? (f : FoldCase) : List Datum → Option Keyword
  | .atom span (.symbol identifier) :: _ => ofName? (f.name span identifier)
  | _ => none

end Keyword

end StoreScheme
