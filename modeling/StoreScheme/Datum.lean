import StoreScheme.Tree

/-!
# Data

A datum is what a tree says once blanks, comments and errors are set aside.  It exists for every
tree, so a list may have a dot in the wrong place and a quote may lack its datum; sources without
errors have neither.

* `Datum`: atoms, lists and quoted data, with their places
* `Datum.ofTree?`: the datum of a node
* `Tree.data`: the data directly below a node
-/

namespace StoreScheme

inductive Atom
  | symbol (name : String)
  | number (n : Number)
  | string (s : String)
  | boolean (b : Bool)
deriving Repr, DecidableEq

inductive Datum
  | atom (span : Span) (a : Atom)
  /-- The data before the dot, and those after it if there is one. -/
  | list (span : Span) (before : List Datum) (after : Option (List Datum))
  | quoted (span : Span) (datum : Option Datum)

/-- The atom that a token denotes. -/
def Token.atom? : Token → Option Atom
  | .identifier name => some (.symbol name)
  | .number n => some (.number n)
  | .string s => some (.string s)
  | .boolean b => some (.boolean b)
  | _ => none

def Lexeme.atom? (l : Lexeme) : Option Atom :=
  match l.result with
  | .ok token => token.atom?
  | .error _ => none

namespace Datum

def span : Datum → Span
  | .atom s _ => s
  | .list s _ _ => s
  | .quoted s _ => s

mutual

/-- The datum of a node; other nodes and leaves have none. -/
def ofTree? : Tree → Option Datum
  | .node .datum [.leaf _ l] => l.atom?.map (.atom l.span)
  | .node .datum [.node .list children] =>
    let (before, after) := splitAtDot children
    some (.list ((Tree.spanAll? children).getD ⟨0, 0⟩) before after)
  | .node .datum [.node .quoted children] =>
    some (.quoted ((Tree.spanAll? children).getD ⟨0, 0⟩) (ofTrees children).head?)
  | _ => none

/-- The data among some trees. -/
def ofTrees : List Tree → List Datum
  | [] => []
  | t :: ts => (ofTree? t).toList ++ ofTrees ts

/-- The data before and after the dot among the children of a list. -/
def splitAtDot : List Tree → List Datum × Option (List Datum)
  | [] => ([], none)
  | .leaf .dot _ :: ts =>
    let (before, after) := splitAtDot ts
    ([], some (before ++ after.getD []))
  | t :: ts =>
    let (before, after) := splitAtDot ts
    ((ofTree? t).toList ++ before, after)

end

/-- All data of a list in order, whether or not it has a dot. -/
def items (before : List Datum) (after : Option (List Datum)) : List Datum :=
  before ++ after.getD []

end Datum

/-- The data directly below a node. -/
def Tree.data : Tree → List Datum
  | .leaf _ _ => []
  | .node _ children => Datum.ofTrees children

end StoreScheme
