import StoreScheme.Token

/-!
# Source trees

The tree of a source keeps every lexeme as a leaf, blanks, comments and errors included, so that its
leaves in order are the source.

* `Tree`: leaves and nodes
* `Tree.leaves`, `Tree.text`: what a tree is made of
* `Tree.span`: where it stands
* `Tree.outline`: all its nodes and leaves, outermost first
-/

namespace StoreScheme

inductive LeafKind
  | openParen
  | closeParen
  | dot
  | quoteMark
  | comment
  | directive
  | whitespace
  | lineEnding
  | symbol
  | number
  | string
  | boolean
  | error
deriving Repr, DecidableEq

inductive NodeKind
  | root
  | datum
  | list
  | quoted
deriving Repr, DecidableEq

inductive Tree
  | leaf (kind : LeafKind) (lexeme : Lexeme)
  | node (kind : NodeKind) (children : List Tree)

/-- The leaf that a token becomes where it is expected. -/
def Token.leafKind : Token → LeafKind
  | .whitespace => .whitespace
  | .lineEnding => .lineEnding
  | .comment => .comment
  | .directive _ => .directive
  | .openParen => .openParen
  | .closeParen => .closeParen
  | .quote => .quoteMark
  | .dot => .dot
  | .identifier _ => .symbol
  | .boolean _ => .boolean
  | .string _ => .string
  | .number _ => .number

namespace Tree

mutual

/-- The lexemes of a tree in source order. -/
def leaves : Tree → List Lexeme
  | .leaf _ l => [l]
  | .node _ children => leavesAll children

def leavesAll : List Tree → List Lexeme
  | [] => []
  | t :: ts => t.leaves ++ leavesAll ts

end

/-- The source text of a tree. -/
def text (t : Tree) : String := String.join (t.leaves.map (·.text))

mutual

/-- The bytes a tree covers; a node without leaves covers none. -/
def span? : Tree → Option Span
  | .leaf _ l => some l.span
  | .node _ children => spanAll? children

def spanAll? : List Tree → Option Span
  | [] => none
  | t :: ts =>
    match t.span?, spanAll? ts with
    | some first, some last => some (first.through last)
    | some first, none => some first
    | none, last => last

end

def span (t : Tree) : Span := t.span?.getD ⟨0, 0⟩

/-- A node or leaf with its depth below the root. -/
structure Entry where
  depth : Nat
  kind : NodeKind ⊕ LeafKind
  span : Span

mutual

/-- Every node and leaf, each before its children. -/
def outline (depth : Nat) : Tree → List Entry
  | .leaf kind l => [⟨depth, .inr kind, l.span⟩]
  | .node kind children =>
    ⟨depth, .inl kind, (spanAll? children).getD ⟨0, 0⟩⟩ :: outlineAll (depth + 1) children

def outlineAll (depth : Nat) : List Tree → List Entry
  | [] => []
  | t :: ts => t.outline depth ++ outlineAll depth ts

end

end Tree

end StoreScheme
