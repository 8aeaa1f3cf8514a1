import StoreScheme.Proofs.Expr.Failures
import StoreScheme.Proofs.Token.Reread
import StoreScheme.Proofs.Tree.Parts

/-!
# Reading the texts of leaves again

A tree can be read through nodes and texts alone, without the results of lexing: a datum node says of what
kind it is, gives its child as one of that kind, and the value of an atom is found by lexing its text
once more.  In the tree of a source this never fails and gives what was lexed in place.

* `Lexeme.reread?`, `Lexeme.identifier?`: values of texts
* `DatumNode`, `DatumNode.kind?`, `DatumNode.asNode?`, `DatumNode.asLeaf?`: datum nodes and their child
* `DatumNode.Accessible`: a datum node gives what its kind promises
* `tokens_read_again`: tokens, data and forms of a source
-/

namespace StoreScheme

/-! ## Values of texts -/

namespace Token

def identifier? : Token → Option String
  | .identifier name => some name
  | _ => none

def number? : Token → Option Number
  | .number n => some n
  | _ => none

def string? : Token → Option String
  | .string s => some s
  | _ => none

def boolean? : Token → Option Bool
  | .boolean b => some b
  | _ => none

end Token

namespace Lexeme

/-- What is selected from the token that the text of a lexeme is by itself. -/
def reread? {α : Type} (select : Token → Option α) (l : Lexeme) : Option α :=
  (firstToken? l.text).bind select

/-- The identifier that a text stands for, folded if asked for. -/
def identifier? (folds : Bool) (l : Lexeme) : Option String :=
  (l.reread? Token.identifier?).map fun name => if folds then CaseFold.fold name else name

variable {source : String} {l : Lexeme} {token : Token}

theorem reread?_eq {α : Type} (select : Token → Option α) (member : l ∈ lex source)
    (ok : l.result = .ok token) : l.reread? select = select token := by
  rw [reread?, firstToken?_text member ok, Option.bind_some]

theorem identifier?_eq {name : String} (folds : Bool) (member : l ∈ lex source)
    (ok : l.result = .ok (.identifier name)) :
    l.identifier? folds = some (if folds then CaseFold.fold name else name) := by
  rw [identifier?, reread?_eq Token.identifier? member ok]
  rfl

end Lexeme

/-! ## Datum nodes -/

inductive DatumKind
  | list
  | quoted
  | symbol
  | number
  | string
  | boolean
deriving Repr, DecidableEq

/-- A datum node that has exactly one child. -/
structure DatumNode where
  children : List Tree
  single : children.length = 1

def Tree.node? : Tree → Option (NodeKind × List Tree)
  | .node kind children => some (kind, children)
  | .leaf _ _ => none

namespace DatumNode

def cast? : Tree → Option DatumNode
  | .node .datum children => if single : children.length = 1 then some ⟨children, single⟩ else none
  | _ => none

/-- What the first child makes of a datum node. -/
def kind? (d : DatumNode) : Option DatumKind :=
  match d.children.head? with
  | some (.node .list _) => some .list
  | some (.node .quoted _) => some .quoted
  | some (.leaf .symbol _) => some .symbol
  | some (.leaf .number _) => some .number
  | some (.leaf .string _) => some .string
  | some (.leaf .boolean _) => some .boolean
  | _ => none

/-- The children of the first node below, if this is of the kind that is asked for. -/
def asNode? (kind : NodeKind) (d : DatumNode) : Option (List Tree) :=
  match d.children.findSome? Tree.node? with
  | some (found, children) => if found = kind then some children else none
  | none => none

/-- The first child, if this is a leaf of the kind that is asked for. -/
def asLeaf? (kind : LeafKind) (d : DatumNode) : Option Lexeme :=
  match d.children.head? with
  | some (.leaf found l) => if found = kind then some l else none
  | _ => none

/-- A datum node of a source gives what its kind promises: the children of a list or of a quote, and for an
atom a lexeme of the source whose text, read again, has the value that it was lexed with in place. -/
inductive Accessible (source : String) (d : DatumNode) : DatumKind → Prop
  | list {children : List Tree} : d.asNode? .list = some children → Accessible source d .list
  | quoted {children : List Tree} : d.asNode? .quoted = some children → Accessible source d .quoted
  | symbol {l : Lexeme} {name : String} : d.asLeaf? .symbol = some l → l ∈ lex source →
    l.result = .ok (.identifier name) →
    (∀ folds, l.identifier? folds = some (if folds then CaseFold.fold name else name)) →
    Accessible source d .symbol
  | number {l : Lexeme} {n : Number} : d.asLeaf? .number = some l → l ∈ lex source →
    l.result = .ok (.number n) → l.reread? Token.number? = some n → Accessible source d .number
  | string {l : Lexeme} {s : String} : d.asLeaf? .string = some l → l ∈ lex source →
    l.result = .ok (.string s) → l.reread? Token.string? = some s → Accessible source d .string
  | boolean {l : Lexeme} {b : Bool} : d.asLeaf? .boolean = some l → l ∈ lex source →
    l.result = .ok (.boolean b) → l.reread? Token.boolean? = some b → Accessible source d .boolean

variable {source : String} {t : Tree} {d : DatumNode}

theorem eq_of_cast? (cast : cast? t = some d) : t = .node .datum d.children := by
  unfold cast? at cast
  split at cast
  · split at cast
    · cases cast
      rfl
    · cases cast
  · cases cast

theorem accessible_atom {l : Lexeme} {token : Token} {a : Atom} (member : l ∈ lex source)
    (ok : l.result = .ok token) (atom : token.atom? = some a)
    (children : d.children = [.leaf token.leafKind l]) :
    ∃ kind, d.kind? = some kind ∧ d.Accessible source kind := by
  cases token with
  | identifier name =>
      refine ⟨.symbol, by simp [kind?, children, Token.leafKind], ?_⟩
      refine .symbol (by simp [asLeaf?, children, Token.leafKind]) member ok ?_
      exact fun folds => Lexeme.identifier?_eq folds member ok
  | number n =>
      refine ⟨.number, by simp [kind?, children, Token.leafKind], ?_⟩
      exact .number (by simp [asLeaf?, children, Token.leafKind]) member ok (Lexeme.reread?_eq _ member ok)
  | string s =>
      refine ⟨.string, by simp [kind?, children, Token.leafKind], ?_⟩
      exact .string (by simp [asLeaf?, children, Token.leafKind]) member ok (Lexeme.reread?_eq _ member ok)
  | boolean b =>
      refine ⟨.boolean, by simp [kind?, children, Token.leafKind], ?_⟩
      exact .boolean (by simp [asLeaf?, children, Token.leafKind]) member ok (Lexeme.reread?_eq _ member ok)
  | _ => cases atom

/-- Every datum node in the tree of a source is of some kind and gives what this promises. -/
theorem exists_accessible (part : t ∈ (parse source).tree.parts) (cast : cast? t = some d) :
    ∃ kind, d.kind? = some kind ∧ d.Accessible source kind := by
  have shape := eq_of_cast? cast
  have regular := parse_regular source t part
  rw [shape] at part regular
  generalize children : d.children = ts at part regular
  cases regular with
  | @atom l token a ok atom =>
      have leaf := Tree.parts_of_child List.mem_cons_self _ part
      have member : l ∈ lex source := parse_leaves source ▸ Tree.mem_leaves leaf
      exact accessible_atom member ok atom children
  | @list items =>
      have found : d.asNode? .list = some items := by simp [asNode?, children, Tree.node?]
      exact ⟨.list, by simp [kind?, children], .list found⟩
  | @quoted items =>
      have found : d.asNode? .quoted = some items := by simp [asNode?, children, Tree.node?]
      exact ⟨.quoted, by simp [kind?, children], .quoted found⟩
  | other notDatum => exact absurd rfl notDatum

/-- No datum node in the tree of a source is passed over. -/
theorem isSome_ofTree? (part : t ∈ (parse source).tree.parts) (cast : cast? t = some d) :
    (Datum.ofTree? t).isSome = true := by
  have shape := eq_of_cast? cast
  have regular := parse_regular source t part
  rw [shape] at regular ⊢
  generalize d.children = ts at regular ⊢
  cases regular with
  | atom ok atom => simp [Datum.ofTree?, Lexeme.atom?, ok, atom]
  | list | quoted => rfl
  | other notDatum => exact absurd rfl notDatum

end DatumNode

/-- The text of a token is by itself that one token.  Every datum node of a source, with errors or
without, has a kind, and the accessor for it gives what was lexed in place.  No form of a source
without parse errors is rejected because of a literal. -/
theorem tokens_read_again (source : String) :
    (∀ l ∈ lex source, ∀ token, l.result = .ok token → lex l.text = [⟨.ok token, l.text, 0⟩]) ∧
    (∀ t ∈ (parse source).tree.parts, ∀ d, DatumNode.cast? t = some d →
      d.kind?.isSome = true ∧ (Datum.ofTree? t).isSome = true ∧
      ∀ kind, d.kind? = some kind → d.Accessible source kind) ∧
    ((parse source).isOk = true → ∀ folds fresh e,
      (Form.ofTree folds (parse source).tree).run fresh = .error e → e.kind ≠ .unsupportedLiteral) := by
  refine ⟨fun l member token ok => Lexeme.lex_text member ok, ?_, ?_⟩
  · intro t part d cast
    obtain ⟨kind, found, accessible⟩ := DatumNode.exists_accessible part cast
    refine ⟨by rw [found]; rfl, DatumNode.isSome_ofTree? part cast, ?_⟩
    intro kind' found'
    cases found.symm.trans found'
    exact accessible
  · intro ok folds fresh e failed
    exact Form.ofTree_supported ok folds fresh e failed

/-- An exponent without digits is left to the next token, and neither token needs the other. -/
theorem tokens_read_again_exponent :
    (lex "1e+)").map (·.text) = ["1", "e+", ")"] ∧ (parse "1e+)").isOk = false ∧
    lex "e+" = [⟨.ok (.identifier "e+"), "e+", 0⟩] := by
  have lexed : (lex "1e+)").drop 1 =
      [⟨.ok (.identifier "e+"), "e+", 1⟩, ⟨.ok .closeParen, ")", 3⟩] := by rfl
  have member : ⟨.ok (.identifier "e+"), "e+", 1⟩ ∈ (lex "1e+)").drop 1 := lexed ▸ List.mem_cons_self
  exact ⟨by rfl, by rfl, (tokens_read_again "1e+)").1 _ (List.mem_of_mem_drop member) _ rfl⟩

end StoreScheme
