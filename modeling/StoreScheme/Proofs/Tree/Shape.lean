import StoreScheme.Proofs.Tree.Bare
import StoreScheme.Proofs.Tree.Parts

/-!
# The shape of trees

Whatever the errors of a source are, the nodes of its tree have few shapes, which the kinds of their
children tell: a list begins with its parenthesis and may end with another, a quote is followed by at most
one datum.

* `Tree.kind`, `Tree.kinds`: what a part of a tree is
* `NodeKind.Shape`: the kinds of the children of a node
* `NodeKind.Shape.list_rest`, `NodeKind.Shape.quoted_rest`: how often parentheses, dots and quotes stand
  in a node
* `Tree.Sound`: parts of these shapes, with an error for each error leaf and each list that is not closed
-/

namespace StoreScheme

/-! ## Kinds -/

def LeafKind.isAtom : LeafKind → Bool
  | .symbol | .number | .string | .boolean => true
  | _ => false

/-- What a part of a tree is. -/
inductive PartKind
  | node (kind : NodeKind)
  | leaf (kind : LeafKind)
deriving Repr, DecidableEq

namespace PartKind

def isTrivia : PartKind → Bool
  | .node _ => false
  | .leaf kind => kind.isTrivia

/-- What can stand in the root, and in a list apart from its parentheses and its dot. -/
def isItem : PartKind → Bool
  | .node kind => kind = .datum
  | .leaf kind => kind.isTrivia || kind = .error

/-- What a datum can be made of. -/
def isContent : PartKind → Bool
  | .node kind => kind = .list || kind = .quoted
  | .leaf kind => kind.isAtom

theorem isItem_of_isTrivia {k : PartKind} (trivia : k.isTrivia = true) : k.isItem = true := by
  cases k with
  | node _ => cases trivia
  | leaf kind => simpa [isItem] using .inl trivia

end PartKind

namespace Tree

def kind : Tree → PartKind
  | .leaf kind _ => .leaf kind
  | .node kind _ => .node kind

def kinds (ts : List Tree) : List PartKind := ts.map kind

@[simp] theorem kind_leaf (kind : LeafKind) (l : Lexeme) : (Tree.leaf kind l).kind = .leaf kind := rfl

@[simp] theorem kinds_cons (t : Tree) (ts : List Tree) : kinds (t :: ts) = t.kind :: kinds ts := rfl

@[simp] theorem kinds_append (ts us : List Tree) : kinds (ts ++ us) = kinds ts ++ kinds us :=
  List.map_append

@[simp] theorem kinds_reverse (ts : List Tree) : kinds ts.reverse = (kinds ts).reverse :=
  List.map_reverse

theorem forall_mem_kinds {P : PartKind → Prop} {ts : List Tree} :
    (∀ k ∈ kinds ts, P k) ↔ ∀ t ∈ ts, P t.kind :=
  List.forall_mem_map

theorem kinds_eq_cons {kind : LeafKind} {ts : List Tree} {ks : List PartKind}
    (same : kinds ts = .leaf kind :: ks) : ∃ l rest, ts = .leaf kind l :: rest ∧ kinds rest = ks := by
  obtain ⟨t, rest, rfl, first, others⟩ := List.map_eq_cons_iff.1 same
  cases t with
  | leaf _ l =>
      cases first
      exact ⟨l, rest, rfl, others⟩
  | node _ _ => cases first

end Tree

/-! ## Shapes of nodes -/

/-- What a quote applies to: a datum, an error in its place, or nothing. -/
def IsOperand (ks : List PartKind) : Prop := ks = [] ∨ ks = [.node .datum] ∨ ks = [.leaf .error]

/-- The kinds of the children of a node, in order.  The last child of a list is its closing parenthesis,
if it has one. -/
inductive NodeKind.Shape : NodeKind → List PartKind → Prop
  | root {items : List PartKind} : (∀ k ∈ items, k.isItem = true) → Shape .root items
  | datum {content : PartKind} : content.isContent = true → Shape .datum [content]
  | list {body closing : List PartKind} : (∀ k ∈ body, k.isItem = true ∨ k = .leaf .dot) →
    body.count (.leaf .dot) ≤ 1 → closing = [] ∨ closing = [.leaf .closeParen] →
    Shape .list (.leaf .openParen :: (body ++ closing))
  | quoted {trivia operand : List PartKind} : (∀ k ∈ trivia, k.isTrivia = true) →
    IsOperand operand → Shape .quoted (.leaf .quoteMark :: (trivia ++ operand))

namespace NodeKind.Shape

variable {kind : NodeKind} {k : PartKind} {ks body : List PartKind}

theorem not_mem_of_forall {p : PartKind → Bool} (all : ∀ k ∈ ks, p k = true) (refused : p k = false) :
    k ∉ ks := by
  intro member
  cases refused.symm.trans (all k member)

theorem not_mem_body (items : ∀ k ∈ body, k.isItem = true ∨ k = .leaf .dot) (notItem : k.isItem = false)
    (notDot : k ≠ .leaf .dot) : k ∉ body := by
  intro member
  rcases items k member with item | isDot
  · cases notItem.symm.trans item
  · exact notDot isDot

theorem root_items (shape : Shape .root ks) : ∀ k ∈ ks, k.isItem = true := by
  cases shape with
  | root items => exact items

theorem datum_content (shape : Shape .datum ks) : ∃ k, ks = [k] ∧ k.isContent = true := by
  cases shape with
  | datum content => exact ⟨_, rfl, content⟩

theorem list_rest (shape : Shape .list ks) : ∃ rest, ks = .leaf .openParen :: rest ∧
    .leaf .openParen ∉ rest ∧ rest.count (.leaf .dot) ≤ 1 ∧ rest.count (.leaf .closeParen) ≤ 1 ∧
    (.leaf .closeParen ∈ rest → rest.getLast? = some (.leaf .closeParen)) := by
  cases shape with
  | @list body closing items single ends =>
      have noOpen : .leaf .openParen ∉ body := not_mem_body items rfl nofun
      have noClose : .leaf .closeParen ∉ body := not_mem_body items rfl nofun
      refine ⟨body ++ closing, rfl, ?_⟩
      rcases ends with rfl | rfl
      · rw [List.append_nil]
        exact ⟨noOpen, single, by simp [List.count_eq_zero.2 noClose], fun member => absurd member noClose⟩
      · simp [noOpen, single, List.count_eq_zero.2 noClose]

theorem quoted_rest (shape : Shape .quoted ks) : ∃ rest, ks = .leaf .quoteMark :: rest ∧
    .leaf .quoteMark ∉ rest ∧ rest.count (.node .datum) ≤ 1 := by
  cases shape with
  | @quoted trivia operand isTrivia applied =>
      have noQuote : .leaf .quoteMark ∉ trivia := not_mem_of_forall isTrivia rfl
      have noDatum : .node .datum ∉ trivia := not_mem_of_forall isTrivia rfl
      refine ⟨trivia ++ operand, rfl, ?_⟩
      rcases applied with rfl | rfl | rfl <;> simp [noQuote, List.count_eq_zero.2 noDatum]

/-- Closing parentheses and dots stand in lists only. -/
theorem not_mem_of_ne_list (shape : kind.Shape ks) (other : kind ≠ .list) :
    .leaf .closeParen ∉ ks ∧ .leaf .dot ∉ ks := by
  cases shape with
  | root items => exact ⟨not_mem_of_forall items rfl, not_mem_of_forall items rfl⟩
  | @datum content isContent =>
      have single : ∀ k ∈ [content], k.isContent = true := List.forall_mem_singleton.2 isContent
      exact ⟨not_mem_of_forall single rfl, not_mem_of_forall single rfl⟩
  | list _ _ _ => exact absurd rfl other
  | @quoted trivia operand isTrivia applied =>
      have noClose : .leaf .closeParen ∉ trivia := not_mem_of_forall isTrivia rfl
      have noDot : .leaf .dot ∉ trivia := not_mem_of_forall isTrivia rfl
      rcases applied with rfl | rfl | rfl <;> simp [noClose, noDot]

end NodeKind.Shape

/-! ## Shapes and errors -/

/-- Errors about one lexeme, which makes no sense where it stands. -/
def ParseErrorKind.isMisfit : ParseErrorKind → Bool
  | .lexer _ | .unexpectedCloseParen | .misplacedDot => true
  | .unclosedList | .danglingQuote => false

/-- An error leaf stands where an error is reported, a node has one of the shapes, and a list without
closing parenthesis is reported as unclosed. -/
def Tree.Sound (errors : List ParseError) : Tree → Prop
  | .leaf kind l => kind = .error → ∃ e ∈ errors, e.span = l.span ∧ e.kind.isMisfit = true
  | .node kind ts => kind.Shape (kinds ts) ∧ (kind = .list → .leaf .closeParen ∉ kinds ts →
      ∃ o rest, ts = .leaf .openParen o :: rest ∧ ⟨o.span, .unclosedList⟩ ∈ errors)

def Tree.AllSound (errors : List ParseError) (t : Tree) : Prop := ∀ part ∈ t.parts, part.Sound errors

namespace Tree

variable {errors errors' : List ParseError} {t : Tree} {ts : List Tree} {l : Lexeme}

theorem Sound.mono (sound : t.Sound errors) (more : errors ⊆ errors') : t.Sound errors' := by
  cases t with
  | leaf kind l =>
      intro isError
      obtain ⟨e, member, place⟩ := sound isError
      exact ⟨e, more member, place⟩
  | node kind ts =>
      refine ⟨sound.1, fun isList noClose => ?_⟩
      obtain ⟨o, rest, first, member⟩ := sound.2 isList noClose
      exact ⟨o, rest, first, more member⟩

theorem AllSound.mono (sound : t.AllSound errors) (more : errors ⊆ errors') : t.AllSound errors' :=
  fun part inside => (sound part inside).mono more

theorem allSound_leaf {kind : LeafKind} (notError : kind ≠ .error) : (leaf kind l).AllSound errors :=
  forall_parts_leaf.2 fun isError => absurd isError notError

theorem allSound_error {e : ParseError} (member : e ∈ errors) (place : e.span = l.span)
    (misfit : e.kind.isMisfit = true) : (leaf .error l).AllSound errors :=
  forall_parts_leaf.2 fun _ => ⟨e, member, place, misfit⟩

theorem allSound_node {kind : NodeKind} (notList : kind ≠ .list) (shape : kind.Shape (kinds ts))
    (children : ∀ t ∈ ts, t.AllSound errors) : (node kind ts).AllSound errors :=
  forall_parts_node.2 ⟨⟨shape, fun isList => absurd isList notList⟩, children⟩

theorem allSound_datum (content : t.kind.isContent = true) (child : t.AllSound errors) :
    (node .datum [t]).AllSound errors :=
  allSound_node nofun (.datum content) (List.forall_mem_singleton.2 child)

theorem allSound_trivia (trivia : t.kind.isTrivia = true) : t.AllSound errors := by
  cases t with
  | node _ _ => cases trivia
  | leaf kind l =>
      refine allSound_leaf ?_
      rintro rfl
      cases trivia

end Tree

end StoreScheme
