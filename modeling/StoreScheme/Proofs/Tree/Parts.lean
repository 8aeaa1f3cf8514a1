import StoreScheme.Proofs.Losslessness
import StoreScheme.Proofs.Tree.Steps

/-!
# Parts of a tree

All that stands below a node, in source order, and what can stand there in the tree of a source,
whatever its errors are: the kind of a leaf is that of its token, unless it is an error leaf, and a datum
node has one child, which is an atom, a list or a quoted datum.

* `Tree.parts`: a tree and all trees below it
* `LeafKind.Labels`, `Tree.Regular`: leaves and datum nodes as the parser makes them
* `Parser.State.Regular`, `Parser.State.Regular.step`, `Parser.State.Regular.run`: how the parser keeps
  to them
* `parse_regular`: the parts of the tree of a source
-/

namespace StoreScheme

namespace Tree

mutual

/-- A tree and all trees below it, each before those below it. -/
def parts : Tree → List Tree
  | .leaf kind l => [.leaf kind l]
  | .node kind children => .node kind children :: partsAll children

def partsAll : List Tree → List Tree
  | [] => []
  | t :: ts => t.parts ++ partsAll ts

end

def lexeme? : Tree → Option Lexeme
  | .leaf _ l => some l
  | .node _ _ => none

variable {t : Tree} {ts : List Tree} {kind : LeafKind} {k : NodeKind} {l : Lexeme}

theorem mem_partsAll : t ∈ partsAll ts ↔ ∃ child ∈ ts, t ∈ child.parts := by
  induction ts with
  | nil => simp [partsAll]
  | cons child ts ih => simp [partsAll, ih]

theorem mem_partsAll_reverse : t ∈ partsAll ts.reverse ↔ t ∈ partsAll ts := by
  simp [mem_partsAll]

theorem partsAll_append (ts us : List Tree) : partsAll (ts ++ us) = partsAll ts ++ partsAll us := by
  induction ts with
  | nil => rfl
  | cons t ts ih => simp [partsAll, ih]

theorem mem_parts_self (t : Tree) : t ∈ t.parts := by
  cases t <;> simp [parts]

theorem forall_parts_leaf {P : Tree → Prop} :
    (∀ part ∈ (leaf kind l).parts, P part) ↔ P (.leaf kind l) :=
  List.forall_mem_singleton

theorem forall_parts_node {P : Tree → Prop} :
    (∀ part ∈ (node k ts).parts, P part) ↔ P (.node k ts) ∧ ∀ t ∈ ts, ∀ part ∈ t.parts, P part := by
  refine List.forall_mem_cons.trans (and_congr_right fun _ => ⟨fun all t member part inside => ?_, ?_⟩)
  · exact all part (mem_partsAll.2 ⟨t, member, inside⟩)
  · intro all part below
    obtain ⟨child, member, inside⟩ := mem_partsAll.1 below
    exact all child member part inside

mutual

theorem parts_of_child {child : Tree} (member : child ∈ ts) :
    ∀ t : Tree, .node k ts ∈ t.parts → child ∈ t.parts
  | .leaf _ _, inside => by simp [parts] at inside
  | .node _ _, inside => by
      rcases List.mem_cons.1 inside with same | below
      · cases same
        exact List.mem_cons_of_mem _ (mem_partsAll.2 ⟨child, member, mem_parts_self child⟩)
      · exact List.mem_cons_of_mem _ (partsAll_of_child member _ below)

theorem partsAll_of_child {child : Tree} (member : child ∈ ts) :
    ∀ us : List Tree, .node k ts ∈ partsAll us → child ∈ partsAll us
  | [], inside => by simp [partsAll] at inside
  | t :: us, inside => by
      rcases List.mem_append.1 inside with first | rest
      · exact List.mem_append_left _ (parts_of_child member t first)
      · exact List.mem_append_right _ (partsAll_of_child member us rest)

end

mutual

theorem leaves_eq : ∀ t : Tree, t.leaves = t.parts.filterMap lexeme?
  | .leaf _ _ => rfl
  | .node _ children => leavesAll_eq children

theorem leavesAll_eq : ∀ ts : List Tree, leavesAll ts = (partsAll ts).filterMap lexeme?
  | [] => rfl
  | t :: ts => by rw [leavesAll, partsAll, List.filterMap_append, leaves_eq t, leavesAll_eq ts]

end

theorem mem_leaves (part : .leaf kind l ∈ t.parts) : l ∈ t.leaves := by
  rw [leaves_eq]
  exact List.mem_filterMap.2 ⟨_, part, rfl⟩

end Tree

/-! ## Regular trees -/

/-- A leaf has the kind of its token.  An error leaf is no token, or a parenthesis or a dot that is out of
place. -/
inductive LeafKind.Labels : LeafKind → Lexeme → Prop
  | token {l : Lexeme} {token : Token} : l.result = .ok token → Labels token.leafKind l
  | error {l : Lexeme} {e : LexError} : l.result = .error e → Labels .error l
  | closeParen {l : Lexeme} : l.result = .ok .closeParen → Labels .error l
  | dot {l : Lexeme} : l.result = .ok .dot → Labels .error l

/-- What a leaf or a datum node can be; nothing is said of other nodes. -/
inductive Tree.Regular : Tree → Prop
  | leaf {kind : LeafKind} {l : Lexeme} : kind.Labels l → Regular (.leaf kind l)
  | atom {l : Lexeme} {token : Token} {a : Atom} : l.result = .ok token → token.atom? = some a →
    Regular (.node .datum [.leaf token.leafKind l])
  | list {children : List Tree} : Regular (.node .datum [.node .list children])
  | quoted {children : List Tree} : Regular (.node .datum [.node .quoted children])
  | other {kind : NodeKind} {children : List Tree} : kind ≠ .datum → Regular (.node kind children)

def Tree.AllRegular (t : Tree) : Prop := ∀ part ∈ t.parts, part.Regular

namespace Tree

variable {ts : List Tree} {k : NodeKind} {l : Lexeme}

theorem allRegular_leaf {kind : LeafKind} (labels : kind.Labels l) : (Tree.leaf kind l).AllRegular :=
  forall_parts_leaf.2 (.leaf labels)

theorem allRegular_node (node : (Tree.node k ts).Regular) (children : ∀ t ∈ ts, t.AllRegular) :
    (Tree.node k ts).AllRegular :=
  forall_parts_node.2 ⟨node, children⟩

theorem allRegular_atom {token : Token} {a : Atom} (ok : l.result = .ok token)
    (atom : token.atom? = some a) : (Tree.node .datum [.leaf token.leafKind l]).AllRegular :=
  allRegular_node (.atom ok atom) (List.forall_mem_singleton.2 (allRegular_leaf (.token ok)))

theorem allRegular_datum (datum : (Tree.node .datum [.node k ts]).Regular) (notDatum : k ≠ .datum)
    (children : ∀ t ∈ ts, t.AllRegular) : (Tree.node .datum [.node k ts]).AllRegular :=
  allRegular_node datum (List.forall_mem_singleton.2 (allRegular_node (.other notDatum) children))

end Tree

namespace Parser

/-! ## Levels -/

structure Level.Regular (v : Level) : Prop where
  children : ∀ t ∈ v.children, t.AllRegular
  quotes : ∀ q ∈ v.quotes, ∀ t ∈ q, t.AllRegular

namespace Level

variable {v : Level} {t : Tree} {l : Lexeme}

theorem allRegular_quotedDatum {q : List Tree} (children : ∀ t ∈ q, t.AllRegular) :
    (quotedDatum q).AllRegular :=
  Tree.allRegular_datum .quoted nofun fun t member => children t (List.mem_reverse.1 member)

theorem allRegular_foldl_quotedDatum {qs : List (List Tree)} (quotes : ∀ q ∈ qs, ∀ t ∈ q, t.AllRegular)
    (datum : t.AllRegular) : (qs.foldl (fun d q => quotedDatum (d :: q)) t).AllRegular := by
  induction qs generalizing t with
  | nil => exact datum
  | cons q qs ih =>
      obtain ⟨first, others⟩ := List.forall_mem_cons.1 quotes
      exact ih others (allRegular_quotedDatum (List.forall_mem_cons.2 ⟨datum, first⟩))

namespace Regular

theorem addLeaf (regular : v.Regular) (leaf : t.AllRegular) : (v.addLeaf t).Regular := by
  obtain ⟨children, quotes⟩ := regular
  unfold Level.addLeaf
  split
  · exact ⟨List.forall_mem_cons.2 ⟨leaf, children⟩, quotes⟩
  · rename_i q qs opened
    rw [opened] at quotes
    obtain ⟨first, others⟩ := List.forall_mem_cons.1 quotes
    exact ⟨children, List.forall_mem_cons.2 ⟨List.forall_mem_cons.2 ⟨leaf, first⟩, others⟩⟩

theorem addDatum (regular : v.Regular) (datum : t.AllRegular) : (v.addDatum t).Regular where
  children := List.forall_mem_cons.2 ⟨allRegular_foldl_quotedDatum regular.quotes datum, regular.children⟩
  quotes := List.forall_mem_nil _

theorem endQuote (regular : v.Regular) : v.endQuote.Regular := by
  obtain ⟨children, quotes⟩ := regular
  unfold Level.endQuote
  split
  · exact ⟨children, quotes⟩
  · rename_i q qs opened
    rw [opened] at quotes
    obtain ⟨first, others⟩ := List.forall_mem_cons.1 quotes
    exact addDatum ⟨children, others⟩ (allRegular_quotedDatum first)

theorem addError (regular : v.Regular) (labels : LeafKind.Labels .error l) : (v.addError l).Regular :=
  (regular.addLeaf (Tree.allRegular_leaf labels)).endQuote

theorem listDatum (regular : v.Regular) : v.listDatum.AllRegular :=
  Tree.allRegular_datum .list nofun fun t member => regular.children t (List.mem_reverse.1 member)

end Regular

end Level

/-! ## States -/

structure State.Regular (s : State) : Prop where
  level : s.level.Regular
  enclosing : ∀ entry ∈ s.enclosing, entry.2.Regular

namespace State.Regular

variable {s : State} {l : Lexeme}

theorem settleQuote (regular : s.Regular) (span : Span) : (s.settleQuote span).Regular := by
  unfold State.settleQuote
  split
  · exact regular
  · exact ⟨regular.level.endQuote, regular.enclosing⟩

theorem closeList {outer : Level} {rest : List (Span × Level)} (regular : s.Regular)
    (around : outer.Regular) (others : ∀ entry ∈ rest, entry.2.Regular) :
    (s.closeList outer rest).Regular :=
  ⟨around.addDatum regular.level.listDatum, others⟩

theorem openParen (regular : s.Regular) (h : l.result = .ok .openParen) : (s.openParen l).Regular where
  level :=
    { children := List.forall_mem_singleton.2 (Tree.allRegular_leaf (.token h))
      quotes := List.forall_mem_nil _ }
  enclosing := List.forall_mem_cons.2 ⟨regular.level, regular.enclosing⟩

theorem closeParen (regular : s.Regular) (h : l.result = .ok .closeParen) : (s.closeParen l).Regular := by
  have settled := regular.settleQuote l.span
  unfold State.closeParen
  generalize s.settleQuote l.span = s at settled
  dsimp only
  split
  · exact ⟨settled.level.addError (.closeParen h), settled.enclosing⟩
  · rename_i opening outer rest enclosing
    obtain ⟨level, around⟩ := settled
    rw [enclosing] at around
    obtain ⟨first, others⟩ := List.forall_mem_cons.1 around
    have closed := level.addLeaf (Tree.allRegular_leaf (.token h))
    exact ⟨first.addDatum closed.listDatum, others⟩

theorem dot (regular : s.Regular) (h : l.result = .ok .dot) : (s.dot l).Regular := by
  have settled := regular.settleQuote l.span
  unfold State.dot
  generalize s.settleQuote l.span = s at settled
  dsimp only
  split
  · exact ⟨settled.level.addError (.dot h), settled.enclosing⟩
  · have added := settled.level.addLeaf (Tree.allRegular_leaf (.token h))
    exact ⟨⟨added.children, added.quotes⟩, settled.enclosing⟩

theorem quote (regular : s.Regular) (h : l.result = .ok .quote) : (s.quote l).Regular where
  level :=
    { children := regular.level.children
      quotes := List.forall_mem_cons.2
        ⟨List.forall_mem_singleton.2 (Tree.allRegular_leaf (.token h)), regular.level.quotes⟩ }
  enclosing := regular.enclosing

theorem step (regular : s.Regular) (l : Lexeme) : (s.step l).Regular := by
  have moved : State.Regular { s with stop := l.stop } := ⟨regular.level, regular.enclosing⟩
  cases l.role with
  | error e h =>
      rw [step_error h]
      exact ⟨regular.level.addError (.error h), regular.enclosing⟩
  | openParen h =>
      rw [step_openParen h]
      exact moved.openParen h
  | closeParen h =>
      rw [step_closeParen h]
      exact moved.closeParen h
  | quote h =>
      rw [step_quote h]
      exact moved.quote h
  | dot h =>
      rw [step_dot h]
      exact moved.dot h
  | trivia token h trivia =>
      rw [step_trivia h trivia]
      exact ⟨regular.level.addLeaf (Tree.allRegular_leaf (.token h)), regular.enclosing⟩
  | atom token a h atom =>
      rw [step_atom h atom]
      exact ⟨regular.level.addDatum (Tree.allRegular_atom h atom), regular.enclosing⟩

theorem run (regular : s.Regular) (ls : List Lexeme) : (ls.foldl State.step s).Regular := by
  induction ls generalizing s with
  | nil => exact regular
  | cons l ls ih => exact ih (regular.step l)

theorem closeAll (regular : s.Regular) {levels : List (Span × Level)}
    (around : ∀ entry ∈ levels, entry.2.Regular) : (s.closeAll levels).Regular := by
  induction levels generalizing s with
  | nil => exact ⟨regular.level, List.forall_mem_nil _⟩
  | cons entry rest ih =>
      obtain ⟨first, others⟩ := List.forall_mem_cons.1 around
      have reported : (s.report entry.1 .unclosedList).Regular := ⟨regular.level, regular.enclosing⟩
      exact ih (reported.closeList first others) others

theorem finish (regular : s.Regular) : s.finish.tree.AllRegular := by
  have settled := regular.settleQuote ⟨s.stop, s.stop⟩
  have closed := settled.closeAll settled.enclosing
  exact Tree.allRegular_node (.other nofun) fun t member =>
    closed.level.children t (List.mem_reverse.1 member)

end State.Regular

end Parser

theorem parse_regular (source : String) : (parse source).tree.AllRegular := by
  have start : Parser.State.Regular {} :=
    ⟨⟨List.forall_mem_nil _, List.forall_mem_nil _⟩, List.forall_mem_nil _⟩
  exact (start.run (lex source)).finish

end StoreScheme
