import StoreScheme.Proofs.Token.Tiling
import StoreScheme.Proofs.Tree.Steps

/-!
# Losslessness

Nothing of a source is lost: its lexemes tile it, and every lexeme becomes a leaf of its tree, once
and in its place, whatever errors there are.

* `Parser.State.leaves`: the lexemes in a state, in source order
* `Parser.State.leaves_step`: a step adds its lexeme at the end
* `Parser.State.leaves_finish`: the tree has the leaves of the last state
* `parse_lossless`: lexemes, leaves and text of a source
-/

namespace StoreScheme

/-- Where each leaf of a tree stands, as counted from the texts of the leaves. -/
def Tree.leafSpans (t : Tree) : List Span := textSpans 0 (t.leaves.map Lexeme.text)

theorem Tree.leavesAll_append (ts us : List Tree) :
    leavesAll (ts ++ us) = leavesAll ts ++ leavesAll us := by
  induction ts with
  | nil => rfl
  | cons t ts ih => simp [leavesAll, ih]

namespace Parser

/-! ## Leaves of a level -/

namespace Level

def quoteLeaves : List (List Tree) → List Lexeme
  | [] => []
  | q :: qs => quoteLeaves qs ++ Tree.leavesAll q.reverse

def leaves (v : Level) : List Lexeme := Tree.leavesAll v.children.reverse ++ quoteLeaves v.quotes

variable {v : Level}

theorem leaves_addLeaf (t : Tree) : (v.addLeaf t).leaves = v.leaves ++ t.leaves := by
  unfold addLeaf
  split
  · rename_i closed
    simp [leaves, closed, quoteLeaves, Tree.leavesAll_append, Tree.leavesAll]
  · rename_i q qs opened
    simp [leaves, opened, quoteLeaves, Tree.leavesAll_append, Tree.leavesAll]

theorem leaves_quotedDatum (q : List Tree) : (quotedDatum q).leaves = Tree.leavesAll q.reverse := by
  simp [quotedDatum, Tree.leaves, Tree.leavesAll]

theorem leaves_foldl_quotedDatum (qs : List (List Tree)) (d : Tree) :
    (qs.foldl (fun d q => quotedDatum (d :: q)) d).leaves = quoteLeaves qs ++ d.leaves := by
  induction qs generalizing d with
  | nil => rfl
  | cons q qs ih =>
      rw [List.foldl_cons, ih, leaves_quotedDatum]
      simp [quoteLeaves, Tree.leavesAll_append, Tree.leavesAll]

theorem leaves_addDatum (d : Tree) : (v.addDatum d).leaves = v.leaves ++ d.leaves := by
  have children : (v.addDatum d).leaves =
      Tree.leavesAll (v.children.reverse ++ [v.quotes.foldl (fun d q => quotedDatum (d :: q)) d]) := by
    simp [leaves, addDatum, quoteLeaves]
  rw [children, Tree.leavesAll_append]
  simp [Tree.leavesAll, leaves_foldl_quotedDatum, leaves]

theorem leaves_endQuote : v.endQuote.leaves = v.leaves := by
  unfold endQuote
  split
  · rfl
  · rename_i q qs opened
    rw [leaves_addDatum, leaves_quotedDatum]
    simp [leaves, opened, quoteLeaves]

theorem leaves_addError (l : Lexeme) : (v.addError l).leaves = v.leaves ++ [l] := by
  rw [addError, leaves_endQuote, leaves_addLeaf, Tree.leaves]

theorem leaves_listDatum (closed : v.quotes = []) : v.listDatum.leaves = v.leaves := by
  simp [listDatum, leaves, closed, quoteLeaves, Tree.leaves, Tree.leavesAll]

end Level

/-! ## Leaves of a state -/

namespace State

def enclosingLeaves : List (Span × Level) → List Lexeme
  | [] => []
  | (_, outer) :: rest => enclosingLeaves rest ++ outer.leaves

def leaves (s : State) : List Lexeme := enclosingLeaves s.enclosing ++ s.level.leaves

variable {s : State} {l : Lexeme}

theorem leaves_settleQuote (span : Span) : (s.settleQuote span).leaves = s.leaves := by
  unfold settleQuote
  split
  · rfl
  · simp [leaves, report, Level.leaves_endQuote]

theorem leaves_closeList {opening : Span} {outer : Level} {rest : List (Span × Level)}
    (closed : s.level.quotes = []) (enclosing : s.enclosing = (opening, outer) :: rest) :
    (s.closeList outer rest).leaves = s.leaves := by
  simp [leaves, closeList, enclosing, enclosingLeaves, Level.leaves_addDatum,
    Level.leaves_listDatum closed]

theorem leaves_openParen : (s.openParen l).leaves = s.leaves ++ [l] := by
  simp [leaves, openParen, enclosingLeaves, Level.leaves, Level.quoteLeaves, Tree.leavesAll,
    Tree.leaves]

theorem leaves_closeParen : (s.closeParen l).leaves = s.leaves ++ [l] := by
  unfold closeParen
  have settled := leaves_settleQuote (s := s) l.span
  have closed := quotes_settleQuote (s := s) l.span
  generalize s.settleQuote l.span = s at settled closed
  rw [← settled]
  dsimp only
  split
  · simp [leaves, report, Level.leaves_addError]
  · rename_i opening outer rest enclosing
    have stillClosed : (s.level.addLeaf (.leaf .closeParen l)).quotes = [] := by
      simp [Level.addLeaf, closed]
    have same := leaves_closeList
      (s := { s with level := s.level.addLeaf (.leaf .closeParen l) }) stillClosed enclosing
    rw [same]
    simp [leaves, Level.leaves_addLeaf, Tree.leaves]

theorem leaves_dot : (s.dot l).leaves = s.leaves ++ [l] := by
  unfold dot
  have settled := leaves_settleQuote (s := s) l.span
  generalize s.settleQuote l.span = s at settled
  rw [← settled]
  dsimp only
  split
  · simp [leaves, report, Level.leaves_addError]
  · have leaf := Level.leaves_addLeaf (v := s.level) (.leaf .dot l)
    simpa [leaves, Level.leaves, Tree.leaves] using leaf

theorem leaves_quote : (s.quote l).leaves = s.leaves ++ [l] := by
  simp [leaves, quote, Level.leaves, Level.quoteLeaves, Tree.leavesAll, Tree.leaves]

theorem leaves_step : (s.step l).leaves = s.leaves ++ [l] := by
  cases l.role with
  | error e h =>
      rw [step_error h]
      simp [leaves, report, Level.leaves_addError]
  | openParen h => rw [step_openParen h, leaves_openParen]; rfl
  | closeParen h => rw [step_closeParen h, leaves_closeParen]; rfl
  | quote h => rw [step_quote h, leaves_quote]; rfl
  | dot h => rw [step_dot h, leaves_dot]; rfl
  | trivia token h trivia =>
      rw [step_trivia h trivia]
      simp [leaves, Level.leaves_addLeaf, Tree.leaves]
  | atom token a h atom =>
      rw [step_atom h atom]
      simp [leaves, Level.leaves_addDatum, Tree.leaves, Tree.leavesAll]

theorem leaves_foldl_step (ls : List Lexeme) : (ls.foldl step s).leaves = s.leaves ++ ls := by
  induction ls generalizing s with
  | nil => simp
  | cons l ls ih => rw [List.foldl_cons, ih, leaves_step, List.append_assoc, List.singleton_append]

/-! ## The end of the source -/

theorem leaves_closeAll (closed : s.level.quotes = []) :
    (s.closeAll s.enclosing).leaves = s.leaves ∧ (s.closeAll s.enclosing).level.quotes = [] ∧
      (s.closeAll s.enclosing).enclosing = [] := by
  generalize enclosing : s.enclosing = levels
  induction levels generalizing s with
  | nil => simp [closeAll, leaves, enclosing, closed]
  | cons entry rest ih =>
      obtain ⟨opening, outer⟩ := entry
      let reported := s.report opening .unclosedList
      have same := leaves_closeList (s := reported) closed enclosing
      obtain ⟨leaves', rest'⟩ := ih (s := reported.closeList outer rest) rfl rfl
      exact ⟨leaves'.trans same, rest'⟩

theorem leaves_finish : s.finish.tree.leaves = s.leaves := by
  have settled := leaves_settleQuote (s := s) ⟨s.stop, s.stop⟩
  have closed := quotes_settleQuote (s := s) ⟨s.stop, s.stop⟩
  unfold finish
  generalize s.settleQuote ⟨s.stop, s.stop⟩ = s at settled closed
  obtain ⟨same, noQuotes, noLists⟩ := leaves_closeAll closed
  rw [← settled, ← same]
  simp [Tree.leaves, leaves, noQuotes, noLists, enclosingLeaves, Level.leaves, Level.quoteLeaves]

end State

end Parser

theorem parse_leaves (source : String) : (parse source).tree.leaves = lex source := by
  have start : ({} : Parser.State).leaves = [] := rfl
  rw [parse, Parser.ofLexemes, Parser.State.leaves_finish, Parser.State.leaves_foldl_step, start,
    List.nil_append]

/-! ## Sources -/

/-- The spans of the lexemes of a source are not empty and lead from its start to its end without gap
or overlap, between characters; the leaves of its tree are these lexemes, in order and each once, so
that the text of the tree is the source and each leaf stands where its lexeme does. -/
theorem parse_lossless (source : String) :
    Span.Tile 0 source.utf8ByteSize ((lex source).map Lexeme.span) ∧
    (∀ l ∈ lex source, Bytes.isBoundary l.start source.toList = true ∧
      Bytes.isBoundary l.stop source.toList = true ∧
      Bytes.slice l.start l.stop source.toList = l.text) ∧
    (parse source).tree.leaves = lex source ∧
    (parse source).tree.text = source ∧
    (parse source).tree.leafSpans = (lex source).map Lexeme.span := by
  have tiling := lex_tiling source
  have size : Bytes.size source.toList = source.utf8ByteSize := by
    rw [Bytes.size, String.ofList_toList]
  refine ⟨?_, fun l member => ?_, parse_leaves source, ?_, ?_⟩
  · have tile := tiling.tile
    rwa [Nat.zero_add, size] at tile
  · obtain ⟨before, text, after, whole, own, start⟩ := tiling.cut member
    rw [Nat.zero_add] at start
    have stop : l.stop = Bytes.size (before ++ text) := by
      rw [Tiling.stop_eq own, start, Bytes.size_append]
    refine ⟨?_, ?_, ?_⟩
    · rw [whole, start]
      exact Bytes.isBoundary_append _ _
    · rw [whole, stop, ← List.append_assoc]
      exact Bytes.isBoundary_append _ _
    · rw [whole, stop, start, Bytes.size_append, Bytes.slice_append, own]
  · rw [Tree.text, parse_leaves, tiling.join, String.ofList_toList]
  · rw [Tree.leafSpans, parse_leaves, tiling.textSpans_eq]

end StoreScheme
