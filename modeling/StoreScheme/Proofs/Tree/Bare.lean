import StoreScheme.Proofs.Tree.Steps

/-!
# Bare trees

A tree is bare once its trivia are left out and the places and spellings of all lexemes are set aside.
The parser does not look at any of these: what it makes of a source is, laid bare, what it makes of the
bare lexemes of the source that are not trivia.

* `Lexeme.bare`, `Tree.bare`, `Parsed.bare`: what is left without trivia, places and spellings
* `Parser.State.step_bare`, `Parser.State.run_bare`: one lexeme, and all of them
* `Parser.ofLexemes_bare`: the bare outcome of parsing
-/

namespace StoreScheme

/-- The place of whatever has none. -/
def nowhere : Span := ⟨0, 0⟩

def Lexeme.bare (l : Lexeme) : Lexeme := ⟨l.result, "", 0⟩

theorem Lexeme.span_bare (l : Lexeme) : l.bare.span = nowhere := rfl

theorem Lexeme.stop_bare (l : Lexeme) : l.bare.stop = 0 := rfl

def LeafKind.isTrivia : LeafKind → Bool
  | .comment | .directive | .whitespace | .lineEnding => true
  | _ => false

namespace Tree

def isTrivia : Tree → Bool
  | .leaf kind _ => kind.isTrivia
  | .node _ _ => false

mutual

def bare : Tree → Tree
  | .leaf kind l => .leaf kind l.bare
  -- There is nothing beside what a datum is made of.
  | .node .datum children => .node .datum (bareEach children)
  | .node kind children => .node kind (bareAll children)

def bareEach : List Tree → List Tree
  | [] => []
  | t :: ts => t.bare :: bareEach ts

/-- Bare trees without the trivia between them. -/
def bareAll : List Tree → List Tree
  | [] => []
  | t :: ts => if t.isTrivia then bareAll ts else t.bare :: bareAll ts

end

theorem bareAll_eq (ts : List Tree) : bareAll ts = (ts.filter fun t => !t.isTrivia).map bare := by
  induction ts with
  | nil => rfl
  | cons t ts ih => cases trivia : t.isTrivia <;> simp [bareAll, trivia, ih]

theorem bareAll_reverse (ts : List Tree) : bareAll ts.reverse = (bareAll ts).reverse := by
  simp only [bareAll_eq, List.filter_reverse, List.map_reverse]

theorem bareAll_cons {t : Tree} (notTrivia : t.isTrivia = false) (ts : List Tree) :
    bareAll (t :: ts) = t.bare :: bareAll ts := by
  simp [bareAll, notTrivia]

end Tree

def ParseError.bare (e : ParseError) : ParseError := ⟨nowhere, e.kind⟩

def Parsed.bare (p : Parsed) : Parsed := ⟨p.tree.bare, p.errors.map ParseError.bare⟩

namespace Parser

/-! ## Levels -/

namespace Level

def bare (v : Level) : Level where
  children := Tree.bareAll v.children
  quotes := v.quotes.map Tree.bareAll
  before := v.before
  after := v.after
  dot := v.dot.map fun _ => nowhere

variable (v : Level)

theorem quotedDatum_bare (children : List Tree) :
    (quotedDatum children).bare = quotedDatum (Tree.bareAll children) := by
  simp [quotedDatum, Tree.bare, Tree.bareEach, Tree.bareAll_reverse]

theorem listDatum_bare : v.listDatum.bare = v.bare.listDatum := by
  simp [listDatum, bare, Tree.bare, Tree.bareEach, Tree.bareAll_reverse]

theorem addLeaf_trivia {t : Tree} (trivia : t.isTrivia = true) : (v.addLeaf t).bare = v.bare := by
  unfold addLeaf
  split
  · simp [bare, Tree.bareAll, trivia]
  · rename_i quotes
    simp [bare, Tree.bareAll, trivia, quotes]

theorem addLeaf_bare {t : Tree} (notTrivia : t.isTrivia = false) :
    (v.addLeaf t).bare = v.bare.addLeaf t.bare := by
  unfold addLeaf
  cases quotes : v.quotes <;> simp [bare, Tree.bareAll, notTrivia, quotes]

theorem foldl_quotedDatum_bare (quotes : List (List Tree)) {d : Tree} (notTrivia : d.isTrivia = false) :
    (quotes.foldl (fun d q => quotedDatum (d :: q)) d).bare =
      (quotes.map Tree.bareAll).foldl (fun d q => quotedDatum (d :: q)) d.bare := by
  induction quotes generalizing d with
  | nil => rfl
  | cons q quotes ih =>
      have rest := ih (d := quotedDatum (d :: q)) rfl
      simpa only [List.foldl_cons, List.map_cons, quotedDatum_bare, Tree.bareAll_cons notTrivia] using rest

theorem isTrivia_foldl_quotedDatum (quotes : List (List Tree)) {d : Tree} (notTrivia : d.isTrivia = false) :
    (quotes.foldl (fun d q => quotedDatum (d :: q)) d).isTrivia = false := by
  induction quotes generalizing d with
  | nil => exact notTrivia
  | cons q quotes ih => exact ih rfl

theorem addDatum_bare {d : Tree} (notTrivia : d.isTrivia = false) :
    (v.addDatum d).bare = v.bare.addDatum d.bare := by
  have whole := foldl_quotedDatum_bare v.quotes notTrivia
  have kept := isTrivia_foldl_quotedDatum v.quotes notTrivia
  unfold addDatum
  cases dot : v.dot <;> simp [bare, dot, Tree.bareAll_cons kept, whole]

theorem endQuote_bare : v.endQuote.bare = v.bare.endQuote := by
  unfold endQuote
  cases quotes : v.quotes with
  | nil => simp [bare, quotes]
  | cons q qs =>
      have ended := addDatum_bare { v with quotes := qs } (d := quotedDatum q) rfl
      simpa [bare, quotes, quotedDatum_bare] using ended

theorem addError_bare (l : Lexeme) : (v.addError l).bare = v.bare.addError l.bare := by
  unfold addError
  rw [endQuote_bare, addLeaf_bare v rfl]
  rfl

theorem dotError_bare : v.bare.dotError = v.dotError.map ParseError.bare := by
  unfold dotError
  cases dot : v.dot with
  | none => simp [bare, dot]
  | some span =>
      simp only [bare, dot, Option.map_some]
      split <;> rfl

end Level

/-! ## States -/

namespace State

def bare (s : State) : State where
  level := s.level.bare
  enclosing := s.enclosing.map fun (_, v) => (nowhere, v.bare)
  errors := s.errors.map ParseError.bare

variable (s : State) (l : Lexeme)

theorem closeList_bare (outer : Level) (enclosing : List (Span × Level)) :
    (s.closeList outer enclosing).bare =
      s.bare.closeList outer.bare (enclosing.map fun (_, v) => (nowhere, v.bare)) := by
  simp only [closeList, bare, Level.dotError_bare, ← Level.listDatum_bare, List.map_append, List.map_reverse,
    outer.addDatum_bare (d := s.level.listDatum) rfl]

theorem settleQuote_bare (span : Span) : (s.settleQuote span).bare = s.bare.settleQuote nowhere := by
  have waiting : s.bare.level.quotes.isEmpty = s.level.quotes.isEmpty := List.isEmpty_map
  unfold settleQuote
  rw [waiting]
  split
  · rfl
  · simp only [bare, report, ParseError.bare, Level.endQuote_bare, List.map_cons]

theorem closeParen_bare : (s.closeParen l).bare = s.bare.closeParen l.bare := by
  have settled := s.settleQuote_bare l.span
  unfold closeParen
  rw [Lexeme.span_bare, ← settled]
  generalize s.settleQuote l.span = s'
  cases enclosing : s'.enclosing with
  | nil =>
      simp only [bare, report, ParseError.bare, enclosing, List.map_nil, Level.addError_bare, List.map_cons]
  | cons entry rest =>
      have closed := closeList_bare { s' with level := s'.level.addLeaf (.leaf .closeParen l) } entry.2 rest
      simp only [bare, enclosing, List.map_cons] at closed ⊢
      rw [closed, Level.addLeaf_bare _ rfl]
      rfl

theorem dot_bare : (s.dot l).bare = s.bare.dot l.bare := by
  have settled := s.settleQuote_bare l.span
  unfold dot
  rw [Lexeme.span_bare, ← settled]
  generalize s.settleQuote l.span = s'
  have misplaced : (s'.bare.enclosing.isEmpty || s'.bare.level.dot.isSome) =
      (s'.enclosing.isEmpty || s'.level.dot.isSome) := by
    simp [bare, Level.bare]
  simp only [misplaced]
  split
  · simp only [bare, report, ParseError.bare, Level.addError_bare, List.map_cons]
  · have marked : Level.bare { s'.level.addLeaf (.leaf .dot l) with dot := some l.span } =
        { (s'.level.addLeaf (.leaf .dot l)).bare with dot := some nowhere } := rfl
    simp only [bare, marked, s'.level.addLeaf_bare (t := .leaf .dot l) rfl]
    rfl

theorem step_bare : (s.step l).bare = if l.isTrivia then s.bare else s.bare.step l.bare := by
  have same : l.bare.result = l.result := rfl
  cases l.role with
  | error e h =>
      rw [Lexeme.isTrivia_error h, step_error h, step_error (same.trans h)]
      simp [bare, report, ParseError.bare, Level.addError_bare, Lexeme.stop_bare, Lexeme.span_bare]
  | openParen h =>
      rw [Lexeme.isTrivia_ok h, step_openParen h, step_openParen (same.trans h)]
      rfl
  | closeParen h =>
      rw [Lexeme.isTrivia_ok h, step_closeParen h, step_closeParen (same.trans h), closeParen_bare]
      rfl
  | quote h =>
      rw [Lexeme.isTrivia_ok h, step_quote h, step_quote (same.trans h)]
      rfl
  | dot h =>
      rw [Lexeme.isTrivia_ok h, step_dot h, step_dot (same.trans h), dot_bare]
      rfl
  | trivia token h trivia =>
      have leaf : (Tree.leaf token.leafKind l).isTrivia = true := by
        cases token <;> first | rfl | cases trivia
      rw [Lexeme.isTrivia_ok h, step_trivia h trivia, if_pos trivia]
      simp only [bare, Level.addLeaf_trivia _ leaf]
  | atom token a h atom =>
      rw [Lexeme.isTrivia_atom h atom, step_atom h atom, step_atom (same.trans h) atom]
      simp only [bare, Level.addDatum_bare _ (d := .node .datum [.leaf token.leafKind l]) rfl]
      rfl

theorem run_bare (ls : List Lexeme) :
    (ls.foldl step s).bare = ((significant ls).map Lexeme.bare).foldl step s.bare := by
  induction ls generalizing s with
  | nil => rfl
  | cons l ls ih =>
      rw [List.foldl_cons, ih, step_bare]
      cases trivia : l.isTrivia <;> simp [significant, trivia]

theorem closeAll_bare (enclosing : List (Span × Level)) :
    (s.closeAll enclosing).bare = s.bare.closeAll (enclosing.map fun (_, v) => (nowhere, v.bare)) := by
  induction enclosing generalizing s with
  | nil => rfl
  | cons entry rest ih => simp only [closeAll, List.map_cons, ih, closeList_bare]; rfl

theorem finish_bare : s.finish.bare = s.bare.finish := by
  have settled : s.bare.settleQuote ⟨s.bare.stop, s.bare.stop⟩ =
      (s.settleQuote ⟨s.stop, s.stop⟩).bare := (s.settleQuote_bare _).symm
  unfold finish
  rw [settled]
  generalize s.settleQuote ⟨s.stop, s.stop⟩ = s'
  have closed : s'.bare.closeAll s'.bare.enclosing = (s'.closeAll s'.enclosing).bare :=
    (s'.closeAll_bare _).symm
  simp only [closed, Parsed.bare, Tree.bare, Tree.bareAll_reverse, List.map_reverse]
  rfl

end State

theorem ofLexemes_bare (ls : List Lexeme) :
    (ofLexemes ls).bare = ofLexemes ((significant ls).map Lexeme.bare) := by
  unfold ofLexemes
  rw [State.finish_bare, State.run_bare]
  rfl

end Parser

end StoreScheme
