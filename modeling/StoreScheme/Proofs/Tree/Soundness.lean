import StoreScheme.Proofs.Tree.ErrorPlaces
import StoreScheme.Proofs.Tree.Shape

/-!
# Shapes and the parser

The parser keeps to the shapes of nodes at every lexeme.  What it has read of a list is a parenthesis and
items after it, one of which may be a dot; what it has read of a quote is the quote and trivia.  All other
nodes are complete when they are made, and what is wrong with them is reported by then.

* `Parser.Level.Sound`, `Parser.Nested`: what has been read of the open lists and quotes
* `Parser.State.Sound.step`, `Parser.State.Sound.run`: one lexeme, and all of them
* `parse_sound`: the parts of the tree of a source
-/

namespace StoreScheme

namespace Parser

variable {errors errors' : List ParseError} {l o : Lexeme} {t : Tree}

/-! ## Levels -/

/-- What is read of the root or of a list after its parenthesis, with the number of dots in it. -/
structure Body (errors : List ParseError) (dots : Nat) (ts : List Tree) : Prop where
  sound : ∀ t ∈ ts, t.AllSound errors
  items : ∀ k ∈ Tree.kinds ts, k.isItem = true ∨ k = .leaf .dot
  dots : (Tree.kinds ts).count (.leaf .dot) = dots

/-- What is read of an open quote: the quote, and trivia after it. -/
def OpenQuote (q : List Tree) : Prop :=
  ∃ trivia m, q = trivia ++ [.leaf .quoteMark m] ∧ ∀ t ∈ trivia, t.kind.isTrivia = true

/-- A level that begins with some trees, of which there are none in the root. -/
structure Level.Sound (errors : List ParseError) (opening : List Tree) (v : Level) : Prop where
  children : ∃ body, v.children = body ++ opening ∧ Body errors v.dot.toList.length body
  quotes : ∀ q ∈ v.quotes, OpenQuote q

namespace Body

variable {dots : Nat} {ts : List Tree}

theorem nil : Body errors 0 [] := ⟨List.forall_mem_nil _, List.forall_mem_nil _, rfl⟩

theorem mono (body : Body errors dots ts) (more : errors ⊆ errors') : Body errors' dots ts :=
  ⟨fun t member => (body.sound t member).mono more, body.items, body.dots⟩

theorem cons (body : Body errors dots ts) (sound : t.AllSound errors) (item : t.kind.isItem = true) :
    Body errors dots (t :: ts) where
  sound := List.forall_mem_cons.2 ⟨sound, body.sound⟩
  items := List.forall_mem_cons.2 ⟨.inl item, body.items⟩
  dots := by
    have notDot : t.kind ≠ .leaf .dot := by
      intro isDot
      rw [isDot] at item
      cases item
    rw [Tree.kinds_cons, List.count_cons_of_ne notDot, body.dots]

theorem cons_dot (body : Body errors dots ts) : Body errors (dots + 1) (.leaf .dot l :: ts) where
  sound := List.forall_mem_cons.2 ⟨Tree.allSound_leaf nofun, body.sound⟩
  items := List.forall_mem_cons.2 ⟨.inr rfl, body.items⟩
  dots := by rw [Tree.kinds_cons, Tree.kind_leaf, List.count_cons_self, body.dots]

theorem isItem (body : Body errors 0 ts) : ∀ k ∈ Tree.kinds ts, k.isItem = true := by
  intro k member
  refine (body.items k member).resolve_right ?_
  rintro rfl
  exact List.count_eq_zero.1 body.dots member

theorem closeParen_not_mem (body : Body errors dots ts) : .leaf .closeParen ∉ Tree.kinds ts :=
  NodeKind.Shape.not_mem_body body.items rfl nofun

end Body

theorem OpenQuote.allSound_quotedDatum {q operand : List Tree} (opened : OpenQuote q)
    (kinds : IsOperand (Tree.kinds operand)) (sound : ∀ t ∈ operand, t.AllSound errors) :
    (Level.quotedDatum (operand ++ q)).AllSound errors := by
  obtain ⟨trivia, m, rfl, isTrivia⟩ := opened
  have operand' : Tree.kinds operand.reverse = Tree.kinds operand := by
    rcases kinds with none | datum | error <;> simp [*]
  have inOrder : Tree.kinds (operand ++ (trivia ++ [Tree.leaf .quoteMark m])).reverse =
      .leaf .quoteMark :: (Tree.kinds trivia.reverse ++ Tree.kinds operand) := by
    rw [← operand']
    simp
  refine Tree.allSound_datum rfl (Tree.allSound_node nofun ?_ fun t member => ?_)
  · rw [inOrder]
    refine .quoted (Tree.forall_mem_kinds.2 fun t member => ?_) kinds
    exact isTrivia t (List.mem_reverse.1 member)
  · rw [List.mem_reverse, List.mem_append, List.mem_append] at member
    rcases member with inOperand | inTrivia | isQuote
    · exact sound t inOperand
    · exact Tree.allSound_trivia (isTrivia t inTrivia)
    · rw [List.mem_singleton.1 isQuote]
      exact Tree.allSound_leaf nofun

theorem foldl_quotedDatum_sound {qs : List (List Tree)} (opened : ∀ q ∈ qs, OpenQuote q)
    (sound : t.AllSound errors) (datum : t.kind = .node .datum) :
    (qs.foldl (fun d q => Level.quotedDatum (d :: q)) t).AllSound errors ∧
      (qs.foldl (fun d q => Level.quotedDatum (d :: q)) t).kind = .node .datum := by
  induction qs generalizing t with
  | nil => exact ⟨sound, datum⟩
  | cons q qs ih =>
      obtain ⟨first, others⟩ := List.forall_mem_cons.1 opened
      have kinds : Tree.kinds [t] = [.node .datum] := congrArg (fun k => [k]) datum
      have quoted := first.allSound_quotedDatum (.inr (.inl kinds)) (List.forall_mem_singleton.2 sound)
      exact ih others quoted rfl

theorem Body.allSound_list {dots : Nat} {body closing : List Tree} (read : Body errors dots body)
    (single : dots ≤ 1)
    (ends : closing = [] ∧ ⟨o.span, .unclosedList⟩ ∈ errors ∨ ∃ c, closing = [.leaf .closeParen c]) :
    (Tree.node .list (.leaf .openParen o :: (body.reverse ++ closing))).AllSound errors := by
  have kinds : Tree.kinds closing = [] ∨ Tree.kinds closing = [.leaf .closeParen] := by
    rcases ends with ⟨rfl, -⟩ | ⟨c, rfl⟩
    · exact .inl rfl
    · exact .inr rfl
  refine Tree.forall_parts_node.2 ⟨⟨?_, fun _ noClose => ?_⟩, ?_⟩
  · rw [Tree.kinds_cons, Tree.kinds_append, Tree.kinds_reverse]
    refine .list (fun k member => read.items k (List.mem_reverse.1 member)) ?_ kinds
    rw [List.count_reverse, read.dots]
    exact single
  · rcases ends with ⟨-, reported⟩ | ⟨c, rfl⟩
    · exact ⟨o, _, rfl, reported⟩
    · exact absurd (by simp) noClose
  · refine List.forall_mem_cons.2 ⟨Tree.allSound_leaf nofun, List.forall_mem_append.2 ⟨?_, ?_⟩⟩
    · exact fun t member => read.sound t (List.mem_reverse.1 member)
    · rcases ends with ⟨rfl, -⟩ | ⟨c, rfl⟩
      · exact List.forall_mem_nil _
      · exact List.forall_mem_singleton.2 (Tree.allSound_leaf nofun)

theorem Level.length_dot (v : Level) : v.dot.toList.length ≤ 1 := by
  cases v.dot <;> simp

namespace Level.Sound

variable {v : Level} {opening : List Tree}

theorem mono (sound : v.Sound errors opening) (more : errors ⊆ errors') : v.Sound errors' opening := by
  obtain ⟨body, children, read⟩ := sound.children
  exact ⟨⟨body, children, read.mono more⟩, sound.quotes⟩

theorem addTrivia (sound : v.Sound errors opening) (trivia : t.kind.isTrivia = true) :
    (v.addLeaf t).Sound errors opening := by
  obtain ⟨⟨body, children, read⟩, quotes⟩ := sound
  unfold Level.addLeaf
  split
  · have item := PartKind.isItem_of_isTrivia trivia
    exact ⟨⟨t :: body, by simp [children], read.cons (Tree.allSound_trivia trivia) item⟩, quotes⟩
  · rename_i q qs opened
    rw [opened] at quotes
    obtain ⟨⟨others, m, rfl, isTrivia⟩, rest⟩ := List.forall_mem_cons.1 quotes
    refine ⟨⟨body, children, read⟩, List.forall_mem_cons.2 ⟨⟨t :: others, m, rfl, ?_⟩, rest⟩⟩
    exact List.forall_mem_cons.2 ⟨trivia, isTrivia⟩

theorem addDatum (sound : v.Sound errors opening) (datum : t.kind = .node .datum)
    (whole : t.AllSound errors) : (v.addDatum t).Sound errors opening := by
  obtain ⟨⟨body, children, read⟩, quotes⟩ := sound
  obtain ⟨quoted, kind⟩ := foldl_quotedDatum_sound quotes whole datum
  refine ⟨⟨_ :: body, congrArg (List.cons _) children, ?_⟩, List.forall_mem_nil _⟩
  rw [dot_addDatum]
  exact read.cons quoted (by rw [kind]; rfl)

/-- Ends the innermost open quote with what it applies to, if there is anything. -/
theorem endQuote_with {q : List Tree} {qs : List (List Tree)} (sound : v.Sound errors opening)
    (opened : v.quotes = q :: qs) (operand : List Tree) (kinds : IsOperand (Tree.kinds operand))
    (whole : ∀ t ∈ operand, t.AllSound errors) :
    (Level.endQuote { v with quotes := (operand ++ q) :: qs }).Sound errors opening := by
  obtain ⟨children, quotes⟩ := sound
  rw [opened] at quotes
  obtain ⟨first, others⟩ := List.forall_mem_cons.1 quotes
  have rest : Level.Sound errors opening { v with quotes := qs } := ⟨children, others⟩
  exact rest.addDatum rfl (first.allSound_quotedDatum kinds whole)

theorem endQuote (sound : v.Sound errors opening) : v.endQuote.Sound errors opening := by
  cases opened : v.quotes with
  | nil => simpa only [Level.endQuote, opened] using sound
  | cons q qs =>
      have ended := sound.endQuote_with opened [] (.inl rfl) (List.forall_mem_nil _)
      rwa [List.nil_append, ← opened] at ended

-- Under an open quote the error is what the quote applies to, otherwise it is an item of its own.
theorem addError (sound : v.Sound errors opening) (error : (Tree.leaf .error l).AllSound errors) :
    (v.addError l).Sound errors opening := by
  cases opened : v.quotes with
  | nil =>
      obtain ⟨⟨body, children, read⟩, -⟩ := sound
      refine ⟨⟨.leaf .error l :: body, ?_, ?_⟩, ?_⟩
      · simp [Level.addError, Level.addLeaf, Level.endQuote, opened, children]
      · rw [dot_addError]
        exact read.cons error rfl
      · rw [quotes_addError]
        exact List.forall_mem_nil _
  | cons q qs =>
      have ended := sound.endQuote_with opened [.leaf .error l] (.inr (.inr rfl))
        (List.forall_mem_singleton.2 error)
      rw [Level.addError, Level.addLeaf, opened]
      exact ended

theorem addDot (sound : v.Sound errors opening) (closed : v.quotes = []) (first : v.dot = none) :
    Level.Sound errors opening { v.addLeaf (.leaf .dot l) with dot := some l.span } := by
  obtain ⟨⟨body, children, read⟩, quotes⟩ := sound
  rw [first] at read
  refine ⟨⟨.leaf .dot l :: body, by simp [Level.addLeaf, closed, children], read.cons_dot⟩, ?_⟩
  simp [Level.addLeaf, closed]

theorem addQuote (sound : v.Sound errors opening) :
    Level.Sound errors opening { v with quotes := [.leaf .quoteMark l] :: v.quotes } :=
  ⟨sound.children, List.forall_mem_cons.2 ⟨⟨[], l, rfl, List.forall_mem_nil _⟩, sound.quotes⟩⟩

theorem closedList (sound : v.Sound errors [.leaf .openParen o]) (closed : v.quotes = []) :
    (v.addLeaf (.leaf .closeParen l)).listDatum.AllSound errors := by
  obtain ⟨body, children, read⟩ := sound.children
  have inOrder : (v.addLeaf (.leaf .closeParen l)).children.reverse =
      .leaf .openParen o :: (body.reverse ++ [.leaf .closeParen l]) := by
    simp [Level.addLeaf, closed, children]
  rw [Level.listDatum, inOrder]
  exact Tree.allSound_datum rfl (read.allSound_list (length_dot v) (.inr ⟨l, rfl⟩))

theorem unclosedList (sound : v.Sound errors [.leaf .openParen o])
    (reported : ⟨o.span, .unclosedList⟩ ∈ errors) : v.listDatum.AllSound errors := by
  obtain ⟨body, children, read⟩ := sound.children
  have inOrder : v.children.reverse = .leaf .openParen o :: (body.reverse ++ []) := by simp [children]
  rw [Level.listDatum, inOrder]
  exact Tree.allSound_datum rfl (read.allSound_list (length_dot v) (.inl ⟨rfl, reported⟩))

end Level.Sound

/-! ## States -/

/-- A level inside others: the root is outermost and has no dot, the others are lists. -/
inductive Nested (errors : List ParseError) : Level → List (Span × Level) → Prop
  | root {v : Level} : v.Sound errors [] → v.dot = none → Nested errors v []
  | list {v outer : Level} {o : Lexeme} {rest : List (Span × Level)} :
    v.Sound errors [.leaf .openParen o] → Nested errors outer rest →
    Nested errors v ((o.span, outer) :: rest)

def State.Sound (s : State) : Prop := Nested s.errors s.level s.enclosing

namespace Nested

variable {v w : Level} {rest : List (Span × Level)}

theorem mono (nested : Nested errors v rest) (more : errors ⊆ errors') : Nested errors' v rest := by
  induction nested with
  | root sound noDot => exact .root (sound.mono more) noDot
  | list sound _ ih => exact .list (sound.mono more) ih

theorem update (nested : Nested errors v rest)
    (sound : ∀ opening, v.Sound errors opening → w.Sound errors opening) (dot : w.dot = v.dot) :
    Nested errors w rest := by
  cases nested with
  | root own noDot => exact .root (sound [] own) (dot.trans noDot)
  | list own outer => exact .list (sound _ own) outer

theorem addDatum (nested : Nested errors v rest) (datum : t.kind = .node .datum)
    (whole : t.AllSound errors) : Nested errors (v.addDatum t) rest :=
  nested.update (fun _ sound => sound.addDatum datum whole) (Level.dot_addDatum t)

theorem addError (nested : Nested errors v rest) (error : (Tree.leaf .error l).AllSound errors) :
    Nested errors (v.addError l) rest :=
  nested.update (fun _ sound => sound.addError error) (Level.dot_addError l)

theorem addDot (nested : Nested errors v rest) (inside : rest ≠ []) (closed : v.quotes = [])
    (first : v.dot = none) :
    Nested errors { v.addLeaf (.leaf .dot l) with dot := some l.span } rest := by
  cases nested with
  | root _ _ => exact absurd rfl inside
  | list own outer => exact .list (own.addDot closed first) outer

end Nested

theorem State.sound_start : State.Sound {} := .root ⟨⟨[], rfl, .nil⟩, List.forall_mem_nil _⟩ rfl

namespace State.Sound

variable {s : State}

theorem report_error (sound : s.Sound) {kind : ParseErrorKind} (misfit : kind.isMisfit = true) :
    State.Sound { s.report l.span kind with level := s.level.addError l } := by
  have reported : Nested (⟨l.span, kind⟩ :: s.errors) s.level s.enclosing :=
    sound.mono (List.subset_cons_self _ _)
  exact reported.addError (Tree.allSound_error List.mem_cons_self rfl misfit)

theorem settleQuote (sound : s.Sound) (span : Span) : (s.settleQuote span).Sound := by
  unfold State.settleQuote
  split
  · exact sound
  · have reported : Nested (⟨span, .danglingQuote⟩ :: s.errors) s.level s.enclosing :=
      sound.mono (List.subset_cons_self _ _)
    exact reported.update (fun _ own => own.endQuote) Level.dot_endQuote

theorem closeParen (sound : s.Sound) : (s.closeParen l).Sound := by
  have settled := sound.settleQuote l.span
  have closed := quotes_settleQuote (s := s) l.span
  unfold State.closeParen
  generalize s.settleQuote l.span = s at settled closed
  dsimp only
  split
  · exact settled.report_error rfl
  · rename_i opening outer rest enclosing
    rw [State.Sound, enclosing] at settled
    cases settled with
    | list own around =>
        have more : s.errors ⊆ (s.level.addLeaf (.leaf .closeParen l)).dotError.reverse ++ s.errors :=
          List.subset_append_right _ _
        exact (around.mono more).addDatum rfl ((own.mono more).closedList closed)

theorem dot (sound : s.Sound) : (s.dot l).Sound := by
  have settled := sound.settleQuote l.span
  have closed := quotes_settleQuote (s := s) l.span
  unfold State.dot
  generalize s.settleQuote l.span = s at settled closed
  dsimp only
  split
  · exact settled.report_error rfl
  · rename_i placed
    rw [Bool.or_eq_true, not_or, List.isEmpty_iff, Option.not_isSome_iff_eq_none] at placed
    exact Nested.addDot settled placed.1 closed placed.2

theorem step (sound : s.Sound) (l : Lexeme) : (s.step l).Sound := by
  have moved : State.Sound { s with stop := l.stop } := sound
  cases l.role with
  | error e h =>
      rw [step_error h]
      exact moved.report_error rfl
  | openParen h =>
      rw [step_openParen h]
      exact .list ⟨⟨[], rfl, .nil⟩, List.forall_mem_nil _⟩ sound
  | closeParen h =>
      rw [step_closeParen h]
      exact moved.closeParen
  | quote h =>
      rw [step_quote h]
      exact sound.update (fun _ own => own.addQuote) rfl
  | dot h =>
      rw [step_dot h]
      exact moved.dot
  | trivia token h trivia =>
      rw [step_trivia h trivia]
      have isTrivia : (Tree.leaf token.leafKind l).kind.isTrivia = true := by
        cases token <;> trivial
      exact sound.update (fun _ own => own.addTrivia isTrivia) (Level.dot_addLeaf _)
  | atom token a h atom =>
      rw [step_atom h atom]
      have content : (Tree.leaf token.leafKind l).kind.isContent = true := by
        cases token <;> trivial
      have notError : token.leafKind ≠ .error := by cases token <;> nofun
      exact sound.addDatum rfl (Tree.allSound_datum content (Tree.allSound_leaf notError))

theorem run (sound : s.Sound) (ls : List Lexeme) : (ls.foldl State.step s).Sound := by
  induction ls generalizing s with
  | nil => exact sound
  | cons l ls ih => exact ih (sound.step l)

theorem closeUnclosed {opening : Span} {outer : Level} {rest : List (Span × Level)} (sound : s.Sound)
    (enclosing : s.enclosing = (opening, outer) :: rest) :
    ((s.report opening .unclosedList).closeList outer rest).Sound := by
  rw [State.Sound, enclosing] at sound
  have more : s.errors ⊆ ((s.report opening .unclosedList).closeList outer rest).errors := by
    simp [report, closeList]
  have listed : ⟨opening, .unclosedList⟩ ∈
      ((s.report opening .unclosedList).closeList outer rest).errors := by
    simp [report, closeList]
  cases sound with
  | list own around => exact (around.mono more).addDatum rfl ((own.mono more).unclosedList listed)

theorem closeAll (sound : s.Sound) : (s.closeAll s.enclosing).Sound := by
  generalize enclosing : s.enclosing = levels
  induction levels generalizing s with
  | nil =>
      rw [State.Sound, enclosing] at sound
      exact sound
  | cons entry rest ih => exact ih (sound.closeUnclosed enclosing) rfl

theorem finish (sound : s.Sound) : s.finish.tree.AllSound s.finish.errors := by
  have settled := sound.settleQuote ⟨s.stop, s.stop⟩
  have closed := quotes_settleQuote (s := s) ⟨s.stop, s.stop⟩
  unfold State.finish
  generalize s.settleQuote ⟨s.stop, s.stop⟩ = s at settled closed
  have noLists := (leaves_closeAll closed).2.2
  have ends := settled.closeAll.mono (List.subset_reverse.2 (List.Subset.refl _))
  dsimp only
  generalize s.closeAll s.enclosing = s at noLists ends
  rw [noLists] at ends
  cases ends with
  | root own noDot =>
      obtain ⟨body, children, read⟩ := own.children
      rw [List.append_nil] at children
      rw [noDot, ← children] at read
      refine Tree.allSound_node nofun (.root fun k member => ?_) fun t member => ?_
      · rw [Tree.kinds_reverse, List.mem_reverse] at member
        exact read.isItem k member
      · exact read.sound t (List.mem_reverse.1 member)

end State.Sound

end Parser

theorem parse_sound (source : String) : (parse source).tree.AllSound (parse source).errors :=
  (Parser.State.sound_start.run (lex source)).finish

end StoreScheme
