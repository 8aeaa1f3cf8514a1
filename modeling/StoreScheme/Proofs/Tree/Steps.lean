import StoreScheme.Datum
import StoreScheme.Tree.Parser

/-!
# Steps of the parser

To the parser there are seven kinds of lexemes.  Here its step is given for each of them, and what a
step does to the open lists and quotes and which errors it reports is said once.

* `Lexeme.Role`, `Lexeme.role`: the kinds
* `Parser.State.step_error` and the other equations: the step for each kind
* `Parser.Effect`, `Parser.State.step_effect`: open lists, open quotes and errors of a step
* `Parser.Unclosed`, `Parser.State.finish_errors`: the errors at the end of the source
-/

namespace StoreScheme

namespace Lexeme

/-- Errors are not trivia: they stand where a datum could. -/
def isTrivia (l : Lexeme) : Bool :=
  match l.result with
  | .ok token => token.isTrivia
  | .error _ => false

inductive Role (l : Lexeme) : Prop
  | error (e : LexError) : l.result = .error e → Role l
  | openParen : l.result = .ok .openParen → Role l
  | closeParen : l.result = .ok .closeParen → Role l
  | quote : l.result = .ok .quote → Role l
  | dot : l.result = .ok .dot → Role l
  | trivia (token : Token) : l.result = .ok token → token.isTrivia = true → Role l
  | atom (token : Token) (a : Atom) : l.result = .ok token → token.atom? = some a → Role l

theorem role (l : Lexeme) : l.Role := by
  cases h : l.result with
  | error e => exact .error e h
  | ok token =>
      cases token with
      | whitespace | lineEnding | comment | directive _ => exact .trivia _ h rfl
      | openParen => exact .openParen h
      | closeParen => exact .closeParen h
      | quote => exact .quote h
      | dot => exact .dot h
      | identifier _ | boolean _ | string _ | number _ => exact .atom _ _ h rfl

variable {l : Lexeme} {token : Token}

theorem isTrivia_ok (h : l.result = .ok token) : l.isTrivia = token.isTrivia := by
  simp [isTrivia, h]

theorem result_of_isTrivia (trivia : l.isTrivia = true) :
    ∃ token, l.result = .ok token ∧ token.isTrivia = true := by
  unfold isTrivia at trivia
  split at trivia
  · exact ⟨_, ‹_›, trivia⟩
  · cases trivia

theorem isTrivia_error {e : LexError} (h : l.result = .error e) : l.isTrivia = false := by
  simp [isTrivia, h]

theorem isTrivia_atom {a : Atom} (h : l.result = .ok token) (atom : token.atom? = some a) :
    l.isTrivia = false := by
  rw [isTrivia_ok h]
  cases token with
  | identifier _ | boolean _ | string _ | number _ => rfl
  | _ => cases atom

end Lexeme

/-- The lexemes that are not trivia. -/
def significant (ls : List Lexeme) : List Lexeme := ls.filter fun l => !l.isTrivia

theorem significant_append (ls ms : List Lexeme) :
    significant (ls ++ ms) = significant ls ++ significant ms :=
  List.filter_append _ _

theorem significant_trivia {l : Lexeme} (trivia : l.isTrivia = true) : significant [l] = [] := by
  simp [significant, trivia]

theorem significant_singleton {l : Lexeme} (notTrivia : l.isTrivia = false) : significant [l] = [l] := by
  simp [significant, notTrivia]

namespace Parser.State

variable {s : State} {l : Lexeme} {token : Token}

theorem step_error {e : LexError} (h : l.result = .error e) :
    s.step l = { State.report { s with stop := l.stop } l.span (.lexer e) with
      level := s.level.addError l } := by
  simp only [step, h]

theorem step_openParen (h : l.result = .ok .openParen) :
    s.step l = State.openParen { s with stop := l.stop } l := by
  simp only [step, h]

theorem step_closeParen (h : l.result = .ok .closeParen) :
    s.step l = State.closeParen { s with stop := l.stop } l := by
  simp only [step, h]

theorem step_quote (h : l.result = .ok .quote) :
    s.step l = State.quote { s with stop := l.stop } l := by
  simp only [step, h]

theorem step_dot (h : l.result = .ok .dot) :
    s.step l = State.dot { s with stop := l.stop } l := by
  simp only [step, h]

theorem step_trivia (h : l.result = .ok token) (trivia : token.isTrivia = true) :
    s.step l = { s with stop := l.stop, level := s.level.addLeaf (.leaf token.leafKind l) } := by
  cases token with
  | whitespace | lineEnding | comment | directive _ => simp only [step, h, trivia, if_true]
  | _ => cases trivia

theorem step_atom {a : Atom} (h : l.result = .ok token) (atom : token.atom? = some a) :
    s.step l = { s with
      stop := l.stop
      level := s.level.addDatum (.node .datum [.leaf token.leafKind l]) } := by
  cases token with
  | identifier _ | boolean _ | string _ | number _ => simp [step, h, Token.isTrivia]
  | _ => cases atom

end Parser.State

/-! ## Open quotes -/

namespace Parser

namespace Level

variable {v : Level}

theorem quotes_endQuote : v.endQuote.quotes = [] := by
  unfold endQuote
  split
  · assumption
  · rfl

theorem quotes_addError (l : Lexeme) : (v.addError l).quotes = [] := quotes_endQuote

theorem isEmpty_quotes_addLeaf (t : Tree) : (v.addLeaf t).quotes.isEmpty = v.quotes.isEmpty := by
  unfold addLeaf
  split
  · rfl
  · rename_i opened
    simp [opened]

end Level

namespace State

variable {s : State} {l : Lexeme}

theorem quotes_settleQuote (span : Span) : (s.settleQuote span).level.quotes = [] := by
  unfold settleQuote
  split
  · rename_i closed
    exact List.isEmpty_iff.1 closed
  · exact Level.quotes_endQuote

theorem settleQuote_closed (closed : s.level.quotes = []) (span : Span) : s.settleQuote span = s := by
  simp [settleQuote, closed]

theorem closeParen_closed {opening : Span} {outer : Level} {rest : List (Span × Level)}
    (closed : s.level.quotes = []) (inside : s.enclosing = (opening, outer) :: rest) :
    s.closeParen l =
      State.closeList { s with level := s.level.addLeaf (.leaf .closeParen l) } outer rest := by
  simp only [closeParen, settleQuote_closed closed, inside]

theorem dot_closed (closed : s.level.quotes = []) (inside : s.enclosing ≠ [])
    (first : s.level.dot = none) :
    s.dot l =
      { s with level := { s.level.addLeaf (.leaf .dot l) with dot := some l.span } } := by
  simp [dot, settleQuote_closed closed, inside, first]

end State

/-! ## Effects -/

/-- The opening parentheses of the open lists, innermost first, and whether a quote is open in the
innermost level. -/
structure Outline where
  opens : List Span
  quoting : Bool

def State.outline (s : State) : Outline := ⟨s.enclosing.map Prod.fst, !s.level.quotes.isEmpty⟩

/-- The error of an open quote, if there is one, where a datum can not start. -/
def dangling (quoting : Bool) (span : Span) : List ParseError :=
  if quoting then [⟨span, .danglingQuote⟩] else []

def DotErrors (errors : List ParseError) : Prop := ∀ e ∈ errors, e.kind = .misplacedDot

/-- What a lexeme does, with the errors that it reports in their order.  It is left open which errors
about dots there are. -/
inductive Effect (l : Lexeme) : Outline → List ParseError → Outline → Prop
  | error {e : LexError} {os : List Span} {q : Bool} : l.result = .error e →
    Effect l ⟨os, q⟩ [⟨l.span, .lexer e⟩] ⟨os, false⟩
  | openParen {os : List Span} {q : Bool} : l.result = .ok .openParen →
    Effect l ⟨os, q⟩ [] ⟨l.span :: os, false⟩
  | closeParen {o : Span} {os : List Span} {q : Bool} {dots : List ParseError} :
    l.result = .ok .closeParen → DotErrors dots →
    Effect l ⟨o :: os, q⟩ (dangling q l.span ++ dots) ⟨os, false⟩
  | strayParen {q : Bool} : l.result = .ok .closeParen →
    Effect l ⟨[], q⟩ (dangling q l.span ++ [⟨l.span, .unexpectedCloseParen⟩]) ⟨[], false⟩
  | quote {os : List Span} {q : Bool} : l.result = .ok .quote → Effect l ⟨os, q⟩ [] ⟨os, true⟩
  | dot {os : List Span} {q : Bool} {dots : List ParseError} : l.result = .ok .dot →
    DotErrors dots → Effect l ⟨os, q⟩ (dangling q l.span ++ dots) ⟨os, false⟩
  | trivia {token : Token} {os : List Span} {q : Bool} : l.result = .ok token →
    token.isTrivia = true → Effect l ⟨os, q⟩ [] ⟨os, q⟩
  | atom {token : Token} {a : Atom} {os : List Span} {q : Bool} : l.result = .ok token →
    token.atom? = some a → Effect l ⟨os, q⟩ [] ⟨os, false⟩

theorem Effect.not_quoting {l : Lexeme} {before after : Outline} {new : List ParseError}
    (effect : Effect l before new after) (ok : new = [])
    (refuses : l.result = .ok .closeParen ∨ l.result = .ok .dot) : before.quoting = false := by
  cases effect with
  | @closeParen _ _ q _ _ _ | @dot _ q _ _ _ =>
      cases q with
      | false => rfl
      | true => cases ok
  | strayParen _ => simp at ok
  | error _ => cases ok
  | trivia h impossible | atom h impossible =>
      rcases refuses with isClose | isDot
      · cases h.symm.trans isClose
        cases impossible
      · cases h.symm.trans isDot
        cases impossible
  | openParen h | quote h =>
      rcases refuses with isClose | isDot
      · cases h.symm.trans isClose
      · cases h.symm.trans isDot

theorem Level.dotError_dotErrors (v : Level) : DotErrors v.dotError := by
  intro e member
  unfold dotError at member
  split at member
  · split at member
    · rw [List.mem_singleton.1 member]
    · cases member
  · cases member

namespace State

variable {s : State} {l : Lexeme}

theorem settleQuote_errors (span : Span) :
    (s.settleQuote span).errors = (dangling s.outline.quoting span).reverse ++ s.errors := by
  unfold settleQuote
  split
  · rename_i closed
    simp [outline, dangling, closed]
  · rename_i opened
    simp [outline, dangling, opened, report]

theorem settleQuote_enclosing (span : Span) : (s.settleQuote span).enclosing = s.enclosing := by
  unfold settleQuote
  split <;> rfl

/-- What a state has done so far is what `t` has done, followed by one lexeme. -/
def Follows (s t : State) (l : Lexeme) : Prop :=
  ∃ new, s.errors = new.reverse ++ t.errors ∧ Effect l t.outline new s.outline

theorem closeParen_effect (h : l.result = .ok .closeParen) : (s.closeParen l).Follows s l := by
  have errors := settleQuote_errors (s := s) l.span
  have same := settleQuote_enclosing (s := s) l.span
  unfold closeParen
  generalize s.settleQuote l.span = settled at errors same
  dsimp only
  split
  · rename_i outermost
    refine ⟨dangling s.outline.quoting l.span ++ [⟨l.span, .unexpectedCloseParen⟩], ?_, ?_⟩
    · simp [report, errors]
    · have opens : s.outline = ⟨[], s.outline.quoting⟩ := by simp [outline, ← same, outermost]
      rw [opens]
      simpa [outline, report, outermost, Level.quotes_addError] using Effect.strayParen h
  · rename_i opening outer rest enclosing
    let level := settled.level.addLeaf (.leaf .closeParen l)
    refine ⟨dangling s.outline.quoting l.span ++ level.dotError, ?_, ?_⟩
    · simp [closeList, errors, level]
    · have opens : s.outline = ⟨opening :: rest.map Prod.fst, s.outline.quoting⟩ := by
        simp [outline, ← same, enclosing]
      rw [opens]
      exact .closeParen h level.dotError_dotErrors

theorem dot_effect (h : l.result = .ok .dot) : (s.dot l).Follows s l := by
  have errors := settleQuote_errors (s := s) l.span
  have same := settleQuote_enclosing (s := s) l.span
  have closed := quotes_settleQuote (s := s) l.span
  unfold dot
  generalize s.settleQuote l.span = settled at errors same closed
  dsimp only
  split
  · refine ⟨dangling s.outline.quoting l.span ++ [⟨l.span, .misplacedDot⟩], ?_, ?_⟩
    · simp [report, errors]
    · have misplaced : DotErrors [⟨l.span, .misplacedDot⟩] := by simp [DotErrors]
      simpa [outline, report, same, Level.quotes_addError] using Effect.dot h misplaced
  · refine ⟨dangling s.outline.quoting l.span ++ [], ?_, ?_⟩
    · simp [errors]
    · simpa [outline, same, Level.isEmpty_quotes_addLeaf, closed] using
        Effect.dot h (List.forall_mem_nil _)

theorem step_effect (s : State) (l : Lexeme) : (s.step l).Follows s l := by
  cases l.role with
  | error e h =>
      rw [step_error h]
      refine ⟨[⟨l.span, .lexer e⟩], by simp [report], ?_⟩
      simpa [outline, report, Level.quotes_addError] using Effect.error h
  | openParen h =>
      rw [step_openParen h]
      exact ⟨[], rfl, .openParen h⟩
  | closeParen h =>
      rw [step_closeParen h]
      exact closeParen_effect h
  | quote h =>
      rw [step_quote h]
      exact ⟨[], rfl, .quote h⟩
  | dot h =>
      rw [step_dot h]
      exact dot_effect h
  | trivia token h trivia =>
      rw [step_trivia h trivia]
      refine ⟨[], rfl, ?_⟩
      simpa [outline, Level.isEmpty_quotes_addLeaf] using Effect.trivia h trivia
  | atom token a h atom =>
      rw [step_atom h atom]
      exact ⟨[], rfl, .atom h atom⟩

theorem step_stop : (s.step l).stop = l.stop := by
  cases l.role with
  | error e h => rw [step_error h]; rfl
  | openParen h => rw [step_openParen h]; rfl
  | closeParen h =>
      rw [step_closeParen h]
      simp only [closeParen, settleQuote]
      split <;> split <;> rfl
  | quote h => rw [step_quote h]; rfl
  | dot h =>
      rw [step_dot h]
      simp only [dot, settleQuote]
      split <;> split <;> rfl
  | trivia token h trivia => rw [step_trivia h trivia]
  | atom token a h atom => rw [step_atom h atom]

end State

/-! ## The end of the source -/

/-- The errors of the lists that are open at the end, innermost first. -/
inductive Unclosed : List Span → List ParseError → Prop
  | nil : Unclosed [] []
  | cons {o : Span} {os : List Span} {dots errors : List ParseError} : DotErrors dots →
    Unclosed os errors → Unclosed (o :: os) (⟨o, .unclosedList⟩ :: (dots ++ errors))

namespace State

variable {s : State}

theorem closeAll_errors (s : State) (levels : List (Span × Level)) :
    ∃ new, (s.closeAll levels).errors = new.reverse ++ s.errors ∧ Unclosed (levels.map Prod.fst) new := by
  induction levels generalizing s with
  | nil => exact ⟨[], rfl, .nil⟩
  | cons entry rest ih =>
      obtain ⟨opening, outer⟩ := entry
      obtain ⟨new, errors, unclosed⟩ := ih ((s.report opening .unclosedList).closeList outer rest)
      refine ⟨⟨opening, .unclosedList⟩ :: (s.level.dotError ++ new), ?_, ?_⟩
      · rw [closeAll, errors]
        simp [closeList, report]
      · exact .cons s.level.dotError_dotErrors unclosed

theorem finish_errors (s : State) :
    ∃ new, s.finish.errors = s.errors.reverse ++ (dangling s.outline.quoting ⟨s.stop, s.stop⟩ ++ new) ∧
      Unclosed s.outline.opens new := by
  have errors := settleQuote_errors (s := s) ⟨s.stop, s.stop⟩
  have same := settleQuote_enclosing (s := s) ⟨s.stop, s.stop⟩
  unfold finish
  generalize s.settleQuote ⟨s.stop, s.stop⟩ = settled at errors same
  obtain ⟨new, closed, unclosed⟩ := closeAll_errors settled settled.enclosing
  rw [same] at unclosed
  refine ⟨new, ?_, unclosed⟩
  simp [closed, errors]

end State

end Parser

end StoreScheme
