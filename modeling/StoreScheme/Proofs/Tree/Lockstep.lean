import Mathlib.Data.List.Forall2
import StoreScheme.Proofs.Tree.Derives

/-!
# Two parsers in lockstep

Two parsers that read lexemes with the same results find the same errors.  The places of the lexemes
may differ, and so may what has been read at the root before; all that is known of the places is
that they are related.

* `Lexeme.Alike`, `ParseError.Alike`: the same up to places
* `Parser.State.Alike`: states that will find the same errors
* `Parser.State.Alike.step`, `Parser.State.Alike.run`: one lexeme on either side, and all of them
* `Parser.State.Alike.finish`: the errors of both
-/

namespace StoreScheme

variable {R : Span → Span → Prop}

structure Lexeme.Alike (R : Span → Span → Prop) (l m : Lexeme) : Prop where
  result : l.result = m.result
  span : R l.span m.span
  stop : R ⟨l.stop, l.stop⟩ ⟨m.stop, m.stop⟩

structure ParseError.Alike (R : Span → Span → Prop) (e e' : ParseError) : Prop where
  span : R e.span e'.span
  kind : e.kind = e'.kind

namespace Parser

/-- Levels with as many open quotes and with a dot in the same state; if they are `counted`, also with
as many data. -/
structure Level.Alike (R : Span → Span → Prop) (counted : Bool) (v w : Level) : Prop where
  quotes : v.quotes.length = w.quotes.length
  dot : Option.Rel R v.dot w.dot
  counts : counted = true → v.before = w.before ∧ v.after = w.after

/-- Only the data of lists are counted, since a dot at the root is an error anyway. -/
inductive LevelsAlike (R : Span → Span → Prop) :
    Level → List (Span × Level) → Level → List (Span × Level) → Prop
  | root {v w : Level} : v.Alike R false w → LevelsAlike R v [] w []
  | list {v w outer outer' : Level} {o o' : Span} {enclosing enclosing' : List (Span × Level)} :
    LevelsAlike R outer enclosing outer' enclosing' → R o o' → v.Alike R true w →
    LevelsAlike R v ((o, outer) :: enclosing) w ((o', outer') :: enclosing')

structure State.Alike (R : Span → Span → Prop) (s t : State) : Prop where
  levels : LevelsAlike R s.level s.enclosing t.level t.enclosing
  errors : List.Forall₂ (ParseError.Alike R) s.errors t.errors
  stop : R ⟨s.stop, s.stop⟩ ⟨t.stop, t.stop⟩

/-! ## Levels -/

namespace Level.Alike

variable {counted : Bool} {v w : Level}

theorem isEmpty_quotes (alike : v.Alike R counted w) : v.quotes.isEmpty = w.quotes.isEmpty := by
  rw [Bool.eq_iff_iff, List.isEmpty_iff, List.isEmpty_iff, ← List.length_eq_zero_iff,
    ← List.length_eq_zero_iff, alike.quotes]

theorem isSome_dot (alike : v.Alike R counted w) : v.dot.isSome = w.dot.isSome := by
  obtain ⟨_, dot, _⟩ := alike
  generalize v.dot = first at dot
  generalize w.dot = second at dot
  cases dot <;> rfl

theorem addLeaf (t u : Tree) (alike : v.Alike R counted w) :
    (v.addLeaf t).Alike R counted (w.addLeaf u) := by
  constructor
  · simpa using alike.quotes
  · simpa using alike.dot
  · simpa using alike.counts

theorem addDatum (t u : Tree) (alike : v.Alike R counted w) :
    (v.addDatum t).Alike R counted (w.addDatum u) := by
  constructor
  · rfl
  · simpa using alike.dot
  · intro isCounted
    obtain ⟨before, after⟩ := alike.counts isCounted
    simp only [Level.addDatum, alike.isSome_dot]
    split <;> simp [before, after]

theorem endQuote (alike : v.Alike R counted w) : v.endQuote.Alike R counted w.endQuote := by
  have length := alike.quotes
  unfold Level.endQuote
  cases quotes : v.quotes with
  | nil =>
      cases quotes' : w.quotes with
      | nil => exact alike
      | cons q qs => simp [quotes, quotes'] at length
  | cons q qs =>
      cases quotes' : w.quotes with
      | nil => simp [quotes, quotes'] at length
      | cons q' qs' =>
          have inner : Level.Alike R counted { v with quotes := qs } { w with quotes := qs' } :=
            ⟨by simpa [quotes, quotes'] using length, alike.dot, alike.counts⟩
          exact inner.addDatum _ _

theorem addError (l m : Lexeme) (alike : v.Alike R counted w) :
    (v.addError l).Alike R counted (w.addError m) :=
  (alike.addLeaf _ _).endQuote

theorem dotError (alike : v.Alike R true w) :
    List.Forall₂ (ParseError.Alike R) v.dotError w.dotError := by
  obtain ⟨before, after⟩ := alike.counts rfl
  have dot := alike.dot
  unfold Level.dotError
  rw [before, after]
  generalize v.dot = first at dot
  generalize w.dot = second at dot
  cases dot with
  | none => exact .nil
  | some related =>
      dsimp only
      split
      · exact .cons ⟨related, rfl⟩ .nil
      · exact .nil

end Level.Alike

/-! ## States -/

namespace LevelsAlike

variable {v w : Level} {enclosing enclosing' : List (Span × Level)}

theorem isEmpty_quotes (alike : LevelsAlike R v enclosing w enclosing') :
    v.quotes.isEmpty = w.quotes.isEmpty := by
  cases alike with
  | root alike => exact alike.isEmpty_quotes
  | list _ _ alike => exact alike.isEmpty_quotes

theorem isSome_dot (alike : LevelsAlike R v enclosing w enclosing') : v.dot.isSome = w.dot.isSome := by
  cases alike with
  | root alike => exact alike.isSome_dot
  | list _ _ alike => exact alike.isSome_dot

theorem isEmpty_enclosing (alike : LevelsAlike R v enclosing w enclosing') :
    enclosing.isEmpty = enclosing'.isEmpty := by
  cases alike <;> rfl

/-- A change of the innermost level on both sides. -/
theorem map {v' w' : Level} (alike : LevelsAlike R v enclosing w enclosing')
    (change : ∀ counted, v.Alike R counted w → v'.Alike R counted w') :
    LevelsAlike R v' enclosing w' enclosing' := by
  cases alike with
  | root alike => exact .root (change false alike)
  | list outer related alike => exact .list outer related (change true alike)

end LevelsAlike

namespace State.Alike

variable {s t : State} {l m : Lexeme}

theorem report {span span' : Span} (related : R span span') (kind : ParseErrorKind) (alike : s.Alike R t) :
    (s.report span kind).Alike R (t.report span' kind) :=
  ⟨alike.levels, .cons ⟨related, rfl⟩ alike.errors, alike.stop⟩

theorem settleQuote {span span' : Span} (related : R span span') (alike : s.Alike R t) :
    (s.settleQuote span).Alike R (t.settleQuote span') := by
  unfold State.settleQuote
  rw [alike.levels.isEmpty_quotes]
  split
  · exact alike
  · have reported := alike.report related .danglingQuote
    exact ⟨reported.levels.map fun _ => Level.Alike.endQuote, reported.errors, reported.stop⟩

theorem closeList {outer outer' : Level} {o o' : Span} {enclosing enclosing' : List (Span × Level)}
    (opened : s.enclosing = (o, outer) :: enclosing) (opened' : t.enclosing = (o', outer') :: enclosing')
    (alike : s.Alike R t) : (s.closeList outer enclosing).Alike R (t.closeList outer' enclosing') := by
  have levels := alike.levels
  rw [opened, opened'] at levels
  cases levels with
  | list around _ inner =>
      refine ⟨around.map fun _ => Level.Alike.addDatum _ _, ?_, alike.stop⟩
      exact List.rel_append (List.forall₂_reverse_iff.2 inner.dotError) alike.errors

theorem openParen (lexemes : l.Alike R m) (alike : s.Alike R t) :
    (s.openParen l).Alike R (t.openParen m) :=
  ⟨.list alike.levels lexemes.span ⟨rfl, .none, fun _ => ⟨rfl, rfl⟩⟩, alike.errors, alike.stop⟩

theorem closeParen (lexemes : l.Alike R m) (alike : s.Alike R t) :
    (s.closeParen l).Alike R (t.closeParen m) := by
  have settled := alike.settleQuote lexemes.span
  unfold State.closeParen
  generalize s.settleQuote l.span = s' at settled
  generalize t.settleQuote m.span = t' at settled
  have reported := settled.report lexemes.span .unexpectedCloseParen
  have closed : State.Alike R { s' with level := s'.level.addLeaf (.leaf .closeParen l) }
      { t' with level := t'.level.addLeaf (.leaf .closeParen m) } :=
    ⟨settled.levels.map fun _ => Level.Alike.addLeaf _ _, settled.errors, settled.stop⟩
  have levels := settled.levels
  generalize opened : s'.enclosing = enclosing at levels
  generalize opened' : t'.enclosing = enclosing' at levels
  dsimp only
  cases levels with
  | root _ =>
      rw [opened, opened']
      exact ⟨reported.levels.map fun _ => Level.Alike.addError l m, reported.errors, reported.stop⟩
  | list _ _ _ =>
      rw [opened, opened'] at closed ⊢
      exact closed.closeList rfl rfl

theorem dot (lexemes : l.Alike R m) (alike : s.Alike R t) : (s.dot l).Alike R (t.dot m) := by
  have settled := alike.settleQuote lexemes.span
  unfold State.dot
  generalize s.settleQuote l.span = s' at settled
  generalize t.settleQuote m.span = t' at settled
  dsimp only
  rw [settled.levels.isEmpty_enclosing, settled.levels.isSome_dot]
  split
  · have reported := settled.report lexemes.span .misplacedDot
    exact ⟨reported.levels.map fun _ => Level.Alike.addError _ _, reported.errors, reported.stop⟩
  · refine ⟨settled.levels.map fun counted level => ?_, settled.errors, settled.stop⟩
    have added := level.addLeaf (.leaf .dot l) (.leaf .dot m)
    exact ⟨added.quotes, .some lexemes.span, added.counts⟩

theorem quote (l m : Lexeme) (alike : s.Alike R t) : (s.quote l).Alike R (t.quote m) := by
  refine ⟨alike.levels.map fun counted level => ?_, alike.errors, alike.stop⟩
  exact ⟨congrArg (· + 1) level.quotes, level.dot, level.counts⟩

theorem step (lexemes : l.Alike R m) (alike : s.Alike R t) : (s.step l).Alike R (t.step m) := by
  have moved : State.Alike R { s with stop := l.stop } { t with stop := m.stop } :=
    ⟨alike.levels, alike.errors, lexemes.stop⟩
  have same := lexemes.result
  cases l.role with
  | error e h =>
      rw [step_error h, step_error (same ▸ h)]
      have reported := moved.report lexemes.span (.lexer e)
      exact ⟨reported.levels.map fun _ => Level.Alike.addError l m, reported.errors, reported.stop⟩
  | openParen h =>
      rw [step_openParen h, step_openParen (same ▸ h)]
      exact moved.openParen lexemes
  | closeParen h =>
      rw [step_closeParen h, step_closeParen (same ▸ h)]
      exact moved.closeParen lexemes
  | quote h =>
      rw [step_quote h, step_quote (same ▸ h)]
      exact moved.quote l m
  | dot h =>
      rw [step_dot h, step_dot (same ▸ h)]
      exact moved.dot lexemes
  | trivia token h trivia =>
      rw [step_trivia h trivia, step_trivia (same ▸ h) trivia]
      exact ⟨alike.levels.map fun _ => Level.Alike.addLeaf _ _, alike.errors, lexemes.stop⟩
  | atom token a h atom =>
      rw [step_atom h atom, step_atom (same ▸ h) atom]
      exact ⟨alike.levels.map fun _ => Level.Alike.addDatum _ _, alike.errors, lexemes.stop⟩

theorem run {ls ms : List Lexeme} (lexemes : List.Forall₂ (Lexeme.Alike R) ls ms) (alike : s.Alike R t) :
    (ls.foldl State.step s).Alike R (ms.foldl State.step t) := by
  induction lexemes generalizing s t with
  | nil => exact alike
  | cons first _ ih => exact ih (alike.step first)

theorem closeAll (alike : s.Alike R t) :
    List.Forall₂ (ParseError.Alike R) (s.closeAll s.enclosing).errors (t.closeAll t.enclosing).errors := by
  have levels := alike.levels
  generalize opened : s.enclosing = enclosing at levels
  generalize opened' : t.enclosing = enclosing' at levels
  induction enclosing generalizing s t enclosing' with
  | nil =>
      cases levels
      exact alike.errors
  | cons entry rest ih =>
      cases levels with
      | list _ related _ =>
          have reported := alike.report related .unclosedList
          have closed := closeList (s := s.report _ _) (t := t.report _ _) opened opened' reported
          exact ih closed rfl _ rfl closed.levels

theorem finish (alike : s.Alike R t) :
    List.Forall₂ (ParseError.Alike R) s.finish.errors t.finish.errors :=
  List.forall₂_reverse_iff.2 (alike.settleQuote alike.stop).closeAll

end State.Alike

end Parser

end StoreScheme
