import Mathlib.Data.List.Induction
import StoreScheme.Proofs.ErrorReports
import StoreScheme.Proofs.Token.Tiling
import StoreScheme.Proofs.Tree.Derives

/-!
# Places of parse errors

An error stands at a lexeme that is not trivia: at one that is out of place, at a dot or at the parenthesis
that opens a list.  Only a quote with nothing but trivia behind it is reported at the end of the source.

* `Parser.State.Placed`: the places that a state keeps
* `Parser.State.Placed.step`, `Parser.State.Placed.run`: a lexeme adds its own place, if any
* `Parser.State.run_quoting`: the lexemes after which a quote is open
* `parse_errors_placed`, `danglingQuote_mem_errors`: the errors of a source
-/

namespace StoreScheme

namespace Parser

variable {P : Span → Prop} {l : Lexeme} {ls : List Lexeme}

/-! ## Levels -/

namespace Level

variable {v : Level}

/-- The place of the dot is of some kind. -/
def Placed (P : Span → Prop) (v : Level) : Prop := ∀ span ∈ v.dot, P span

theorem dot_endQuote : v.endQuote.dot = v.dot := by
  unfold endQuote
  split
  · rfl
  · rw [dot_addDatum]

theorem dot_addError (l : Lexeme) : (v.addError l).dot = v.dot := by
  rw [addError, dot_endQuote, dot_addLeaf]

theorem Placed.of_dot_eq {w : Level} (placed : v.Placed P) (same : w.dot = v.dot) : w.Placed P := by
  rwa [Placed, same]

theorem Placed.dotError (placed : v.Placed P) : ∀ e ∈ v.dotError, P e.span := by
  intro e member
  unfold Level.dotError at member
  split at member
  · rename_i span hasDot
    split at member
    · rw [List.mem_singleton.1 member]
      exact placed span hasDot
    · cases member
  · cases member

end Level

/-! ## States -/

/-- The places of the errors so far, of the dots and of the open lists are of some kind. -/
structure State.Placed (P : Span → Prop) (s : State) : Prop where
  level : s.level.Placed P
  enclosing : ∀ entry ∈ s.enclosing, P entry.1 ∧ entry.2.Placed P
  errors : ∀ e ∈ s.errors, P e.span

namespace State

variable {s : State}

namespace Placed

theorem imp {Q : Span → Prop} (placed : s.Placed P) (weaker : ∀ span, P span → Q span) : s.Placed Q where
  level span isDot := weaker span (placed.level span isDot)
  enclosing entry member := by
    obtain ⟨opening, outer⟩ := placed.enclosing entry member
    exact ⟨weaker _ opening, fun span isDot => weaker span (outer span isDot)⟩
  errors e member := weaker _ (placed.errors e member)

theorem settleQuote {span : Span} (placed : s.Placed P) (place : s.outline.quoting = true → P span) :
    (s.settleQuote span).Placed P := by
  unfold State.settleQuote
  split
  · exact placed
  · rename_i quoting
    refine ⟨placed.level.of_dot_eq Level.dot_endQuote, placed.enclosing, ?_⟩
    exact List.forall_mem_cons.2 ⟨place (by simpa [outline] using quoting), placed.errors⟩

theorem closeList {outer : Level} {rest : List (Span × Level)} (placed : s.Placed P)
    (around : outer.Placed P) (others : ∀ entry ∈ rest, P entry.1 ∧ entry.2.Placed P) :
    (s.closeList outer rest).Placed P where
  level := around.of_dot_eq (Level.dot_addDatum _)
  enclosing := others
  errors := List.forall_mem_append.2
    ⟨fun e member => placed.level.dotError e (List.mem_reverse.1 member), placed.errors⟩

theorem openParen (placed : s.Placed P) (place : P l.span) : (s.openParen l).Placed P where
  level := nofun
  enclosing := List.forall_mem_cons.2 ⟨⟨place, placed.level⟩, placed.enclosing⟩
  errors := placed.errors

theorem closeParen (placed : s.Placed P) (place : P l.span) : (s.closeParen l).Placed P := by
  have settled := placed.settleQuote fun _ => place
  unfold State.closeParen
  generalize s.settleQuote l.span = s at settled
  dsimp only
  split
  · refine ⟨settled.level.of_dot_eq (Level.dot_addError l), settled.enclosing, ?_⟩
    exact List.forall_mem_cons.2 ⟨place, settled.errors⟩
  · rename_i opening outer rest enclosing
    obtain ⟨level, around, errors⟩ := settled
    have closed : State.Placed P { s with level := s.level.addLeaf (.leaf .closeParen l) } :=
      ⟨level.of_dot_eq (Level.dot_addLeaf _), around, errors⟩
    rw [enclosing] at around
    obtain ⟨first, others⟩ := List.forall_mem_cons.1 around
    exact closed.closeList first.2 others

theorem dot (placed : s.Placed P) (place : P l.span) : (s.dot l).Placed P := by
  have settled := placed.settleQuote fun _ => place
  unfold State.dot
  generalize s.settleQuote l.span = s at settled
  dsimp only
  split
  · refine ⟨settled.level.of_dot_eq (Level.dot_addError l), settled.enclosing, ?_⟩
    exact List.forall_mem_cons.2 ⟨place, settled.errors⟩
  · refine ⟨?_, settled.enclosing, settled.errors⟩
    rintro _ ⟨⟩
    exact place

theorem step (placed : s.Placed P) (place : l.isTrivia = false → P l.span) : (s.step l).Placed P := by
  have moved : State.Placed P { s with stop := l.stop } := ⟨placed.level, placed.enclosing, placed.errors⟩
  cases l.role with
  | error e h =>
      rw [step_error h]
      refine ⟨placed.level.of_dot_eq (Level.dot_addError l), placed.enclosing, ?_⟩
      exact List.forall_mem_cons.2 ⟨place (Lexeme.isTrivia_error h), placed.errors⟩
  | openParen h =>
      rw [step_openParen h]
      exact moved.openParen (place (Lexeme.isTrivia_ok h))
  | closeParen h =>
      rw [step_closeParen h]
      exact moved.closeParen (place (Lexeme.isTrivia_ok h))
  | quote h =>
      rw [step_quote h]
      exact ⟨placed.level, placed.enclosing, placed.errors⟩
  | dot h =>
      rw [step_dot h]
      exact moved.dot (place (Lexeme.isTrivia_ok h))
  | trivia token h trivia =>
      rw [step_trivia h trivia]
      exact ⟨placed.level.of_dot_eq (Level.dot_addLeaf _), placed.enclosing, placed.errors⟩
  | atom token a h atom =>
      rw [step_atom h atom]
      exact ⟨placed.level.of_dot_eq (Level.dot_addDatum _), placed.enclosing, placed.errors⟩

theorem run (placed : s.Placed P) (places : ∀ l ∈ significant ls, P l.span) :
    (ls.foldl State.step s).Placed P := by
  induction ls generalizing s with
  | nil => exact placed
  | cons l ls ih =>
      have first : l.isTrivia = false → P l.span := fun kept => places l (by simp [significant, kept])
      have others : significant ls ⊆ significant (l :: ls) := ((List.sublist_cons_self l ls).filter _).subset
      exact ih (placed.step first) fun m member => places m (others member)

theorem closeAll (placed : s.Placed P) {levels : List (Span × Level)}
    (around : ∀ entry ∈ levels, P entry.1 ∧ entry.2.Placed P) : (s.closeAll levels).Placed P := by
  induction levels generalizing s with
  | nil => exact ⟨placed.level, List.forall_mem_nil _, placed.errors⟩
  | cons entry rest ih =>
      obtain ⟨⟨place, first⟩, others⟩ := List.forall_mem_cons.1 around
      have reported : (s.report entry.1 .unclosedList).Placed P :=
        ⟨placed.level, placed.enclosing, List.forall_mem_cons.2 ⟨place, placed.errors⟩⟩
      exact ih (reported.closeList first others) others

theorem finish (placed : s.Placed P) (place : s.outline.quoting = true → P ⟨s.stop, s.stop⟩) :
    ∀ e ∈ s.finish.errors, P e.span := by
  have settled := placed.settleQuote place
  intro e member
  exact (settled.closeAll settled.enclosing).errors e (List.mem_reverse.1 member)

end Placed

end State

/-! ## Open quotes -/

namespace Effect

variable {before after : Outline} {new : List ParseError}

theorem quoting_of_trivia (effect : Effect l before new after) (trivia : l.isTrivia = true) :
    after.quoting = before.quoting := by
  cases effect with
  | trivia _ _ => rfl
  | atom h atom => cases trivia.symm.trans (Lexeme.isTrivia_atom h atom)
  | error h => cases trivia.symm.trans (Lexeme.isTrivia_error h)
  | openParen h | closeParen h _ | strayParen h | quote h | dot h _ =>
      cases trivia.symm.trans (Lexeme.isTrivia_ok h)

theorem quoting_iff (effect : Effect l before new after) (kept : l.isTrivia = false) :
    after.quoting = true ↔ l.result = .ok .quote := by
  cases effect with
  | quote h => simp [h]
  | trivia h trivia => cases kept.symm.trans ((Lexeme.isTrivia_ok h).trans trivia)
  | @atom token _ _ _ h atom =>
      have other : token ≠ .quote := by
        rintro rfl
        cases atom
      simp [h, other]
  | error h | openParen h | closeParen h _ | strayParen h | dot h _ => simp [h]

end Effect

theorem State.run_quoting (ls : List Lexeme) :
    (ls.foldl State.step {}).outline.quoting = true ↔
      ∃ q, (significant ls).getLast? = some q ∧ q.result = .ok .quote := by
  induction ls using List.reverseRecOn with
  | nil => simp [significant, State.outline]
  | append_singleton ls l ih =>
      obtain ⟨new, -, effect⟩ := (ls.foldl State.step {}).step_effect l
      rw [List.foldl_append, List.foldl_cons, List.foldl_nil, significant_append]
      cases trivia : l.isTrivia with
      | true => rw [effect.quoting_of_trivia trivia, significant_trivia trivia, List.append_nil, ih]
      | false =>
          rw [effect.quoting_iff trivia, significant_singleton trivia]
          simp

end Parser

/-! ## Sources -/

/-- The lexemes of a source end in a quote, as far as they are not trivia. -/
def EndsInQuote (source : String) : Prop :=
  ∃ q, (significant (lex source)).getLast? = some q ∧ q.result = .ok .quote

section
variable (source : String)

theorem run_stop_eq : ((lex source).foldl Parser.State.step {}).stop = source.utf8ByteSize := by
  have stop := (lex_tiling source).lastStop_eq
  rw [Nat.zero_add, Bytes.size_toList] at stop
  rw [Parser.State.run_stop]
  exact stop

/-- An error stands at a lexeme that is not trivia, or at the end of a source that ends in a quote. -/
theorem parse_errors_placed : ∀ e ∈ (parse source).errors,
    (∃ l ∈ significant (lex source), l.span = e.span) ∨
      EndsInQuote source ∧ e.span = ⟨source.utf8ByteSize, source.utf8ByteSize⟩ := by
  have start : Parser.State.Placed
      (fun span => ∃ l ∈ significant (lex source), l.span = span) {} :=
    ⟨nofun, List.forall_mem_nil _, List.forall_mem_nil _⟩
  have run := start.run fun l member => ⟨l, member, rfl⟩
  have placed := run.imp (Q := fun span => (∃ l ∈ significant (lex source), l.span = span) ∨
    EndsInQuote source ∧ span = ⟨source.utf8ByteSize, source.utf8ByteSize⟩) fun _ => .inl
  refine placed.finish fun quoting => .inr ⟨(Parser.State.run_quoting _).1 quoting, ?_⟩
  rw [run_stop_eq]

variable {source}

theorem danglingQuote_mem_errors (ends : EndsInQuote source) :
    ⟨⟨source.utf8ByteSize, source.utf8ByteSize⟩, .danglingQuote⟩ ∈ (parse source).errors := by
  obtain ⟨new, errors, -⟩ := ((lex source).foldl Parser.State.step {}).finish_errors
  change (parse source).errors = _ at errors
  rw [errors, (Parser.State.run_quoting _).2 ends, run_stop_eq]
  simp [Parser.dangling]

end

end StoreScheme
