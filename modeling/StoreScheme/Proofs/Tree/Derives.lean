import StoreScheme.Proofs.Tree.Steps

/-!
# The grammar of data

The lexemes of a source that are not trivia are data, one after the other, if the source has no
errors.

* `Derives`: the grammar, with the data that some lexemes are
* `Parser.Holds`: what the lexemes read so far are, as long as there is no error
* `Parser.State.step_holds`, `Parser.State.run_holds`: one more lexeme, and all of them
* `derives_of_isOk`: a source without errors follows the grammar
-/

namespace StoreScheme

/-- Some lexemes are some data, one after the other.  A datum is an atom, a quote and a datum, or
data between parentheses, of which the last may stand behind a dot if others stand before it. -/
inductive Derives : List Lexeme → List Datum → Prop
  | nil : Derives [] []
  | atom {l : Lexeme} {a : Atom} {ls : List Lexeme} {ds : List Datum} : l.atom? = some a →
    Derives ls ds → Derives (l :: ls) (.atom l.span a :: ds)
  | quoted {q : Lexeme} {d : Datum} {inner ls : List Lexeme} {ds : List Datum} :
    q.result = .ok .quote → Derives inner [d] → Derives ls ds →
    Derives (q :: (inner ++ ls)) (.quoted ⟨q.start, d.span.stop⟩ (some d) :: ds)
  | list {o c : Lexeme} {inner ls : List Lexeme} {items ds : List Datum} :
    o.result = .ok .openParen → c.result = .ok .closeParen → Derives inner items → Derives ls ds →
    Derives (o :: (inner ++ c :: ls)) (.list ⟨o.start, c.stop⟩ items none :: ds)
  | dotted {o dot c : Lexeme} {inner after ls : List Lexeme} {items ds : List Datum} {tail : Datum} :
    o.result = .ok .openParen → dot.result = .ok .dot → c.result = .ok .closeParen → items ≠ [] →
    Derives inner items → Derives after [tail] → Derives ls ds →
    Derives (o :: (inner ++ dot :: (after ++ c :: ls)))
      (.list ⟨o.start, c.stop⟩ items (some [tail]) :: ds)

theorem Derives.append {ls ms : List Lexeme} {ds es : List Datum} (first : Derives ls ds)
    (second : Derives ms es) : Derives (ls ++ ms) (ds ++ es) := by
  induction first with
  | nil => exact second
  | atom isAtom _ ih => exact .atom isAtom ih
  | quoted isQuote inner _ _ ih => simpa using Derives.quoted isQuote inner ih
  | list isOpen isClose inner _ _ ih => simpa using Derives.list isOpen isClose inner ih
  | dotted isOpen isDot isClose nonempty inner after _ _ _ ih =>
      simpa using Derives.dotted isOpen isDot isClose nonempty inner after ih

theorem Lexeme.result_of_atom? {l : Lexeme} {a : Atom} (isAtom : l.atom? = some a) :
    ∃ token, l.result = .ok token ∧ token.atom? = some a := by
  unfold Lexeme.atom? at isAtom
  split at isAtom
  · exact ⟨_, ‹_›, isAtom⟩
  · cases isAtom

theorem Lexeme.atom?_of_result {l : Lexeme} {token : Token} {a : Atom} (h : l.result = .ok token)
    (atom : token.atom? = some a) : l.atom? = some a := by
  simp [Lexeme.atom?, h, atom]

theorem Derives.ok {ls : List Lexeme} {ds : List Datum} (derives : Derives ls ds) :
    ∀ l ∈ ls, ∃ token, l.result = .ok token := by
  induction derives with
  | nil => exact List.forall_mem_nil _
  | atom isAtom _ ih =>
      obtain ⟨token, result, -⟩ := Lexeme.result_of_atom? isAtom
      exact List.forall_mem_cons.2 ⟨⟨token, result⟩, ih⟩
  | quoted isQuote _ _ ihInner ih =>
      exact List.forall_mem_cons.2 ⟨⟨_, isQuote⟩, List.forall_mem_append.2 ⟨ihInner, ih⟩⟩
  | list isOpen isClose _ _ ihInner ih =>
      refine List.forall_mem_cons.2 ⟨⟨_, isOpen⟩, List.forall_mem_append.2 ⟨ihInner, ?_⟩⟩
      exact List.forall_mem_cons.2 ⟨⟨_, isClose⟩, ih⟩
  | dotted isOpen isDot isClose _ _ _ _ ihInner ihAfter ih =>
      refine List.forall_mem_cons.2 ⟨⟨_, isOpen⟩, List.forall_mem_append.2 ⟨ihInner, ?_⟩⟩
      refine List.forall_mem_cons.2 ⟨⟨_, isDot⟩, List.forall_mem_append.2 ⟨ihAfter, ?_⟩⟩
      exact List.forall_mem_cons.2 ⟨⟨_, isClose⟩, ih⟩

theorem Derives.quotes {qs ls : List Lexeme} {d : Datum}
    (areQuotes : ∀ q ∈ qs, q.result = .ok .quote) (derives : Derives ls [d]) :
    ∃ d', Derives (qs ++ ls) [d'] := by
  induction qs with
  | nil => exact ⟨d, derives⟩
  | cons q qs ih =>
      obtain ⟨isQuote, rest⟩ := List.forall_mem_cons.1 areQuotes
      obtain ⟨d', inner⟩ := ih rest
      exact ⟨_, by simpa using Derives.quoted isQuote inner .nil⟩

/-! ## What has been read -/

namespace Parser

/-- Significant lexemes read into a level: data, a dot and more data if it has one, and quotes that
wait for a datum. -/
inductive Level.Holds (v : Level) : List Lexeme → Prop
  | plain {ls qs : List Lexeme} {ds : List Datum} : v.dot = none → v.after = 0 → Derives ls ds →
    v.before = ds.length → (∀ q ∈ qs, q.result = .ok .quote) → qs.length = v.quotes.length →
    Holds v (ls ++ qs)
  | dotted {dot : Lexeme} {span : Span} {ls ms qs : List Lexeme} {ds es : List Datum} :
    v.dot = some span → dot.result = .ok .dot → Derives ls ds → v.before = ds.length →
    Derives ms es → v.after = es.length → (∀ q ∈ qs, q.result = .ok .quote) →
    qs.length = v.quotes.length → Holds v (ls ++ dot :: (ms ++ qs))

/-- The same for a level and those around it, up to the root, which has no dot. -/
inductive Holds : Level → List (Span × Level) → List Lexeme → Prop
  | root {v : Level} {ls : List Lexeme} : v.dot = none → v.Holds ls → Holds v [] ls
  | list {v outer : Level} {opening : Span} {enclosing : List (Span × Level)} {o : Lexeme}
      {ls ms : List Lexeme} : Holds outer enclosing ls → o.result = .ok .openParen → v.Holds ms →
    Holds v ((opening, outer) :: enclosing) (ls ++ o :: ms)

namespace Level

variable {v : Level}

@[simp] theorem dot_addLeaf (t : Tree) : (v.addLeaf t).dot = v.dot := by
  unfold addLeaf
  split <;> rfl

@[simp] theorem before_addLeaf (t : Tree) : (v.addLeaf t).before = v.before := by
  unfold addLeaf
  split <;> rfl

@[simp] theorem after_addLeaf (t : Tree) : (v.addLeaf t).after = v.after := by
  unfold addLeaf
  split <;> rfl

@[simp] theorem length_quotes_addLeaf (t : Tree) :
    (v.addLeaf t).quotes.length = v.quotes.length := by
  unfold addLeaf
  split
  · rfl
  · rename_i opened
    simp [opened]

@[simp] theorem dot_addDatum (d : Tree) : (v.addDatum d).dot = v.dot := by
  unfold addDatum
  cases v.dot <;> rfl

theorem counts_addDatum_plain (d : Tree) (plain : v.dot = none) :
    (v.addDatum d).before = v.before + 1 ∧ (v.addDatum d).after = v.after := by
  simp [addDatum, plain]

theorem counts_addDatum_dotted {span : Span} (d : Tree) (dotted : v.dot = some span) :
    (v.addDatum d).before = v.before ∧ (v.addDatum d).after = v.after + 1 := by
  simp [addDatum, dotted]

end Level

section
variable {v : Level} {ls ms : List Lexeme} {d : Datum}

theorem Level.Holds.addLeaf (t : Tree) (holds : v.Holds ls) : (v.addLeaf t).Holds ls := by
  cases holds with
  | plain noDot after derives before areQuotes length =>
      exact .plain (by simpa) (by simpa) derives (by simpa) areQuotes (by simpa)
  | dotted hasDot isDot derives before derives' after areQuotes length =>
      exact .dotted (by simpa) isDot derives (by simpa) derives' (by simpa) areQuotes (by simpa)

theorem Level.Holds.addQuote {l : Lexeme} {q : List Tree} (isQuote : l.result = .ok .quote)
    (holds : v.Holds ls) : Level.Holds { v with quotes := q :: v.quotes } (ls ++ [l]) := by
  have last : ∀ q ∈ [l], q.result = .ok .quote := List.forall_mem_singleton.2 isQuote
  cases holds with
  | plain noDot after derives before areQuotes length =>
      rw [List.append_assoc]
      exact .plain noDot after derives before (List.forall_mem_append.2 ⟨areQuotes, last⟩)
        (by simp [length])
  | dotted hasDot isDot derives before derives' after areQuotes length =>
      rw [List.append_assoc, List.cons_append, List.append_assoc]
      exact .dotted hasDot isDot derives before derives' after
        (List.forall_mem_append.2 ⟨areQuotes, last⟩) (by simp [length])

theorem Level.Holds.addDatum (t : Tree) (holds : v.Holds ls) (derives : Derives ms [d]) :
    (v.addDatum t).Holds (ls ++ ms) := by
  cases holds with
  | plain noDot after derives' before areQuotes length =>
      obtain ⟨d', quoted⟩ := derives.quotes areQuotes
      obtain ⟨before', after'⟩ := counts_addDatum_plain t noDot
      have whole := derives'.append quoted
      rw [List.append_assoc, ← List.append_nil (_ ++ _)]
      exact .plain (by simpa) (after'.trans after) whole (by simp [before', before])
        (List.forall_mem_nil _) rfl
  | @dotted dot _ ls ms' qs ds es hasDot isDot derives' before derives'' after areQuotes length =>
      obtain ⟨d', quoted⟩ := derives.quotes areQuotes
      obtain ⟨before', after'⟩ := counts_addDatum_dotted t hasDot
      have whole := derives''.append quoted
      have same : ls ++ dot :: (ms' ++ qs) ++ ms = ls ++ dot :: (ms' ++ (qs ++ ms) ++ []) := by simp
      rw [same]
      exact .dotted (by simpa) isDot derives' (before'.trans before) whole (by simp [after', after])
        (List.forall_mem_nil _) rfl

theorem Holds.addLeaf {enclosing : List (Span × Level)} (t : Tree) (holds : Holds v enclosing ls) :
    Holds (v.addLeaf t) enclosing ls := by
  cases holds with
  | root noDot holds => exact .root (by simpa) (holds.addLeaf t)
  | list outer isOpen holds => exact .list outer isOpen (holds.addLeaf t)

theorem Holds.addDatum {enclosing : List (Span × Level)} (t : Tree) (holds : Holds v enclosing ls)
    (derives : Derives ms [d]) : Holds (v.addDatum t) enclosing (ls ++ ms) := by
  cases holds with
  | root noDot holds => exact .root (by simpa) (holds.addDatum t derives)
  | list outer isOpen holds =>
      rw [List.append_assoc]
      exact .list outer isOpen (holds.addDatum t derives)

theorem Level.Holds.of_closed (holds : v.Holds ls) (closed : v.quotes = []) :
    (v.dot = none ∧ v.after = 0 ∧ ∃ ds, Derives ls ds ∧ v.before = ds.length) ∨
      ∃ span dot us ms ds es, v.dot = some span ∧ dot.result = .ok .dot ∧ ls = us ++ dot :: ms ∧
        Derives us ds ∧ v.before = ds.length ∧ Derives ms es ∧ v.after = es.length := by
  cases holds with
  | @plain ls qs ds noDot after derives before areQuotes length =>
      have none : qs = [] := List.length_eq_zero_iff.1 (by simpa [closed] using length)
      subst none
      rw [List.append_nil]
      exact .inl ⟨noDot, after, ds, derives, before⟩
  | @dotted dot span us ms qs ds es hasDot isDot derives before derives' after areQuotes length =>
      have none : qs = [] := List.length_eq_zero_iff.1 (by simpa [closed] using length)
      subst none
      rw [List.append_nil]
      exact .inr ⟨span, dot, us, ms, ds, es, hasDot, isDot, rfl, derives, before, derives', after⟩

/-- A list whose dot is in its place is a datum. -/
theorem Level.Holds.derives_list {o c : Lexeme} (isOpen : o.result = .ok .openParen)
    (isClose : c.result = .ok .closeParen) (holds : v.Holds ls) (closed : v.quotes = [])
    (placed : v.dotError = []) : ∃ d, Derives (o :: (ls ++ [c])) [d] := by
  rcases holds.of_closed closed with ⟨-, -, ds, derives, -⟩ |
    ⟨span, dot, us, ms, ds, es, hasDot, isDot, rfl, derives, before, derives', after⟩
  · exact ⟨_, .list isOpen isClose derives .nil⟩
  · have counts : ¬ (v.before = 0 ∨ v.after ≠ 1) := by
      intro misplaced
      simp [dotError, hasDot, misplaced] at placed
    have single : es.length = 1 := by omega
    have nonempty : ds ≠ [] := List.ne_nil_of_length_pos (by omega)
    obtain ⟨tail, rfl⟩ := List.length_eq_one_iff.1 single
    rw [List.append_assoc, List.cons_append]
    exact ⟨_, .dotted isOpen isDot isClose nonempty derives derives' .nil⟩

end

/-! ## Steps without errors -/

namespace State

variable {s : State} {l : Lexeme} {ls : List Lexeme}

theorem new_eq_nil {new : List ParseError} (errors : (s.step l).errors = new.reverse ++ s.errors)
    (ok : (s.step l).errors = []) : new = [] ∧ s.errors = [] := by
  simpa using errors.symm.trans ok

theorem quotes_eq_nil_of_ok (refuses : l.result = .ok .closeParen ∨ l.result = .ok .dot)
    (ok : (s.step l).errors = []) : s.level.quotes = [] := by
  obtain ⟨new, errors, effect⟩ := s.step_effect l
  have notQuoting := effect.not_quoting (new_eq_nil errors ok).1 refuses
  simpa [outline] using notQuoting

theorem closeParen_holds (isClose : l.result = .ok .closeParen) (closed : s.level.quotes = [])
    (holds : Holds s.level s.enclosing ls) (ok : (s.closeParen l).errors = []) :
    Holds (s.closeParen l).level (s.closeParen l).enclosing (ls ++ [l]) := by
  generalize inside : s.enclosing = enclosing at holds
  cases holds with
  | root => simp [closeParen, settleQuote_closed closed, inside, report] at ok
  | @list _ outer opening rest o ls ms outside isOpen inner =>
      rw [closeParen_closed closed inside] at ok ⊢
      have placed : (s.level.addLeaf (.leaf .closeParen l)).dotError = [] := by
        simpa using (List.append_eq_nil_iff.1 ok).1
      have closed' : (s.level.addLeaf (.leaf .closeParen l)).quotes = [] := by
        simp [Level.addLeaf, closed]
      obtain ⟨d, derives⟩ := (inner.addLeaf _).derives_list isOpen isClose closed' placed
      rw [List.append_assoc]
      exact outside.addDatum _ derives

theorem dot_holds (isDot : l.result = .ok .dot) (closed : s.level.quotes = [])
    (holds : Holds s.level s.enclosing ls) (ok : (s.dot l).errors = []) :
    Holds (s.dot l).level (s.dot l).enclosing (ls ++ [l]) := by
  generalize inside : s.enclosing = enclosing at holds
  cases holds with
  | root => simp [dot, settleQuote_closed closed, inside, report] at ok
  | @list _ outer opening rest o ls ms outside isOpen inner =>
      rcases inner.of_closed closed with ⟨noDot, after, ds, derives, before⟩ |
        ⟨span, _, _, _, _, _, hasDot, -⟩
      · have nested : s.enclosing ≠ [] := by simp [inside]
        rw [dot_closed closed nested noDot, inside, List.append_assoc, List.cons_append]
        refine .list outside isOpen ?_
        have split : ms ++ [l] = ms ++ l :: ([] ++ []) := rfl
        rw [split]
        exact .dotted rfl isDot derives (by simpa) .nil (by simpa) (List.forall_mem_nil _)
          (by simp [closed])
      · simp [dot, settleQuote_closed closed, report, hasDot] at ok

theorem quote_holds (isQuote : l.result = .ok .quote) (holds : Holds s.level s.enclosing ls) :
    Holds (s.quote l).level (s.quote l).enclosing (ls ++ [l]) := by
  obtain ⟨level, enclosing, errors, stop⟩ := s
  cases holds with
  | root noDot holds => exact .root noDot (holds.addQuote isQuote)
  | list outside isOpen holds =>
      rw [List.append_assoc]
      exact .list outside isOpen (holds.addQuote isQuote)

theorem step_holds (holds : Holds s.level s.enclosing ls) (ok : (s.step l).errors = []) :
    Holds (s.step l).level (s.step l).enclosing (ls ++ significant [l]) := by
  cases l.role with
  | error e h =>
      rw [step_error h] at ok
      cases ok
  | openParen h =>
      rw [step_openParen h, significant_singleton (Lexeme.isTrivia_ok h)]
      exact .list holds h (.plain rfl rfl .nil rfl (List.forall_mem_nil _) rfl)
  | closeParen h =>
      have closed := quotes_eq_nil_of_ok (.inl h) ok
      rw [step_closeParen h] at ok ⊢
      rw [significant_singleton (Lexeme.isTrivia_ok h)]
      exact closeParen_holds h closed holds ok
  | quote h =>
      rw [step_quote h, significant_singleton (Lexeme.isTrivia_ok h)]
      exact quote_holds h holds
  | dot h =>
      have closed := quotes_eq_nil_of_ok (.inr h) ok
      rw [step_dot h] at ok ⊢
      rw [significant_singleton (Lexeme.isTrivia_ok h)]
      exact dot_holds h closed holds ok
  | trivia token h trivia =>
      rw [step_trivia h trivia, significant_trivia ((Lexeme.isTrivia_ok h).trans trivia),
        List.append_nil]
      exact holds.addLeaf _
  | atom token a h atom =>
      rw [step_atom h atom, significant_singleton (Lexeme.isTrivia_atom h atom)]
      exact holds.addDatum _ (.atom (Lexeme.atom?_of_result h atom) .nil)

theorem errors_eq_nil_of_run (ms : List Lexeme) (ok : (ms.foldl step s).errors = []) :
    s.errors = [] := by
  induction ms generalizing s with
  | nil => exact ok
  | cons m ms ih =>
      obtain ⟨new, errors, -⟩ := s.step_effect m
      exact (new_eq_nil errors (ih ok)).2

theorem run_holds (ms : List Lexeme) (holds : Holds s.level s.enclosing ls)
    (ok : (ms.foldl step s).errors = []) :
    Holds (ms.foldl step s).level (ms.foldl step s).enclosing (ls ++ significant ms) := by
  induction ms generalizing s ls with
  | nil => simpa [significant] using holds
  | cons m ms ih =>
      have first := step_holds holds (errors_eq_nil_of_run ms ok)
      have rest := ih first ok
      rwa [List.append_assoc, ← significant_append, List.singleton_append] at rest

/-- Without errors nothing is left open at the end. -/
theorem closed_of_finish (ok : s.finish.errors = []) :
    s.errors = [] ∧ s.level.quotes = [] ∧ s.enclosing = [] := by
  obtain ⟨new, errors, unclosed⟩ := s.finish_errors
  rw [ok] at errors
  obtain ⟨before, atEnd⟩ := List.append_eq_nil_iff.1 errors.symm
  obtain ⟨noQuote, rfl⟩ := List.append_eq_nil_iff.1 atEnd
  refine ⟨List.reverse_eq_nil_iff.1 before, ?_, ?_⟩
  · simpa [outline, dangling] using noQuote
  · generalize opens : s.outline.opens = os at unclosed
    cases unclosed
    simpa [outline] using opens

end State

end Parser

theorem derives_of_isOk {source : String} (ok : (parse source).isOk = true) :
    ∃ ds, Derives (significant (lex source)) ds := by
  have finished : (parse source).errors = [] := List.isEmpty_iff.1 ok
  obtain ⟨noErrors, noQuotes, noLists⟩ := Parser.State.closed_of_finish finished
  have empty : Parser.Level.Holds {} ([] ++ []) := .plain rfl rfl .nil rfl (List.forall_mem_nil _) rfl
  have start : Parser.Holds ({} : Parser.State).level ({} : Parser.State).enclosing [] :=
    .root rfl empty
  have holds := Parser.State.run_holds (lex source) start noErrors
  rw [noLists, List.nil_append] at holds
  cases holds with
  | root noDot holds =>
      rcases holds.of_closed noQuotes with ⟨-, -, ds, derives, -⟩ | ⟨span, _, _, _, _, _, hasDot, -⟩
      · exact ⟨ds, derives⟩
      · cases noDot.symm.trans hasDot

end StoreScheme
