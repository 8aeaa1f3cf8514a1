import StoreScheme.Proofs.Tree.Steps

/-!
# Reported errors

The errors of a source say exactly what is wrong with its lexemes, its parentheses and its quotes.
Parentheses are matched as if nothing else stood between them.

* `Unmatched`: the parentheses that have no partner
* `danglingQuotes`: where the quotes without a datum are reported
* `Parser.State.run_balanced`, `Parser.State.run_unmatched`: matched parentheses leave no trace
* `parse_errors_exact`: the errors of a source
-/

namespace StoreScheme

/-! ## What there is to report -/

/-- The error of a lexeme, with its place. -/
def Lexeme.error? (l : Lexeme) : Option (Span × LexError) :=
  match l.result with
  | .error e => some (l.span, e)
  | .ok _ => none

/-- Lexemes whose parentheses match. -/
inductive Balanced : List Lexeme → Prop
  | nil : Balanced []
  | other {l : Lexeme} {ls : List Lexeme} : l.result ≠ .ok .openParen → l.result ≠ .ok .closeParen →
    Balanced ls → Balanced (l :: ls)
  | pair {o c : Lexeme} {inner ls : List Lexeme} : o.result = .ok .openParen →
    c.result = .ok .closeParen → Balanced inner → Balanced ls → Balanced (o :: (inner ++ c :: ls))

/-- Lexemes with the closing and the opening parentheses among them that are left over when all
others are matched: those that close come first, and what stands between them is balanced. -/
inductive Unmatched : (closes opens : List Lexeme) → List Lexeme → Prop
  | balanced {ls : List Lexeme} : Balanced ls → Unmatched [] [] ls
  | close {c : Lexeme} {cs os ls rest : List Lexeme} : Balanced ls → c.result = .ok .closeParen →
    Unmatched cs os rest → Unmatched (c :: cs) os (ls ++ c :: rest)
  | open' {o : Lexeme} {os ls rest : List Lexeme} : Balanced ls → o.result = .ok .openParen →
    Unmatched [] os rest → Unmatched [] (o :: os) (ls ++ o :: rest)

/-- The place where a quote in front of some lexemes is found to have no datum, if it has none: at the
next lexeme that is not trivia, or at the end. -/
def refusal? (stop : Nat) (ls : List Lexeme) : Option Span :=
  match (significant ls).head? with
  | none => some ⟨stop, stop⟩
  | some l =>
    match l.result with
    | .ok .closeParen | .ok .dot => some l.span
    | _ => none

def danglingQuotes (stop : Nat) : List Lexeme → List Span
  | [] => []
  | l :: ls =>
    (match l.result with
      | .ok .quote => (refusal? stop ls).toList
      | _ => []) ++ danglingQuotes stop ls

/-- The end of the last lexeme. -/
def lastStop (ls : List Lexeme) : Nat := (ls.getLast?.map Lexeme.stop).getD 0

/-! ## Errors of one kind -/

def ParseErrorKind.lexError? : ParseErrorKind → Option LexError
  | .lexer e => some e
  | _ => none

/-- The errors of lexemes among others, with their places. -/
def lexErrors (errors : List ParseError) : List (Span × LexError) :=
  errors.filterMap fun e => e.kind.lexError?.map (e.span, ·)

def spansOf (kind : ParseErrorKind) (errors : List ParseError) : List Span :=
  (errors.filter fun e => e.kind = kind).map ParseError.span

section
variable {kind : ParseErrorKind} {errors errors' : List ParseError}

@[simp] theorem lexErrors_nil : lexErrors [] = [] := rfl

@[simp] theorem lexErrors_cons (e : ParseError) :
    lexErrors (e :: errors) = (e.kind.lexError?.map (e.span, ·)).toList ++ lexErrors errors := by
  cases own : e.kind.lexError? <;> simp [lexErrors, own]

@[simp] theorem spansOf_nil : spansOf kind [] = [] := rfl

@[simp] theorem spansOf_cons (e : ParseError) :
    spansOf kind (e :: errors) = (if e.kind = kind then [e.span] else []) ++ spansOf kind errors := by
  by_cases same : e.kind = kind <;> simp [spansOf, same]

@[simp] theorem lexErrors_append :
    lexErrors (errors ++ errors') = lexErrors errors ++ lexErrors errors' :=
  List.filterMap_append

@[simp] theorem spansOf_append :
    spansOf kind (errors ++ errors') = spansOf kind errors ++ spansOf kind errors' := by
  simp [spansOf]

theorem lexErrors_of_dotErrors (dots : Parser.DotErrors errors) : lexErrors errors = [] := by
  refine List.filterMap_eq_nil_iff.2 fun e member => ?_
  rw [dots e member]
  rfl

theorem spansOf_of_dotErrors (dots : Parser.DotErrors errors) (other : kind ≠ .misplacedDot) :
    spansOf kind errors = [] := by
  refine List.map_eq_nil_iff.2 (List.filter_eq_nil_iff.2 fun e member => ?_)
  rw [dots e member]
  simpa using other.symm

@[simp] theorem lexErrors_dangling (q : Bool) (span : Span) : lexErrors (Parser.dangling q span) = [] := by
  cases q <;> rfl

@[simp] theorem spansOf_dangling (q : Bool) (span : Span) :
    spansOf kind (Parser.dangling q span) = if kind = .danglingQuote ∧ q = true then [span] else [] := by
  cases q with
  | false => simp [Parser.dangling]
  | true => simp [Parser.dangling, eq_comm]

theorem lexErrors_of_unclosed {opens : List Span} (unclosed : Parser.Unclosed opens errors) :
    lexErrors errors = [] := by
  induction unclosed with
  | nil => rfl
  | cons dots _ ih => simp [lexErrors_of_dotErrors dots, ih, ParseErrorKind.lexError?]

theorem spansOf_of_unclosed (kind : ParseErrorKind) {opens : List Span}
    (unclosed : Parser.Unclosed opens errors) (other : kind ≠ .misplacedDot) :
    spansOf kind errors = if kind = .unclosedList then opens else [] := by
  induction unclosed with
  | nil => simp
  | cons dots _ ih =>
      by_cases same : kind = .unclosedList
      · subst same
        simp [spansOf_of_dotErrors dots other, ih]
      · simp [spansOf_of_dotErrors dots other, ih, same, Ne.symm same]

end

/-! ## Matching parentheses -/

theorem Balanced.append {ls ms : List Lexeme} (first : Balanced ls) (second : Balanced ms) :
    Balanced (ls ++ ms) := by
  induction first with
  | nil => exact second
  | other notOpen notClose _ ih => exact .other notOpen notClose ih
  | @pair o c inner ls isOpen isClose balanced _ _ ih =>
      have whole : o :: (inner ++ c :: ls) ++ ms = o :: (inner ++ c :: (ls ++ ms)) := by simp
      rw [whole]
      exact .pair isOpen isClose balanced ih

theorem Unmatched.prepend {cs os ls ms : List Lexeme} (balanced : Balanced ls)
    (unmatched : Unmatched cs os ms) : Unmatched cs os (ls ++ ms) := by
  cases unmatched with
  | balanced balanced' => exact .balanced (balanced.append balanced')
  | close balanced' isClose rest =>
      rw [← List.append_assoc]
      exact .close (balanced.append balanced') isClose rest
  | open' balanced' isOpen rest =>
      rw [← List.append_assoc]
      exact .open' (balanced.append balanced') isOpen rest

theorem exists_unmatched (ls : List Lexeme) : ∃ cs os, Unmatched cs os ls := by
  induction ls with
  | nil => exact ⟨[], [], .balanced .nil⟩
  | cons l ls ih =>
      obtain ⟨cs, os, unmatched⟩ := ih
      by_cases isClose : l.result = .ok .closeParen
      · exact ⟨l :: cs, os, .close .nil isClose unmatched⟩
      · by_cases isOpen : l.result = .ok .openParen
        · cases unmatched with
          | balanced balanced => exact ⟨[], [l], .open' .nil isOpen (.balanced balanced)⟩
          | open' balanced isOpen' rest => exact ⟨[], _, .open' .nil isOpen (.open' balanced isOpen' rest)⟩
          | @close c cs os inner rest balanced isClose' rest' =>
              -- The first closing parenthesis left over is the partner of this one.
              have pair : Balanced (l :: (inner ++ c :: [])) := .pair isOpen isClose' balanced .nil
              have whole : l :: (inner ++ c :: rest) = l :: (inner ++ c :: []) ++ rest := by simp
              rw [whole]
              exact ⟨cs, os, rest'.prepend pair⟩
        · have single : Balanced [l] := .other isOpen isClose .nil
          exact ⟨cs, os, unmatched.prepend single⟩

namespace Parser

/-! ## Errors of lexemes -/

section
variable {l : Lexeme} {before after : Outline} {new : List ParseError}

theorem Effect.lexErrors_eq (effect : Effect l before new after) : lexErrors new = l.error?.toList := by
  cases effect with
  | closeParen h dots => simp [lexErrors_of_dotErrors dots, Lexeme.error?, h]
  | dot h dots => simp [lexErrors_of_dotErrors dots, Lexeme.error?, h]
  | error h | strayParen h => simp [Lexeme.error?, h, ParseErrorKind.lexError?]
  | openParen h | quote h | trivia h _ | atom h _ => simp [Lexeme.error?, h]

-- Lists are reported as unclosed only at the end.
theorem Effect.unclosedList (effect : Effect l before new after) : spansOf .unclosedList new = [] := by
  cases effect with
  | closeParen h dots => simp [spansOf_of_dotErrors dots]
  | dot h dots => simp [spansOf_of_dotErrors dots]
  | _ => simp

end

namespace State

variable {s : State} {l : Lexeme} {ls : List Lexeme}

theorem run_lexErrors (s : State) (ls : List Lexeme) :
    lexErrors (ls.foldl step s).errors.reverse =
      lexErrors s.errors.reverse ++ ls.filterMap Lexeme.error? := by
  induction ls generalizing s with
  | nil => simp
  | cons l ls ih =>
      obtain ⟨new, errors, effect⟩ := s.step_effect l
      rw [List.foldl_cons, ih, errors]
      cases own : l.error? <;> simp [effect.lexErrors_eq, own]

theorem run_unclosedList (s : State) (ls : List Lexeme) :
    spansOf .unclosedList (ls.foldl step s).errors.reverse =
      spansOf .unclosedList s.errors.reverse := by
  induction ls generalizing s with
  | nil => rfl
  | cons l ls ih =>
      obtain ⟨new, errors, effect⟩ := s.step_effect l
      rw [List.foldl_cons, ih, errors]
      simp [effect.unclosedList]

/-! ## Errors of parentheses -/

/-- The open lists, innermost first, and the places of the closing parentheses that closed none. -/
def parens (s : State) : List Span × List Span :=
  (s.outline.opens, spansOf .unexpectedCloseParen s.errors.reverse)

theorem parens_of_effect {new : List ParseError} (errors : (s.step l).errors = new.reverse ++ s.errors) :
    (s.step l).parens =
      ((s.step l).outline.opens, s.parens.2 ++ spansOf .unexpectedCloseParen new) := by
  simp [parens, errors]

theorem parens_step_other (notOpen : l.result ≠ .ok .openParen)
    (notClose : l.result ≠ .ok .closeParen) : (s.step l).parens = s.parens := by
  obtain ⟨new, errors, effect⟩ := s.step_effect l
  rw [parens_of_effect errors]
  generalize (s.step l).outline = after at effect
  generalize before' : s.outline = before at effect
  cases effect with
  | openParen h => exact absurd h notOpen
  | closeParen h _ | strayParen h => exact absurd h notClose
  | dot h dots => simp [parens, before', spansOf_of_dotErrors dots]
  | _ => simp [parens, before']

theorem parens_step_openParen (isOpen : l.result = .ok .openParen) :
    (s.step l).parens = (l.span :: s.parens.1, s.parens.2) := by
  rw [step_openParen isOpen]
  rfl

theorem parens_step_closeParen {opening : Span} {rest : List Span}
    (isClose : l.result = .ok .closeParen) (inside : s.parens.1 = opening :: rest) :
    (s.step l).parens = (rest, s.parens.2) := by
  obtain ⟨new, errors, effect⟩ := s.step_effect l
  rw [parens_of_effect errors]
  change s.outline.opens = opening :: rest at inside
  generalize (s.step l).outline = after at effect
  generalize s.outline = before at effect inside
  cases effect with
  | closeParen _ dots =>
      cases inside
      simp [spansOf_of_dotErrors dots]
  | strayParen _ => cases inside
  | trivia h impossible => cases h.symm.trans isClose; cases impossible
  | atom h impossible => cases h.symm.trans isClose; cases impossible
  | error h | openParen h | quote h | dot h _ => cases h.symm.trans isClose

theorem parens_step_strayParen (isClose : l.result = .ok .closeParen) (outermost : s.parens.1 = []) :
    (s.step l).parens = ([], s.parens.2 ++ [l.span]) := by
  obtain ⟨new, errors, effect⟩ := s.step_effect l
  rw [parens_of_effect errors]
  change s.outline.opens = [] at outermost
  generalize (s.step l).outline = after at effect
  generalize s.outline = before at effect outermost
  cases effect with
  | closeParen _ _ => cases outermost
  | strayParen _ => simp
  | trivia h impossible => cases h.symm.trans isClose; cases impossible
  | atom h impossible => cases h.symm.trans isClose; cases impossible
  | error h | openParen h | quote h | dot h _ => cases h.symm.trans isClose

/-- Balanced lexemes leave the open lists as they are, and none of their parentheses is reported. -/
theorem run_balanced (balanced : Balanced ls) (s : State) : (ls.foldl step s).parens = s.parens := by
  induction balanced generalizing s with
  | nil => rfl
  | other notOpen notClose _ ih => rw [List.foldl_cons, ih, parens_step_other notOpen notClose]
  | @pair o c inner ls isOpen isClose _ _ ihInner ih =>
      rw [List.foldl_cons, List.foldl_append, List.foldl_cons, ih]
      have opened := (ihInner (s.step o)).trans (parens_step_openParen isOpen)
      generalize inner.foldl step (s.step o) = between at opened
      rw [parens_step_closeParen isClose (congrArg Prod.fst opened), opened]

/-- An opening parenthesis that is left over stays open.  One that closes is only left over where
no list is open. -/
theorem run_unmatched {cs os : List Lexeme} (unmatched : Unmatched cs os ls) (s : State)
    (outermost : cs = [] ∨ s.parens.1 = []) :
    (ls.foldl step s).parens =
      (os.reverse.map Lexeme.span ++ s.parens.1, s.parens.2 ++ cs.map Lexeme.span) := by
  induction unmatched generalizing s with
  | balanced balanced => simp [run_balanced balanced s]
  | @close c cs os ls rest balanced isClose _ ih =>
      have before := run_balanced balanced s
      have outermost : s.parens.1 = [] := outermost.resolve_left (List.cons_ne_nil c cs)
      rw [List.foldl_append, List.foldl_cons]
      generalize ls.foldl step s = t at before
      have stray := parens_step_strayParen isClose ((congrArg Prod.fst before).trans outermost)
      rw [ih (t.step c) (.inr (congrArg Prod.fst stray)), stray, before, outermost]
      simp
  | @open' o os ls rest balanced isOpen _ ih =>
      have before := run_balanced balanced s
      rw [List.foldl_append, List.foldl_cons, ih _ (.inl rfl), parens_step_openParen isOpen, before]
      simp

/-! ## Errors of quotes -/

theorem refusal?_trivia {stop : Nat} (trivia : l.isTrivia = true) :
    refusal? stop (l :: ls) = refusal? stop ls := by
  simp [refusal?, significant, trivia]

theorem refusal?_significant {stop : Nat} (notTrivia : l.isTrivia = false) :
    refusal? stop (l :: ls) =
      match l.result with
      | .ok .closeParen | .ok .dot => some l.span
      | _ => none := by
  simp [refusal?, significant, notTrivia]

/-- An open quote is reported at the first lexeme after it that is not trivia, or goes on to wait. -/
theorem effect_danglingQuote {before after : Outline} {new : List ParseError} (stop : Nat)
    (effect : Effect l before new after) :
    spansOf .danglingQuote new ++ (if after.quoting then (refusal? stop ls).toList else []) ++
        danglingQuotes stop ls =
      (if before.quoting then (refusal? stop (l :: ls)).toList else []) ++
        danglingQuotes stop (l :: ls) := by
  cases effect with
  | error h => simp [refusal?_significant (Lexeme.isTrivia_error h), danglingQuotes, h]
  | openParen h => simp [refusal?_significant (Lexeme.isTrivia_ok h), danglingQuotes, h]
  | closeParen h dots =>
      simp [refusal?_significant (Lexeme.isTrivia_ok h), danglingQuotes, h,
        spansOf_of_dotErrors dots]
  | strayParen h => simp [refusal?_significant (Lexeme.isTrivia_ok h), danglingQuotes, h]
  | quote h => simp [refusal?_significant (Lexeme.isTrivia_ok h), danglingQuotes, h]
  | dot h dots =>
      simp [refusal?_significant (Lexeme.isTrivia_ok h), danglingQuotes, h,
        spansOf_of_dotErrors dots]
  | @trivia token _ _ h trivia =>
      rw [refusal?_trivia ((Lexeme.isTrivia_ok h).trans trivia)]
      cases token <;> simp_all [danglingQuotes, Token.isTrivia]
  | @atom token _ _ _ h atom =>
      rw [refusal?_significant (Lexeme.isTrivia_atom h atom)]
      cases token <;> simp_all [danglingQuotes, Token.atom?]

theorem run_danglingQuote (s : State) (ls : List Lexeme) (stop : Nat) :
    spansOf .danglingQuote ((ls.foldl step s).errors.reverse ++
        dangling (ls.foldl step s).outline.quoting ⟨stop, stop⟩) =
      spansOf .danglingQuote s.errors.reverse ++
        ((if s.outline.quoting then (refusal? stop ls).toList else []) ++ danglingQuotes stop ls) := by
  induction ls generalizing s with
  | nil => simp [refusal?, significant, danglingQuotes]
  | cons l ls ih =>
      obtain ⟨new, errors, effect⟩ := s.step_effect l
      rw [List.foldl_cons, ih, errors, ← effect_danglingQuote stop effect]
      simp

theorem run_stop (s : State) (ls : List Lexeme) :
    (ls.foldl step s).stop = (ls.getLast?.map Lexeme.stop).getD s.stop := by
  induction ls generalizing s with
  | nil => rfl
  | cons l ls ih =>
      rw [List.foldl_cons, ih, step_stop, List.getLast?_cons]
      cases ls.getLast? <;> rfl

end State

end Parser

/-! ## Sources -/

/-- Of the errors of a source, those of lexemes are the errors of its lexemes, one for one and in
order; the unexpected closing parentheses are those that have no partner, in order; the lists that
are never closed are those whose opening parenthesis has none, the last one first; and there is a
dangling quote for each quote with no datum after it, in order. -/
theorem parse_errors_exact (source : String) :
    lexErrors (parse source).errors = (lex source).filterMap Lexeme.error? ∧
    (∃ cs os, Unmatched cs os (lex source)) ∧
    (∀ cs os, Unmatched cs os (lex source) →
      spansOf .unexpectedCloseParen (parse source).errors = cs.map Lexeme.span ∧
      spansOf .unclosedList (parse source).errors = os.reverse.map Lexeme.span) ∧
    spansOf .danglingQuote (parse source).errors =
      danglingQuotes (lastStop (lex source)) (lex source) := by
  have start : ({} : Parser.State).outline = ⟨[], false⟩ := rfl
  obtain ⟨new, errors, unclosed⟩ := ((lex source).foldl Parser.State.step {}).finish_errors
  change (parse source).errors = _ at errors
  rw [errors]
  refine ⟨?_, exists_unmatched _, fun cs os unmatched => ?_, ?_⟩
  · simp [Parser.State.run_lexErrors, lexErrors_of_unclosed unclosed]
  · have parens := Parser.State.run_unmatched unmatched {} (.inr rfl)
    have opens := congrArg Prod.fst parens
    have strays := congrArg Prod.snd parens
    constructor
    · have others := spansOf_of_unclosed .unexpectedCloseParen unclosed (by simp)
      simpa [others, Parser.State.parens] using strays
    · have noneBefore := Parser.State.run_unclosedList {} (lex source)
      have own := spansOf_of_unclosed .unclosedList unclosed (by simp)
      simpa [own, noneBefore, Parser.State.parens, start] using opens
  · have quotes := Parser.State.run_danglingQuote {} (lex source) (lastStop (lex source))
    have stop := Parser.State.run_stop {} (lex source)
    have others := spansOf_of_unclosed .danglingQuote unclosed (by simp)
    rw [← List.append_assoc, spansOf_append, others, stop]
    simpa [lastStop, start] using quotes

end StoreScheme
