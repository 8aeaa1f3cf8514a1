import StoreScheme.Proofs.Tree.Soundness

/-!
# Error recovery

The tree of a source keeps its shape whatever is wrong with the source, and it can be told from the tree
what is wrong: error leaves stand where errors are reported, and the lists that have no closing
parenthesis are those that are reported as unclosed.

* `Tree.node_eq_of_span_eq`: no two nodes begin with a leaf at the same place
* `Parser.State.parts`, `Parser.State.mem_parts_step`: the parts of what is read, none of which is lost
* `ParseError.Shown`: what an error says of the tree
* `Parser.State.Shows.step`, `Parser.State.Shows.run`: one lexeme, and all of them
* `parse_tree_shaped`: the tree and the errors of a source
-/

namespace StoreScheme

/-! ## Places of nodes -/

namespace Tree

section
variable {k j : NodeKind} {a b : LeafKind} {l m : Lexeme} {ts us : List Tree}

theorem first_mem_leaves {t : Tree} (inside : .node k (.leaf a l :: ts) ∈ t.parts) : l ∈ t.leaves :=
  mem_leaves (parts_of_child List.mem_cons_self t inside)

theorem first_mem_leavesAll (inside : .node k (.leaf a l :: ts) ∈ partsAll us) : l ∈ leavesAll us := by
  rw [leavesAll_eq]
  exact List.mem_filterMap.2 ⟨.leaf a l, partsAll_of_child List.mem_cons_self us inside, rfl⟩

theorem not_mem_partsAll_of_span_eq (distinct : ((leavesAll (.leaf a l :: ts)).map Lexeme.span).Nodup)
    (same : l.span = m.span) : .node j (.leaf b m :: us) ∉ partsAll (.leaf a l :: ts) := by
  intro inside
  have below : .node j (.leaf b m :: us) ∈ partsAll ts := by simpa [partsAll, parts] using inside
  have later : m.span ∈ (leavesAll ts).map Lexeme.span := List.mem_map_of_mem (first_mem_leavesAll below)
  have first : l.span ∉ (leavesAll ts).map Lexeme.span := (List.nodup_cons.1 distinct).1
  exact first (same ▸ later)

mutual

/-- A node whose first child is a leaf is determined by the place of this leaf. -/
theorem node_eq_of_span_eq (same : l.span = m.span) : ∀ t : Tree, (t.leaves.map Lexeme.span).Nodup →
    .node k (.leaf a l :: ts) ∈ t.parts → .node j (.leaf b m :: us) ∈ t.parts →
    Tree.node k (.leaf a l :: ts) = .node j (.leaf b m :: us)
  | .leaf _ _, _, first, _ => by simp [parts] at first
  | .node _ children, distinct, first, second => by
      rcases List.mem_cons.1 first with own | below
      · rcases List.mem_cons.1 second with own' | below'
        · exact own.trans own'.symm
        · cases own
          exact absurd below' (not_mem_partsAll_of_span_eq distinct same)
      · rcases List.mem_cons.1 second with own' | below'
        · cases own'
          exact absurd below (not_mem_partsAll_of_span_eq distinct same.symm)
        · exact node_eq_of_span_eq_all same children distinct below below'

theorem node_eq_of_span_eq_all (same : l.span = m.span) : ∀ cs : List Tree,
    ((leavesAll cs).map Lexeme.span).Nodup →
    .node k (.leaf a l :: ts) ∈ partsAll cs → .node j (.leaf b m :: us) ∈ partsAll cs →
    Tree.node k (.leaf a l :: ts) = .node j (.leaf b m :: us)
  | [], _, first, _ => by simp [partsAll] at first
  | t :: cs, distinct, first, second => by
      rw [leavesAll, List.map_append, List.nodup_append] at distinct
      obtain ⟨own, others, disjoint⟩ := distinct
      have apart {x y : Lexeme} (here : x ∈ t.leaves) (later : y ∈ leavesAll cs) : x.span ≠ y.span :=
        disjoint _ (List.mem_map_of_mem here) _ (List.mem_map_of_mem later)
      rcases List.mem_append.1 first with here | later
      · rcases List.mem_append.1 second with here' | later'
        · exact node_eq_of_span_eq same t own here here'
        · exact absurd same (apart (first_mem_leaves here) (first_mem_leavesAll later'))
      · rcases List.mem_append.1 second with here' | later'
        · exact absurd same.symm (apart (first_mem_leaves here') (first_mem_leavesAll later))
        · exact node_eq_of_span_eq_all same cs others later later'

end

end

theorem nodup_leaf_spans (source : String) : ((parse source).tree.leaves.map Lexeme.span).Nodup := by
  rw [parse_leaves]
  refine List.pairwise_map.2 ((lex_tiling source).stops_increase.imp fun less same => ?_)
  exact Nat.ne_of_lt less (congrArg Span.stop same)

end Tree

namespace Parser

variable {part t : Tree} {l : Lexeme}

/-! ## Parts that are read -/

namespace Level

variable {v : Level}

def parts (v : Level) : List Tree := Tree.partsAll v.children ++ Tree.partsAll v.quotes.flatten

theorem mem_parts_addLeaf : part ∈ (v.addLeaf t).parts ↔ part ∈ t.parts ∨ part ∈ v.parts := by
  unfold addLeaf
  split
  · rename_i closed
    simp [parts, closed, Tree.partsAll]
  · rename_i q qs opened
    simp [parts, opened, Tree.partsAll, or_left_comm]

theorem mem_quotedDatum {q : List Tree} (inside : part ∈ Tree.partsAll q) :
    part ∈ (quotedDatum q).parts := by
  simp [quotedDatum, Tree.parts, Tree.partsAll, Tree.mem_partsAll_reverse, inside]

theorem mem_foldl_quotedDatum {qs : List (List Tree)}
    (inside : part ∈ t.parts ∨ part ∈ Tree.partsAll qs.flatten) :
    part ∈ (qs.foldl (fun d q => quotedDatum (d :: q)) t).parts := by
  induction qs generalizing t with
  | nil => simpa [Tree.partsAll] using inside
  | cons q qs ih =>
      rw [List.flatten_cons, Tree.partsAll_append, List.mem_append, ← or_assoc] at inside
      exact ih (inside.imp_left fun own => mem_quotedDatum (List.mem_append.2 own))

theorem mem_parts_addDatum (inside : part ∈ t.parts ∨ part ∈ v.parts) : part ∈ (v.addDatum t).parts := by
  rw [parts, List.mem_append] at inside
  refine List.mem_append_left _ (List.mem_append.2 ?_)
  rcases inside with datum | child | quoted
  · exact .inl (mem_foldl_quotedDatum (.inl datum))
  · exact .inr child
  · exact .inl (mem_foldl_quotedDatum (.inr quoted))

theorem mem_parts_endQuote (inside : part ∈ v.parts) : part ∈ v.endQuote.parts := by
  unfold endQuote
  split
  · exact inside
  · rename_i q qs opened
    refine mem_parts_addDatum ?_
    rw [parts, opened, List.flatten_cons, Tree.partsAll_append, List.mem_append, List.mem_append] at inside
    rcases inside with child | own | other
    · exact .inr (List.mem_append_left _ child)
    · exact .inl (mem_quotedDatum own)
    · exact .inr (List.mem_append_right _ other)

theorem mem_parts_addError (inside : part = .leaf .error l ∨ part ∈ v.parts) :
    part ∈ (v.addError l).parts := by
  refine mem_parts_endQuote (mem_parts_addLeaf.2 ?_)
  simpa [Tree.parts] using inside

theorem mem_listDatum (closed : v.quotes = []) (inside : part ∈ v.parts) : part ∈ v.listDatum.parts := by
  have child : part ∈ Tree.partsAll v.children := by simpa [parts, closed, Tree.partsAll] using inside
  simp [listDatum, Tree.parts, Tree.partsAll, Tree.mem_partsAll_reverse, child]

end Level

namespace State

variable {s : State}

def parts (s : State) : List Tree := s.level.parts ++ s.enclosing.flatMap fun entry => entry.2.parts

theorem mem_parts_of_level {u : State} (inside : part ∈ s.parts) (around : u.enclosing = s.enclosing)
    (kept : part ∈ s.level.parts → part ∈ u.level.parts) : part ∈ u.parts := by
  rw [parts, around]
  exact List.mem_append.2 ((List.mem_append.1 inside).imp_left kept)

theorem mem_parts_settleQuote (inside : part ∈ s.parts) (span : Span) :
    part ∈ (s.settleQuote span).parts := by
  unfold settleQuote
  split
  · exact inside
  · exact mem_parts_of_level inside rfl Level.mem_parts_endQuote

theorem mem_parts_closeList {opening : Span} {outer : Level} {rest : List (Span × Level)}
    (closed : s.level.quotes = []) (enclosing : s.enclosing = (opening, outer) :: rest)
    (inside : part ∈ s.parts) : part ∈ (s.closeList outer rest).parts := by
  rw [parts, enclosing, List.flatMap_cons, List.mem_append, List.mem_append] at inside
  rcases inside with own | around | other
  · exact List.mem_append_left _ (Level.mem_parts_addDatum (.inl (Level.mem_listDatum closed own)))
  · exact List.mem_append_left _ (Level.mem_parts_addDatum (.inr around))
  · exact List.mem_append_right _ other

theorem mem_parts_closeParen (inside : part ∈ s.parts) : part ∈ (s.closeParen l).parts := by
  have settled := mem_parts_settleQuote inside l.span
  have closed := quotes_settleQuote (s := s) l.span
  unfold closeParen
  generalize s.settleQuote l.span = s at settled closed
  dsimp only
  split
  · exact mem_parts_of_level settled rfl fun own => Level.mem_parts_addError (.inr own)
  · rename_i opening outer rest enclosing
    refine mem_parts_closeList (by simp [Level.addLeaf, closed]) enclosing ?_
    exact mem_parts_of_level settled rfl fun own => Level.mem_parts_addLeaf.2 (.inr own)

theorem mem_parts_dot (inside : part ∈ s.parts) : part ∈ (s.dot l).parts := by
  have settled := mem_parts_settleQuote inside l.span
  unfold dot
  generalize s.settleQuote l.span = s at settled
  dsimp only
  split
  · exact mem_parts_of_level settled rfl fun own => Level.mem_parts_addError (.inr own)
  · exact mem_parts_of_level settled rfl fun own => Level.mem_parts_addLeaf.2 (.inr own)

/-- No part is lost. -/
theorem mem_parts_step (inside : part ∈ s.parts) (l : Lexeme) : part ∈ (s.step l).parts := by
  cases l.role with
  | error e h =>
      rw [step_error h]
      exact mem_parts_of_level inside rfl fun own => Level.mem_parts_addError (.inr own)
  | openParen h =>
      rw [step_openParen h]
      exact List.mem_append_right _ inside
  | closeParen h =>
      rw [step_closeParen h]
      exact mem_parts_closeParen inside
  | quote h =>
      rw [step_quote h]
      refine mem_parts_of_level inside rfl fun own => ?_
      exact List.mem_append.2 ((List.mem_append.1 own).imp_right (List.mem_append_right _))
  | dot h =>
      rw [step_dot h]
      exact mem_parts_dot inside
  | trivia token h trivia =>
      rw [step_trivia h trivia]
      exact mem_parts_of_level inside rfl fun own => Level.mem_parts_addLeaf.2 (.inr own)
  | atom token a h atom =>
      rw [step_atom h atom]
      exact mem_parts_of_level inside rfl fun own => Level.mem_parts_addDatum (.inr own)

end State

end Parser

/-! ## What errors say of a tree -/

/-- Among some parts there is what an error is about: an error leaf, or a list without closing
parenthesis.  Nothing is said of quotes and dots. -/
def ParseError.Shown (parts : List Tree) (e : ParseError) : Prop :=
  match e.kind with
  | .lexer _ | .unexpectedCloseParen => ∃ l, .leaf .error l ∈ parts ∧ l.span = e.span
  | .unclosedList => ∃ o rest, .node .list (.leaf .openParen o :: rest) ∈ parts ∧ o.span = e.span ∧
      .leaf .closeParen ∉ Tree.kinds rest
  | .danglingQuote | .misplacedDot => True

theorem ParseError.Shown.mono {parts parts' : List Tree} {e : ParseError} (shown : e.Shown parts)
    (more : ∀ part ∈ parts, part ∈ parts') : e.Shown parts' := by
  obtain ⟨span, kind⟩ := e
  cases kind with
  | lexer _ | unexpectedCloseParen =>
      obtain ⟨l, inside, place⟩ := shown
      exact ⟨l, more _ inside, place⟩
  | unclosedList =>
      obtain ⟨o, rest, inside, place, noClose⟩ := shown
      exact ⟨o, rest, more _ inside, place, noClose⟩
  | danglingQuote | misplacedDot => trivial

namespace Parser

variable {l : Lexeme} {parts : List Tree} {errors : List ParseError}

theorem DotErrors.shown (dots : DotErrors errors) : ∀ e ∈ errors, e.Shown parts := by
  intro e member
  rw [ParseError.Shown, dots e member]
  trivial

theorem dangling_shown (quoting : Bool) (span : Span) : ∀ e ∈ dangling quoting span, e.Shown parts := by
  cases quoting with
  | false => exact List.forall_mem_nil _
  | true => exact List.forall_mem_singleton.2 trivial

theorem Effect.shown {before after : Outline} (effect : Effect l before errors after)
    (error : ∀ e, l.result = .error e → .leaf .error l ∈ parts)
    (stray : l.result = .ok .closeParen → before.opens = [] → .leaf .error l ∈ parts) :
    ∀ e ∈ errors, e.Shown parts := by
  cases effect with
  | error h => exact List.forall_mem_singleton.2 ⟨l, error _ h, rfl⟩
  | strayParen h =>
      refine List.forall_mem_append.2 ⟨dangling_shown _ _, List.forall_mem_singleton.2 ?_⟩
      exact ⟨l, stray h rfl, rfl⟩
  | closeParen _ dots | dot _ dots =>
      exact List.forall_mem_append.2 ⟨dangling_shown _ _, dots.shown⟩
  | openParen _ | quote _ | trivia _ _ | atom _ _ => exact List.forall_mem_nil _

def State.Shows (s : State) : Prop := ∀ e ∈ s.errors, e.Shown s.parts

namespace State

variable {s : State}

theorem mem_parts_error {e : LexError} (h : l.result = .error e) : .leaf .error l ∈ (s.step l).parts := by
  rw [step_error h]
  exact List.mem_append_left _ (Level.mem_parts_addError (.inl rfl))

theorem mem_parts_strayParen (h : l.result = .ok .closeParen) (outermost : s.outline.opens = []) :
    .leaf .error l ∈ (s.step l).parts := by
  have noLists : s.enclosing = [] := List.map_eq_nil_iff.1 outermost
  rw [step_closeParen h]
  simp only [closeParen, settleQuote_enclosing, noLists]
  exact List.mem_append_left _ (Level.mem_parts_addError (.inl rfl))

namespace Shows

theorem step (shown : s.Shows) (l : Lexeme) : (s.step l).Shows := by
  obtain ⟨new, errors, effect⟩ := s.step_effect l
  rw [Shows, errors]
  refine List.forall_mem_append.2 ⟨fun e member => ?_, fun e member => ?_⟩
  · exact effect.shown (fun _ => mem_parts_error) mem_parts_strayParen e (List.mem_reverse.1 member)
  · exact (shown e member).mono fun part inside => mem_parts_step inside l

theorem run (shown : s.Shows) (ls : List Lexeme) : (ls.foldl State.step s).Shows := by
  induction ls generalizing s with
  | nil => exact shown
  | cons l ls ih => exact ih (shown.step l)

theorem settleQuote (shown : s.Shows) (span : Span) : (s.settleQuote span).Shows := by
  rw [Shows, settleQuote_errors]
  refine List.forall_mem_append.2 ⟨fun e member => ?_, fun e member => ?_⟩
  · exact dangling_shown _ _ e (List.mem_reverse.1 member)
  · exact (shown e member).mono fun part inside => mem_parts_settleQuote inside span

-- A list that is still open at the end has items and a dot only, so no closing parenthesis.
theorem closeUnclosed {opening : Span} {outer : Level} {rest : List (Span × Level)} (shown : s.Shows)
    (sound : s.Sound) (closed : s.level.quotes = [])
    (enclosing : s.enclosing = (opening, outer) :: rest) :
    ((s.report opening .unclosedList).closeList outer rest).Shows := by
  refine List.forall_mem_append.2 ⟨?_, List.forall_mem_cons.2 ⟨?_, fun e member => ?_⟩⟩
  · intro e member
    exact s.level.dotError_dotErrors.shown e (List.mem_reverse.1 member)
  · rw [State.Sound, enclosing] at sound
    cases sound with
    | @list _ _ o _ own around =>
        obtain ⟨body, children, read⟩ := own.children
        refine ⟨o, body.reverse, ?_, rfl, by simpa using read.closeParen_not_mem⟩
        refine List.mem_append_left _ (Level.mem_parts_addDatum (.inl ?_))
        simp [report, Level.listDatum, children, Tree.parts, Tree.partsAll]
  · exact (shown e member).mono fun part inside => mem_parts_closeList closed enclosing inside

theorem closeAll (shown : s.Shows) (sound : s.Sound) (closed : s.level.quotes = []) :
    (s.closeAll s.enclosing).Shows := by
  generalize enclosing : s.enclosing = levels
  induction levels generalizing s with
  | nil =>
      rw [Shows, State.parts, enclosing] at shown
      exact shown
  | cons entry rest ih =>
      exact ih (shown.closeUnclosed sound closed enclosing) (sound.closeUnclosed enclosing) rfl rfl

theorem finish (shown : s.Shows) (sound : s.Sound) :
    ∀ e ∈ s.finish.errors, e.Shown s.finish.tree.parts := by
  have settled := shown.settleQuote ⟨s.stop, s.stop⟩
  have sound' := sound.settleQuote ⟨s.stop, s.stop⟩
  have closed := quotes_settleQuote (s := s) ⟨s.stop, s.stop⟩
  unfold State.finish
  generalize s.settleQuote ⟨s.stop, s.stop⟩ = s at settled sound' closed
  obtain ⟨-, noQuotes, noLists⟩ := leaves_closeAll closed
  have ends := settled.closeAll sound' closed
  dsimp only
  generalize s.closeAll s.enclosing = s at noQuotes noLists ends
  intro e member
  refine (ends e (List.mem_reverse.1 member)).mono fun part inside => ?_
  have child : part ∈ Tree.partsAll s.level.children := by
    simpa [State.parts, Level.parts, noQuotes, noLists, Tree.partsAll] using inside
  exact List.mem_cons_of_mem _ (Tree.mem_partsAll_reverse.2 child)

end Shows

end State

end Parser

theorem parse_errors_shown (source : String) :
    ∀ e ∈ (parse source).errors, e.Shown (parse source).tree.parts := by
  have start : Parser.State.Shows {} := List.forall_mem_nil _
  exact (start.run (lex source)).finish (Parser.State.sound_start.run (lex source))

theorem list_unclosed_iff {source : String} {o : Lexeme} {rest : List Tree}
    (part : .node .list (.leaf .openParen o :: rest) ∈ (parse source).tree.parts) :
    .leaf .closeParen ∉ Tree.kinds rest ↔ ⟨o.span, .unclosedList⟩ ∈ (parse source).errors := by
  constructor
  · intro noClose
    have sound := (parse_sound source _ part).2 rfl (by simpa using noClose)
    obtain ⟨_, _, ⟨⟩, reported⟩ := sound
    exact reported
  · intro reported
    -- Some list is unclosed and begins where this one does, so it is this one.
    obtain ⟨o', rest', part', place, noClose⟩ := parse_errors_shown source _ reported
    have distinct := Tree.nodup_leaf_spans source
    cases Tree.node_eq_of_span_eq place _ distinct part' part
    exact noClose

/-! ## Sources -/

/-- What follows the opening parenthesis of a list: no second one, one dot at most, and one closing
parenthesis at most, which comes last and is missing exactly if the list is reported as unclosed. -/
structure ListRest (errors : List ParseError) (o : Lexeme) (rest : List Tree) : Prop where
  opening : .leaf .openParen ∉ Tree.kinds rest
  dot : (Tree.kinds rest).count (.leaf .dot) ≤ 1
  closing : (Tree.kinds rest).count (.leaf .closeParen) ≤ 1
  last : .leaf .closeParen ∈ Tree.kinds rest → (Tree.kinds rest).getLast? = some (.leaf .closeParen)
  unclosed : .leaf .closeParen ∉ Tree.kinds rest ↔ ⟨o.span, .unclosedList⟩ ∈ errors

/-- In the tree of any source, the children of the root are data, trivia and error leaves.  A datum is one
list, one quoted datum or one atom.  Lists begin with a parenthesis and continue as `ListRest` says, and
quoted data begin with their only quote and hold one datum at most.  Closing parentheses and dots stand
nowhere but in lists.  At every error leaf an error is reported that is about a single lexeme, and each
error of a lexeme or of an unexpected closing parenthesis has its error leaf. -/
theorem parse_tree_shaped (source : String) :
    (∃ ts, (parse source).tree = .node .root ts ∧ ∀ t ∈ ts, t.kind.isItem = true) ∧
    (∀ ts, .node .datum ts ∈ (parse source).tree.parts → ∃ t, ts = [t] ∧ t.kind.isContent = true) ∧
    (∀ ts, .node .list ts ∈ (parse source).tree.parts →
      ∃ o rest, ts = .leaf .openParen o :: rest ∧ ListRest (parse source).errors o rest) ∧
    (∀ ts, .node .quoted ts ∈ (parse source).tree.parts →
      ∃ q rest, ts = .leaf .quoteMark q :: rest ∧ .leaf .quoteMark ∉ Tree.kinds rest ∧
        (Tree.kinds rest).count (.node .datum) ≤ 1) ∧
    (∀ kind ts, .node kind ts ∈ (parse source).tree.parts → kind ≠ .list →
      .leaf .closeParen ∉ Tree.kinds ts ∧ .leaf .dot ∉ Tree.kinds ts) ∧
    (∀ l, .leaf .error l ∈ (parse source).tree.parts →
      ∃ e ∈ (parse source).errors, e.span = l.span ∧ e.kind.isMisfit = true) ∧
    (∀ e ∈ (parse source).errors, (∃ own, e.kind = .lexer own) ∨ e.kind = .unexpectedCloseParen →
      ∃ l, .leaf .error l ∈ (parse source).tree.parts ∧ l.span = e.span) := by
  have shape {kind : NodeKind} {ts : List Tree} (part : .node kind ts ∈ (parse source).tree.parts) :
      kind.Shape (Tree.kinds ts) := (parse_sound source (.node kind ts) part).1
  refine ⟨⟨_, rfl, ?_⟩, fun ts part => ?_, fun ts part => ?_, fun ts part => ?_, ?_, ?_, ?_⟩
  · exact Tree.forall_mem_kinds.1 (shape (Tree.mem_parts_self _)).root_items
  · obtain ⟨_, kinds, content⟩ := (shape part).datum_content
    obtain ⟨t, rfl, rfl⟩ := List.map_eq_singleton_iff.1 kinds
    exact ⟨t, rfl, content⟩
  · obtain ⟨ks, kinds, opening, dot, closing, last⟩ := (shape part).list_rest
    obtain ⟨o, rest, rfl, rfl⟩ := Tree.kinds_eq_cons kinds
    exact ⟨o, rest, rfl, opening, dot, closing, last, list_unclosed_iff part⟩
  · obtain ⟨ks, kinds, quoting, datum⟩ := (shape part).quoted_rest
    obtain ⟨q, rest, rfl, rfl⟩ := Tree.kinds_eq_cons kinds
    exact ⟨q, rest, rfl, quoting, datum⟩
  · exact fun kind ts part other => (shape part).not_mem_of_ne_list other
  · exact fun l part => parse_sound source _ part rfl
  · rintro ⟨span, kind⟩ member (⟨own, rfl⟩ | rfl)
    · exact parse_errors_shown source _ member
    · exact parse_errors_shown source _ member

end StoreScheme
