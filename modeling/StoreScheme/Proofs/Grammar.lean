import Mathlib.Data.List.Forall2
import StoreScheme.Proofs.Datum.View
import StoreScheme.Proofs.Tree.Derives

/-!
# Parsing by the grammar

A source parses without errors if and only if its lexemes follow the grammar of data, and the data
of its tree are then the only ones that they can be.

* `Parser.Level.Reads`: the data in a level, and the quotes that wait for one
* `Parser.State.Adds`: reading lexemes adds some data to a level, and does nothing else
* `Parser.State.Inside`: the same from an opening parenthesis on, up to the closing one
* `Derives.adds`: lexemes that are data add them
* `parse_isOk_iff_derives`: the sources without errors, and their data
-/

namespace StoreScheme

/-! ## Quotes and dots -/

namespace Datum

def behind (d : Datum) (q : Lexeme) : Datum := .quoted ⟨q.start, d.span.stop⟩ (some d)

/-- A datum behind several quotes, the nearest first. -/
def behindAll (qs : List Lexeme) (d : Datum) : Datum := qs.foldl behind d

/-- The dot of a list, if there is one, stands between some data and exactly one. -/
def DotPlaced (parts : Parts) : Prop :=
  parts.2 = none ∨ parts.1 ≠ [] ∧ ∃ tail, parts.2 = some [tail]

end Datum

structure Tree.Is (t : Tree) (d : Datum) : Prop where
  datum : Datum.ofTree? t = some d
  span : t.span? = some d.span

theorem Tree.Is.not_dot {t : Tree} {d : Datum} (is : t.Is d) (l : Lexeme) : t ≠ .leaf .dot l := by
  rintro rfl
  cases is.datum

namespace Parser

/-- The children of an open quote: its mark and the trivia behind it, newest first. -/
def Waiting (children : List Tree) (q : Lexeme) : Prop :=
  ∃ trivia, (∀ t ∈ trivia, ∃ kind l, t = .leaf kind l) ∧ children = trivia ++ [.leaf .quoteMark q]

theorem Waiting.is_quoted {children : List Tree} {q : Lexeme} {t : Tree} {d : Datum}
    (waiting : Waiting children q) (is : t.Is d) :
    (Level.quotedDatum (t :: children)).Is (d.behind q) := by
  obtain ⟨trivia, leaves, rfl⟩ := waiting
  have order : (t :: (trivia ++ [.leaf .quoteMark q])).reverse =
      .leaf .quoteMark q :: (trivia.reverse ++ [t]) := by simp
  have span := Tree.spanAll?_ends .quoteMark q trivia.reverse is.span
  have leaves' : ∀ t ∈ trivia.reverse, ∃ kind l, t = .leaf kind l := by simpa using leaves
  have data : Datum.ofTrees (.leaf .quoteMark q :: (trivia.reverse ++ [t])) = [d] := by
    simp [Datum.ofTrees, Datum.ofTrees_append, Datum.ofTrees_leaves leaves', is.datum]
  rw [Level.quotedDatum, order]
  refine ⟨by simp [Datum.ofTree?, span, data, Datum.behind], ?_⟩
  rw [Tree.span?_single, span]
  rfl

theorem is_behindAll {quotes : List (List Tree)} {qs : List Lexeme} {t : Tree} {d : Datum}
    (waiting : List.Forall₂ Waiting quotes qs) (is : t.Is d) :
    (quotes.foldl (fun d q => Level.quotedDatum (d :: q)) t).Is (Datum.behindAll qs d) := by
  induction waiting generalizing t d with
  | nil => exact is
  | cons first _ ih => exact ih (first.is_quoted is)

/-! ## Levels -/

namespace Level

/-- The data in a level, before and after its dot, and the quotes that wait, the nearest first. -/
structure Reads (v : Level) (parts : Datum.Parts) (qs : List Lexeme) : Prop where
  data : Datum.splitAtDot v.children.reverse = parts
  quotes : List.Forall₂ Waiting v.quotes qs
  dot : v.dot.isSome = parts.2.isSome
  before : v.before = parts.1.length
  after : v.after = (parts.2.getD []).length

namespace Reads

variable {v : Level} {parts : Datum.Parts} {qs : List Lexeme}

theorem addLeaf {kind : LeafKind} {l : Lexeme} (notDot : kind ≠ .dot) (reads : v.Reads parts qs) :
    (v.addLeaf (.leaf kind l)).Reads parts qs := by
  obtain ⟨data, quotes, dot, before, after⟩ := reads
  refine ⟨?_, ?_, by simpa, by simpa, by simpa⟩
  · unfold Level.addLeaf
    split
    · have other : ∀ l', Tree.leaf kind l ≠ .leaf .dot l' := by simp [notDot]
      simp [Datum.splitAtDot_concat other, data]
    · exact data
  · unfold Level.addLeaf
    generalize v.quotes = openQuotes at quotes
    cases quotes with
    | nil => exact .nil
    | cons first rest =>
        obtain ⟨trivia, leaves, rfl⟩ := first
        have leaves' : ∀ t ∈ .leaf kind l :: trivia, ∃ kind l, t = .leaf kind l :=
          List.forall_mem_cons.2 ⟨⟨kind, l, rfl⟩, leaves⟩
        exact .cons ⟨.leaf kind l :: trivia, leaves', rfl⟩ rest

theorem addDatum {t : Tree} {d : Datum} (is : t.Is d) (reads : v.Reads parts qs) :
    (v.addDatum t).Reads (Datum.add parts [Datum.behindAll qs d]) [] := by
  have whole := is_behindAll reads.quotes is
  have data : Datum.splitAtDot (v.addDatum t).children.reverse =
      Datum.add parts [Datum.behindAll qs d] := by
    simp [Level.addDatum, Datum.splitAtDot_concat whole.not_dot, whole.datum, reads.data]
  obtain ⟨before, _ | after⟩ := parts
  · have noDot : v.dot = none := by simpa using reads.dot
    obtain ⟨before', after'⟩ := counts_addDatum_plain t noDot
    exact ⟨data, .nil, by simp [noDot, Datum.add], by simp [before', reads.before, Datum.add],
      by simp [after', reads.after, Datum.add]⟩
  · obtain ⟨span, hasDot⟩ := Option.isSome_iff_exists.1 reads.dot
    obtain ⟨before', after'⟩ := counts_addDatum_dotted t hasDot
    exact ⟨data, .nil, by simp [hasDot, Datum.add], by simp [before', reads.before, Datum.add],
      by simp [after', reads.after, Datum.add]⟩

theorem addQuote (l : Lexeme) (reads : v.Reads parts qs) :
    Level.Reads { v with quotes := [.leaf .quoteMark l] :: v.quotes } parts (l :: qs) where
  data := reads.data
  quotes := .cons ⟨[], List.forall_mem_nil _, rfl⟩ reads.quotes
  dot := reads.dot
  before := reads.before
  after := reads.after

theorem closed (reads : v.Reads parts []) : v.quotes = [] :=
  List.forall₂_nil_right_iff.1 reads.quotes

theorem addDot {l : Lexeme} {before : List Datum} (reads : v.Reads (before, none) []) :
    Level.Reads { v.addLeaf (.leaf .dot l) with dot := some l.span } (before, some []) [] := by
  have children : (v.addLeaf (.leaf .dot l)).children = .leaf .dot l :: v.children := by
    simp [Level.addLeaf, reads.closed]
  refine ⟨?_, ?_, rfl, by simpa using reads.before, by simpa using reads.after⟩
  · rw [children, List.reverse_cons]
    exact Datum.splitAtDot_concat_dot reads.data l
  · simp [Level.addLeaf, reads.closed]

theorem dotError_eq_nil (reads : v.Reads parts qs) (placed : Datum.DotPlaced parts) :
    v.dotError = [] := by
  rcases placed with noDot | ⟨nonempty, tail, single⟩
  · have none : v.dot = none := by simpa [noDot] using reads.dot
    simp [dotError, none]
  · obtain ⟨span, hasDot⟩ := Option.isSome_iff_exists.1 (reads.dot.trans (by simp [single]))
    have before : v.before ≠ 0 := by simpa [reads.before] using nonempty
    have after : v.after = 1 := by simp [reads.after, single]
    simp [dotError, hasDot, before, after]

theorem is_list {o c : Lexeme} (reads : v.Reads parts [])
    (opening : [.leaf .openParen o] <:+ v.children) :
    (v.addLeaf (.leaf .closeParen c)).listDatum.Is (.list ⟨o.start, c.stop⟩ parts.1 parts.2) := by
  obtain ⟨inner, children⟩ := opening
  have all : (v.addLeaf (.leaf .closeParen c)).children.reverse =
      .leaf .openParen o :: (inner.reverse ++ [.leaf .closeParen c]) := by
    simp [Level.addLeaf, reads.closed, ← children]
  have data : Datum.splitAtDot (v.addLeaf (.leaf .closeParen c)).children.reverse = parts :=
    (reads.addLeaf (by simp)).data
  have span := Tree.spanAll?_ends .openParen o inner.reverse (t := .leaf .closeParen c) rfl
  rw [all] at data
  rw [listDatum, all]
  refine ⟨?_, ?_⟩
  · simp only [Datum.ofTree?, span, data]
    rfl
  · rw [Tree.span?_single, span]
    rfl

end Reads

theorem children_addLeaf (v : Level) (t : Tree) : v.children <:+ (v.addLeaf t).children := by
  unfold addLeaf
  split
  · exact List.suffix_cons t v.children
  · exact List.suffix_rfl

theorem children_addDatum (v : Level) (t : Tree) : v.children <:+ (v.addDatum t).children :=
  List.suffix_cons _ _

end Level

/-! ## Data read one after the other -/

/-- The quotes that still wait after some data. -/
def stillWaiting (qs : List Lexeme) : List Datum → List Lexeme
  | [] => qs
  | _ :: _ => []

namespace State

/-- On the way from `s` to `t` some data are added to the innermost level, the first of them behind
the quotes that wait. -/
structure Adds (s : State) (ds : List Datum) (t : State) : Prop where
  enclosing : t.enclosing = s.enclosing
  errors : t.errors = s.errors
  children : s.level.children <:+ t.level.children
  reads {parts : Datum.Parts} {qs : List Lexeme} : s.level.Reads parts qs →
    t.level.Reads (Datum.add parts (ds.modifyHead (Datum.behindAll qs))) (stillWaiting qs ds)

variable {s t u : State} {ds es : List Datum}

theorem Adds.refl (s : State) : s.Adds [] s :=
  ⟨rfl, rfl, List.suffix_rfl, fun reads => by simpa [stillWaiting]⟩

theorem Adds.trans (first : s.Adds ds t) (second : t.Adds es u) : s.Adds (ds ++ es) u := by
  refine ⟨second.enclosing.trans first.enclosing, second.errors.trans first.errors,
    first.children.trans second.children, fun {parts qs} reads => ?_⟩
  have both := second.reads (first.reads reads)
  rw [Datum.add_add] at both
  -- The quotes that wait in `s` wait for the first datum of all, which may be one of `es`.
  cases ds with
  | nil => simpa [stillWaiting] using both
  | cons d ds =>
      cases es <;> simpa [stillWaiting, Datum.behindAll] using both

theorem Adds.reads_closed {parts : Datum.Parts} (adds : s.Adds ds t)
    (reads : s.level.Reads parts []) : t.level.Reads (Datum.add parts ds) [] := by
  cases ds with
  | nil => exact adds.reads reads
  | cons d ds => exact adds.reads reads

theorem adds_trivia {l : Lexeme} (trivia : l.isTrivia = true) : s.Adds [] (s.step l) := by
  obtain ⟨token, result, trivia⟩ := Lexeme.result_of_isTrivia trivia
  have notDot : token.leafKind ≠ .dot := by cases token <;> simp_all [Token.leafKind, Token.isTrivia]
  rw [step_trivia result trivia]
  refine ⟨rfl, rfl, Level.children_addLeaf _ _, fun reads => ?_⟩
  simpa [stillWaiting] using reads.addLeaf notDot

theorem adds_trivia_run (s : State) {ls : List Lexeme} (trivia : significant ls = []) :
    s.Adds [] (ls.foldl step s) := by
  induction ls generalizing s with
  | nil => exact .refl s
  | cons l ls ih =>
      obtain ⟨first, rest⟩ := List.forall_mem_cons.1 (List.filter_eq_nil_iff.1 trivia)
      have others : significant ls = [] := List.filter_eq_nil_iff.2 rest
      exact (adds_trivia (by simpa using first)).trans (ih _ others)

theorem adds_atom {l : Lexeme} {a : Atom} (isAtom : l.atom? = some a) :
    s.Adds [.atom l.span a] (s.step l) := by
  obtain ⟨token, result, atom⟩ := Lexeme.result_of_atom? isAtom
  have is : (Tree.node .datum [.leaf token.leafKind l]).Is (.atom l.span a) :=
    ⟨by simp [Datum.ofTree?, isAtom], by simp [Tree.span?, Tree.spanAll?, Datum.span]⟩
  rw [step_atom result atom]
  exact ⟨rfl, rfl, Level.children_addDatum _ _, fun reads => reads.addDatum is⟩

theorem adds_quoted {q : Lexeme} {d : Datum} (isQuote : q.result = .ok .quote)
    (datum : (s.step q).Adds [d] t) : s.Adds [d.behind q] t := by
  rw [step_quote isQuote] at datum
  exact ⟨datum.enclosing, datum.errors, datum.children, fun reads => datum.reads (reads.addQuote q)⟩

/-- `t` is inside a list that `o` opens in `s`, with some data of the list read. -/
structure Inside (s : State) (o : Lexeme) (parts : Datum.Parts) (t : State) : Prop where
  enclosing : t.enclosing = (o.span, s.level) :: s.enclosing
  errors : t.errors = s.errors
  opening : [.leaf .openParen o] <:+ t.level.children
  reads : t.level.Reads parts []

variable {o : Lexeme} {parts : Datum.Parts}

theorem inside_openParen (isOpen : o.result = .ok .openParen) : s.Inside o ([], none) (s.step o) := by
  rw [step_openParen isOpen]
  exact ⟨rfl, rfl, List.suffix_rfl, rfl, .nil, rfl, rfl, rfl⟩

theorem Inside.adds (inside : s.Inside o parts t) (adds : t.Adds ds u) :
    s.Inside o (Datum.add parts ds) u where
  enclosing := adds.enclosing.trans inside.enclosing
  errors := adds.errors.trans inside.errors
  opening := inside.opening.trans adds.children
  reads := adds.reads_closed inside.reads

theorem Inside.trivia (inside : s.Inside o parts t) (adds : t.Adds [] u) : s.Inside o parts u := by
  simpa using inside.adds adds

theorem Inside.dot {l : Lexeme} {before : List Datum} (isDot : l.result = .ok .dot)
    (inside : s.Inside o (before, none) t) : s.Inside o (before, some []) (t.step l) := by
  have nested : t.enclosing ≠ [] := by simp [inside.enclosing]
  have noDot : t.level.dot = none := by simpa using inside.reads.dot
  rw [step_dot isDot, dot_closed (s := { t with stop := l.stop }) inside.reads.closed nested noDot]
  exact ⟨inside.enclosing, inside.errors, inside.opening.trans (Level.children_addLeaf _ _),
    inside.reads.addDot⟩

theorem Inside.closeParen {c : Lexeme} (isClose : c.result = .ok .closeParen)
    (inside : s.Inside o parts t) (placed : Datum.DotPlaced parts) :
    s.Adds [.list ⟨o.start, c.stop⟩ parts.1 parts.2] (t.step c) := by
  have is := inside.reads.is_list inside.opening (c := c)
  have noError : (t.level.addLeaf (.leaf .closeParen c)).dotError = [] :=
    (inside.reads.addLeaf (by simp)).dotError_eq_nil placed
  rw [step_closeParen isClose,
    closeParen_closed (s := { t with stop := c.stop }) inside.reads.closed inside.enclosing]
  refine ⟨rfl, ?_, Level.children_addDatum _ _, fun outer => outer.addDatum is⟩
  simpa [closeList, noError] using inside.errors

theorem run_cons {l : Lexeme} {ls ts : List Lexeme} (first : significant ls = l :: ts) :
    ∃ rest, significant rest = ts ∧
      ∀ s : State, ∃ t, s.Adds [] t ∧ ls.foldl step s = rest.foldl step (t.step l) := by
  obtain ⟨trivia, rest, rfl, noise, -, others⟩ := List.filter_eq_cons_iff.1 first
  refine ⟨rest, others, fun s => ⟨trivia.foldl step s, ?_, by simp⟩⟩
  exact adds_trivia_run s (List.filter_eq_nil_iff.2 noise)

theorem run_append {ls ts us : List Lexeme} (both : significant ls = ts ++ us) :
    ∃ first second, significant first = ts ∧ significant second = us ∧
      ∀ s : State, ls.foldl step s = second.foldl step (first.foldl step s) := by
  obtain ⟨first, second, rfl, front, back⟩ := List.filter_eq_append_iff.1 both
  exact ⟨first, second, front, back, fun s => List.foldl_append⟩

end State

end Parser

open Parser.State in
theorem Derives.adds {ts ls : List Lexeme} {ds : List Datum} (derives : Derives ts ds)
    (same : significant ls = ts) (s : Parser.State) : s.Adds ds (ls.foldl Parser.State.step s) := by
  induction derives generalizing ls s with
  | nil => exact adds_trivia_run s same
  | atom isAtom _ ih =>
      obtain ⟨rest, same', run⟩ := run_cons same
      obtain ⟨t, trivia, whole⟩ := run s
      rw [whole]
      exact trivia.trans ((adds_atom isAtom).trans (ih same' _))
  | quoted isQuote _ _ ihInner ih =>
      obtain ⟨rest, same', run⟩ := run_cons same
      obtain ⟨inner, others, sameInner, sameOthers, run'⟩ := run_append same'
      obtain ⟨t, trivia, whole⟩ := run s
      rw [whole, run']
      have datum := adds_quoted isQuote (ihInner sameInner (t.step _))
      exact trivia.trans (datum.trans (ih sameOthers _))
  | @list o c _ _ items _ isOpen isClose _ _ ihInner ih =>
      obtain ⟨rest, same', run⟩ := run_cons same
      obtain ⟨inner, rest', sameInner, same'', run'⟩ := run_append same'
      obtain ⟨others, sameOthers, run''⟩ := run_cons same''
      obtain ⟨t, trivia, whole⟩ := run s
      obtain ⟨u, trivia', whole'⟩ := run'' (inner.foldl step (t.step o))
      have read : t.Inside o (items, none) u :=
        ((inside_openParen isOpen).adds (ihInner sameInner (t.step o))).trivia trivia'
      have datum := read.closeParen isClose (.inl rfl)
      rw [whole, run', whole']
      exact trivia.trans (datum.trans (ih sameOthers _))
  | @dotted o dot c _ _ _ items _ tail isOpen isDot isClose nonempty _ _ _ ihInner ihAfter ih =>
      -- The list is opened in `t`, has its dot in `u` and is closed in `w`; there may be trivia before
      -- each of the three.
      obtain ⟨rest, same₁, run₁⟩ := run_cons same
      obtain ⟨inner, rest₂, sameInner, same₂, run₂⟩ := run_append same₁
      obtain ⟨rest₃, same₃, run₃⟩ := run_cons same₂
      obtain ⟨after, rest₄, sameAfter, same₄, run₄⟩ := run_append same₃
      obtain ⟨others, sameOthers, run₅⟩ := run_cons same₄
      obtain ⟨t, trivia₁, whole₁⟩ := run₁ s
      obtain ⟨u, trivia₃, whole₃⟩ := run₃ (inner.foldl step (t.step o))
      obtain ⟨w, trivia₅, whole₅⟩ := run₅ (after.foldl step (u.step dot))
      have readItems : t.Inside o (items, none) u :=
        ((inside_openParen isOpen).adds (ihInner sameInner (t.step o))).trivia trivia₃
      have readAll : t.Inside o (items, some [tail]) w :=
        ((readItems.dot isDot).adds (ihAfter sameAfter (u.step dot))).trivia trivia₅
      have datum := readAll.closeParen isClose (.inr ⟨nonempty, tail, rfl⟩)
      rw [whole₁, run₂, whole₃, run₄, whole₅]
      exact trivia₁.trans (datum.trans (ih sameOthers _))

/-! ## Sources -/

theorem Derives.parse {source : String} {ds : List Datum}
    (derives : Derives (significant (lex source)) ds) :
    (parse source).isOk = true ∧ (parse source).tree.data = ds := by
  have start : ({} : Parser.State).level.Reads ([], none) [] := ⟨rfl, .nil, rfl, rfl, rfl⟩
  have adds := derives.adds rfl {}
  have reads := adds.reads_closed start
  have noLists : ((lex source).foldl Parser.State.step {}).enclosing = [] := adds.enclosing
  have noErrors : ((lex source).foldl Parser.State.step {}).errors = [] := adds.errors
  rw [StoreScheme.parse, Parser.ofLexemes, Parser.State.finish,
    Parser.State.settleQuote_closed reads.closed, noLists]
  refine ⟨?_, ?_⟩
  · simp [Parsed.isOk, Parser.State.closeAll, noErrors]
  · have data := Datum.ofTrees_eq ((lex source).foldl Parser.State.step {}).level.children.reverse
    rw [reads.data] at data
    simpa [Parser.State.closeAll, Tree.data, Datum.add] using data

/-- A source parses without errors if and only if no lexeme of it is an error and the lexemes that are
not trivia are data, one after the other.  The data of the tree are then the only ones that these
lexemes can be. -/
theorem parse_isOk_iff_derives (source : String) :
    ((parse source).isOk = true ↔
      (∀ l ∈ lex source, ∃ token, l.result = .ok token) ∧
        ∃ ds, Derives (significant (lex source)) ds) ∧
    ((parse source).isOk = true →
      ∀ ds, Derives (significant (lex source)) ds ↔ ds = (parse source).tree.data) := by
  refine ⟨⟨fun ok => ?_, fun ⟨_, ds, derives⟩ => derives.parse.1⟩, fun ok ds => ?_⟩
  · obtain ⟨ds, derives⟩ := derives_of_isOk ok
    refine ⟨fun l member => ?_, ds, derives⟩
    cases trivia : l.isTrivia with
    | true =>
        obtain ⟨token, result, -⟩ := Lexeme.result_of_isTrivia trivia
        exact ⟨token, result⟩
    | false => exact derives.ok l (List.mem_filter.2 ⟨member, by simp [trivia]⟩)
  · obtain ⟨ds', derives⟩ := derives_of_isOk ok
    refine ⟨fun derives => derives.parse.2.symm, ?_⟩
    rintro rfl
    rwa [derives.parse.2]

end StoreScheme
