import StoreScheme.Proofs.Composition
import StoreScheme.Proofs.Tree.Bare

/-!
# Only token values matter

Without directives to fold case, a source is read by the values of its tokens alone.  It does not matter
how these are spelled, where they stand, or which blanks, line ends and comments are between them.
This goes for errors as well: whatever is wrong with a source is wrong with every other one that has
the same tokens.

* `Datum.ofTrees_bare`: the data of a bare tree are those of the tree, at other places
* `Build.Alike.erased_kind`: forms and errors without identities and places
* `read_eq_of_tokens_eq`: two sources with the same tokens
-/

namespace StoreScheme

/-- Nothing is asked of places. -/
abbrev Anywhere : Span → Span → Prop := fun _ _ => True

/-! ## Bare data -/

namespace Datum

theorem forall₂_toList {d d' : Option Datum} (alike : Option.Rel (Datum.Alike Anywhere) d d') :
    List.Forall₂ (Datum.Alike Anywhere) d.toList d'.toList := by
  cases alike with
  | none => exact .nil
  | some alike => exact .cons alike .nil

theorem alike_quoted {ds ds' : List Datum} (alike : List.Forall₂ (Datum.Alike Anywhere) ds ds')
    (span span' : Span) : Datum.Alike Anywhere (.quoted span ds.head?) (.quoted span' ds'.head?) := by
  cases alike with
  | nil => exact .dangling trivial
  | cons first _ => exact .quoted trivial first

/-- The data before and after the dot of two lists. -/
structure PartsAlike (parts parts' : List Datum × Option (List Datum)) : Prop where
  before : List.Forall₂ (Datum.Alike Anywhere) parts.1 parts'.1
  after : Option.Rel (List.Forall₂ (Datum.Alike Anywhere)) parts.2 parts'.2

theorem PartsAlike.list {parts parts' : List Datum × Option (List Datum)} (alike : PartsAlike parts parts')
    (span span' : Span) :
    Datum.Alike Anywhere (.list span parts.1 parts.2) (.list span' parts'.1 parts'.2) := by
  obtain ⟨before, after⟩ := parts
  obtain ⟨before', after'⟩ := parts'
  obtain ⟨items, tail⟩ := alike
  cases tail with
  | none => exact .list trivial items
  | some tail => exact .dotted trivial items tail

theorem PartsAlike.dot {ts us : List Tree} (alike : PartsAlike (splitAtDot ts) (splitAtDot us))
    (l m : Lexeme) : PartsAlike (splitAtDot (.leaf .dot l :: ts)) (splitAtDot (.leaf .dot m :: us)) := by
  rw [splitAtDot_dot, splitAtDot_dot]
  -- A second dot does not divide the data again.
  refine ⟨.nil, .some (List.rel_append alike.before ?_)⟩
  have after := alike.after
  generalize (splitAtDot ts).2 = first at after
  generalize (splitAtDot us).2 = second at after
  cases after with
  | none => exact .nil
  | some tail => exact tail

theorem ofTree?_several (t u : Tree) (ts : List Tree) : ofTree? (.node .datum (t :: u :: ts)) = none := by
  cases t with
  | leaf _ _ => rfl
  | node kind _ => cases kind <;> rfl

theorem ofTree?_trivia {t : Tree} (trivia : t.isTrivia = true) : ofTree? t = none := by
  cases t with
  | leaf _ _ => rfl
  | node _ _ => cases trivia

theorem splitAtDot_bare_cons {t : Tree} {ts us : List Tree} (notDot : ∀ l, t ≠ .leaf .dot l)
    (first : Option.Rel (Datum.Alike Anywhere) (ofTree? t) (ofTree? t.bare))
    (rest : PartsAlike (splitAtDot ts) (splitAtDot us)) :
    PartsAlike (splitAtDot (t :: ts)) (splitAtDot (t.bare :: us)) := by
  have notDot' : ∀ l, t.bare ≠ .leaf .dot l := by
    intro l same
    cases t with
    | leaf kind l' =>
        cases same
        exact notDot l' rfl
    | node kind _ => cases kind <;> cases same
  rw [splitAtDot_cons notDot, splitAtDot_cons notDot']
  exact ⟨List.rel_append (forall₂_toList first) rest.before, rest.after⟩

mutual

theorem ofTree?_bare (t : Tree) : Option.Rel (Datum.Alike Anywhere) (ofTree? t) (ofTree? t.bare) := by
  match t with
  | .leaf _ _ => exact .none
  | .node .root _ | .node .list _ | .node .quoted _ => exact .none
  | .node .datum [] => exact .none
  | .node .datum (t :: u :: ts) =>
      rw [ofTree?_several, Tree.bare, Tree.bareEach, Tree.bareEach, ofTree?_several]
      exact .none
  | .node .datum [.leaf _ l] =>
      have same : l.bare.atom? = l.atom? := rfl
      simp only [Tree.bare, Tree.bareEach, ofTree?, same]
      cases l.atom? with
      | none => exact .none
      | some a => exact .some (.atom trivial)
  | .node .datum [.node .root _] | .node .datum [.node .datum _] => exact .none
  | .node .datum [.node .list ts] => exact .some ((splitAtDot_bare ts).list _ _)
  | .node .datum [.node .quoted ts] => exact .some (alike_quoted (ofTrees_bare ts) _ _)

theorem ofTrees_bare (ts : List Tree) :
    List.Forall₂ (Datum.Alike Anywhere) (ofTrees ts) (ofTrees (Tree.bareAll ts)) := by
  match ts with
  | [] => exact .nil
  | t :: ts =>
      have rest := ofTrees_bare ts
      unfold Tree.bareAll
      split
      · rename_i trivia
        simpa [ofTrees, ofTree?_trivia trivia] using rest
      · exact List.rel_append (forall₂_toList (ofTree?_bare t)) rest

theorem splitAtDot_bare (ts : List Tree) : PartsAlike (splitAtDot ts) (splitAtDot (Tree.bareAll ts)) := by
  match ts with
  | [] => exact ⟨.nil, .none⟩
  | t :: ts =>
      have rest := splitAtDot_bare ts
      unfold Tree.bareAll
      by_cases isDot : ∃ l, t = .leaf .dot l
      · obtain ⟨l, rfl⟩ := isDot
        exact rest.dot l l.bare
      · have notDot := not_exists.1 isDot
        split
        · rename_i trivia
          simpa [splitAtDot_cons notDot, ofTree?_trivia trivia] using rest
        · exact splitAtDot_bare_cons notDot (ofTree?_bare t) rest

end

end Datum

/-! ## Forms -/

theorem Build.Alike.erased_kind {x y : Build (List Form)}
    (alike : Alike Anywhere (fun xs ys => xs.map Form.erase = ys.map Form.erase) x y)
    (fresh fresh' : Identity) :
    (x.erased fresh).mapError SyntaxError.kind = (y.erased fresh').mapError SyntaxError.kind := by
  have built := alike fresh fresh'
  unfold Build.erased
  generalize x.run fresh = r at built
  generalize y.run fresh' = s at built
  cases built with
  | ok same => exact congrArg Except.ok same
  | error _ kind => exact congrArg Except.error kind

/-- The values of the tokens of a source, and its lexical errors, without blanks and comments. -/
def tokens (source : String) : List (Except LexError Token) :=
  (significant (lex source)).map Lexeme.result

/-- No lexeme is a directive that switches case folding on or off. -/
def FoldsUniformly (source : String) : Prop := ∀ l ∈ lex source, FoldCase.switch? l = none

theorem parse_bare (source : String) :
    (parse source).bare = Parser.ofLexemes ((tokens source).map (⟨·, "", 0⟩)) := by
  rw [parse, Parser.ofLexemes_bare, tokens, List.map_map]
  rfl

theorem FoldsUniformly.ofTree {source : String} (uniform : FoldsUniformly source) (folds : Bool) :
    FoldCase.ofTree folds (parse source).tree = .uniform folds := by
  rw [FoldCase.ofTree, parse_leaves, List.filterMap_eq_nil_iff.2 uniform]
  rfl

theorem FoldsUniformly.erased_bare {source : String} (uniform : FoldsUniformly source) (folds : Bool)
    (fresh fresh' : Identity) :
    ((Form.ofTree folds (parse source).tree).erased fresh).mapError SyntaxError.kind =
      ((Form.ofData (.uniform folds) (parse source).bare.tree.data).erased fresh').mapError
        SyntaxError.kind := by
  have data : List.Forall₂ (Datum.Alike Anywhere) (parse source).tree.data (parse source).bare.tree.data :=
    Datum.ofTrees_bare _
  have agree : FoldCase.Agree Anywhere (.uniform folds) (.uniform folds) := fun _ _ _ => rfl
  rw [Form.ofTree, uniform.ofTree folds]
  exact (Form.ofData_alike agree data).erased_kind fresh fresh'

theorem read_eq_of_tokens_eq {s t : String} (uniform : FoldsUniformly s) (uniform' : FoldsUniformly t)
    (same : tokens s = tokens t) :
    (parse s).errors.map ParseError.kind = (parse t).errors.map ParseError.kind ∧
      ∀ folds fresh fresh', ((Form.ofTree folds (parse s).tree).erased fresh).mapError SyntaxError.kind =
        ((Form.ofTree folds (parse t).tree).erased fresh').mapError SyntaxError.kind := by
  have bare : (parse s).bare = (parse t).bare := by rw [parse_bare, parse_bare, same]
  constructor
  · have kinds (p : Parsed) : p.errors.map ParseError.kind = p.bare.errors.map ParseError.kind := by
      simp only [Parsed.bare, List.map_map]
      rfl
    rw [kinds (parse s), kinds (parse t), bare]
  · intro folds fresh fresh'
    rw [uniform.erased_bare folds fresh 0, uniform'.erased_bare folds fresh' 0, bare]

/-- A list with nothing after its dot, on one line and on several, once with bars around its name. -/
theorem read_eq_of_tokens_eq_dotted :
    tokens "(|a| 'b .)" = tokens "( a ; one\n '\n b .  )" ∧
      (parse "( a ; one\n '\n b .  )").errors.map ParseError.kind = [.misplacedDot] ∧
      ((Form.ofTree false (parse "( a ; one\n '\n b .  )").tree).erased 0).mapError SyntaxError.kind =
        .error .dottedList := by
  have same : tokens "(|a| 'b .)" = tokens "( a ; one\n '\n b .  )" := by cbv
  have uniform : FoldsUniformly "(|a| 'b .)" := by
    unfold FoldsUniformly
    decide +kernel
  have uniform' : FoldsUniformly "( a ; one\n '\n b .  )" := by
    unfold FoldsUniformly
    decide +kernel
  obtain ⟨errors, forms⟩ := read_eq_of_tokens_eq uniform uniform' same
  refine ⟨same, ?_, ?_⟩
  · rw [← errors]
    cbv
  · rw [← forms false 0 0]
    cbv

end StoreScheme
