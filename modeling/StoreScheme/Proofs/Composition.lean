import Mathlib
import StoreScheme.Proofs.ErrorReports
import StoreScheme.Proofs.Expr.Lockstep
import StoreScheme.Proofs.Grammar
import StoreScheme.Proofs.Losslessness
import StoreScheme.Proofs.Token.Seam

/-!
# Reading is compositional

A source that is put on the lines behind another one without errors is read as it is by itself, only
further on, and with the case folding that the first one leaves behind.

* `ParseError.shift`, `SyntaxError.shift`: errors further on
* `Build.erased`: the forms that are built, up to identities
* `FoldCase.foldsAt_before`, `FoldCase.foldsAt_behind`: folding in either of two texts
* `ofData_moved`: the forms of a source that stands further on
* `read_newline`: the errors and the forms of two sources with a line end between them
-/

namespace StoreScheme

def ParseError.shift (k : Nat) (e : ParseError) : ParseError := { e with span := e.span.shift k }

def SyntaxError.shift (k : Nat) (e : SyntaxError) : SyntaxError := { e with span := e.span.shift k }

theorem SyntaxError.mapError_shift_zero {α : Type} (r : Except SyntaxError α) :
    r.mapError (SyntaxError.shift 0) = r := by
  cases r <;> rfl

/-- A place further on; it starts within the first `size` bytes before it is moved. -/
structure Span.Moved (k size : Nat) (a b : Span) : Prop where
  shift : b = a.shift k
  within : a.start ≤ size

theorem Span.through_moved (k size : Nat) : Span.Through (Span.Moved k size) := by
  rintro a _ c _ ⟨rfl, within⟩ ⟨rfl, _⟩
  exact ⟨rfl, within⟩

namespace Lexeme

theorem stop_shift (k : Nat) (l : Lexeme) : (l.shift k).stop = l.stop + k := by
  simp only [stop, shift]
  omega

theorem map_shift_zero (ls : List Lexeme) : ls.map (shift 0) = ls := List.map_id ls

theorem significant_shift (k : Nat) (ls : List Lexeme) :
    significant (ls.map (shift k)) = (significant ls).map (shift k) := by
  rw [significant, significant, List.filter_map]
  rfl

theorem alike_shift {s : String} (k : Nat) {l : Lexeme} (member : l ∈ lex s) :
    l.Alike (Span.Moved k s.utf8ByteSize) (l.shift k) := by
  have stop := stop_le_of_mem_lex member
  have start : l.start ≤ l.stop := Nat.le_add_right _ _
  refine ⟨rfl, ⟨span_shift k l, Nat.le_trans start stop⟩, ?_, stop⟩
  rw [stop_shift]
  rfl

theorem forall₂_shift {s : String} (k : Nat) {ls : List Lexeme} (members : ls ⊆ lex s) :
    List.Forall₂ (Lexeme.Alike (Span.Moved k s.utf8ByteSize)) ls (ls.map (shift k)) := by
  rw [List.forall₂_map_right_iff, List.forall₂_same]
  exact fun l member => alike_shift k (members member)

end Lexeme

/-! ## Errors -/

theorem Derives.ok_of_significant {ls : List Lexeme} {ds : List Datum} (derives : Derives (significant ls) ds) :
    ∀ l ∈ ls, ∃ token, l.result = .ok token := by
  intro l member
  cases trivia : l.isTrivia with
  | true =>
      obtain ⟨token, result, -⟩ := Lexeme.result_of_isTrivia trivia
      exact ⟨token, result⟩
  | false => exact derives.ok l (List.mem_filter.2 ⟨member, by simp [trivia]⟩)

/-- Behind lexemes without errors the parser stands as at the start of a source, only further on. -/
theorem Derives.alike_start {ls : List Lexeme} {ds : List Datum} {k : Nat} (size : Nat)
    (derives : Derives (significant ls) ds) (stop : ls.getLast?.map Lexeme.stop = some k) :
    Parser.State.Alike (Span.Moved k size) {} (ls.foldl Parser.State.step {}) := by
  have start : ({} : Parser.State).level.Reads ([], none) [] := ⟨rfl, .nil, rfl, rfl, rfl⟩
  have adds := derives.adds rfl {}
  have reads := adds.reads_closed start
  have noDot : (ls.foldl Parser.State.step {}).level.dot = none := by
    simpa [Datum.add] using reads.dot
  have enclosing : (ls.foldl Parser.State.step {}).enclosing = [] := adds.enclosing
  have errors : (ls.foldl Parser.State.step {}).errors = [] := adds.errors
  constructor
  · rw [enclosing]
    refine .root ⟨by rw [reads.closed], ?_, by simp⟩
    rw [noDot]
    exact .none
  · rw [errors]
    exact .nil
  · rw [Parser.State.run_stop, stop]
    exact ⟨by simp [Span.shift], Nat.zero_le size⟩

theorem errors_eq_map_shift {k size : Nat} {es es' : List ParseError}
    (alike : List.Forall₂ (ParseError.Alike (Span.Moved k size)) es es') :
    es' = es.map (ParseError.shift k) := by
  induction alike with
  | nil => rfl
  | @cons e e' _ _ first _ ih =>
      have same : e' = e.shift k := by
        obtain ⟨⟨place, _⟩, kind⟩ := first
        cases e'
        simp_all [ParseError.shift]
      rw [List.map_cons, ih, same]

/-! ## Folding -/

namespace FoldCase

variable {initial : Bool} {earlier later : List (Nat × Bool)} {k size offset : Nat}

theorem foldsAt_before (behind : ∀ switch ∈ later, offset < switch.1) :
    foldsAt ⟨initial, earlier ++ later⟩ offset = foldsAt ⟨initial, earlier⟩ offset := by
  have none : later.takeWhile (fun switch => switch.1 ≤ offset) = [] := by
    cases later with
    | nil => rfl
    | cons switch later =>
        have first := behind switch List.mem_cons_self
        exact List.takeWhile_cons_of_neg (by simpa using first)
  have taken : (earlier ++ later).takeWhile (fun switch => switch.1 ≤ offset) =
      earlier.takeWhile (fun switch => switch.1 ≤ offset) := by
    rw [List.takeWhile_append, none, List.append_nil]
    split
    · next all => exact ((List.takeWhile_prefix _).eq_of_length all).symm
    · rfl
  simp only [foldsAt, taken]

theorem foldsAt_eq (f : FoldCase) (offset : Nat) : f.foldsAt offset =
    ((f.switches.takeWhile fun switch => switch.1 ≤ offset).getLast?.map Prod.snd).getD f.initial := by
  unfold foldsAt
  split
  · next last => rw [last]; rfl
  · next none => rw [none]; rfl

theorem switch?_shift (k : Nat) (l : Lexeme) :
    switch? (l.shift k) = (switch? l).map fun (stop, folds) => (stop + k, folds) := by
  have same : (l.shift k).result = l.result := rfl
  unfold switch?
  rw [same, Lexeme.stop_shift]
  split <;> rfl

theorem switch_le {s : String} : ∀ switch ∈ (lex s).filterMap switch?, switch.1 ≤ s.utf8ByteSize := by
  intro switch member
  obtain ⟨l, inside, found⟩ := List.mem_filterMap.1 member
  unfold switch? at found
  split at found
  · cases found
    exact Lexeme.stop_le_of_mem_lex inside
  · cases found

/-- Behind all switches of a text they have set what the next text starts with. -/
theorem foldsAt_behind (before : ∀ switch ∈ earlier, switch.1 ≤ size) (further : size ≤ k) :
    foldsAt ⟨initial, earlier ++ later.map fun (stop, folds) => (stop + k, folds)⟩ (offset + k) =
      foldsAt ⟨foldsAt ⟨initial, earlier⟩ size, later⟩ offset := by
  have all : earlier.takeWhile (fun switch => switch.1 ≤ size) = earlier :=
    List.takeWhile_eq_self_iff.2 (by simpa using before)
  have passed : ∀ switch ∈ earlier, decide (switch.1 ≤ offset + k) = true := by
    intro switch member
    have := before switch member
    simp only [decide_eq_true_eq]
    omega
  rw [foldsAt_eq, foldsAt_eq, foldsAt_eq, all, List.takeWhile_append_of_pos passed, List.takeWhile_map,
    List.getLast?_append, List.getLast?_map]
  simp only [Function.comp_def, Nat.add_le_add_iff_right]
  cases (later.takeWhile fun switch => switch.1 ≤ offset).getLast? <;> rfl

end FoldCase

/-! ## Forms -/

/-- The forms that are built, without their identities. -/
def Build.erased (x : Build (List Form)) (fresh : Identity) : Except SyntaxError (List Form) :=
  (fun result => result.1.map Form.erase) <$> x.run fresh

namespace Build

variable {x y : Build (List Form)} {k size : Nat}

theorem Alike.erased (fresh fresh' : Identity)
    (alike : Alike (Span.Moved k size) (fun xs ys => xs.map Form.erase = ys.map Form.erase) x y) :
    y.erased fresh' = (x.erased fresh).mapError (SyntaxError.shift k) := by
  have built := alike fresh fresh'
  unfold Build.erased
  generalize x.run fresh = r at built
  generalize y.run fresh' = s at built
  cases built with
  | ok same => exact congrArg Except.ok same.symm
  | @error e e' place kind =>
      have same : e' = e.shift k := by
        obtain ⟨place, _⟩ := place
        cases e'
        simp_all [SyntaxError.shift]
      rw [same]
      rfl

theorem erased_append {r : Except SyntaxError (List Form)} (fresh : Identity)
    (second : ∀ next, y.erased next = r) :
    Build.erased (do
        let xs ← x
        let ys ← y
        return xs ++ ys) fresh = do
      let xs ← x.erased fresh
      let ys ← r
      return xs ++ ys := by
  unfold Build.erased at second ⊢
  rw [StateT.run_bind]
  cases x.run fresh with
  | error e => rfl
  | ok result =>
      obtain ⟨xs, next⟩ := result
      rw [← second next]
      change _ <$> (y >>= fun ys => pure (xs ++ ys)).run next = _
      rw [StateT.run_bind]
      cases y.run next with
      | error e => rfl
      | ok result => exact congrArg Except.ok List.map_append

end Build

/-- Reading a source further on, with the case folded as in the source by itself. -/
theorem ofData_moved {s : String} (ok : (parse s).isOk = true) (k : Nat) (folds : Bool) (f : FoldCase)
    (agree : ∀ offset ≤ s.utf8ByteSize,
      f.foldsAt (offset + k) = (FoldCase.ofTree folds (parse s).tree).foldsAt offset) :
    ∃ ds, Derives ((significant (lex s)).map (Lexeme.shift k)) ds ∧ ∀ fresh fresh',
      (Form.ofData f ds).erased fresh =
        ((Form.ofTree folds (parse s).tree).erased fresh').mapError (SyntaxError.shift k) := by
  obtain ⟨ds, derives⟩ := derives_of_isOk ok
  have members : significant (lex s) ⊆ lex s := List.filter_subset_self _
  obtain ⟨es, moved, alike⟩ := derives.alike (Span.through_moved k _) (Lexeme.forall₂_shift k members)
  refine ⟨es, moved, fun fresh fresh' => ?_⟩
  rw [Form.ofTree, derives.parse.2]
  have agree' : FoldCase.Agree (Span.Moved k s.utf8ByteSize) (FoldCase.ofTree folds (parse s).tree) f := by
    rintro a _ ⟨rfl, within⟩
    exact (agree a.start within).symm
  exact (Form.ofData_alike agree' alike).erased fresh' fresh

/-! ## Sources -/

section
variable {s s₁ s₂ : String} {ls : List Lexeme} {k : Nat}

theorem errors_of_lex_eq {ds : List Datum} (lexed : lex s = ls ++ (lex s₂).map (Lexeme.shift k))
    (derives : Derives (significant ls) ds) (stop : ls.getLast?.map Lexeme.stop = some k) :
    (parse s).errors = (parse s₂).errors.map (ParseError.shift k) := by
  have start := derives.alike_start s₂.utf8ByteSize stop
  have second := Lexeme.forall₂_shift (s := s₂) k (List.Subset.refl _)
  rw [parse, Parser.ofLexemes, lexed, List.foldl_append]
  exact errors_eq_map_shift (start.run second).finish

theorem ofTree_of_lex_eq (folds : Bool) (lexed : lex s = ls ++ (lex s₂).map (Lexeme.shift k))
    (same : SameMeaning ls (lex s₁)) :
    FoldCase.ofTree folds (parse s).tree =
      ⟨folds, (lex s₁).filterMap FoldCase.switch? ++
        ((lex s₂).filterMap FoldCase.switch?).map fun (stop, folds) => (stop + k, folds)⟩ := by
  have shifted : FoldCase.switch? ∘ Lexeme.shift k = fun l =>
      (FoldCase.switch? l).map fun (stop, folds) => (stop + k, folds) :=
    funext (FoldCase.switch?_shift k)
  rw [FoldCase.ofTree, parse_leaves, lexed, List.filterMap_append, same.switches, List.filterMap_map,
    List.map_filterMap, shifted]

theorem foldsAt_first (folds : Bool)
    (lexed : lex s = ls ++ (lex s₂).map (Lexeme.shift (s₁.utf8ByteSize + 1)))
    (same : SameMeaning ls (lex s₁)) {offset : Nat} (within : offset ≤ s₁.utf8ByteSize) :
    (FoldCase.ofTree folds (parse s).tree).foldsAt offset =
      (FoldCase.ofTree folds (parse s₁).tree).foldsAt offset := by
  rw [ofTree_of_lex_eq folds lexed same, FoldCase.foldsAt_before, FoldCase.ofTree, parse_leaves]
  intro switch member
  obtain ⟨before, -, rfl⟩ := List.mem_map.1 member
  change offset < before.1 + (s₁.utf8ByteSize + 1)
  omega

theorem foldsAt_second (folds : Bool)
    (lexed : lex s = ls ++ (lex s₂).map (Lexeme.shift (s₁.utf8ByteSize + 1)))
    (same : SameMeaning ls (lex s₁)) (offset : Nat) :
    (FoldCase.ofTree folds (parse s).tree).foldsAt (offset + (s₁.utf8ByteSize + 1)) =
      (FoldCase.ofTree ((FoldCase.ofTree folds (parse s₁).tree).foldsAt s₁.utf8ByteSize)
        (parse s₂).tree).foldsAt offset := by
  rw [ofTree_of_lex_eq folds lexed same, FoldCase.foldsAt_behind FoldCase.switch_le (Nat.le_succ _),
    FoldCase.ofTree, FoldCase.ofTree, parse_leaves, parse_leaves]

end

/-- After a source without errors and a line end, the errors of a source are what they are by itself,
only further on.  If there are none, the forms are those of the first source and then those of the
second, which starts with the case folding that the first one ends with; an error in the forms of
the first source comes before one in those of the second, which stands further on. -/
theorem read_newline {s₁ : String} (ok : (parse s₁).isOk = true) (s₂ : String) :
    (parse (s₁ ++ "\n" ++ s₂)).errors =
      (parse s₂).errors.map (ParseError.shift (s₁.utf8ByteSize + 1)) ∧
    ((parse s₂).isOk = true → ∀ folds fresh fresh₁ fresh₂,
      (Form.ofTree folds (parse (s₁ ++ "\n" ++ s₂)).tree).erased fresh = do
        let folds' := (FoldCase.ofTree folds (parse s₁).tree).foldsAt s₁.utf8ByteSize
        let xs ← (Form.ofTree folds (parse s₁).tree).erased fresh₁
        let ys ← ((Form.ofTree folds' (parse s₂).tree).erased fresh₂).mapError
          (SyntaxError.shift (s₁.utf8ByteSize + 1))
        return xs ++ ys) := by
  obtain ⟨ds, derives⟩ := derives_of_isOk ok
  obtain ⟨ls, lexed, same, stop⟩ := lex_newline derives.ok_of_significant s₂
  refine ⟨errors_of_lex_eq lexed (same.significant ▸ derives) stop, ?_⟩
  intro ok' folds fresh fresh₁ fresh₂
  obtain ⟨ds₁, derives₁, forms₁⟩ := ofData_moved ok 0 folds
    (FoldCase.ofTree folds (parse (s₁ ++ "\n" ++ s₂)).tree)
    fun offset within => foldsAt_first folds lexed same within
  obtain ⟨ds₂, derives₂, forms₂⟩ := ofData_moved ok' (s₁.utf8ByteSize + 1)
    ((FoldCase.ofTree folds (parse s₁).tree).foldsAt s₁.utf8ByteSize)
    (FoldCase.ofTree folds (parse (s₁ ++ "\n" ++ s₂)).tree)
    fun offset _ => foldsAt_second folds lexed same offset
  rw [Lexeme.map_shift_zero] at derives₁
  have whole : Derives (significant (lex (s₁ ++ "\n" ++ s₂))) (ds₁ ++ ds₂) := by
    rw [lexed, significant_append, Lexeme.significant_shift, same.significant]
    exact derives₁.append derives₂
  rw [Form.ofTree, whole.parse.2, Form.ofData_append,
    Build.erased_append fresh fun next => forms₂ next fresh₂, forms₁ fresh fresh₁,
    SyntaxError.mapError_shift_zero]

theorem read_newline_directive :
    (parse "#!fold-case").isOk = true ∧
    (parse ("#!fold-case" ++ "\n" ++ ")")).errors = [⟨⟨12, 13⟩, .unexpectedCloseParen⟩] ∧
    (Form.ofTree false (parse ("#!fold-case" ++ "\n" ++ "A")).tree).erased 0 =
      .ok [.expr (.ref "a")] := by
  have ok : (parse "#!fold-case").isOk = true := by decide +kernel
  have ok' : (parse "A").isOk = true := by decide +kernel
  refine ⟨ok, ?_, ?_⟩
  · rw [(read_newline ok ")").1]
    decide +kernel
  · rw [(read_newline ok "A").2 ok' false 0 0 0]
    cbv

end StoreScheme
