import StoreScheme.Proofs.Language

/-!
# Where building fails

Building fails at a datum: an error stands where the datum does or where one in it does.  A quote without
its datum is the only literal that is not supported.  A source without parse errors has none, and each of
its data reaches from a lexeme to the same or a later one.

* `Datum.Placed`: every quote has its datum, and all data stand at places of some kind
* `Build.FailsAt`: building fails at such places, and not because of a literal
* `Expr.ofDatum_failsAt`, `Form.ofData_failsAt`: data at such places
* `Derives.placed`, `Form.ofTree_failsAt`: sources without parse errors
-/

namespace StoreScheme

/-! ## Places of data -/

/-- Every quote in a datum has the datum that it applies to, and the places of all data are of some
kind. -/
inductive Datum.Placed (P : Span → Prop) : Datum → Prop
  | atom {span : Span} {a : Atom} : P span → Placed P (.atom span a)
  | list {span : Span} {before : List Datum} {after : Option (List Datum)} : P span →
    (∀ d ∈ before, Placed P d) → (∀ ds ∈ after, ∀ d ∈ ds, Placed P d) → Placed P (.list span before after)
  | quoted {span : Span} {d : Datum} : P span → Placed P d → Placed P (.quoted span (some d))

section
variable {P : Span → Prop} {d : Datum} {ls : List Lexeme} {ds : List Datum}

theorem Datum.Placed.span (placed : d.Placed P) : P d.span := by
  cases placed <;> assumption

theorem Datum.Placed.whole (placed : d.Placed P) : d.Whole := by
  induction placed with
  | atom _ => exact .atom _ _
  | list _ _ _ ihBefore ihAfter => exact .list ihBefore ihAfter
  | quoted _ _ ih => exact .quoted ih

theorem Derives.exists_stop (derives : Derives ls ds) : ∀ d ∈ ds, ∃ l ∈ ls, l.stop = d.span.stop := by
  induction derives with
  | nil => exact List.forall_mem_nil _
  | @atom l _ _ _ _ _ ih =>
      refine List.forall_mem_cons.2 ⟨⟨l, List.mem_cons_self, rfl⟩, fun d member => ?_⟩
      obtain ⟨l, inside, stop⟩ := ih d member
      exact ⟨l, by simp [inside], stop⟩
  | quoted _ _ _ ihInner ih =>
      obtain ⟨l, inside, stop⟩ := ihInner _ List.mem_cons_self
      refine List.forall_mem_cons.2 ⟨⟨l, by simp [inside], stop⟩, fun d member => ?_⟩
      obtain ⟨l, inside, stop⟩ := ih d member
      exact ⟨l, by simp [inside], stop⟩
  | @list _ c _ _ _ _ _ _ _ _ _ ih =>
      refine List.forall_mem_cons.2 ⟨⟨c, by simp, rfl⟩, fun d member => ?_⟩
      obtain ⟨l, inside, stop⟩ := ih d member
      exact ⟨l, by simp [inside], stop⟩
  | @dotted _ _ c _ _ _ _ _ _ _ _ _ _ _ _ _ _ _ ih =>
      refine List.forall_mem_cons.2 ⟨⟨c, by simp, rfl⟩, fun d member => ?_⟩
      obtain ⟨l, inside, stop⟩ := ih d member
      exact ⟨l, by simp [inside], stop⟩

/-- A datum reaches from a lexeme to the same one, or to a later one. -/
theorem Derives.placed (derives : Derives ls ds) (single : ∀ l ∈ ls, P l.span)
    (pairs : ls.Pairwise fun l m => P ⟨l.start, m.stop⟩) : ∀ d ∈ ds, d.Placed P := by
  induction derives with
  | nil => exact List.forall_mem_nil _
  | atom _ _ ih =>
      obtain ⟨own, single⟩ := List.forall_mem_cons.1 single
      exact List.forall_mem_cons.2 ⟨.atom own, ih single (List.pairwise_cons.1 pairs).2⟩
  | quoted _ inner _ ihInner ih =>
      obtain ⟨-, single⟩ := List.forall_mem_cons.1 single
      obtain ⟨singleInner, singleRest⟩ := List.forall_mem_append.1 single
      obtain ⟨first, pairs⟩ := List.pairwise_cons.1 pairs
      obtain ⟨pairsInner, pairsRest, -⟩ := List.pairwise_append.1 pairs
      obtain ⟨l, inside, stop⟩ := inner.exists_stop _ List.mem_cons_self
      have place := first l (List.mem_append_left _ inside)
      rw [stop] at place
      exact List.forall_mem_cons.2 ⟨.quoted place (ihInner singleInner pairsInner _ List.mem_cons_self),
        ih singleRest pairsRest⟩
  | list _ _ _ _ ihInner ih =>
      obtain ⟨-, single⟩ := List.forall_mem_cons.1 single
      obtain ⟨singleInner, singleRest⟩ := List.forall_mem_append.1 single
      obtain ⟨first, pairs⟩ := List.pairwise_cons.1 pairs
      obtain ⟨pairsInner, pairsRest, -⟩ := List.pairwise_append.1 pairs
      refine List.forall_mem_cons.2 ⟨.list (first _ (by simp)) (ihInner singleInner pairsInner) nofun, ?_⟩
      exact ih (List.forall_mem_cons.1 singleRest).2 (List.pairwise_cons.1 pairsRest).2
  | dotted _ _ _ _ _ _ _ ihInner ihAfter ih =>
      obtain ⟨-, single⟩ := List.forall_mem_cons.1 single
      obtain ⟨singleInner, singleRest⟩ := List.forall_mem_append.1 single
      obtain ⟨singleAfter, singleRest⟩ := List.forall_mem_append.1 (List.forall_mem_cons.1 singleRest).2
      obtain ⟨first, pairs⟩ := List.pairwise_cons.1 pairs
      obtain ⟨pairsInner, pairsRest, -⟩ := List.pairwise_append.1 pairs
      obtain ⟨pairsAfter, pairsRest, -⟩ := List.pairwise_append.1 (List.pairwise_cons.1 pairsRest).2
      have after := ihAfter singleAfter pairsAfter
      refine List.forall_mem_cons.2
        ⟨.list (first _ (by simp)) (ihInner singleInner pairsInner) (by simpa using after), ?_⟩
      exact ih (List.forall_mem_cons.1 singleRest).2 (List.pairwise_cons.1 pairsRest).2

end

/-! ## Errors of building -/

namespace Build

variable {α β : Type} {x : Build α} {P : Span → Prop}

def FailsAt (P : Span → Prop) (x : Build α) : Prop :=
  ∀ id e, x.run id = .error e → P e.span ∧ e.kind ≠ .unsupportedLiteral

theorem FailsAt.pure (a : α) : FailsAt P (Pure.pure a : Build α) := by
  rintro id _ ⟨⟩

theorem FailsAt.fail {span : Span} {kind : SyntaxErrorKind} (place : P span)
    (other : kind ≠ .unsupportedLiteral) : FailsAt P (Build.fail span kind : Build α) := by
  rintro id _ ⟨⟩
  exact ⟨place, other⟩

theorem FailsAt.bind {f : α → Build β} (first : FailsAt P x) (next : ∀ a, FailsAt P (f a)) :
    FailsAt P (x >>= f) := by
  intro id e run
  rw [StateT.run_bind] at run
  cases h : x.run id with
  | error e' =>
      rw [h] at run
      cases run
      exact first id e h
  | ok result =>
      rw [h] at run
      exact next result.1 result.2 e run

theorem FailsAt.map {f : α → β} (h : FailsAt P x) : FailsAt P (f <$> x) := by
  rw [map_eq_pure_bind]
  exact h.bind fun a => .pure (f a)

theorem Succeeds.failsAt (succeeds : Succeeds x) : FailsAt P x := by
  intro id e run
  obtain ⟨a, next, run'⟩ := succeeds id
  cases run.symm.trans run'

end Build

open Build

variable {P : Span → Prop}

theorem bindable_failsAt (f : FoldCase) {d : Datum} (placed : d.Placed P) : FailsAt P (bindable f d) := by
  have place := placed.span
  unfold bindable
  split
  · dsimp only
    split
    · exact .fail place nofun
    · exact .pure _
  · exact .fail place nofun

theorem distinctNames_failsAt (f : FoldCase) (seen : List String) {ds : List Datum}
    (placed : ∀ d ∈ ds, d.Placed P) : FailsAt P (distinctNames f seen ds) := by
  induction ds generalizing seen with
  | nil => exact .pure _
  | cons d ds ih =>
      obtain ⟨first, rest⟩ := List.forall_mem_cons.1 placed
      refine (bindable_failsAt f first).bind fun name => ?_
      split
      · exact .fail first.span nofun
      · exact (ih _ rest).bind fun names => .pure _

theorem Literal.ofDatum_failsAt (f : FoldCase) {d : Datum} (placed : d.Placed P) :
    FailsAt P (Literal.ofDatum f d) :=
  (Literal.ofDatum_succeeds f d placed.whole).failsAt

/-! ## Expressions -/

namespace Expr

theorem ofName_failsAt {span : Span} (place : P span) (name : String) : FailsAt P (ofName span name) := by
  unfold ofName
  split
  · exact .pure _
  · exact .fail place nofun
  · exact .pure _

theorem bindingTargets_placed {ds : List Datum} (placed : ∀ d ∈ ds, d.Placed P) :
    ∀ d ∈ bindingTargets ds, d.Placed P := by
  fun_induction bindingTargets ds with
  | case1 _ target value ds ih =>
      obtain ⟨first, rest⟩ := List.forall_mem_cons.1 placed
      cases first with
      | list _ parts _ => exact List.forall_mem_cons.2 ⟨parts target (by simp), ih rest⟩
  | case2 => exact List.forall_mem_nil _

mutual

theorem ofDatum_failsAt (f : FoldCase) (d : Datum) (placed : d.Placed P) : FailsAt P (ofDatum f d) := by
  match d, placed with
  | .atom _ (.number n), _ => exact .pure _
  | .atom _ (.string s), _ => exact .pure _
  | .atom _ (.boolean b), _ => exact .pure _
  | .atom span (.symbol identifier), .atom place => exact ofName_failsAt place _
  | .quoted _ (some d), .quoted _ inner => exact (Literal.ofDatum_failsAt f inner).map
  | .list span before (some after), .list place _ _ =>
      unfold ofDatum
      split
      · exact .fail place nofun
      · exact .fail place nofun
  | .list span [] none, .list place _ _ => exact .fail place nofun
  | .list span (head :: rest) none, .list place parts _ =>
      obtain ⟨placedHead, placedRest⟩ := List.forall_mem_cons.1 parts
      unfold ofDatum
      split
      · refine (ofDatum_failsAt f head placedHead).bind fun operator => ?_
        exact (ofData_failsAt f _ placedRest).bind fun operands => .pure _
      · rename_i d _
        exact (Literal.ofDatum_failsAt f (placedRest d (by simp))).map
      · exact .fail place nofun
      · rename_i target value _
        refine (bindable_failsAt f (placedRest target (by simp))).bind fun name => ?_
        exact (ofDatum_failsAt f value (placedRest value (by simp))).bind fun value => .pure _
      · rename_i test consequent _
        refine (ofDatum_failsAt f test (placedRest test (by simp))).bind fun test => ?_
        exact (ofDatum_failsAt f consequent (placedRest consequent (by simp))).bind fun _ => .pure _
      · rename_i test consequent alternative _
        refine (ofDatum_failsAt f test (placedRest test (by simp))).bind fun test => ?_
        refine (ofDatum_failsAt f consequent (placedRest consequent (by simp))).bind fun consequent => ?_
        exact (ofDatum_failsAt f alternative (placedRest alternative (by simp))).bind fun _ => .pure _
      · rename_i params body _
        obtain ⟨placedParams, placedBody⟩ := List.forall_mem_cons.1 placedRest
        cases placedParams with
        | list _ placedParams _ =>
            refine (distinctNames_failsAt f [] placedParams).bind fun params => ?_
            exact (ofData_failsAt f body placedBody).bind fun body => .pure _
      · rename_i bindings body _
        obtain ⟨placedBindings, placedBody⟩ := List.forall_mem_cons.1 placedRest
        cases placedBindings with
        | list _ placedBindings _ =>
            refine (ofBindings_failsAt f bindings placedBindings).bind fun values => ?_
            refine (distinctNames_failsAt f [] (bindingTargets_placed placedBindings)).bind fun names => ?_
            exact (ofData_failsAt f body placedBody).bind fun body => .pure _
      · exact .fail place nofun

theorem ofData_failsAt (f : FoldCase) (ds : List Datum) (placed : ∀ d ∈ ds, d.Placed P) :
    FailsAt P (ofData f ds) := by
  match ds with
  | [] => exact .pure _
  | d :: ds =>
      obtain ⟨placedFirst, placedRest⟩ := List.forall_mem_cons.1 placed
      refine (ofDatum_failsAt f d placedFirst).bind fun e => ?_
      exact (ofData_failsAt f ds placedRest).bind fun es => .pure _

theorem ofBindings_failsAt (f : FoldCase) (ds : List Datum) (placed : ∀ d ∈ ds, d.Placed P) :
    FailsAt P (ofBindings f ds) := by
  match ds with
  | [] => exact .pure _
  | d :: ds =>
      obtain ⟨placedFirst, placedRest⟩ := List.forall_mem_cons.1 placed
      have malformed : FailsAt P (Build.fail d.span (.malformed .letIn) : Build (List Expr)) :=
        .fail placedFirst.span nofun
      match d, placedFirst with
      | .list _ [target, value] none, .list _ parts _ =>
          refine (ofDatum_failsAt f value (parts value (by simp))).bind fun e => ?_
          exact (ofBindings_failsAt f ds placedRest).bind fun es => .pure _
      | .atom _ _, _ => exact malformed
      | .quoted _ _, _ => exact malformed
      | .list _ [] _, _ => exact malformed
      | .list _ [_] _, _ => exact malformed
      | .list _ [_, _] (some _), _ => exact malformed
      | .list _ (_ :: _ :: _ :: _) _, _ => exact malformed

end

end Expr

/-! ## Forms -/

namespace Form

theorem ofDefinition_failsAt (f : FoldCase) {span : Span} (place : P span) (ds : List Datum)
    (placed : ∀ d ∈ ds, d.Placed P) : FailsAt P (ofDefinition f span ds) := by
  unfold ofDefinition
  split
  · exact .fail (placed _ List.mem_cons_self).span nofun
  · exact .fail place nofun
  · rename_i target params body
    obtain ⟨signature, placedBody⟩ := List.forall_mem_cons.1 placed
    cases signature with
    | list _ signature _ =>
        obtain ⟨placedTarget, placedParams⟩ := List.forall_mem_cons.1 signature
        refine (bindable_failsAt f placedTarget).bind fun name => ?_
        refine (distinctNames_failsAt f [] placedParams).bind fun params => ?_
        exact (Expr.ofData_failsAt f body placedBody).bind fun body => .pure _
  · rename_i target value _ _ _
    refine (bindable_failsAt f (placed target (by simp))).bind fun name => ?_
    exact (Expr.ofDatum_failsAt f value (placed value (by simp))).bind fun value => .pure _
  · exact .fail place nofun

theorem ofDatum_failsAt (f : FoldCase) {d : Datum} (placed : d.Placed P) : FailsAt P (ofDatum f d) := by
  have asExpr : FailsAt P (Form.expr <$> Expr.ofDatum f d) := (Expr.ofDatum_failsAt f d placed).map
  unfold ofDatum
  split
  · cases placed with
    | list place parts _ =>
        split
        · split
          · exact .fail place nofun
          · exact ofDefinition_failsAt f place _ fun d member => parts d (List.mem_of_mem_tail member)
        · exact asExpr
  · exact asExpr

theorem ofData_failsAt (f : FoldCase) {ds : List Datum} (placed : ∀ d ∈ ds, d.Placed P) :
    FailsAt P (ofData f ds) := by
  induction ds with
  | nil => exact .pure _
  | cons d ds ih =>
      obtain ⟨placedFirst, placedRest⟩ := List.forall_mem_cons.1 placed
      exact (ofDatum_failsAt f placedFirst).bind fun x => (ih placedRest).bind fun xs => .pure _

theorem ofTree_failsAt {source : String} (ok : (parse source).isOk = true) (folds : Bool)
    (single : ∀ l ∈ lex source, P l.span) (pairs : (lex source).Pairwise fun l m => P ⟨l.start, m.stop⟩) :
    FailsAt P (ofTree folds (parse source).tree) := by
  obtain ⟨ds, derives⟩ := derives_of_isOk ok
  have data : (parse source).tree.data = ds := derives.parse.2
  rw [ofTree, data]
  exact ofData_failsAt _ <|
    derives.placed (fun l member => single l (List.mem_of_mem_filter member)) (pairs.filter _)

theorem ofTree_supported {source : String} (ok : (parse source).isOk = true) (folds : Bool) (id : Identity)
    (e : SyntaxError) (failed : (ofTree folds (parse source).tree).run id = .error e) :
    e.kind ≠ .unsupportedLiteral := by
  have anywhere : FailsAt (fun _ => True) (ofTree folds (parse source).tree) :=
    ofTree_failsAt ok folds (fun _ _ => trivial) (List.pairwise_of_forall fun _ _ => trivial)
  exact (anywhere id e failed).2

end Form

end StoreScheme
