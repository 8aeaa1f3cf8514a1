import StoreScheme.Session

/-!
# Well-formed expressions

What holds of every expression that is built from data: names bound together differ and are not
reserved, and a `let` has one value for each name.

* `Expr.WellFormed`, `Form.WellFormed`: the conditions, at every depth
* `Build.Yields`: what building gives when it succeeds; identities are never given back
* `Expr.ofDatum_yields`, `Form.ofTree_yields`: built expressions and forms are well formed
* `readForms_ok`: the same for the forms of a source
-/

namespace StoreScheme

structure Bindable (names : List String) : Prop where
  nodup : names.Nodup
  free : ∀ name ∈ names, isReserved name = false

inductive Expr.WellFormed : Expr → Prop
  | number (n : Number) : WellFormed (.number n)
  | boolean (b : Bool) : WellFormed (.boolean b)
  | string (s : String) : WellFormed (.string s)
  | literal (l : Literal) : WellFormed (.literal l)
  | primitive (p : Primitive) : WellFormed (.primitive p)
  | ref {name : String} : isReserved name = false → WellFormed (.ref name)
  | ifElse {test consequent : Expr} {alternative : Option Expr} : WellFormed test →
    WellFormed consequent → (∀ e ∈ alternative, WellFormed e) →
    WellFormed (.ifElse test consequent alternative)
  | lambda {params : List String} {body : List Expr} : Bindable params →
    (∀ e ∈ body, WellFormed e) → WellFormed (.lambda params body)
  | letIn {names : List String} {values body : List Expr} : Bindable names →
    names.length = values.length → (∀ e ∈ values, WellFormed e) → (∀ e ∈ body, WellFormed e) →
    WellFormed (.letIn names values body)
  | apply {operator : Expr} {operands : List Expr} : WellFormed operator →
    (∀ e ∈ operands, WellFormed e) → WellFormed (.apply operator operands)
  | assign {name : String} {value : Expr} : isReserved name = false → WellFormed value →
    WellFormed (.assign name value)

inductive Form.WellFormed : Form → Prop
  | define {name : String} {e : Expr} : isReserved name = false → e.WellFormed →
    WellFormed (.define name e)
  | expr {e : Expr} : e.WellFormed → WellFormed (.expr e)

/-! ## Building -/

namespace Build

variable {α β : Type} {P : α → Prop} {Q : β → Prop}

/-- What holds of a result, if there is one.  The next free identity never goes down. -/
def Yields (P : α → Prop) (x : Build α) : Prop :=
  ∀ id a next, x.run id = .ok (a, next) → id ≤ next ∧ P a

theorem Yields.pure {a : α} (h : P a) : Yields P (Pure.pure a : Build α) := by
  rintro id _ _ ⟨⟩
  exact ⟨Nat.le_refl id, h⟩

theorem Yields.fail (span : Span) (kind : SyntaxErrorKind) : Yields P (Build.fail span kind) := by
  rintro id a next ⟨⟩

theorem Yields.bind {x : Build α} {f : α → Build β} (first : Yields P x)
    (next : ∀ a, P a → Yields Q (f a)) : Yields Q (x >>= f) := by
  intro id b after run
  rw [StateT.run_bind] at run
  cases h : x.run id with
  | error e => rw [h] at run; cases run
  | ok result =>
      rw [h] at run
      obtain ⟨grown, holds⟩ := first id result.1 result.2 h
      obtain ⟨grown', holds'⟩ := next result.1 holds result.2 b after run
      exact ⟨Nat.le_trans grown grown', holds'⟩

theorem Yields.imp {R : α → Prop} {x : Build α} (h : Yields P x) (imp : ∀ a, P a → R a) :
    Yields R x :=
  fun id a next run => ⟨(h id a next run).1, imp a (h id a next run).2⟩

theorem Yields.map {x : Build α} {f : α → β} (h : Yields (fun a => Q (f a)) x) :
    Yields Q (f <$> x) := by
  rw [map_eq_pure_bind]
  exact h.bind fun a => Yields.pure

theorem cons_yields (car cdr : Literal) : Yields (fun _ => True) (Build.cons car cdr) := by
  rintro id _ _ ⟨⟩
  exact ⟨Nat.le_succ id, trivial⟩

end Build

open Build

/-! ## Names -/

theorem bindable_yields (f : FoldCase) (d : Datum) :
    Yields (fun name => isReserved name = false) (bindable f d) := by
  unfold bindable
  split
  · dsimp only
    split
    · exact .fail _ _
    · rename_i free
      exact .pure (by simpa using free)
  · exact .fail _ _

theorem distinctNames_yields (f : FoldCase) (seen : List String) (ds : List Datum) :
    Yields (fun names => Bindable names ∧ (∀ name ∈ names, name ∉ seen) ∧ names.length = ds.length)
      (distinctNames f seen ds) := by
  induction ds generalizing seen with
  | nil => exact .pure ⟨⟨List.nodup_nil, by simp⟩, by simp, rfl⟩
  | cons d ds ih =>
      refine (bindable_yields f d).bind fun name free => ?_
      split
      · exact .fail _ _
      · rename_i new
        refine (ih (name :: seen)).bind fun names ⟨⟨nodup, frees⟩, apart, length⟩ => .pure ?_
        have other : name ∉ names := fun member => apart name member (by simp)
        refine ⟨⟨List.nodup_cons.2 ⟨other, nodup⟩, ?_⟩, ?_, by simp [length]⟩
        · exact List.forall_mem_cons.2 ⟨free, frees⟩
        · refine List.forall_mem_cons.2 ⟨by simpa using new, fun n member seen' => ?_⟩
          exact apart n member (List.mem_cons_of_mem name seen')

/-! ## Quoted data -/

namespace Literal

mutual

theorem ofDatum_yields (f : FoldCase) (d : Datum) : Yields (fun _ => True) (ofDatum f d) := by
  match d with
  | .atom _ (.number n) => exact .pure trivial
  | .atom _ (.string s) => exact .pure trivial
  | .atom _ (.boolean b) => exact .pure trivial
  | .atom span (.symbol identifier) => exact .pure trivial
  | .quoted span none => exact .fail _ _
  | .quoted _ (some d) =>
      exact (ofDatum_yields f d).bind fun _ _ => (cons_yields _ _).bind fun _ _ => cons_yields _ _
  | .list _ before none => exact ofItems_yields f .null before
  | .list _ before (some after) =>
      exact (ofTail_yields f after).bind fun tail _ => ofItems_yields f tail before

theorem ofTail_yields (f : FoldCase) (ds : List Datum) : Yields (fun _ => True) (ofTail f ds) := by
  match ds with
  | [] => exact .pure trivial
  | [d] => exact ofDatum_yields f d
  | _ :: d :: ds => exact ofTail_yields f (d :: ds)

theorem ofItems_yields (f : FoldCase) (tail : Literal) (ds : List Datum) :
    Yields (fun _ => True) (ofItems f tail ds) := by
  match ds with
  | [] => exact .pure trivial
  | d :: ds =>
      exact (ofItems_yields f tail ds).bind fun _ _ =>
        (ofDatum_yields f d).bind fun _ _ => cons_yields _ _

end

end Literal

/-! ## Expressions -/

namespace Expr

theorem ofName_yields (span : Span) (name : String) : Yields WellFormed (ofName span name) := by
  unfold ofName
  split
  · exact .pure (.primitive _)
  · exact .fail _ _
  · rename_i noPrimitive noKeyword
    exact .pure (.ref (by simp [isReserved, noPrimitive, noKeyword]))

mutual

theorem ofDatum_yields (f : FoldCase) (d : Datum) : Yields WellFormed (ofDatum f d) := by
  match d with
  | .atom _ (.number n) => exact .pure (.number n)
  | .atom _ (.string s) => exact .pure (.string s)
  | .atom _ (.boolean b) => exact .pure (.boolean b)
  | .atom span (.symbol identifier) => exact ofName_yields _ _
  | .quoted span none => exact .fail _ _
  | .quoted _ (some d) => exact .map ((Literal.ofDatum_yields f d).imp fun l _ => .literal l)
  | .list span before (some after) =>
      unfold ofDatum
      split
      · exact .fail _ _
      · exact .fail _ _
  | .list span [] none => exact .fail _ _
  | .list span (head :: rest) none =>
      unfold ofDatum
      split
      · refine (ofDatum_yields f head).bind fun operator wfOperator => ?_
        refine (ofData_yields f _).bind fun operands wfOperands => ?_
        exact .pure (.apply wfOperator wfOperands)
      · rename_i d _
        exact .map ((Literal.ofDatum_yields f d).imp fun l _ => .literal l)
      · exact .fail _ _
      · rename_i target value _
        refine (bindable_yields f target).bind fun name free => ?_
        exact (ofDatum_yields f value).bind fun value wfValue => .pure (.assign free wfValue)
      · rename_i test consequent _
        refine (ofDatum_yields f test).bind fun test wfTest => ?_
        refine (ofDatum_yields f consequent).bind fun consequent wfConsequent => .pure ?_
        exact .ifElse wfTest wfConsequent (by simp)
      · rename_i test consequent alternative _
        refine (ofDatum_yields f test).bind fun test wfTest => ?_
        refine (ofDatum_yields f consequent).bind fun consequent wfConsequent => ?_
        refine (ofDatum_yields f alternative).bind fun alternative wfAlternative => .pure ?_
        exact .ifElse wfTest wfConsequent (by simpa using wfAlternative)
      · rename_i params body _
        refine (distinctNames_yields f [] params).bind fun params ⟨names, _, _⟩ => ?_
        exact (ofData_yields f body).bind fun body wfBody => .pure (.lambda names wfBody)
      · rename_i bindings body _
        refine (ofBindings_yields f bindings).bind fun values ⟨wfValues, count⟩ => ?_
        refine (distinctNames_yields f [] _).bind fun names ⟨bindable, _, length⟩ => ?_
        refine (ofData_yields f body).bind fun body wfBody => .pure ?_
        exact .letIn bindable (length.trans count.symm) wfValues wfBody
      · exact .fail _ _

theorem ofData_yields (f : FoldCase) (ds : List Datum) :
    Yields (fun es => ∀ e ∈ es, e.WellFormed) (ofData f ds) := by
  match ds with
  | [] => exact .pure (by simp)
  | d :: ds =>
      exact (ofDatum_yields f d).bind fun e wf => (ofData_yields f ds).bind fun es wfs =>
        .pure (List.forall_mem_cons.2 ⟨wf, wfs⟩)

theorem ofBindings_yields (f : FoldCase) (ds : List Datum) :
    Yields (fun es => (∀ e ∈ es, e.WellFormed) ∧ es.length = (bindingTargets ds).length)
      (ofBindings f ds) := by
  match ds with
  | [] => exact .pure ⟨by simp, rfl⟩
  | .list _ [target, value] none :: ds =>
      refine (ofDatum_yields f value).bind fun e wf => ?_
      refine (ofBindings_yields f ds).bind fun es ⟨wfs, count⟩ => .pure ⟨?_, ?_⟩
      · exact List.forall_mem_cons.2 ⟨wf, wfs⟩
      · simp [bindingTargets, count]
  | .atom _ _ :: _ => exact .fail _ _
  | .quoted _ _ :: _ => exact .fail _ _
  | .list _ [] _ :: _ => exact .fail _ _
  | .list _ [_] _ :: _ => exact .fail _ _
  | .list _ [_, _] (some _) :: _ => exact .fail _ _
  | .list _ (_ :: _ :: _ :: _) _ :: _ => exact .fail _ _

end

end Expr

/-! ## Forms -/

namespace Form

theorem ofDefinition_yields (f : FoldCase) (span : Span) (ds : List Datum) :
    Yields WellFormed (ofDefinition f span ds) := by
  unfold ofDefinition
  split
  · exact .fail _ _
  · exact .fail _ _
  · rename_i target params body
    refine (bindable_yields f target).bind fun name free => ?_
    refine (distinctNames_yields f [] params).bind fun params ⟨names, _, _⟩ => ?_
    refine (Expr.ofData_yields f body).bind fun body wfBody => ?_
    exact .pure (.define free (.lambda names wfBody))
  · rename_i target value _ _ _
    refine (bindable_yields f target).bind fun name free => ?_
    exact (Expr.ofDatum_yields f value).bind fun value wfValue => .pure (.define free wfValue)
  · exact .fail _ _

theorem ofDatum_yields (f : FoldCase) (d : Datum) : Yields WellFormed (ofDatum f d) := by
  have asExpr : Yields WellFormed (.expr <$> Expr.ofDatum f d) :=
    .map ((Expr.ofDatum_yields f d).imp fun _ => .expr)
  unfold ofDatum
  split
  · split
    · split
      · exact .fail _ _
      · exact ofDefinition_yields f _ _
    · exact asExpr
  · exact asExpr

theorem ofData_yields (f : FoldCase) (ds : List Datum) :
    Yields (fun xs => ∀ x ∈ xs, x.WellFormed) (ofData f ds) := by
  induction ds with
  | nil => exact .pure (by simp)
  | cons d ds ih =>
      exact (ofDatum_yields f d).bind fun x wf => ih.bind fun xs wfs =>
        .pure (List.forall_mem_cons.2 ⟨wf, wfs⟩)

theorem ofTree_yields (folds : Bool) (t : Tree) :
    Yields (fun xs => ∀ x ∈ xs, x.WellFormed) (ofTree folds t) :=
  ofData_yields _ _

end Form

theorem readForms_ok {foldCase : Bool} {fresh next : Identity} {source : String} {xs : List Form}
    (read : readForms foldCase fresh source = .ok (xs, next)) :
    fresh ≤ next ∧ ∀ x ∈ xs, x.WellFormed := by
  unfold readForms at read
  dsimp only at read
  split at read
  · split at read
    · rename_i built
      cases read
      exact Form.ofTree_yields foldCase _ fresh xs next built
    · cases read
  · cases read

end StoreScheme
