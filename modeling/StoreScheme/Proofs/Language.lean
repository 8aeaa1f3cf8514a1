import StoreScheme.Proofs.Expr.Denotes
import StoreScheme.Proofs.Grammar

/-!
# The language

Building succeeds on exactly the data that denote something, if these come from a source without
parse errors, where every quote has its datum.

* `Build.Succeeds`: building gives a result, whatever identities are free
* `Datum.Whole`: every quote has its datum
* `Datum.Denotes.succeeds`, `Form.succeeds_of_denotes`: what denotes something is built
* `forms_built_iff`: the forms of a source
-/

namespace StoreScheme

open Build Datum

namespace Build

variable {α β : Type}

def Succeeds (x : Build α) : Prop := ∀ id, ∃ a next, x.run id = .ok (a, next)

theorem Succeeds.pure (a : α) : Succeeds (Pure.pure a : Build α) := fun id => ⟨a, id, rfl⟩

theorem Succeeds.bind {x : Build α} {f : α → Build β} (first : Succeeds x)
    (next : ∀ a, Succeeds (f a)) : Succeeds (x >>= f) := by
  intro id
  obtain ⟨a, id', run⟩ := first id
  rw [StateT.run_bind, run]
  exact next a id'

theorem Succeeds.map {x : Build α} {f : α → β} (h : Succeeds x) : Succeeds (f <$> x) := by
  rw [map_eq_pure_bind]
  exact h.bind fun a => .pure (f a)

theorem succeeds_cons (car cdr : Literal) : Succeeds (Build.cons car cdr) := fun id => ⟨_, id + 1, rfl⟩

end Build

/-- Every quote in a datum has the datum that it applies to. -/
inductive Datum.Whole : Datum → Prop
  | atom (span : Span) (a : Atom) : Whole (.atom span a)
  | list {span : Span} {before : List Datum} {after : Option (List Datum)} :
    (∀ d ∈ before, Whole d) → (∀ ds ∈ after, ∀ d ∈ ds, Whole d) → Whole (.list span before after)
  | quoted {span : Span} {d : Datum} : Whole d → Whole (.quoted span (some d))

theorem Derives.whole {ls : List Lexeme} {ds : List Datum} (derives : Derives ls ds) :
    ∀ d ∈ ds, d.Whole := by
  induction derives with
  | nil => exact List.forall_mem_nil _
  | atom _ _ ih => exact List.forall_mem_cons.2 ⟨.atom _ _, ih⟩
  | quoted _ _ _ ihInner ih => exact List.forall_mem_cons.2 ⟨.quoted (ihInner _ (by simp)), ih⟩
  | list _ _ _ _ ihInner ih => exact List.forall_mem_cons.2 ⟨.list ihInner (by simp), ih⟩
  | dotted _ _ _ _ _ _ _ ihInner ihAfter ih =>
      exact List.forall_mem_cons.2 ⟨.list ihInner (by simpa using ihAfter), ih⟩

namespace Literal

mutual

theorem ofDatum_succeeds (f : FoldCase) (d : Datum) (whole : d.Whole) : Succeeds (ofDatum f d) := by
  match d, whole with
  | .atom _ (.number n), _ => exact .pure _
  | .atom _ (.string s), _ => exact .pure _
  | .atom _ (.boolean b), _ => exact .pure _
  | .atom span (.symbol identifier), _ => exact .pure _
  | .quoted _ (some d), .quoted whole =>
      refine (ofDatum_succeeds f d whole).bind fun l => ?_
      exact (succeeds_cons _ _).bind fun _ => succeeds_cons _ _
  | .list _ before none, .list whole _ => exact ofItems_succeeds f .null before whole
  | .list _ before (some after), .list whole wholeAfter =>
      refine (ofTail_succeeds f after (wholeAfter after rfl)).bind fun tail => ?_
      exact ofItems_succeeds f tail before whole

theorem ofTail_succeeds (f : FoldCase) (ds : List Datum) (whole : ∀ d ∈ ds, d.Whole) :
    Succeeds (ofTail f ds) := by
  match ds with
  | [] => exact .pure _
  | [d] => exact ofDatum_succeeds f d (whole d (by simp))
  | _ :: d :: ds => exact ofTail_succeeds f (d :: ds) (List.forall_mem_cons.1 whole).2

theorem ofItems_succeeds (f : FoldCase) (tail : Literal) (ds : List Datum)
    (whole : ∀ d ∈ ds, d.Whole) : Succeeds (ofItems f tail ds) := by
  match ds with
  | [] => exact .pure _
  | d :: ds =>
      obtain ⟨wholeFirst, wholeRest⟩ := List.forall_mem_cons.1 whole
      refine (ofItems_succeeds f tail ds wholeRest).bind fun cdr => ?_
      exact (ofDatum_succeeds f d wholeFirst).bind fun car => succeeds_cons _ _

end

end Literal

namespace Expr

variable {f : FoldCase} {ds : List Datum}

theorem bindable_eq {d : Datum} {name : String} (names : d.Names f name) (free : Unreserved name) :
    bindable f d = pure name := by
  cases names
  simp [bindable, isReserved_eq_false_iff.2 free]

theorem distinctNames_eq {names seen : List String} (binds : BindsNames f ds names)
    (apart : ∀ name ∈ names, name ∉ seen) : distinctNames f seen ds = pure names := by
  obtain ⟨each, nodup, free⟩ := binds
  induction each generalizing seen with
  | nil => rfl
  | @cons d name ds names first _ ih =>
      obtain ⟨new, nodup⟩ := List.nodup_cons.1 nodup
      obtain ⟨freeFirst, freeRest⟩ := List.forall_mem_cons.1 free
      obtain ⟨apartFirst, apartRest⟩ := List.forall_mem_cons.1 apart
      have apart' : ∀ other ∈ names, other ∉ name :: seen := by
        intro other member
        have differs : other ≠ name := fun same => new (same ▸ member)
        simp [differs, apartRest other member]
      simp [distinctNames, bindable_eq first freeFirst, apartFirst, ih apart' nodup freeRest]

theorem ofData_succeeds (each : ∀ d ∈ ds, Succeeds (ofDatum f d)) : Succeeds (ofData f ds) := by
  induction ds with
  | nil => exact .pure _
  | cons d ds ih =>
      obtain ⟨first, rest⟩ := List.forall_mem_cons.1 each
      exact first.bind fun e => (ih rest).bind fun es => .pure _

theorem ofBindings_succeeds {targets values : List Datum} (bindings : Bindings ds targets values)
    (each : ∀ d ∈ values, Succeeds (ofDatum f d)) :
    Succeeds (ofBindings f ds) ∧ bindingTargets ds = targets := by
  induction bindings with
  | nil => exact ⟨.pure _, rfl⟩
  | @cons _ target value ds targets values _ ih =>
      obtain ⟨first, rest⟩ := List.forall_mem_cons.1 each
      obtain ⟨succeeds, same⟩ := ih rest
      exact ⟨first.bind fun e => succeeds.bind fun es => .pure _, by rw [bindingTargets, same]⟩

end Expr

theorem exists_of_forall₂ {α β : Type} {R : α → β → Prop} {xs : List α} {ys : List β}
    (each : List.Forall₂ R xs ys) {x : α} (member : x ∈ xs) : ∃ y, R x y := by
  induction each with
  | nil => cases member
  | cons first _ ih =>
      rcases List.mem_cons.1 member with rfl | later
      · exact ⟨_, first⟩
      · exact ih later

theorem Datum.sizeOf_lt_of_mem {d : Datum} {ds : List Datum} (member : d ∈ ds) (span : Span) :
    sizeOf d < sizeOf (Datum.list span ds none) := by
  have smaller := List.sizeOf_lt_of_mem member
  simp only [Datum.list.sizeOf_spec]
  omega

namespace Datum.Bindings

variable {ds targets values : List Datum} {value : Datum} {span : Span}

theorem mem (bindings : Bindings ds targets values) (member : value ∈ values) :
    ∃ span target, .list span [target, value] none ∈ ds := by
  induction bindings with
  | nil => cases member
  | @cons span target _ _ _ _ _ ih =>
      rcases List.mem_cons.1 member with rfl | later
      · exact ⟨span, target, List.mem_cons_self⟩
      · obtain ⟨span', target', found⟩ := ih later
        exact ⟨span', target', List.mem_cons_of_mem _ found⟩

theorem whole (bindings : Bindings ds targets values) (whole : Whole (.list span ds none))
    (member : value ∈ values) : value.Whole := by
  obtain ⟨_, target, found⟩ := bindings.mem member
  cases whole with
  | list whole _ =>
      cases whole _ found with
      | list parts _ => exact parts value (by simp)

theorem sizeOf_lt (bindings : Bindings ds targets values) (member : value ∈ values) :
    sizeOf value < sizeOf ds := by
  obtain ⟨span, target, found⟩ := bindings.mem member
  have inside : sizeOf value < sizeOf (Datum.list span [target, value] none) :=
    sizeOf_lt_of_mem (by simp) span
  exact Nat.lt_trans inside (List.sizeOf_lt_of_mem found)

end Datum.Bindings

theorem Datum.Denotes.succeeds {f : FoldCase} {d : Datum} {e : Expr} (denotes : Denotes f d e)
    (whole : d.Whole) : Succeeds (Expr.ofDatum f d) := by
  match d, e, denotes, whole with
  | _, _, .number, _ => exact .pure _
  | _, _, .string, _ => exact .pure _
  | _, _, .boolean, _ => exact .pure _
  | _, _, .primitive names, _ =>
      generalize spelled : Primitive.name _ = name at names
      cases names
      simp only [Expr.ofDatum, Expr.ofName, Primitive.ofName?_eq_some_iff.2 spelled]
      exact .pure _
  | _, _, .ref names free, _ =>
      cases names
      simp only [Expr.ofDatum, Expr.ofName, Primitive.ofName?_eq_none_iff.2 free.primitive,
        Keyword.ofName?_eq_none_iff.2 free.keyword]
      exact .pure _
  | _, _, .quoted _, .quoted whole => exact (Literal.ofDatum_succeeds f _ whole).map
  | _, _, .quote isQuote _, .list whole _ =>
      simp only [Expr.ofDatum, ofItems?_eq_some_iff.2 isQuote]
      exact (Literal.ofDatum_succeeds f _ (whole _ (by simp))).map
  | _, _, .assign isSet names free denotes, .list whole _ =>
      simp only [Expr.ofDatum, ofItems?_eq_some_iff.2 isSet, Expr.bindable_eq names free, pure_bind]
      exact (denotes.succeeds (whole _ (by simp))).bind fun e => .pure _
  | _, _, .ifThen isIf denotes₁ denotes₂, .list whole _ =>
      simp only [Expr.ofDatum, ofItems?_eq_some_iff.2 isIf]
      refine (denotes₁.succeeds (whole _ (by simp))).bind fun e₁ => ?_
      exact (denotes₂.succeeds (whole _ (by simp))).bind fun e₂ => .pure _
  | _, _, .ifElse isIf denotes₁ denotes₂ denotes₃, .list whole _ =>
      simp only [Expr.ofDatum, ofItems?_eq_some_iff.2 isIf]
      refine (denotes₁.succeeds (whole _ (by simp))).bind fun e₁ => ?_
      refine (denotes₂.succeeds (whole _ (by simp))).bind fun e₂ => ?_
      exact (denotes₃.succeeds (whole _ (by simp))).bind fun e₃ => .pure _
  | _, _, .lambda isLambda binds denotesAll, .list whole _ =>
      simp only [Expr.ofDatum, ofItems?_eq_some_iff.2 isLambda,
        Expr.distinctNames_eq binds (fun _ _ => List.not_mem_nil), pure_bind]
      refine (Expr.ofData_succeeds fun d member => ?_).bind fun es => .pure _
      obtain ⟨e, denotes⟩ := exists_of_forall₂ denotesAll member
      exact denotes.succeeds (whole d (by simp [member]))
  | _, _, .letIn isLet bindings binds denotesValues denotesAll, .list whole _ =>
      have values := Expr.ofBindings_succeeds bindings fun d member => by
        obtain ⟨e, denotes⟩ := exists_of_forall₂ denotesValues member
        have smaller := bindings.sizeOf_lt member
        have wholeBindings := whole _ (List.mem_cons_of_mem _ List.mem_cons_self)
        exact denotes.succeeds (bindings.whole wholeBindings member)
      simp only [Expr.ofDatum, ofItems?_eq_some_iff.2 isLet, values.2]
      refine values.1.bind fun vs => ?_
      rw [Expr.distinctNames_eq binds (fun _ _ => List.not_mem_nil), pure_bind]
      refine (Expr.ofData_succeeds fun d member => ?_).bind fun es => .pure _
      obtain ⟨e, denotes⟩ := exists_of_forall₂ denotesAll member
      exact denotes.succeeds (whole d (by simp [member]))
  | _, _, .apply notKeyword denotes denotesAll, .list whole _ =>
      simp only [Expr.ofDatum, ofItems?_eq_none_iff.2 notKeyword]
      refine (denotes.succeeds (whole _ (by simp))).bind fun e => ?_
      refine (Expr.ofData_succeeds fun d member => ?_).bind fun es => .pure _
      obtain ⟨e, denotes⟩ := exists_of_forall₂ denotesAll member
      exact denotes.succeeds (whole d (by simp [member]))
termination_by sizeOf d
decreasing_by
  all_goals simp only [Datum.list.sizeOf_spec, List.cons.sizeOf_spec]
  all_goals first
    | omega
    | have smaller := List.sizeOf_lt_of_mem ‹_ ∈ _›
      omega

namespace Datum

variable {f : FoldCase} {span : Span} {before : List Datum} {after : Option (List Datum)} {e : Expr}

theorem Names.keyword_unique {head : Datum} {j k : Keyword} (first : head.Names f j.name)
    (second : head.Names f k.name) : j = k := by
  have same := Keyword.ofName?_name j
  rw [first.unique second, Keyword.ofName?_name] at same
  exact (Option.some.inj same).symm

theorem Denotes.not_define (denotes : Denotes f (.list span before after) e) :
    Keyword.ofItems? f (items before after) ≠ some .define := by
  intro isDefine
  cases denotes with
  | primitive names | ref names _ => cases names
  | quote other _ | assign other _ _ _ | ifThen other _ _ | ifElse other _ _ _ | lambda other _ _
  | letIn other _ _ _ _ => cases (ofItems?_eq_some_iff.1 isDefine).keyword_unique other
  | apply notKeyword _ _ => exact notKeyword _ (ofItems?_eq_some_iff.1 isDefine)

theorem Denotes.ofDatum_eq {d : Datum} (denotes : Denotes f d e) :
    Form.ofDatum f d = .expr <$> Expr.ofDatum f d := by
  cases d with
  | list span before after => simp [Form.ofDatum, denotes.not_define]
  | atom span a => rfl
  | quoted span d => rfl

end Datum

namespace Form

variable {f : FoldCase} {ds : List Datum}

theorem ofDatum_define (span : Span) {head : Datum} (rest : List Datum)
    (isDefine : head.Names f Keyword.define.name) :
    ofDatum f (.list span (head :: rest) none) = ofDefinition f span rest := by
  have found : Keyword.ofItems? f (items (head :: rest) none) = some .define :=
    ofItems?_eq_some_iff.2 isDefine
  simp [ofDatum, found]

/-- Defining a procedure is defining a variable whose value is a `lambda`. -/
theorem ofDatum_procedure {span span' inner inner' outer : Span} {head head' target lam : Datum}
    {params body : List Datum} {name : String} (isDefine : head.Names f Keyword.define.name)
    (isDefine' : head'.Names f Keyword.define.name) (isLambda : lam.Names f Keyword.lambda.name)
    (names : target.Names f name) :
    ofDatum f (.list span (head :: .list inner (target :: params) none :: body) none) =
      ofDatum f (.list span'
        [head', target, .list outer (lam :: .list inner' params none :: body) none] none) := by
  rw [ofDatum_define span _ isDefine, ofDatum_define span' _ isDefine']
  cases names
  simp [ofDefinition, Expr.ofDatum, ofItems?_eq_some_iff.2 isLambda]

theorem succeeds_of_denotes {d : Datum} {x : Form} (denotes : DenotesForm f d x) (whole : d.Whole) :
    Succeeds (ofDatum f d) := by
  cases denotes with
  | define isDefine names free denotes =>
      cases whole with
      | list whole _ =>
          rw [ofDatum_define _ _ isDefine]
          have value := denotes.succeeds (whole _ (by simp))
          cases names
          simp only [ofDefinition, Expr.bindable_eq (.symbol _ _) free, pure_bind]
          exact value.bind fun e => .pure _
  | procedure isDefine names free binds denotes =>
      cases whole with
      | list whole _ =>
          rw [ofDatum_define _ _ isDefine]
          simp only [ofDefinition, Expr.bindable_eq names free, pure_bind,
            Expr.distinctNames_eq binds (fun _ _ => List.not_mem_nil)]
          refine (Expr.ofData_succeeds fun d member => ?_).bind fun es => .pure _
          obtain ⟨e, denotes⟩ := exists_of_forall₂ denotes member
          exact denotes.succeeds (whole d (by simp [member]))
  | expr denotes =>
      rw [denotes.ofDatum_eq]
      exact (denotes.succeeds whole).map

theorem ofData_succeeds (each : ∀ d ∈ ds, Succeeds (ofDatum f d)) : Succeeds (ofData f ds) := by
  induction ds with
  | nil => exact .pure _
  | cons d ds ih =>
      obtain ⟨first, rest⟩ := List.forall_mem_cons.1 each
      exact first.bind fun x => (ih rest).bind fun xs => .pure _

end Form

/-! ## Sources -/

/-- If a source has no parse errors, its forms are built if and only if each of its data is a form by
the grammar, and what is built is one form for each datum, in order and of its shape.  A definition
of a procedure is built as the definition of a variable with a `lambda` is. -/
theorem forms_built_iff (source : String) (folds : Bool) (fresh : Identity)
    (ok : (parse source).isOk = true) :
    ((∃ xs next, (Form.ofTree folds (parse source).tree).run fresh = .ok (xs, next)) ↔
      ∀ d ∈ (parse source).tree.data,
        ∃ x, d.DenotesForm (FoldCase.ofTree folds (parse source).tree) x) ∧
    (∀ xs next, (Form.ofTree folds (parse source).tree).run fresh = .ok (xs, next) →
      List.Forall₂ (DenotesForm (FoldCase.ofTree folds (parse source).tree))
        (parse source).tree.data xs) ∧
    ∀ (f : FoldCase) (span span' inner inner' outer : Span) (head head' target lam : Datum)
      (params body : List Datum) (name : String), head.Names f Keyword.define.name →
      head'.Names f Keyword.define.name → lam.Names f Keyword.lambda.name → target.Names f name →
      (Form.ofDatum f
        (.list span (head :: .list inner (target :: params) none :: body) none)).run fresh =
      (Form.ofDatum f (.list span'
        [head', target, .list outer (lam :: .list inner' params none :: body) none] none)).run
          fresh := by
  have sound := Form.ofData_denotes (FoldCase.ofTree folds (parse source).tree)
    (parse source).tree.data fresh
  refine ⟨⟨?_, fun each => ?_⟩, fun xs next built => (sound xs next built).2, ?_⟩
  · rintro ⟨xs, next, built⟩ d member
    exact exists_of_forall₂ (sound xs next built).2 member
  · obtain ⟨ds, derives⟩ := derives_of_isOk ok
    rw [← derives.parse.2] at derives
    refine Form.ofData_succeeds (fun d member => ?_) fresh
    obtain ⟨x, denotes⟩ := each d member
    exact Form.succeeds_of_denotes denotes (derives.whole d member)
  · intro f span span' inner inner' outer head head' target lam params body name isDefine isDefine'
      isLambda names
    rw [Form.ofDatum_procedure isDefine isDefine' isLambda names]

-- Identifiers fold case, so that `IF` is a keyword and `X` the parameter.
theorem forms_built_iff_procedure :
    (parse "(define (f x) (IF X '(y . 1)))").isOk = true ∧
      ∃ xs next, (Form.ofTree true (parse "(define (f x) (IF X '(y . 1)))").tree).run 0 =
        .ok (xs, next) ∧
      List.Forall₂ (DenotesForm (FoldCase.ofTree true (parse "(define (f x) (IF X '(y . 1)))").tree))
        (parse "(define (f x) (IF X '(y . 1)))").tree.data xs := by
  have ok : (parse "(define (f x) (IF X '(y . 1)))").isOk = true := by decide +kernel
  have built : ((Form.ofTree true (parse "(define (f x) (IF X '(y . 1)))").tree).run 0).isOk = true := by
    decide +kernel
  rcases run : (Form.ofTree true (parse "(define (f x) (IF X '(y . 1)))").tree).run 0 with e | ⟨xs, next⟩
  · rw [run] at built
    cases built
  · exact ⟨ok, xs, next, rfl, (forms_built_iff _ true 0 ok).2.1 _ _ run⟩

end StoreScheme
