import Mathlib.Data.List.Forall2
import StoreScheme.Proofs.Expr.Reserved
import StoreScheme.Proofs.Expr.WellFormed

/-!
# What data denote

Which data are expressions and forms, and of which shape.  Whatever is built from a datum is what the
datum denotes.

* `Datum.Names`, `Datum.BindsNames`: identifiers, and those bound together
* `Datum.literal`: what a quoted datum stands for, identities set aside
* `Datum.Denotes`, `Datum.DenotesForm`: the grammar of expressions and of forms
* `Expr.ofDatum_denotes`, `Form.ofData_denotes`: what is built
-/

namespace StoreScheme

/-- The same data with all identities set aside. -/
def Literal.erase : Literal → Literal
  | .pair _ car cdr => .pair 0 car.erase cdr.erase
  | l => l

namespace Datum

/-! ## The grammar -/

/-- A datum is an identifier that stands for a name. -/
inductive Names (f : FoldCase) : Datum → String → Prop
  | symbol (span : Span) (identifier : String) :
    Names f (.atom span (.symbol identifier)) (f.name span identifier)

structure BindsNames (f : FoldCase) (ds : List Datum) (names : List String) : Prop where
  each : List.Forall₂ (Names f) ds names
  nodup : names.Nodup
  free : ∀ name ∈ names, Unreserved name

/-- Lists of a target and a value each, as in a `let`. -/
inductive Bindings : List Datum → (targets values : List Datum) → Prop
  | nil : Bindings [] [] []
  | cons {span : Span} {target value : Datum} {ds targets values : List Datum} :
    Bindings ds targets values →
    Bindings (.list span [target, value] none :: ds) (target :: targets) (value :: values)

mutual

def literal (f : FoldCase) : Datum → Literal
  | .atom _ (.number n) => .number n
  | .atom _ (.string s) => .string s
  | .atom _ (.boolean b) => .boolean b
  | .atom span (.symbol identifier) => .symbol (f.name span identifier)
  | .quoted _ none => .null
  | .quoted _ (some d) => .pair 0 (.symbol Keyword.quote.name) (.pair 0 (literal f d) .null)
  | .list _ before none => literalItems f .null before
  | .list _ before (some after) => literalItems f (literalTail f after) before

def literalTail (f : FoldCase) : List Datum → Literal
  | [] => .null
  | [d] => literal f d
  | _ :: ds => literalTail f ds

def literalItems (f : FoldCase) (tail : Literal) : List Datum → Literal
  | [] => tail
  | d :: ds => .pair 0 (literal f d) (literalItems f tail ds)

end

/-- A datum is an expression.  Outside of quoted data no list has a dot. -/
inductive Denotes (f : FoldCase) : Datum → Expr → Prop
  | number {span : Span} {n : Number} : Denotes f (.atom span (.number n)) (.number n)
  | string {span : Span} {s : String} : Denotes f (.atom span (.string s)) (.string s)
  | boolean {span : Span} {b : Bool} : Denotes f (.atom span (.boolean b)) (.boolean b)
  | primitive {d : Datum} {p : Primitive} : d.Names f p.name → Denotes f d (.primitive p)
  | ref {d : Datum} {name : String} : d.Names f name → Unreserved name → Denotes f d (.ref name)
  | quoted {span : Span} {d : Datum} {l : Literal} : l.erase = d.literal f →
    Denotes f (.quoted span (some d)) (.literal l)
  | quote {span : Span} {head d : Datum} {l : Literal} : head.Names f Keyword.quote.name →
    l.erase = d.literal f → Denotes f (.list span [head, d] none) (.literal l)
  | assign {span : Span} {head target value : Datum} {name : String} {e : Expr} :
    head.Names f Keyword.set.name → target.Names f name → Unreserved name → Denotes f value e →
    Denotes f (.list span [head, target, value] none) (.assign name e)
  | ifThen {span : Span} {head test consequent : Datum} {e₁ e₂ : Expr} :
    head.Names f Keyword.ifElse.name → Denotes f test e₁ → Denotes f consequent e₂ →
    Denotes f (.list span [head, test, consequent] none) (.ifElse e₁ e₂ none)
  | ifElse {span : Span} {head test consequent alternative : Datum} {e₁ e₂ e₃ : Expr} :
    head.Names f Keyword.ifElse.name → Denotes f test e₁ → Denotes f consequent e₂ →
    Denotes f alternative e₃ →
    Denotes f (.list span [head, test, consequent, alternative] none) (.ifElse e₁ e₂ (some e₃))
  | lambda {span inner : Span} {head : Datum} {params body : List Datum} {names : List String}
      {es : List Expr} :
    head.Names f Keyword.lambda.name → BindsNames f params names →
    List.Forall₂ (Denotes f) body es →
    Denotes f (.list span (head :: .list inner params none :: body) none) (.lambda names es)
  | letIn {span inner : Span} {head : Datum} {bindings targets values body : List Datum}
      {names : List String} {vs es : List Expr} :
    head.Names f Keyword.letIn.name → Bindings bindings targets values →
    BindsNames f targets names → List.Forall₂ (Denotes f) values vs →
    List.Forall₂ (Denotes f) body es →
    Denotes f (.list span (head :: .list inner bindings none :: body) none) (.letIn names vs es)
  | apply {span : Span} {operator : Datum} {operands : List Datum} {e : Expr} {es : List Expr} :
    (∀ k : Keyword, ¬ operator.Names f k.name) → Denotes f operator e →
    List.Forall₂ (Denotes f) operands es →
    Denotes f (.list span (operator :: operands) none) (.apply e es)

/-- A datum is a form: a definition of a variable or of a procedure, or an expression. -/
inductive DenotesForm (f : FoldCase) : Datum → Form → Prop
  | define {span : Span} {head target value : Datum} {name : String} {e : Expr} :
    head.Names f Keyword.define.name → target.Names f name → Unreserved name →
    Denotes f value e → DenotesForm f (.list span [head, target, value] none) (.define name e)
  | procedure {span inner : Span} {head target : Datum} {params body : List Datum} {name : String}
      {names : List String} {es : List Expr} :
    head.Names f Keyword.define.name → target.Names f name → Unreserved name →
    BindsNames f params names → List.Forall₂ (Denotes f) body es →
    DenotesForm f (.list span (head :: .list inner (target :: params) none :: body) none)
      (.define name (.lambda names es))
  | expr {d : Datum} {e : Expr} : Denotes f d e → DenotesForm f d (.expr e)

/-! ## Names -/

variable {f : FoldCase} {d head : Datum} {rest : List Datum} {name : String} {k : Keyword}

theorem Names.unique {name' : String} (names : d.Names f name) (names' : d.Names f name') :
    name = name' := by
  cases names
  cases names'
  rfl

theorem ofItems?_eq_some_iff : Keyword.ofItems? f (head :: rest) = some k ↔ head.Names f k.name := by
  constructor
  · intro found
    unfold Keyword.ofItems? at found
    split at found
    · rename_i same
      cases same
      rw [Keyword.ofName?_eq_some_iff.1 found]
      exact .symbol _ _
    · cases found
  · intro names
    generalize spelled : k.name = name at names
    cases names
    exact Keyword.ofName?_eq_some_iff.2 spelled

theorem ofItems?_eq_none_iff :
    Keyword.ofItems? f (head :: rest) = none ↔ ∀ k : Keyword, ¬ head.Names f k.name := by
  rw [Option.eq_none_iff_forall_ne_some]
  exact forall_congr' fun k => not_congr ofItems?_eq_some_iff

end Datum

/-! ## What is built -/

open Build Datum

theorem Build.Yields.and {α : Type} {P Q : α → Prop} {x : Build α} (first : Yields P x)
    (second : Yields Q x) : Yields (fun a => P a ∧ Q a) x := by
  intro id a next run
  exact ⟨(first id a next run).1, (first id a next run).2, (second id a next run).2⟩

theorem Build.cons_erase {car cdr : Literal} {l : Literal} (same : .pair 0 car.erase cdr.erase = l) :
    Yields (fun a => a.erase = l) (Build.cons car cdr) := by
  rintro id _ _ ⟨⟩
  exact ⟨Nat.le_succ id, same⟩

theorem bindable_names (f : FoldCase) (d : Datum) :
    Yields (fun name => d.Names f name ∧ Unreserved name) (bindable f d) := by
  unfold bindable
  split
  · dsimp only
    split
    · exact .fail _ _
    · rename_i free
      exact .pure ⟨.symbol _ _, isReserved_eq_false_iff.1 (by simpa using free)⟩
  · exact .fail _ _

theorem distinctNames_each (f : FoldCase) (seen : List String) (ds : List Datum) :
    Yields (List.Forall₂ (Names f) ds) (distinctNames f seen ds) := by
  induction ds generalizing seen with
  | nil => exact .pure .nil
  | cons d ds ih =>
      refine (bindable_names f d).bind fun name ⟨names, _⟩ => ?_
      split
      · exact .fail _ _
      · exact (ih _).bind fun rest each => .pure (.cons names each)

theorem distinctNames_binds (f : FoldCase) (ds : List Datum) :
    Yields (BindsNames f ds) (distinctNames f [] ds) := by
  refine ((distinctNames_each f [] ds).and (distinctNames_yields f [] ds)).imp ?_
  intro names ⟨each, bindable, _, _⟩
  exact ⟨each, bindable.nodup, fun name member => isReserved_eq_false_iff.1 (bindable.free name member)⟩

namespace Literal

mutual

theorem ofDatum_literal (f : FoldCase) (d : Datum) :
    Yields (fun l => l.erase = d.literal f) (ofDatum f d) := by
  match d with
  | .atom _ (.number n) => exact .pure rfl
  | .atom _ (.string s) => exact .pure rfl
  | .atom _ (.boolean b) => exact .pure rfl
  | .atom span (.symbol identifier) => exact .pure rfl
  | .quoted span none => exact .fail _ _
  | .quoted _ (some d) =>
      refine (ofDatum_literal f d).bind fun l same => ?_
      refine (cons_erase (l := .pair 0 (d.literal f) .null) ?_).bind fun rest same' => ?_
      · rw [same]
        rfl
      · exact cons_erase (by rw [same']; rfl)
  | .list _ before none => exact ofItems_literal f .null before
  | .list _ before (some after) =>
      refine (ofTail_literal f after).bind fun tail same => ?_
      rw [literal, ← same]
      exact ofItems_literal f tail before

theorem ofTail_literal (f : FoldCase) (ds : List Datum) :
    Yields (fun l => l.erase = literalTail f ds) (ofTail f ds) := by
  match ds with
  | [] => exact .pure rfl
  | [d] => exact ofDatum_literal f d
  | _ :: d :: ds => exact ofTail_literal f (d :: ds)

theorem ofItems_literal (f : FoldCase) (tail : Literal) (ds : List Datum) :
    Yields (fun l => l.erase = literalItems f tail.erase ds) (ofItems f tail ds) := by
  match ds with
  | [] => exact .pure rfl
  | d :: ds =>
      refine (ofItems_literal f tail ds).bind fun cdr sameCdr => ?_
      refine (ofDatum_literal f d).bind fun car sameCar => ?_
      exact cons_erase (by rw [sameCar, sameCdr, literalItems])

end

end Literal

namespace Expr

theorem ofName_denotes (f : FoldCase) (span : Span) (identifier : String) :
    Yields (Denotes f (.atom span (.symbol identifier))) (ofName span (f.name span identifier)) := by
  have names : Names f (.atom span (.symbol identifier)) (f.name span identifier) := .symbol _ _
  unfold ofName
  split
  · rename_i p found
    rw [← Primitive.ofName?_eq_some_iff.1 found] at names
    exact .pure (.primitive names)
  · exact .fail _ _
  · rename_i noPrimitive noKeyword
    have free : Unreserved (f.name span identifier) :=
      ⟨Primitive.ofName?_eq_none_iff.1 noPrimitive, Keyword.ofName?_eq_none_iff.1 noKeyword⟩
    exact .pure (.ref names free)

mutual

theorem ofDatum_denotes (f : FoldCase) (d : Datum) : Yields (Denotes f d) (ofDatum f d) := by
  match d with
  | .atom _ (.number n) => exact .pure .number
  | .atom _ (.string s) => exact .pure .string
  | .atom _ (.boolean b) => exact .pure .boolean
  | .atom span (.symbol identifier) => exact ofName_denotes f span identifier
  | .quoted span none => exact .fail _ _
  | .quoted _ (some d) => exact .map ((Literal.ofDatum_literal f d).imp fun l => .quoted)
  | .list span before (some after) =>
      unfold ofDatum
      split
      · exact .fail _ _
      · exact .fail _ _
  | .list span [] none => exact .fail _ _
  | .list span (head :: rest) none =>
      unfold ofDatum
      split
      · rename_i noKeyword
        refine (ofDatum_denotes f head).bind fun operator denotes => ?_
        refine (ofData_denotes f _).bind fun operands denotesAll => ?_
        exact .pure (.apply (ofItems?_eq_none_iff.1 noKeyword) denotes denotesAll)
      · rename_i d isQuote
        refine .map ((Literal.ofDatum_literal f d).imp fun l => ?_)
        exact .quote (ofItems?_eq_some_iff.1 isQuote)
      · exact .fail _ _
      · rename_i target value isSet
        refine (bindable_names f target).bind fun name ⟨names, free⟩ => ?_
        refine (ofDatum_denotes f value).bind fun e denotes => ?_
        exact .pure (.assign (ofItems?_eq_some_iff.1 isSet) names free denotes)
      · rename_i test consequent isIf
        refine (ofDatum_denotes f test).bind fun e₁ denotes₁ => ?_
        refine (ofDatum_denotes f consequent).bind fun e₂ denotes₂ => ?_
        exact .pure (.ifThen (ofItems?_eq_some_iff.1 isIf) denotes₁ denotes₂)
      · rename_i test consequent alternative isIf
        refine (ofDatum_denotes f test).bind fun e₁ denotes₁ => ?_
        refine (ofDatum_denotes f consequent).bind fun e₂ denotes₂ => ?_
        refine (ofDatum_denotes f alternative).bind fun e₃ denotes₃ => ?_
        exact .pure (.ifElse (ofItems?_eq_some_iff.1 isIf) denotes₁ denotes₂ denotes₃)
      · rename_i inner params body isLambda
        refine (distinctNames_binds f params).bind fun names binds => ?_
        refine (ofData_denotes f body).bind fun es denotes => ?_
        exact .pure (.lambda (ofItems?_eq_some_iff.1 isLambda) binds denotes)
      · rename_i inner bindings body isLet
        refine (ofBindings_denotes f bindings).bind fun vs ⟨values, shape, denotesValues⟩ => ?_
        refine (distinctNames_binds f _).bind fun names binds => ?_
        refine (ofData_denotes f body).bind fun es denotes => ?_
        exact .pure (.letIn (ofItems?_eq_some_iff.1 isLet) shape binds denotesValues denotes)
      · exact .fail _ _

theorem ofData_denotes (f : FoldCase) (ds : List Datum) :
    Yields (List.Forall₂ (Denotes f) ds) (ofData f ds) := by
  match ds with
  | [] => exact .pure .nil
  | d :: ds =>
      refine (ofDatum_denotes f d).bind fun e denotes => ?_
      exact (ofData_denotes f ds).bind fun es denotesAll => .pure (.cons denotes denotesAll)

theorem ofBindings_denotes (f : FoldCase) (ds : List Datum) :
    Yields (fun vs => ∃ values, Bindings ds (bindingTargets ds) values ∧
      List.Forall₂ (Denotes f) values vs) (ofBindings f ds) := by
  match ds with
  | [] => exact .pure ⟨[], .nil, .nil⟩
  | .list _ [target, value] none :: ds =>
      refine (ofDatum_denotes f value).bind fun e denotes => ?_
      refine (ofBindings_denotes f ds).bind fun es ⟨values, shape, denotesAll⟩ => .pure ?_
      exact ⟨value :: values, .cons shape, .cons denotes denotesAll⟩
  | .atom _ _ :: _ => exact .fail _ _
  | .quoted _ _ :: _ => exact .fail _ _
  | .list _ [] _ :: _ => exact .fail _ _
  | .list _ [_] _ :: _ => exact .fail _ _
  | .list _ [_, _] (some _) :: _ => exact .fail _ _
  | .list _ (_ :: _ :: _ :: _) _ :: _ => exact .fail _ _

end

end Expr

namespace Form

theorem ofDefinition_denotes (f : FoldCase) (span : Span) {head : Datum} (rest : List Datum)
    (isDefine : head.Names f Keyword.define.name) :
    Yields (DenotesForm f (.list span (head :: rest) none)) (ofDefinition f span rest) := by
  unfold ofDefinition
  split
  · exact .fail _ _
  · exact .fail _ _
  · rename_i target params body
    refine (bindable_names f target).bind fun name ⟨names, free⟩ => ?_
    refine (distinctNames_binds f params).bind fun params binds => ?_
    refine (Expr.ofData_denotes f body).bind fun es denotes => ?_
    exact .pure (.procedure isDefine names free binds denotes)
  · rename_i target value _ _ _
    refine (bindable_names f target).bind fun name ⟨names, free⟩ => ?_
    refine (Expr.ofDatum_denotes f value).bind fun e denotes => ?_
    exact .pure (.define isDefine names free denotes)
  · exact .fail _ _

theorem ofDatum_denotes (f : FoldCase) (d : Datum) : Yields (DenotesForm f d) (ofDatum f d) := by
  have asExpr : Yields (DenotesForm f d) (.expr <$> Expr.ofDatum f d) :=
    .map ((Expr.ofDatum_denotes f d).imp fun _ => .expr)
  unfold ofDatum
  split
  · rename_i span before after
    split
    · rename_i isDefine
      split
      · exact .fail _ _
      · cases before with
        | nil => cases isDefine
        | cons head rest =>
            exact ofDefinition_denotes f span rest (ofItems?_eq_some_iff.1 isDefine)
    · exact asExpr
  · exact asExpr

theorem ofData_denotes (f : FoldCase) (ds : List Datum) :
    Yields (List.Forall₂ (DenotesForm f) ds) (ofData f ds) := by
  induction ds with
  | nil => exact .pure .nil
  | cons d ds ih =>
      refine (ofDatum_denotes f d).bind fun x denotes => ?_
      exact ih.bind fun xs denotesAll => .pure (.cons denotes denotesAll)

end Form

end StoreScheme
