import StoreScheme.Expr

/-!
# Other names

An expression with other names for its variables, at the places that bind them and at those that
mention them.  Quoted symbols are data and stay as they are.

* `Expr.rename`, `Form.rename`: every variable under its new name
* `Expr.names`, `Form.names`: all variables of an expression or a form
* `Expr.rename_congr`: only the new names of variables that occur matter
* `Expr.rename_rename`: a renaming that can be undone
-/

namespace StoreScheme

/-- New names for variables. -/
abbrev Renaming := String → String

namespace Expr

mutual

def rename (ρ : Renaming) : Expr → Expr
  | .ref name => .ref (ρ name)
  | .ifElse test consequent none => .ifElse (test.rename ρ) (consequent.rename ρ) none
  | .ifElse test consequent (some alternative) =>
    .ifElse (test.rename ρ) (consequent.rename ρ) (some (alternative.rename ρ))
  | .lambda params body => .lambda (params.map ρ) (renameAll ρ body)
  | .letIn names values body => .letIn (names.map ρ) (renameAll ρ values) (renameAll ρ body)
  | .apply operator operands => .apply (operator.rename ρ) (renameAll ρ operands)
  | .assign name value => .assign (ρ name) (value.rename ρ)
  | e => e

def renameAll (ρ : Renaming) : List Expr → List Expr
  | [] => []
  | e :: es => e.rename ρ :: renameAll ρ es

end

mutual

def names : Expr → List String
  | .ref name => [name]
  | .ifElse test consequent none => test.names ++ consequent.names
  | .ifElse test consequent (some alternative) => test.names ++ consequent.names ++ alternative.names
  | .lambda params body => params ++ allNames body
  | .letIn names values body => names ++ allNames values ++ allNames body
  | .apply operator operands => operator.names ++ allNames operands
  | .assign name value => name :: value.names
  | _ => []

def allNames : List Expr → List String
  | [] => []
  | e :: es => e.names ++ allNames es

end

/-! ## Two renamings -/

section
variable {ρ σ : Renaming}

mutual

theorem rename_congr {e : Expr} (agree : ∀ name ∈ e.names, ρ name = σ name) :
    e.rename ρ = e.rename σ := by
  match e with
  | .number _ | .boolean _ | .string _ | .literal _ | .primitive _ => rfl
  | .ref name => simp only [rename, agree name (by simp [names])]
  | .ifElse test consequent none =>
      simp only [names, List.forall_mem_append] at agree
      simp only [rename, rename_congr agree.1, rename_congr agree.2]
  | .ifElse test consequent (some alternative) =>
      simp only [names, List.forall_mem_append] at agree
      simp only [rename, rename_congr agree.1.1, rename_congr agree.1.2, rename_congr agree.2]
  | .lambda params body =>
      simp only [names, List.forall_mem_append] at agree
      simp only [rename, List.map_congr_left agree.1, renameAll_congr agree.2]
  | .letIn names values body =>
      simp only [Expr.names, List.forall_mem_append] at agree
      simp only [rename, List.map_congr_left agree.1.1, renameAll_congr agree.1.2,
        renameAll_congr agree.2]
  | .apply operator operands =>
      simp only [names, List.forall_mem_append] at agree
      simp only [rename, rename_congr agree.1, renameAll_congr agree.2]
  | .assign name value =>
      simp only [names, List.forall_mem_cons] at agree
      simp only [rename, agree.1, rename_congr agree.2]

theorem renameAll_congr {es : List Expr} (agree : ∀ name ∈ allNames es, ρ name = σ name) :
    renameAll ρ es = renameAll σ es := by
  match es with
  | [] => rfl
  | e :: es =>
      simp only [allNames, List.forall_mem_append] at agree
      simp only [renameAll, rename_congr agree.1, renameAll_congr agree.2]

end

mutual

theorem rename_rename (back : Function.LeftInverse σ ρ) (e : Expr) : (e.rename ρ).rename σ = e := by
  have map_map (names : List String) : (names.map ρ).map σ = names := by
    simp [Function.comp_def, back _]
  match e with
  | .number _ | .boolean _ | .string _ | .literal _ | .primitive _ => rfl
  | .ref name => simp only [rename, back name]
  | .ifElse test consequent none =>
      simp only [rename, rename_rename back test, rename_rename back consequent]
  | .ifElse test consequent (some alternative) =>
      simp only [rename, rename_rename back test, rename_rename back consequent,
        rename_rename back alternative]
  | .lambda params body => simp only [rename, map_map, renameAll_renameAll back body]
  | .letIn names values body =>
      simp only [rename, map_map, renameAll_renameAll back values, renameAll_renameAll back body]
  | .apply operator operands =>
      simp only [rename, rename_rename back operator, renameAll_renameAll back operands]
  | .assign name value => simp only [rename, back name, rename_rename back value]

theorem renameAll_renameAll (back : Function.LeftInverse σ ρ) (es : List Expr) :
    renameAll σ (renameAll ρ es) = es := by
  match es with
  | [] => rfl
  | e :: es => simp only [renameAll, rename_rename back e, renameAll_renameAll back es]

end

end

end Expr

/-! ## Forms -/

namespace Form

def rename (ρ : Renaming) : Form → Form
  | .define name value => .define (ρ name) (value.rename ρ)
  | .expr e => .expr (e.rename ρ)

def names : Form → List String
  | .define name value => name :: value.names
  | .expr e => e.names

variable {ρ σ : Renaming}

theorem rename_congr {x : Form} (agree : ∀ name ∈ x.names, ρ name = σ name) :
    x.rename ρ = x.rename σ := by
  cases x with
  | define name value =>
      simp only [names, List.forall_mem_cons] at agree
      simp only [rename, agree.1, Expr.rename_congr agree.2]
  | expr e => simp only [rename, Expr.rename_congr agree]

theorem rename_rename (back : Function.LeftInverse σ ρ) (x : Form) : (x.rename ρ).rename σ = x := by
  cases x with
  | define name value => simp only [rename, back name, Expr.rename_rename back value]
  | expr e => simp only [rename, Expr.rename_rename back e]

end Form

end StoreScheme
