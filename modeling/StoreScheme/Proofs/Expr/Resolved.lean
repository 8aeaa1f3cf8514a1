import StoreScheme.Expr.OfDatum

/-!
# Names resolved in advance

Building folds the case of symbols one by one where it comes across them.  It builds the same if every
symbol is replaced in advance by the name that it stands for at its place, and then no case is folded at
all: there is no place where a symbol is used without being folded as its place says, and none where it
is folded twice.

* `Datum.resolve`: every symbol replaced by its name
* `Literal.ofDatum_resolve`, `Expr.ofDatum_resolve`, `Form.ofData_resolve`: what is built
-/

namespace StoreScheme

/-! ## Data -/

def Atom.resolve (folds : Bool) : Atom → Atom
  | .symbol identifier => .symbol (if folds then CaseFold.fold identifier else identifier)
  | a => a

namespace Datum

mutual

/-- A datum with its symbols folded at the places where this is asked for. -/
def resolve (folds : Nat → Bool) : Datum → Datum
  | .atom span a => .atom span (a.resolve (folds span.start))
  | .list span before after => .list span (resolveAll folds before) (resolveAfter folds after)
  | .quoted span d => .quoted span (resolveQuoted folds d)

def resolveAll (folds : Nat → Bool) : List Datum → List Datum
  | [] => []
  | d :: ds => d.resolve folds :: resolveAll folds ds

def resolveAfter (folds : Nat → Bool) : Option (List Datum) → Option (List Datum)
  | none => none
  | some ds => some (resolveAll folds ds)

def resolveQuoted (folds : Nat → Bool) : Option Datum → Option Datum
  | none => none
  | some d => some (d.resolve folds)

end

theorem span_resolve (folds : Nat → Bool) (d : Datum) : (d.resolve folds).span = d.span := by
  cases d <;> rfl

theorem items_resolve (folds : Nat → Bool) (before : List Datum) (after : Option (List Datum)) :
    items (resolveAll folds before) (resolveAfter folds after) = resolveAll folds (items before after) := by
  induction before with
  | nil =>
      cases after with
      | none => rfl
      | some ds => rfl
  | cons d ds ih => exact congrArg (d.resolve folds :: ·) ih

theorem tail_resolveAll (folds : Nat → Bool) (ds : List Datum) :
    (resolveAll folds ds).tail = resolveAll folds ds.tail := by
  cases ds <;> rfl

end Datum

open Datum (resolve resolveAll resolveAfter resolveQuoted)

/-! ## Names -/

theorem Keyword.ofItems?_resolve (f : FoldCase) (ds : List Datum) :
    Keyword.ofItems? (.uniform false) (resolveAll f.foldsAt ds) = Keyword.ofItems? f ds := by
  match ds with
  | [] => rfl
  | .atom _ a :: _ => cases a <;> rfl
  | .list _ _ _ :: _ | .quoted _ _ :: _ => rfl

theorem bindable_resolve (f : FoldCase) (d : Datum) :
    bindable (.uniform false) (d.resolve f.foldsAt) = bindable f d := by
  cases d with
  | atom _ a => cases a <;> rfl
  | list _ _ _ | quoted _ _ => rfl

theorem distinctNames_resolve (f : FoldCase) (seen : List String) (ds : List Datum) :
    distinctNames (.uniform false) seen (resolveAll f.foldsAt ds) = distinctNames f seen ds := by
  induction ds generalizing seen with
  | nil => rfl
  | cons d ds ih => simp only [resolveAll, distinctNames, bindable_resolve, Datum.span_resolve, ih]

/-! ## Quoted data -/

namespace Literal

mutual

theorem ofDatum_resolve (f : FoldCase) (d : Datum) :
    ofDatum (.uniform false) (d.resolve f.foldsAt) = ofDatum f d := by
  match d with
  | .atom _ a => cases a <;> rfl
  | .quoted _ none => rfl
  | .quoted _ (some d) => simp only [resolve, resolveQuoted, ofDatum, ofDatum_resolve f d]
  | .list _ before none => simp only [resolve, resolveAfter, ofDatum, ofItems_resolve f .null before]
  | .list _ before (some after) =>
      simp only [resolve, resolveAfter, ofDatum, ofTail_resolve f after, ofItems_resolve f _ before]

theorem ofTail_resolve (f : FoldCase) (ds : List Datum) :
    ofTail (.uniform false) (resolveAll f.foldsAt ds) = ofTail f ds := by
  match ds with
  | [] => rfl
  | [d] => simp only [resolveAll, ofTail, ofDatum_resolve f d]
  | _ :: d :: ds =>
      have rest := ofTail_resolve f (d :: ds)
      simp only [resolveAll] at rest
      simp only [resolveAll, ofTail, rest]

theorem ofItems_resolve (f : FoldCase) (tail : Literal) (ds : List Datum) :
    ofItems (.uniform false) tail (resolveAll f.foldsAt ds) = ofItems f tail ds := by
  match ds with
  | [] => rfl
  | d :: ds => simp only [resolveAll, ofItems, ofItems_resolve f tail ds, ofDatum_resolve f d]

end

end Literal

/-! ## Expressions -/

namespace Expr

theorem bindingTargets_resolve (folds : Nat → Bool) (ds : List Datum) :
    bindingTargets (resolveAll folds ds) = resolveAll folds (bindingTargets ds) := by
  match ds with
  | [] => rfl
  | .list _ [target, value] none :: ds =>
      simp only [resolveAll, resolve, resolveAfter, bindingTargets, bindingTargets_resolve folds ds]
  | .atom _ _ :: _ | .quoted _ _ :: _ => rfl
  | .list _ [] _ :: _ | .list _ [_] _ :: _ | .list _ (_ :: _ :: _ :: _) _ :: _ => rfl
  | .list _ [_, _] (some _) :: _ => rfl

mutual

theorem ofDatum_resolve (f : FoldCase) (d : Datum) :
    ofDatum (.uniform false) (d.resolve f.foldsAt) = ofDatum f d := by
  match d with
  | .atom _ a => cases a <;> rfl
  | .quoted _ none => rfl
  | .quoted _ (some d) => simp only [resolve, resolveQuoted, ofDatum, Literal.ofDatum_resolve f d]
  | .list _ before (some after) =>
      have keyword := Keyword.ofItems?_resolve f (Datum.items before (some after))
      rw [← Datum.items_resolve, resolveAfter] at keyword
      rw [resolve, resolveAfter, ofDatum, ofDatum, keyword]
  | .list _ [] none => rfl
  | .list _ (head :: rest) none =>
      have keyword := Keyword.ofItems?_resolve f [head]
      simp only [resolveAll] at keyword
      simp only [resolve, resolveAll, resolveAfter]
      unfold ofDatum
      rw [keyword]
      generalize Keyword.ofItems? f [head] = keyword
      -- Both sides only reduce once `rest` has the shape that the special form asks for.
      match keyword, rest with
      | none, operands => simp only [ofDatum_resolve f head, ofData_resolve f operands]
      | some .quote, [d] => simp only [resolveAll, Literal.ofDatum_resolve f d]
      | some .quote, [] | some .quote, _ :: _ :: _ => rfl
      | some .define, _ => rfl
      | some .set, [target, value] => simp only [resolveAll, bindable_resolve, ofDatum_resolve f value]
      | some .set, [] | some .set, [_] | some .set, _ :: _ :: _ :: _ => rfl
      | some .ifElse, [test, consequent] =>
          simp only [resolveAll, ofDatum_resolve f test, ofDatum_resolve f consequent]
      | some .ifElse, [test, consequent, alternative] =>
          simp only [resolveAll, ofDatum_resolve f test, ofDatum_resolve f consequent,
            ofDatum_resolve f alternative]
      | some .ifElse, [] | some .ifElse, [_] | some .ifElse, _ :: _ :: _ :: _ :: _ => rfl
      | some .lambda, .list _ params none :: body =>
          simp only [resolveAll, resolve, resolveAfter, distinctNames_resolve, ofData_resolve f body]
      | some .lambda, [] | some .lambda, .list _ _ (some _) :: _ => rfl
      | some .lambda, .atom _ _ :: _ | some .lambda, .quoted _ _ :: _ => rfl
      | some .letIn, .list _ bindings none :: body =>
          simp only [resolveAll, resolve, resolveAfter, bindingTargets_resolve, distinctNames_resolve,
            ofBindings_resolve f bindings, ofData_resolve f body]
      | some .letIn, [] | some .letIn, .list _ _ (some _) :: _ => rfl
      | some .letIn, .atom _ _ :: _ | some .letIn, .quoted _ _ :: _ => rfl

theorem ofData_resolve (f : FoldCase) (ds : List Datum) :
    ofData (.uniform false) (resolveAll f.foldsAt ds) = ofData f ds := by
  match ds with
  | [] => rfl
  | d :: ds => simp only [resolveAll, ofData, ofDatum_resolve f d, ofData_resolve f ds]

theorem ofBindings_resolve (f : FoldCase) (ds : List Datum) :
    ofBindings (.uniform false) (resolveAll f.foldsAt ds) = ofBindings f ds := by
  match ds with
  | [] => rfl
  | .list _ [_, value] none :: ds =>
      simp only [resolveAll, resolve, resolveAfter, ofBindings, ofDatum_resolve f value,
        ofBindings_resolve f ds]
  | .atom _ _ :: _ | .quoted _ _ :: _ => rfl
  | .list _ [] _ :: _ | .list _ [_] _ :: _ | .list _ (_ :: _ :: _ :: _) _ :: _ => rfl
  | .list _ [_, _] (some _) :: _ => rfl

end

end Expr

/-! ## Forms -/

namespace Form

theorem ofDefinition_resolve (f : FoldCase) (span : Span) (ds : List Datum) :
    ofDefinition (.uniform false) span (resolveAll f.foldsAt ds) = ofDefinition f span ds := by
  match ds with
  | [] => rfl
  | .list _ (target :: params) none :: body =>
      simp only [resolveAll, resolve, resolveAfter, ofDefinition, bindable_resolve, distinctNames_resolve,
        Expr.ofData_resolve]
  | .list _ [] none :: _ | .list _ _ (some _) :: _ => rfl
  | [.atom span a, value] =>
      have name := bindable_resolve f (.atom span a)
      simp only [resolve] at name
      simp only [resolveAll, resolve, ofDefinition, name, Expr.ofDatum_resolve]
  | [.quoted span d, value] =>
      have name := bindable_resolve f (.quoted span d)
      simp only [resolve] at name
      simp only [resolveAll, resolve, ofDefinition, name, Expr.ofDatum_resolve]
  | [.atom _ _] | [.quoted _ _] | .atom _ _ :: _ :: _ :: _ | .quoted _ _ :: _ :: _ :: _ => rfl

theorem ofDatum_resolve (f : FoldCase) (d : Datum) :
    ofDatum (.uniform false) (d.resolve f.foldsAt) = ofDatum f d := by
  have expr := Expr.ofDatum_resolve f d
  cases d with
  | atom _ _ | quoted _ _ => exact congrArg (Form.expr <$> ·) expr
  | list span before after =>
      have keyword := Keyword.ofItems?_resolve f (Datum.items before after)
      rw [← Datum.items_resolve] at keyword
      rw [resolve] at expr ⊢
      unfold ofDatum
      dsimp only
      rw [keyword, expr]
      cases after with
      | some after => rfl
      | none => rw [resolveAfter, Datum.tail_resolveAll, ofDefinition_resolve]

theorem ofData_resolve (f : FoldCase) (ds : List Datum) :
    ofData (.uniform false) (resolveAll f.foldsAt ds) = ofData f ds := by
  induction ds with
  | nil => rfl
  | cons d ds ih => simp only [resolveAll, ofData, ofDatum_resolve, ih]

end Form

end StoreScheme
