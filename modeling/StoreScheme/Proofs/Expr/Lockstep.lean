import StoreScheme.Proofs.Datum.Alike
import StoreScheme.Proofs.Expr.Denotes

/-!
# Building in lockstep

From data that are alike the same expressions are built, up to the identities of quoted pairs, or both
fail in the same way at places that are related.

* `Expr.erase`, `Form.erase`: expressions and forms with all identities set aside
* `Build.Alike`: the same results or the same errors
* `FoldCase.Agree`: case is folded at both of two places that are related, or at neither
* `Expr.ofDatum_alike`, `Form.ofData_alike`: what is built from data that are alike
-/

namespace StoreScheme

namespace Expr

mutual

def erase : Expr → Expr
  | .literal l => .literal l.erase
  | .ifElse test consequent none => .ifElse test.erase consequent.erase none
  | .ifElse test consequent (some alternative) =>
    .ifElse test.erase consequent.erase (some alternative.erase)
  | .lambda params body => .lambda params (eraseAll body)
  | .letIn names values body => .letIn names (eraseAll values) (eraseAll body)
  | .apply operator operands => .apply operator.erase (eraseAll operands)
  | .assign name value => .assign name value.erase
  | e => e

def eraseAll : List Expr → List Expr
  | [] => []
  | e :: es => e.erase :: eraseAll es

end

end Expr

def Form.erase : Form → Form
  | .define name value => .define name value.erase
  | .expr e => .expr e.erase

/-! ## Two results -/

/-- Results that are related, or errors of the same kind at places that are. -/
inductive Built (R : Span → Span → Prop) {α : Type} (Q : α → α → Prop) :
    Except SyntaxError (α × Identity) → Except SyntaxError (α × Identity) → Prop
  | ok {a b : α} {next next' : Identity} : Q a b → Built R Q (.ok (a, next)) (.ok (b, next'))
  | error {e e' : SyntaxError} : R e.span e'.span → e.kind = e'.kind → Built R Q (.error e) (.error e')

namespace Build

/-- Whatever identities are free on either side. -/
def Alike (R : Span → Span → Prop) {α : Type} (Q : α → α → Prop) (x y : Build α) : Prop :=
  ∀ fresh fresh', Built R Q (x.run fresh) (y.run fresh')

variable {R : Span → Span → Prop} {α β : Type} {P : β → β → Prop} {Q : α → α → Prop}

theorem Alike.pure {a b : α} (related : Q a b) : Alike R Q (Pure.pure a : Build α) (Pure.pure b) :=
  fun _ _ => .ok related

theorem Alike.fail {span span' : Span} (related : R span span') (kind : SyntaxErrorKind) :
    Alike R Q (Build.fail span kind) (Build.fail span' kind) :=
  fun _ _ => .error related rfl

theorem Alike.bind {x y : Build α} {f g : α → Build β} (first : Alike R Q x y)
    (next : ∀ a b, Q a b → Alike R P (f a) (g b)) : Alike R P (x >>= f) (y >>= g) := by
  intro fresh fresh'
  rw [StateT.run_bind, StateT.run_bind]
  have built := first fresh fresh'
  generalize x.run fresh = r at built
  generalize y.run fresh' = s at built
  cases built with
  | ok related => exact next _ _ related _ _
  | error related kind => exact .error related kind

theorem Alike.map {x y : Build α} {f g : α → β} (first : Alike R Q x y)
    (related : ∀ a b, Q a b → P (f a) (g b)) : Alike R P (f <$> x) (g <$> y) := by
  rw [map_eq_pure_bind, map_eq_pure_bind]
  exact first.bind fun a b q => .pure (related a b q)

theorem cons_alike {car car' cdr cdr' : Literal} (first : car.erase = car'.erase)
    (rest : cdr.erase = cdr'.erase) :
    Alike R (fun l l' => l.erase = l'.erase) (Build.cons car cdr) (Build.cons car' cdr') := by
  intro fresh fresh'
  exact .ok (by simp only [Literal.erase, first, rest])

end Build

/-! ## Names -/

def FoldCase.Agree (R : Span → Span → Prop) (f g : FoldCase) : Prop :=
  ∀ a b : Span, R a b → f.foldsAt a.start = g.foldsAt b.start

open Build

section
variable {R : Span → Span → Prop} {f g : FoldCase} {d d' : Datum} {ds ds' : List Datum}

theorem FoldCase.Agree.name {span span' : Span} (agree : FoldCase.Agree R f g) (related : R span span')
    (identifier : String) : f.name span identifier = g.name span' identifier := by
  rw [FoldCase.name, FoldCase.name, agree span span' related]

theorem Keyword.ofItems?_alike (agree : FoldCase.Agree R f g) (alike : List.Forall₂ (Datum.Alike R) ds ds') :
    Keyword.ofItems? f ds = Keyword.ofItems? g ds' := by
  cases alike with
  | nil => rfl
  | cons first _ =>
      cases first with
      | @atom span span' a related =>
          cases a with
          | symbol identifier => exact congrArg Keyword.ofName? (agree.name related identifier)
          | number _ | string _ | boolean _ => rfl
      | list _ _ | dotted _ _ _ | dangling _ | quoted _ _ => rfl

theorem bindable_alike (agree : FoldCase.Agree R f g) (alike : d.Alike R d') :
    Build.Alike R Eq (bindable f d) (bindable g d') := by
  cases alike with
  | @atom span span' a related =>
      cases a with
      | symbol identifier =>
          simp only [bindable, agree.name related identifier]
          split
          · exact .fail related _
          · exact .pure rfl
      | number _ | string _ | boolean _ => exact .fail related _
  | list related _ | dotted related _ _ | dangling related | quoted related _ => exact .fail related _

theorem distinctNames_alike (agree : FoldCase.Agree R f g) (seen : List String)
    (alike : List.Forall₂ (Datum.Alike R) ds ds') :
    Build.Alike R Eq (distinctNames f seen ds) (distinctNames g seen ds') := by
  induction alike generalizing seen with
  | nil => exact .pure rfl
  | cons first _ ih =>
      refine (bindable_alike agree first).bind ?_
      rintro name _ rfl
      split
      · exact .fail first.span _
      · refine (ih (name :: seen)).bind ?_
        rintro names _ rfl
        exact .pure rfl

end

/-! ## Quoted data -/

section
variable {R : Span → Span → Prop} {f g : FoldCase}

namespace Literal

mutual

theorem ofDatum_alike (agree : FoldCase.Agree R f g) (d d' : Datum) (alike : d.Alike R d') :
    Build.Alike R (fun l l' => l.erase = l'.erase) (ofDatum f d) (ofDatum g d') := by
  match d, d', alike with
  | .atom _ (.number n), _, .atom _ => exact .pure rfl
  | .atom _ (.string s), _, .atom _ => exact .pure rfl
  | .atom _ (.boolean b), _, .atom _ => exact .pure rfl
  | .atom _ (.symbol identifier), _, .atom related =>
      exact .pure (congrArg Literal.symbol (agree.name related identifier))
  | .quoted _ none, _, .dangling related => exact .fail related _
  | .quoted _ (some d), .quoted _ (some d'), .quoted _ inner =>
      refine (ofDatum_alike agree d d' inner).bind fun l l' same => ?_
      exact (cons_alike same rfl).bind fun _ _ same' => cons_alike rfl same'
  | .list _ items none, .list _ items' none, .list _ alike =>
      exact ofItems_alike agree rfl items items' alike
  | .list _ items (some after), .list _ items' (some after'), .dotted _ alike tail =>
      refine (ofTail_alike agree after after' tail).bind fun l l' same => ?_
      exact ofItems_alike agree same items items' alike

theorem ofTail_alike (agree : FoldCase.Agree R f g) (ds ds' : List Datum)
    (alike : List.Forall₂ (Datum.Alike R) ds ds') :
    Build.Alike R (fun l l' => l.erase = l'.erase) (ofTail f ds) (ofTail g ds') := by
  match ds, ds', alike with
  | [], _, .nil => exact .pure rfl
  | [d], [d'], .cons first .nil => exact ofDatum_alike agree d d' first
  | _ :: d :: ds, _ :: d' :: ds', .cons _ rest => exact ofTail_alike agree (d :: ds) (d' :: ds') rest

theorem ofItems_alike (agree : FoldCase.Agree R f g) {tail tail' : Literal}
    (same : tail.erase = tail'.erase) (ds ds' : List Datum)
    (alike : List.Forall₂ (Datum.Alike R) ds ds') :
    Build.Alike R (fun l l' => l.erase = l'.erase) (ofItems f tail ds) (ofItems g tail' ds') := by
  match ds, ds', alike with
  | [], _, .nil => exact .pure same
  | d :: ds, d' :: ds', .cons first rest =>
      refine (ofItems_alike agree same ds ds' rest).bind fun cdr cdr' sameCdr => ?_
      exact (ofDatum_alike agree d d' first).bind fun car car' sameCar => cons_alike sameCar sameCdr

end

end Literal

/-! ## Expressions -/

namespace Expr

theorem ofName_alike {span span' : Span} (related : R span span') (name : String) :
    Build.Alike R (fun e e' => e.erase = e'.erase) (ofName span name) (ofName span' name) := by
  unfold ofName
  split
  · exact .pure rfl
  · exact .fail related _
  · exact .pure rfl

theorem bindingTargets_alike {ds ds' : List Datum} (alike : List.Forall₂ (Datum.Alike R) ds ds') :
    List.Forall₂ (Datum.Alike R) (bindingTargets ds) (bindingTargets ds') := by
  match ds, ds', alike with
  | [], _, .nil => exact .nil
  | .list _ [_, _] none :: ds, .list _ [_, _] none :: ds',
      .cons (.list _ (.cons target (.cons _ .nil))) rest => exact .cons target (bindingTargets_alike rest)
  | .atom _ _ :: _, _, .cons (.atom _) _ => exact .nil
  | .quoted _ none :: _, _, .cons (.dangling _) _ => exact .nil
  | .quoted _ (some _) :: _, _, .cons (.quoted _ _) _ => exact .nil
  | .list _ [] none :: _, _, .cons (.list _ .nil) _ => exact .nil
  | .list _ [_] none :: _, _, .cons (.list _ (.cons _ .nil)) _ => exact .nil
  | .list _ (_ :: _ :: _ :: _) none :: _, _, .cons (.list _ (.cons _ (.cons _ (.cons _ _)))) _ => exact .nil
  | .list _ [] (some _) :: _, _, .cons (.dotted _ .nil _) _ => exact .nil
  | .list _ [_] (some _) :: _, _, .cons (.dotted _ (.cons _ .nil) _) _ => exact .nil
  | .list _ [_, _] (some _) :: _, _, .cons (.dotted _ (.cons _ (.cons _ .nil)) _) _ => exact .nil
  | .list _ (_ :: _ :: _ :: _) (some _) :: _, _, .cons (.dotted _ (.cons _ (.cons _ (.cons _ _))) _) _ =>
      exact .nil

mutual

theorem ofDatum_alike (agree : FoldCase.Agree R f g) (d d' : Datum) (alike : d.Alike R d') :
    Build.Alike R (fun e e' => e.erase = e'.erase) (ofDatum f d) (ofDatum g d') := by
  match d, d', alike with
  | .atom _ (.number n), _, .atom _ => exact .pure rfl
  | .atom _ (.string s), _, .atom _ => exact .pure rfl
  | .atom _ (.boolean b), _, .atom _ => exact .pure rfl
  | .atom _ (.symbol identifier), .atom span' _, .atom related =>
      rw [ofDatum, ofDatum, agree.name related]
      exact ofName_alike related _
  | .quoted _ none, _, .dangling related => exact .fail related _
  | .quoted _ (some d), .quoted _ (some d'), .quoted _ inner =>
      exact (Literal.ofDatum_alike agree d d' inner).map fun l l' same => by simp only [erase, same]
  | .list _ items (some after), .list _ items' (some after'), .dotted related alike tail =>
      have same : Keyword.ofItems? f (Datum.items items (some after)) =
          Keyword.ofItems? g (Datum.items items' (some after')) :=
        Keyword.ofItems?_alike agree (List.rel_append alike tail)
      rw [ofDatum, ofDatum, same]
      by_cases isQuote : Keyword.ofItems? g (Datum.items items' (some after')) = some .quote
      · rw [if_pos isQuote, if_pos isQuote]
        exact .fail related _
      · rw [if_neg isQuote, if_neg isQuote]
        exact .fail related _
  | .list _ [] none, _, .list related .nil => exact .fail related _
  | .list _ (head :: rest) none, .list _ (head' :: rest') none, .list related (.cons first others) =>
      have same := Keyword.ofItems?_alike agree (.cons first .nil)
      unfold ofDatum
      rw [same]
      generalize Keyword.ofItems? g [head'] = keyword
      match keyword, rest, rest', others with
      | none, operands, operands', others =>
          refine (ofDatum_alike agree head head' first).bind fun e e' sameOperator => ?_
          refine (ofData_alike agree operands operands' others).bind fun es es' sameOperands => .pure ?_
          simp only [erase, sameOperator, sameOperands]
      | some .quote, [], _, .nil => exact .fail related _
      | some .quote, [d], [d'], .cons datum .nil =>
          exact (Literal.ofDatum_alike agree d d' datum).map fun l l' same => by simp only [erase, same]
      | some .quote, _ :: _ :: _, _ :: _ :: _, .cons _ (.cons _ _) => exact .fail related _
      | some .define, _, _, _ => exact .fail related _
      | some .set, [], _, .nil => exact .fail related _
      | some .set, [_], _, .cons _ .nil => exact .fail related _
      | some .set, [target, value], [target', value'], .cons name (.cons rhs .nil) =>
          refine (bindable_alike agree name).bind ?_
          rintro name _ rfl
          refine (ofDatum_alike agree value value' rhs).bind fun e e' same => .pure ?_
          simp only [erase, same]
      | some .set, _ :: _ :: _ :: _, _, .cons _ (.cons _ (.cons _ _)) => exact .fail related _
      | some .ifElse, [], _, .nil => exact .fail related _
      | some .ifElse, [_], _, .cons _ .nil => exact .fail related _
      | some .ifElse, [test, consequent], [test', consequent'], .cons first (.cons second .nil) =>
          refine (ofDatum_alike agree test test' first).bind fun e₁ e₁' same₁ => ?_
          refine (ofDatum_alike agree consequent consequent' second).bind fun e₂ e₂' same₂ => .pure ?_
          simp only [erase, same₁, same₂]
      | some .ifElse, [test, consequent, alternative], [test', consequent', alternative'],
          .cons first (.cons second (.cons third .nil)) =>
          refine (ofDatum_alike agree test test' first).bind fun e₁ e₁' same₁ => ?_
          refine (ofDatum_alike agree consequent consequent' second).bind fun e₂ e₂' same₂ => ?_
          refine (ofDatum_alike agree alternative alternative' third).bind fun e₃ e₃' same₃ => .pure ?_
          simp only [erase, same₁, same₂, same₃]
      | some .ifElse, _ :: _ :: _ :: _ :: _, _, .cons _ (.cons _ (.cons _ (.cons _ _))) =>
          exact .fail related _
      | some .lambda, .list _ params none :: body, .list _ params' none :: body', .cons (.list _ names) rest =>
          refine (distinctNames_alike agree [] names).bind ?_
          rintro names _ rfl
          refine (ofData_alike agree body body' rest).bind fun es es' same => .pure ?_
          simp only [erase, same]
      | some .lambda, [], _, .nil => exact .fail related _
      | some .lambda, .atom _ _ :: _, _, .cons (.atom _) _ => exact .fail related _
      | some .lambda, .list _ _ (some _) :: _, _, .cons (.dotted _ _ _) _ => exact .fail related _
      | some .lambda, .quoted _ none :: _, _, .cons (.dangling _) _ => exact .fail related _
      | some .lambda, .quoted _ (some _) :: _, _, .cons (.quoted _ _) _ => exact .fail related _
      | some .letIn, .list _ bindings none :: body, .list _ bindings' none :: body',
          .cons (.list _ pairs) rest =>
          refine (ofBindings_alike agree bindings bindings' pairs).bind fun vs vs' sameValues => ?_
          refine (distinctNames_alike agree [] (bindingTargets_alike pairs)).bind ?_
          rintro names _ rfl
          refine (ofData_alike agree body body' rest).bind fun es es' same => .pure ?_
          simp only [erase, sameValues, same]
      | some .letIn, [], _, .nil => exact .fail related _
      | some .letIn, .atom _ _ :: _, _, .cons (.atom _) _ => exact .fail related _
      | some .letIn, .list _ _ (some _) :: _, _, .cons (.dotted _ _ _) _ => exact .fail related _
      | some .letIn, .quoted _ none :: _, _, .cons (.dangling _) _ => exact .fail related _
      | some .letIn, .quoted _ (some _) :: _, _, .cons (.quoted _ _) _ => exact .fail related _

theorem ofData_alike (agree : FoldCase.Agree R f g) (ds ds' : List Datum)
    (alike : List.Forall₂ (Datum.Alike R) ds ds') :
    Build.Alike R (fun es es' => eraseAll es = eraseAll es') (ofData f ds) (ofData g ds') := by
  match ds, ds', alike with
  | [], _, .nil => exact .pure rfl
  | d :: ds, d' :: ds', .cons first rest =>
      refine (ofDatum_alike agree d d' first).bind fun e e' same => ?_
      refine (ofData_alike agree ds ds' rest).bind fun es es' same' => .pure ?_
      simp only [eraseAll, same, same']

theorem ofBindings_alike (agree : FoldCase.Agree R f g) (ds ds' : List Datum)
    (alike : List.Forall₂ (Datum.Alike R) ds ds') :
    Build.Alike R (fun es es' => eraseAll es = eraseAll es') (ofBindings f ds) (ofBindings g ds') := by
  match ds, ds', alike with
  | [], _, .nil => exact .pure rfl
  | .list _ [_, value] none :: ds, .list _ [_, value'] none :: ds',
      .cons (.list _ (.cons _ (.cons rhs .nil))) rest =>
      refine (ofDatum_alike agree value value' rhs).bind fun e e' same => ?_
      refine (ofBindings_alike agree ds ds' rest).bind fun es es' same' => .pure ?_
      simp only [eraseAll, same, same']
  | .atom _ _ :: _, _, .cons (.atom related) _ => exact .fail related _
  | .quoted _ none :: _, _, .cons (.dangling related) _ => exact .fail related _
  | .quoted _ (some _) :: _, _, .cons (.quoted related _) _ => exact .fail related _
  | .list _ [] none :: _, _, .cons (.list related .nil) _ => exact .fail related _
  | .list _ [_] none :: _, _, .cons (.list related (.cons _ .nil)) _ => exact .fail related _
  | .list _ (_ :: _ :: _ :: _) none :: _, _, .cons (.list related (.cons _ (.cons _ (.cons _ _)))) _ =>
      exact .fail related _
  | .list _ [] (some _) :: _, _, .cons (.dotted related .nil _) _ => exact .fail related _
  | .list _ [_] (some _) :: _, _, .cons (.dotted related (.cons _ .nil) _) _ => exact .fail related _
  | .list _ [_, _] (some _) :: _, _, .cons (.dotted related (.cons _ (.cons _ .nil)) _) _ =>
      exact .fail related _
  | .list _ (_ :: _ :: _ :: _) (some _) :: _, _,
      .cons (.dotted related (.cons _ (.cons _ (.cons _ _))) _) _ => exact .fail related _

end

end Expr

/-! ## Forms -/

namespace Form

theorem ofDefinition_alike (agree : FoldCase.Agree R f g) {span span' : Span} (related : R span span')
    {ds ds' : List Datum} (alike : List.Forall₂ (Datum.Alike R) ds ds') :
    Build.Alike R (fun x y => x.erase = y.erase) (ofDefinition f span ds) (ofDefinition g span' ds') := by
  cases alike with
  | nil => exact .fail related _
  | @cons d d' body body' first rest =>
      have target := first
      cases first with
      | dotted place _ _ => exact .fail place _
      | list _ names =>
          cases names with
          | nil => exact .fail related _
          | cons name params =>
              refine (bindable_alike agree name).bind ?_
              rintro name _ rfl
              refine (distinctNames_alike agree [] params).bind ?_
              rintro params _ rfl
              refine (Expr.ofData_alike agree body body' rest).bind fun es es' same => .pure ?_
              simp only [erase, Expr.erase, same]
      | atom _ | dangling _ | quoted _ _ =>
          match body, body', rest with
          | [], _, .nil => exact .fail related _
          | [value], [value'], .cons rhs .nil =>
              refine (bindable_alike agree target).bind ?_
              rintro name _ rfl
              refine (Expr.ofDatum_alike agree value value' rhs).bind fun e e' same => .pure ?_
              simp only [erase, same]
          | _ :: _ :: _, _, .cons _ (.cons _ _) => exact .fail related _

theorem ofDatum_alike (agree : FoldCase.Agree R f g) {d d' : Datum} (alike : d.Alike R d') :
    Build.Alike R (fun x y => x.erase = y.erase) (ofDatum f d) (ofDatum g d') := by
  have expr : Build.Alike R (fun x y => x.erase = y.erase) (Form.expr <$> Expr.ofDatum f d)
      (Form.expr <$> Expr.ofDatum g d') :=
    (Expr.ofDatum_alike agree d d' alike).map fun e e' same => by simp only [erase, same]
  cases alike with
  | atom _ | dangling _ | quoted _ _ => exact expr
  | @list _ _ items items' related alike =>
      have same : Keyword.ofItems? f (Datum.items items none) =
          Keyword.ofItems? g (Datum.items items' none) :=
        Keyword.ofItems?_alike agree (List.rel_append alike .nil)
      simp only [ofDatum, same]
      by_cases isDefine : Keyword.ofItems? g (Datum.items items' none) = some .define
      · rw [if_pos isDefine, if_pos isDefine]
        exact ofDefinition_alike agree related (by simpa using List.forall₂_drop 1 alike)
      · rw [if_neg isDefine, if_neg isDefine]
        exact expr
  | @dotted _ _ items items' after after' related alike tail =>
      have same : Keyword.ofItems? f (Datum.items items (some after)) =
          Keyword.ofItems? g (Datum.items items' (some after')) :=
        Keyword.ofItems?_alike agree (List.rel_append alike tail)
      simp only [ofDatum, same]
      by_cases isDefine : Keyword.ofItems? g (Datum.items items' (some after')) = some .define
      · rw [if_pos isDefine, if_pos isDefine]
        exact .fail related _
      · rw [if_neg isDefine, if_neg isDefine]
        exact expr

theorem ofData_alike (agree : FoldCase.Agree R f g) {ds ds' : List Datum}
    (alike : List.Forall₂ (Datum.Alike R) ds ds') :
    Build.Alike R (fun xs ys => xs.map erase = ys.map erase) (ofData f ds) (ofData g ds') := by
  induction alike with
  | nil => exact .pure rfl
  | cons first _ ih =>
      refine (ofDatum_alike agree first).bind fun x y same => ?_
      refine ih.bind fun xs ys same' => .pure ?_
      simp only [List.map_cons, same, same']

theorem ofData_append (f : FoldCase) (ds es : List Datum) :
    ofData f (ds ++ es) = do
      let xs ← ofData f ds
      let ys ← ofData f es
      return xs ++ ys := by
  induction ds with
  | nil => simp [ofData]
  | cons d ds ih => simp [ofData, ih]

end Form

end

end StoreScheme
