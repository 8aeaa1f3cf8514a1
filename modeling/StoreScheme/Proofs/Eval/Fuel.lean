import StoreScheme.Eval

/-!
# Fuel

What ends with some fuel ends in the same way with more of it.  One level of evaluation passes this
on from what is below, so it holds at every depth.

* `Outcome.Approximates`: the second outcome is the first one, unless that ran out of fuel
* `step_approximates`: one level of evaluation over two evaluators
* `eval_approximates`: evaluation with less and with more fuel
-/

namespace StoreScheme

/-- The second outcome is the first, unless the first one ran out of fuel. -/
def Outcome.Approximates {α : Type} (o o' : Outcome α) : Prop := o = .outOfFuel ∨ o' = o

def Eval.Approximates {α : Type} (x y : Eval α) : Prop := ∀ m, (x m).Approximates (y m)

def Eval.Evaluator.Approximates (ev ev' : Eval.Evaluator) : Prop :=
  ∀ e env, Eval.Approximates (ev e env) (ev' e env)

namespace Eval

section
variable {α β : Type} {x y : Eval α} {f g : α → Eval β}

theorem Approximates.refl (x : Eval α) : Approximates x x := fun _ => .inr rfl

theorem Approximates.bind (first : Approximates x y) (next : ∀ a, Approximates (f a) (g a)) :
    Approximates (x >>= f) (y >>= g) := by
  intro m
  change (Eval.bind x f m).Approximates (Eval.bind y g m)
  unfold Eval.bind
  rcases first m with out | same
  · exact .inl (by rw [out])
  · rw [same]
    cases x m with
    | value a n => exact next a n
    | error e n => exact .inr rfl
    | outOfFuel => exact .inl rfl

end

variable {ev ev' : Evaluator}

theorem all_approximates (below : ev.Approximates ev') (env : Env) (es : List Expr) :
    Approximates (all ev env es) (all ev' env es) := by
  induction es with
  | nil => exact .refl _
  | cons e es ih => exact (below e env).bind fun v => ih.bind fun vs => .refl _

theorem body_approximates (below : ev.Approximates ev') (env : Env) (es : List Expr) :
    Approximates (body ev env es) (body ev' env es) := by
  induction es with
  | nil => exact .refl _
  | cons e es ih =>
      cases es with
      | nil => exact below e env
      | cons e' es => exact (below e env).bind fun _ => ih

theorem bodyWith_approximates (below : ev.Approximates ev') (env : Env) (names : List String)
    (es : List Expr) (vs : List Value) :
    Approximates (bodyWith ev env names es vs) (bodyWith ev' env names es vs) :=
  (Approximates.refl _).bind fun _ => body_approximates below _ es

theorem apply_approximates (below : ev.Approximates ev') (procedure : Value) (args : List Value) :
    Approximates (apply ev procedure args) (apply ev' procedure args) := by
  cases procedure with
  | closure id params es env =>
      simp only [apply]
      split
      · exact bodyWith_approximates below env params es args
      · exact .refl _
  | _ => exact .refl _

theorem step_approximates (below : ev.Approximates ev') : Evaluator.Approximates (step ev) (step ev') := by
  intro e env
  cases e with
  | ifElse test consequent alternative =>
      refine (below test env).bind fun v => ?_
      split
      · exact below consequent env
      · cases alternative with
        | some e => exact below e env
        | none => exact .refl _
  | letIn names values es =>
      exact (all_approximates below env values).bind fun vs => bodyWith_approximates below env names es vs
  | apply operator operands =>
      refine (below operator env).bind fun procedure => ?_
      exact (all_approximates below env operands).bind fun args => apply_approximates below procedure args
  | assign name value => exact (below value env).bind fun v => .refl _
  | number _ | boolean _ | string _ | literal _ | primitive _ | ref _ | lambda _ _ => exact .refl _

end Eval

theorem eval_approximates (fuel extra : Nat) :
    Eval.Evaluator.Approximates (eval fuel) (eval (fuel + extra)) := by
  induction fuel with
  | zero => exact fun _ _ _ => .inl rfl
  | succ fuel ih =>
      rw [Nat.add_right_comm]
      exact Eval.step_approximates ih

end StoreScheme
