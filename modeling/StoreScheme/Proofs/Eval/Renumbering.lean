import StoreScheme.Proofs.Store.Cells
import StoreScheme.Proofs.Value.Identities
import StoreScheme.Proofs.Value.Translation

/-!
# Evaluation with other identities

Identities are compared and given out, and nothing else is done with them.  So if different identities
stay different and those still to come are given out one after the other, an evaluation with other
identities goes the same way and ends with the renumbered outcome.

* `Renumbering`: other identities
* `Expr.renumber`, `Value.renumber`, `Memory.renumber`, `Outcome.renumber`: what has them
* `Value.renumber_eq_self`: nothing changes where all identities keep their number
* `Eval.Renumbered`: a computation that does with other identities what another one does
* `eval_renumbered`: evaluation is such a computation
-/

namespace StoreScheme

structure Renumbering where
  identity : Identity → Identity
  injective : Function.Injective identity
  /-- From here on identities are still to be given out. -/
  first : Identity
  next : ∀ i ≥ first, identity (i + 1) = identity i + 1

/-! ## What has identities -/

def Literal.renumber (π : Renumbering) : Literal → Literal
  | .pair id car cdr => .pair (π.identity id) (car.renumber π) (cdr.renumber π)
  | l => l

namespace Expr

mutual

def renumber (π : Renumbering) : Expr → Expr
  | .literal l => .literal (l.renumber π)
  | .ifElse test consequent none => .ifElse (test.renumber π) (consequent.renumber π) none
  | .ifElse test consequent (some alternative) =>
    .ifElse (test.renumber π) (consequent.renumber π) (some (alternative.renumber π))
  | .lambda params body => .lambda params (renumberAll π body)
  | .letIn names values body => .letIn names (renumberAll π values) (renumberAll π body)
  | .apply operator operands => .apply (operator.renumber π) (renumberAll π operands)
  | .assign name value => .assign name (value.renumber π)
  | e => e

def renumberAll (π : Renumbering) : List Expr → List Expr
  | [] => []
  | e :: es => e.renumber π :: renumberAll π es

end

end Expr

def Renumbering.translation (π : Renumbering) : Translation := ⟨π.identity, id, Expr.renumberAll π, id⟩

def Value.renumber (π : Renumbering) (v : Value) : Value := v.translate π.translation

def EvalError.renumber (π : Renumbering) : EvalError → EvalError
  | .badProcedure v => .badProcedure (v.renumber π)
  | .primitive e => .primitive (e.translate π.translation)
  | e => e

/-- The supply goes on with the new number of the next free identity. -/
def Memory.renumber (π : Renumbering) (m : Memory) : Memory where
  store := m.store.map (Value.renumber π)
  globals := m.globals
  fresh := π.identity m.fresh

/-- An outcome with other identities, given what becomes of a result. -/
def Outcome.renumber {α : Type} (π : Renumbering) (f : α → α) : Outcome α → Outcome α
  | .value a m => .value (f a) (m.renumber π)
  | .error e m => .error (e.renumber π) (m.renumber π)
  | .outOfFuel => .outOfFuel

theorem Value.renumber_ofLiteral (π : Renumbering) (l : Literal) :
    (Value.ofLiteral l).renumber π = .ofLiteral (l.renumber π) := by
  induction l with
  | pair id car cdr ihCar ihCdr => exact congrArg₂ (Value.pair (π.identity id)) ihCar ihCdr
  | number _ | boolean _ | string _ | symbol _ | null => rfl

/-! ## Identities that keep their number -/

section
variable {π : Renumbering}

theorem Literal.renumber_eq_self {l : Literal} (fixed : l.Each fun id _ => π.identity id = id) :
    l.renumber π = l := by
  induction l with
  | pair id car cdr ihCar ihCdr => simp only [renumber, fixed.1, ihCar fixed.2.1, ihCdr fixed.2.2]
  | number _ | boolean _ | string _ | symbol _ | null => rfl

theorem Expr.renumberAll_eq_self {es : List Expr} (fixed : ∀ e ∈ es, e.renumber π = e) :
    renumberAll π es = es := by
  induction es with
  | nil => rfl
  | cons e es ih =>
      obtain ⟨first, rest⟩ := List.forall_mem_cons.1 fixed
      rw [renumberAll, first, ih rest]

theorem Expr.renumber_eq_self {e : Expr} (fixed : e.Each fun id _ => π.identity id = id) :
    e.renumber π = e := by
  induction fixed with
  | number _ | boolean _ | string _ | primitive _ | ref _ => rfl
  | literal fixed => rw [renumber, Literal.renumber_eq_self fixed]
  | @ifElse _ _ alternative _ _ _ test consequent ihAlternative =>
      cases alternative with
      | none => rw [renumber, test, consequent]
      | some e => rw [renumber, test, consequent, ihAlternative e rfl]
  | lambda _ body => rw [renumber, renumberAll_eq_self body]
  | letIn _ _ values body => rw [renumber, renumberAll_eq_self values, renumberAll_eq_self body]
  | apply _ _ operator operands => rw [renumber, operator, renumberAll_eq_self operands]
  | assign _ value => rw [renumber, value]

theorem Value.renumber_eq_self {v : Value} (fixed : v.Each fun id _ => π.identity id = id) :
    v.renumber π = v := by
  induction v with
  | pair id car cdr ihCar ihCdr =>
      show Value.pair (π.identity id) (car.renumber π) (cdr.renumber π) = _
      rw [fixed.1, ihCar fixed.2.1, ihCdr fixed.2.2]
  | closure id params body env =>
      show Value.closure (π.identity id) params (Expr.renumberAll π body) env = _
      rw [fixed.1, Expr.renumberAll_eq_self fun e member => Expr.renumber_eq_self (fixed.2 e member)]
  | void | number _ | boolean _ | string _ | symbol _ | null | primitive _ => rfl

end

/-! ## Computations -/

namespace Eval

/-- The second computation does with other identities what the first one does.  It has to start when
only identities that are still free are given out, and it ends like that. -/
def Renumbered {α : Type} (π : Renumbering) (f : α → α) (x y : Eval α) : Prop :=
  ∀ m, π.first ≤ m.fresh → y (m.renumber π) = (x m).renumber π f ∧
    match x m with
    | .value _ n | .error _ n => π.first ≤ n.fresh
    | .outOfFuel => True

variable {π : Renumbering}

section
variable {α β : Type} {f : α → α} {g : β → β}

theorem renumbered_pure {a b : α} (result : b = f a) :
    Renumbered π f (Pure.pure a : Eval α) (Pure.pure b) :=
  fun _ started => ⟨by rw [result]; rfl, started⟩

theorem renumbered_fail {e e' : EvalError} (error : e' = e.renumber π) :
    Renumbered π f (fail e : Eval α) (fail e') :=
  fun _ started => ⟨by rw [error]; rfl, started⟩

theorem Renumbered.bind {x y : Eval α} {next next' : α → Eval β} (first : Renumbered π f x y)
    (rest : ∀ a, Renumbered π g (next a) (next' (f a))) :
    Renumbered π g (x >>= next) (y >>= next') := by
  intro m started
  obtain ⟨same, later⟩ := first m started
  show Eval.bind y next' (m.renumber π) = (Eval.bind x next m).renumber π g ∧
    match Eval.bind x next m with
    | .value _ n | .error _ n => π.first ≤ n.fresh
    | .outOfFuel => True
  unfold Eval.bind
  rw [same]
  cases run : x m with
  | value a n =>
      rw [run] at later
      exact rest a n later
  | error e n =>
      rw [run] at later
      exact ⟨rfl, later⟩
  | outOfFuel => exact ⟨rfl, trivial⟩

end

theorem lookup_renumbered (env : Env) (name : String) :
    Renumbered π id (lookup env name) (lookup env name) := by
  intro m started
  unfold lookup Memory.renumber
  cases env.lookup? m.globals name <;> exact ⟨rfl, started⟩

theorem read_renumbered (a : Address) : Renumbered π (Value.renumber π) (read a) (read a) := by
  intro m started
  unfold read
  rw [Memory.renumber, Store.read?_map]
  cases m.store.read? a <;> exact ⟨rfl, started⟩

theorem write_renumbered (a : Address) (v : Value) :
    Renumbered π id (write a v) (write a (v.renumber π)) := by
  intro m started
  unfold write
  rw [Memory.renumber, Store.write?_map]
  cases m.store.write? a v <;> exact ⟨rfl, started⟩

theorem allocate_renumbered (vs : List Value) :
    Renumbered π id (allocate vs) (allocate (vs.map (Value.renumber π))) := by
  intro m started
  refine ⟨?_, started⟩
  simp only [allocate, Memory.renumber, Store.allocateAll_map]
  rfl

theorem close_renumbered (params : List String) (es : List Expr) (env : Env) :
    Renumbered π (Value.renumber π) (close params es env)
      (close params (Expr.renumberAll π es) env) := by
  intro m started
  refine ⟨?_, Nat.le_succ_of_le started⟩
  simp only [close, Memory.renumber, Outcome.renumber, π.next _ started]
  rfl

theorem applyPrimitive_renumbered (op : Primitive) (args : List Value) :
    Renumbered π (Value.renumber π) (applyPrimitive op args)
      (applyPrimitive op (args.map (Value.renumber π))) := by
  intro m started
  have further (i : Identity) (later : i ≥ m.fresh) : π.identity (i + 1) = π.identity i + 1 :=
    π.next i (Nat.le_trans started later)
  have same : op.apply (args.map (Value.renumber π)) (m.renumber π).fresh =
      Primitive.translateResult π.translation
        (fun answer => (answer.1.renumber π, π.identity answer.2)) (op.apply args m.fresh) :=
    Primitive.apply_translate op π.injective args further
  unfold applyPrimitive
  rw [same]
  cases result : op.apply args m.fresh with
  | error e => exact ⟨rfl, started⟩
  | ok result => exact ⟨rfl, Nat.le_trans started (Primitive.apply_ok (P := fun _ _ _ _ => True) result).2⟩

/-! ## Expressions -/

def Evaluator.Renumbers (π : Renumbering) (ev : Evaluator) : Prop :=
  ∀ e env, Renumbered π (Value.renumber π) (ev e env) (ev (e.renumber π) env)

section
variable {ev : Evaluator} (below : ev.Renumbers π)
include below

theorem all_renumbered (env : Env) (es : List Expr) :
    Renumbered π (List.map (Value.renumber π)) (all ev env es) (all ev env (Expr.renumberAll π es)) := by
  induction es with
  | nil => exact renumbered_pure rfl
  | cons e es ih => exact (below e env).bind fun v => ih.bind fun vs => renumbered_pure rfl

theorem body_renumbered (env : Env) (es : List Expr) :
    Renumbered π (Value.renumber π) (body ev env es) (body ev env (Expr.renumberAll π es)) := by
  induction es with
  | nil => exact renumbered_fail rfl
  | cons e es ih =>
      cases es with
      | nil => exact below e env
      | cons e' es => exact (below e env).bind fun _ => ih

theorem bodyWith_renumbered (env : Env) (names : List String) (es : List Expr) (vs : List Value) :
    Renumbered π (Value.renumber π) (bodyWith ev env names es vs)
      (bodyWith ev env names (Expr.renumberAll π es) (vs.map (Value.renumber π))) :=
  (allocate_renumbered vs).bind fun addresses => body_renumbered below (⟨names, addresses⟩ :: env) es

theorem apply_renumbered (procedure : Value) (args : List Value) :
    Renumbered π (Value.renumber π) (apply ev procedure args)
      (apply ev (procedure.renumber π) (args.map (Value.renumber π))) := by
  cases procedure with
  | primitive op => exact applyPrimitive_renumbered op args
  | closure id params es env =>
      show Renumbered π _ (apply ev (.closure id params es env) args)
        (apply ev (.closure (π.identity id) params (Expr.renumberAll π es) env) _)
      simp only [apply, List.length_map]
      split
      · exact bodyWith_renumbered below env params es args
      · exact renumbered_fail rfl
  | _ => exact renumbered_fail rfl

theorem step_renumbered : Evaluator.Renumbers π (step ev) := by
  intro e env
  cases e with
  | number n => exact renumbered_pure rfl
  | boolean b => exact renumbered_pure rfl
  | string s => exact renumbered_pure rfl
  | literal l => exact renumbered_pure (Value.renumber_ofLiteral π l).symm
  | primitive p => exact renumbered_pure rfl
  | ref name => exact (lookup_renumbered env name).bind fun a => read_renumbered a
  | ifElse test consequent alternative =>
      cases alternative with
      | none =>
          refine (below test env).bind fun v => ?_
          rw [Value.renumber, Value.isTrue_translate]
          split
          · exact below consequent env
          · exact renumbered_pure rfl
      | some alternative =>
          refine (below test env).bind fun v => ?_
          rw [Value.renumber, Value.isTrue_translate]
          split
          · exact below consequent env
          · exact below alternative env
  | lambda params es => exact close_renumbered params es env
  | letIn names values es =>
      exact (all_renumbered below env values).bind fun vs => bodyWith_renumbered below env names es vs
  | apply operator operands =>
      exact (below operator env).bind fun procedure => (all_renumbered below env operands).bind fun args =>
        apply_renumbered below procedure args
  | assign name value =>
      exact (below value env).bind fun v => (lookup_renumbered env name).bind fun a =>
        (write_renumbered a v).bind fun _ => renumbered_pure rfl

end

end Eval

theorem eval_renumbered (π : Renumbering) (fuel : Nat) : Eval.Evaluator.Renumbers π (eval fuel) := by
  induction fuel with
  | zero => exact fun _ _ _ _ => ⟨rfl, trivial⟩
  | succ fuel ih => exact Eval.step_renumbered ih

end StoreScheme
