import StoreScheme.Proofs.Eval.Fuel
import StoreScheme.Proofs.Store.Cells

/-!
# The rules of evaluation

Evaluation as a relation, with one rule for each way in which an expression, a row of expressions, a
body or an application can end.  Nothing is said about fuel: what ends has a derivation, and what
does not end has none.  The evaluator finds exactly what the rules derive.

* `Evaluates`, `EvaluatesAll`, `EvaluatesBody`, `Applies`: the rules
* `eval_sound`: what the evaluator finds is derived
* `Evaluates.ends`: what is derived is found with enough fuel
* `evaluates_iff_eval`: both together
-/

namespace StoreScheme

/-- New cells for some values behind those in use. -/
def Memory.withCells (m : Memory) (vs : List Value) : Memory :=
  { m with store := ⟨m.store.cells ++ vs⟩ }

/-- The frame that binds names to as many new cells. -/
def Memory.newFrame (m : Memory) (names : List String) (vs : List Value) : Frame :=
  ⟨names, List.range' m.store.size vs.length⟩

mutual

/-- From one memory, an expression ends in an environment with a value or an error and another memory.
The first error ends everything around it, in the memory that it occurs in. -/
inductive Evaluates : Expr → Env → Memory → Except EvalError Value → Memory → Prop
  | number {env : Env} {m : Memory} (c : Number) : Evaluates (.number c) env m (.ok (.number c)) m
  | boolean {env : Env} {m : Memory} (b : Bool) : Evaluates (.boolean b) env m (.ok (.boolean b)) m
  | string {env : Env} {m : Memory} (s : String) : Evaluates (.string s) env m (.ok (.string s)) m
  | literal {env : Env} {m : Memory} (d : Literal) : Evaluates (.literal d) env m (.ok (.ofLiteral d)) m
  | primitive {env : Env} {m : Memory} (p : Primitive) :
    Evaluates (.primitive p) env m (.ok (.primitive p)) m
  | ref {env : Env} {m : Memory} {name : String} {a : Address} {v : Value} :
    env.lookup? m.globals name = some a → m.store.read? a = some v → Evaluates (.ref name) env m (.ok v) m
  | refUnbound {env : Env} {m : Memory} {name : String} : env.lookup? m.globals name = none →
    Evaluates (.ref name) env m (.error (.unboundVariable name)) m
  | refOutOfBounds {env : Env} {m : Memory} {name : String} {a : Address} :
    env.lookup? m.globals name = some a → m.store.read? a = none →
    Evaluates (.ref name) env m (.error (.outOfBounds a)) m
  -- Everything but `#f` is true.
  | ifTrue {env : Env} {m n k : Memory} {test consequent : Expr} {alternative : Option Expr} {v : Value}
    {r : Except EvalError Value} : Evaluates test env m (.ok v) n → v ≠ .boolean false →
    Evaluates consequent env n r k → Evaluates (.ifElse test consequent alternative) env m r k
  | ifFalse {env : Env} {m n k : Memory} {test consequent alternative : Expr}
    {r : Except EvalError Value} : Evaluates test env m (.ok (.boolean false)) n →
    Evaluates alternative env n r k → Evaluates (.ifElse test consequent (some alternative)) env m r k
  | ifOnly {env : Env} {m n : Memory} {test consequent : Expr} :
    Evaluates test env m (.ok (.boolean false)) n →
    Evaluates (.ifElse test consequent none) env m (.ok .void) n
  | ifError {env : Env} {m n : Memory} {test consequent : Expr} {alternative : Option Expr}
    {x : EvalError} : Evaluates test env m (.error x) n →
    Evaluates (.ifElse test consequent alternative) env m (.error x) n
  | lambda {env : Env} {m : Memory} {params : List String} {es : List Expr} :
    Evaluates (.lambda params es) env m (.ok (.closure m.fresh params es env))
      { m with fresh := m.fresh + 1 }
  -- The values are those outside the new frame.
  | letIn {env : Env} {m n k : Memory} {names : List String} {values es : List Expr} {vs : List Value}
    {r : Except EvalError Value} : EvaluatesAll values env m (.ok vs) n →
    EvaluatesBody es (n.newFrame names vs :: env) (n.withCells vs) r k →
    Evaluates (.letIn names values es) env m r k
  | letError {env : Env} {m n : Memory} {names : List String} {values es : List Expr} {x : EvalError} :
    EvaluatesAll values env m (.error x) n → Evaluates (.letIn names values es) env m (.error x) n
  | apply {env : Env} {m n k l : Memory} {operator : Expr} {operands : List Expr} {f : Value}
    {args : List Value} {r : Except EvalError Value} : Evaluates operator env m (.ok f) n →
    EvaluatesAll operands env n (.ok args) k → Applies f args k r l →
    Evaluates (.apply operator operands) env m r l
  | operatorError {env : Env} {m n : Memory} {operator : Expr} {operands : List Expr} {x : EvalError} :
    Evaluates operator env m (.error x) n → Evaluates (.apply operator operands) env m (.error x) n
  | operandError {env : Env} {m n k : Memory} {operator : Expr} {operands : List Expr} {f : Value}
    {x : EvalError} : Evaluates operator env m (.ok f) n → EvaluatesAll operands env n (.error x) k →
    Evaluates (.apply operator operands) env m (.error x) k
  -- The name is looked up when the value is known.
  | assign {env : Env} {m n : Memory} {name : String} {value : Expr} {v : Value} {a : Address}
    {s : Store} : Evaluates value env m (.ok v) n → env.lookup? n.globals name = some a →
    n.store.write? a v = some s → Evaluates (.assign name value) env m (.ok .void) { n with store := s }
  | assignError {env : Env} {m n : Memory} {name : String} {value : Expr} {x : EvalError} :
    Evaluates value env m (.error x) n → Evaluates (.assign name value) env m (.error x) n
  | assignUnbound {env : Env} {m n : Memory} {name : String} {value : Expr} {v : Value} :
    Evaluates value env m (.ok v) n → env.lookup? n.globals name = none →
    Evaluates (.assign name value) env m (.error (.unboundVariable name)) n
  | assignOutOfBounds {env : Env} {m n : Memory} {name : String} {value : Expr} {v : Value}
    {a : Address} : Evaluates value env m (.ok v) n → env.lookup? n.globals name = some a →
    n.store.write? a v = none → Evaluates (.assign name value) env m (.error (.outOfBounds a)) n

/-- A row of expressions, from left to right. -/
inductive EvaluatesAll : List Expr → Env → Memory → Except EvalError (List Value) → Memory → Prop
  | nil {env : Env} {m : Memory} : EvaluatesAll [] env m (.ok []) m
  | cons {env : Env} {m n k : Memory} {e : Expr} {es : List Expr} {v : Value} {vs : List Value} :
    Evaluates e env m (.ok v) n → EvaluatesAll es env n (.ok vs) k →
    EvaluatesAll (e :: es) env m (.ok (v :: vs)) k
  | here {env : Env} {m n : Memory} {e : Expr} {es : List Expr} {x : EvalError} :
    Evaluates e env m (.error x) n → EvaluatesAll (e :: es) env m (.error x) n
  | further {env : Env} {m n k : Memory} {e : Expr} {es : List Expr} {v : Value} {x : EvalError} :
    Evaluates e env m (.ok v) n → EvaluatesAll es env n (.error x) k →
    EvaluatesAll (e :: es) env m (.error x) k

/-- A body, whose last expression gives the value. -/
inductive EvaluatesBody : List Expr → Env → Memory → Except EvalError Value → Memory → Prop
  | empty {env : Env} {m : Memory} : EvaluatesBody [] env m (.error .emptyProgram) m
  | last {env : Env} {m n : Memory} {e : Expr} {r : Except EvalError Value} :
    Evaluates e env m r n → EvaluatesBody [e] env m r n
  | next {env : Env} {m n k : Memory} {e e' : Expr} {es : List Expr} {v : Value}
    {r : Except EvalError Value} : Evaluates e env m (.ok v) n → EvaluatesBody (e' :: es) env n r k →
    EvaluatesBody (e :: e' :: es) env m r k
  | error {env : Env} {m n : Memory} {e e' : Expr} {es : List Expr} {x : EvalError} :
    Evaluates e env m (.error x) n → EvaluatesBody (e :: e' :: es) env m (.error x) n

/-- A procedure, applied to arguments. -/
inductive Applies : Value → List Value → Memory → Except EvalError Value → Memory → Prop
  | primitive {m : Memory} {op : Primitive} {args : List Value} {v : Value} {next : Identity} :
    op.apply args m.fresh = .ok (v, next) → Applies (.primitive op) args m (.ok v) { m with fresh := next }
  | primitiveError {m : Memory} {op : Primitive} {args : List Value} {y : PrimitiveError} :
    op.apply args m.fresh = .error y → Applies (.primitive op) args m (.error (.primitive y)) m
  -- The environment is the captured one, wherever the closure is applied.
  | closure {m n : Memory} {id : Identity} {params : List String} {es : List Expr} {env : Env}
    {args : List Value} {r : Except EvalError Value} : params.length = args.length →
    EvaluatesBody es (m.newFrame params args :: env) (m.withCells args) r n →
    Applies (.closure id params es env) args m r n
  | arityMismatch {m : Memory} {id : Identity} {params : List String} {es : List Expr} {env : Env}
    {args : List Value} : params.length ≠ args.length →
    Applies (.closure id params es env) args m (.error (.arityMismatch params.length args.length)) m
  | badProcedure {m : Memory} {f : Value} {args : List Value} : f.isProcedure = false →
    Applies f args m (.error (.badProcedure f)) m

end

theorem Value.isTrue_iff {v : Value} : v.isTrue = true ↔ v ≠ .boolean false := by
  unfold Value.isTrue
  split <;> simp_all

/-! ## How a computation ends -/

/-- The outcome of a computation that ends. -/
def Outcome.of {α : Type} : Except EvalError α → Memory → Outcome α
  | .ok a, m => .value a m
  | .error e, m => .error e m

namespace Eval

section
variable {α β : Type} {x : Eval α} {f : α → Eval β} {m n k : Memory}

theorem bind_eq_of {r : Except EvalError β} :
    (x >>= f) m = .of r k ↔
      (∃ a n, x m = .of (.ok a) n ∧ f a n = .of r k) ∨ ∃ e, r = .error e ∧ x m = .of (.error e) k := by
  change Eval.bind x f m = .of r k ↔ _
  unfold Eval.bind
  cases x m with
  | value a n =>
      constructor
      · exact fun rest => .inl ⟨a, n, rfl, rest⟩
      · rintro (⟨_, _, ⟨⟩, rest⟩ | ⟨_, _, ⟨⟩⟩)
        exact rest
  | error e n => cases r <;> simp [Outcome.of, eq_comm]
  | outOfFuel => cases r <;> simp [Outcome.of]

theorem pure_eq_of {a : α} {r : Except EvalError α} :
    (pure a : Eval α) m = .of r n ↔ r = .ok a ∧ n = m := by
  change Outcome.value a m = .of r n ↔ _
  cases r <;> simp [Outcome.of, eq_comm]

theorem fail_eq_of {e : EvalError} {r : Except EvalError α} :
    (fail e : Eval α) m = .of r n ↔ r = .error e ∧ n = m := by
  cases r <;> simp [fail, Outcome.of, eq_comm]

end

theorem lookup_eq_of {env : Env} {name : String} {m n : Memory} {r : Except EvalError Address} :
    lookup env name m = .of r n ↔ n = m ∧
      ((∃ a, env.lookup? m.globals name = some a ∧ r = .ok a) ∨
        env.lookup? m.globals name = none ∧ r = .error (.unboundVariable name)) := by
  unfold lookup
  cases env.lookup? m.globals name <;> cases r <;> simp [Outcome.of, eq_comm, and_comm]

theorem read_eq_of {a : Address} {m n : Memory} {r : Except EvalError Value} :
    read a m = .of r n ↔ n = m ∧
      ((∃ v, m.store.read? a = some v ∧ r = .ok v) ∨ m.store.read? a = none ∧ r = .error (.outOfBounds a)) := by
  unfold read
  cases m.store.read? a <;> cases r <;> simp [Outcome.of, eq_comm, and_comm]

theorem write_eq_of {a : Address} {v : Value} {m n : Memory} {r : Except EvalError Unit} :
    write a v m = .of r n ↔
      (∃ s, m.store.write? a v = some s ∧ r = .ok () ∧ n = { m with store := s }) ∨
        m.store.write? a v = none ∧ r = .error (.outOfBounds a) ∧ n = m := by
  unfold write
  cases m.store.write? a v <;> cases r <;> simp [Outcome.of, eq_comm]

theorem allocate_eq_of {vs : List Value} {m n : Memory} {r : Except EvalError (List Address)} :
    allocate vs m = .of r n ↔ r = .ok (List.range' m.store.size vs.length) ∧ n = m.withCells vs := by
  unfold allocate
  rw [Store.allocateAll_eq]
  cases r <;> simp [Outcome.of, eq_comm, Memory.withCells]

end Eval

/-! ## What the evaluator finds is derived -/

def Eval.Evaluator.Sound (ev : Eval.Evaluator) : Prop :=
  ∀ e env m r n, ev e env m = .of r n → Evaluates e env m r n

section
variable {ev : Eval.Evaluator} {env : Env} {m n : Memory} {r : Except EvalError Value}

theorem all_sound (sound : ev.Sound) {es : List Expr} {r : Except EvalError (List Value)}
    (ended : Eval.all ev env es m = .of r n) : EvaluatesAll es env m r n := by
  induction es generalizing m n r with
  | nil =>
      obtain ⟨rfl, rfl⟩ := Eval.pure_eq_of.1 ended
      exact .nil
  | cons e es ih =>
      rcases Eval.bind_eq_of.1 ended with ⟨v, k, first, ended⟩ | ⟨x, rfl, first⟩
      · rcases Eval.bind_eq_of.1 ended with ⟨vs, l, rest, ended⟩ | ⟨x, rfl, rest⟩
        · obtain ⟨rfl, rfl⟩ := Eval.pure_eq_of.1 ended
          exact .cons (sound _ _ _ _ _ first) (ih rest)
        · exact .further (sound _ _ _ _ _ first) (ih rest)
      · exact .here (sound _ _ _ _ _ first)

theorem body_sound (sound : ev.Sound) {es : List Expr} (ended : Eval.body ev env es m = .of r n) :
    EvaluatesBody es env m r n := by
  induction es generalizing m with
  | nil =>
      obtain ⟨rfl, rfl⟩ := Eval.fail_eq_of.1 ended
      exact .empty
  | cons e es ih =>
      cases es with
      | nil => exact .last (sound _ _ _ _ _ ended)
      | cons e' es =>
          rcases Eval.bind_eq_of.1 ended with ⟨v, k, first, rest⟩ | ⟨x, rfl, first⟩
          · exact .next (sound _ _ _ _ _ first) (ih rest)
          · exact .error (sound _ _ _ _ _ first)

theorem bodyWith_sound (sound : ev.Sound) {names : List String} {es : List Expr} {vs : List Value}
    (ended : Eval.bodyWith ev env names es vs m = .of r n) :
    EvaluatesBody es (m.newFrame names vs :: env) (m.withCells vs) r n := by
  rcases Eval.bind_eq_of.1 ended with ⟨addresses, k, allocated, ended⟩ | ⟨x, -, allocated⟩
  · obtain ⟨⟨⟩, rfl⟩ := Eval.allocate_eq_of.1 allocated
    exact body_sound sound ended
  · cases (Eval.allocate_eq_of.1 allocated).1

theorem apply_sound (sound : ev.Sound) {f : Value} {args : List Value}
    (ended : Eval.apply ev f args m = .of r n) : Applies f args m r n := by
  cases f with
  | primitive op =>
      simp only [Eval.apply, Eval.applyPrimitive] at ended
      cases result : op.apply args m.fresh with
      | ok made =>
          rw [result] at ended
          obtain ⟨rfl, rfl⟩ := Eval.pure_eq_of.1 ended
          exact .primitive result
      | error y =>
          rw [result] at ended
          obtain ⟨rfl, rfl⟩ := Eval.fail_eq_of.1 ended
          exact .primitiveError result
  | closure id params es env =>
      by_cases arity : params.length = args.length
      · simp only [Eval.apply, if_pos arity] at ended
        exact .closure arity (bodyWith_sound sound ended)
      · simp only [Eval.apply, if_neg arity] at ended
        obtain ⟨rfl, rfl⟩ := Eval.fail_eq_of.1 ended
        exact .arityMismatch arity
  | _ =>
      obtain ⟨rfl, rfl⟩ := Eval.fail_eq_of.1 ended
      exact .badProcedure rfl

theorem step_sound (sound : ev.Sound) : Eval.Evaluator.Sound (Eval.step ev) := by
  intro e env m r n ended
  cases e with
  | number c =>
      obtain ⟨rfl, rfl⟩ := Eval.pure_eq_of.1 ended
      exact .number c
  | boolean b =>
      obtain ⟨rfl, rfl⟩ := Eval.pure_eq_of.1 ended
      exact .boolean b
  | string s =>
      obtain ⟨rfl, rfl⟩ := Eval.pure_eq_of.1 ended
      exact .string s
  | literal d =>
      obtain ⟨rfl, rfl⟩ := Eval.pure_eq_of.1 ended
      exact .literal d
  | primitive p =>
      obtain ⟨rfl, rfl⟩ := Eval.pure_eq_of.1 ended
      exact .primitive p
  | ref name =>
      rcases Eval.bind_eq_of.1 ended with ⟨a, k, looked, reading⟩ | ⟨x, rfl, looked⟩
      · obtain ⟨rfl, ⟨_, found, ⟨⟩⟩ | ⟨-, ⟨⟩⟩⟩ := Eval.lookup_eq_of.1 looked
        obtain ⟨rfl, ⟨v, read, rfl⟩ | ⟨outside, rfl⟩⟩ := Eval.read_eq_of.1 reading
        · exact .ref found read
        · exact .refOutOfBounds found outside
      · obtain ⟨rfl, ⟨_, -, ⟨⟩⟩ | ⟨missing, ⟨⟩⟩⟩ := Eval.lookup_eq_of.1 looked
        exact .refUnbound missing
  | ifElse test consequent alternative =>
      rcases Eval.bind_eq_of.1 ended with ⟨v, k, first, ended⟩ | ⟨x, rfl, first⟩
      · have tested := sound _ _ _ _ _ first
        by_cases isFalse : v = .boolean false
        · subst isFalse
          cases alternative with
          | some e => exact .ifFalse tested (sound _ _ _ _ _ ended)
          | none =>
              obtain ⟨rfl, rfl⟩ := Eval.pure_eq_of.1 ended
              exact .ifOnly tested
        · simp only [Value.isTrue_iff.2 isFalse, if_true] at ended
          exact .ifTrue tested isFalse (sound _ _ _ _ _ ended)
      · exact .ifError (sound _ _ _ _ _ first)
  | lambda params es =>
      obtain ⟨rfl, rfl⟩ := Eval.pure_eq_of.1 ended
      exact .lambda
  | letIn names values es =>
      rcases Eval.bind_eq_of.1 ended with ⟨vs, k, first, ended⟩ | ⟨x, rfl, first⟩
      · exact .letIn (all_sound sound first) (bodyWith_sound sound ended)
      · exact .letError (all_sound sound first)
  | apply operator operands =>
      rcases Eval.bind_eq_of.1 ended with ⟨f, k, first, ended⟩ | ⟨x, rfl, first⟩
      · have operator := sound _ _ _ _ _ first
        rcases Eval.bind_eq_of.1 ended with ⟨args, l, rest, ended⟩ | ⟨x, rfl, rest⟩
        · exact .apply operator (all_sound sound rest) (apply_sound sound ended)
        · exact .operandError operator (all_sound sound rest)
      · exact .operatorError (sound _ _ _ _ _ first)
  | assign name value =>
      rcases Eval.bind_eq_of.1 ended with ⟨v, k, first, rest⟩ | ⟨x, rfl, first⟩
      · have evaluated := sound _ _ _ _ _ first
        rcases Eval.bind_eq_of.1 rest with ⟨a, l, looked, rest'⟩ | ⟨x, rfl, looked⟩
        · obtain ⟨rfl, ⟨_, found, ⟨⟩⟩ | ⟨-, ⟨⟩⟩⟩ := Eval.lookup_eq_of.1 looked
          rcases Eval.bind_eq_of.1 rest' with ⟨_, _, writing, last⟩ | ⟨x, rfl, writing⟩
          · obtain ⟨s, written, -, rfl⟩ | ⟨-, ⟨⟩, -⟩ := Eval.write_eq_of.1 writing
            obtain ⟨rfl, rfl⟩ := Eval.pure_eq_of.1 last
            exact .assign evaluated found written
          · obtain ⟨_, -, ⟨⟩, -⟩ | ⟨outside, ⟨⟩, rfl⟩ := Eval.write_eq_of.1 writing
            exact .assignOutOfBounds evaluated found outside
        · obtain ⟨rfl, ⟨_, -, ⟨⟩⟩ | ⟨missing, ⟨⟩⟩⟩ := Eval.lookup_eq_of.1 looked
          exact .assignUnbound evaluated missing
      · exact .assignError (sound _ _ _ _ _ first)

theorem eval_sound (fuel : Nat) : Eval.Evaluator.Sound (eval fuel) := by
  induction fuel with
  | zero =>
      intro e env m r n ended
      cases r <;> cases ended
  | succ fuel ih => exact step_sound ih

end

/-! ## What is derived is found -/

/-- With enough fuel a computation ends in the given way. -/
def Eval.Ends {α : Type} (x : Nat → Eval α) (m : Memory) (r : Except EvalError α) (n : Memory) : Prop :=
  ∃ enough, ∀ fuel, enough ≤ fuel → x fuel m = .of r n

namespace Eval.Ends

variable {α β : Type} {x : Nat → Eval α} {f : Nat → α → Eval β} {m n k : Memory}

theorem always {r : Except EvalError α} (ends : ∀ fuel, x fuel m = .of r n) : Ends x m r n :=
  ⟨0, fun fuel _ => ends fuel⟩

theorem bind {a : α} {r : Except EvalError β} (first : Ends x m (.ok a) n)
    (rest : Ends (fun fuel => f fuel a) n r k) : Ends (fun fuel => x fuel >>= f fuel) m r k := by
  obtain ⟨enough, first⟩ := first
  obtain ⟨enough', rest⟩ := rest
  refine ⟨max enough enough', fun fuel more => Eval.bind_eq_of.2 (.inl ⟨a, n, ?_, ?_⟩)⟩
  · exact first fuel (Nat.le_trans (Nat.le_max_left _ _) more)
  · exact rest fuel (Nat.le_trans (Nat.le_max_right _ _) more)

theorem bind_error {e : EvalError} (first : Ends x m (.error e) n) :
    Ends (fun fuel => x fuel >>= f fuel) m (.error e) n := by
  obtain ⟨enough, first⟩ := first
  exact ⟨enough, fun fuel more => Eval.bind_eq_of.2 (.inr ⟨e, rfl, first fuel more⟩)⟩

theorem level {e : Expr} {env : Env} {r : Except EvalError Value}
    (below : Ends (fun fuel => Eval.step (eval fuel) e env) m r n) :
    Ends (fun fuel => eval fuel e env) m r n := by
  obtain ⟨enough, below⟩ := below
  refine ⟨enough + 1, fun fuel more => ?_⟩
  cases fuel with
  | zero => exact absurd more (Nat.not_succ_le_zero _)
  | succ fuel => exact below fuel (Nat.le_of_succ_le_succ more)

end Eval.Ends

section
variable {env : Env} {m : Memory} {name : String} {a : Address} {v : Value} {vs : List Value} {s : Store}

theorem lookup_ends (found : env.lookup? m.globals name = some a) :
    Eval.Ends (fun _ => Eval.lookup env name) m (.ok a) m :=
  .always fun _ => Eval.lookup_eq_of.2 ⟨rfl, .inl ⟨a, found, rfl⟩⟩

theorem lookup_ends_unbound (missing : env.lookup? m.globals name = none) :
    Eval.Ends (fun _ => Eval.lookup env name) m (.error (.unboundVariable name)) m :=
  .always fun _ => Eval.lookup_eq_of.2 ⟨rfl, .inr ⟨missing, rfl⟩⟩

theorem read_ends (read : m.store.read? a = some v) : Eval.Ends (fun _ => Eval.read a) m (.ok v) m :=
  .always fun _ => Eval.read_eq_of.2 ⟨rfl, .inl ⟨v, read, rfl⟩⟩

theorem read_ends_outside (outside : m.store.read? a = none) :
    Eval.Ends (fun _ => Eval.read a) m (.error (.outOfBounds a)) m :=
  .always fun _ => Eval.read_eq_of.2 ⟨rfl, .inr ⟨outside, rfl⟩⟩

theorem write_ends (written : m.store.write? a v = some s) :
    Eval.Ends (fun _ => Eval.write a v) m (.ok ()) { m with store := s } :=
  .always fun _ => Eval.write_eq_of.2 (.inl ⟨s, written, rfl, rfl⟩)

theorem write_ends_outside (outside : m.store.write? a v = none) :
    Eval.Ends (fun _ => Eval.write a v) m (.error (.outOfBounds a)) m :=
  .always fun _ => Eval.write_eq_of.2 (.inr ⟨outside, rfl, rfl⟩)

theorem allocate_ends :
    Eval.Ends (fun _ => Eval.allocate vs) m (.ok (List.range' m.store.size vs.length)) (m.withCells vs) :=
  .always fun _ => Eval.allocate_eq_of.2 ⟨rfl, rfl⟩

end

mutual

theorem Evaluates.ends {e : Expr} {env : Env} {m n : Memory} {r : Except EvalError Value} :
    Evaluates e env m r n → Eval.Ends (fun fuel => eval fuel e env) m r n
  | .number _ | .boolean _ | .string _ | .literal _ | .primitive _ | .lambda => .level (.always fun _ => rfl)
  | .ref found read => .level ((lookup_ends found).bind (read_ends read))
  | .refUnbound missing => .level (lookup_ends_unbound missing).bind_error
  | .refOutOfBounds found outside => .level ((lookup_ends found).bind (read_ends_outside outside))
  | .ifTrue tested notFalse branch => by
      refine .level (tested.ends.bind ?_)
      simp only [Value.isTrue_iff.2 notFalse, if_true]
      exact branch.ends
  | .ifFalse tested branch => .level (tested.ends.bind branch.ends)
  | .ifOnly tested => .level (tested.ends.bind (.always fun _ => rfl))
  | .ifError tested => .level tested.ends.bind_error
  | .letIn values body => .level (values.ends.bind (allocate_ends.bind body.ends))
  | .letError values => .level values.ends.bind_error
  | .apply operator operands applied => .level (operator.ends.bind (operands.ends.bind applied.ends))
  | .operatorError operator => .level operator.ends.bind_error
  | .operandError operator operands => .level (operator.ends.bind operands.ends.bind_error)
  | .assign value found written =>
      .level (value.ends.bind ((lookup_ends found).bind ((write_ends written).bind (.always fun _ => rfl))))
  | .assignError value => .level value.ends.bind_error
  | .assignUnbound value missing => .level (value.ends.bind (lookup_ends_unbound missing).bind_error)
  | .assignOutOfBounds value found outside =>
      .level (value.ends.bind ((lookup_ends found).bind (write_ends_outside outside).bind_error))

theorem EvaluatesAll.ends {es : List Expr} {env : Env} {m n : Memory}
    {r : Except EvalError (List Value)} :
    EvaluatesAll es env m r n → Eval.Ends (fun fuel => Eval.all (eval fuel) env es) m r n
  | .nil => .always fun _ => rfl
  | .cons first rest => first.ends.bind (rest.ends.bind (.always fun _ => rfl))
  | .here first => first.ends.bind_error
  | .further first rest => first.ends.bind rest.ends.bind_error

theorem EvaluatesBody.ends {es : List Expr} {env : Env} {m n : Memory} {r : Except EvalError Value} :
    EvaluatesBody es env m r n → Eval.Ends (fun fuel => Eval.body (eval fuel) env es) m r n
  | .empty => .always fun _ => rfl
  | .last only => only.ends
  | .next first rest => first.ends.bind rest.ends
  | .error first => first.ends.bind_error

theorem Applies.ends {f : Value} {args : List Value} {m n : Memory} {r : Except EvalError Value} :
    Applies f args m r n → Eval.Ends (fun fuel => Eval.apply (eval fuel) f args) m r n
  | .primitive result | .primitiveError result => by
      refine .always fun _ => ?_
      simp only [Eval.apply, Eval.applyPrimitive, result]
      rfl
  | .closure arity body => by
      simp only [Eval.apply, if_pos arity]
      exact allocate_ends.bind body.ends
  | .arityMismatch arity => by
      simp only [Eval.apply, if_neg arity]
      exact .always fun _ => rfl
  | .badProcedure bad => by
      refine .always fun _ => ?_
      cases f <;> first | rfl | cases bad

end

/-- An evaluation ends with some fuel in just the ways that the rules derive, with a value or with an
error, and so does an application.  When it has ended, more fuel does not change the outcome. -/
theorem evaluates_iff_eval :
    (∀ e env m r n, (∃ fuel, eval fuel e env m = .of r n) ↔ Evaluates e env m r n) ∧
      (∀ f args m r n, (∃ fuel, Eval.apply (eval fuel) f args m = .of r n) ↔ Applies f args m r n) ∧
      ∀ fuel extra e env m, eval fuel e env m = .outOfFuel ∨ eval (fuel + extra) e env m = eval fuel e env m := by
  refine ⟨fun e env m r n => ⟨?_, ?_⟩, fun f args m r n => ⟨?_, ?_⟩, eval_approximates⟩
  · rintro ⟨fuel, ended⟩
    exact eval_sound fuel e env m r n ended
  · intro derived
    obtain ⟨enough, ends⟩ := derived.ends
    exact ⟨enough, ends enough (Nat.le_refl _)⟩
  · rintro ⟨fuel, ended⟩
    exact apply_sound (eval_sound fuel) ended
  · intro derived
    obtain ⟨enough, ends⟩ := derived.ends
    exact ⟨enough, ends enough (Nat.le_refl _)⟩

end StoreScheme
