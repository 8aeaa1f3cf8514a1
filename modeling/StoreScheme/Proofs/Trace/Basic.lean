import StoreScheme.Session

/-!
# Recorded evaluation

The outcome of an evaluation does not tell which expressions were evaluated on the way, where they
stand in the program and in which environments.  Here the evaluator is run with a record of that.
Closures do not carry the place of their `lambda`; the record gives it, by their identity.

* `Expr.parts`, `Occurrence`: the places in a program
* `Event`, `Record`: what is recorded
* `Traced.eval`, `Traced.apply`, `Traced.forms`: evaluation with a record
* `Traced.eval_erases`, `Traced.apply_erases`, `Traced.forms_erases`: the record changes no outcome
-/

namespace StoreScheme

/-! ## Places in a program -/

/-- The direct parts of an expression from left to right, each with the names that the expression
binds around it, if it binds any there. -/
def Expr.parts : Expr → List (Option (List String) × Expr)
  | .ifElse test consequent alternative =>
    (none, test) :: (none, consequent) :: alternative.toList.map (none, ·)
  | .lambda params body => body.map (some params, ·)
  | .letIn names values body => values.map (none, ·) ++ body.map (some names, ·)
  | .apply operator operands => (none, operator) :: operands.map (none, ·)
  | .assign _ value => [(none, value)]
  | _ => []

/-- A place in a program: an expression at top level and the way down from it, given by the number
of the part taken at each level, the last one first. -/
structure Occurrence where
  root : Expr
  path : List Nat

def partOf (place : Option Occurrence) (i : Nat) : Option Occurrence :=
  place.map fun o => ⟨o.root, i :: o.path⟩

/-! ## Events -/

/-- The evaluator is called on an expression, the cell of a variable is looked for, a frame is put in
front of an environment for the body of the expression at a place, or a closure is made there. -/
inductive Event
  | call (place : Option Occurrence) (e : Expr) (env : Env) (m : Memory)
  | lookup (place : Option Occurrence) (name : String) (env : Env) (m : Memory)
  | bind (place : Option Occurrence) (frame : Frame) (env : Env) (m : Memory)
  | close (place : Option Occurrence) (id : Identity)

def Event.makes? (id : Identity) : Event → Option Occurrence
  | .close place i => if i = id then place else none
  | _ => none

/-- A frame, with the environment that it was put in front of. -/
abbrev Link := Frame × Env

def Event.binds? : Event → Option Link
  | .bind _ frame env _ => some (frame, env)
  | _ => none

/-- Events, the last one first. -/
abbrev Record := List Event

def Record.origin? (r : Record) (id : Identity) : Option Occurrence := r.findSome? (Event.makes? id)

def Record.Binds (r : Record) (link : Link) : Prop := ∃ event ∈ r, event.binds? = some link

theorem Record.binds_cons {r : Record} {event : Event} {link : Link} :
    Record.Binds (event :: r) link ↔ event.binds? = some link ∨ r.Binds link := by
  simp [Binds]

/-! ## Evaluation with a record -/

def Traced (α : Type) := Memory → Record → Outcome α × Record

namespace Traced

def pure {α : Type} (a : α) : Traced α := fun m r => (.value a m, r)

def bind {α β : Type} (x : Traced α) (f : α → Traced β) : Traced β := fun m r =>
  match x m r with
  | (.value a m, r) => f a m r
  | (.error e m, r) => (.error e m, r)
  | (.outOfFuel, r) => (.outOfFuel, r)

instance : Monad Traced where
  pure := Traced.pure
  bind := Traced.bind

def lift {α : Type} (x : Eval α) : Traced α := fun m r => (x m, r)

def note (event : Memory → Event) : Traced Unit := fun m r => (.value () m, event m :: r)

def origin (id : Identity) : Traced (Option Occurrence) := fun m r => (.value (r.origin? id) m, r)

def lookup (place : Option Occurrence) (env : Env) (name : String) : Traced Address := do
  note (.lookup place name env)
  lift (Eval.lookup env name)

def close (place : Option Occurrence) (params : List String) (body : List Expr) (env : Env) :
    Traced Value := do
  note fun m => .close place m.fresh
  lift (Eval.close params body env)

abbrev Tracer := Option Occurrence → Expr → Env → Traced Value

def all (tr : Tracer) (place : Option Occurrence) (env : Env) :
    (i : Nat) → List Expr → Traced (List Value)
  | _, [] => pure []
  | i, e :: es => do
    let v ← tr (partOf place i) e env
    let vs ← all tr place env (i + 1) es
    return v :: vs

def body (tr : Tracer) (place : Option Occurrence) (env : Env) : (i : Nat) → List Expr → Traced Value
  | _, [] => lift (Eval.fail .emptyProgram)
  | i, [e] => tr (partOf place i) e env
  | i, e :: es => do
    let _ ← tr (partOf place i) e env
    body tr place env (i + 1) es

def bodyWith (tr : Tracer) (place : Option Occurrence) (env : Env) (names : List String) (i : Nat)
    (es : List Expr) (vs : List Value) : Traced Value := do
  let addresses ← lift (Eval.allocate vs)
  note (.bind place ⟨names, addresses⟩ env)
  body tr place (⟨names, addresses⟩ :: env) i es

def apply (tr : Tracer) (procedure : Value) (args : List Value) : Traced Value :=
  match procedure with
  | .primitive op => lift (Eval.applyPrimitive op args)
  | .closure id params es env =>
    if params.length = args.length then do
      -- The place of the `lambda`, wherever the call stands.
      let place ← origin id
      bodyWith tr place env params 0 es args
    else lift (Eval.fail (.arityMismatch params.length args.length))
  | v => lift (Eval.fail (.badProcedure v))

def step (tr : Tracer) (place : Option Occurrence) (e : Expr) (env : Env) : Traced Value :=
  match e with
  | .number n => pure (.number n)
  | .boolean b => pure (.boolean b)
  | .string s => pure (.string s)
  | .literal l => pure (.ofLiteral l)
  | .primitive p => pure (.primitive p)
  | .ref name => do
    let address ← lookup place env name
    lift (Eval.read address)
  | .ifElse test consequent alternative => do
    let v ← tr (partOf place 0) test env
    if v.isTrue then tr (partOf place 1) consequent env
    else match alternative with
      | some e => tr (partOf place 2) e env
      | none => return .void
  | .lambda params es => close place params es env
  | .letIn names values es => do
    let vs ← all tr place env 0 values
    bodyWith tr place env names values.length es vs
  | .apply operator operands => do
    let procedure ← tr (partOf place 0) operator env
    let args ← all tr place env 1 operands
    apply tr procedure args
  | .assign name value => do
    let v ← tr (partOf place 0) value env
    let address ← lookup place env name
    lift (Eval.write address v)
    return .void

def eval : (fuel : Nat) → Tracer
  | 0 => fun place e env => do
    note (.call place e env)
    lift fun _ => .outOfFuel
  | fuel + 1 => fun place e env => do
    note (.call place e env)
    step (eval fuel) place e env

def top (fuel : Nat) (e : Expr) : Traced Value := eval fuel (some ⟨e, []⟩) e []

def form (fuel : Nat) (policy : RedefinePolicy) : Form → Traced Value
  | .define name e => do
    let v ← top fuel e
    lift (Eval.define policy name v)
    return .void
  | .expr e => top fuel e

def forms (fuel : Nat) (policy : RedefinePolicy) : List Form → Traced Value
  | [] => lift (Eval.fail .emptyProgram)
  | [.define name e] => do
    let _ ← form fuel policy (.define name e)
    lift (Eval.fail .emptyProgram)
  | [.expr e] => top fuel e
  | x :: xs => do
    let _ ← form fuel policy x
    forms fuel policy xs

/-! ## The record changes no outcome -/

def Erases {α : Type} (t : Traced α) (x : Eval α) : Prop := ∀ m r, (t m r).1 = x m

section
variable {α β : Type}

theorem pure_erases (a : α) : Erases (Pure.pure a : Traced α) (Pure.pure a) := fun _ _ => rfl

theorem lift_erases (x : Eval α) : Erases (lift x) x := fun _ _ => rfl

theorem Erases.bind {t : Traced α} {x : Eval α} {f : α → Traced β} {g : α → Eval β}
    (first : t.Erases x) (next : ∀ a, (f a).Erases (g a)) : (t >>= f).Erases (x >>= g) := by
  intro m r
  change (Traced.bind t f m r).1 = Eval.bind x g m
  unfold Traced.bind Eval.bind
  rw [← first m r]
  rcases t m r with ⟨a | e | _, r'⟩
  · exact next a _ _
  · rfl
  · rfl

theorem Erases.note_bind {t : Traced α} {x : Eval α} {event : Memory → Event} (h : t.Erases x) :
    (note event >>= fun _ => t).Erases x :=
  fun m r => h m (event m :: r)

theorem Erases.origin_bind {id : Identity} {f : Option Occurrence → Traced α} {x : Eval α}
    (h : ∀ place, (f place).Erases x) : (origin id >>= f).Erases x :=
  fun m r => h (r.origin? id) m r

end

def Tracer.Follows (tr : Tracer) (ev : Eval.Evaluator) : Prop :=
  ∀ place e env, (tr place e env).Erases (ev e env)

variable {tr : Tracer} {ev : Eval.Evaluator}

theorem lookup_erases (place : Option Occurrence) (env : Env) (name : String) :
    (lookup place env name).Erases (Eval.lookup env name) :=
  (lift_erases _).note_bind

theorem all_erases (follows : tr.Follows ev) (place : Option Occurrence) (env : Env) (i : Nat)
    (es : List Expr) : (all tr place env i es).Erases (Eval.all ev env es) := by
  induction es generalizing i with
  | nil => exact pure_erases []
  | cons e es ih =>
      exact (follows _ e env).bind fun v => (ih (i + 1)).bind fun vs => pure_erases (v :: vs)

theorem body_erases (follows : tr.Follows ev) (place : Option Occurrence) (env : Env) (i : Nat)
    (es : List Expr) : (body tr place env i es).Erases (Eval.body ev env es) := by
  induction es generalizing i with
  | nil => exact lift_erases _
  | cons e es ih =>
      cases es with
      | nil => exact follows _ e env
      | cons e' es => exact (follows _ e env).bind fun _ => ih (i + 1)

theorem bodyWith_erases (follows : tr.Follows ev) (place : Option Occurrence) (env : Env)
    (names : List String) (i : Nat) (es : List Expr) (vs : List Value) :
    (bodyWith tr place env names i es vs).Erases (Eval.bodyWith ev env names es vs) :=
  (lift_erases _).bind fun addresses =>
    (body_erases follows place (⟨names, addresses⟩ :: env) i es).note_bind

theorem apply_erases (follows : tr.Follows ev) (procedure : Value) (args : List Value) :
    (apply tr procedure args).Erases (Eval.apply ev procedure args) := by
  cases procedure with
  | closure id params es env =>
      by_cases arity : params.length = args.length
      · simp only [apply, Eval.apply, if_pos arity]
        exact .origin_bind fun place => bodyWith_erases follows place env params 0 es args
      · simp only [apply, Eval.apply, if_neg arity]
        exact lift_erases _
  | _ => exact lift_erases _

theorem step_erases (follows : tr.Follows ev) (place : Option Occurrence) (e : Expr) (env : Env) :
    (step tr place e env).Erases (Eval.step ev e env) := by
  cases e with
  | number n => exact pure_erases _
  | boolean b => exact pure_erases _
  | string s => exact pure_erases _
  | literal l => exact pure_erases _
  | primitive p => exact pure_erases _
  | ref name => exact (lookup_erases place env name).bind fun address => lift_erases _
  | ifElse test consequent alternative =>
      refine (follows _ test env).bind fun v => ?_
      split
      · exact follows _ consequent env
      · cases alternative with
        | some e => exact follows _ e env
        | none => exact pure_erases Value.void
  | lambda params es => exact (lift_erases _).note_bind
  | letIn names values es =>
      exact (all_erases follows place env 0 values).bind fun vs =>
        bodyWith_erases follows place env names values.length es vs
  | apply operator operands =>
      exact (follows _ operator env).bind fun procedure =>
        (all_erases follows place env 1 operands).bind fun args =>
          apply_erases follows procedure args
  | assign name value =>
      exact (follows _ value env).bind fun v => (lookup_erases place env name).bind fun address =>
        (lift_erases _).bind fun _ => pure_erases Value.void

theorem eval_erases (fuel : Nat) : Tracer.Follows (eval fuel) (StoreScheme.eval fuel) := by
  induction fuel with
  | zero => exact fun place e env => (lift_erases _).note_bind
  | succ fuel ih => exact fun place e env => (step_erases ih place e env).note_bind

theorem top_erases (fuel : Nat) (e : Expr) : (top fuel e).Erases (StoreScheme.eval fuel e []) :=
  eval_erases fuel _ e []

theorem form_erases (fuel : Nat) (policy : RedefinePolicy) (x : Form) :
    (form fuel policy x).Erases (Eval.form fuel policy x) := by
  cases x with
  | define name e =>
      exact (top_erases fuel e).bind fun v => (lift_erases _).bind fun _ => pure_erases Value.void
  | expr e => exact top_erases fuel e

theorem forms_erases (fuel : Nat) (policy : RedefinePolicy) (xs : List Form) :
    (forms fuel policy xs).Erases (Eval.forms fuel policy xs) := by
  induction xs with
  | nil => exact lift_erases _
  | cons x xs ih =>
      cases xs with
      | cons y ys =>
          cases x <;> exact (form_erases fuel policy _).bind fun _ => ih
      | nil =>
          cases x with
          | define name e => exact (form_erases fuel policy _).bind fun _ => lift_erases _
          | expr e => exact top_erases fuel e

end Traced

end StoreScheme
