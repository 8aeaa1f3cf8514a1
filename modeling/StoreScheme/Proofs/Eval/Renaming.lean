import StoreScheme.Proofs.Store.Cells
import StoreScheme.Proofs.Value.Renaming
import StoreScheme.Session

/-!
# Evaluation under other names

Names are only ever compared with each other.  So if different variables keep different names, an
evaluation under other names finds the same cells, goes the same way and ends with the renamed outcome.

* `Memory.rename`, `Outcome.rename`: the memory and the outcome of an evaluation under other names
* `Env.lookup?_rename`, `Globals.define_rename`: the cell of a variable is that of its new name
* `Eval.Renamed`: a computation that does under other names what another one does
* `eval_renamed`, `Eval.apply_renamed`, `Eval.forms_renamed`: evaluation is such a computation
-/

namespace StoreScheme

/-! ## Memory -/

def Globals.rename (ρ : Renaming) (g : Globals) : Globals := ⟨g.entries.map (Prod.map ρ id)⟩

def Store.rename (ρ : Renaming) (s : Store) : Store := ⟨s.cells.map (Value.rename ρ)⟩

def Memory.rename (ρ : Renaming) (m : Memory) : Memory where
  store := m.store.rename ρ
  globals := m.globals.rename ρ
  fresh := m.fresh

namespace EvalError

def rename (ρ : Renaming) : EvalError → EvalError
  | .unboundVariable name => .unboundVariable (ρ name)
  | .badProcedure v => .badProcedure (v.rename ρ)
  | .primitive e => .primitive (e.rename ρ)
  | e => e

end EvalError

/-- An outcome under other names, given what these do to a result. -/
def Outcome.rename {α : Type} (ρ : Renaming) (f : α → α) : Outcome α → Outcome α
  | .value a m => .value (f a) (m.rename ρ)
  | .error e m => .error (e.rename ρ) (m.rename ρ)
  | .outOfFuel => .outOfFuel

/-! ## Cells -/

namespace Store

variable (ρ : Renaming) (s : Store)

@[simp]
theorem size_rename : (s.rename ρ).size = s.size := Array.size_map

theorem read?_rename (a : Address) : (s.rename ρ).read? a = (s.read? a).map (Value.rename ρ) :=
  s.read?_map (Value.rename ρ) a

theorem write?_rename (a : Address) (v : Value) :
    (s.rename ρ).write? a (v.rename ρ) = (s.write? a v).map (rename ρ) :=
  s.write?_map (Value.rename ρ) a v

theorem allocate_rename (v : Value) :
    (s.rename ρ).allocate (v.rename ρ) = ((s.allocate v).1, (s.allocate v).2.rename ρ) :=
  s.allocate_map (Value.rename ρ) v

theorem allocateAll_rename (vs : List Value) : (s.rename ρ).allocateAll (vs.map (Value.rename ρ)) =
    ((s.allocateAll vs).1, (s.allocateAll vs).2.rename ρ) :=
  s.allocateAll_map (Value.rename ρ) vs

end Store

/-! ## Names -/

section
variable {ρ : Renaming} (injective : Function.Injective ρ)
include injective

theorem beq_rename (a b : String) : (ρ a == ρ b) = (a == b) :=
  Bool.eq_iff_iff.2 (by simpa using injective.eq_iff)

theorem lookup_rename (entries : List (String × Address)) (name : String) :
    (entries.map (Prod.map ρ id)).lookup (ρ name) = entries.lookup name := by
  induction entries with
  | nil => rfl
  | cons entry entries ih =>
      obtain ⟨n, a⟩ := entry
      simp only [List.map_cons, Prod.map_apply, List.lookup_cons, beq_rename injective, ih, id]

theorem Frame.lookup?_rename (fr : Frame) (name : String) :
    (fr.rename ρ).lookup? (ρ name) = fr.lookup? name := by
  have zipped : (fr.names.map ρ).zip fr.addresses = (fr.names.zip fr.addresses).map (Prod.map ρ id) := by
    simp [List.zip_map_left]
  simp only [Frame.lookup?, Frame.rename, zipped, lookup_rename injective]

theorem Globals.lookup?_rename (g : Globals) (name : String) :
    (g.rename ρ).lookup? (ρ name) = g.lookup? name :=
  lookup_rename injective g.entries name

theorem Globals.rebind_rename (name : String) (address : Address) (entries : List (String × Address)) :
    rebind (ρ name) address (entries.map (Prod.map ρ id)) =
      (rebind name address entries).map (Prod.map ρ id) := by
  induction entries with
  | nil => rfl
  | cons entry entries ih =>
      obtain ⟨n, a⟩ := entry
      by_cases same : n = name
      · simp [rebind, same]
      · have other : ρ n ≠ ρ name := fun equal => same (injective equal)
        simp [rebind, same, other, ih]

theorem Globals.define_rename (g : Globals) (policy : RedefinePolicy) (name : String)
    (address : Address) :
    (g.rename ρ).define policy (ρ name) address = (g.define policy name address).rename ρ := by
  unfold Globals.define
  rw [lookup?_rename injective]
  split
  · simp [rename, rebind_rename injective]
  · simp [rename]

theorem Env.lookup?_rename (globals : Globals) (name : String) (env : Env) :
    Env.lookup? (globals.rename ρ) (ρ name) (env.rename ρ) = env.lookup? globals name := by
  induction env with
  | nil => exact Globals.lookup?_rename injective globals name
  | cons fr env ih =>
      simp only [Env.rename, List.map_cons, Env.lookup?, Frame.lookup?_rename injective]
      exact congrArg _ ih

end

/-! ## Computations -/

namespace Eval

/-- The second computation does under other names what the first one does. -/
def Renamed {α : Type} (ρ : Renaming) (f : α → α) (x y : Eval α) : Prop :=
  ∀ m, y (m.rename ρ) = (x m).rename ρ f

section
variable {ρ : Renaming} {α β : Type} {f : α → α} {g : β → β}

theorem renamed_pure {a b : α} (result : b = f a) : Renamed ρ f (Pure.pure a : Eval α) (Pure.pure b) :=
  fun m => by rw [result]; rfl

theorem renamed_fail {e e' : EvalError} (error : e' = e.rename ρ) :
    Renamed ρ f (fail e : Eval α) (fail e') :=
  fun m => by rw [error]; rfl

theorem Renamed.bind {x y : Eval α} {next next' : α → Eval β} (first : Renamed ρ f x y)
    (rest : ∀ a, Renamed ρ g (next a) (next' (f a))) : Renamed ρ g (x >>= next) (y >>= next') := by
  intro m
  change Eval.bind y next' (m.rename ρ) = (Eval.bind x next m).rename ρ g
  unfold Eval.bind
  rw [first m]
  cases x m with
  | value a n => exact rest a n
  | error e n => rfl
  | outOfFuel => rfl

end

variable {ρ : Renaming}

theorem lookup_renamed (injective : Function.Injective ρ) (env : Env) (name : String) :
    Renamed ρ id (lookup env name) (lookup (env.rename ρ) (ρ name)) := by
  intro m
  unfold lookup
  rw [Memory.rename, Env.lookup?_rename injective]
  cases env.lookup? m.globals name <;> rfl

theorem read_renamed (a : Address) : Renamed ρ (Value.rename ρ) (read a) (read a) := by
  intro m
  unfold read
  rw [Memory.rename, Store.read?_rename]
  cases m.store.read? a <;> rfl

theorem write_renamed (a : Address) (v : Value) : Renamed ρ id (write a v) (write a (v.rename ρ)) := by
  intro m
  unfold write
  rw [Memory.rename, Store.write?_rename]
  cases m.store.write? a v <;> rfl

theorem allocate_renamed (vs : List Value) :
    Renamed ρ id (allocate vs) (allocate (vs.map (Value.rename ρ))) := by
  intro m
  simp only [allocate, Memory.rename, Store.allocateAll_rename]
  rfl

theorem applyPrimitive_renamed (op : Primitive) (args : List Value) :
    Renamed ρ (Value.rename ρ) (applyPrimitive op args)
      (applyPrimitive op (args.map (Value.rename ρ))) := by
  intro m
  unfold applyPrimitive
  rw [Memory.rename, Primitive.apply_rename]
  cases op.apply args m.fresh <;> rfl

/-! ## Expressions -/

def Evaluator.Equivariant (ρ : Renaming) (ev : Evaluator) : Prop :=
  ∀ e env, Renamed ρ (Value.rename ρ) (ev e env) (ev (e.rename ρ) (env.rename ρ))

section
variable {ev : Evaluator} (below : ev.Equivariant ρ)
include below

theorem all_renamed (env : Env) (es : List Expr) :
    Renamed ρ (List.map (Value.rename ρ)) (all ev env es)
      (all ev (env.rename ρ) (Expr.renameAll ρ es)) := by
  induction es with
  | nil => exact renamed_pure rfl
  | cons e es ih => exact (below e env).bind fun v => ih.bind fun vs => renamed_pure rfl

theorem body_renamed (env : Env) (es : List Expr) :
    Renamed ρ (Value.rename ρ) (body ev env es) (body ev (env.rename ρ) (Expr.renameAll ρ es)) := by
  induction es with
  | nil => exact renamed_fail rfl
  | cons e es ih =>
      cases es with
      | nil => exact below e env
      | cons e' es => exact (below e env).bind fun _ => ih

theorem bodyWith_renamed (env : Env) (names : List String) (es : List Expr) (vs : List Value) :
    Renamed ρ (Value.rename ρ) (bodyWith ev env names es vs)
      (bodyWith ev (env.rename ρ) (names.map ρ) (Expr.renameAll ρ es) (vs.map (Value.rename ρ))) :=
  (allocate_renamed vs).bind fun addresses => body_renamed below (⟨names, addresses⟩ :: env) es

theorem apply_renamed (procedure : Value) (args : List Value) :
    Renamed ρ (Value.rename ρ) (apply ev procedure args)
      (apply ev (procedure.rename ρ) (args.map (Value.rename ρ))) := by
  cases procedure with
  | primitive op => exact applyPrimitive_renamed op args
  | closure id params es env =>
      simp only [apply, Value.rename, List.length_map]
      split
      · exact bodyWith_renamed below env params es args
      · exact renamed_fail rfl
  | _ => exact renamed_fail rfl

theorem step_renamed (injective : Function.Injective ρ) : Evaluator.Equivariant ρ (step ev) := by
  intro e env
  cases e with
  | number n => exact renamed_pure rfl
  | boolean b => exact renamed_pure rfl
  | string s => exact renamed_pure rfl
  | literal l => exact renamed_pure (Value.rename_ofLiteral ρ l).symm
  | primitive p => exact renamed_pure rfl
  | ref name => exact (lookup_renamed injective env name).bind fun a => read_renamed a
  | ifElse test consequent alternative =>
      cases alternative with
      | none =>
          refine (below test env).bind fun v => ?_
          rw [Value.isTrue_rename]
          split
          · exact below consequent env
          · exact renamed_pure rfl
      | some alternative =>
          refine (below test env).bind fun v => ?_
          rw [Value.isTrue_rename]
          split
          · exact below consequent env
          · exact below alternative env
  | lambda params es => exact fun m => rfl
  | letIn names values es =>
      exact (all_renamed below env values).bind fun vs => bodyWith_renamed below env names es vs
  | apply operator operands =>
      exact (below operator env).bind fun procedure => (all_renamed below env operands).bind fun args =>
        apply_renamed below procedure args
  | assign name value =>
      exact (below value env).bind fun v => (lookup_renamed injective env name).bind fun a =>
        (write_renamed a v).bind fun _ => renamed_pure rfl

end

end Eval

theorem eval_renamed {ρ : Renaming} (injective : Function.Injective ρ) (fuel : Nat) :
    Eval.Evaluator.Equivariant ρ (eval fuel) := by
  induction fuel with
  | zero => exact fun _ _ _ => rfl
  | succ fuel ih => exact Eval.step_renamed ih injective

/-! ## Forms -/

namespace Eval

variable {ρ : Renaming} (injective : Function.Injective ρ)
include injective

theorem define_renamed (policy : RedefinePolicy) (name : String) (v : Value) :
    Renamed ρ id (define policy name v) (define policy (ρ name) (v.rename ρ)) := by
  intro m
  simp only [define, Memory.rename, Store.allocate_rename, Globals.define_rename injective]
  rfl

theorem form_renamed (fuel : Nat) (policy : RedefinePolicy) (x : Form) :
    Renamed ρ (Value.rename ρ) (form fuel policy x) (form fuel policy (x.rename ρ)) := by
  cases x with
  | define name e =>
      exact (eval_renamed injective fuel e []).bind fun v =>
        (define_renamed injective policy name v).bind fun _ => renamed_pure rfl
  | expr e => exact eval_renamed injective fuel e []

theorem forms_renamed (fuel : Nat) (policy : RedefinePolicy) (xs : List Form) :
    Renamed ρ (Value.rename ρ) (forms fuel policy xs)
      (forms fuel policy (xs.map (Form.rename ρ))) := by
  induction xs with
  | nil => exact renamed_fail rfl
  | cons x xs ih =>
      have first := form_renamed injective fuel policy x
      cases xs with
      | cons y ys => cases x <;> exact first.bind fun _ => ih
      | nil =>
          cases x with
          | define name e => exact first.bind fun _ => renamed_fail rfl
          | expr e => exact first

end Eval

end StoreScheme
