import Mathlib.Logic.Function.Basic
import StoreScheme.Primitive.Apply

/-!
# Values in another form

A primitive tells pairs and closures apart by their identities, and what a closure has besides, it does
not look at.  So it does the same to values whose identities are replaced by others, as long as
different ones stay different, and whose closures have other names or other code.

* `Translation`, `Value.translate`: what is replaced
* `Value.equal_translate`, `Value.eqv_translate`: equality is the same as before
* `Primitive.apply_translate`: results and errors of a primitive
-/

namespace StoreScheme

/-- Other identities, and other parameters, bodies and environments of closures. -/
structure Translation where
  identity : Identity → Identity
  params : List String → List String
  body : List Expr → List Expr
  env : Env → Env

namespace Value

def translate (t : Translation) : Value → Value
  | .pair id car cdr => .pair (t.identity id) (car.translate t) (cdr.translate t)
  | .closure id params body env =>
    .closure (t.identity id) (t.params params) (t.body body) (t.env env)
  | v => v

variable {t : Translation}

/-- New pairs take the new identities one after the other. -/
theorem list_translate {fresh : Identity} (next : ∀ i ≥ fresh, t.identity (i + 1) = t.identity i + 1)
    (vs : List Value) : fresh ≤ (list fresh vs).2 ∧ list (t.identity fresh) (vs.map (translate t)) =
      ((list fresh vs).1.translate t, t.identity (list fresh vs).2) := by
  induction vs with
  | nil => exact ⟨Nat.le_refl fresh, rfl⟩
  | cons v vs ih =>
      refine ⟨Nat.le_succ_of_le ih.1, ?_⟩
      simp only [List.map_cons, list, ih.2, translate, next _ ih.1]

section
variable (injective : Function.Injective t.identity) (v w : Value)
include injective

theorem beq_translate (i j : Identity) : (t.identity i == t.identity j) = (i == j) :=
  Bool.eq_iff_iff.2 (by simpa using injective.eq_iff)

theorem equal_translate : (v.translate t).equal (w.translate t) = v.equal w := by
  induction v generalizing w with
  | pair id car cdr ihCar ihCdr =>
      cases w <;> simp only [translate, equal, beq_translate injective, ihCar, ihCdr]
  | closure _ _ _ _ => cases w <;> simp only [translate, equal, beq_translate injective]
  | void | number _ | boolean _ | string _ | symbol _ | null | primitive _ => cases w <;> rfl

theorem eqv_translate : (v.translate t).eqv (w.translate t) = v.eqv w := by
  cases v <;> cases w <;> first | rfl | exact beq_translate injective _ _

end

variable (t) (v : Value)

theorem isList_translate : (v.translate t).isList = v.isList := by
  induction v with
  | pair id car cdr _ ihCdr => exact ihCdr
  | void | number _ | boolean _ | string _ | symbol _ | null | primitive _ | closure _ _ _ _ => rfl

theorem isTrue_translate : (v.translate t).isTrue = v.isTrue := by cases v <;> rfl

end Value

/-! ## Primitives -/

def PrimitiveError.translate (t : Translation) : PrimitiveError → PrimitiveError
  | .wrongType op expected found => .wrongType op expected (found.translate t)
  | e => e

namespace Primitive

/-- A result in another form, given what becomes of a value. -/
def translateResult {α : Type} (t : Translation) (f : α → α) :
    Except PrimitiveError α → Except PrimitiveError α
  | .ok a => .ok (f a)
  | .error e => .error (e.translate t)

variable (t : Translation)

section
variable {α β : Type} {f : α → α} {g : β → β}

theorem bind_translate {x x' : Except PrimitiveError α} {next next' : α → Except PrimitiveError β}
    (first : x' = translateResult t f x) (rest : ∀ a, next' (f a) = translateResult t g (next a)) :
    (x' >>= next') = translateResult t g (x >>= next) := by
  subst first
  cases x with
  | ok a => exact rest a
  | error e => rfl

theorem map_translate {x x' : Except PrimitiveError α} {h h' : α → β}
    (first : x' = translateResult t f x) (rest : ∀ a, h' (f a) = g (h a)) :
    x'.map h' = translateResult t g (x.map h) := by
  subst first
  cases x with
  | ok a => exact congrArg Except.ok (rest a)
  | error e => rfl

end

variable (op : Primitive)

theorem number_translate (v : Value) :
    op.number (v.translate t) = translateResult t id (op.number v) := by
  cases v <;> rfl

theorem numbers_translate (vs : List Value) :
    op.numbers (vs.map (Value.translate t)) = translateResult t id (op.numbers vs) := by
  induction vs with
  | nil => rfl
  | cons v vs ih =>
      exact bind_translate t (number_translate t op v) fun n => bind_translate t ih fun ns => rfl

theorem strings_translate (vs : List Value) :
    op.strings (vs.map (Value.translate t)) = translateResult t id (op.strings vs) := by
  induction vs with
  | nil => rfl
  | cons v vs ih =>
      cases v with
      | string s =>
          have rest (s : String) :
              (op.strings (vs.map (Value.translate t)) >>= fun ss => pure (s :: ss)) =
                translateResult t id (op.strings vs >>= fun ss => pure (s :: ss)) :=
            bind_translate t ih fun ss => rfl
          exact rest s
      | _ => rfl

theorem operate_translate (f : Operation) (a b : Number) :
    operate f a b = translateResult t id (operate f a b) := by
  unfold operate
  cases f a b <;> rfl

theorem fold_translate (f : Operation) (acc : Number) (vs : List Value) :
    op.fold f acc (vs.map (Value.translate t)) = translateResult t id (op.fold f acc vs) := by
  induction vs generalizing acc with
  | nil => rfl
  | cons v vs ih =>
      exact bind_translate t (number_translate t op v) fun n =>
        bind_translate t (operate_translate t f acc n) fun acc => ih acc

theorem reduce_translate (f : Operation) (unit : Number) (vs : List Value) :
    op.reduce f unit (vs.map (Value.translate t)) = translateResult t id (op.reduce f unit vs) := by
  match vs with
  | [] => rfl
  | [v] => exact fold_translate t op f unit [v]
  | v :: w :: vs =>
      exact bind_translate t (number_translate t op v) fun n => fold_translate t op f n (w :: vs)

theorem compare_translate (r : Number → Number → Bool) (vs : List Value) :
    op.compare r (vs.map (Value.translate t)) =
      translateResult t (Value.translate t) (op.compare r vs) :=
  bind_translate t (numbers_translate t op vs) fun _ => rfl

theorem conjunction_translate (vs : List Value) :
    conjunction (vs.map (Value.translate t)) = (conjunction vs).translate t := by
  induction vs with
  | nil => rfl
  | cons v vs ih =>
      cases vs with
      | nil => rfl
      | cons w vs =>
          simp only [List.map_cons, conjunction, Value.isTrue_translate] at ih ⊢
          split
          · exact ih
          · rfl

theorem disjunction_translate (vs : List Value) :
    disjunction (vs.map (Value.translate t)) = (disjunction vs).translate t := by
  induction vs with
  | nil => rfl
  | cons v vs ih =>
      simp only [List.map_cons, disjunction, Value.isTrue_translate, ih]
      split <;> rfl

theorem pair_translate (v : Value) : op.pair (v.translate t) =
    translateResult t (Prod.map (Value.translate t) (Value.translate t)) (op.pair v) := by
  cases v <;> rfl

theorem wrongArity_translate (args : List Value) :
    (.error (.wrongArity op (args.map (Value.translate t)).length) : Except PrimitiveError Value) =
      translateResult t (Value.translate t) (.error (.wrongArity op args.length)) := by
  rw [List.length_map]
  rfl

variable {t} (injective : Function.Injective t.identity)
include injective

theorem compute_translate (args : List Value) : op.compute (args.map (Value.translate t)) =
    translateResult t (Value.translate t) (op.compute args) := by
  -- Every test looks at something that is the same in another form.
  have test {b c : Bool} (same : b = c) : (.ok (.boolean b) : Except PrimitiveError Value) =
      translateResult t (Value.translate t) (.ok (.boolean c)) := by
    rw [same]
    rfl
  cases op with
  | add | mul => exact map_translate t (fold_translate t _ _ _ args) fun _ => rfl
  | sub | div => exact map_translate t (reduce_translate t _ _ _ args) fun _ => rfl
  | stringEq => exact map_translate t (strings_translate t _ args) fun _ => rfl
  | less | greater | numEq => exact compare_translate t _ _ args
  | and => exact congrArg Except.ok (conjunction_translate t args)
  | or => exact congrArg Except.ok (disjunction_translate t args)
  | car | cdr =>
      match args with
      | [v] => exact map_translate t (pair_translate t _ v) fun _ => rfl
      | [] => rfl
      | v :: w :: vs => exact wrongArity_translate t _ (v :: w :: vs)
  | eq =>
      match args with
      | [v, w] => exact test (Value.eqv_translate injective v w)
      | [] | [_] => rfl
      | u :: v :: w :: vs => exact wrongArity_translate t _ (u :: v :: w :: vs)
  | equal =>
      match args with
      | [v, w] => exact test (Value.equal_translate injective v w)
      | [] | [_] => rfl
      | u :: v :: w :: vs => exact wrongArity_translate t _ (u :: v :: w :: vs)
  | not =>
      match args with
      | [v] => exact test (congrArg Bool.not (Value.isTrue_translate t v))
      | [] => rfl
      | v :: w :: vs => exact wrongArity_translate t _ (v :: w :: vs)
  | isList =>
      match args with
      | [v] => exact test (Value.isList_translate t v)
      | [] => rfl
      | v :: w :: vs => exact wrongArity_translate t _ (v :: w :: vs)
  | isPair | isNull | isNumber | isBoolean | isSymbol | isString | isProcedure =>
      match args with
      | [v] => cases v <;> rfl
      | [] => rfl
      | v :: w :: vs => exact wrongArity_translate t _ (v :: w :: vs)
  | cons | list => exact wrongArity_translate t _ args

theorem apply_translate (args : List Value) {fresh : Identity}
    (next : ∀ i ≥ fresh, t.identity (i + 1) = t.identity i + 1) :
    op.apply (args.map (Value.translate t)) (t.identity fresh) =
      translateResult t (fun (v, next) => (v.translate t, t.identity next)) (op.apply args fresh) := by
  unfold apply
  rw [List.length_map]
  by_cases accepted : op.arity.accepts args.length
  · simp only [if_pos accepted]
    have computed : (op.compute (args.map (Value.translate t))).map (·, t.identity fresh) =
        translateResult t (fun (v, next) => (v.translate t, t.identity next))
          ((op.compute args).map (·, fresh)) :=
      map_translate t (compute_translate op injective args) fun _ => rfl
    cases op with
    | list => exact congrArg Except.ok (Value.list_translate next args).2
    | cons =>
        match args, computed with
        | [_, _], _ =>
            simp only [List.map_cons, List.map_nil, ← next fresh (Nat.le_refl fresh)]
            rfl
        | [], _ | [_], _ => rfl
        | _ :: _ :: _ :: _, computed => exact computed
    | _ => exact computed
  · simp only [if_neg accepted]
    rfl

end Primitive

end StoreScheme
