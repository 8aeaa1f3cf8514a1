import StoreScheme.Proofs.Env.Lookup
import StoreScheme.Proofs.Store.Cells
import StoreScheme.Proofs.Value.Closures

/-!
# Two runs side by side

Evaluation reads and writes only within the region of the store that it can get at.  So two runs that
start with the same region, whatever is in the other cells, go the same way: the region grows by new
cells only, and at the end both have the same contents in it.  A single run is the case of two equal
ones.

* `Value.Within`, `Env.Within`: values and environments with all addresses in a region
* `Alike`: two memories that are the same in a region without a way out
* `Grows`: what a run does to a region and to the cells outside it
* `Paired`: how two runs end
* `eval_paired`, `apply_paired`: evaluation from memories that are alike
-/

namespace StoreScheme

abbrev Region := Address → Prop

def Env.Within (S : Region) (env : Env) : Prop := ∀ a ∈ env.addresses, S a

def Value.Within (S : Region) (v : Value) : Prop := v.AllClosures fun _ _ _ env => env.Within S

/-- Memories with the same region: it has the cells of all global names, no cell of it leads out of
it, and the cells have the same contents. -/
structure Alike (S : Region) (m₁ m₂ : Memory) : Prop where
  globals : m₂.globals = m₁.globals
  fresh : m₂.fresh = m₁.fresh
  size : m₂.store.size = m₁.store.size
  names : ∀ a ∈ m₁.globals.addresses, S a
  cells : ∀ a, S a → m₂.store.read? a = m₁.store.read? a
  closed : ∀ a v, S a → m₁.store.read? a = some v → v.Within S

/-- A run makes a region larger by new cells only, and leaves the cells outside it alone. -/
structure Grows (S : Region) (m : Memory) (T : Region) (n : Memory) : Prop where
  keeps : ∀ a, S a → T a
  new : ∀ a, T a → S a ∨ m.store.size ≤ a
  globals : n.globals = m.globals
  size : m.store.size ≤ n.store.size
  outside : ∀ a < m.store.size, ¬ S a → n.store.read? a = m.store.read? a

inductive Paired {α : Type} (S : Region) (m : Memory) (Q : Region → α → Prop) :
    Outcome α → Outcome α → Prop
  | value {T : Region} {a : α} {n₁ n₂ : Memory} : Grows S m T n₁ → Alike T n₁ n₂ → Q T a →
    Paired S m Q (.value a n₁) (.value a n₂)
  | error {T : Region} {e : EvalError} {n₁ n₂ : Memory} : Grows S m T n₁ → Alike T n₁ n₂ →
    (∀ v ∈ e.values, v.Within T) → Paired S m Q (.error e n₁) (.error e n₂)
  | outOfFuel : Paired S m Q .outOfFuel .outOfFuel

/-! ## Growing regions -/

section
variable {S T U : Region} {m n k m₁ m₂ : Memory} {env : Env} {v : Value}

theorem Env.Within.mono (larger : ∀ a, S a → T a) (within : env.Within S) : env.Within T :=
  fun a member => larger a (within a member)

theorem Value.Within.mono (larger : ∀ a, S a → T a) (within : v.Within S) : v.Within T :=
  within.imp fun _ _ _ _ closure => Env.Within.mono larger closure

theorem Env.Within.cons {fr : Frame} (here : ∀ a ∈ fr.addresses, S a) (further : env.Within S) :
    Env.Within S (fr :: env) :=
  fun a member => (List.mem_append.1 member).elim (here a) (further a)

theorem Grows.refl (S : Region) (m : Memory) : Grows S m S m :=
  ⟨fun _ => id, fun _ => .inl, rfl, Nat.le_refl _, fun _ _ _ => rfl⟩

theorem Grows.trans (first : Grows S m T n) (second : Grows T n U k) : Grows S m U k where
  keeps a inside := second.keeps a (first.keeps a inside)
  new a inside := by
    rcases second.new a inside with old | new
    · exact first.new a old
    · exact .inr (Nat.le_trans first.size new)
  globals := second.globals.trans first.globals
  size := Nat.le_trans first.size second.size
  outside a old apart := by
    -- An old cell outside the first region can not have joined the second.
    have apart' : ¬ T a := fun inside =>
      (first.new a inside).elim apart (Nat.not_le_of_lt old)
    exact (second.outside a (Nat.lt_of_lt_of_le old first.size) apart').trans
      (first.outside a old apart)

theorem Alike.take (alike : Alike S m₁ m₂) (fresh : Identity) :
    Alike S { m₁ with fresh } { m₂ with fresh } :=
  ⟨alike.globals, rfl, alike.size, alike.names, alike.cells, alike.closed⟩

theorem Grows.take (S : Region) (m : Memory) (fresh : Identity) : Grows S m S { m with fresh } :=
  ⟨fun _ => id, fun _ => .inl, rfl, Nat.le_refl _, fun _ _ _ => rfl⟩

end

/-! ## Combining runs -/

section
variable {α β : Type} {S T : Region} {m n m₁ m₂ : Memory} {Q : Region → α → Prop}
  {R : Region → β → Prop}

theorem Paired.of_grows {o₁ o₂ : Outcome α} (grows : Grows S m T n) (paired : Paired T n Q o₁ o₂) :
    Paired S m Q o₁ o₂ := by
  cases paired with
  | value more alike value => exact .value (grows.trans more) alike value
  | error more alike values => exact .error (grows.trans more) alike values
  | outOfFuel => exact .outOfFuel

theorem Paired.bind {x : Eval α} {f : α → Eval β} (first : Paired S m₁ Q (x m₁) (x m₂))
    (next : ∀ T n₁ n₂ a, (∀ a, S a → T a) → Alike T n₁ n₂ → Q T a → Paired T n₁ R (f a n₁) (f a n₂)) :
    Paired S m₁ R ((x >>= f) m₁) ((x >>= f) m₂) := by
  change Paired S m₁ R (Eval.bind x f m₁) (Eval.bind x f m₂)
  unfold Eval.bind
  generalize x m₁ = o₁, x m₂ = o₂ at first
  cases first with
  | value grows alike value => exact (next _ _ _ _ grows.keeps alike value).of_grows grows
  | error grows alike values => exact .error grows alike values
  | outOfFuel => exact .outOfFuel

theorem paired_pure (alike : Alike S m₁ m₂) {a : α} (value : Q S a) :
    Paired S m₁ Q ((pure a : Eval α) m₁) ((pure a : Eval α) m₂) :=
  .value (.refl S m₁) alike value

theorem paired_fail (alike : Alike S m₁ m₂) {e : EvalError} (values : ∀ v ∈ e.values, v.Within S) :
    Paired S m₁ Q (Eval.fail e m₁) (Eval.fail e m₂) :=
  .error (.refl S m₁) alike values

end

/-! ## Memory -/

section
variable {S : Region} {m₁ m₂ : Memory} {env : Env} {name : String} {a : Address} {v : Value}

theorem lookup_paired (alike : Alike S m₁ m₂) (within : env.Within S) :
    Paired S m₁ (fun T a => T a) (Eval.lookup env name m₁) (Eval.lookup env name m₂) := by
  unfold Eval.lookup
  rw [alike.globals]
  cases found : env.lookup? m₁.globals name with
  | some a =>
      have inside : S a := (Env.mem_of_lookup? found).elim (within a) (alike.names a)
      exact paired_pure alike inside
  | none => exact paired_fail alike (List.forall_mem_nil _)

theorem read_paired (alike : Alike S m₁ m₂) (inside : S a) :
    Paired S m₁ (fun T v => v.Within T) (Eval.read a m₁) (Eval.read a m₂) := by
  unfold Eval.read
  rw [alike.cells a inside]
  cases read : m₁.store.read? a with
  | some v => exact paired_pure alike (alike.closed a v inside read)
  | none => exact paired_fail alike (List.forall_mem_nil _)

theorem write_paired (alike : Alike S m₁ m₂) (inside : S a) (within : v.Within S) :
    Paired S m₁ (fun _ _ => True) (Eval.write a v m₁) (Eval.write a v m₂) := by
  unfold Eval.write
  cases write₁ : m₁.store.write? a v with
  | none =>
      have write₂ : m₂.store.write? a v = none := by
        rw [Store.write?_eq_none, alike.size, ← Store.write?_eq_none, write₁]
      rw [write₂]
      exact paired_fail alike (List.forall_mem_nil _)
  | some s₁ =>
      cases write₂ : m₂.store.write? a v with
      | none =>
          rw [Store.write?_eq_none, alike.size, ← Store.write?_eq_none, write₁] at write₂
          cases write₂
      | some s₂ =>
          have read₁ := Store.read?_of_write? write₁
          have read₂ := Store.read?_of_write? write₂
          have size₁ := Store.size_of_write? write₁
          refine .value (T := S) ⟨fun _ => id, fun _ => .inl, rfl, Nat.le_of_eq size₁.symm, ?_⟩
            ⟨alike.globals, alike.fresh, ?_, alike.names, ?_, ?_⟩ trivial
          · intro b _ apart
            have other : b ≠ a := fun same => apart (same ▸ inside)
            simp [read₁, other]
          · exact (Store.size_of_write? write₂).trans (alike.size.trans size₁.symm)
          · intro b inside'
            simp [read₁, read₂, alike.cells b inside']
          · intro b w inside' read
            rw [read₁] at read
            split at read
            · cases read
              exact within
            · exact alike.closed b w inside' read

def Region.from (S : Region) (first : Address) : Region := fun a => S a ∨ first ≤ a

theorem allocate_paired {vs : List Value} (alike : Alike S m₁ m₂) (within : ∀ v ∈ vs, v.Within S) :
    Paired S m₁ (fun T addresses => ∀ a ∈ addresses, T a) (Eval.allocate vs m₁)
      (Eval.allocate vs m₂) := by
  have addresses : (m₂.store.allocateAll vs).1 = (m₁.store.allocateAll vs).1 := by
    rw [Store.allocateAll_fst, Store.allocateAll_fst, alike.size]
  unfold Eval.allocate
  dsimp only
  rw [addresses]
  -- All addresses from the old size on join the region, those of the new cells among them.
  refine .value (T := S.from m₁.store.size) ⟨fun _ => .inl, fun _ => id, rfl, ?_, ?_⟩
    ⟨alike.globals, alike.fresh, ?_, fun a member => .inl (alike.names a member), ?_, ?_⟩ ?_
  · simp [Store.size_allocateAll]
  · intro a old _
    rw [Store.read?_allocateAll, if_pos old]
  · rw [Store.size_allocateAll, Store.size_allocateAll, alike.size]
  · intro a inside
    rw [Store.read?_allocateAll, Store.read?_allocateAll, alike.size]
    split
    · rename_i old
      exact alike.cells a (inside.resolve_right (Nat.not_le_of_lt old))
    · rfl
  · intro a v inside read
    rw [Store.read?_allocateAll] at read
    refine Value.Within.mono (fun _ => .inl) ?_
    split at read
    · rename_i old
      exact alike.closed a v (inside.resolve_right (Nat.not_le_of_lt old)) read
    · exact within v (List.mem_of_getElem? read)
  · intro a member
    rw [Store.allocateAll_fst, List.mem_range'_1] at member
    exact .inr member.1

theorem close_paired {params : List String} {body : List Expr} (alike : Alike S m₁ m₂)
    (within : env.Within S) :
    Paired S m₁ (fun T v => v.Within T) (Eval.close params body env m₁)
      (Eval.close params body env m₂) := by
  unfold Eval.close
  rw [alike.fresh]
  exact .value (.take S m₁ _) (alike.take _) within

theorem primitive_paired (op : Primitive) {args : List Value} (alike : Alike S m₁ m₂)
    (within : ∀ v ∈ args, v.Within S) :
    Paired S m₁ (fun T v => v.Within T) (Eval.applyPrimitive op args m₁)
      (Eval.applyPrimitive op args m₂) := by
  unfold Eval.applyPrimitive
  rw [alike.fresh]
  cases result : op.apply args m₁.fresh with
  | ok result' =>
      obtain ⟨v, next⟩ := result'
      have made : v.Within S := (Primitive.apply_ok result).1 within
      exact .value (.take S m₁ next) (alike.take next) made
  | error e =>
      exact paired_fail alike fun v hv => within v (Primitive.apply_error result v hv)

end

/-! ## Expressions -/

def Pairs (ev : Eval.Evaluator) : Prop :=
  ∀ S m₁ m₂ e env, Alike S m₁ m₂ → env.Within S →
    Paired S m₁ (fun T v => v.Within T) (ev e env m₁) (ev e env m₂)

section
variable {ev : Eval.Evaluator} {S : Region} {m₁ m₂ : Memory} {env : Env}

theorem all_paired (pairs : Pairs ev) (es : List Expr) (alike : Alike S m₁ m₂)
    (within : env.Within S) :
    Paired S m₁ (fun T vs => ∀ v ∈ vs, v.Within T) (Eval.all ev env es m₁)
      (Eval.all ev env es m₂) := by
  induction es generalizing S m₁ m₂ with
  | nil => exact paired_pure alike (List.forall_mem_nil _)
  | cons e es ih =>
      refine (pairs S m₁ m₂ e env alike within).bind fun T n₁ n₂ v larger alike first => ?_
      refine (ih alike (within.mono larger)).bind fun U _ _ vs larger' alike rest => ?_
      exact paired_pure alike (List.forall_mem_cons.2 ⟨first.mono larger', rest⟩)

theorem body_paired (pairs : Pairs ev) (es : List Expr) (alike : Alike S m₁ m₂)
    (within : env.Within S) :
    Paired S m₁ (fun T v => v.Within T) (Eval.body ev env es m₁) (Eval.body ev env es m₂) := by
  induction es generalizing S m₁ m₂ with
  | nil => exact paired_fail alike (List.forall_mem_nil _)
  | cons e es ih =>
      have first := pairs S m₁ m₂ e env alike within
      cases es with
      | nil => exact first
      | cons e' es => exact first.bind fun T _ _ _ larger alike _ => ih alike (within.mono larger)

theorem bodyWith_paired (pairs : Pairs ev) (names : List String) (es : List Expr) {vs : List Value}
    (alike : Alike S m₁ m₂) (within : env.Within S) (values : ∀ v ∈ vs, v.Within S) :
    Paired S m₁ (fun T v => v.Within T) (Eval.bodyWith ev env names es vs m₁)
      (Eval.bodyWith ev env names es vs m₂) := by
  refine (allocate_paired alike values).bind fun T _ _ addresses larger alike inside => ?_
  exact body_paired pairs es alike (.cons inside (within.mono larger))

theorem apply_paired (pairs : Pairs ev) {procedure : Value} {args : List Value}
    (alike : Alike S m₁ m₂) (within : procedure.Within S) (values : ∀ v ∈ args, v.Within S) :
    Paired S m₁ (fun T v => v.Within T) (Eval.apply ev procedure args m₁)
      (Eval.apply ev procedure args m₂) := by
  cases procedure with
  | primitive op => exact primitive_paired op alike values
  | closure id params es env =>
      by_cases arity : params.length = args.length
      · simp only [Eval.apply, if_pos arity]
        exact bodyWith_paired pairs params es alike within values
      · simp only [Eval.apply, if_neg arity]
        exact paired_fail alike (List.forall_mem_nil _)
  | _ => exact paired_fail alike fun v hv => by rw [List.mem_singleton.1 hv]; exact within

theorem step_paired (pairs : Pairs ev) : Pairs (Eval.step ev) := by
  intro S m₁ m₂ e env alike within
  cases e with
  | number n => exact paired_pure alike trivial
  | boolean b => exact paired_pure alike trivial
  | string x => exact paired_pure alike trivial
  | literal l => exact paired_pure alike (Value.allClosures_ofLiteral l)
  | primitive p => exact paired_pure alike trivial
  | ref name =>
      exact (lookup_paired alike within).bind fun T _ _ a _ alike inside => read_paired alike inside
  | ifElse test consequent alternative =>
      refine (pairs S m₁ m₂ test env alike within).bind fun T _ _ v larger alike _ => ?_
      have within := within.mono larger
      by_cases true : v.isTrue
      · simp only [if_pos true]
        exact pairs T _ _ consequent env alike within
      · simp only [if_neg true]
        cases alternative with
        | some e => exact pairs T _ _ e env alike within
        | none => exact paired_pure alike trivial
  | lambda params body => exact close_paired alike within
  | letIn names values body =>
      refine (all_paired pairs values alike within).bind fun T _ _ vs larger alike inside => ?_
      exact bodyWith_paired pairs names body alike (within.mono larger) inside
  | apply operator operands =>
      refine (pairs S m₁ m₂ operator env alike within).bind
        fun T _ _ procedure larger alike inside => ?_
      refine (all_paired pairs operands alike (within.mono larger)).bind
        fun U _ _ args larger' alike insides => ?_
      exact apply_paired pairs alike (inside.mono larger') insides
  | assign name value =>
      refine (pairs S m₁ m₂ value env alike within).bind fun T _ _ v larger alike inside => ?_
      refine (lookup_paired alike (within.mono larger)).bind fun U _ _ a larger' alike address => ?_
      refine (write_paired alike address (inside.mono larger')).bind fun _ _ _ _ _ alike _ => ?_
      exact paired_pure alike trivial

end

theorem eval_paired (fuel : Nat) : Pairs (eval fuel) := by
  induction fuel with
  | zero => exact fun _ _ _ _ _ _ _ => .outOfFuel
  | succ fuel ih => exact step_paired ih

end StoreScheme
