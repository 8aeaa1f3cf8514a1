import StoreScheme.Proofs.Eval.TwoRuns

/-!
# Confinement

An evaluation can get at the cells that are reached from its environment and from the global names:
the addresses lead to cells, and the closures in these lead on to the cells of the environments they
captured.  It writes to no other cell that was there before, and what other cells hold has no
influence on it.

* `Memory.Reaches`: the cells that are reached
* `writes_confined`: what was not reached is left as it was
* `reads_confined`: memories that agree on what is reached can not be told apart
-/

namespace StoreScheme

def Value.addresses : Value → List Address
  | .pair _ car cdr => car.addresses ++ cdr.addresses
  | .closure _ _ _ env => env.addresses
  | _ => []

inductive Memory.Reaches (m : Memory) (roots : List Address) : Address → Prop
  | root {a : Address} : a ∈ roots → Reaches m roots a
  | global {a : Address} : a ∈ m.globals.addresses → Reaches m roots a
  | cell {a b : Address} {v : Value} : Reaches m roots a → m.store.read? a = some v →
    b ∈ v.addresses → Reaches m roots b

structure Memory.ConfinedTo (roots : List Address) (m n : Memory) : Prop where
  globals : n.globals = m.globals
  size : m.store.size ≤ n.store.size
  unreached : ∀ a < m.store.size, ¬ m.Reaches roots a → n.store.read? a = m.store.read? a

structure Memory.AlikeFrom (roots : List Address) (m₁ m₂ : Memory) : Prop where
  globals : m₂.globals = m₁.globals
  fresh : m₂.fresh = m₁.fresh
  size : m₂.store.size = m₁.store.size
  cells : ∀ a, m₁.Reaches roots a → m₂.store.read? a = m₁.store.read? a

/-- Evaluations that end with the same value or the same error, or do not end, and leave memories that
agree on all cells reached from some roots, the value or the error. -/
inductive Outcome.AlikeFrom (roots : List Address) : Outcome Value → Outcome Value → Prop
  | value {v : Value} {n₁ n₂ : Memory} : Memory.AlikeFrom (roots ++ v.addresses) n₁ n₂ →
    AlikeFrom roots (.value v n₁) (.value v n₂)
  | error {e : EvalError} {n₁ n₂ : Memory} :
    Memory.AlikeFrom (roots ++ e.values.flatMap Value.addresses) n₁ n₂ →
    AlikeFrom roots (.error e n₁) (.error e n₂)
  | outOfFuel : AlikeFrom roots .outOfFuel .outOfFuel

def Outcome.memory? {α : Type} : Outcome α → Option Memory
  | .value _ m => some m
  | .error _ m => some m
  | .outOfFuel => none

/-! ## Reached cells as a region -/

section
variable {S : Region} {m m₁ m₂ : Memory} {roots : List Address} {a : Address} {v : Value}

theorem Value.within_iff : v.Within S ↔ ∀ a ∈ v.addresses, S a := by
  induction v with
  | pair id car cdr ihCar ihCdr =>
      change car.Within S ∧ cdr.Within S ↔ _
      rw [ihCar, ihCdr, Value.addresses, List.forall_mem_append]
  | closure id params body env => rfl
  | _ => exact ⟨fun _ a none => absurd none List.not_mem_nil, fun _ => trivial⟩

theorem Memory.Reaches.within (inside : ∀ a ∈ roots, S a) (names : ∀ a ∈ m.globals.addresses, S a)
    (closed : ∀ a v, S a → m.store.read? a = some v → v.Within S) (reached : m.Reaches roots a) :
    S a := by
  induction reached with
  | root member => exact inside _ member
  | global member => exact names _ member
  | cell _ read member ih => exact Value.within_iff.1 (closed _ _ ih read) _ member

theorem Memory.AlikeFrom.alike (alike : Memory.AlikeFrom roots m₁ m₂) :
    Alike (m₁.Reaches roots) m₁ m₂ where
  globals := alike.globals
  fresh := alike.fresh
  size := alike.size
  names _ := .global
  cells := alike.cells
  closed _ _ inside read := Value.within_iff.2 fun _ => .cell inside read

theorem Memory.AlikeFrom.refl (roots : List Address) (m : Memory) : Memory.AlikeFrom roots m m :=
  ⟨rfl, rfl, rfl, fun _ _ => rfl⟩

theorem Memory.AlikeFrom.of_alike (alike : Alike S m₁ m₂) (inside : ∀ a ∈ roots, S a) :
    Memory.AlikeFrom roots m₁ m₂ where
  globals := alike.globals
  fresh := alike.fresh
  size := alike.size
  cells a reached := alike.cells a (reached.within inside alike.names alike.closed)

theorem Memory.AlikeFrom.reaches_iff (alike : Memory.AlikeFrom roots m₁ m₂) :
    m₂.Reaches roots a ↔ m₁.Reaches roots a := by
  constructor
  · intro reached
    refine reached.within (fun _ => .root) ?_ fun b v inside read => ?_
    · exact fun b member => .global (alike.globals ▸ member)
    · exact alike.alike.closed b v inside (alike.cells b inside ▸ read)
  · intro reached
    induction reached with
    | root member => exact .root member
    | global member => exact .global (alike.globals ▸ member)
    | cell inside read member ih => exact .cell ih ((alike.cells _ inside).trans read) member

end

/-! ## Writing -/

theorem Paired.confined {α : Type} {Q : Region → α → Prop} {m n : Memory} {roots : List Address}
    {o₁ o₂ : Outcome α} (paired : Paired (m.Reaches roots) m Q o₁ o₂) (ended : o₁.memory? = some n) :
    m.ConfinedTo roots n := by
  cases paired with
  | value grows =>
      cases ended
      exact ⟨grows.globals, grows.size, grows.outside⟩
  | error grows =>
      cases ended
      exact ⟨grows.globals, grows.size, grows.outside⟩
  | outOfFuel => cases ended

/-- An evaluation that ends, with a value or an error, has written only to cells reached from its
environment and to new ones; an application, only to cells reached from the procedure and the
arguments and to new ones.  Neither changes the global names. -/
theorem writes_confined (fuel : Nat) :
    (∀ e env m n, (eval fuel e env m).memory? = some n → m.ConfinedTo env.addresses n) ∧
      ∀ procedure args m n, (Eval.apply (eval fuel) procedure args m).memory? = some n →
        m.ConfinedTo (procedure.addresses ++ args.flatMap Value.addresses) n := by
  constructor
  · intro e env m n ended
    have alike := (Memory.AlikeFrom.refl env.addresses m).alike
    exact (eval_paired fuel _ m m e env alike fun _ => .root).confined ended
  · intro procedure args m n ended
    let roots := procedure.addresses ++ args.flatMap Value.addresses
    have alike := (Memory.AlikeFrom.refl roots m).alike
    have within : procedure.Within (m.Reaches roots) :=
      Value.within_iff.2 fun a member => .root (List.mem_append_left _ member)
    have values : ∀ v ∈ args, v.Within (m.Reaches roots) := fun v among =>
      Value.within_iff.2 fun a member =>
        .root (List.mem_append_right _ (List.mem_flatMap.2 ⟨v, among, member⟩))
    exact (apply_paired (eval_paired fuel) alike within values).confined ended

/-- A procedure in the first cell assigns to the second one; nothing leads to the third. -/
def assigner (v : Value) : Memory :=
  { store := ⟨#[.closure 0 [] [.assign "y" (.boolean false)] [⟨["y"], [1]⟩], .boolean true, v]⟩ }

theorem reaches_assigner {v : Value} {a : Address} (reached : (assigner v).Reaches [0] a) :
    a = 0 ∨ a = 1 := by
  refine reached.within (S := fun a => a = 0 ∨ a = 1) ?_ ?_ ?_
  · simp
  · intro a member
    cases member
  · rintro a w (rfl | rfl) ⟨⟩
    · exact Value.within_iff.2 fun b member => .inr (List.mem_singleton.1 member)
    · trivial

theorem writes_confined_assigner :
    ∃ n, (eval 4 (.apply (.ref "f") []) [⟨["f"], [0]⟩] (assigner .null)).memory? = some n ∧
      n.store.read? 1 = some (.boolean false) ∧ n.store.read? 2 = (assigner .null).store.read? 2 := by
  refine ⟨_, rfl, rfl, ?_⟩
  have confined := (writes_confined 4).1 (.apply (.ref "f") []) [⟨["f"], [0]⟩] (assigner .null) _ rfl
  exact confined.unreached 2 (by decide) fun reached => by simpa using reaches_assigner reached

/-! ## Reading -/

/-- Two evaluations from memories that agree on what is reached end in the same way, with memories
that again agree on what is reached, also from the result. -/
theorem reads_confined (fuel : Nat) (e : Expr) (env : Env) {m₁ m₂ : Memory}
    (alike : Memory.AlikeFrom env.addresses m₁ m₂) :
    Outcome.AlikeFrom env.addresses (eval fuel e env m₁) (eval fuel e env m₂) := by
  have paired := eval_paired fuel _ m₁ m₂ e env alike.alike fun _ => .root
  generalize eval fuel e env m₁ = o₁, eval fuel e env m₂ = o₂ at paired
  cases paired with
  | value grows alike within =>
      refine .value (.of_alike alike (List.forall_mem_append.2 ⟨?_, Value.within_iff.1 within⟩))
      exact fun a member => grows.keeps a (.root member)
  | error grows alike within =>
      refine .error (.of_alike alike (List.forall_mem_append.2 ⟨?_, fun a member => ?_⟩))
      · exact fun a member => grows.keeps a (.root member)
      · obtain ⟨v, among, member⟩ := List.mem_flatMap.1 member
        exact Value.within_iff.1 (within v among) a member
  | outOfFuel => exact .outOfFuel

theorem reads_confined_assigner :
    (assigner .null).store.read? 2 ≠ (assigner .void).store.read? 2 ∧
      ¬ (assigner .void).Reaches [0] 2 ∧ Memory.AlikeFrom [0] (assigner .null) (assigner .void) ∧
      Outcome.AlikeFrom [0] (eval 4 (.apply (.ref "f") []) [⟨["f"], [0]⟩] (assigner .null))
        (eval 4 (.apply (.ref "f") []) [⟨["f"], [0]⟩] (assigner .void)) := by
  have alike : Memory.AlikeFrom [0] (assigner .null) (assigner .void) := by
    refine ⟨rfl, rfl, rfl, fun a reached => ?_⟩
    rcases reaches_assigner reached with rfl | rfl <;> rfl
  have unreached : ¬ (assigner .void).Reaches [0] 2 := fun reached => by
    simpa using reaches_assigner (alike.reaches_iff.1 reached)
  refine ⟨by simp [assigner, Store.read?], unreached, alike, ?_⟩
  exact reads_confined 4 (.apply (.ref "f") []) [⟨["f"], [0]⟩] alike

end StoreScheme
