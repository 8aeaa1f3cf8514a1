import Mathlib
import StoreScheme.Proofs.Eval.Renaming

/-!
# Names do not matter

Variables may be given any other names, as long as different ones stay different: in the expression,
in its environment, among the global names and in all closures of the store.  Evaluation then ends
exactly when it did before, with the same value or the same error, and leaves the same cells.

* `Memory.SameUnder`, `Outcome.SameUnder`: the same but for the names
* `eval_rename`: evaluation under other names
-/

namespace StoreScheme

/-- Two memories that differ in nothing but names. -/
structure Memory.SameUnder (ρ : Renaming) (m n : Memory) : Prop where
  renamed : n = m.rename ρ
  size : n.store.size = m.store.size
  cells : ∀ a, n.store.read? a = (m.store.read? a).map (Value.rename ρ)
  globals : ∀ name, n.globals.lookup? (ρ name) = m.globals.lookup? name

/-- Two evaluations that both end, with values that are written alike or errors that say the same, or
both do not end.  Only the error about an unbound variable shows a name. -/
inductive Outcome.SameUnder (ρ : Renaming) : Outcome Value → Outcome Value → Prop
  | value {v w : Value} {m n : Memory} : w = v.rename ρ → w.display = v.display → m.SameUnder ρ n →
    SameUnder ρ (.value v m) (.value w n)
  | unbound {name : String} {m n : Memory} : m.SameUnder ρ n →
    SameUnder ρ (.error (.unboundVariable name) m) (.error (.unboundVariable (ρ name)) n)
  | error {e e' : EvalError} {m n : Memory} : (∀ name, e ≠ .unboundVariable name) →
    e' = e.rename ρ → e'.message = e.message → m.SameUnder ρ n → SameUnder ρ (.error e m) (.error e' n)
  | outOfFuel : SameUnder ρ .outOfFuel .outOfFuel

theorem EvalError.message_rename (ρ : Renaming) {e : EvalError} (bound : ∀ name, e ≠ .unboundVariable name) :
    (e.rename ρ).message = e.message := by
  cases e with
  | unboundVariable name => exact absurd rfl (bound name)
  | badProcedure v =>
      change s!"bad procedure: {(v.rename ρ).display}" = s!"bad procedure: {v.display}"
      rw [Value.display_rename]
  | primitive e => exact e.message_rename ρ
  | outOfBounds _ | emptyProgram | arityMismatch _ _ => simp only [rename]

section
variable {ρ : Renaming} (injective : Function.Injective ρ)
include injective

theorem Memory.sameUnder_rename (m : Memory) : m.SameUnder ρ (m.rename ρ) where
  renamed := rfl
  size := m.store.size_rename ρ
  cells := m.store.read?_rename ρ
  globals := Globals.lookup?_rename injective m.globals

theorem Outcome.sameUnder_rename (o : Outcome Value) : o.SameUnder ρ (o.rename ρ (Value.rename ρ)) := by
  cases o with
  | value v m => exact .value rfl (v.display_rename ρ) (m.sameUnder_rename injective)
  | outOfFuel => exact .outOfFuel
  | error e m =>
      have memory := m.sameUnder_rename injective
      have other (bound : ∀ name, e ≠ .unboundVariable name) :
          SameUnder ρ (.error e m) (.error (e.rename ρ) (m.rename ρ)) :=
        .error bound rfl (e.message_rename ρ bound) memory
      cases e with
      | unboundVariable name => exact .unbound memory
      | _ => exact other fun name same => nomatch same

end

theorem eval_rename {ρ : Renaming} (injective : Function.Injective ρ) (fuel : Nat) (e : Expr) (env : Env)
    (m : Memory) :
    Outcome.SameUnder ρ (eval fuel e env m) (eval fuel (e.rename ρ) (env.rename ρ) (m.rename ρ)) := by
  rw [eval_renamed injective fuel e env m]
  exact Outcome.sameUnder_rename injective _

def swapped (name : String) : String :=
  if name = "x" then "y" else if name = "y" then "x" else name

theorem swapped_injective : Function.Injective swapped := by
  have twice (name : String) : swapped (swapped name) = name := by
    by_cases x : name = "x"
    · simp [swapped, x]
    · by_cases y : name = "y" <;> simp [swapped, x, y]
  intro a b same
  rw [← twice a, same, twice b]

/-- A closure with the parameter `y` is assigned to the global variable `x`, before `y` turns out not
to be bound outside of it. -/
def captureAndFail : Expr :=
  .letIn ["z"] [.boolean true] [.assign "x" (.lambda ["y"] [.ref "z"]), .ref "y"]

def oneGlobal (name : String) : Memory := { store := ⟨#[.null]⟩, globals := ⟨[(name, 0)]⟩ }

theorem eval_rename_swapped :
    Function.Injective swapped ∧ (oneGlobal "x").rename swapped = oneGlobal "y" ∧
      Outcome.SameUnder swapped (eval 4 captureAndFail [] (oneGlobal "x"))
        (eval 4 (captureAndFail.rename swapped) [] (oneGlobal "y")) ∧
      eval 4 (captureAndFail.rename swapped) [] (oneGlobal "y") = .error (.unboundVariable "x") {
        store := ⟨#[.closure 0 ["x"] [.ref "z"] [⟨["z"], [1]⟩], .boolean true]⟩
        globals := ⟨[("y", 0)]⟩
        fresh := 1 } := by
  have memory : (oneGlobal "x").rename swapped = oneGlobal "y" := by cbv
  refine ⟨swapped_injective, memory, ?_, by cbv⟩
  rw [← memory]
  exact eval_rename swapped_injective 4 captureAndFail [] (oneGlobal "x")

end StoreScheme
