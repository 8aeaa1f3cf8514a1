import StoreScheme.Proofs.Expr.Renaming
import StoreScheme.Proofs.Value.Translation

/-!
# Values with other names

Closures are the only values with variables in them: their parameters, their bodies and the frames of
the environments they captured.  Nothing that a primitive looks at depends on these, so a primitive
does the same to values under other names.

* `Value.rename`: a value with other names in its closures
* `Value.display_rename`: its text is the same as before
* `Primitive.apply_rename`: results and errors of a primitive
-/

namespace StoreScheme

def Frame.rename (ρ : Renaming) (fr : Frame) : Frame := ⟨fr.names.map ρ, fr.addresses⟩

def Env.rename (ρ : Renaming) (env : Env) : Env := env.map (Frame.rename ρ)

namespace Value

def rename (ρ : Renaming) : Value → Value
  | .pair id car cdr => .pair id (car.rename ρ) (cdr.rename ρ)
  | .closure id params body env =>
    .closure id (params.map ρ) (Expr.renameAll ρ body) (env.rename ρ)
  | v => v

variable (ρ : Renaming)

theorem rename_ofLiteral (l : Literal) : (ofLiteral l).rename ρ = ofLiteral l := by
  induction l with
  | pair id car cdr ihCar ihCdr => simp only [ofLiteral, rename, ihCar, ihCdr]
  | number _ | boolean _ | string _ | symbol _ | null => rfl

theorem rename_rename {σ : Renaming} (back : Function.LeftInverse σ ρ) (v : Value) :
    (v.rename ρ).rename σ = v := by
  induction v with
  | pair id car cdr ihCar ihCdr => simp only [rename, ihCar, ihCdr]
  | closure id params body env =>
      have names (names : List String) : (names.map ρ).map σ = names := by
        simp [Function.comp_def, back _]
      have frames : (env.rename ρ).rename σ = env := by
        simp [Env.rename, Frame.rename, Function.comp_def, back _]
      simp only [rename, names, Expr.renameAll_renameAll back body, frames]
  | void | number _ | boolean _ | string _ | symbol _ | null | primitive _ => rfl

/-! ## What does not depend on names -/

variable (v : Value)

theorem displayChars_rename (inList : Bool) :
    (v.rename ρ).displayChars inList = v.displayChars inList := by
  induction v generalizing inList with
  | pair id car cdr ihCar ihCdr => cases inList <;> simp only [rename, displayChars, ihCar, ihCdr]
  | closure _ _ _ _ => cases inList <;> rfl
  | void | number _ | boolean _ | string _ | symbol _ | null | primitive _ => rfl

theorem display_rename : (v.rename ρ).display = v.display := by
  rw [display, display, displayChars_rename]

theorem isTrue_rename : (v.rename ρ).isTrue = v.isTrue := by cases v <;> rfl

/-- Identities stay as they are. -/
def names (ρ : Renaming) : Translation := ⟨id, List.map ρ, Expr.renameAll ρ, Env.rename ρ⟩

theorem rename_eq_translate : v.rename ρ = v.translate (names ρ) := by
  induction v with
  | pair id car cdr ihCar ihCdr => exact congrArg₂ (Value.pair id) ihCar ihCdr
  | void | number _ | boolean _ | string _ | symbol _ | null | primitive _ | closure _ _ _ _ => rfl

end Value

/-! ## Primitives -/

namespace PrimitiveError

def rename (ρ : Renaming) : PrimitiveError → PrimitiveError
  | .wrongType op expected found => .wrongType op expected (found.rename ρ)
  | e => e

theorem message_rename (ρ : Renaming) (e : PrimitiveError) : (e.rename ρ).message = e.message := by
  cases e with
  | wrongType op expected found => simp only [rename, message, Value.display_rename]
  | wrongArity _ _ | arithmetic _ => rfl

end PrimitiveError

namespace Primitive

/-- A result with other names, given what these do to a value. -/
def renameResult {α : Type} (ρ : Renaming) (f : α → α) :
    Except PrimitiveError α → Except PrimitiveError α
  | .ok a => .ok (f a)
  | .error e => .error (e.rename ρ)

variable (ρ : Renaming)

theorem renameResult_eq_translateResult {α : Type} (f : α → α) :
    renameResult ρ f = translateResult (Value.names ρ) f := by
  funext result
  cases result with
  | ok a => rfl
  | error e =>
      cases e with
      | wrongType op expected found =>
          simp only [renameResult, PrimitiveError.rename, Value.rename_eq_translate]
          rfl
      | wrongArity _ _ | arithmetic _ => rfl

theorem apply_rename (op : Primitive) (args : List Value) (fresh : Identity) :
    op.apply (args.map (Value.rename ρ)) fresh =
      renameResult ρ (fun (v, next) => (v.rename ρ, next)) (op.apply args fresh) := by
  have same : Value.rename ρ = Value.translate (Value.names ρ) :=
    funext (Value.rename_eq_translate ρ)
  rw [renameResult_eq_translateResult, same]
  exact apply_translate op Function.injective_id args fun _ _ => rfl

end Primitive

end StoreScheme
