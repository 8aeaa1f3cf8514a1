import StoreScheme.Proofs.AddressSafety
import StoreScheme.Proofs.Expr.Reserved

/-!
# Hygiene

Whatever building accepts, at every depth of it names bound together differ, a `let` has one value for
each name, quoted data is plain data, and no name of a primitive or a keyword is defined, bound,
assigned or referred to.  This does not take a source without errors.

* `Value.IsData`: numbers, booleans, strings, symbols, the empty list and pairs of these
* `Expr.Contains`: the expressions inside an expression, itself included
* `Expr.Hygienic`, `Form.Hygienic`: the conditions
* `built_hygienic`: they hold of all that is built
-/

namespace StoreScheme

inductive Value.IsData : Value → Prop
  | number (n : Number) : IsData (.number n)
  | boolean (b : Bool) : IsData (.boolean b)
  | string (s : String) : IsData (.string s)
  | symbol (name : String) : IsData (.symbol name)
  | null : IsData .null
  | pair {id : Identity} {car cdr : Value} : IsData car → IsData cdr → IsData (.pair id car cdr)

theorem Value.isData_ofLiteral (l : Literal) : (ofLiteral l).IsData := by
  induction l with
  | number n => exact .number n
  | boolean b => exact .boolean b
  | string s => exact .string s
  | symbol name => exact .symbol name
  | null => exact .null
  | pair id car cdr ihCar ihCdr => exact .pair ihCar ihCdr

namespace Expr

inductive Contains : Expr → Expr → Prop
  | self (e : Expr) : Contains e e
  | part {e part inner : Expr} {names : Option (List String)} : (names, part) ∈ e.parts →
    Contains part inner → Contains e inner

/-- The conditions on one expression, not on its parts. -/
def Hygienic : Expr → Prop
  | .literal l => (Value.ofLiteral l).IsData
  | .ref name => Unreserved name
  | .assign name _ => Unreserved name
  | .lambda params _ => params.Nodup ∧ ∀ name ∈ params, Unreserved name
  | .letIn names values _ =>
    names.Nodup ∧ names.length = values.length ∧ ∀ name ∈ names, Unreserved name
  | _ => True

theorem WellFormed.hygienic {e : Expr} (wellFormed : e.WellFormed) : e.Hygienic := by
  cases wellFormed with
  | literal l => exact Value.isData_ofLiteral l
  | ref free => exact isReserved_eq_false_iff.1 free
  | assign free _ => exact isReserved_eq_false_iff.1 free
  | lambda names _ => exact ⟨names.nodup, fun name member => isReserved_eq_false_iff.1 (names.free name member)⟩
  | letIn names length _ _ =>
      exact ⟨names.nodup, length, fun name member => isReserved_eq_false_iff.1 (names.free name member)⟩
  | number | boolean | string | primitive | ifElse | apply => trivial

theorem WellFormed.contains {e inner : Expr} (wellFormed : e.WellFormed) (contains : e.Contains inner) :
    inner.WellFormed := by
  induction contains with
  | self => exact wellFormed
  | part member _ ih => exact ih (wellFormed.part member)

end Expr

/-- The conditions at every depth, and on the name that a definition gives. -/
structure Form.Hygienic (x : Form) : Prop where
  defined : ∀ name e, x = .define name e → Unreserved name
  inside : ∀ e, x.root.Contains e → e.Hygienic

theorem Form.WellFormed.hygienic {x : Form} (wellFormed : x.WellFormed) : x.Hygienic := by
  cases wellFormed with
  | define free root =>
      refine ⟨?_, fun e contains => (root.contains contains).hygienic⟩
      rintro _ _ ⟨⟩
      exact isReserved_eq_false_iff.1 free
  | expr root =>
      refine ⟨?_, fun e contains => (root.contains contains).hygienic⟩
      rintro _ _ ⟨⟩

/-- All forms built from the tree of a source, with errors in it or not, and all expressions built
from any datum are hygienic at every depth, whatever identifiers fold case. -/
theorem built_hygienic (source : String) (folds : Bool) (fresh : Identity) :
    (∀ xs next, (Form.ofTree folds (parse source).tree).run fresh = .ok (xs, next) →
      ∀ x ∈ xs, x.Hygienic) ∧
    ∀ f d e next, (Expr.ofDatum f d).run fresh = .ok (e, next) →
      ∀ inner, e.Contains inner → inner.Hygienic := by
  constructor
  · intro xs next built x member
    have wellFormed := (Form.ofTree_yields folds _ fresh xs next built).2 x member
    exact wellFormed.hygienic
  · intro f d e next built inner contains
    have wellFormed := (Expr.ofDatum_yields f d fresh e next built).2
    exact (wellFormed.contains contains).hygienic

-- The list is never closed, and the form is built all the same.
theorem built_hygienic_unclosed :
    (parse "(lambda (x) (let ((y '(z . 1))) (set! x y))").isOk = false ∧
      ∃ x next, (Form.ofTree true (parse "(lambda (x) (let ((y '(z . 1))) (set! x y))").tree).run 0 =
        .ok ([x], next) ∧ x.Hygienic := by
  have built : ((Form.ofTree true (parse "(lambda (x) (let ((y '(z . 1))) (set! x y))").tree).run
      0).toOption.map (fun built => built.1.length) = some 1 := by
    decide +kernel
  rcases run : (Form.ofTree true (parse "(lambda (x) (let ((y '(z . 1))) (set! x y))").tree).run 0 with
    e | ⟨xs, next⟩
  · rw [run] at built
    cases built
  · rw [run] at built
    obtain ⟨x, rfl⟩ := List.length_eq_one_iff.1 (Option.some.inj built)
    exact ⟨by decide +kernel, x, next, rfl, (built_hygienic _ true 0).1 _ _ run x (by simp)⟩

end StoreScheme
