import Mathlib.Algebra.BigOperators.Group.List.Basic
import Mathlib.Algebra.GroupWithZero.Basic
import Mathlib.Algebra.Ring.Int.Defs
import StoreScheme.Proofs.Value.Closures

/-!
# Exact arithmetic

On integers, `+`, `-` and `*` are computed from left to right in 64 bits.  The result is the exact one
as long as nothing that comes up on the way leaves the range, and otherwise there is none.  A division
is exact as long as it comes out even.  A real operand makes the result real.

* `InRange64`: the integers that fit
* `Exact`: the result of `+`, `-` or `*`, given all that comes up on the way
* `MeetsMinusOne`, `Divided`: the result of `/`
* `fold_exact`, `fold_divided`, `fold_contagious`: left folds
* `arithmetic_exact`: the arithmetic primitives
-/

namespace StoreScheme

/-! ## Integers of 64 bits -/

def InRange64 (n : Int) : Prop := -2 ^ 63 ≤ n ∧ n < 2 ^ 63

theorem inRange64_toInt (n : Int64) : InRange64 n.toInt := ⟨n.le_toInt, n.toInt_lt⟩

theorem inRange64_iff {n : Int} :
    InRange64 n ↔ Int64.minValue.toInt ≤ n ∧ n ≤ Int64.maxValue.toInt := by
  rw [InRange64, Int64.toInt_minValue, Int64.toInt_maxValue]
  omega

namespace Number

theorem exact_of_inRange {n : Int} (fits : InRange64 n) :
    ∃ k : Int64, k.toInt = n ∧ exact n = .ok (.integer k) := by
  refine ⟨Int64.ofInt n, Int64.toInt_ofInt_of_le fits.1 fits.2, ?_⟩
  rw [exact, ofInt?, if_pos (inRange64_iff.1 fits)]

theorem exact_of_not_inRange {n : Int} (beyond : ¬ InRange64 n) : exact n = .error .overflow := by
  rw [exact, ofInt?, if_neg (mt inRange64_iff.2 beyond)]

end Number

/-! ## What is computed -/

abbrev Primitive.Result := Except PrimitiveError (Value × Identity)

def integers (ns : List Int64) : List Value := ns.map fun n => .number (.integer n)

/-- All that comes up from left to right, from the start to the result. -/
def partials (g : Int → Int → Int) (start : Int) (ns : List Int64) : List Int :=
  (ns.map Int64.toInt).scanl g start

structure Exact (fresh : Identity) (steps : List Int) (r : Int) (result : Primitive.Result) : Prop where
  value : (∀ p ∈ steps, InRange64 p) →
    ∃ k : Int64, k.toInt = r ∧ result = .ok (.number (.integer k), fresh)
  overflow : (∃ p ∈ steps, ¬ InRange64 p) → result = .error (.arithmetic .overflow)

/-- On the way from left to right, the least integer comes up as an exact quotient just before the
divisor `-1`, and no divisor up to there is zero. -/
inductive MeetsMinusOne : Int → List Int → Prop
  | here {divisors : List Int} : MeetsMinusOne (-2 ^ 63) (-1 :: divisors)
  | further {q d : Int} {divisors : List Int} : d ≠ 0 → MeetsMinusOne q divisors →
    MeetsMinusOne (q * d) (d :: divisors)

structure Divided (fresh : Identity) (n : Int) (divisors : List Int) (result : Primitive.Result) :
    Prop where
  overflow : result = .error (.arithmetic .overflow) ↔ MeetsMinusOne n divisors
  byZero : result = .error (.arithmetic .divisionByZero) ↔ ¬ MeetsMinusOne n divisors ∧ 0 ∈ divisors
  even : ∀ q : Int64, result = .ok (.number (.integer q), fresh) ↔
    ¬ MeetsMinusOne n divisors ∧ 0 ∉ divisors ∧ q.toInt * divisors.prod = n
  ends : ¬ MeetsMinusOne n divisors → 0 ∉ divisors → ∃ x, result = .ok (.number x, fresh)

/-! ## Quotients -/

section
variable {n d k : Int} {divisors : List Int}

theorem not_meetsMinusOne_nil : ¬ MeetsMinusOne n [] := nofun

theorem not_meetsMinusOne_zero : ¬ MeetsMinusOne n (0 :: divisors) := by
  rintro (_ | ⟨nonzero, -⟩)
  exact nonzero rfl

theorem MeetsMinusOne.dvd (meets : MeetsMinusOne n (d :: divisors)) : d ∣ n := by
  cases meets with
  | here => exact Int.neg_dvd.2 (one_dvd _)
  | further _ _ => exact Dvd.intro_left _ rfl

theorem meetsMinusOne_mul (nonzero : d ≠ 0) (other : ¬ (k * d = -2 ^ 63 ∧ d = -1)) :
    MeetsMinusOne (k * d) (d :: divisors) ↔ MeetsMinusOne k divisors := by
  constructor
  · intro meets
    generalize same : k * d = n at meets other
    cases meets with
    | here => exact absurd ⟨rfl, rfl⟩ other
    | further _ later => exact mul_right_cancel₀ nonzero same ▸ later
  · exact .further nonzero

theorem inRange64_of_mul (fits : InRange64 (k * d)) (nonzero : d ≠ 0)
    (other : ¬ (k * d = -2 ^ 63 ∧ d = -1)) : InRange64 k := by
  have smaller : k.natAbs ≤ (k * d).natAbs := by
    rw [Int.natAbs_mul]
    exact Nat.le_mul_of_pos_right _ (Int.natAbs_pos.2 nonzero)
  unfold InRange64 at fits ⊢
  -- Only `2 ^ 63` is left, and it times `d` is in the range for `d = -1` only.
  by_cases most : k = 2 ^ 63
  · subst most
    omega
  · omega

namespace Divided

variable {fresh : Identity} {result : Primitive.Result}

theorem overflowed (meets : MeetsMinusOne n divisors) :
    Divided fresh n divisors (.error (.arithmetic .overflow)) := by
  constructor <;> simp [meets]

theorem zero (apart : ¬ MeetsMinusOne n divisors) (member : 0 ∈ divisors) :
    Divided fresh n divisors (.error (.arithmetic .divisionByZero)) := by
  constructor <;> simp [apart, member]

theorem inexact (apart : ¬ MeetsMinusOne n divisors) (missing : 0 ∉ divisors) {x : Binary64}
    (uneven : ∀ q, q * divisors.prod ≠ n) :
    Divided fresh n divisors (.ok (.number (.real x), fresh)) := by
  constructor <;> simp [apart, missing, uneven]

theorem start (n : Int64) : Divided fresh n.toInt [] (.ok (.number (.integer n), fresh)) := by
  constructor <;> simp [not_meetsMinusOne_nil, Int64.toInt_inj, eq_comm]

theorem further (nonzero : d ≠ 0) (other : ¬ (k * d = -2 ^ 63 ∧ d = -1))
    (rest : Divided fresh k divisors result) : Divided fresh (k * d) (d :: divisors) result := by
  have meets : MeetsMinusOne (k * d) (d :: divisors) ↔ MeetsMinusOne k divisors :=
    meetsMinusOne_mul nonzero other
  have member : 0 ∈ d :: divisors ↔ 0 ∈ divisors := by simp [Ne.symm nonzero]
  have product (q : Int) : q * (d :: divisors).prod = k * d ↔ q * divisors.prod = k := by
    rw [List.prod_cons, mul_left_comm, mul_comm d]
    exact mul_left_inj' nonzero
  constructor
  · rw [rest.overflow, meets]
  · rw [rest.byZero, meets, member]
  · intro q
    rw [rest.even, meets, member, product]
  · rw [meets, member]
    exact rest.ends

end Divided

end

namespace Number

section
variable {a : Number} {n d : Int64}

theorem isZero_integer : (Number.integer d).isZero = true ↔ d.toInt = 0 := by
  rw [isZero, beq_iff_eq, ← Int64.toInt_inj]
  rfl

theorem div_zero (zero : d.toInt = 0) : div a (.integer d) = .error .divisionByZero := by
  unfold div
  rw [if_pos (isZero_integer.2 zero)]

theorem div_even {k : Int} (nonzero : d.toInt ≠ 0) (even : n.toInt = k * d.toInt) :
    div (.integer n) (.integer d) = exact k := by
  unfold div
  rw [if_neg (mt isZero_integer.1 nonzero)]
  simp only [even, Int.mul_tmod_left, if_true, Int.mul_tdiv_cancel _ nonzero]

theorem div_uneven (nonzero : d.toInt ≠ 0) (uneven : ¬ d.toInt ∣ n.toInt) :
    ∃ x, div (.integer n) (.integer d) = .ok (.real x) := by
  unfold div
  rw [if_neg (mt isZero_integer.1 nonzero)]
  simp only [mt Int.dvd_of_tmod_eq_zero uneven, if_false]
  exact ⟨_, rfl⟩

theorem div_real {x : Binary64} (nonzero : d.toInt ≠ 0) :
    ∃ y, div (.real x) (.integer d) = .ok (.real y) := by
  unfold div
  rw [if_neg (mt isZero_integer.1 nonzero)]
  exact ⟨_, rfl⟩

end

end Number

/-! ## Folds -/

namespace Primitive

variable (op : Primitive) (fresh : Identity)

def answer (result : Except PrimitiveError Number) : Result := result.map fun n => (.number n, fresh)

section
variable {f : Operation} {acc acc' : Number} {n : Int64} (ns : List Int64)

theorem fold_of_ok (computed : f acc (.integer n) = .ok acc') :
    op.fold f acc (integers (n :: ns)) = op.fold f acc' (integers ns) := by
  show (operate f acc (.integer n) >>= fun acc => op.fold f acc (integers ns)) = _
  rw [operate, computed]
  rfl

theorem fold_of_error {e : ArithmeticError} (failed : f acc (.integer n) = .error e) :
    op.fold f acc (integers (n :: ns)) = .error (.arithmetic e) := by
  show (operate f acc (.integer n) >>= fun acc => op.fold f acc (integers ns)) = _
  rw [operate, failed]
  rfl

end

theorem reduce_integers (f : Operation) (unit : Number) (n m : Int64) (ns : List Int64) :
    op.reduce f unit (integers (n :: m :: ns)) = op.fold f (.integer n) (integers (m :: ns)) := rfl

theorem fold_exact {f : Operation} {g : Int → Int → Int}
    (checked : ∀ a b, f (.integer a) (.integer b) = Number.exact (g a.toInt b.toInt)) (a : Int64)
    (ns : List Int64) :
    Exact fresh (partials g a.toInt ns) ((ns.map Int64.toInt).foldl g a.toInt)
      (answer fresh (op.fold f (.integer a) (integers ns))) := by
  induction ns generalizing a with
  | nil =>
      refine ⟨fun _ => ⟨a, rfl, rfl⟩, fun ⟨p, member, beyond⟩ => ?_⟩
      rw [partials, List.map_nil, List.scanl_nil, List.mem_singleton] at member
      exact absurd (member ▸ inRange64_toInt a) beyond
  | cons n ns ih =>
      have steps : partials g a.toInt (n :: ns) =
          a.toInt :: (ns.map Int64.toInt).scanl g (g a.toInt n.toInt) := List.scanl_cons
      rw [steps, List.map_cons, List.foldl_cons]
      by_cases fits : InRange64 (g a.toInt n.toInt)
      · obtain ⟨k, same, computed⟩ := Number.exact_of_inRange fits
        have rest := ih k
        rw [same] at rest
        rw [fold_of_ok op ns ((checked a n).trans computed)]
        refine ⟨fun all => rest.value fun p member => all p (List.mem_cons_of_mem _ member), ?_⟩
        rintro ⟨p, member, beyond⟩
        rcases List.mem_cons.1 member with rfl | later
        · exact absurd (inRange64_toInt a) beyond
        · exact rest.overflow ⟨p, later, beyond⟩
      · rw [fold_of_error op ns ((checked a n).trans (Number.exact_of_not_inRange fits))]
        refine ⟨fun all => absurd (all _ ?_) fits, fun _ => rfl⟩
        exact List.mem_cons_of_mem _ (List.mem_of_mem_head? (by simp))

/-- Once a quotient is real, only a zero ends the division. -/
theorem fold_div_real (x : Binary64) (ds : List Int64) :
    0 ∈ ds.map Int64.toInt ∧
        op.fold Number.div (.real x) (integers ds) = .error (.arithmetic .divisionByZero) ∨
      0 ∉ ds.map Int64.toInt ∧ ∃ y, op.fold Number.div (.real x) (integers ds) = .ok (.real y) := by
  induction ds generalizing x with
  | nil => exact .inr ⟨List.not_mem_nil, x, rfl⟩
  | cons d ds ih =>
      by_cases zero : d.toInt = 0
      · exact .inl ⟨by simp [zero], fold_of_error op ds (Number.div_zero zero)⟩
      · obtain ⟨y, computed⟩ := Number.div_real zero
        rw [fold_of_ok op ds computed, List.map_cons, List.mem_cons, or_iff_right (Ne.symm zero)]
        exact ih y

theorem fold_divided (n : Int64) (ds : List Int64) :
    Divided fresh n.toInt (ds.map Int64.toInt)
      (answer fresh (op.fold Number.div (.integer n) (integers ds))) := by
  induction ds generalizing n with
  | nil => exact .start n
  | cons d ds ih =>
      rw [List.map_cons]
      by_cases zero : d.toInt = 0
      · rw [fold_of_error op ds (Number.div_zero zero), zero]
        exact .zero not_meetsMinusOne_zero List.mem_cons_self
      by_cases even : d.toInt ∣ n.toInt
      · obtain ⟨k, same⟩ := exists_eq_mul_left_of_dvd even
        have computed := Number.div_even zero same
        by_cases least : n.toInt = -2 ^ 63 ∧ d.toInt = -1
        · have beyond : ¬ InRange64 k := by
            rw [least.1, least.2] at same
            unfold InRange64
            omega
          rw [fold_of_error op ds (computed.trans (Number.exact_of_not_inRange beyond)), least.1, least.2]
          exact .overflowed .here
        · rw [same] at least ⊢
          have fits : InRange64 k := inRange64_of_mul (same ▸ inRange64_toInt n) zero least
          obtain ⟨q, rfl, exact⟩ := Number.exact_of_inRange fits
          rw [fold_of_ok op ds (computed.trans exact)]
          exact (ih q).further zero least
      · obtain ⟨x, computed⟩ := Number.div_uneven zero even
        have apart : ¬ MeetsMinusOne n.toInt (d.toInt :: ds.map Int64.toInt) := mt MeetsMinusOne.dvd even
        have uneven : ∀ q, q * (d.toInt :: ds.map Int64.toInt).prod ≠ n.toInt := by
          intro q same
          rw [List.prod_cons, mul_left_comm] at same
          exact even (Dvd.intro _ same)
        rw [fold_of_ok op ds computed]
        rcases fold_div_real op x ds with ⟨member, failed⟩ | ⟨missing, y, ended⟩
        · rw [failed]
          exact .zero apart (List.mem_cons_of_mem _ member)
        · rw [ended]
          exact .inexact apart (by simp [Ne.symm zero, missing]) uneven

/-! ## Reals -/

/-- An operation that has a real result whenever one of the numbers is real. -/
def Contagious (f : Operation) : Prop :=
  ∀ a b c, f a b = .ok c → (∃ x, a = .real x) ∨ (∃ x, b = .real x) → ∃ x, c = .real x

theorem contagious_of {f : Operation} (left : ∀ x b, ∃ y, f (.real x) b = .ok (.real y))
    (right : ∀ a x, ∃ y, f a (.real x) = .ok (.real y)) : Contagious f := by
  rintro a b c computed (⟨x, rfl⟩ | ⟨x, rfl⟩)
  · obtain ⟨y, result⟩ := left x b
    exact ⟨y, Except.ok.inj (computed.symm.trans result)⟩
  · obtain ⟨y, result⟩ := right a x
    exact ⟨y, Except.ok.inj (computed.symm.trans result)⟩

theorem contagious_add : Contagious Number.add :=
  contagious_of (fun _ _ => ⟨_, rfl⟩) fun a _ => by cases a <;> exact ⟨_, rfl⟩

theorem contagious_sub : Contagious Number.sub :=
  contagious_of (fun _ _ => ⟨_, rfl⟩) fun a _ => by cases a <;> exact ⟨_, rfl⟩

theorem contagious_mul : Contagious Number.mul :=
  contagious_of (fun _ _ => ⟨_, rfl⟩) fun a _ => by cases a <;> exact ⟨_, rfl⟩

theorem contagious_div : Contagious Number.div := by
  intro a b c computed real
  unfold Number.div at computed
  split at computed
  · cases computed
  · split at computed
    · rcases real with ⟨x, ⟨⟩⟩ | ⟨x, ⟨⟩⟩
    · cases computed
      exact ⟨_, rfl⟩

theorem fold_ok {f : Operation} {acc n : Number} {v : Value} {args : List Value}
    (folded : op.fold f acc (v :: args) = .ok n) :
    ∃ m acc', v = .number m ∧ f acc m = .ok acc' ∧ op.fold f acc' args = .ok n := by
  cases v with
  | number m =>
      change (operate f acc m >>= fun acc => op.fold f acc args) = .ok n at folded
      unfold operate at folded
      cases computed : f acc m with
      | ok acc' =>
          rw [computed] at folded
          exact ⟨m, acc', rfl, computed, folded⟩
      | error e =>
          rw [computed] at folded
          cases folded
  | _ => cases folded

theorem fold_contagious {f : Operation} (contagious : Contagious f) {acc n : Number} {args : List Value}
    (real : (∃ x, acc = .real x) ∨ ∃ x, .number (.real x) ∈ args)
    (folded : op.fold f acc args = .ok n) : ∃ x, n = .real x := by
  induction args generalizing acc with
  | nil =>
      cases folded
      simpa using real
  | cons v args ih =>
      obtain ⟨m, acc', rfl, computed, rest⟩ := fold_ok op folded
      refine ih ?_ rest
      rcases real with isReal | ⟨x, member⟩
      · exact .inl (contagious _ _ _ computed (.inl isReal))
      · rcases List.mem_cons.1 member with same | later
        · exact .inl (contagious _ _ _ computed (.inr ⟨x, (Value.number.inj same).symm⟩))
        · exact .inr ⟨x, later⟩

theorem reduce_contagious {f : Operation} (contagious : Contagious f) {unit n : Number}
    {args : List Value} (real : ∃ x, .number (.real x) ∈ args)
    (reduced : op.reduce f unit args = .ok n) : ∃ x, n = .real x := by
  match args with
  | [] => simp at real
  | [v] => exact fold_contagious op contagious (.inr real) reduced
  | v :: w :: args =>
      cases v with
      | number m =>
          refine fold_contagious op contagious ?_ reduced
          obtain ⟨x, member⟩ := real
          rcases List.mem_cons.1 member with same | later
          · exact .inl ⟨x, (Value.number.inj same).symm⟩
          · exact .inr ⟨x, later⟩
      | _ => cases reduced

/-! ## The primitives -/

theorem answer_eq (result : Except PrimitiveError Number) :
    (result.map Value.number).map (·, fresh) = answer fresh result := by
  cases result <;> rfl

theorem apply_of_accepts {args : List Value} (makesPair : op ≠ .cons)
    (makesList : op ≠ .list) (accepted : op.arity.accepts args.length = true) :
    op.apply args fresh = (op.compute args).map (·, fresh) := by
  unfold apply
  rw [if_pos accepted]
  cases op <;> first | rfl | contradiction

section
variable {args : List Value}

theorem apply_add : add.apply args fresh = answer fresh (add.fold Number.add (.integer 0) args) := by
  rw [apply_of_accepts add fresh nofun nofun (decide_eq_true (Nat.zero_le args.length)), ← answer_eq]
  rfl

theorem apply_mul : mul.apply args fresh = answer fresh (mul.fold Number.mul (.integer 1) args) := by
  rw [apply_of_accepts mul fresh nofun nofun (decide_eq_true (Nat.zero_le args.length)), ← answer_eq]
  rfl

variable (nonempty : args ≠ [])
include nonempty

theorem apply_sub : sub.apply args fresh = answer fresh (sub.reduce Number.sub (.integer 0) args) := by
  have accepted : sub.arity.accepts args.length = true := decide_eq_true (List.length_pos_iff.2 nonempty)
  rw [apply_of_accepts sub fresh nofun nofun accepted, ← answer_eq]
  rfl

theorem apply_div : div.apply args fresh = answer fresh (div.reduce Number.div (.integer 1) args) := by
  have accepted : div.arity.accepts args.length = true := decide_eq_true (List.length_pos_iff.2 nonempty)
  rw [apply_of_accepts div fresh nofun nofun accepted, ← answer_eq]
  rfl

end

theorem real_of_answer {result : Except PrimitiveError Number} {v : Value} {next : Identity}
    (real : ∀ n, result = .ok n → ∃ x, n = .real x) (answered : answer fresh result = .ok (v, next)) :
    ∃ x, v = .number (.real x) := by
  obtain ⟨n, computed, ⟨⟩⟩ := map_eq_ok.1 answered
  obtain ⟨x, rfl⟩ := real n computed
  exact ⟨x, rfl⟩

end Primitive

theorem toInt_one : (1 : Int64).toInt = 1 := by decide

theorem foldl_sub (n : Int) (ms : List Int) : ms.foldl (· - ·) n = n - ms.sum := by
  induction ms generalizing n with
  | nil => simp
  | cons m ms ih => rw [List.foldl_cons, ih, List.sum_cons, Int.sub_sub]

open Primitive in
/-- Sums, differences and products of integers are exact or overflow, quotients that are integers are
exact, and a real operand makes every result real. -/
theorem arithmetic_exact (fresh : Identity) :
    (∀ ns, Exact fresh (partials (· + ·) 0 ns) (ns.map Int64.toInt).sum
      (Primitive.add.apply (integers ns) fresh)) ∧
    (∀ ns, Exact fresh (partials (· * ·) 1 ns) (ns.map Int64.toInt).prod
      (Primitive.mul.apply (integers ns) fresh)) ∧
    (∀ n, Exact fresh (partials (· - ·) 0 [n]) (0 - n.toInt)
      (Primitive.sub.apply (integers [n]) fresh)) ∧
    (∀ n m ns, Exact fresh (partials (· - ·) n.toInt (m :: ns))
      (n.toInt - ((m :: ns).map Int64.toInt).sum)
      (Primitive.sub.apply (integers (n :: m :: ns)) fresh)) ∧
    (∀ n, Divided fresh 1 [n.toInt] (Primitive.div.apply (integers [n]) fresh)) ∧
    (∀ n m ns, Divided fresh n.toInt ((m :: ns).map Int64.toInt)
      (Primitive.div.apply (integers (n :: m :: ns)) fresh)) ∧
    ∀ op ∈ [Primitive.add, .sub, .mul, .div], ∀ args x v next, .number (.real x) ∈ args →
      op.apply args fresh = .ok (v, next) → ∃ y, v = .number (.real y) := by
  refine ⟨fun ns => ?_, fun ns => ?_, fun n => ?_, fun n m ns => ?_, fun n => ?_, fun n m ns => ?_, ?_⟩
  · have folded := fold_exact .add fresh (f := Number.add) (g := (· + ·)) (fun _ _ => rfl) 0 ns
    rwa [Int64.toInt_zero, ← List.sum_eq_foldl, ← apply_add] at folded
  · have folded := fold_exact .mul fresh (f := Number.mul) (g := (· * ·)) (fun _ _ => rfl) 1 ns
    rwa [toInt_one, ← List.prod_eq_foldl, ← apply_mul] at folded
  · have folded := fold_exact .sub fresh (f := Number.sub) (g := (· - ·)) (fun _ _ => rfl) 0 [n]
    rw [Int64.toInt_zero] at folded
    rw [apply_sub fresh (by simp [integers])]
    exact folded
  · rw [apply_sub fresh (by simp [integers]), reduce_integers, ← foldl_sub]
    exact fold_exact .sub fresh (fun _ _ => rfl) n (m :: ns)
  · have folded := fold_divided .div fresh 1 [n]
    rw [toInt_one] at folded
    rw [apply_div fresh (by simp [integers])]
    exact folded
  · rw [apply_div fresh (by simp [integers]), reduce_integers]
    exact fold_divided .div fresh n (m :: ns)
  · intro op arithmetic args x v next member applied
    have nonempty : args ≠ [] := List.ne_nil_of_mem member
    simp only [List.mem_cons, List.not_mem_nil, or_false] at arithmetic
    rcases arithmetic with rfl | rfl | rfl | rfl
    · rw [apply_add] at applied
      exact real_of_answer fresh (fun _ => fold_contagious _ contagious_add (.inr ⟨x, member⟩)) applied
    · rw [apply_sub fresh nonempty] at applied
      exact real_of_answer fresh (fun _ => reduce_contagious _ contagious_sub ⟨x, member⟩) applied
    · rw [apply_mul] at applied
      exact real_of_answer fresh (fun _ => fold_contagious _ contagious_mul (.inr ⟨x, member⟩)) applied
    · rw [apply_div fresh nonempty] at applied
      exact real_of_answer fresh (fun _ => reduce_contagious _ contagious_div ⟨x, member⟩) applied

-- A sum that a later operand would bring back, the least integer before a zero, and a NaN.
theorem arithmetic_exact_on_the_way :
    Primitive.add.apply (integers [Int64.maxValue, 1, -1]) 0 = .error (.arithmetic .overflow) ∧
      Primitive.div.apply (integers [Int64.minValue, 1, -1, 0]) 0 = .error (.arithmetic .overflow) ∧
      ∃ y, Primitive.sub.apply [.number (.real .nan), .number (.integer 3)] 0 =
        .ok (.number (.real y), 0) := by
  obtain ⟨sums, -, -, -, -, quotients, reals⟩ := arithmetic_exact 0
  have most : ((2 : Int) ^ 63) ∈ partials (· + ·) 0 [Int64.maxValue, 1, -1] := by decide
  have meets : MeetsMinusOne (-2 ^ 63 * 1) [1, -1, 0] := .further (by decide) .here
  refine ⟨(sums _).overflow ⟨_, most, by unfold InRange64; omega⟩, (quotients _ _ _).overflow.2 meets, ?_⟩
  have applied : Primitive.sub.apply [.number (.real .nan), .number (.integer 3)] 0 =
      .ok (.number (.real .nan), 0) := rfl
  obtain ⟨y, same⟩ := reals .sub (by simp) _ .nan _ 0 (by simp) applied
  exact ⟨y, same ▸ applied⟩

end StoreScheme
