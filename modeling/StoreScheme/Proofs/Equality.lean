import StoreScheme.Proofs.ReadBack
import StoreScheme.Proofs.Session.Identities

/-!
# Equality of values

Equality takes the same pair to be equal to itself without looking at what it holds.  A pair that holds
NaN is equal to itself in this way, but not to another pair with the same contents, so what is shared
matters there.  Within one session it is an equivalence all the same, except for NaN itself, and where
there is no NaN it does not depend on what is shared.

* `Coherent`: values among which an identity stands for one of them only
* `History.Reached.coherent`: the values of a session are coherent
* `Value.Same`: structural equality, whatever is shared
* `Value.HasNaN`: NaN as a number or inside pairs
* `equality_laws`: the laws of `equal` and `eqv`
-/

namespace StoreScheme

def Value.identity? : Value → Option Identity
  | .pair id _ _ => some id
  | .closure id _ _ _ => some id
  | _ => none

/-- Values, with all that their pairs hold, among which an identity stands for one of them only. -/
structure Coherent (S : Value → Prop) : Prop where
  car : ∀ {id v w}, S (.pair id v w) → S v
  cdr : ∀ {id v w}, S (.pair id v w) → S w
  unique : ∀ {u v id}, S u → S v → u.identity? = some id → v.identity? = some id → u = v

theorem Value.Known.has {L : Ledger} {v : Value} {id : Identity} (known : v.Known L)
    (identity : v.identity? = some id) : L.Has id v := by
  cases v with
  | pair | closure =>
      cases identity
      exact known.1
  | _ => cases identity

theorem History.Reached.coherent {h : History} (reached : h.Reached) : Coherent h.Holds where
  car := .car
  cdr := .cdr
  unique {u v id} heldU heldV identityU identityV := by
    obtain ⟨L, known⟩ := reached.known
    have first := (known.holds heldU).has identityU
    have second := (known.holds heldV).has identityV
    exact Option.some.inj (first.symm.trans second)

/-! ## Numbers -/

theorem Binary64.eq_iff {x y : Binary64} :
    x.eq y = true ↔ ∃ key, x.orderKey = some key ∧ y.orderKey = some key := by
  unfold eq
  cases x.orderKey with
  | none => simp
  | some k =>
      cases y.orderKey with
      | none => simp
      | some l => simpa using eq_comm

theorem Binary64.eq_symm {x y : Binary64} (equal : x.eq y = true) : y.eq x = true := by
  obtain ⟨key, first, second⟩ := eq_iff.1 equal
  exact eq_iff.2 ⟨key, second, first⟩

theorem Binary64.eq_trans {x y z : Binary64} (first : x.eq y = true) (second : y.eq z = true) :
    x.eq z = true := by
  obtain ⟨key, left, middle⟩ := eq_iff.1 first
  obtain ⟨key', middle', right⟩ := eq_iff.1 second
  cases middle.symm.trans middle'
  exact eq_iff.2 ⟨key, left, right⟩

theorem Number.same_iff {a b : Number} : a.same b = true ↔
    (∃ n, a = .integer n ∧ b = .integer n) ∨
      ∃ x y, a = .real x ∧ b = .real y ∧ x.eq y = true := by
  cases a with
  | real x => cases b <;> simp [same]
  | integer n =>
      cases b with
      | real y => simp [same]
      | integer k => simpa [same] using eq_comm

theorem Number.same_symm {a b : Number} (same : a.same b = true) : b.same a = true := by
  rcases same_iff.1 same with ⟨n, rfl, rfl⟩ | ⟨x, y, rfl, rfl, equal⟩
  · exact same
  · exact Binary64.eq_symm equal

theorem Number.same_trans {a b c : Number} (first : a.same b = true) (second : b.same c = true) :
    a.same c = true := by
  rcases same_iff.1 first with ⟨n, rfl, rfl⟩ | ⟨x, y, rfl, rfl, equal⟩
  · exact second
  · obtain ⟨_, ⟨⟩, -⟩ | ⟨_, z, ⟨⟩, rfl, equal'⟩ := same_iff.1 second
    exact Binary64.eq_trans equal equal'

namespace Value

/-- The same shape with the same closures and with atoms that are equal: integers to integers and
reals to reals. -/
inductive Same : Value → Value → Prop
  | void : Same .void .void
  | integer (n : Int64) : Same (.number (.integer n)) (.number (.integer n))
  | real {x y : Binary64} : x.eq y = true → Same (.number (.real x)) (.number (.real y))
  | boolean (b : Bool) : Same (.boolean b) (.boolean b)
  | string (s : String) : Same (.string s) (.string s)
  | symbol (name : String) : Same (.symbol name) (.symbol name)
  | null : Same .null .null
  | primitive (p : Primitive) : Same (.primitive p) (.primitive p)
  | closure (id : Identity) (params : List String) (body : List Expr) (env : Env) :
    Same (.closure id params body env) (.closure id params body env)
  | pair {i j : Identity} {a b c d : Value} : Same a b → Same c d → Same (.pair i a c) (.pair j b d)

def HasNaN : Value → Prop
  | .number n => n = .real .nan
  | .pair _ car cdr => car.HasNaN ∨ cdr.HasNaN
  | _ => False

/-! ## Laws that hold of all values -/

theorem equal_pair {i j : Identity} {a b c d : Value} :
    (Value.pair i a c).equal (.pair j b d) = true ↔ i = j ∨ a.equal b = true ∧ c.equal d = true := by
  simp [equal]

theorem equal_symm {v w : Value} (equals : v.equal w = true) : w.equal v = true := by
  induction v generalizing w with
  | pair i a c ihA ihC =>
      cases w with
      | pair j b d => exact equal_pair.2 ((equal_pair.1 equals).imp Eq.symm (And.imp ihA ihC))
      | _ => cases equals
  | number m =>
      cases w with
      | number n => exact Number.same_symm equals
      | _ => cases equals
  | void | boolean _ | string _ | symbol _ | null | primitive _ | closure _ _ _ _ =>
      cases w <;> simp_all [equal]

theorem equal_self_iff (v : Value) : v.equal v = true ↔ v ≠ .number (.real .nan) := by
  cases v with
  | number n =>
      refine ⟨?_, fun notNaN => Number.same_self fun same => notNaN (congrArg _ same)⟩
      intro equals same
      cases same
      cases equals
  | void | boolean _ | string _ | symbol _ | null | pair _ _ _ | primitive _ | closure _ _ _ _ =>
      simp [equal]

theorem equal_of_eqv {v w : Value} (eqv : v.eqv w = true) : v.equal w = true := by
  cases v <;> cases w <;> simp_all [Value.eqv, equal]

theorem Same.equal {v w : Value} (same : v.Same w) : v.equal w = true := by
  induction same with
  | pair _ _ ihA ihC => simp [Value.equal, ihA, ihC]
  | integer n => simp [Value.equal, Number.same]
  | real eq => exact eq
  | void | null => rfl
  | boolean _ | string _ | symbol _ | primitive _ | closure _ _ _ _ => simp [Value.equal]

theorem same_self {v : Value} (noNaN : ¬ v.HasNaN) : v.Same v := by
  induction v with
  | number n =>
      cases n with
      | integer n => exact .integer n
      | real x => exact .real (Number.same_self noNaN)
  | pair i a c ihA ihC => exact .pair (ihA fun h => noNaN (.inl h)) (ihC fun h => noNaN (.inr h))
  | void => exact .void
  | boolean b => exact .boolean b
  | string s => exact .string s
  | symbol name => exact .symbol name
  | null => exact .null
  | primitive p => exact .primitive p
  | closure id params body env => exact .closure id params body env

end Value

/-! ## Laws that hold of coherent values -/

namespace Coherent

variable {S : Value → Prop} (coherent : Coherent S) {u v w : Value}
include coherent

theorem eq_of_identity {i : Identity} {a b c d : Value} (left : S (.pair i a c)) (right : S (.pair i b d)) :
    Value.pair i a c = .pair i b d :=
  coherent.unique left right rfl rfl

/-- Where two of three pairs are the same, nothing has to be said about what they hold. -/
theorem equal_trans (inU : S u) (inV : S v) (inW : S w) (first : u.equal v = true)
    (second : v.equal w = true) : u.equal w = true := by
  induction u generalizing v w with
  | pair i a c ihA ihC =>
      cases v with
      | pair j b d =>
          cases w with
          | pair k e f =>
              rcases Value.equal_pair.1 first with rfl | ⟨firstCar, firstCdr⟩
              · rw [coherent.eq_of_identity inU inV]
                exact second
              · rcases Value.equal_pair.1 second with rfl | ⟨secondCar, secondCdr⟩
                · rw [← coherent.eq_of_identity inV inW]
                  exact first
                · refine Value.equal_pair.2 (.inr ⟨?_, ?_⟩)
                  · exact ihA (coherent.car inU) (coherent.car inV) (coherent.car inW) firstCar secondCar
                  · exact ihC (coherent.cdr inU) (coherent.cdr inV) (coherent.cdr inW) firstCdr secondCdr
          | _ => cases second
      | _ => cases first
  | number m =>
      cases v with
      | number n =>
          cases w with
          | number o => exact Number.same_trans first second
          | _ => cases second
      | _ => cases first
  | void | boolean _ | string _ | symbol _ | null | primitive _ | closure _ _ _ _ =>
      cases v <;> cases w <;> simp_all [Value.equal]

theorem same_of_equal (inV : S v) (inW : S w) (noNaN : ¬ v.HasNaN) (equals : v.equal w = true) :
    v.Same w := by
  induction v generalizing w with
  | pair i a c ihA ihC =>
      cases w with
      | pair j b d =>
          rcases Value.equal_pair.1 equals with rfl | ⟨cars, cdrs⟩
          · rw [← coherent.eq_of_identity inV inW]
            exact Value.same_self noNaN
          · refine .pair ?_ ?_
            · exact ihA (coherent.car inV) (coherent.car inW) (fun h => noNaN (.inl h)) cars
            · exact ihC (coherent.cdr inV) (coherent.cdr inW) (fun h => noNaN (.inr h)) cdrs
      | _ => cases equals
  | closure id params body env =>
      cases w with
      | closure j _ _ _ =>
          have identity : id = j := by simpa [Value.equal] using equals
          rw [← coherent.unique inV inW rfl (congrArg some identity.symm)]
          exact .closure id params body env
      | _ => cases equals
  | number m =>
      cases w with
      | number n =>
          rcases Number.same_iff.1 equals with ⟨k, rfl, rfl⟩ | ⟨x, y, rfl, rfl, equal⟩
          · exact .integer k
          · exact .real equal
      | _ => cases equals
  | void | boolean _ | string _ | symbol _ | null | primitive _ =>
      cases w <;> simp only [Value.equal, beq_iff_eq, reduceCtorEq] at equals
      all_goals first | (subst equals; exact Value.same_self noNaN) | exact Value.same_self noNaN

end Coherent

/-- The values of every session are coherent, and among coherent values equality is symmetric and
transitive, only NaN differs from itself, what is identical is equal, and values without NaN are equal
just when they are structurally equal. -/
theorem equality_laws :
    (∀ h : History, h.Reached → Coherent h.Holds) ∧
      ∀ S, Coherent S → ∀ u v w, S u → S v → S w →
        (u.equal v = true → v.equal u = true) ∧
        (u.equal v = true → v.equal w = true → u.equal w = true) ∧
        (u.equal u = true ↔ u ≠ .number (.real .nan)) ∧
        (u.eqv v = true → u.equal v = true) ∧
        (¬ u.HasNaN → ¬ v.HasNaN → (u.equal v = true ↔ u.Same v)) := by
  refine ⟨fun h reached => reached.coherent, fun S coherent u v w inU inV inW => ⟨?_, ?_, ?_, ?_, ?_⟩⟩
  · exact Value.equal_symm
  · exact coherent.equal_trans inU inV inW
  · exact u.equal_self_iff
  · exact Value.equal_of_eqv
  · intro noNaN _
    exact ⟨coherent.same_of_equal inU inV noNaN, Value.Same.equal⟩

-- Three lists with NaN in them, which are equal because of the tail that they share.
theorem equality_laws_shared_tail :
    ∃ h : History, h.Reached ∧ ∃ u v w, h.Holds u ∧ h.Holds v ∧ h.Holds w ∧
      u.display = "(1 +nan.0)" ∧ u.eqv v = false ∧ u.equal v = true ∧ v.eqv w = false ∧
      v.equal w = true ∧ u.equal w = true ∧ w.equal u = true := by
  let source := "(define t '(+nan.0)) (define u (cons 1 t)) (define v (cons 1 t)) (cons 1 t)"
  obtain ⟨h, reached, facts⟩ : ∃ h : History, h.Reached ∧
      ((h.session.memory.store.read? 1).bind fun u => (h.session.memory.store.read? 2).bind fun v =>
        h.values.head?.map fun w =>
          u.display == "(1 +nan.0)" && !u.eqv v && u.equal v && !v.eqv w && v.equal w) = some true :=
    ⟨History.ask { session := {} } 9 (.run source), .ask (.start {}) (.run source) trivial 9,
      by decide +kernel⟩
  obtain ⟨u, cellU, facts⟩ := Option.bind_eq_some_iff.1 facts
  obtain ⟨v, cellV, facts⟩ := Option.bind_eq_some_iff.1 facts
  obtain ⟨w, replied, facts⟩ := Option.map_eq_some_iff.1 facts
  simp only [Bool.and_eq_true, Bool.not_eq_true', beq_iff_eq] at facts
  obtain ⟨⟨⟨⟨shown, others⟩, first⟩, others'⟩, second⟩ := facts
  have heldU : h.Holds u := .cell cellU
  have heldV : h.Holds v := .cell cellV
  have heldW : h.Holds w := .replied (List.mem_of_head? replied)
  have coherent : Coherent h.Holds := equality_laws.1 h reached
  have third := (equality_laws.2 _ coherent _ _ _ heldU heldV heldW).2.1 first second
  have back := (equality_laws.2 _ coherent _ _ _ heldU heldW heldW).1 third
  exact ⟨h, reached, u, v, w, heldU, heldV, heldW, shown, others, first, others', second, third, back⟩

end StoreScheme
