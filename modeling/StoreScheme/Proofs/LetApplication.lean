import StoreScheme.Proofs.Eval.Renumbering
import StoreScheme.Proofs.EvaluationRules
import StoreScheme.Proofs.Session.Identities

/-!
# `let` as an application

A `let` does what the application of a `lambda` with its names and its body to its values does.  The
application makes a closure, which the `let` does not, and applies it at once.  So all identities given
out after that are one further on, and there is no other difference.

* `Memory.Issued`: no identity that is still free occurs in a cell
* `History.Reached.issued`: this is so in every session
* `Renumbering.skip`: one identity is given to nothing
* `eval_apply_lambda`: the application goes on like the `let` when its closure is made
* `letIn_iff_apply`: both end in the same way
-/

namespace StoreScheme

/-! ## Free identities -/

def Memory.Issued (m : Memory) : Prop := ∀ a v, m.store.read? a = some v → v.Issued m.fresh

theorem History.Reached.issued {h : History} (reached : h.Reached) :
    h.session.memory.Issued ∧ ∀ x ∈ h.forms, x.root.Issued h.session.memory.fresh := by
  obtain ⟨L, known⟩ := reached.known
  rw [Memory.Issued, known.memory.fresh]
  constructor
  · exact fun a v read => (known.memory.cells a v read).issued
  · exact fun x member => (known.forms x member).imp fun _ _ => Ledger.Has.lt

namespace Renumbering

def skip (first : Identity) : Renumbering where
  identity i := if i < first then i else i + 1
  injective i j same := by grind
  first := first
  next i later := by grind

variable {first id : Identity}

theorem skip_of_lt (issued : id < first) : (skip first).identity id = id := if_pos issued

theorem skip_first : (skip first).identity first = first + 1 := if_neg (Nat.lt_irrefl first)

end Renumbering

section
open Renumbering
variable {first : Identity}

theorem Expr.Issued.renumber_skip {e : Expr} (issued : e.Issued first) : e.renumber (skip first) = e :=
  Expr.renumber_eq_self (issued.imp fun _ _ => skip_of_lt)

theorem Memory.Issued.renumber_skip {m : Memory} (issued : m.Issued) :
    m.renumber (skip m.fresh) = { m with fresh := m.fresh + 1 } := by
  have cells : m.store.cells.map (Value.renumber (skip m.fresh)) = m.store.cells := by
    rw [Array.map_congr_left (g := id), Array.map_id]
    intro v member
    obtain ⟨a, read⟩ := Array.mem_iff_getElem?.1 member
    exact Value.renumber_eq_self ((issued a v read).imp fun _ _ => skip_of_lt)
  rw [Memory.renumber, Store.map, cells, skip_first]

end

/-! ## The application goes on like the `let` -/

section
variable {names : List String} {values body : List Expr} {m n : Memory} (fuel : Nat) (env : Env)

theorem Eval.length_of_all {env : Env} {ev : Evaluator} {es : List Expr} {vs : List Value}
    (ended : all ev env es m = .value vs n) : vs.length = es.length := by
  induction es generalizing m n vs with
  | nil =>
      cases ended
      rfl
  | cons e es ih =>
      obtain ⟨v, k, -, rest⟩ | ⟨_, ⟨⟩, -⟩ := (bind_eq_of (r := .ok vs)).1 ended
      obtain ⟨vs', k', others, last⟩ | ⟨_, ⟨⟩, -⟩ := bind_eq_of.1 rest
      obtain ⟨⟨⟩, -⟩ := pure_eq_of.1 last
      exact congrArg Nat.succ (ih others)

-- There are as many arguments as values, so the closure accepts them.
theorem eval_apply_lambda (length : names.length = values.length) :
    eval (fuel + 2) (.apply (.lambda names body) values) env m =
      eval (fuel + 2) (.letIn names values body) env { m with fresh := m.fresh + 1 } := by
  show Eval.bind (Eval.all (eval (fuel + 1)) env values)
      (Eval.apply (eval (fuel + 1)) (.closure m.fresh names body env)) { m with fresh := m.fresh + 1 } =
    Eval.bind (Eval.all (eval (fuel + 1)) env values)
      (Eval.bodyWith (eval (fuel + 1)) env names body) { m with fresh := m.fresh + 1 }
  unfold Eval.bind
  cases run : Eval.all (eval (fuel + 1)) env values { m with fresh := m.fresh + 1 } with
  | value args n =>
      have accepted : names.length = args.length := length.trans (Eval.length_of_all run).symm
      simp only [Eval.apply, if_pos accepted]
  | error _ _ | outOfFuel => rfl

theorem eval_apply_renumbered (length : names.length = values.length) (memory : m.Issued)
    (issuedValues : ∀ e ∈ values, e.Issued m.fresh) (issuedBody : ∀ e ∈ body, e.Issued m.fresh) :
    eval (fuel + 2) (.apply (.lambda names body) values) env m =
      (eval (fuel + 2) (.letIn names values body) env m).renumber (.skip m.fresh)
        (Value.renumber (.skip m.fresh)) := by
  have issued : (Expr.letIn names values body).Issued m.fresh := .letIn issuedValues issuedBody
  obtain ⟨same, -⟩ := eval_renumbered (.skip m.fresh) (fuel + 2) (.letIn names values body) env m
    (Nat.le_refl m.fresh)
  rw [issued.renumber_skip, memory.renumber_skip] at same
  rw [eval_apply_lambda fuel env length, same]

end

theorem eval_further {fuel : Nat} {e : Expr} {env : Env} {m : Memory} {o : Outcome Value}
    (ended : o ≠ .outOfFuel) (run : eval fuel e env m = o) (extra : Nat) :
    eval (fuel + extra) e env m = o := by
  rcases eval_approximates fuel extra e env m with out | same
  · exact absurd (run.symm.trans out) ended
  · exact same.trans run

/-- Every session is in a state where the identities that are still free occur nowhere.  In any such
state, a `let` ends just when the application of the `lambda` ends, and then with the same value or the
same error, the same global names and the same store, up to a renumbering that leaves all identities
alone that were given out before. -/
theorem letIn_iff_apply :
    (∀ h : History, h.Reached →
      h.session.memory.Issued ∧ ∀ x ∈ h.forms, x.root.Issued h.session.memory.fresh) ∧
    ∀ (names : List String) (values body : List Expr) (env : Env) (m : Memory), m.Issued →
      names.length = values.length → (∀ e ∈ values, e.Issued m.fresh) → (∀ e ∈ body, e.Issued m.fresh) →
      ∃ π : Renumbering, (∀ id < m.fresh, π.identity id = id) ∧
        (∀ o, o ≠ .outOfFuel → (∃ fuel, eval fuel (.letIn names values body) env m = o) →
          ∃ fuel, eval fuel (.apply (.lambda names body) values) env m =
            o.renumber π (Value.renumber π)) ∧
        ∀ o', o' ≠ .outOfFuel →
          (∃ fuel, eval fuel (.apply (.lambda names body) values) env m = o') →
          ∃ o, o ≠ .outOfFuel ∧ o' = o.renumber π (Value.renumber π) ∧
            ∃ fuel, eval fuel (.letIn names values body) env m = o := by
  refine ⟨fun h reached => reached.issued, ?_⟩
  intro names values body env m memory length issuedValues issuedBody
  have same (fuel : Nat) := eval_apply_renumbered fuel env length memory issuedValues issuedBody
  refine ⟨.skip m.fresh, fun id => Renumbering.skip_of_lt, ?_, ?_⟩
  · rintro o ended ⟨fuel, run⟩
    exact ⟨fuel + 2, by rw [same, eval_further ended run]⟩
  · rintro o' ended ⟨fuel, run⟩
    have outcome := (same fuel).symm.trans (eval_further ended run 2)
    refine ⟨_, fun out => ended ?_, outcome.symm, fuel + 2, rfl⟩
    rw [← outcome, out]
    rfl

-- The pair and the closure that are made have other identities in the application, the old pair has not.
theorem letIn_iff_apply_new_pair :
    let m : Memory := { store := ⟨#[.pair 0 .null .null]⟩, globals := ⟨[("p", 0)]⟩, fresh := 1 }
    let pair : Expr := .apply (.primitive .cons) [.ref "p", .ref "p"]
    ∃ π : Renumbering, π.identity 0 = 0 ∧ ∃ fuel n,
      eval fuel (.apply (.lambda ["x"] [.lambda [] [.ref "x"]]) [pair]) [] m =
        .value (.closure (π.identity 2) [] [.ref "x"] [⟨["x"], [1]⟩]) n ∧
      n.store.read? 1 = some (.pair (π.identity 1) (.pair 0 .null .null) (.pair 0 .null .null)) ∧
      n.globals = m.globals := by
  intro m pair
  have memory : m.Issued := by
    intro a v read
    have position : a = 0 := Nat.lt_one_iff.1 (Store.read?_eq_some_lt read)
    subst position
    cases read
    exact ⟨Nat.zero_lt_one, trivial, trivial⟩
  have issuedValues : ∀ e ∈ [pair], e.Issued m.fresh := by
    refine List.forall_mem_singleton.2 (.apply (.primitive .cons) ?_)
    exact List.forall_mem_cons.2 ⟨.ref "p", List.forall_mem_singleton.2 (.ref "p")⟩
  have issuedBody : ∀ e ∈ [Expr.lambda [] [.ref "x"]], e.Issued m.fresh :=
    List.forall_mem_singleton.2 (.lambda (List.forall_mem_singleton.2 (.ref "x")))
  have ended : eval 3 (.letIn ["x"] [pair] [.lambda [] [.ref "x"]]) [] m =
      .value (.closure 2 [] [.ref "x"] [⟨["x"], [1]⟩]) { m with
        store := ⟨#[.pair 0 .null .null, .pair 1 (.pair 0 .null .null) (.pair 0 .null .null)]⟩
        fresh := 3 } := rfl
  obtain ⟨π, fixed, forward, -⟩ := letIn_iff_apply.2 ["x"] [pair] [.lambda [] [.ref "x"]] [] m memory rfl
    issuedValues issuedBody
  obtain ⟨fuel, run⟩ := forward _ (by nofun) ⟨3, ended⟩
  have old : π.identity 0 = 0 := fixed 0 Nat.zero_lt_one
  refine ⟨π, old, fuel, _, run, (Store.read?_map (Value.renumber π) _ 1).trans ?_, rfl⟩
  show some (Value.pair (π.identity 1) (.pair (π.identity 0) .null .null)
    (.pair (π.identity 0) .null .null)) = _
  rw [old]

end StoreScheme
