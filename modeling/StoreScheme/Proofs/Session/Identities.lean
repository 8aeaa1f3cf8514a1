import StoreScheme.Proofs.Expr.Identities
import StoreScheme.Proofs.Session.History

/-!
# Identities along a session

Evaluation gives every pair and every closure that it makes an identity of its own, and it goes on from
the supply that building has left.  So there is one ledger for all that a session holds, whatever it was
asked to do.

* `Memory.Known`: the ledger of a memory, which knows all of its cells
* `Eval.Mints`: computations that put what they make into the ledger
* `eval_mints`, `Eval.apply_mints`, `Eval.forms_mints`: evaluation is such a computation
* `History.Reached.known`: the ledger of a history
-/

namespace StoreScheme

/-- The supply of identities starts at the end of the ledger. -/
structure Memory.Known (L : Ledger) (m : Memory) : Prop where
  fresh : m.fresh = L.length
  cells : ∀ a v, m.store.read? a = some v → v.Known L

/-! ## Computations -/

namespace Eval

/-- A computation ends with a larger ledger, which knows the memory and the result, or else the values
that the error shows. -/
def Mints {α : Type} (L : Ledger) (K : Ledger → α → Prop) (x : Eval α) : Prop :=
  ∀ m, m.Known L →
    match x m with
    | .value a n => ∃ M, L <+: M ∧ n.Known M ∧ K M a
    | .error e n => ∃ M, L <+: M ∧ n.Known M ∧ ∀ v ∈ e.values, v.Known M
    | .outOfFuel => True

variable {L : Ledger}

section
variable {α β : Type} {K : Ledger → α → Prop} {K' : Ledger → β → Prop}

theorem mints_pure {a : α} (known : K L a) : Mints L K (Pure.pure a : Eval α) :=
  fun _ memory => ⟨L, List.prefix_refl L, memory, known⟩

theorem mints_fail {e : EvalError} (known : ∀ v ∈ e.values, v.Known L) :
    Mints L K (fail e : Eval α) :=
  fun _ memory => ⟨L, List.prefix_refl L, memory, known⟩

theorem Mints.bind {x : Eval α} {f : α → Eval β} (first : Mints L K x)
    (rest : ∀ M a, L <+: M → K M a → Mints M K' (f a)) : Mints L K' (x >>= f) := by
  intro m memory
  have ended := first m memory
  change match Eval.bind x f m with | .value a n => _ | .error e n => _ | .outOfFuel => _
  unfold Eval.bind
  cases run : x m with
  | outOfFuel => trivial
  | error e n =>
      rw [run] at ended
      exact ended
  | value a n =>
      rw [run] at ended
      obtain ⟨M, grown, memory', known⟩ := ended
      have ended' := rest M a grown known n memory'
      dsimp only
      cases run' : f a n with
      | outOfFuel => trivial
      | value b n' | error e n' =>
          rw [run'] at ended'
          obtain ⟨N, grown', known'⟩ := ended'
          exact ⟨N, grown.trans grown', known'⟩

end

theorem lookup_mints (env : Env) (name : String) : Mints L (fun _ _ => True) (lookup env name) := by
  intro m memory
  unfold lookup
  cases env.lookup? m.globals name with
  | some address => exact ⟨L, List.prefix_refl L, memory, trivial⟩
  | none => exact ⟨L, List.prefix_refl L, memory, List.forall_mem_nil _⟩

theorem read_mints (a : Address) : Mints L (fun M v => v.Known M) (read a) := by
  intro m memory
  unfold read
  cases read : m.store.read? a with
  | some v => exact ⟨L, List.prefix_refl L, memory, memory.cells a v read⟩
  | none => exact ⟨L, List.prefix_refl L, memory, List.forall_mem_nil _⟩

theorem write_mints (a : Address) {v : Value} (known : v.Known L) :
    Mints L (fun _ _ => True) (write a v) := by
  intro m memory
  unfold write
  cases written : m.store.write? a v with
  | none => exact ⟨L, List.prefix_refl L, memory, List.forall_mem_nil _⟩
  | some store =>
      refine ⟨L, List.prefix_refl L, ⟨memory.fresh, fun b w read => ?_⟩, trivial⟩
      rw [show Store.read? _ b = _ from Store.read?_of_write? written b] at read
      split at read
      · cases read
        exact known
      · exact memory.cells b w read

theorem allocate_mints {vs : List Value} (known : ∀ v ∈ vs, v.Known L) :
    Mints L (fun _ _ => True) (allocate vs) := by
  intro m memory
  refine ⟨L, List.prefix_refl L, ⟨memory.fresh, fun a v read => ?_⟩, trivial⟩
  rcases Store.mem_of_read?_allocateAll read with old | new
  · exact memory.cells a v old
  · exact known v new

theorem close_mints {params : List String} {es : List Expr} {env : Env} (known : ∀ e ∈ es, e.Known L) :
    Mints L (fun M v => v.Known M) (close params es env) := by
  intro m memory
  have grown : L <+: L ++ [.closure L.length params es env] := List.prefix_append _ _
  refine ⟨_, grown, ⟨?_, fun a v read => (memory.cells a v read).mono grown⟩, ?_⟩
  · simp [memory.fresh]
  · rw [memory.fresh]
    exact ⟨L.has_new _, fun e member => (known e member).mono grown⟩

theorem primitive_mints (op : Primitive) {args : List Value} (known : ∀ v ∈ args, v.Known L) :
    Mints L (fun M v => v.Known M) (applyPrimitive op args) := by
  intro m memory
  unfold applyPrimitive
  rw [memory.fresh]
  cases result : op.apply args L.length with
  | ok result =>
      obtain ⟨M, grown, length, knownResult⟩ := Primitive.apply_known known result
      exact ⟨M, grown, ⟨length.symm, fun a v read => (memory.cells a v read).mono grown⟩, knownResult⟩
  | error e =>
      exact ⟨L, List.prefix_refl L, memory, fun v shown => known v (Primitive.apply_error result v shown)⟩

/-! ## Expressions -/

def Evaluator.Mints (ev : Evaluator) : Prop :=
  ∀ L e env, e.Known L → Eval.Mints L (fun M v => v.Known M) (ev e env)

section
variable {ev : Evaluator} (below : ev.Mints)
include below

theorem all_mints (env : Env) {es : List Expr} (known : ∀ e ∈ es, e.Known L) :
    Mints L (fun M vs => ∀ v ∈ vs, v.Known M) (all ev env es) := by
  induction es generalizing L with
  | nil => exact mints_pure (List.forall_mem_nil _)
  | cons e es ih =>
      obtain ⟨first, rest⟩ := List.forall_mem_cons.1 known
      refine (below L e env first).bind fun M v grown knownFirst => ?_
      refine (ih fun e member => (rest e member).mono grown).bind fun N vs grown' knownRest => ?_
      exact mints_pure (List.forall_mem_cons.2 ⟨knownFirst.mono grown', knownRest⟩)

theorem body_mints (env : Env) {es : List Expr} (known : ∀ e ∈ es, e.Known L) :
    Mints L (fun M v => v.Known M) (body ev env es) := by
  induction es generalizing L with
  | nil => exact mints_fail (List.forall_mem_nil _)
  | cons e es ih =>
      obtain ⟨first, rest⟩ := List.forall_mem_cons.1 known
      cases es with
      | nil => exact below L e env first
      | cons e' es =>
          exact (below L e env first).bind fun M _ grown _ => ih fun e member => (rest e member).mono grown

theorem bodyWith_mints (env : Env) (names : List String) {es : List Expr} {vs : List Value}
    (known : ∀ e ∈ es, e.Known L) (knownValues : ∀ v ∈ vs, v.Known L) :
    Mints L (fun M v => v.Known M) (bodyWith ev env names es vs) :=
  (allocate_mints knownValues).bind fun _ addresses grown _ =>
    body_mints below (⟨names, addresses⟩ :: env) fun e member => (known e member).mono grown

theorem apply_mints {procedure : Value} {args : List Value} (known : procedure.Known L)
    (knownArgs : ∀ v ∈ args, v.Known L) : Mints L (fun M v => v.Known M) (apply ev procedure args) := by
  cases procedure with
  | primitive op => exact primitive_mints op knownArgs
  | closure id params es env =>
      simp only [apply]
      split
      · exact bodyWith_mints below env params known.2 knownArgs
      · exact mints_fail (List.forall_mem_nil _)
  | _ => exact mints_fail fun v shown => List.mem_singleton.1 shown ▸ known

theorem step_mints : Evaluator.Mints (step ev) := by
  intro L e env known
  cases known with
  | number n => exact mints_pure trivial
  | boolean b => exact mints_pure trivial
  | string s => exact mints_pure trivial
  | literal known => exact mints_pure known.ofLiteral
  | primitive p => exact mints_pure trivial
  | ref name => exact (lookup_mints env name).bind fun M a _ _ => read_mints a
  | ifElse test consequent alternative =>
      refine (below L _ env test).bind fun M v grown _ => ?_
      split
      · exact below M _ env (Expr.Known.mono grown consequent)
      · split
        · exact below M _ env (Expr.Known.mono grown (alternative _ rfl))
        · exact mints_pure trivial
  | lambda body => exact close_mints body
  | letIn values body =>
      refine (all_mints below env values).bind fun M vs grown knownValues => ?_
      exact bodyWith_mints below env _ (fun e member => Expr.Known.mono grown (body e member)) knownValues
  | apply operator operands =>
      refine (below L _ env operator).bind fun M procedure grown knownProcedure => ?_
      refine (all_mints below env fun e member => Expr.Known.mono grown (operands e member)).bind ?_
      exact fun N args grown' knownArgs => apply_mints below (knownProcedure.mono grown') knownArgs
  | assign value =>
      refine (below L _ env value).bind fun M v _ knownValue => ?_
      refine (lookup_mints env _).bind fun N a grown' _ => ?_
      exact (write_mints a (knownValue.mono grown')).bind fun _ _ _ _ => mints_pure trivial

end

end Eval

theorem eval_mints (fuel : Nat) : Eval.Evaluator.Mints (eval fuel) := by
  induction fuel with
  | zero => exact fun _ _ _ _ _ _ => trivial
  | succ fuel ih => exact Eval.step_mints ih

/-! ## Forms -/

namespace Eval

variable {L : Ledger}

theorem define_mints (policy : RedefinePolicy) (name : String) {v : Value} (known : v.Known L) :
    Mints L (fun _ _ => True) (define policy name v) := by
  intro m memory
  refine ⟨L, List.prefix_refl L, ⟨memory.fresh, fun a w read => ?_⟩, trivial⟩
  change (m.store.allocate v).2.read? a = some w at read
  rw [Store.read?_allocate] at read
  split at read
  · cases read
    exact known
  · exact memory.cells a w read

theorem form_mints (fuel : Nat) (policy : RedefinePolicy) {x : Form} (known : x.Known L) :
    Mints L (fun M v => v.Known M) (form fuel policy x) := by
  cases x with
  | expr e => exact eval_mints fuel L e [] known
  | define name e =>
      refine (eval_mints fuel L e [] known).bind fun M v _ knownValue => ?_
      exact (define_mints policy name knownValue).bind fun _ _ _ _ => mints_pure trivial

theorem forms_mints (fuel : Nat) (policy : RedefinePolicy) {xs : List Form}
    (known : ∀ x ∈ xs, x.Known L) : Mints L (fun M v => v.Known M) (forms fuel policy xs) := by
  induction xs generalizing L with
  | nil => exact mints_fail (List.forall_mem_nil _)
  | cons x xs ih =>
      obtain ⟨knownFirst, rest⟩ := List.forall_mem_cons.1 known
      have first := form_mints fuel policy knownFirst
      cases xs with
      | cons y ys =>
          cases x <;> exact first.bind fun M _ grown _ => ih fun x member => (rest x member).mono grown
      | nil =>
          cases x with
          | expr e => exact first
          | define name e => exact first.bind fun _ _ _ _ => mints_fail (List.forall_mem_nil _)

end Eval

/-! ## Histories -/

/-- What a session has after a request and what it hands out are known. -/
structure Reply.Known (L : Ledger) (m : Memory) (reply : Reply) : Prop where
  memory : m.Known L
  values : ∀ v ∈ reply.newValues, v.Known L
  forms : ∀ x ∈ reply.newForms, x.Known L

namespace Session

variable {L : Ledger} {s t : Session}

theorem compute_known {x : Eval Value} {result : Except EvalError Value}
    (mints : Eval.Mints L (fun M v => v.Known M) x) (memory : s.memory.Known L)
    (computed : s.compute x = some (result, t)) :
    ∃ M, L <+: M ∧ (Reply.ofEval result).Known M t.memory := by
  have ended := mints s.memory memory
  unfold compute at computed
  cases run : x s.memory with
  | outOfFuel =>
      rw [run] at computed
      cases computed
  | value v n =>
      rw [run] at computed ended
      cases computed
      obtain ⟨M, grown, memory, known⟩ := ended
      exact ⟨M, grown, memory, fun w member => List.mem_singleton.1 member ▸ known, List.forall_mem_nil _⟩
  | error e n =>
      rw [run] at computed ended
      cases computed
      obtain ⟨M, grown, memory, known⟩ := ended
      exact ⟨M, grown, memory, known, List.forall_mem_nil _⟩

theorem read_known {source : String} {xs : List Form} (memory : s.memory.Known L)
    (read : s.read source = (.ok xs, t)) : ∃ M, L <+: M ∧ t.memory.Known M ∧ ∀ x ∈ xs, x.Known M := by
  unfold Session.read at read
  rw [memory.fresh] at read
  split at read
  · rename_i forms next built
    cases read
    obtain ⟨M, grown, length, known⟩ := readForms_known built
    exact ⟨M, grown, ⟨length.symm, fun a v read => (memory.cells a v read).mono grown⟩, known⟩
  · cases read

end Session

namespace History

structure Known (L : Ledger) (h : History) : Prop where
  memory : h.session.memory.Known L
  values : ∀ v ∈ h.values, v.Known L
  forms : ∀ x ∈ h.forms, x.Known L

variable {L : Ledger} {h : History}

theorem Known.holds {v : Value} (known : h.Known L) (held : h.Holds v) : v.Known L := by
  induction held with
  | replied member => exact known.values _ member
  | cell read => exact known.memory.cells _ _ read
  | car _ ih => exact ih.2.1
  | cdr _ ih => exact ih.2.2

theorem Known.serve {q : Request} {fuel : Nat} {reply : Reply} {s : Session} (known : h.Known L)
    (allowed : h.Allows q) (served : h.session.serve fuel q = some (reply, s)) :
    ∃ M, L <+: M ∧ reply.Known M s.memory := by
  -- A source that can not be read changes nothing and shows no values.
  have unread {source : String} {e : SourceError} {t : Session}
      (read : h.session.read source = (.error e, t)) : (Reply.error e).Known L t.memory := by
    obtain ⟨rfl, notEval⟩ := Invariant.read_error read
    refine ⟨known.memory, fun v member => ?_, List.forall_mem_nil _⟩
    cases e with
    | eval e' => exact absurd rfl (notEval e')
    | parse _ | form _ => exact absurd member List.not_mem_nil
  have computed {x : Eval Value} (mints : Eval.Mints L (fun M v => v.Known M) x)
      (served : (h.session.compute x).map (fun answer => (Reply.ofEval answer.1, answer.2)) =
        some (reply, s)) : ∃ M, L <+: M ∧ reply.Known M s.memory := by
    obtain ⟨⟨result, t⟩, ran, same⟩ := Option.map_eq_some_iff.1 served
    cases same
    exact Session.compute_known mints known.memory ran
  cases q with
  | read source =>
      simp only [Session.serve] at served
      split at served
      · rename_i xs t read
        cases served
        obtain ⟨M, grown, memory, forms⟩ := Session.read_known known.memory read
        exact ⟨M, grown, memory, List.forall_mem_nil _, forms⟩
      · rename_i e t read
        cases served
        exact ⟨L, List.prefix_refl L, unread read⟩
  | run source =>
      simp only [Session.serve, Session.run] at served
      split at served
      · rename_i e t read
        cases served
        exact ⟨L, List.prefix_refl L, unread read⟩
      · rename_i xs t read
        obtain ⟨M, grown, memory, forms⟩ := Session.read_known known.memory read
        obtain ⟨_, mapped, same⟩ := Option.map_eq_some_iff.1 served
        obtain ⟨⟨result, t'⟩, ran, rfl⟩ := Option.map_eq_some_iff.1 mapped
        obtain ⟨N, grown', replied⟩ := Session.compute_known (Eval.forms_mints fuel _ forms) memory ran
        cases same
        cases result <;> exact ⟨N, grown.trans grown', replied⟩
  | form x => exact computed (Eval.form_mints fuel _ (known.forms x allowed)) served
  | forms xs =>
      exact computed (Eval.forms_mints fuel _ fun x member => known.forms x (allowed x member)) served
  | apply procedure args =>
      have mints := Eval.apply_mints (eval_mints fuel) (known.holds allowed.1)
        fun v member => known.holds (allowed.2 v member)
      exact computed mints served

theorem Reached.known (reached : h.Reached) : ∃ L, h.Known L := by
  induction reached with
  | start options =>
      refine ⟨[], ⟨rfl, fun a v read => ?_⟩, List.forall_mem_nil _, List.forall_mem_nil _⟩
      exact absurd (Store.read?_eq_some_lt read) (Nat.not_lt_zero a)
  | @step h q fuel reply s _ allowed served ih =>
      obtain ⟨L, known⟩ := ih
      obtain ⟨M, grown, memory, values, forms⟩ := known.serve allowed served
      refine ⟨M, memory, fun v member => ?_, fun x member => ?_⟩
      · rcases List.mem_append.1 member with new | old
        · exact values v new
        · exact (known.values v old).mono grown
      · rcases List.mem_append.1 member with new | old
        · exact forms x new
        · exact (known.forms x old).mono grown

end History

end StoreScheme
