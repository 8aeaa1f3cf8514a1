import StoreScheme.Proofs.Confinement
import StoreScheme.Session

/-!
# Redefinition policies

The policy of a session says what a second definition of a name does.  It has no other influence: up to
the first second definition, sessions under different policies take the same steps, with the same
results and the same memory after each.

* `Step`, `Session.steps`: what a session does when it is given sources, form by form
* `Step.defines?`: the name that a step has defined
* `Globals.Lacks`: names that can be defined one after the other without a second definition
* `Eval.form_eq`, `Eval.forms_eq`: forms that define new names only
* `steps_eq_before_redefinition`: the steps of two sessions
-/

namespace StoreScheme

/-! ## Steps -/

def Form.defined? : Form → Option String
  | .define name _ => some name
  | .expr _ => none

/-- A form was run, or a source as a whole was answered.  The memory after it is part of both, unless
the fuel ran out. -/
inductive Step
  | form (x : Form) (o : Outcome Value)
  | source (answer : Option (Except SourceError Value × Memory))

/-- A definition whose value fails defines nothing. -/
def Step.defines? : Step → Option String
  | .form x (.value _ _) => x.defined?
  | _ => none

def defined (steps : List Step) : List String := steps.filterMap Step.defines?

theorem defined_append (steps rest : List Step) :
    defined (steps ++ rest) = defined steps ++ defined rest :=
  List.filterMap_append

theorem defined_cons (step : Step) (rest : List Step) :
    defined (step :: rest) = defined [step] ++ defined rest :=
  defined_append [step] rest

/-- The forms of a source up to the first that has no value. -/
def Eval.steps (fuel : Nat) (policy : RedefinePolicy) : List Form → Memory → List Step
  | [], _ => []
  | x :: xs, m =>
    .form x (form fuel policy x m) ::
      match form fuel policy x m with
      | .value _ n => steps fuel policy xs n
      | _ => []

namespace Session

def formSteps (s : Session) (fuel : Nat) (source : String) : List Step :=
  match s.read source with
  | (.ok xs, s) => Eval.steps fuel s.options.redefine xs s.memory
  | (.error _, _) => []

def steps (fuel : Nat) : Session → List String → List Step
  | _, [] => []
  | s, source :: sources =>
    s.formSteps fuel source ++
      match s.run fuel source with
      | some (result, s) => .source (some (result, s.memory)) :: steps fuel s sources
      | none => [.source none]

end Session

/-! ## New names -/

/-- The names differ from each other, and none of them is defined yet. -/
structure Globals.Lacks (g : Globals) (names : List String) : Prop where
  nodup : names.Nodup
  missing : ∀ name ∈ names, g.lookup? name = none

namespace Globals

variable {g : Globals} {name : String} {names more : List String}

theorem define_of_missing (missing : g.lookup? name = none) (policy : RedefinePolicy) (a : Address) :
    g.define policy name a = ⟨g.entries ++ [(name, a)]⟩ := by
  rw [define, missing, if_neg (by simp)]

theorem Lacks.left (lacks : g.Lacks (names ++ more)) : g.Lacks names where
  nodup := (List.nodup_append.1 lacks.nodup).1
  missing _ member := lacks.missing _ (List.mem_append_left _ member)

theorem Lacks.define (lacks : g.Lacks (name :: names)) (policy : RedefinePolicy) (a : Address) :
    (g.define policy name a).Lacks names := by
  obtain ⟨other, nodup⟩ := List.nodup_cons.1 lacks.nodup
  obtain ⟨missing, rest⟩ := List.forall_mem_cons.1 lacks.missing
  refine ⟨nodup, fun name' member => ?_⟩
  have different : name' ≠ name := fun same => other (same ▸ member)
  rw [define_of_missing missing]
  have before : g.entries.lookup name' = none := rest name' member
  have after : (name' == name) = false := by simpa using different
  simp [lookup?, List.lookup_append, before, List.lookup_cons, after]

end Globals

/-! ## Forms -/

namespace Eval

variable {fuel : Nat} {policy : RedefinePolicy} {x : Form} {xs : List Form} {m n : Memory}
  {names : List String}

theorem eval_globals {e : Expr} {env : Env} (ended : (eval fuel e env m).memory? = some n) :
    n.globals = m.globals := by
  have alike := (Memory.AlikeFrom.refl env.addresses m).alike
  exact ((eval_paired fuel _ m m e env alike fun _ => .root).confined ended).globals

theorem form_define (name : String) (e : Expr) :
    form fuel policy (.define name e) m =
      match eval fuel e [] m with
      | .value v n => .value .void { n with
          store := (n.store.allocate v).2
          globals := n.globals.define policy name n.store.size }
      | .error e n => .error e n
      | .outOfFuel => .outOfFuel := by
  show Eval.bind (eval fuel e []) _ m = _
  unfold Eval.bind
  cases eval fuel e [] m <;> rfl

/-- A form that defines a new name, or none, is run in the same way under every policy. -/
theorem form_eq (other : RedefinePolicy)
    (lacks : m.globals.Lacks (defined [.form x (form fuel policy x m)])) :
    form fuel other x m = form fuel policy x m := by
  cases x with
  | expr e => rfl
  | define name e =>
      rw [form_define] at lacks
      rw [form_define, form_define]
      cases run : eval fuel e [] m with
      | error _ _ | outOfFuel => rfl
      | value v n =>
          rw [run] at lacks
          have same : n.globals = m.globals := eval_globals (by rw [run]; rfl)
          have missing : n.globals.lookup? name = none := by
            rw [same]
            exact lacks.missing name List.mem_cons_self
          simp only [Globals.define_of_missing missing]

theorem form_lacks (ended : (form fuel policy x m).memory? = some n)
    (lacks : m.globals.Lacks (defined [.form x (form fuel policy x m)] ++ names)) :
    n.globals.Lacks names := by
  cases x with
  | expr e =>
      have unchanged : n.globals = m.globals := eval_globals ended
      have none : defined [.form (.expr e) (form fuel policy (.expr e) m)] = [] := by
        cases run : form fuel policy (.expr e) m <;> simp [defined, Step.defines?, Form.defined?]
      rw [none] at lacks
      exact unchanged ▸ lacks
  | define name e =>
      rw [form_define] at ended lacks
      cases run : eval fuel e [] m with
      | outOfFuel =>
          rw [run] at ended
          cases ended
      | error _ _ =>
          rw [run] at ended lacks
          cases ended
          have unchanged : n.globals = m.globals := eval_globals (by rw [run]; rfl)
          exact unchanged ▸ lacks
      | value v k =>
          rw [run] at ended lacks
          cases ended
          have unchanged : k.globals = m.globals := eval_globals (by rw [run]; rfl)
          exact Globals.Lacks.define (unchanged ▸ lacks) policy _

theorem steps_eq (other : RedefinePolicy) (k : Nat)
    (lacks : m.globals.Lacks (defined ((steps fuel policy xs m).take k))) :
    (steps fuel other xs m).take k = (steps fuel policy xs m).take k := by
  induction xs generalizing m k with
  | nil => rfl
  | cons x xs ih =>
      cases k with
      | zero => rfl
      | succ k =>
          simp only [steps, List.take_succ_cons] at lacks ⊢
          rw [defined_cons] at lacks
          rw [form_eq other lacks.left]
          cases run : form fuel policy x m with
          | error _ _ | outOfFuel => rfl
          | value v n =>
              simp only [run] at lacks ⊢
              rw [← run] at lacks
              rw [ih k (form_lacks (by rw [run]; rfl) lacks)]

/-- An expression at the end has its value; everything else is run for what it does. -/
theorem forms_cons (fuel : Nat) (x : Form) (xs : List Form) :
    (xs = [] ∧ ∀ policy, forms fuel policy (x :: xs) = form fuel policy x) ∨
      ∀ policy, forms fuel policy (x :: xs) =
        Eval.bind (form fuel policy x) fun _ => forms fuel policy xs := by
  cases xs with
  | cons y ys => exact .inr fun _ => by cases x <;> rfl
  | nil =>
      cases x with
      | define name e => exact .inr fun _ => rfl
      | expr e => exact .inl ⟨rfl, fun _ => rfl⟩

theorem forms_eq (other : RedefinePolicy)
    (lacks : m.globals.Lacks (defined (steps fuel policy xs m) ++ names)) :
    forms fuel other xs m = forms fuel policy xs m ∧
      ∀ n, (forms fuel policy xs m).memory? = some n → n.globals.Lacks names := by
  induction xs generalizing m with
  | nil =>
      refine ⟨rfl, fun n ended => ?_⟩
      cases ended
      exact lacks
  | cons x xs ih =>
      rw [steps, defined_cons, List.append_assoc] at lacks
      have same := form_eq other lacks.left
      rcases forms_cons fuel x xs with ⟨rfl, last⟩ | several
      · rw [last, last]
        refine ⟨same, fun n ended => form_lacks ended ?_⟩
        cases run : form fuel policy x m <;> rw [run] at lacks <;> exact lacks
      · rw [several, several]
        unfold Eval.bind
        rw [same]
        cases run : form fuel policy x m with
        | value v n =>
            simp only [run] at lacks
            rw [← run] at lacks
            exact ih (form_lacks (by rw [run]; rfl) lacks)
        | error e n =>
            simp only [run] at lacks
            rw [← run] at lacks
            refine ⟨rfl, fun n' ended => form_lacks ?_ lacks⟩
            rw [run]
            exact ended
        | outOfFuel => exact ⟨rfl, fun n ended => nomatch ended⟩

end Eval

/-! ## Sessions -/

namespace Session

variable {fuel : Nat} {source : String} {names : List String}

def under (policy : RedefinePolicy) (s : Session) : Session :=
  { s with options := { s.options with redefine := policy } }

theorem read_under (policy : RedefinePolicy) (s : Session) :
    (s.under policy).read source = ((s.read source).1, (s.read source).2.under policy) := by
  unfold read
  simp only [under]
  split <;> rfl

theorem read_globals (s : Session) (source : String) :
    (s.read source).2.memory.globals = s.memory.globals := by
  unfold read
  split <;> rfl

variable {s : Session} (policy : RedefinePolicy)

theorem formSteps_eq (k : Nat)
    (lacks : s.memory.globals.Lacks (defined ((s.formSteps fuel source).take k))) :
    ((s.under policy).formSteps fuel source).take k = (s.formSteps fuel source).take k := by
  rw [← read_globals s source] at lacks
  unfold formSteps at lacks ⊢
  rw [read_under]
  rcases h : s.read source with ⟨e | xs, t⟩
  · rfl
  · rw [h] at lacks
    exact Eval.steps_eq policy k lacks

theorem run_under (lacks : s.memory.globals.Lacks (defined (s.formSteps fuel source) ++ names)) :
    (s.under policy).run fuel source =
        (s.run fuel source).map (fun (result, t) => (result, t.under policy)) ∧
      ∀ result t, s.run fuel source = some (result, t) → t.memory.globals.Lacks names := by
  rw [← read_globals s source] at lacks
  unfold formSteps at lacks
  unfold run
  rw [read_under]
  rcases h : s.read source with ⟨e | xs, t⟩
  · rw [h] at lacks
    refine ⟨rfl, fun result t ended => ?_⟩
    cases ended
    exact lacks
  · rw [h] at lacks
    obtain ⟨same, after⟩ := Eval.forms_eq policy lacks
    simp only [runForms, compute, under, same]
    cases run : Eval.forms fuel t.options.redefine xs t.memory with
    | value v m | error e m =>
        refine ⟨rfl, fun result t' ended => ?_⟩
        cases ended
        exact after m (by rw [run]; rfl)
    | outOfFuel => exact ⟨rfl, fun result t' ended => nomatch ended⟩

theorem steps_under (sources : List String) (k : Nat)
    (lacks : s.memory.globals.Lacks (defined ((s.steps fuel sources).take k))) :
    ((s.under policy).steps fuel sources).take k = (s.steps fuel sources).take k := by
  induction sources generalizing s k with
  | nil => rfl
  | cons source sources ih =>
      simp only [steps] at lacks ⊢
      rw [List.take_append, defined_append] at lacks
      have first := formSteps_eq policy k lacks.left
      have length := congrArg List.length first
      rw [List.length_take, List.length_take] at length
      rcases Nat.lt_or_ge (s.formSteps fuel source).length k with beyond | within
      · obtain ⟨j, rest⟩ : ∃ j, k - (s.formSteps fuel source).length = j + 1 :=
          Nat.exists_eq_add_one.2 (Nat.sub_pos_of_lt beyond)
        rw [List.take_of_length_le (by omega), List.take_of_length_le (by omega)] at first
        rw [List.take_of_length_le (by omega), rest] at lacks
        rw [first, List.take_append, List.take_append, rest]
        obtain ⟨same, after⟩ := run_under policy lacks
        rw [same]
        cases run : s.run fuel source with
        | none => rfl
        | some answer =>
            have lacks := after _ _ run
            rw [run] at lacks
            exact congrArg _ (congrArg (List.cons _) (ih j lacks))
      · rw [List.take_append_of_le_length within, List.take_append_of_le_length (by omega), first]

end Session

/-- The steps of two sessions agree up to the first second definition of a name, and all of them if
there is none. -/
theorem steps_eq_before_redefinition (one other : RedefinePolicy) (foldCase : Bool) (fuel : Nat)
    (sources : List String) :
    let steps (policy : RedefinePolicy) : List Step :=
      Session.steps fuel { options := { redefine := policy, foldCase } } sources
    ((defined (steps one)).Nodup → steps other = steps one) ∧
      ∀ k, (defined ((steps one).take k)).Nodup → (steps other).take k = (steps one).take k := by
  intro steps
  have upTo (k : Nat) (nodup : (defined ((steps one).take k)).Nodup) :
      (steps other).take k = (steps one).take k :=
    Session.steps_under other sources k ⟨nodup, fun _ _ => rfl⟩
  refine ⟨fun nodup => ?_, upTo⟩
  have all := upTo (max (steps one).length (steps other).length)
  rw [List.take_of_length_le (Nat.le_max_left _ _), List.take_of_length_le (Nat.le_max_right _ _)] at all
  exact all nodup

-- The definition of `y` that fails does not count; the sixth step may define `x` again.
theorem steps_eq_until_second_x :
    let steps (policy : RedefinePolicy) (last : String) : List Step :=
      Session.steps 9 { options := { redefine := policy } } ["(define x 1)", "(define y (car x))", last]
    steps .firstWins "(define y 2) (+ x y)" = steps .latestWins "(define y 2) (+ x y)" ∧
      defined ((steps .latestWins "(define y 2) (define x 3) (+ x y)").take 6) = ["x", "y", "x"] ∧
      (steps .firstWins "(define y 2) (define x 3) (+ x y)").take 5 =
        (steps .latestWins "(define y 2) (define x 3) (+ x y)").take 5 := by
  refine ⟨?_, by decide +kernel, ?_⟩
  · exact (steps_eq_before_redefinition .latestWins .firstWins false 9 _).1 (by decide +kernel)
  · exact (steps_eq_before_redefinition .latestWins .firstWins false 9 _).2 5 (by decide +kernel)

end StoreScheme
