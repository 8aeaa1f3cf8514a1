import StoreScheme.Proofs.Redefinition

/-!
# Sequences of forms

A sequence of forms does what its forms do one by one, up to the first error.  It only differs in what
it comes to: there has to be an expression at its end.

* `Session.firstError?`, `Session.sequel`: what a sequence comes to, given the results of its forms
* `Session.runEach_append`, `Session.runForms_append`: forms in two parts, run in both ways
* `Session.runForms_eq`: a sequence and its forms one by one
* `Session.definition_made`: a definition at the end
* `Session.sequence_agrees`: the two ways of running forms
-/

namespace StoreScheme

namespace Session

/-- The first error among some results. -/
def firstError? : List (Except EvalError Value) → Option EvalError
  | [] => none
  | .error e :: _ => some e
  | .ok _ :: results => firstError? results

/-- What a sequence comes to, given the results of its forms: the first error if there is one, and
otherwise the result of the last form, which has to be an expression. -/
def sequel (xs : List Form) (results : List (Except EvalError Value)) : Except EvalError Value :=
  match firstError? results, xs.getLast?, results.getLast? with
  | some e, _, _ => .error e
  | none, some (.expr _), some last => last
  | none, _, _ => .error .emptyProgram

variable {s t : Session} {fuel : Nat} {x : Form} {xs ys : List Form}
  {results : List (Except EvalError Value)}

theorem firstError?_append (ok : firstError? results = none) (more : List (Except EvalError Value)) :
    firstError? (results ++ more) = firstError? more := by
  induction results with
  | nil => rfl
  | cons r results ih =>
      cases r with
      | error e => cases ok
      | ok v => exact ih ok

/-! ## Two parts -/

/-- Forms are run one by one in two parts, of which the second is run after one without errors. -/
theorem runEach_append (s : Session) (fuel : Nat) (xs ys : List Form) :
    s.runEach fuel (xs ++ ys) = (s.runEach fuel xs).bind fun (results, t) =>
      match firstError? results with
      | some _ => some (results, t)
      | none => (t.runEach fuel ys).map fun (more, u) => (results ++ more, u) := by
  induction xs generalizing s with
  | nil =>
      simp only [List.nil_append, runEach, Option.bind_some, firstError?]
      cases s.runEach fuel ys <;> rfl
  | cons x xs ih =>
      rw [List.cons_append, runEach, runEach]
      rcases s.runForm fuel x with _ | ⟨e | v, t⟩
      · rfl
      · rfl
      · dsimp only
        rw [ih]
        rcases t.runEach fuel xs with _ | ⟨results, u⟩
        · rfl
        · simp only [Option.bind_some, Option.map_some, firstError?]
          cases firstError? results with
          | some e => rfl
          | none => simp only [Option.map_map, List.cons_append, Function.comp_def]

/-- A form in front of others is run for what it does. -/
theorem runForms_cons (several : xs ≠ []) :
    s.runForms fuel (x :: xs) =
      match s.runForm fuel x with
      | some (.ok _, t) => t.runForms fuel xs
      | some (.error e, t) => some (.error e, t)
      | none => none := by
  rcases Eval.forms_cons fuel x xs with ⟨none, _⟩ | bind
  · exact absurd none several
  · rw [runForms, runForm, compute, compute, bind, Eval.bind]
    cases Eval.form fuel s.options.redefine x s.memory <;> rfl

theorem runForms_append (s : Session) (fuel : Nat) (xs : List Form) (several : ys ≠ []) :
    s.runForms fuel (xs ++ ys) = (s.runEach fuel xs).bind fun (results, t) =>
      match firstError? results with
      | some e => some (.error e, t)
      | none => t.runForms fuel ys := by
  induction xs generalizing s with
  | nil => rfl
  | cons x xs ih =>
      rw [List.cons_append, runForms_cons (List.append_ne_nil_of_right_ne_nil xs several), runEach]
      rcases s.runForm fuel x with _ | ⟨e | v, t⟩
      · rfl
      · rfl
      · dsimp only
        rw [ih]
        cases t.runEach fuel xs <;> rfl

/-! ## The last form -/

theorem runEach_single :
    s.runEach fuel [x] = (s.runForm fuel x).map fun (result, t) => ([result], t) := by
  rw [runEach]
  rcases s.runForm fuel x with _ | ⟨_ | _, t⟩ <;> rfl

theorem runForms_single :
    s.runForms fuel [x] = (s.runForm fuel x).map fun (result, t) => (sequel [x] [result], t) := by
  cases x with
  | expr e =>
      change s.runForm fuel (.expr e) = _
      rcases s.runForm fuel (.expr e) with _ | ⟨_ | _, t⟩ <;> rfl
  | define name e =>
      change s.compute (Eval.bind (Eval.form fuel s.options.redefine (.define name e))
        fun _ => Eval.fail .emptyProgram) = _
      rw [runForm, compute, compute, Eval.bind]
      cases Eval.form fuel s.options.redefine (.define name e) s.memory <;> rfl

theorem sequel_concat (ok : firstError? results = none) (result : Except EvalError Value) :
    sequel (xs ++ [x]) (results ++ [result]) = sequel [x] [result] := by
  simp only [sequel, firstError?_append ok, List.getLast?_concat, List.getLast?_singleton]

theorem runForms_eq (s : Session) (fuel : Nat) (xs : List Form) :
    s.runForms fuel xs = (s.runEach fuel xs).map fun (results, t) => (sequel xs results, t) := by
  rcases List.eq_nil_or_concat xs with rfl | ⟨init, x, rfl⟩
  · rfl
  · rw [List.concat_eq_append, runForms_append s fuel init (List.cons_ne_nil x []), runEach_append]
    rcases s.runEach fuel init with _ | ⟨results, t⟩
    · rfl
    · cases failed : firstError? results with
      | some e => simp [failed, sequel]
      | none =>
          simp only [Option.bind_some, failed, runForms_single, runEach_single, Option.map_map,
            Function.comp_def, sequel_concat failed]

/-- A definition at the end has been made if there was no error: its value is in a new cell, to which
its name is bound. -/
theorem definition_made {init : List Form} {name : String} {e : Expr}
    (ran : s.runEach fuel (init ++ [.define name e]) = some (results, t))
    (ok : firstError? results = none) :
    ∃ u v m, s.runEach fuel init = some (results.dropLast, u) ∧ eval fuel e [] u.memory = .value v m ∧
      t = { u with memory := { m with
        store := (m.store.allocate v).2
        globals := m.globals.define u.options.redefine name m.store.size } } := by
  rw [runEach_append] at ran
  obtain ⟨⟨before, u⟩, ran', ran⟩ := Option.bind_eq_some_iff.1 ran
  cases failed : firstError? before with
  | some e =>
      simp only [failed, Option.some.injEq, Prod.mk.injEq] at ran
      rw [← ran.1, failed] at ok
      cases ok
  | none =>
      simp only [failed, runEach_single, runForm, compute, Eval.form_define, Option.map_map] at ran
      cases run : eval fuel e [] u.memory with
      | outOfFuel =>
          rw [run] at ran
          cases ran
      | error e' m =>
          rw [run] at ran
          cases ran
          rw [firstError?_append failed] at ok
          cases ok
      | value v m =>
          rw [run] at ran
          cases ran
          exact ⟨u, v, m, by simpa using ran', run, rfl⟩

/-- Without an error every form has been run. -/
theorem length_of_runEach (ran : s.runEach fuel xs = some (results, t))
    (ok : firstError? results = none) : results.length = xs.length := by
  induction xs generalizing s results with
  | nil =>
      cases ran
      rfl
  | cons x xs ih =>
      unfold runEach at ran
      split at ran
      · obtain ⟨⟨rest, u⟩, ran', same⟩ := Option.map_eq_some_iff.1 ran
        cases same
        rw [List.length_cons, List.length_cons, ih ran' ok]
      · cases ran
        cases ok
      · cases ran

/-- Running forms as one sequence leaves what running them one by one up to the first error leaves.  It
comes to that error, or to the value of the last form if that is an expression; without one it fails,
but has made the definition at its end.  In front of a second part of the sequence the first one can
be run one by one. -/
theorem sequence_agrees (s : Session) (fuel : Nat) (xs : List Form) :
    s.runForms fuel xs = (s.runEach fuel xs).map (fun (results, t) => (sequel xs results, t)) ∧
    (∀ results t, s.runEach fuel xs = some (results, t) → firstError? results = none →
      results.length = xs.length ∧
      ∀ init name e, xs = init ++ [.define name e] →
        ∃ u v m, s.runEach fuel init = some (results.dropLast, u) ∧
          eval fuel e [] u.memory = .value v m ∧
          t = { u with memory := { m with
            store := (m.store.allocate v).2
            globals := m.globals.define u.options.redefine name m.store.size } }) ∧
    ∀ ys zs, xs = ys ++ zs → zs ≠ [] →
      s.runForms fuel xs = (s.runEach fuel ys).bind fun (results, t) =>
        match firstError? results with
        | some e => some (.error e, t)
        | none => t.runForms fuel zs := by
  refine ⟨runForms_eq s fuel xs, fun results t ran ok => ⟨length_of_runEach ran ok, ?_⟩, ?_⟩
  · rintro init name e rfl
    exact definition_made ran ok
  · rintro ys zs rfl several
    exact runForms_append s fuel ys several

/-- A definition by itself is made, and there is no value. -/
theorem sequence_agrees_definition :
    ∃ t : Session, ({} : Session).runForms 1 [.define "x" (.boolean true)] = some (.error .emptyProgram, t) ∧
      t.memory.globals.lookup? "x" = some 0 ∧ t.memory.store.read? 0 = some (.boolean true) := by
  obtain ⟨whole, made, -⟩ := sequence_agrees {} 1 [.define "x" (.boolean true)]
  rw [whole]
  obtain ⟨-, made⟩ := made [.ok .void] _ rfl rfl
  obtain ⟨u, v, m, start, run, same⟩ := made [] "x" (.boolean true) rfl
  cases start
  cases run
  refine ⟨_, rfl, ?_⟩
  rw [same]
  exact ⟨rfl, rfl⟩

end Session

end StoreScheme
