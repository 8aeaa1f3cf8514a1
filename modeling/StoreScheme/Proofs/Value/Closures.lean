import StoreScheme.Eval

/-!
# Closures inside values

Pairs are the only values that hold others, so a property of closures extends to values through
them.  Primitives take values apart and put them together, but never make a closure.

* `Value.AllClosures`: every closure in a value has a property
* `EvalError.values`: the values that an error shows
* `Primitive.TakenFrom`: what a primitive does with its arguments, if it makes no pairs
* `Primitive.apply_ok`, `Primitive.apply_error`: results and errors of a primitive hold no closures
  but those of its arguments
-/

namespace StoreScheme

abbrev ClosureProp := Identity → List String → List Expr → Env → Prop

def Value.AllClosures (P : ClosureProp) : Value → Prop
  | .pair _ car cdr => car.AllClosures P ∧ cdr.AllClosures P
  | .closure id params body env => P id params body env
  | _ => True

def PrimitiveError.values : PrimitiveError → List Value
  | .wrongType _ _ found => [found]
  | _ => []

def EvalError.values : EvalError → List Value
  | .badProcedure v => [v]
  | .primitive e => e.values
  | _ => []

namespace Value

variable {P Q : ClosureProp}

theorem AllClosures.imp (h : ∀ id params body env, P id params body env → Q id params body env) :
    ∀ {v : Value}, v.AllClosures P → v.AllClosures Q
  | .pair _ _ _, hv => ⟨AllClosures.imp h hv.1, AllClosures.imp h hv.2⟩
  | .closure _ _ _ _, hv => h _ _ _ _ hv
  | .void, _ | .number _, _ | .boolean _, _ | .string _, _ | .symbol _, _ | .null, _
  | .primitive _, _ => trivial

theorem allClosures_ofLiteral (l : Literal) : (ofLiteral l).AllClosures P := by
  induction l with
  | pair id car cdr ihCar ihCdr => exact ⟨ihCar, ihCdr⟩
  | number _ | boolean _ | string _ | symbol _ | null => trivial

theorem allClosures_list (fresh : Identity) {vs : List Value} (hvs : ∀ v ∈ vs, v.AllClosures P) :
    (list fresh vs).1.AllClosures P := by
  induction vs with
  | nil => trivial
  | cons v vs ih =>
      exact ⟨hvs v (by simp), ih fun w hw => hvs w (List.mem_cons_of_mem v hw)⟩

theorem le_list (fresh : Identity) (vs : List Value) : fresh ≤ (list fresh vs).2 := by
  induction vs with
  | nil => exact Nat.le_refl fresh
  | cons v vs ih => exact Nat.le_succ_of_le ih

end Value

namespace Primitive

variable {P : ClosureProp} {op : Primitive} {e : PrimitiveError}

/-! ## Errors show arguments -/

theorem bind_eq_error {α β : Type} {x : Except PrimitiveError α} {f : α → Except PrimitiveError β} :
    (x >>= f) = .error e ↔ x = .error e ∨ ∃ a, x = .ok a ∧ f a = .error e := by
  cases x <;> simp [bind, Except.bind]

theorem map_eq_error {α β : Type} {x : Except PrimitiveError α} {f : α → β} :
    x.map f = .error e ↔ x = .error e := by
  cases x <;> simp [Except.map]

theorem map_eq_ok {α β : Type} {x : Except PrimitiveError α} {f : α → β} {b : β} :
    x.map f = .ok b ↔ ∃ a, x = .ok a ∧ f a = b := by
  cases x <;> simp [Except.map]

theorem number_error {v : Value} (h : op.number v = .error e) : e.values = [v] := by
  unfold number at h
  split at h <;> cases h
  rfl

theorem operate_error {f : Operation} {a b : Number} (h : operate f a b = .error e) :
    e.values = [] := by
  unfold operate at h
  split at h <;> cases h
  rfl

theorem numbers_error {vs : List Value} (h : op.numbers vs = .error e) :
    ∀ v ∈ e.values, v ∈ vs := by
  induction vs with
  | nil => cases h
  | cons v vs ih =>
      rcases bind_eq_error.1 h with first | ⟨n, -, h⟩
      · simp [number_error first]
      · rcases bind_eq_error.1 h with rest | ⟨ns, -, h⟩
        · exact fun w hw => List.mem_cons_of_mem v (ih rest w hw)
        · cases h

theorem strings_error {vs : List Value} (h : op.strings vs = .error e) :
    ∀ v ∈ e.values, v ∈ vs := by
  induction vs with
  | nil => cases h
  | cons v vs ih =>
      unfold strings at h
      split at h
      · obtain ⟨⟨⟩⟩ | ⟨s, -, h⟩ := bind_eq_error.1 h
        rcases bind_eq_error.1 h with rest | ⟨ss, -, h⟩
        · exact fun w hw => List.mem_cons_of_mem v (ih rest w hw)
        · cases h
      · obtain ⟨⟨⟩⟩ | ⟨s, ⟨⟩, -⟩ := bind_eq_error.1 h
        simp [PrimitiveError.values]

theorem fold_error {f : Operation} {acc : Number} {vs : List Value}
    (h : op.fold f acc vs = .error e) : ∀ v ∈ e.values, v ∈ vs := by
  induction vs generalizing acc with
  | nil => cases h
  | cons v vs ih =>
      rcases bind_eq_error.1 h with first | ⟨n, -, h⟩
      · simp [number_error first]
      · rcases bind_eq_error.1 h with combined | ⟨acc', -, h⟩
        · simp [operate_error combined]
        · exact fun w hw => List.mem_cons_of_mem v (ih h w hw)

theorem reduce_error {f : Operation} {unit : Number} {vs : List Value}
    (h : op.reduce f unit vs = .error e) : ∀ v ∈ e.values, v ∈ vs := by
  unfold reduce at h
  split at h
  · cases h
  · exact fold_error h
  · rename_i v vs _
    rcases bind_eq_error.1 h with first | ⟨n, -, h⟩
    · simp [number_error first]
    · exact fun w hw => List.mem_cons_of_mem v (fold_error h w hw)

/-! ## Results are made of arguments -/

/-- A result is a number or a truth value, an argument or a side of one, and an error shows an
argument. -/
inductive TakenFrom (args : List Value) : Except PrimitiveError Value → Prop
  | number (n : Number) : TakenFrom args (.ok (.number n))
  | boolean (b : Bool) : TakenFrom args (.ok (.boolean b))
  | argument {v : Value} : v ∈ args → TakenFrom args (.ok v)
  | car {id : Identity} {v w : Value} : .pair id v w ∈ args → TakenFrom args (.ok v)
  | cdr {id : Identity} {v w : Value} : .pair id v w ∈ args → TakenFrom args (.ok w)
  | error {e : PrimitiveError} : (∀ v ∈ e.values, v ∈ args) → TakenFrom args (.error e)

theorem TakenFrom.map {α : Type} {args : List Value} {x : Except PrimitiveError α} {f : α → Value}
    (errors : ∀ e, x = .error e → ∀ v ∈ e.values, v ∈ args)
    (results : ∀ a, TakenFrom args (.ok (f a))) : TakenFrom args (x.map f) := by
  cases x with
  | error e => exact .error (errors e rfl)
  | ok a => exact results a

theorem TakenFrom.cons {args : List Value} {v : Value} (arg : Value)
    (taken : TakenFrom args (.ok v)) : TakenFrom (arg :: args) (.ok v) := by
  cases taken with
  | number n => exact .number n
  | boolean b => exact .boolean b
  | argument member => exact .argument (List.mem_cons_of_mem arg member)
  | car member => exact .car (List.mem_cons_of_mem arg member)
  | cdr member => exact .cdr (List.mem_cons_of_mem arg member)

theorem taken_compare {r : Number → Number → Bool} {args : List Value} :
    TakenFrom args (op.compare r args) := by
  unfold compare
  cases ns : op.numbers args with
  | error e => exact .error (numbers_error ns)
  | ok ns => exact .boolean _

theorem taken_conjunction (args : List Value) : TakenFrom args (.ok (conjunction args)) := by
  fun_induction conjunction args with
  | case1 => exact .boolean true
  | case2 v => exact .argument (by simp)
  | case3 v vs _ _ ih => exact ih.cons v
  | case4 v vs _ _ => exact .argument (by simp)

theorem taken_disjunction (args : List Value) : TakenFrom args (.ok (disjunction args)) := by
  fun_induction disjunction args with
  | case1 => exact .boolean false
  | case2 v vs _ => exact .argument (by simp)
  | case3 v vs _ ih => exact ih.cons v

theorem taken_pair (v : Value) {side : Value × Value → Value}
    (taken : ∀ id car cdr, TakenFrom [.pair id car cdr] (.ok (side (car, cdr)))) :
    TakenFrom [v] ((op.pair v).map side) := by
  cases v with
  | pair id car cdr => exact taken id car cdr
  | _ => exact .error fun w hw => hw

theorem taken_wrongArity (args : List Value) (n : Nat) :
    TakenFrom args (.error (.wrongArity op n)) :=
  .error fun _ hv => absurd hv List.not_mem_nil

theorem taken_compute (args : List Value) : TakenFrom args (op.compute args) := by
  cases op with
  | add | mul => exact .map (fun e h => fold_error h) fun n => .number n
  | sub | div => exact .map (fun e h => reduce_error h) fun n => .number n
  | stringEq => exact .map (fun e h => strings_error h) fun _ => .boolean _
  | less | greater | numEq => exact taken_compare
  | and => exact taken_conjunction args
  | or => exact taken_disjunction args
  | car =>
      match args with
      | [v] => exact taken_pair v fun id car cdr => .car List.mem_cons_self
      | [] | _ :: _ :: _ => exact taken_wrongArity _ _
  | cdr =>
      match args with
      | [v] => exact taken_pair v fun id car cdr => .cdr List.mem_cons_self
      | [] | _ :: _ :: _ => exact taken_wrongArity _ _
  | eq | equal =>
      match args with
      | [a, b] => exact .boolean _
      | [] | [_] | _ :: _ :: _ :: _ => exact taken_wrongArity _ _
  | cons | list => exact taken_wrongArity _ _
  | not | isPair | isList | isNull | isNumber | isBoolean | isSymbol | isString | isProcedure =>
      match args with
      | [v] => exact .boolean _
      | [] | _ :: _ :: _ => exact taken_wrongArity _ _

/-- A result holds only closures that some values hold, and an error shows one of them. -/
def MadeOf (args : List Value) : Except PrimitiveError Value → Prop
  | .ok v => ∀ P : ClosureProp, (∀ a ∈ args, a.AllClosures P) → v.AllClosures P
  | .error e => ∀ v ∈ e.values, v ∈ args

theorem TakenFrom.madeOf {args : List Value} {x : Except PrimitiveError Value}
    (taken : TakenFrom args x) : MadeOf args x := by
  cases taken with
  | number n => exact fun _ _ => trivial
  | boolean b => exact fun _ _ => trivial
  | argument member => exact fun P hargs => hargs _ member
  | car member => exact fun P hargs => (hargs _ member).1
  | cdr member => exact fun P hargs => (hargs _ member).2
  | error shown => exact shown

theorem apply_error {args : List Value} {fresh : Identity} (h : op.apply args fresh = .error e) :
    ∀ v ∈ e.values, v ∈ args := by
  unfold apply at h
  split at h
  · split at h
    · cases h
    · cases h
    · have made : MadeOf args (op.compute args) := (taken_compute args).madeOf
      rwa [map_eq_error.1 h] at made
  · cases h
    exact List.forall_mem_nil _

theorem apply_ok {args : List Value} {fresh next : Identity} {v : Value}
    (h : op.apply args fresh = .ok (v, next)) :
    ((∀ a ∈ args, a.AllClosures P) → v.AllClosures P) ∧ fresh ≤ next := by
  unfold apply at h
  split at h
  · split at h
    · cases h
      exact ⟨fun hargs => ⟨hargs _ (by simp), hargs _ (by simp)⟩, Nat.le_succ fresh⟩
    · injection h with h
      have made := congrArg Prod.fst h
      have grown := congrArg Prod.snd h
      subst made grown
      exact ⟨Value.allClosures_list fresh, Value.le_list fresh _⟩
    · obtain ⟨w, computed, same⟩ := map_eq_ok.1 h
      cases same
      have made : MadeOf args (op.compute args) := (taken_compute args).madeOf
      rw [computed] at made
      exact ⟨made P, Nat.le_refl fresh⟩
  · cases h

end Primitive

end StoreScheme
