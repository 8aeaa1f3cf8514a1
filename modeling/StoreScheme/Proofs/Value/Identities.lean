import StoreScheme.Proofs.Value.Closures

/-!
# Identities inside values

Pairs and closures carry identities, and so do the pairs quoted in the code of a closure, which become
values when the code is run.  A ledger says what each identity was given to.  It only ever grows at its
end, so what it knows once it knows for good.

* `Value.Each`: a property of all pairs and closures in a value, with their identities
* `Value.Issued`, `Expr.Issued`: all identities were given out before
* `Ledger`, `Value.Known`: all identities stand for what the ledger says
* `Primitive.apply_known`: a primitive puts the pairs that it makes into the ledger
-/

namespace StoreScheme

abbrev IdentityProp := Identity → Value → Prop

def Literal.Each (P : IdentityProp) : Literal → Prop
  | .pair id car cdr => P id (.ofLiteral (.pair id car cdr)) ∧ car.Each P ∧ cdr.Each P
  | _ => True

/-- A property of all pairs that are quoted in an expression. -/
inductive Expr.Each (P : IdentityProp) : Expr → Prop
  | number (n : Number) : Each P (.number n)
  | boolean (b : Bool) : Each P (.boolean b)
  | string (s : String) : Each P (.string s)
  | literal {l : Literal} : l.Each P → Each P (.literal l)
  | primitive (p : Primitive) : Each P (.primitive p)
  | ref (name : String) : Each P (.ref name)
  | ifElse {test consequent : Expr} {alternative : Option Expr} : Each P test → Each P consequent →
    (∀ e ∈ alternative, Each P e) → Each P (.ifElse test consequent alternative)
  | lambda {params : List String} {body : List Expr} : (∀ e ∈ body, Each P e) →
    Each P (.lambda params body)
  | letIn {names : List String} {values body : List Expr} : (∀ e ∈ values, Each P e) →
    (∀ e ∈ body, Each P e) → Each P (.letIn names values body)
  | apply {operator : Expr} {operands : List Expr} : Each P operator → (∀ e ∈ operands, Each P e) →
    Each P (.apply operator operands)
  | assign {name : String} {value : Expr} : Each P value → Each P (.assign name value)

def Value.Each (P : IdentityProp) : Value → Prop
  | .pair id car cdr => P id (.pair id car cdr) ∧ car.Each P ∧ cdr.Each P
  | .closure id params body env => P id (.closure id params body env) ∧ ∀ e ∈ body, e.Each P
  | _ => True

section
variable {P Q : IdentityProp} (weaker : ∀ id v, P id v → Q id v)
include weaker

theorem Literal.Each.imp : ∀ {l : Literal}, l.Each P → l.Each Q
  | .pair _ _ _, each => ⟨weaker _ _ each.1, Literal.Each.imp each.2.1, Literal.Each.imp each.2.2⟩
  | .number _, _ | .boolean _, _ | .string _, _ | .symbol _, _ | .null, _ => trivial

theorem Expr.Each.imp {e : Expr} (each : e.Each P) : e.Each Q := by
  induction each with
  | number n => exact .number n
  | boolean b => exact .boolean b
  | string s => exact .string s
  | literal each => exact .literal (each.imp weaker)
  | primitive p => exact .primitive p
  | ref name => exact .ref name
  | ifElse _ _ _ test consequent alternative => exact .ifElse test consequent alternative
  | lambda _ body => exact .lambda body
  | letIn _ _ values body => exact .letIn values body
  | apply _ _ operator operands => exact .apply operator operands
  | assign _ value => exact .assign value

theorem Value.Each.imp : ∀ {v : Value}, v.Each P → v.Each Q
  | .pair _ _ _, each => ⟨weaker _ _ each.1, Value.Each.imp each.2.1, Value.Each.imp each.2.2⟩
  | .closure _ _ _ _, each => ⟨weaker _ _ each.1, fun e member => (each.2 e member).imp weaker⟩
  | .void, _ | .number _, _ | .boolean _, _ | .string _, _ | .symbol _, _ | .null, _
  | .primitive _, _ => trivial

end

theorem Literal.Each.ofLiteral {P : IdentityProp} {l : Literal} (each : l.Each P) :
    (Value.ofLiteral l).Each P := by
  induction l with
  | pair id car cdr ihCar ihCdr => exact ⟨each.1, ihCar each.2.1, ihCdr each.2.2⟩
  | number _ | boolean _ | string _ | symbol _ | null => trivial

/-! ## Ledgers -/

def Value.Issued (next : Identity) (v : Value) : Prop := v.Each fun id _ => id < next

def Expr.Issued (next : Identity) (e : Expr) : Prop := e.Each fun id _ => id < next

/-- All pairs and closures made so far, at the place of their identity. -/
abbrev Ledger := List Value

namespace Ledger

/-- An identity was given to a value. -/
def Has (L : Ledger) : IdentityProp := fun id v => L[id]? = some v

variable {L M : Ledger} {id : Identity} {v : Value}

theorem Has.lt (has : L.Has id v) : id < L.length := (List.getElem?_eq_some_iff.1 has).1

theorem Has.mono (later : L <+: M) (has : L.Has id v) : M.Has id v := by
  obtain ⟨new, rfl⟩ := later
  show (L ++ new)[id]? = some v
  rw [List.getElem?_append_left has.lt]
  exact has

theorem has_new (L : Ledger) (v : Value) : Has (L ++ [v]) L.length v := List.getElem?_concat_length

end Ledger

def Literal.Known (L : Ledger) (l : Literal) : Prop := l.Each L.Has

def Expr.Known (L : Ledger) (e : Expr) : Prop := e.Each L.Has

def Value.Known (L : Ledger) (v : Value) : Prop := v.Each L.Has

section
variable {L M : Ledger} (later : L <+: M)
include later

theorem Literal.Known.mono {l : Literal} (known : l.Known L) : l.Known M :=
  known.imp fun _ _ => Ledger.Has.mono later

theorem Expr.Known.mono {e : Expr} (known : e.Known L) : e.Known M :=
  known.imp fun _ _ => Ledger.Has.mono later

theorem Value.Known.mono {v : Value} (known : v.Known L) : v.Known M :=
  known.imp fun _ _ => Ledger.Has.mono later

end

namespace Value

variable {L : Ledger}

theorem Known.issued {v : Value} (known : v.Known L) : v.Issued L.length :=
  known.imp fun _ _ => Ledger.Has.lt

theorem known_pair {car cdr : Value} (knownCar : car.Known L) (knownCdr : cdr.Known L) :
    Known (L ++ [.pair L.length car cdr]) (.pair L.length car cdr) :=
  ⟨L.has_new _, knownCar.mono (List.prefix_append _ _), knownCdr.mono (List.prefix_append _ _)⟩

theorem known_list {vs : List Value} (known : ∀ v ∈ vs, v.Known L) :
    ∃ M, L <+: M ∧ M.length = (list L.length vs).2 ∧ Known M (list L.length vs).1 := by
  induction vs with
  | nil => exact ⟨L, List.prefix_refl L, rfl, trivial⟩
  | cons v vs ih =>
      obtain ⟨first, rest⟩ := List.forall_mem_cons.1 known
      obtain ⟨M, later, length, knownRest⟩ := ih rest
      have pair := known_pair (first.mono later) knownRest
      rw [length] at pair
      exact ⟨_, later.trans (List.prefix_append _ _), by simp [list, length], pair⟩

end Value

/-! ## Primitives -/

namespace Primitive

variable {L : Ledger} {op : Primitive} {args : List Value}

theorem TakenFrom.known {v : Value} (taken : TakenFrom args (.ok v)) (known : ∀ a ∈ args, a.Known L) :
    v.Known L := by
  cases taken with
  | number n => trivial
  | boolean b => trivial
  | argument member => exact known _ member
  | car member => exact (known _ member).2.1
  | cdr member => exact (known _ member).2.2

theorem apply_known {next : Identity} {v : Value} (known : ∀ a ∈ args, a.Known L)
    (result : op.apply args L.length = .ok (v, next)) :
    ∃ M, L <+: M ∧ M.length = next ∧ v.Known M := by
  unfold apply at result
  split at result
  · split at result
    · cases result
      refine ⟨_, List.prefix_append _ _, ?_, Value.known_pair (known _ ?_) (known _ ?_)⟩ <;> simp
    · injection result with made
      obtain ⟨M, later, length, knownList⟩ := Value.known_list known
      rw [made] at length knownList
      exact ⟨M, later, length, knownList⟩
    · obtain ⟨w, computed, same⟩ := map_eq_ok.1 result
      cases same
      have taken : TakenFrom args (op.compute args) := taken_compute args
      rw [computed] at taken
      exact ⟨L, List.prefix_refl L, rfl, taken.known known⟩
  · cases result

end Primitive

end StoreScheme
