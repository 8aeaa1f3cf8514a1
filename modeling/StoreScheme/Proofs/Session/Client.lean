import StoreScheme.Proofs.Eval.Renaming
import StoreScheme.Proofs.Session.History

/-!
# Clients of a session

A client keeps the forms and values that a session hands out and refers to them in later commands: the
forms by their number, the values by number, by the cell that holds them, or as a part of a pair.  So
the same commands can be given to different sessions.

* `Client.step`: the reply to a command
* `Client.watch`: what a client sees of a session while it gives commands
* `Client.step_unread`: a source that can not be read changes nothing
* `Client.request?_rename`, `Session.compute_rename`: under other names a command refers to the same
  things, and a session computes the same reply
-/

namespace StoreScheme

/-! ## Commands -/

inductive Handle
  | reply (i : Nat)
  | cell (a : Address)
  | car (h : Handle)
  | cdr (h : Handle)

inductive Command
  | read (source : String)
  | run (source : String)
  | form (i : Nat)
  | forms (is : List Nat)
  | apply (procedure : Handle) (args : List Handle)

/-- A session with what it handed out, the last first. -/
structure Client where
  session : Session
  forms : List Form := []
  values : List Value := []

namespace Client

def value? (c : Client) : Handle → Option Value
  | .reply i => c.values[i]?
  | .cell a => c.session.memory.store.read? a
  | .car h => ((c.value? h).bind Value.pair?).map Prod.fst
  | .cdr h => ((c.value? h).bind Value.pair?).map Prod.snd

/-- The request that a command stands for, if the client has what it refers to. -/
def request? (c : Client) : Command → Option Request
  | .read source => some (.read source)
  | .run source => some (.run source)
  | .form i => c.forms[i]?.map .form
  | .forms is => (is.mapM (c.forms[·]?)).map .forms
  | .apply procedure args => (c.value? procedure).bind fun procedure =>
      (args.mapM c.value?).map (.apply procedure)

def after (c : Client) (reply : Reply) (s : Session) : Client where
  session := s
  forms := reply.newForms ++ c.forms
  values := reply.newValues ++ c.values

def step (c : Client) (fuel : Nat) (command : Command) : Option (Reply × Client) :=
  (c.request? command).bind fun q =>
    (c.session.serve fuel q).map fun (reply, s) => (reply, c.after reply s)

end Client

/-! ## What is seen -/

/-- What a client sees after a command: the reply, the number of cells and the cell of every global
name. -/
structure Sight where
  reply : Reply
  size : Nat
  globals : String → Option Address

def Session.sight (s : Session) (reply : Reply) : Sight :=
  ⟨reply, s.memory.store.size, s.memory.globals.lookup?⟩

def Client.watch (c : Client) : List (Nat × Command) → Option (List Sight × Client)
  | [] => some ([], c)
  | (fuel, command) :: rest =>
    (c.step fuel command).bind fun (reply, c) =>
      (c.watch rest).map fun (sights, c') => (c.session.sight reply :: sights, c')

theorem Reply.ofEval_ne_unread {result : Except EvalError Value} {e : SourceError}
    (replied : Reply.ofEval result = .error e) : ∃ e', e = .eval e' := by
  cases result with
  | ok v => cases replied
  | error e' =>
      cases replied
      exact ⟨e', rfl⟩

theorem Session.serve_unread {s s' : Session} {fuel : Nat} {q : Request} {e : SourceError}
    (served : s.serve fuel q = some (.error e, s')) (unread : ∀ e', e ≠ .eval e') : s' = s := by
  -- Every other request is a computation, and these fail in another way.
  have computed {x : Eval Value}
      (ran : (s.compute x).map (fun r => (Reply.ofEval r.1, r.2)) = some (.error e, s')) :
      s' = s := by
    obtain ⟨⟨result, _⟩, -, replied⟩ := Option.map_eq_some_iff.1 ran
    obtain ⟨e', rfl⟩ := Reply.ofEval_ne_unread (congrArg Prod.fst replied)
    exact absurd rfl (unread e')
  cases q with
  | read source =>
      simp only [serve] at served
      split at served
      · cases served
      · rename_i read
        cases served
        exact (Invariant.read_error read).1
  | run source =>
      simp only [serve, run] at served
      split at served
      · rename_i read
        cases served
        exact (Invariant.read_error read).1
      · obtain ⟨⟨result, _⟩, ran, replied⟩ := Option.map_eq_some_iff.1 served
        obtain ⟨⟨result', _⟩, -, mapped⟩ := Option.map_eq_some_iff.1 ran
        cases result' <;> cases mapped <;> cases replied
        exact absurd rfl (unread _)
  | form x => exact computed served
  | forms xs => exact computed served
  | apply procedure args => exact computed served

theorem Client.step_unread {c c' : Client} {fuel : Nat} {command : Command} {e : SourceError}
    (stepped : c.step fuel command = some (.error e, c')) (unread : ∀ e', e ≠ .eval e') : c' = c := by
  obtain ⟨q, -, answered⟩ := Option.bind_eq_some_iff.1 stepped
  obtain ⟨⟨reply, s⟩, served, ⟨⟩⟩ := Option.map_eq_some_iff.1 answered
  rw [Session.serve_unread served unread]
  cases e with
  | eval e' => exact absurd rfl (unread e')
  | parse _ | form _ => rfl

/-! ## Other names -/

def Session.rename (ρ : Renaming) (s : Session) : Session := { s with memory := s.memory.rename ρ }

def Request.rename (ρ : Renaming) : Request → Request
  | .form x => .form (x.rename ρ)
  | .forms xs => .forms (xs.map (Form.rename ρ))
  | .apply procedure args => .apply (procedure.rename ρ) (args.map (Value.rename ρ))
  | q => q

def SourceError.rename (ρ : Renaming) : SourceError → SourceError
  | .eval e => .eval (e.rename ρ)
  | e => e

def Reply.rename (ρ : Renaming) : Reply → Reply
  | .forms xs => .forms (xs.map (Form.rename ρ))
  | .value v => .value (v.rename ρ)
  | .error e => .error (e.rename ρ)

def Client.rename (ρ : Renaming) (c : Client) : Client where
  session := c.session.rename ρ
  forms := c.forms.map (Form.rename ρ)
  values := c.values.map (Value.rename ρ)

section
variable (ρ : Renaming)

theorem Client.value?_rename (c : Client) (h : Handle) :
    (c.rename ρ).value? h = (c.value? h).map (Value.rename ρ) := by
  induction h with
  | reply i => exact List.getElem?_map
  | cell a => exact Store.read?_rename ρ _ a
  | car h ih | cdr h ih =>
      simp only [value?, ih]
      cases c.value? h with
      | none => rfl
      | some v => cases v <;> rfl

theorem mapM_rename {α β : Type} {f g : α → Option β} {h : β → β} (same : ∀ a, g a = (f a).map h)
    (as : List α) : as.mapM g = (as.mapM f).map (List.map h) := by
  induction as with
  | nil => rfl
  | cons a as ih =>
      simp only [List.mapM_cons, same, ih]
      cases f a with
      | none => rfl
      | some b => cases as.mapM f <;> rfl

theorem Client.request?_rename (c : Client) (command : Command) :
    (c.rename ρ).request? command = (c.request? command).map (Request.rename ρ) := by
  have form (i : Nat) : (c.rename ρ).forms[i]? = c.forms[i]?.map (Form.rename ρ) := List.getElem?_map
  cases command with
  | read source | run source => rfl
  | form i =>
      simp only [request?, form]
      cases c.forms[i]? <;> rfl
  | forms is =>
      simp only [request?, mapM_rename form]
      cases is.mapM (c.forms[·]?) <;> rfl
  | apply procedure args =>
      simp only [request?, value?_rename, mapM_rename (value?_rename ρ c)]
      cases c.value? procedure with
      | none => rfl
      | some v => cases args.mapM c.value? <;> rfl

theorem EvalError.values_rename (e : EvalError) :
    (e.rename ρ).values = e.values.map (Value.rename ρ) := by
  cases e with
  | primitive e => cases e <;> rfl
  | _ => rfl

theorem Client.after_rename (c : Client) (reply : Reply) (s : Session) :
    (c.rename ρ).after (reply.rename ρ) (s.rename ρ) = (c.after reply s).rename ρ := by
  have values : (reply.rename ρ).newValues = reply.newValues.map (Value.rename ρ) := by
    cases reply with
    | forms _ | value _ => rfl
    | error e =>
        cases e with
        | eval e => exact e.values_rename ρ
        | parse _ | form _ => rfl
  have forms : (reply.rename ρ).newForms = reply.newForms.map (Form.rename ρ) := by
    cases reply <;> rfl
  simp only [after, rename, values, forms, List.map_append]

theorem Session.compute_rename {ρ : Renaming} {x y : Eval Value}
    (renamed : Eval.Renamed ρ (Value.rename ρ) x y) (s : Session) :
    ((s.rename ρ).compute y).map (fun (result, s) => (Reply.ofEval result, s)) =
      ((s.compute x).map fun (result, s) => (Reply.ofEval result, s)).map
        fun (reply, s) => (reply.rename ρ, s.rename ρ) := by
  have same : y (s.rename ρ).memory = (x s.memory).rename ρ (Value.rename ρ) := renamed s.memory
  unfold compute
  rw [same]
  cases x s.memory <;> rfl

end

theorem EvalError.rename_rename {ρ σ : Renaming} (back : Function.LeftInverse σ ρ) (e : EvalError) :
    (e.rename ρ).rename σ = e := by
  cases e with
  | unboundVariable name => simp only [rename, back name]
  | badProcedure v => simp only [rename, v.rename_rename ρ back]
  | primitive e =>
      cases e with
      | wrongType op expected found =>
          simp only [rename, PrimitiveError.rename, found.rename_rename ρ back]
      | wrongArity _ _ | arithmetic _ => rfl
  | outOfBounds _ | emptyProgram | arityMismatch _ _ => rfl

theorem Reply.rename_rename {ρ σ : Renaming} (back : Function.LeftInverse σ ρ) (reply : Reply) :
    (reply.rename ρ).rename σ = reply := by
  cases reply with
  | forms xs => simp [rename, Function.comp_def, Form.rename_rename back]
  | value v => simp only [rename, v.rename_rename ρ back]
  | error e =>
      cases e with
      | eval e => simp only [rename, SourceError.rename, e.rename_rename back]
      | parse _ | form _ => rfl

end StoreScheme
