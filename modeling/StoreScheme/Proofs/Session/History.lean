import StoreScheme.Proofs.Expr.WellFormed
import StoreScheme.Proofs.Trace.Invariant

/-!
# Histories of a session

A session is used by requests: to read a source, to run one, to run forms that it read, and to apply
values that it handed out.  A history is a session after any number of requests, each of which ended
with a value or an error, together with the record of all evaluations so far.

* `Session.serve`: the reply to a request
* `Session.record`: the record after a request, also one that does not end
* `History.Reached`: the histories that come about
* `Invariant.reached_kept`, `Invariant.serve_kept`: an invariant of evaluation holds along every
  history
-/

namespace StoreScheme

/-! ## Requests -/

inductive Request
  | read (source : String)
  | run (source : String)
  | form (x : Form)
  | forms (xs : List Form)
  | apply (procedure : Value) (args : List Value)

inductive Reply
  | forms (xs : List Form)
  | value (v : Value)
  | error (e : SourceError)

namespace Reply

def ofSource : Except SourceError Value → Reply
  | .ok v => .value v
  | .error e => .error e

def ofEval : Except EvalError Value → Reply
  | .ok v => .value v
  | .error e => .error (.eval e)

def newForms : Reply → List Form
  | .forms xs => xs
  | _ => []

/-- The values that a reply hands out, also those that an error shows. -/
def newValues : Reply → List Value
  | .value v => [v]
  | .error (.eval e) => e.values
  | _ => []

end Reply

namespace Session

def serve (s : Session) (fuel : Nat) : Request → Option (Reply × Session)
  | .read source =>
    match s.read source with
    | (.ok xs, s) => some (.forms xs, s)
    | (.error e, s) => some (.error e, s)
  | .run source => (s.run fuel source).map fun (result, s) => (.ofSource result, s)
  | .form x => (s.runForm fuel x).map fun (result, s) => (.ofEval result, s)
  | .forms xs => (s.runForms fuel xs).map fun (result, s) => (.ofEval result, s)
  | .apply procedure args => (s.apply fuel procedure args).map fun (result, s) => (.ofEval result, s)

/-- The record after a request, whether or not the fuel was enough for it. -/
def record (s : Session) (fuel : Nat) (r : Record) : Request → Record
  | .read _ => r
  | .run source =>
    match s.read source with
    | (.ok xs, s) => (Traced.forms fuel s.options.redefine xs s.memory r).2
    | (.error _, _) => r
  | .form x => (Traced.form fuel s.options.redefine x s.memory r).2
  | .forms xs => (Traced.forms fuel s.options.redefine xs s.memory r).2
  | .apply procedure args => (Traced.apply (Traced.eval fuel) procedure args s.memory r).2

end Session

/-! ## Histories -/

structure History where
  session : Session
  record : Record := []
  forms : List Form := []
  values : List Value := []

namespace History

def moment (h : History) : Moment := ⟨h.session.memory, h.record⟩

/-- The values that a user of the session can get at: those in replies, those in cells, and what
their pairs hold. -/
inductive Holds (h : History) : Value → Prop
  | replied {v : Value} : v ∈ h.values → Holds h v
  | cell {a : Address} {v : Value} : h.session.memory.store.read? a = some v → Holds h v
  | car {id : Identity} {v w : Value} : Holds h (.pair id v w) → Holds h v
  | cdr {id : Identity} {v w : Value} : Holds h (.pair id v w) → Holds h w

/-- Forms have to be read by the session first, and values have to come from it. -/
def Allows (h : History) : Request → Prop
  | .read _ => True
  | .run _ => True
  | .form x => x ∈ h.forms
  | .forms xs => ∀ x ∈ xs, x ∈ h.forms
  | .apply procedure args => h.Holds procedure ∧ ∀ v ∈ args, h.Holds v

def after (h : History) (fuel : Nat) (q : Request) (reply : Reply) (s : Session) : History where
  session := s
  record := h.session.record fuel h.record q
  forms := reply.newForms ++ h.forms
  values := reply.newValues ++ h.values

inductive Reached : History → Prop
  | start (options : Options) : Reached { session := { options } }
  | step {h : History} {q : Request} {fuel : Nat} {reply : Reply} {s : Session} : Reached h →
    h.Allows q → h.session.serve fuel q = some (reply, s) → Reached (h.after fuel q reply s)

def ask (h : History) (fuel : Nat) (q : Request) : History :=
  match h.session.serve fuel q with
  | some (reply, s) => h.after fuel q reply s
  | none => h

theorem Reached.ask {h : History} (reached : h.Reached) (q : Request) (allowed : h.Allows q)
    (fuel : Nat) : (h.ask fuel q).Reached := by
  unfold History.ask
  split
  · rename_i reply s served
    exact .step reached allowed served
  · exact reached

end History

/-! ## Invariants along a history -/

namespace Invariant

variable {I : Invariant}

section
variable {s : Moment}

theorem Kept.trail {α : Type} {Q : Moment → α → Prop} {o : Outcome α × Record}
    (kept : I.Kept s Q o) : I.Trail o.2 := by
  rcases o with ⟨a | e | _, r⟩
  · exact kept.2.1.trail
  · exact kept.2.1.trail
  · exact kept

theorem define_kept (policy : RedefinePolicy) (name : String) {v : Value} (holds : I.Holds s)
    (proper : I.Proper s v) :
    I.Kept s (fun _ _ => True) (Traced.lift (Eval.define policy name v) s.memory s.record) := by
  have later : s.Before ⟨{ s.memory with
      store := (s.memory.store.allocate v).2
      globals := s.memory.globals.define policy name s.memory.store.size }, s.record⟩ :=
    Moment.before_of_memory (by simp [Store.size_allocate]) (Nat.le_refl _)
  refine ⟨later, ⟨⟨I.globals_define policy name v holds.sound.globals, fun a w read => ?_⟩,
    holds.trail⟩, trivial⟩
  change (s.memory.store.allocate v).2.read? a = some w at read
  rw [Store.read?_allocate] at read
  split at read
  · cases read
    exact proper.mono later
  · exact (Proper.mono later (holds.sound.cells a w read))

theorem top_kept (fuel : Nat) {x : Form} (holds : I.Holds s) (isRead : x.IsRead) :
    I.Kept s I.Proper (Traced.top fuel x.root s.memory s.record) :=
  I.eval_kept fuel s _ x.root [] holds (I.site_top s isRead)

theorem form_kept (fuel : Nat) (policy : RedefinePolicy) {x : Form} (holds : I.Holds s)
    (isRead : x.IsRead) : I.Kept s I.Proper (Traced.form fuel policy x s.memory s.record) := by
  have value := top_kept fuel holds isRead
  cases x with
  | expr e => exact value
  | define name e =>
      refine value.bind fun t v _ holds proper => ?_
      exact (define_kept policy name holds proper).bind fun _ _ _ holds _ => kept_pure holds trivial

theorem forms_kept (fuel : Nat) (policy : RedefinePolicy) {xs : List Form} (holds : I.Holds s)
    (isRead : ∀ x ∈ xs, x.IsRead) :
    I.Kept s I.Proper (Traced.forms fuel policy xs s.memory s.record) := by
  induction xs generalizing s with
  | nil => exact kept_fail holds (List.forall_mem_nil _) trivial
  | cons x xs ih =>
      have first := form_kept fuel policy holds (isRead x (by simp))
      cases xs with
      | cons y ys =>
          have rest : ∀ z ∈ y :: ys, z.IsRead := fun z member => isRead z (List.mem_cons_of_mem x member)
          cases x <;> exact first.bind fun t _ _ holds _ => ih holds rest
      | nil =>
          cases x with
          | expr e => exact first
          | define name e =>
              refine first.bind fun t _ _ holds _ => ?_
              exact kept_fail holds (List.forall_mem_nil _) trivial

end

structure Replied (I : Invariant) (s : Moment) (r : Record) (reply : Reply) (m : Memory) : Prop where
  before : s.Before ⟨m, r⟩
  holds : I.Holds ⟨m, r⟩
  values : ∀ v ∈ reply.newValues, I.Proper ⟨m, r⟩ v
  forms : ∀ x ∈ reply.newForms, x.IsRead
  explained : ∀ e, reply = .error (.eval e) → e.Explained r

theorem Kept.replied {t : Traced Value} {x : Eval Value} {s s' : Session} {r : Record}
    {result : Except EvalError Value} (kept : I.Kept ⟨s.memory, r⟩ I.Proper (t s.memory r))
    (erases : t.Erases x) (computed : s.compute x = some (result, s')) :
    I.Replied ⟨s.memory, r⟩ (t s.memory r).2 (.ofEval result) s'.memory := by
  unfold Session.compute at computed
  rw [← erases s.memory r] at computed
  rcases h : t s.memory r with ⟨⟨v, m⟩ | ⟨e, m⟩ | _, r'⟩ <;> rw [h] at kept computed <;> cases computed
  · obtain ⟨before, holds, proper⟩ := kept
    exact ⟨before, holds, fun w hw => List.mem_singleton.1 hw ▸ proper,
      List.forall_mem_nil _, fun e impossible => nomatch impossible⟩
  · obtain ⟨before, holds, values, explained⟩ := kept
    refine ⟨before, holds, values, List.forall_mem_nil _, ?_⟩
    rintro _ ⟨⟩
    exact explained

structure HoldsAlong (I : Invariant) (h : History) : Prop where
  holds : I.Holds h.moment
  values : ∀ v ∈ h.values, I.Proper h.moment v
  forms : ∀ x ∈ h.forms, x.IsRead

theorem HoldsAlong.proper {h : History} (along : I.HoldsAlong h) {v : Value} (held : h.Holds v) :
    I.Proper h.moment v := by
  induction held with
  | replied member => exact along.values _ member
  | cell read => exact along.holds.sound.cells _ _ read
  | car _ ih => exact ih.1
  | cdr _ ih => exact ih.2

theorem read_ok {s s' : Session} {source : String} {xs : List Form}
    (read : s.read source = (.ok xs, s')) :
    (∃ next, s.memory.fresh ≤ next ∧ s' = { s with memory := { s.memory with fresh := next } }) ∧
      ∀ x ∈ xs, x.IsRead := by
  unfold Session.read at read
  split at read
  · rename_i forms next built
    cases read
    exact ⟨⟨next, (readForms_ok built).1, rfl⟩, fun x member => ⟨_, _, _, _, _, built, member⟩⟩
  · cases read

theorem read_error {s s' : Session} {source : String} {e : SourceError}
    (read : s.read source = (.error e, s')) : s' = s ∧ ∀ e', e ≠ .eval e' := by
  unfold Session.read at read
  split at read <;> cases read
  rename_i failed
  refine ⟨rfl, fun e' same => ?_⟩
  subst same
  unfold readForms at failed
  dsimp only at failed
  split at failed
  · split at failed <;> cases failed
  · cases failed

theorem Holds.take {m : Memory} {r : Record} {next : Identity} (grown : m.fresh ≤ next)
    (holds : I.Holds ⟨m, r⟩) :
    Moment.Before ⟨m, r⟩ ⟨{ m with fresh := next }, r⟩ ∧ I.Holds ⟨{ m with fresh := next }, r⟩ := by
  have later : Moment.Before ⟨m, r⟩ ⟨{ m with fresh := next }, r⟩ :=
    Moment.before_of_memory (Nat.le_refl _) grown
  exact ⟨later, sound_later holds.sound later rfl fun _ _ read => .inl read, holds.trail⟩

theorem replied_error {s : Moment} {e : SourceError} (holds : I.Holds s) (notEval : ∀ e', e ≠ .eval e') :
    I.Replied s s.record (.error e) s.memory where
  before := .refl s
  holds := holds
  values v hv := by
    cases e with
    | eval e' => exact absurd rfl (notEval e')
    | parse _ | form _ => exact absurd hv List.not_mem_nil
  forms x hx := absurd hx List.not_mem_nil
  explained e' same := by
    cases same
    exact absurd rfl (notEval e')

theorem Replied.of_before {s t : Moment} {r : Record} {reply : Reply} {m : Memory} (st : s.Before t)
    (replied : I.Replied t r reply m) : I.Replied s r reply m :=
  { replied with before := st.trans replied.before }

theorem serve_kept {h : History} (along : I.HoldsAlong h) {q : Request} (allowed : h.Allows q)
    (fuel : Nat) :
    I.Trail (h.session.record fuel h.record q) ∧
      ∀ reply s, h.session.serve fuel q = some (reply, s) →
        I.Replied h.moment (h.session.record fuel h.record q) reply s.memory := by
  obtain ⟨session, record, forms, values⟩ := h
  -- Each request but `read` is a computation, which the record follows.
  have computed {t : Traced Value} {x : Eval Value} (erases : t.Erases x)
      (kept : I.Kept ⟨session.memory, record⟩ I.Proper (t session.memory record)) (reply : Reply)
      (s : Session) (served : (session.compute x).map (fun (result, s) => (Reply.ofEval result, s)) =
        some (reply, s)) :
      I.Replied ⟨session.memory, record⟩ (t session.memory record).2 reply s.memory := by
    obtain ⟨⟨result, s⟩, ran, ⟨⟩⟩ := Option.map_eq_some_iff.1 served
    exact kept.replied erases ran
  cases q with
  | read source =>
      refine ⟨along.holds.trail, fun reply s served => ?_⟩
      simp only [Session.serve] at served
      split at served
      · rename_i xs s' read
        cases served
        obtain ⟨⟨next, grown, rfl⟩, isRead⟩ := read_ok read
        obtain ⟨before, holds⟩ := along.holds.take grown
        exact ⟨before, holds, List.forall_mem_nil _, isRead,
          fun e impossible => nomatch impossible⟩
      · rename_i e s' read
        cases served
        obtain ⟨rfl, notEval⟩ := read_error read
        exact replied_error along.holds notEval
  | run source =>
      simp only [Session.serve, Session.run, Session.record]
      split
      · rename_i xs s' read
        obtain ⟨⟨next, grown, rfl⟩, isRead⟩ := read_ok read
        obtain ⟨before, holds⟩ := along.holds.take grown
        have kept := forms_kept fuel session.options.redefine holds isRead
        simp only [read]
        refine ⟨kept.trail, fun reply s served => ?_⟩
        obtain ⟨_, mapped, ⟨⟩⟩ := Option.map_eq_some_iff.1 served
        obtain ⟨⟨result, s⟩, ran, rfl⟩ := Option.map_eq_some_iff.1 mapped
        have replied := kept.replied (Traced.forms_erases fuel _ xs) ran
        cases result <;> exact replied.of_before before
      · rename_i e s' read
        obtain ⟨rfl, notEval⟩ := read_error read
        simp only [read]
        refine ⟨along.holds.trail, fun reply s served => ?_⟩
        cases served
        exact replied_error along.holds notEval
  | form x =>
      have kept := form_kept fuel session.options.redefine along.holds (along.forms x allowed)
      exact ⟨kept.trail, computed (Traced.form_erases fuel _ x) kept⟩
  | forms xs =>
      have isRead : ∀ x ∈ xs, x.IsRead := fun x member => along.forms x (allowed x member)
      have kept := forms_kept fuel session.options.redefine along.holds isRead
      exact ⟨kept.trail, computed (Traced.forms_erases fuel _ xs) kept⟩
  | apply procedure args =>
      have kept := apply_kept (I.eval_kept fuel) along.holds (along.proper allowed.1)
        fun v member => along.proper (allowed.2 v member)
      exact ⟨kept.trail, computed (Traced.apply_erases (Traced.eval_erases fuel) procedure args) kept⟩

theorem reached_kept (I : Invariant) {h : History} (reached : h.Reached) : I.HoldsAlong h := by
  induction reached with
  | start options =>
      refine ⟨⟨⟨I.globals_mono ?_ rfl I.globals_empty, fun a v read => ?_⟩, trivial⟩, ?_, ?_⟩
      · exact .refl _
      · exact absurd (Store.read?_eq_some_lt read) (Nat.not_lt_zero a)
      · exact List.forall_mem_nil _
      · exact List.forall_mem_nil _
  | @step h q fuel reply s _ allowed served along =>
      obtain ⟨before, holds, values, forms, -⟩ := (serve_kept along allowed fuel).2 reply s served
      refine ⟨holds, fun v member => ?_, fun x member => ?_⟩
      · rcases List.mem_append.1 member with new | old
        · exact values v new
        · exact (along.values v old).mono before
      · rcases List.mem_append.1 member with new | old
        · exact forms x new
        · exact along.forms x old

end Invariant

end StoreScheme
